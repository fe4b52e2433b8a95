import SectorVolume.Proofs.Cache.Replacing

/-!
# No failed transfer is passed over

When a transfer fails, what needed it fails too, up to the operation as a whole. A fault that is
caught on the way, so that something can be given back or written before, is answered all the same.
So after an operation that succeeded as many transfers have failed as before.
-/

namespace SectorVolume

namespace Action

variable {ε σ α β : Type} {count : σ → Nat} {good : α → Prop} {good' : β → Prop}

/-- If the action has a good result, the count is as before. -/
def SmoothIf (count : σ → Nat) (good : α → Prop) (x : EStateM ε σ α) : Prop :=
  ∀ s, Ends x s (fun a s' => good a → count s' = count s) fun _ _ => True

/-- If the action has a result, the count is as before. -/
def Smooth (count : σ → Nat) (x : EStateM ε σ α) : Prop := SmoothIf count (fun _ => True) x

/-- The action never has a good result. -/
def Fails (good : α → Prop) (x : EStateM ε σ α) : Prop :=
  ∀ s, Ends x s (fun a _ => ¬ good a) fun _ _ => True

section

variable {x : EStateM ε σ α}

theorem fails_pure {a : α} (h : ¬ good a) : Fails good (pure a : EStateM ε σ α) := fun _ =>
  ends_pure h

theorem fails_fail (c : Fault) : Fails good (fail c : Action σ α) := fun _ => ends_throw trivial

theorem Fails.bind {k : α → EStateM ε σ β} (h : Fails (fun _ => True) x) : Fails good' (x >>= k) :=
  fun s => (h s).bind (fun _ _ no => absurd trivial no) fun _ _ h => h

/-- What fails in the end may do anything before. -/
theorem Fails.after {k : α → EStateM ε σ β} (h : ∀ a, Fails good' (k a)) : Fails good' (x >>= k) :=
  fun s => (ends_trivial x s).bind (fun a s' _ => h a s') fun _ _ h => h

theorem Fails.smooth (h : Fails (fun _ => True) x) : SmoothIf count good x := fun s =>
  (h s).mono (fun _ _ no => absurd trivial no) fun _ _ h => h

theorem SmoothIf.bind {k : α → EStateM ε σ β} (h : SmoothIf count good x)
    (hk : ∀ a, good a → SmoothIf count good' (k a)) (hk' : ∀ a, ¬ good a → Fails good' (k a)) :
    SmoothIf count good' (x >>= k) := by
  refine fun s => (h s).bind (fun a s₁ h₁ => ?_) fun _ _ h => h
  by_cases e : good a
  · exact (hk a e s₁).mono (fun b s₂ h₂ e' => (h₂ e').trans (h₁ e)) fun _ _ h => h
  · exact (hk' a e s₁).mono (fun b s₂ h₂ e' => absurd e' h₂) fun _ _ h => h

theorem Smooth.bind {k : α → EStateM ε σ β} (h : Smooth count x)
    (hk : ∀ a, SmoothIf count good' (k a)) : SmoothIf count good' (x >>= k) :=
  SmoothIf.bind h (fun a _ => hk a) fun _ no => absurd trivial no

theorem smooth_pure (a : α) : SmoothIf count good (pure a : EStateM ε σ α) := fun _ =>
  ends_pure fun _ => rfl

theorem smooth_throw (e : ε) : SmoothIf count good (throw e : EStateM ε σ α) := fun _ =>
  ends_throw trivial

theorem smooth_violate (v : Violation) : SmoothIf count good (violate v : Action σ α) :=
  smooth_throw _

theorem smooth_fail (c : Fault) : SmoothIf count good (fail c : Action σ α) := smooth_throw _

theorem smooth_get : Smooth count (get : EStateM ε σ σ) := fun s =>
  ends_of_ok (rfl : (get : EStateM ε σ σ) s = .ok s s) fun _ => rfl

theorem smooth_modify {g : σ → σ} (h : ∀ s, count (g s) = count s) :
    Smooth count (modify g : EStateM ε σ PUnit) := fun s => ends_modify fun _ => h s

theorem smooth_ofExcept (r : Except Violation α) : Smooth count (ofExcept r : Action σ α) := by
  cases r with
  | ok a => exact smooth_pure a
  | error v => exact smooth_violate v

theorem smooth_resume (r : Except Fault α) : Smooth count (resume r : Action σ α) := by
  cases r with
  | ok a => exact smooth_pure a
  | error c => exact smooth_fail c

theorem smooth_ite {p : Prop} [Decidable p] {y : EStateM ε σ α} (h : SmoothIf count good x)
    (h' : SmoothIf count good y) : SmoothIf count good (if p then x else y) := by
  split
  · exact h
  · exact h'

theorem smooth_when {p : Prop} [Decidable p] {y : EStateM ε σ Unit} {k : Unit → EStateM ε σ α}
    (h : Smooth count y) (hk : SmoothIf count good (k ())) :
    SmoothIf count good (if p then y >>= k else k ()) := smooth_ite (h.bind fun _ => hk) hk

/-- A specification of an action that passes no failed transfer over says so too. -/
theorem Meets.and_smooth {x : Action σ α} {s : σ} {d : α → σ → Prop} {f : Fault → σ → Prop}
    (h : Meets x s d f) (smooth : Smooth count x) :
    Meets x s (fun a s' => count s' = count s ∧ d a s') f :=
  .of_ends ((h.ends.and (smooth s)).mono (fun _ _ h => ⟨h.2 trivial, h.1⟩) fun _ _ h => h.1)
    fun _ _ h => h

/-- A fault may be caught if what follows it fails too. -/
theorem Smooth.caught {x : Action σ α} {k : Except Fault α → Action σ β} (h : Smooth count x)
    (hk : ∀ a, SmoothIf count good' (k (.ok a))) (hk' : ∀ c, Fails good' (k (.error c))) :
    SmoothIf count good' (attempt x >>= k) := by
  have caught : SmoothIf count (fun r => ∃ a, r = .ok a) (attempt x) := fun s =>
    (h s).attempt (fun _ _ same _ => same trivial) fun _ _ _ => nofun
  refine caught.bind ?_ fun r no => ?_
  · rintro _ ⟨a, rfl⟩
    exact hk a
  · cases r with
    | ok a => exact absurd ⟨a, rfl⟩ no
    | error c => exact hk' c

end

end Action

open SectorVolume.Action

variable {α : Type}

namespace Disk

theorem smooth_grant (n : SectorId) (direction : Direction) :
    SmoothIf failures (· = none) (grant ⟨direction, n.toNat⟩) := fun d =>
  (ends_grant _ d n.toNat_lt).mono (fun _ _ h e => by rw [h.2.1, e]; rfl) fun _ _ no => no.elim

theorem smooth_read (n : SectorId) : SmoothIf failures (∃ b, · = .ok b) (read n.toNat) := by
  refine (smooth_grant n .read).bind ?_ fun cause refused => ?_
  · rintro _ rfl
    exact fun d => ends_modifyGet fun _ => rfl
  · cases cause with
    | none => exact absurd rfl refused
    | some cause => exact fails_pure nofun

theorem smooth_write (n : SectorId) (s : Sector) :
    SmoothIf failures (∃ b, · = .ok b) (write n.toNat s) := by
  refine (smooth_grant n .write).bind ?_ fun cause refused => ?_
  · rintro _ rfl
    exact fun d => ends_modifyGet fun _ => rfl
  · cases cause with
    | none => exact absurd rfl refused
    | some cause => exact fails_pure nofun

end Disk

namespace Storage

/-- The number of transfers that failed so far. -/
def failures (st : Storage) : Nat := st.disk.failures

theorem smooth_onDisk {good : α → Prop} {x : Action Disk α} (h : SmoothIf Disk.failures good x) :
    SmoothIf failures good (onDisk x) := fun st =>
  (ends_onDisk (h st.disk)).mono (fun _ _ h => h.1) fun _ _ _ => trivial

theorem smooth_onCache (f : Cache → Cache) : Smooth failures (onCache f) :=
  smooth_modify fun _ => rfl

theorem smooth_note (e : Event) : Smooth failures (note e) := smooth_modify fun _ => rfl

theorem smooth_select : Smooth failures select := fun _ => ends_modifyGet fun _ => rfl

theorem smooth_writeBack (i : Nat) : Smooth failures (writeBack i) := by
  unfold writeBack
  refine smooth_get.bind fun st => ?_
  extract_lets slot done
  refine smooth_when (smooth_throw _) ?_
  unfold done
  split
  · next sector bytes _ =>
    refine (smooth_onDisk (Disk.smooth_write sector bytes)).bind ?_ fun r refused => ?_
    · rintro _ ⟨_, rfl⟩
      exact (smooth_onCache _).bind fun _ => (smooth_note _).bind fun _ => smooth_pure _
    · cases r with
      | ok b => exact absurd ⟨b, rfl⟩ refused
      | error cause => exact Fails.after fun _ => fails_fail _
  · exact smooth_pure _

theorem smooth_vacancy : Smooth failures vacancy := by
  unfold vacancy
  refine smooth_select.bind fun first => smooth_get.bind fun st => smooth_ite (smooth_pure _) ?_
  refine smooth_when (smooth_note _) ((smooth_writeBack _).bind fun _ => ?_)
  exact smooth_select.bind fun second => smooth_pure _

theorem smooth_firstLine (sector : SectorId) (fill : Fill) :
    SmoothIf failures (∃ l, · = .ok l) (firstLine sector fill) := by
  cases fill with
  | disk =>
    refine (smooth_onDisk (Disk.smooth_read sector)).bind ?_ fun r refused => ?_
    · rintro _ ⟨_, rfl⟩
      exact smooth_pure _
    · cases r with
      | ok b => exact absurd ⟨b, rfl⟩ refused
      | error cause => exact fails_pure nofun
  | blank => exact smooth_pure _
  | bytes b => exact smooth_pure _

theorem smooth_claim (sector : SectorId) (fill : Fill) : Smooth failures (claim sector fill) := by
  unfold claim
  refine smooth_vacancy.bind fun i => smooth_get.bind fun st => ?_
  extract_lets load
  have loads : Smooth failures (load ⟨⟩) := by
    refine (smooth_firstLine sector fill).bind ?_ fun r refused => ?_
    · rintro _ ⟨line, rfl⟩
      exact (smooth_onCache _).bind fun _ => (smooth_note _).bind fun _ => smooth_pure _
    · cases r with
      | ok line => exact absurd ⟨line, rfl⟩ refused
      | error cause => exact Fails.after fun _ => fails_fail _
  split
  · exact (smooth_onCache _).bind fun _ => (smooth_note _).bind fun _ => loads
  · exact loads

theorem smooth_fetch (sector : SectorId) (fill : Fill) : Smooth failures (fetch sector fill) := by
  unfold fetch
  refine smooth_get.bind fun st => ?_
  split
  · exact smooth_pure _
  · exact smooth_claim sector fill

theorem smooth_readSector (sector : SectorId) : Smooth failures (readSector sector) :=
  (smooth_fetch sector .disk).bind fun _ => fun _ => ends_modifyGet fun _ => rfl

theorem smooth_modifySector (sector : SectorId) (f : Sector → Except Violation (α × Sector)) :
    Smooth failures (modifySector sector f) := by
  unfold modifySector
  refine (smooth_fetch sector .disk).bind fun i => smooth_get.bind fun st => ?_
  exact (smooth_ofExcept _).bind fun _ => (smooth_onCache _).bind fun _ => smooth_pure _

theorem smooth_replaceSector (sector : SectorId) (bytes : Sector) :
    Smooth failures (replaceSector sector bytes) :=
  (smooth_fetch sector .blank).bind fun _ => smooth_onCache _

theorem smooth_write (sector : SectorId) (offset : Nat) (bytes : Bytes) :
    Smooth failures (write sector offset bytes) := by
  have range : Smooth failures (checkRange offset bytes.size .writeOutsideSector) := by
    unfold checkRange
    exact smooth_when (smooth_violate _) (smooth_ite (smooth_violate _) (smooth_pure _))
  unfold write
  refine range.bind fun _ => smooth_get.bind fun st => ?_
  split
  · exact (smooth_onCache _).bind fun _ => smooth_note _
  · refine smooth_ite ?_ ?_
    · exact (smooth_note _).bind fun _ => (smooth_claim _ _).bind fun _ => smooth_pure _
    · exact (smooth_claim _ _).bind fun _ => (smooth_onCache _).bind fun _ => smooth_note _

end Storage

end SectorVolume
