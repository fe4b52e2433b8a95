import SectorVolume.Failure

/-!
# How an action ends

`Ends` says what holds after an action, for each of the two ways in which it can end; what a failure
is does not matter there. `Meets` is the same for actions that only ever fail with a fault: no rule
is broken and nothing waits. Sequences are taken apart by `Ends.bind` and `Meets.bind`, and a fault
that is caught by `Meets.attempt`. What holds before and after an action, however it ends, is told
by `Preserves`.
-/

namespace SectorVolume

namespace Action

variable {ε σ τ α β : Type}

/-- Started in `s`, the action yields a result with `done`, or it fails with `failed`. -/
def Ends (x : EStateM ε σ α) (s : σ) (done : α → σ → Prop) (failed : ε → σ → Prop) : Prop :=
  match x s with
  | .ok a s' => done a s'
  | .error e s' => failed e s'

/-- Started in `s`, the action yields a result with `done`, or it ends in a fault with `fault`. -/
def Meets (x : Action σ α) (s : σ) (done : α → σ → Prop) (fault : Fault → σ → Prop) : Prop :=
  Ends x s done fun e s' => ∃ c, e = .fault c ∧ fault c s'

section Ends

variable {x : EStateM ε σ α} {s : σ} {d d' : α → σ → Prop} {f f' : ε → σ → Prop}

theorem Ends.mono (h : Ends x s d f) (hd : ∀ a s', d a s' → d' a s')
    (hf : ∀ e s', f e s' → f' e s') : Ends x s d' f' := by
  unfold Ends at h ⊢
  cases e : x s with
  | ok a s' => rw [e] at h; exact hd a s' h
  | error e' s' => rw [e] at h; exact hf e' s' h

theorem Ends.bind {k : α → EStateM ε σ β} {D : β → σ → Prop} {F : ε → σ → Prop}
    (h : Ends x s d f) (hd : ∀ a s', d a s' → Ends (k a) s' D F) (hf : ∀ e s', f e s' → F e s') :
    Ends (x >>= k) s D F := by
  unfold Ends at h ⊢
  show match EStateM.bind x k s with | .ok a s' => D a s' | .error e s' => F e s'
  unfold EStateM.bind
  cases e : x s with
  | ok a s' => rw [e] at h; exact hd a s' h
  | error e' s' => rw [e] at h; exact hf e' s' h

theorem ends_of_ok {a : α} {s' : σ} (e : x s = .ok a s') (h : d a s') : Ends x s d f := by
  unfold Ends
  rw [e]
  exact h

theorem ends_of_error {c : ε} {s' : σ} (e : x s = .error c s') (h : f c s') : Ends x s d f := by
  unfold Ends
  rw [e]
  exact h

/-- What follows a result goes on from there. -/
theorem run_bind {k : α → EStateM ε σ β} {a : α} {s' : σ} {r : EStateM.Result ε σ β}
    (e : x s = .ok a s') (h : k a s' = r) : (x >>= k) s = r := by
  show EStateM.bind x k s = r
  unfold EStateM.bind
  rw [e]
  exact h

/-- Nothing follows a failure. -/
theorem run_bind_error {k : α → EStateM ε σ β} {e : ε} {s' : σ} (h : x s = .error e s') :
    (x >>= k) s = .error e s' := by
  show EStateM.bind x k s = _
  unfold EStateM.bind
  rw [h]

/-- What follows an action depends on how the action ends. -/
theorem bind_congr_at {y : EStateM ε σ α} {s' : σ} (e : x s = y s') (k : α → EStateM ε σ β) :
    (x >>= k) s = (y >>= k) s' := by
  show EStateM.bind x k s = EStateM.bind y k s'
  unfold EStateM.bind
  rw [e]

theorem ends_trivial (x : EStateM ε σ α) (s : σ) : Ends x s (fun _ _ => True) fun _ _ => True := by
  unfold Ends
  cases x s <;> trivial

theorem ends_pure {a : α} (h : d a s) : Ends (pure a) s d f := h

theorem ends_throw {e : ε} (h : f e s) : Ends (throw e) s d f := h

theorem ends_modifyGet {g : σ → α × σ} (h : d (g s).1 (g s).2) : Ends (modifyGet g) s d f := h

theorem get_bind {k : σ → EStateM ε σ α} : (get >>= k) s = k s s := rfl

theorem ends_get_bind {k : σ → EStateM ε σ α} (h : Ends (k s) s d f) : Ends (get >>= k) s d f := h

theorem ends_modify {g : σ → σ} {d : PUnit → σ → Prop} (h : d ⟨⟩ (g s)) :
    Ends (modify g) s d f := h

theorem ends_modify_bind {g : σ → σ} {k : PUnit → EStateM ε σ α} (h : Ends (k ⟨⟩) (g s) d f) :
    Ends (modify g >>= k) s d f := h

theorem ends_violate_bind {v : Violation} {k : α → Action σ β} {D : β → σ → Prop}
    {f : Failure → σ → Prop} (h : f (.violation v) s) : Ends (violate v >>= k) s D f := h

theorem Ends.of_eq {y : EStateM ε σ α} {s' : σ} (h : Ends y s' d f) (e : x s = y s') :
    Ends x s d f := by
  unfold Ends at h ⊢
  rwa [e]

theorem ends_ofExcept {r : Except Violation α} {f : Failure → σ → Prop}
    (hd : ∀ a, r = .ok a → d a s) (hf : ∀ v, r = .error v → f (.violation v) s) :
    Ends (ofExcept r) s d f := by
  cases r with
  | ok a => exact hd a rfl
  | error v => exact hf v rfl

/-- A check that is passed has no effect. -/
theorem ends_ok_bind {r : Except Violation α} {a : α} {k : α → Action σ β} {D : β → σ → Prop}
    {F : Failure → σ → Prop} (e : r = .ok a) (h : Ends (k a) s D F) :
    Ends (ofExcept r >>= k) s D F := by
  subst e
  exact h

/-- Both postconditions of two specifications hold together. -/
theorem Ends.and (h : Ends x s d f) (h' : Ends x s d' f') :
    Ends x s (fun a s' => d a s' ∧ d' a s') (fun e s' => f e s' ∧ f' e s') := by
  unfold Ends at h h' ⊢
  cases e : x s with
  | ok a s' => rw [e] at h h'; exact ⟨h, h'⟩
  | error e' s' => rw [e] at h h'; exact ⟨h, h'⟩

/-- What is known of an outcome beside a specification is how it came about. -/
theorem Ends.run (h : Ends x s d f) :
    Ends x s (fun a s' => d a s' ∧ x s = .ok a s') (fun e s' => f e s' ∧ x s = .error e s') := by
  unfold Ends at h ⊢
  cases e : x s with
  | ok a s' => rw [e] at h; exact ⟨h, rfl⟩
  | error e' s' => rw [e] at h; exact ⟨h, rfl⟩

theorem Ends.ok {a : α} {s' : σ} (h : Ends x s d f) (e : x s = .ok a s') : d a s' := by
  unfold Ends at h; rw [e] at h; exact h

theorem Ends.error {c : ε} {s' : σ} (h : Ends x s d f) (e : x s = .error c s') : f c s' := by
  unfold Ends at h; rw [e] at h; exact h

/-- What cannot fail in the way told has a result. -/
theorem Ends.returns (h : Ends x s d f) (never : ∀ e s', ¬ f e s') :
    ∃ a s', x s = .ok a s' ∧ d a s' := by
  unfold Ends at h
  cases e : x s with
  | ok a s' => rw [e] at h; exact ⟨a, s', rfl, h⟩
  | error e' s' => rw [e] at h; exact absurd h (never e' s')

/-- What cannot fail has a result. -/
theorem Ends.succeeds (h : Ends x s d fun _ _ => False) : ∃ a s', x s = .ok a s' ∧ d a s' :=
  h.returns fun _ _ no => no

/-- A fault that is caught is a result. -/
theorem attempt_of_ok {x : Action σ α} {a : α} {s' : σ} (run : x s = .ok a s') :
    attempt x s = .ok (.ok a) s' := by
  unfold attempt
  rw [run]

theorem attempt_of_fault {x : Action σ α} {c : Fault} {s' : σ}
    (run : x s = .error (.fault c) s') : attempt x s = .ok (.error c) s' := by
  unfold attempt
  rw [run]

theorem Ends.attempt {x : Action σ α} {d : α → σ → Prop} {D : Except Fault α → σ → Prop}
    {F : Failure → σ → Prop} (h : Ends x s d F) (hd : ∀ a s', d a s' → D (.ok a) s')
    (hf : ∀ c s', F (.fault c) s' → D (.error c) s') : Ends (attempt x) s D F := by
  unfold Ends at h ⊢
  unfold Action.attempt
  cases e : x s with
  | ok a s' => rw [e] at h; exact hd a s' h
  | error e' s' =>
    rw [e] at h
    cases e' with
    | fault c => exact hf c s' h
    | violation | blocked => exact h

/-- Running an action one number after the other keeps what each step keeps. -/
theorem ends_forEach {g : Nat → Action σ Unit} {I : Nat → σ → Prop} {F : Failure → σ → Prop}
    {first : Nat} (count : Nat) (h₀ : I first s)
    (step : ∀ i s', first ≤ i → i < first + count → I i s' →
      Ends (g i) s' (fun _ s'' => I (i + 1) s'') F) :
    Ends (forEach g first count) s (fun _ s' => I (first + count) s') F := by
  induction count generalizing first s with
  | zero => exact ends_pure h₀
  | succ count ih =>
    refine (step first s (Nat.le_refl _) (by omega) h₀).bind (fun _ s' h₁ => ?_) fun _ _ h => h
    have := ih h₁ fun i s'' hi hi' => step i s'' (by omega) (by omega)
    rwa [show first + 1 + count = first + (count + 1) by omega] at this

/-- Started in `s`, the action yields a result with `done`. -/
def Yields (x : EStateM ε σ α) (s : σ) (done : α → σ → Prop) : Prop := Ends x s done fun _ _ => False

theorem yields_of_ok {a : α} {s' : σ} (e : x s = .ok a s') (h : d a s') : Yields x s d :=
  ends_of_ok e h

theorem not_yields_of_error {e : ε} {s' : σ} (h : x s = .error e s') : ¬ Yields x s d := fun h' =>
  Ends.error h' h

end Ends

section Meets

variable {x : Action σ α} {s : σ} {d d' : α → σ → Prop} {f f' : Fault → σ → Prop}

theorem Meets.mono (h : Meets x s d f) (hd : ∀ a s', d a s' → d' a s')
    (hf : ∀ c s', f c s' → f' c s') : Meets x s d' f' :=
  Ends.mono h hd fun _ s' ⟨c, e, hc⟩ => ⟨c, e, hf c s' hc⟩

theorem Meets.of_ends {F : Failure → σ → Prop} (h : Ends x s d F)
    (hf : ∀ e s', F e s' → ∃ c, e = .fault c ∧ f c s') : Meets x s d f :=
  Ends.mono h (fun _ _ h => h) hf

theorem Meets.of_eq {y : Action σ α} {s' : σ} (h : Meets y s' d f) (e : x s = y s') :
    Meets x s d f :=
  Ends.of_eq h e

theorem Meets.ends (h : Meets x s d f) : Ends x s d fun e s' => ∃ c, e = .fault c ∧ f c s' := h

theorem Meets.bind {k : α → Action σ β} {D : β → σ → Prop} {F : Fault → σ → Prop}
    (h : Meets x s d f) (hd : ∀ a s', d a s' → Meets (k a) s' D F) (hf : ∀ c s', f c s' → F c s') :
    Meets (x >>= k) s D F :=
  Ends.bind h hd fun _ s' ⟨c, e, hc⟩ => ⟨c, e, hf c s' hc⟩

theorem meets_pure {a : α} (h : d a s) : Meets (pure a) s d f := h

theorem meets_fail {c : Fault} (h : f c s) : Meets (fail c) s d f := ⟨c, rfl, h⟩

theorem meets_get {k : σ → Action σ α} (h : Meets (k s) s d f) : Meets (get >>= k) s d f := h

theorem meets_modify {g : σ → σ} {k : PUnit → Action σ α} (h : Meets (k ⟨⟩) (g s) d f) :
    Meets (modify g >>= k) s d f := h

theorem meets_resume {r : Except Fault α} (hd : ∀ a, r = .ok a → d a s)
    (hf : ∀ c, r = .error c → f c s) : Meets (resume r) s d f := by
  cases r with
  | ok a => exact hd a rfl
  | error c => exact meets_fail (hf c rfl)

theorem Meets.attempt {D : Except Fault α → σ → Prop} {F : Fault → σ → Prop} (h : Meets x s d f)
    (hd : ∀ a s', d a s' → D (.ok a) s') (hf : ∀ c s', f c s' → D (.error c) s') :
    Meets (attempt x) s D F := by
  unfold Meets Ends at h ⊢
  unfold Action.attempt
  cases e : x s with
  | ok a s' => rw [e] at h; exact hd a s' h
  | error e' s' =>
    rw [e] at h
    obtain ⟨c, rfl, hc⟩ := h
    exact hf c s' hc

/-- Both postconditions of two specifications hold together. -/
theorem Meets.and (h : Meets x s d f) (h' : Meets x s d' f') :
    Meets x s (fun a s' => d a s' ∧ d' a s') (fun c s' => f c s' ∧ f' c s') := by
  refine Ends.mono (Ends.and h.ends h'.ends) (fun _ _ h => h) ?_
  rintro _ s' ⟨⟨c, rfl, hc⟩, c', e, hc'⟩
  cases e
  exact ⟨c, rfl, hc, hc'⟩

theorem Meets.run (h : Meets x s d f) :
    Meets x s (fun a s' => d a s' ∧ x s = .ok a s') (fun c s' => f c s' ∧ x s = .error (.fault c) s') :=
  Ends.mono (Ends.run h) (fun _ _ h => h) fun _ _ ⟨⟨c, e, hc⟩, run⟩ => ⟨c, e, hc, e ▸ run⟩

theorem Meets.ok {a : α} {s' : σ} (h : Meets x s d f) (e : x s = .ok a s') : d a s' := Ends.ok h e

/-- Running an action one number after the other keeps what each step keeps. -/
theorem meets_forEach {g : Nat → Action σ Unit} {I : Nat → σ → Prop} {first : Nat}
    (count : Nat) (h₀ : I first s)
    (step : ∀ i s', first ≤ i → i < first + count → I i s' →
      Meets (g i) s' (fun _ s'' => I (i + 1) s'') f) :
    Meets (forEach g first count) s (fun _ s' => I (first + count) s') f :=
  ends_forEach count h₀ step

end Meets

section Preserves

variable {I : σ → Prop} {x : EStateM ε σ α}

/-- However the action ends, it keeps the invariant. -/
def Preserves (I : σ → Prop) (x : EStateM ε σ α) : Prop :=
  ∀ s, I s → Ends x s (fun _ s' => I s') fun _ s' => I s'

theorem Preserves.bind {k : α → EStateM ε σ β} (h : Preserves I x) (hk : ∀ a, Preserves I (k a)) :
    Preserves I (x >>= k) := fun s hs =>
  (h s hs).bind (fun a s₁ hs₁ => hk a s₁ hs₁) fun _ _ hs₁ => hs₁

theorem preserves_pure (a : α) : Preserves I (pure a : EStateM ε σ α) := fun _ hs => ends_pure hs

theorem preserves_fail (c : Fault) : Preserves (α := α) I (fail c) := fun _ hs => ends_throw hs

theorem preserves_violate (v : Violation) : Preserves (α := α) I (violate v) := fun _ hs =>
  ends_throw hs

theorem preserves_get : Preserves I (get : EStateM ε σ σ) := fun s hs => show I s from hs

theorem preserves_modify {g : σ → σ} (h : ∀ s, I s → I (g s)) :
    Preserves I (modify g : EStateM ε σ PUnit) := fun s hs =>
  ends_modify (h s hs)

theorem preserves_ofExcept (r : Except Violation α) : Preserves I (ofExcept r : Action σ α) := by
  cases r with
  | ok a => exact preserves_pure a
  | error v => exact preserves_violate v

theorem Preserves.attempt {x : Action σ α} (h : Preserves I x) : Preserves I (attempt x) :=
  fun s hs => (h s hs).attempt (fun _ _ h => h) fun _ _ h => h

theorem preserves_forEach {I : σ → Prop} {g : Nat → Action σ Unit} {first count : Nat}
    (h : ∀ i, first ≤ i → i < first + count → Preserves I (g i)) :
    Preserves I (forEach g first count) := fun _ hs =>
  ends_forEach (I := fun _ => I) count hs fun i s' ge lt hs' => h i ge lt s' hs'

theorem preserves_ite {p : Prop} [Decidable p] {y : EStateM ε σ α} (h : Preserves I x)
    (h' : Preserves I y) : Preserves I (if p then x else y) := by
  split
  · exact h
  · exact h'

end Preserves

-- a statement about an action is not to be unfolded into a run of the action
attribute [irreducible] Ends Meets

end Action

end SectorVolume
