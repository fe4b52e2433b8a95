import SectorVolume.Proofs.Cache.Hidden
import SectorVolume.Proofs.Cache.Operations

/-!
# Intact storage

The cache stays well-formed and true to the disk, whatever is done through its operations and
however they end. And only the content can be told by them: what else is in the caches and on the
disks does not matter until a transfer fails.
-/

namespace SectorVolume

open SectorVolume.Action

namespace Storage

/-- The cache is well-formed and true to the disk, and nothing is pinned. -/
def Intact (st : Storage) : Prop := st.Good False wordRange32 []

variable {α γ : Type}

theorem intact_of_create {capacity : Nat} {cache : Cache} (e : Cache.create capacity = .ok cache)
    (disk : Disk) (log : Log) : Intact ⟨disk, cache, log⟩ := (good_of_create e False.elim).1

/-- What else is known of the disk does not matter. -/
theorem Good.intact {w : Prop} {n : Nat} {st : Storage} (h : st.Good w n []) : st.Intact :=
  ⟨h.wellFormed, h.inhabited, h.coherent, h.counted, h.kept, nofun, nofun⟩

/-- Compares intact storages by their content, as long as no transfer fails. -/
def sameContent : Comparison Storage where
  fit := Intact
  alike st st' := st.logical = st'.logical
  count st := st.disk.failures

/-- The action is a function of the content: it has the result and leaves the content that `g` tells,
or breaks the rule that `g` tells and leaves the content as it is. What of the result `g` tells is
what `f` shows. -/
def Computes (f : α → γ) (g : (SectorId → Sector) → Except Violation (γ × (SectorId → Sector)))
    (x : Action Storage α) : Prop :=
  ∀ st, st.Intact → Ends x st
    (fun a st' => ∃ L, Becomes False wordRange32 [] st st' L ∧ g st.logical = .ok (f a, L))
    (Halts False wordRange32 [] st fun v => g st.logical = .error v)

namespace Computes

variable {f : α → γ} {g : (SectorId → Sector) → Except Violation (γ × (SectorId → Sector))}
  {x : Action Storage α}

theorem keeps (h : Computes f g x) : Keeps sameContent x := fun _ st hn =>
  (h st hn.1).mono (fun _ _ ⟨_, becomes, _⟩ => ⟨becomes.good, Nat.le_trans hn.2 becomes.failures⟩)
    fun _ _ halts => ⟨halts.same.good, Nat.le_trans hn.2 halts.same.failures⟩

/-- A run without a failed transfer ends as `g` tells. -/
theorem calm (h : Computes f g x) {st : Storage} (intact : st.Intact)
    (calm : (final (x st)).disk.failures = st.disk.failures) :
    (∃ a st', x st = .ok a st' ∧ g st.logical = .ok (f a, st'.logical)) ∨
      ∃ v st', x st = .error (.violation v) st' ∧ g st.logical = .error v ∧
        st'.logical = st.logical := by
  have run := h st intact
  unfold Ends at run
  cases e : x st with
  | ok a st' =>
    rw [e] at run
    obtain ⟨L, becomes, told⟩ := run
    exact .inl ⟨a, st', rfl, becomes.logical ▸ told⟩
  | error failure st' =>
    rw [e] at run calm
    rcases run with ⟨⟨-, no⟩ | ⟨-, -, failed⟩, -⟩ | ⟨⟨v, rfl, told⟩, same⟩
    · exact absurd rfl no
    · exact absurd calm (Nat.ne_of_gt failed)
    · exact .inr ⟨v, st', rfl, told, same.logical⟩

/-- Functions of the content have equal results for equal contents. -/
theorem couples (h : Computes f g x) : Couples sameContent (fun a b => f a = f b) x x := by
  refine ⟨h.keeps, h.keeps, fun s t intact intact' alike calm calm' => ?_⟩
  have alike : s.logical = t.logical := alike
  rcases h.calm intact calm with ⟨a, s', ex, told⟩ | ⟨v, s', ex, told, left⟩ <;>
    rcases h.calm intact' calm' with ⟨b, t', ey, told'⟩ | ⟨v', t', ey, told', left'⟩ <;>
    rw [ex, ey] <;> rw [alike, told'] at told
  · obtain ⟨result, content⟩ := Prod.mk.inj (Except.ok.inj told)
    exact .ok result.symm content.symm
  · cases told
  · cases told
  · cases told
    exact .error (left.trans (alike.trans left'.symm))

end Computes

/-- An action with exactly this result on each content. -/
theorem blind_of_computes {g : (SectorId → Sector) → Except Violation (α × (SectorId → Sector))}
    {x : Action Storage α} (h : Computes id g x) : Blind sameContent x := h.couples

/-- An action that only looks at the content, whatever its result is. -/
theorem couples_of_same {x : Action Storage α}
    (h : ∀ st, st.Intact → Ends x st (fun _ st' => Same False wordRange32 [] st st')
      (Stops False wordRange32 [] st)) : Couples sameContent (fun _ _ => True) x x := by
  have computes : Computes (fun _ => ()) (fun L => .ok ((), L)) x := fun st intact =>
    (h st intact).mono (fun _ _ same => ⟨_, same, rfl⟩) fun _ _ stops => .inl stops
  exact computes.couples.mono fun _ _ _ => trivial

/-- A range that is not inside a sector is refused before anything is done. -/
theorem checkRange_bind_of_outside {offset len : Nat} (outside : ¬ offset + len ≤ 512)
    (refusal : Violation) (k : Unit → Action Storage α) :
    ∃ v, (checkRange offset len refusal >>= k) = violate v := by
  have size : sectorSize = 512 := rfl
  unfold checkRange
  by_cases overflow : offset + len ≥ wordRange64
  · rw [if_pos overflow]
    exact ⟨_, rfl⟩
  · rw [if_neg overflow, if_pos (by omega)]
    exact ⟨_, rfl⟩

theorem content_note (e e' : Event) : Couples sameContent (· = ·) (note e) (note e') := by
  have keeps : ∀ e, Keeps sameContent (note e) := fun e _ st hn => ends_note fun st' hd hc => by
    have same := Good.same_of_disk_of_cache hn.1 hd hc
    exact ⟨same.good, Nat.le_trans hn.2 same.failures⟩
  refine ⟨keeps e, keeps e', ?_⟩
  rintro ⟨disk, cache, log⟩ ⟨disk', cache', log'⟩ - - alike - -
  exact .ok rfl alike

theorem content_read (sector : SectorId) (offset len : Nat) :
    Blind sameContent (read sector offset len) := by
  by_cases inside : offset + len ≤ 512
  · refine blind_of_computes (g := fun L => .ok ((L sector).slice offset len, L)) fun st intact => ?_
    refine (ends_read intact sector.toNat_lt offset len).mono (fun b st' h => ?_) fun e st' h => ?_
    · exact ⟨_, h.1, by rw [h.2.2]; rfl⟩
    · exact h.imp_right fun ⟨⟨v, e, no⟩, _⟩ => absurd inside no
  · obtain ⟨v, e⟩ := checkRange_bind_of_outside inside .readOutsideSector fun _ => do
      let bytes ← readSlot (← fetch sector .disk)
      note (.sectorRead sector offset len)
      return bytes.slice offset len
    exact (show read sector offset len = violate v from e) ▸ blind_violate v

theorem content_write (sector : SectorId) (offset : Nat) (bytes : Bytes) :
    Blind sameContent (write sector offset bytes) := by
  by_cases inside : offset + bytes.size ≤ 512
  · refine blind_of_computes (g := fun L => .ok ((), Function.update L sector
      ((L sector).overlay offset bytes))) fun st intact => ?_
    refine (ends_write intact sector.toNat_lt offset bytes).mono (fun _ st' h => ?_) fun e st' h => ?_
    · exact ⟨_, h.2, rfl⟩
    · exact h.imp_right fun ⟨⟨v, e, no⟩, _⟩ => absurd inside no
  · unfold write
    obtain ⟨v, e⟩ := checkRange_bind_of_outside inside .writeOutsideSector _
    rw [e]
    exact blind_violate v

/-- Only the content can be told through the operations. -/
theorem hidden_sameContent : sameContent.Hidden where
  readSector sector := blind_of_computes (g := fun L => .ok (L sector, L)) fun _ intact =>
    (ends_readSector intact sector.toNat_lt).mono (fun _ _ h => ⟨_, h.1, by rw [h.2]; rfl⟩)
      fun _ _ h => .inl h
  read := content_read
  note := content_note
  write := content_write
  modifySector sector f := by
    refine blind_of_computes (g := fun L => (f (L sector)).map fun r =>
      (r.1, Function.update L sector r.2)) fun st intact => ?_
    refine (ends_modifySector intact sector.toNat_lt f).mono (fun a st' h => ?_) fun e st' h => ?_
    · obtain ⟨b, e, becomes⟩ := h
      exact ⟨_, becomes, congrArg (Except.map _) e⟩
    · exact h.imp_right fun ⟨⟨v, e, told⟩, same⟩ => ⟨⟨v, e, congrArg (Except.map _) told⟩, same⟩
  replaceSector sector bytes := blind_of_computes
    (g := fun L => .ok ((), Function.update L sector bytes)) fun _ intact =>
    (ends_replaceSector intact sector.toNat_lt bytes).mono (fun _ _ h => ⟨_, h, rfl⟩)
      fun _ _ h => .inl h
  readView view sector offset := by
    refine blind_of_computes (g := fun L => (view.read (L sector) offset).map fun a =>
      (a, L)) fun st intact => ?_
    refine (ends_readView intact view sector.toNat_lt offset).mono (fun a st' h => ?_) fun e st' h => ?_
    · exact ⟨_, h.1, congrArg (Except.map _) h.2⟩
    · exact h.imp_right fun ⟨⟨v, e, told⟩, same⟩ => ⟨⟨v, e, congrArg (Except.map _) told⟩, same⟩
  flushAll := couples_of_same fun _ intact => ends_flushAll intact
  flushSector sector := couples_of_same fun _ intact => ends_flushSector intact sector

end Storage

end SectorVolume
