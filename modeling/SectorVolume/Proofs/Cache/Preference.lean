import Mathlib.Data.List.Rotate
import SectorVolume.Proofs.Cache.Policy

/-!
# Which slot the policy asks for

The policy told without the hand: one look at the ring before the choice says which slot has to be
taken. The hand goes round several times, takes marks away while it looks and judges what is left of
them, and still it ends at that slot. Besides the marks that it takes away it turns the ring, and
the chosen slot stands at the end.

A slot that is being filled counts as an empty one that is in use.
-/

namespace SectorVolume

namespace Slot

variable {s : Slot}

/-- The mark on what the slot holds; an empty slot has none. -/
def mark? (s : Slot) : Option Mark := s.line.map Line.mark

/-- Nobody uses the slot, and it is empty or was not used lately. -/
def Spare (s : Slot) : Prop := s.pins = 0 ∧ (s.mark? = none ∨ s.mark? = some .clean)

/-- Nobody uses the slot, but it was used lately. -/
def Resting (s : Slot) : Prop := s.pins = 0 ∧ s.mark? = some .accessed

instance (s : Slot) : Decidable s.Spare := inferInstanceAs (Decidable (_ ∧ _))

instance (s : Slot) : Decidable s.Resting := inferInstanceAs (Decidable (_ ∧ _))

theorem isDirty_iff_mark? : s.isDirty = true ↔ s.mark? = some .dirty := by
  rw [isDirty_iff, mark?, Option.map_eq_some_iff]

theorem isAccessed_iff_mark? : s.isAccessed = true ↔ s.mark? = some .accessed := by
  obtain ⟨_ | ⟨sector, mark, bytes⟩, pins⟩ := s
  · simp [isAccessed, mark?]
  · cases mark <;> simp [isAccessed, mark?]

/-- A mark is one of three. -/
theorem mark?_cases (s : Slot) :
    (s.mark? = none ∨ s.mark? = some .clean) ∨ s.mark? = some .accessed ∨ s.mark? = some .dirty := by
  rcases s.mark? with _ | _ | _ | _ <;> simp

theorem isUnused_iff : s.isUnused = true ↔ s.pins = 0 := beq_iff_eq

theorem isReady_iff : s.isReady = true ↔ s.Spare ∨ s.Resting := by
  have cases := s.mark?_cases
  rw [isReady, Bool.and_eq_true, beq_iff_eq, Bool.not_eq_true', ← Bool.not_eq_true,
    isDirty_iff_mark?, Spare, Resting]
  grind

theorem isIdle_iff : s.isIdle = true ↔ s.Spare := by
  have cases := s.mark?_cases
  rw [isIdle, Bool.and_eq_true, Bool.and_eq_true, beq_iff_eq, Bool.not_eq_true', Bool.not_eq_true',
    ← Bool.not_eq_true, ← Bool.not_eq_true, isDirty_iff_mark?, isAccessed_iff_mark?, Spare]
  grind

/-- A slot that nobody uses and that cannot be given away is dirty. -/
theorem dirty_of_not_ready (unused : s.pins = 0) (rejected : ¬ (s.Spare ∨ s.Resting)) :
    s.mark? = some .dirty := by
  rcases s.mark?_cases with spare | resting | dirty
  · exact absurd (.inl ⟨unused, spare⟩) rejected
  · exact absurd (.inr ⟨unused, resting⟩) rejected
  · exact dirty

theorem mark?_mapMark_demoted (s : Slot) :
    (s.mapMark Mark.demoted).mark? = if s.mark? = some .accessed then some .clean else s.mark? := by
  obtain ⟨_ | ⟨sector, mark, bytes⟩, pins⟩ := s
  · rfl
  · cases mark <;> rfl

end Slot

namespace Cache

variable {c c' : Cache} {sel : Selection} {demoted passed rest : List Nat} {i : Nat}

/-- The first slot of the ring with a property. -/
def firstSlot (c : Cache) (p : Slot → Prop) [DecidablePred p] : Option Nat :=
  c.ring.toList.find? fun i => p (c.slot i)

/-- The slot to be taken: the first one that is spare; if there is none, the first one that rests;
if there is none either, the first one that nobody uses; and if all are in use, the first one. -/
def preferred (c : Cache) : Option Selection :=
  match c.firstSlot Slot.Spare with
  | some i => some ⟨i, .secondChance⟩
  | none =>
    match c.firstSlot Slot.Resting with
    | some i => some ⟨i, .relaxed⟩
    | none =>
      match c.firstSlot (·.pins = 0) with
      | some i => some ⟨i, .forced⟩
      | none => c.ring.toList.head?.map fun i => ⟨i, .forced⟩

theorem firstSlot_eq_some {p : Slot → Prop} [DecidablePred p]
    (split : c.ring.toList = passed ++ i :: rest) (rejected : ∀ j ∈ passed, ¬ p (c.slot j))
    (accepted : p (c.slot i)) : c.firstSlot p = some i :=
  List.find?_eq_some_iff_append.2 ⟨by simpa using accepted, passed, rest, split, by simpa using rejected⟩

theorem firstSlot_eq_none {p : Slot → Prop} [DecidablePred p]
    (rejected : ∀ j ∈ c.ring.toList, ¬ p (c.slot j)) : c.firstSlot p = none :=
  List.find?_eq_none.2 (by simpa using rejected)

/-- The hand ends where the policy says. -/
theorem Chosen.preferred (h : Chosen c c' sel) : c.preferred = some sel := by
  unfold Cache.preferred
  cases h with
  | idle rejected accepted took =>
    simp only [← Bool.not_eq_true, Slot.isIdle_iff] at rejected accepted
    rw [firstSlot_eq_some took.before rejected accepted]
  | @ready passed rest i none rejected accepted took =>
    simp only [← Bool.not_eq_true, Slot.isIdle_iff, Slot.isReady_iff] at none rejected accepted
    have spare := none i took.mem
    rw [firstSlot_eq_none none, firstSlot_eq_some took.before (fun j hj => (not_or.1 (rejected j hj)).2)
      (accepted.resolve_left spare)]
  | unused none rejected accepted took =>
    simp only [← Bool.not_eq_true, Slot.isUnused_iff, Slot.isReady_iff] at none rejected accepted
    rw [firstSlot_eq_none fun j hj => (not_or.1 (none j hj)).1,
      firstSlot_eq_none fun j hj => (not_or.1 (none j hj)).2,
      firstSlot_eq_some took.before rejected accepted]
  | used none took =>
    simp only [← Bool.not_eq_true, Slot.isUnused_iff] at none
    rw [firstSlot_eq_none fun j hj spare => none j hj spare.1,
      firstSlot_eq_none fun j hj resting => none j hj resting.1, firstSlot_eq_none none, took.before]
    rfl

/-! ## What the hand does to marks and ring -/

theorem Took.mark? (h : Took demoted passed i rest c c') (j : Nat) :
    (c'.slot j).mark? = if (c.slot j).mark? = some .accessed ∧ j ∈ demoted then some .clean
      else (c.slot j).mark? := by
  rw [h.slot]
  by_cases mem : j ∈ demoted
  · rw [if_pos mem, Slot.mark?_mapMark_demoted]
    simp only [mem, and_true]
  · rw [if_neg mem, if_neg fun e => mem e.2]

theorem Took.rotated (h : Took demoted passed i rest c c') : c.ring.toList ~r c'.ring.toList := by
  refine ⟨(passed ++ [i]).length, ?_⟩
  rw [h.before, h.after, List.append_cons, List.rotate_append_length_eq, List.append_assoc]

theorem Took.last (h : Took demoted passed i rest c c') : c'.ring.toList.getLast? = some i := by
  rw [h.after, List.getLast?_concat]

/-- The slots that the hand passed on its way are those before the chosen one. -/
theorem Took.passed_eq (h : Took demoted passed i rest c c') (nodup : c.ring.toList.Nodup) :
    c.ring.toList.takeWhile (· ≠ i) = passed := by
  rw [h.before] at nodup ⊢
  have apart : ∀ j ∈ passed, j ≠ i := fun j hj e =>
    (List.nodup_append.1 nodup).2.2 j hj i List.mem_cons_self e
  rw [List.takeWhile_append_of_pos fun j hj => by simpa using apart j hj]
  simp

/-- A mark that is demoted is the mark of a slot in the ring. -/
theorem mem_ring_of_mark? (perm : c.ring.toList.Perm (List.range c.slots.size)) {m : Mark}
    (h : (c.slot i).mark? = some m) : i ∈ c.ring.toList := by
  obtain ⟨l, hl, -⟩ := Option.map_eq_some_iff.1 h
  exact perm.mem_iff.2 (List.mem_range.2 (lt_size_of_line hl))

/-- When the hand went all the way round, no slot has the mark that says it was used lately. -/
theorem Took.demoted_all (h : Took c.ring.toList passed i rest c c')
    (perm : c.ring.toList.Perm (List.range c.slots.size)) (j : Nat) :
    (c'.slot j).mark? = if (c.slot j).mark? = some .accessed then some .clean
      else (c.slot j).mark? := by
  rw [h.mark?]
  by_cases accessed : (c.slot j).mark? = some .accessed
  · rw [if_pos ⟨accessed, mem_ring_of_mark? perm accessed⟩, if_pos accessed]
  · rw [if_neg fun e => accessed e.1, if_neg accessed]

/-! ## What a choice says about the other slots -/

namespace Chosen

theorem demotedBefore (h : Chosen c c' sel) (nodup : c.ring.toList.Nodup)
    (sweep : sel.sweep = .secondChance) (i : Nat) :
    (c'.slot i).mark? = if (c.slot i).mark? = some .accessed ∧
        i ∈ c.ring.toList.takeWhile (· ≠ sel.victim) then some .clean else (c.slot i).mark? := by
  cases h with
  | idle _ _ took => rw [took.passed_eq nodup, took.mark?]
  | ready _ _ _ _ => cases sweep
  | unused _ _ _ _ => cases sweep
  | used _ _ => cases sweep

theorem demotedAll (h : Chosen c c' sel) (perm : c.ring.toList.Perm (List.range c.slots.size))
    (sweep : sel.sweep ≠ .secondChance) (i : Nat) :
    (c'.slot i).mark? = if (c.slot i).mark? = some .accessed then some .clean
      else (c.slot i).mark? := by
  cases h with
  | idle _ _ _ => exact absurd rfl sweep
  | ready _ _ _ took => exact took.demoted_all perm i
  | unused _ _ _ took => exact took.demoted_all perm i
  | used _ took => exact took.demoted_all perm i

theorem forced (h : Chosen c c' sel) (sweep : sel.sweep = .forced)
    (unused : (c.slot sel.victim).pins = 0) : (c.slot sel.victim).mark? = some .dirty := by
  cases h with
  | idle _ _ _ => cases sweep
  | ready _ _ _ _ => cases sweep
  | unused none _ _ took =>
    simp only [← Bool.not_eq_true, Slot.isReady_iff] at none
    exact Slot.dirty_of_not_ready unused (none _ took.mem)
  | used none took =>
    simp only [← Bool.not_eq_true, Slot.isUnused_iff] at none
    exact absurd unused (none _ took.mem)

theorem inUse (h : Chosen c c' sel) (pinned : (c.slot sel.victim).pins ≠ 0) {i : Nat}
    (mem : i ∈ c.ring.toList) : (c.slot i).pins ≠ 0 := by
  cases h with
  | idle _ accepted _ => exact absurd (Slot.isIdle_iff.1 accepted).1 pinned
  | ready _ _ accepted _ => exact absurd ((Slot.isReady_iff.1 accepted).elim And.left And.left) pinned
  | unused _ _ accepted _ => exact absurd (Slot.isUnused_iff.1 accepted) pinned
  | used none _ =>
    simp only [← Bool.not_eq_true, Slot.isUnused_iff] at none
    exact none i mem

theorem dirty (h : Chosen c c' sel) (dirty : (c.slot sel.victim).mark? = some .dirty) {i : Nat}
    (mem : i ∈ c.ring.toList) (unused : (c.slot i).pins = 0) :
    (c.slot i).mark? = some .dirty := by
  cases h with
  | idle _ accepted _ =>
    have spare := (Slot.isIdle_iff.1 accepted).2
    simp [dirty] at spare
  | ready none _ accepted took =>
    simp only [← Bool.not_eq_true, Slot.isIdle_iff] at none
    have resting := ((Slot.isReady_iff.1 accepted).resolve_left (none _ took.mem)).2
    simp [dirty] at resting
  | unused none _ _ _ =>
    simp only [← Bool.not_eq_true, Slot.isReady_iff] at none
    exact Slot.dirty_of_not_ready unused (none i mem)
  | used none _ =>
    simp only [← Bool.not_eq_true, Slot.isUnused_iff] at none
    exact absurd unused (none i mem)

theorem rotated (h : Chosen c c' sel) : c.ring.toList ~r c'.ring.toList := by
  obtain ⟨_, _, _, took⟩ := h.took
  exact took.rotated

theorem last (h : Chosen c c' sel) : c'.ring.toList.getLast? = some sel.victim := by
  obtain ⟨_, _, _, took⟩ := h.took
  exact took.last

end Chosen

/-! ## The choice -/

/-- Slot `sel.victim` was chosen as the policy says. -/
structure Obeyed (c c' : Cache) (sel : Selection) : Prop where
  chosen : c.preferred = some sel
  /-- A spare slot costs those before it the mark that says that they were used lately. -/
  demotedBefore : sel.sweep = .secondChance → ∀ i, (c'.slot i).mark? =
    if (c.slot i).mark? = some .accessed ∧ i ∈ c.ring.toList.takeWhile (· ≠ sel.victim)
      then some .clean else (c.slot i).mark?
  /-- Any other slot costs all slots this mark. -/
  demotedAll : sel.sweep ≠ .secondChance → ∀ i, (c'.slot i).mark? =
    if (c.slot i).mark? = some .accessed then some .clean else (c.slot i).mark?
  /-- Nothing else happens to a slot. -/
  kept : ∀ i, (c'.slot i).sector? = (c.slot i).sector? ∧ (c'.slot i).pins = (c.slot i).pins ∧
    c'.bytes i = c.bytes i
  size : c'.slots.size = c.slots.size
  index : c'.index = c.index
  rotated : c.ring.toList ~r c'.ring.toList
  last : c'.ring.toList.getLast? = some sel.victim
  /-- The first slot that nobody uses is taken by force only if it is dirty. -/
  forced : sel.sweep = .forced → (c.slot sel.victim).pins = 0 →
    (c.slot sel.victim).mark? = some .dirty
  /-- A slot in use is chosen only if all are in use. -/
  inUse : (c.slot sel.victim).pins ≠ 0 → ∀ i, i < c.slots.size → (c.slot i).pins ≠ 0
  /-- A dirty slot is chosen only if all slots that nobody uses are dirty. -/
  dirty : (c.slot sel.victim).mark? = some .dirty → ∀ i, i < c.slots.size → (c.slot i).pins = 0 →
    (c.slot i).mark? = some .dirty

/-- Whatever the slots hold and however often they are pinned, the hand chooses as the policy
says. -/
theorem select_obeys (perm : c.ring.toList.Perm (List.range c.slots.size))
    (pos : 0 < c.slots.size) : Obeyed c c.select.2 c.select.1 := by
  have chosen := select_chosen_of_perm perm pos
  have passes := chosen.passes
  have mem : ∀ i, i < c.slots.size → i ∈ c.ring.toList := fun i lt =>
    perm.mem_iff.2 (List.mem_range.2 lt)
  exact {
    chosen := chosen.preferred
    demotedBefore := chosen.demotedBefore (perm.nodup_iff.2 List.nodup_range)
    demotedAll := chosen.demotedAll perm
    kept := fun i => ⟨(passes.slot i).sector?, (passes.slot i).pins, passes.bytes i⟩
    size := passes.size
    index := passes.index
    rotated := chosen.rotated
    last := chosen.last
    forced := chosen.forced
    inUse := fun pinned i lt => chosen.inUse pinned (mem i lt)
    dirty := fun dirty i lt => chosen.dirty dirty (mem i lt) }

/-- Four slots: one in use that was used lately, a dirty one, one that was used lately, and an empty
one in use. The third has to be taken, although the second comes before it, and both marks are
gone. -/
theorem select_obeys_of_four : ∃ c : Cache, c.ring.toList = [1, 3, 2, 0] ∧
    c.preferred = some ⟨2, .relaxed⟩ ∧ c.slots.size = 4 ∧
    Obeyed c c.select.2 c.select.1 := by
  let line (sector : SectorId) (mark : Mark) : Line := ⟨sector, mark, Sector.zero⟩
  let c : Cache := ⟨#[⟨some (line 5 .accessed), 1⟩, ⟨some (line 6 .dirty), 0⟩,
    ⟨some (line 7 .accessed), 0⟩, ⟨none, 2⟩], Queue.ofList [1, 3, 2, 0], {}⟩
  exact ⟨c, rfl, rfl, rfl, select_obeys (by decide) (by decide)⟩

end Cache

end SectorVolume
