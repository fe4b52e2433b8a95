import SectorVolume.Proofs.Cache.Choice

/-!
# Which slot the clock chooses

The hand passes the slots that it does not accept, and they stand behind the others afterwards, in
the same order. So a choice can be read off the ring. It is the first idle slot; if no slot is idle,
the first one that could be given away as it is; if there is none either, the first one that nobody
uses; and if all are in use, the first one of the ring. The slots passed in the first revolution
lose the mark that says that they were used lately.
-/

namespace SectorVolume

namespace Slot

/-- Only a slot that was used lately has a mark to lose. -/
theorem mapMark_demoted_of_not_accessed {s : Slot} (h : s.isAccessed = false) :
    s.mapMark Mark.demoted = s := by
  obtain ⟨_ | ⟨sector, mark, bytes⟩, pins⟩ := s
  · rfl
  · cases mark with
    | accessed => cases h
    | clean => rfl
    | dirty => rfl

theorem isAccessed_mapMark_demoted (s : Slot) : (s.mapMark Mark.demoted).isAccessed = false := by
  obtain ⟨_ | ⟨sector, mark, bytes⟩, pins⟩ := s
  · rfl
  · cases mark <;> rfl

theorem isDirty_mapMark_demoted (s : Slot) : (s.mapMark Mark.demoted).isDirty = s.isDirty :=
  Demoted.isDirty (.inr rfl)

theorem isReady_mapMark_demoted (s : Slot) : (s.mapMark Mark.demoted).isReady = s.isReady := by
  simp [isReady, isDirty_mapMark_demoted]

theorem isUnused_mapMark_demoted (s : Slot) : (s.mapMark Mark.demoted).isUnused = s.isUnused := by
  simp [isUnused]

end Slot

namespace Clock

variable {accepts : Slot → Bool} {demotes : Bool} {slots slots' slots'' : Array Slot}
  {ring : Queue Nat} {i : Nat} {passed passed' rest : List Nat}

/-- The hand passed the slots `passed`, and nothing else happened to the slots. -/
structure Went (demotes : Bool) (passed : List Nat) (slots slots' : Array Slot) : Prop where
  size : slots'.size = slots.size
  slot : ∀ j, slots'.getD j {} = if demotes = true ∧ j ∈ passed then
    (slots.getD j {}).mapMark Mark.demoted else slots.getD j {}

theorem Went.nil (slots : Array Slot) : Went demotes [] slots slots :=
  ⟨rfl, fun j => by simp⟩

theorem Went.of_not_mem (h : Went demotes passed slots slots') {j : Nat} (hj : j ∉ passed) :
    slots'.getD j {} = slots.getD j {} := by
  rw [h.slot, if_neg fun e => hj e.2]

/-- What was passed is as free to be given away as before, and used by as many. -/
theorem Went.isReady (h : Went demotes passed slots slots') (j : Nat) :
    (slots'.getD j {}).isReady = (slots.getD j {}).isReady := by
  rw [h.slot]
  split
  · exact Slot.isReady_mapMark_demoted _
  · rfl

theorem Went.isUnused (h : Went demotes passed slots slots') (j : Nat) :
    (slots'.getD j {}).isUnused = (slots.getD j {}).isUnused := by
  rw [h.slot]
  split
  · exact Slot.isUnused_mapMark_demoted _
  · rfl

/-- A hand that takes no mark away leaves the slots as they are. -/
theorem Went.same (h : Went false passed slots slots') (j : Nat) :
    slots'.getD j {} = slots.getD j {} := by
  rw [h.slot, if_neg fun e => nomatch e.1]

theorem Went.demoted (h : Went true passed slots slots') (j : Nat) :
    slots'.getD j {} = if j ∈ passed then (slots.getD j {}).mapMark Mark.demoted
      else slots.getD j {} := by
  rw [h.slot]
  simp only [true_and]

theorem Went.append (h : Went demotes passed slots slots')
    (h' : Went demotes passed' slots' slots'') : Went demotes (passed ++ passed') slots slots'' := by
  refine ⟨h'.size.trans h.size, fun j => ?_⟩
  rw [h'.slot, h.slot]
  by_cases hd : demotes = true
  · by_cases hj : j ∈ passed
    · by_cases hj' : j ∈ passed'
      · simp [hd, hj, hj', Slot.mapMark_demoted_demoted]
      · simp [hd, hj, hj']
    · simp [hj]
  · simp [hd]

theorem went_modify (slots : Array Slot) (i : Nat) :
    Went true [i] slots (slots.modify i (·.mapMark Mark.demoted)) := by
  refine ⟨Array.size_modify .., fun j => ?_⟩
  rw [Cache.getD_modify]
  by_cases e : i = j
  · subst e
    by_cases lt : i < slots.size
    · simp [lt]
    · have empty : slots.getD i {} = {} := by
        simp [Array.getD_eq_getD_getElem?, lt]
      rw [if_neg fun e => lt e.2, empty, Slot.mapMark_demoted_of_not_accessed rfl, ite_self]
  · simp [e, Ne.symm e]

/-- One slot is passed. -/
theorem turn_of_rejected_head (demotes : Bool) (split : ring.toList = i :: rest)
    (rejected : accepts (slots.getD i {}) = false) (count : Nat) :
    ∃ slots' ring', turn accepts demotes slots ring (count + 1) =
        turn accepts demotes slots' ring' count ∧
      ring'.toList = rest ++ [i] ∧ Went demotes [i] slots slots' := by
  cases e : ring.rotate with
  | mk first ring' =>
    have head := ring.rotate_fst
    rw [e, split] at head
    cases head
    obtain ⟨rest', before, after⟩ := toList_of_rotate e
    rw [split] at before
    cases before
    rw [turn_succ e, rejected, if_neg (by simp)]
    cases demotes with
    | false => exact ⟨slots, ring', rfl, after, rfl, fun j => by simp⟩
    | true =>
      cases ha : (slots.getD i {}).isAccessed with
      | true => exact ⟨_, ring', rfl, after, went_modify slots i⟩
      | false =>
        refine ⟨slots, ring', rfl, after, rfl, fun j => ?_⟩
        by_cases hj : j = i
        · rw [hj, Slot.mapMark_demoted_of_not_accessed ha, ite_self]
        · simp [hj]

/-- As long as the hand does not accept a slot it goes on, and nothing changes but marks. -/
theorem turn_of_rejected (demotes : Bool) (split : ring.toList = passed ++ rest)
    (nodup : passed.Nodup) (rejected : ∀ j ∈ passed, accepts (slots.getD j {}) = false) (count : Nat) :
    ∃ slots' ring', turn accepts demotes slots ring (passed.length + count) =
        turn accepts demotes slots' ring' count ∧
      ring'.toList = rest ++ passed ∧ Went demotes passed slots slots' := by
  induction passed generalizing slots ring rest with
  | nil => exact ⟨slots, ring, by simp, by simpa using split, .nil slots⟩
  | cons i passed ih =>
    obtain ⟨fresh, nodup⟩ := List.nodup_cons.1 nodup
    obtain ⟨slots₁, ring₁, run₁, after₁, went₁⟩ :=
      turn_of_rejected_head demotes split (rejected i List.mem_cons_self)
        (passed.length + count)
    -- a slot that comes later is not the one just passed, and so as it was
    have rejected₁ : ∀ j ∈ passed, accepts (slots₁.getD j {}) = false := by
      intro j hj
      have apart : j ∉ [i] := by
        rintro mem
        rw [List.mem_singleton.1 mem] at hj
        exact fresh hj
      rw [went₁.of_not_mem apart]
      exact rejected j (List.mem_cons_of_mem _ hj)
    have split₁ : ring₁.toList = passed ++ (rest ++ [i]) :=
      after₁.trans (List.append_assoc passed rest [i])
    obtain ⟨slots₂, ring₂, run₂, after₂, went₂⟩ := ih split₁ nodup rejected₁
    refine ⟨slots₂, ring₂, ?_, by simpa using after₂, went₁.append went₂⟩
    rw [← run₂, ← run₁, List.length_cons]
    congr 1
    omega

/-- The hand took slot `i`, the first one that it accepts. -/
structure Stopped (accepts : Slot → Bool) (demotes : Bool) (slots : Array Slot) (ring : Queue Nat)
    (passed : List Nat) (i : Nat) (rest : List Nat) (slots' : Array Slot) (ring' : Queue Nat) :
    Prop where
  before : ring.toList = passed ++ i :: rest
  after : ring'.toList = rest ++ passed ++ [i]
  rejected : ∀ j ∈ passed, accepts (slots.getD j {}) = false
  accepted : accepts (slots.getD i {}) = true
  went : Went demotes passed slots slots'

/-- The hand accepted no slot and came back to where it was. -/
structure Returned (accepts : Slot → Bool) (demotes : Bool) (slots : Array Slot) (ring : Queue Nat)
    (slots' : Array Slot) (ring' : Queue Nat) : Prop where
  after : ring'.toList = ring.toList
  rejected : ∀ j ∈ ring.toList, accepts (slots.getD j {}) = false
  went : Went demotes ring.toList slots slots'

theorem turn_of_accepted (demotes : Bool) {count : Nat} (split : ring.toList = passed ++ i :: rest)
    (nodup : ring.toList.Nodup) (rejected : ∀ j ∈ passed, accepts (slots.getD j {}) = false)
    (accepted : accepts (slots.getD i {}) = true) (enough : passed.length < count) :
    ∃ slots' ring', turn accepts demotes slots ring count = (some i, slots', ring') ∧
      Stopped accepts demotes slots ring passed i rest slots' ring' := by
  obtain ⟨more, rfl⟩ : ∃ more, count = passed.length + (more + 1) :=
    ⟨count - passed.length - 1, by omega⟩
  rw [split] at nodup
  have apart : i ∉ passed := fun mem =>
    (List.nodup_append.1 nodup).2.2 i mem i List.mem_cons_self rfl
  obtain ⟨slots₁, ring₁, run₁, after₁, went₁⟩ :=
    turn_of_rejected demotes split (List.nodup_append.1 nodup).1 rejected (more + 1)
  rw [List.cons_append] at after₁
  cases e : ring₁.rotate with
  | mk first ring₂ =>
    have head := ring₁.rotate_fst
    rw [e, after₁] at head
    cases head
    obtain ⟨rest', before, after⟩ := toList_of_rotate e
    rw [after₁] at before
    cases before
    refine ⟨slots₁, ring₂, ?_, split, after, rejected, accepted, went₁⟩
    rw [run₁, turn_succ e, went₁.of_not_mem apart, if_pos accepted]

/-- In a whole revolution the hand takes the first slot that it accepts, if there is one. -/
theorem turn_whole {count : Nat} (accepts : Slot → Bool) (demotes : Bool) (slots : Array Slot)
    (nodup : ring.toList.Nodup) (whole : ring.toList.length = count) :
    (∃ slots' ring', turn accepts demotes slots ring count = (none, slots', ring') ∧
      Returned accepts demotes slots ring slots' ring') ∨
    ∃ passed i rest slots' ring', turn accepts demotes slots ring count = (some i, slots', ring') ∧
      Stopped accepts demotes slots ring passed i rest slots' ring' := by
  cases e : ring.toList.find? fun j => accepts (slots.getD j {}) with
  | none =>
    have rejected : ∀ j ∈ ring.toList, accepts (slots.getD j {}) = false := fun j hj => by
      simpa using List.find?_eq_none.1 e j hj
    obtain ⟨slots', ring', run, after, went⟩ := turn_of_rejected demotes
      (List.append_nil ring.toList).symm nodup rejected 0
    rw [Nat.add_zero, whole] at run
    exact .inl ⟨slots', ring', run, after, rejected, went⟩
  | some i =>
    obtain ⟨accepted, passed, rest, split, rejected⟩ := List.find?_eq_some_iff_append.1 e
    have rejected : ∀ j ∈ passed, accepts (slots.getD j {}) = false := fun j hj => by
      simpa using rejected j hj
    have enough : passed.length < count := by
      rw [← whole, split]
      simp
    obtain ⟨slots', ring', run, stopped⟩ :=
      turn_of_accepted demotes split nodup rejected accepted enough
    exact .inr ⟨passed, i, rest, slots', ring', run, stopped⟩

end Clock

namespace Cache

variable {c c' : Cache}

/-- The hand passed the slots `passed` and took slot `i`, which was the next one; the slots
`demoted` lost the mark that said that they were used lately. -/
structure Took (demoted passed : List Nat) (i : Nat) (rest : List Nat) (c c' : Cache) : Prop where
  before : c.ring.toList = passed ++ i :: rest
  after : c'.ring.toList = rest ++ passed ++ [i]
  index : c'.index = c.index
  size : c'.slots.size = c.slots.size
  slot : ∀ j, c'.slot j = if j ∈ demoted then (c.slot j).mapMark Mark.demoted else c.slot j

/-- How a slot was chosen. -/
inductive Chosen (c c' : Cache) : Selection → Prop
  /-- It is the first idle one. -/
  | idle {passed rest : List Nat} {i : Nat} : (∀ j ∈ passed, (c.slot j).isIdle = false) →
      (c.slot i).isIdle = true → Took passed passed i rest c c' → Chosen c c' ⟨i, .secondChance⟩
  /-- No slot is idle, and it is the first one that can be given away as it is. -/
  | ready {passed rest : List Nat} {i : Nat} : (∀ j ∈ c.ring.toList, (c.slot j).isIdle = false) →
      (∀ j ∈ passed, (c.slot j).isReady = false) → (c.slot i).isReady = true →
      Took c.ring.toList passed i rest c c' → Chosen c c' ⟨i, .relaxed⟩
  /-- No slot can be given away as it is, and it is the first one that nobody uses. -/
  | unused {passed rest : List Nat} {i : Nat} :
      (∀ j ∈ c.ring.toList, (c.slot j).isReady = false) →
      (∀ j ∈ passed, (c.slot j).isUnused = false) → (c.slot i).isUnused = true →
      Took c.ring.toList passed i rest c c' → Chosen c c' ⟨i, .forced⟩
  /-- All slots are in use. -/
  | used {rest : List Nat} {i : Nat} : (∀ j ∈ c.ring.toList, (c.slot j).isUnused = false) →
      Took c.ring.toList [] i rest c c' → Chosen c c' ⟨i, .forced⟩

/-- A choice is the first slot of the ring that the first rule accepts that accepts any. Only the
ring matters for it. -/
theorem select_chosen_of_perm (perm : c.ring.toList.Perm (List.range c.slots.size))
    (pos : 0 < c.slots.size) : Chosen c c.select.2 c.select.1 := by
  have nodup : c.ring.toList.Nodup := perm.nodup_iff.2 List.nodup_range
  have length : c.ring.toList.length = c.slots.size := by rw [perm.length_eq, List.length_range]
  obtain ⟨slots, ring, index⟩ := c
  simp only [select] at *
  obtain ⟨slots₁, ring₁, run₁, back₁⟩ | ⟨passed, i, rest, slots₁, ring₁, run₁, stop⟩ :=
    Clock.turn_whole Slot.isIdle true slots nodup length
  case inr =>
    rw [run₁]
    exact .idle stop.rejected stop.accepted
      ⟨stop.before, stop.after, rfl, stop.went.size, stop.went.demoted⟩
  -- no slot is idle: the hand is where it was, and no slot has its mark any more
  rw [run₁]
  have slot₁ := back₁.went.demoted
  have same₁ := back₁.after
  obtain ⟨slots₂, ring₂, run₂, back₂⟩ | ⟨passed, i, rest, slots₂, ring₂, run₂, stop⟩ :=
    Clock.turn_whole Slot.isReady false slots₁ (same₁ ▸ nodup) (same₁ ▸ length)
  case inr =>
    simp only [run₂]
    have rejected := stop.rejected
    have accepted := stop.accepted
    simp only [back₁.went.isReady] at rejected accepted
    refine .ready back₁.rejected rejected accepted
      ⟨same₁ ▸ stop.before, stop.after, rfl, stop.went.size.trans back₁.went.size, ?_⟩
    intro j
    exact (stop.went.same j).trans (slot₁ j)
  -- none can be given away as it is either
  simp only [run₂]
  have none₂ := back₂.rejected
  simp only [back₁.went.isReady, same₁] at none₂
  have same₂ := back₂.after.trans same₁
  obtain ⟨slots₃, ring₃, run₃, back₃⟩ | ⟨passed, i, rest, slots₃, ring₃, run₃, stop⟩ :=
    Clock.turn_whole Slot.isUnused false slots₂ (same₂ ▸ nodup) (same₂ ▸ length)
  case inr =>
    simp only [run₃]
    have rejected := stop.rejected
    have accepted := stop.accepted
    simp only [back₂.went.isUnused, back₁.went.isUnused] at rejected accepted
    refine .unused none₂ rejected accepted ⟨same₂ ▸ stop.before, stop.after, rfl,
      (stop.went.size.trans back₂.went.size).trans back₁.went.size, ?_⟩
    intro j
    exact ((stop.went.same j).trans (back₂.went.same j)).trans (slot₁ j)
  -- and all are in use
  simp only [run₃]
  have none₃ := back₃.rejected
  simp only [back₂.went.isUnused, back₁.went.isUnused, same₂] at none₃
  have same₃ := back₃.after.trans same₂
  rcases e : ring₃.rotate with ⟨_ | i, ring₄⟩
  · have head := ring₃.rotate_fst
    rw [e, same₃] at head
    rw [List.head?_eq_none_iff.1 head.symm, List.length_nil] at length
    exact absurd length (Nat.ne_of_lt pos)
  · obtain ⟨rest, before, after⟩ := Clock.toList_of_rotate e
    refine .used none₃ ⟨same₃ ▸ before, by simpa using after, rfl,
      (back₃.went.size.trans back₂.went.size).trans back₁.went.size, ?_⟩
    intro j
    exact ((back₃.went.same j).trans (back₂.went.same j)).trans (slot₁ j)

theorem select_chosen (wf : c.WellFormed) (pos : 0 < c.slots.size) :
    Chosen c c.select.2 c.select.1 := select_chosen_of_perm wf.ring pos

/-! ## What a choice leaves -/

theorem Took.passes {demoted passed rest : List Nat} {i : Nat}
    (h : Took demoted passed i rest c c') : c.Passed c' := by
  refine ⟨h.index, h.size, ?_, fun j => ?_⟩
  · rw [h.before, h.after, List.append_assoc]
    refine List.perm_append_comm.trans ?_
    rw [List.append_assoc]
    rfl
  · rw [h.slot]
    split
    · exact .inr rfl
    · exact .inl rfl

theorem Took.mem {demoted passed rest : List Nat} {i : Nat}
    (h : Took demoted passed i rest c c') : i ∈ c.ring.toList := by
  rw [h.before]
  simp

namespace Chosen

variable {sel : Selection}

theorem took (h : Chosen c c' sel) :
    ∃ demoted passed rest, Took demoted passed sel.victim rest c c' := by
  cases h with
  | idle _ _ took => exact ⟨_, _, _, took⟩
  | ready _ _ _ took => exact ⟨_, _, _, took⟩
  | unused _ _ _ took => exact ⟨_, _, _, took⟩
  | used _ took => exact ⟨_, _, _, took⟩

theorem passes (h : Chosen c c' sel) : c.Passed c' := by
  obtain ⟨_, _, _, took⟩ := h.took
  exact took.passes

theorem mem (h : Chosen c c' sel) : sel.victim ∈ c.ring.toList := by
  obtain ⟨_, _, _, took⟩ := h.took
  exact took.mem

/-- If some slot is not in use, the chosen one can be given away as it is, or it is dirty and none
could be given away. -/
theorem ready_or_dirty (h : Chosen c c' sel) (free : ∃ i ∈ c.ring.toList, (c.slot i).pins = 0) :
    (c.slot sel.victim).isReady = true ∨
      (c.slot sel.victim).pins = 0 ∧ (c.slot sel.victim).isDirty = true ∧
        ∀ j ∈ c.ring.toList, (c.slot j).isReady = false := by
  cases h with
  | idle _ accepted _ =>
    left
    simp only [Slot.isIdle, Bool.and_eq_true] at accepted
    simp [Slot.isReady, accepted]
  | ready _ _ accepted _ => exact .inl accepted
  | @unused _ _ i none _ accepted took =>
    right
    have unused : (c.slot i).pins = 0 := by simpa [Slot.isUnused] using accepted
    have notReady := none i took.mem
    refine ⟨unused, ?_, none⟩
    simpa [Slot.isReady, unused] using notReady
  | used none _ =>
    obtain ⟨i, hi, unused⟩ := free
    have inUse := none i hi
    simp [Slot.isUnused, unused] at inUse

/-- If there is one idle slot, it is the one chosen. -/
theorem eq_of_only_idle (h : Chosen c c' sel) {i : Nat} (mem : i ∈ c.ring.toList)
    (idle : (c.slot i).isIdle = true)
    (only : ∀ j ∈ c.ring.toList, (c.slot j).isIdle = true → j = i) : sel.victim = i := by
  have ready : (c.slot i).isReady = true := by
    simp only [Slot.isIdle, Bool.and_eq_true] at idle
    simp [Slot.isReady, idle]
  cases h with
  | idle _ accepted took => exact only _ took.mem accepted
  | ready none _ _ _ =>
    rw [none i mem] at idle
    cases idle
  | unused none _ _ _ =>
    rw [none i mem] at ready
    cases ready
  | used none _ =>
    have inUse := none i mem
    simp only [Slot.isReady, Bool.and_eq_true] at ready
    simp [Slot.isUnused, ready] at inUse

end Chosen

end Cache

end SectorVolume
