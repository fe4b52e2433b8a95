import SectorVolume.Proofs.Cache.WellFormed

/-!
# What the clock chooses

The hand changes nothing but marks of slots that were used lately, and the order of the ring. It
takes a slot of the cache, and if some slot is idle it takes an idle one.
-/

namespace SectorVolume

namespace Slot

/-- The slot is as before, or it has only lost the mark that says it was used lately. -/
def Demoted (s s' : Slot) : Prop := s' = s ∨ s' = s.mapMark Mark.demoted

theorem mapMark_demoted_demoted (s : Slot) :
    (s.mapMark Mark.demoted).mapMark Mark.demoted = s.mapMark Mark.demoted := by
  obtain ⟨_ | ⟨sector, mark, bytes⟩, pins⟩ := s
  · rfl
  · cases mark <;> rfl

namespace Demoted

variable {s s' s'' : Slot}

theorem refl (s : Slot) : s.Demoted s := .inl rfl

theorem trans (h : s.Demoted s') (h' : s'.Demoted s'') : s.Demoted s'' := by
  rcases h with rfl | rfl
  · exact h'
  · rcases h' with rfl | rfl
    · exact .inr rfl
    · exact .inr (mapMark_demoted_demoted s)

theorem pins (h : s.Demoted s') : s'.pins = s.pins := by
  rcases h with rfl | rfl
  · rfl
  · simp

theorem sector? (h : s.Demoted s') : s'.sector? = s.sector? := by
  rcases h with rfl | rfl
  · rfl
  · simp

theorem isDirty (h : s.Demoted s') : s'.isDirty = s.isDirty := by
  rcases h with rfl | rfl
  · rfl
  · obtain ⟨_ | ⟨sector, mark, bytes⟩, pins⟩ := s
    · rfl
    · cases mark <;> rfl

/-- A line of the slot afterwards was there before, dirty if it is dirty now. -/
theorem line (h : s.Demoted s') {l : Line} (hl : s'.line = some l) :
    ∃ l', s.line = some l' ∧ l'.sector = l.sector ∧ l'.bytes = l.bytes ∧
      (l'.mark = .dirty ↔ l.mark = .dirty) := by
  rcases h with rfl | rfl
  · exact ⟨l, hl, rfl, rfl, Iff.rfl⟩
  · rw [line_mapMark, Option.map_eq_some_iff] at hl
    obtain ⟨l', hl', rfl⟩ := hl
    refine ⟨l', hl', rfl, rfl, ?_⟩
    cases l'.mark <;> simp [Mark.demoted]

end Demoted

end Slot

namespace Clock

variable {accepts : Slot → Bool} {demotes : Bool}

theorem toList_of_rotate {ring ring' : Queue Nat} {i : Nat} (h : ring.rotate = (some i, ring')) :
    ∃ rest, ring.toList = i :: rest ∧ ring'.toList = rest ++ [i] := by
  have first := ring.rotate_fst
  have after := ring.toList_rotate_snd
  rw [h] at first after
  cases e : ring.toList with
  | nil => rw [e] at first; cases first
  | cons j rest =>
    rw [e] at first after
    cases first
    exact ⟨rest, rfl, after⟩

theorem turn_succ {slots : Array Slot} {ring ring' : Queue Nat} {i count : Nat}
    (h : ring.rotate = (some i, ring')) :
    turn accepts demotes slots ring (count + 1) =
      if accepts (slots.getD i {}) then (some i, slots, ring')
      else if demotes && (slots.getD i {}).isAccessed then
        turn accepts demotes (slots.modify i (·.mapMark Mark.demoted)) ring' count
      else turn accepts demotes slots ring' count := by
  rw [turn, h]

theorem turn_of_rotate_eq_none {slots : Array Slot} {ring ring' : Queue Nat} {count : Nat}
    (h : ring.rotate = (none, ring')) :
    turn accepts demotes slots ring (count + 1) = (none, slots, ring') := by
  rw [turn, h]

theorem perm_of_rotate_eq_none {ring ring' : Queue Nat} (h : ring.rotate = (none, ring')) :
    ring'.toList.Perm ring.toList := by
  have first := ring.rotate_fst
  have after := ring.toList_rotate_snd
  rw [h] at first after
  have e : ring.toList = [] := List.head?_eq_none_iff.1 first.symm
  rw [e] at after ⊢
  rw [after]
  exact .refl _

theorem getD_modify_demoted (slots : Array Slot) (i j : Nat) :
    (slots.getD j {}).Demoted ((slots.modify i (·.mapMark Mark.demoted)).getD j {}) := by
  rw [Cache.getD_modify]
  split
  · exact .inr rfl
  · exact .inl rfl

/-- A turn of the hand demotes slots and turns the ring, and what it takes is acceptable. -/
theorem turn_passes (accepts : Slot → Bool) (demotes : Bool) (slots : Array Slot)
    (ring : Queue Nat) (count : Nat) :
    (turn accepts demotes slots ring count).2.2.toList.Perm ring.toList ∧
    (turn accepts demotes slots ring count).2.1.size = slots.size ∧
    (∀ j, (slots.getD j {}).Demoted
      ((turn accepts demotes slots ring count).2.1.getD j {})) ∧
    ∀ i, (turn accepts demotes slots ring count).1 = some i →
      i ∈ ring.toList ∧
        accepts ((turn accepts demotes slots ring count).2.1.getD i {}) = true := by
  induction count generalizing slots ring with
  | zero => exact ⟨.refl _, rfl, fun _ => .refl _, fun _ h => nomatch h⟩
  | succ count ih =>
    cases e : ring.rotate with
    | mk first ring' =>
      cases first with
      | none =>
        rw [turn_of_rotate_eq_none e]
        exact ⟨perm_of_rotate_eq_none e, rfl, fun _ => .refl _, fun _ h => nomatch h⟩
      | some i =>
        obtain ⟨rest, before, after⟩ := toList_of_rotate e
        have turned : ring'.toList.Perm ring.toList := by
          rw [before, after]
          exact List.perm_append_comm
        rw [turn_succ e]
        split
        · next ha =>
          refine ⟨turned, rfl, fun _ => .refl _, fun j hj => ?_⟩
          cases hj
          exact ⟨by simp [before], ha⟩
        · split
          · obtain ⟨hr, hs, hd, ha⟩ := ih (slots.modify i (·.mapMark Mark.demoted)) ring'
            refine ⟨hr.trans turned, by simpa using hs, fun j => ?_, fun j hj => ?_⟩
            · exact (getD_modify_demoted slots i j).trans (hd j)
            · exact ⟨turned.mem_iff.1 (ha j hj).1, (ha j hj).2⟩
          · obtain ⟨hr, hs, hd, ha⟩ := ih slots ring'
            exact ⟨hr.trans turned, hs, hd, fun j hj => ⟨turned.mem_iff.1 (ha j hj).1, (ha j hj).2⟩⟩

/-- The hand does not pass by all acceptable slots. -/
theorem isSome_turn {slots : Array Slot} {ring : Queue Nat} {count i : Nat}
    (hi : i ∈ ring.toList.take count)
    (ha : accepts (slots.getD i {}) = true) : (turn accepts demotes slots ring count).1.isSome := by
  induction count generalizing slots ring with
  | zero => simp at hi
  | succ count ih =>
    cases e : ring.rotate with
    | mk first ring' =>
      cases first with
      | none =>
        have := ring.rotate_fst
        rw [e] at this
        rw [List.head?_eq_none_iff.1 this.symm] at hi
        simp at hi
      | some j =>
        obtain ⟨rest, before, after⟩ := toList_of_rotate e
        rw [turn_succ e]
        split
        · rfl
        · next hj =>
          have ne : i ≠ j := by
            rintro rfl
            exact hj ha
          have hi' : i ∈ ring'.toList.take count := by
            rw [before, List.take_succ_cons, List.mem_cons] at hi
            rw [after, List.take_append]
            exact List.mem_append_left _ (hi.resolve_left ne)
          split
          · next hd =>
            refine ih hi' ?_
            rw [Cache.getD_modify, if_neg fun e : j = i ∧ _ => ne e.1.symm]
            exact ha
          · exact ih hi' ha

end Clock

namespace Cache

/-- The slots are as before up to demotions, and the ring has turned. -/
structure Passed (c c' : Cache) : Prop where
  index : c'.index = c.index
  size : c'.slots.size = c.slots.size
  ring : c'.ring.toList.Perm c.ring.toList
  slot : ∀ i, (c.slot i).Demoted (c'.slot i)

theorem Passed.lookup {c c' : Cache} (h : c.Passed c') (s : SectorId) :
    c'.lookup s = c.lookup s := by
  unfold Cache.lookup
  rw [h.index]

theorem Passed.wellFormed {c c' : Cache} (h : c.Passed c') (hc : c.WellFormed) :
    c'.WellFormed := by
  refine ⟨?_, fun s i => ?_⟩
  · rw [h.size]
    exact h.ring.trans hc.ring
  · rw [h.lookup, hc.index, (h.slot i).sector?]

theorem Passed.bytes {c c' : Cache} (h : c.Passed c') (i : Nat) : c'.bytes i = c.bytes i := by
  unfold Cache.bytes
  rcases h.slot i with e | e
  · rw [e]
  · rw [e, Slot.line_mapMark]
    cases (c.slot i).line <;> rfl

/-- Choosing a slot demotes slots and turns the ring; the choice is a slot of the cache, and an idle
one if there is one. -/
theorem select_passes {c : Cache} (hc : c.WellFormed) (pos : 0 < c.slots.size) :
    c.Passed c.select.2 ∧ c.select.1.victim < c.slots.size ∧
      ((∃ i, i < c.slots.size ∧ (c.slot i).isIdle = true) →
        (c.select.2.slot c.select.1.victim).isIdle = true) := by
  have whole : ∀ i, i < c.slots.size → i ∈ c.ring.toList.take c.slots.size := fun i hi => by
    rw [← hc.length_ring, List.take_length]
    exact hc.mem_ring.2 hi
  obtain ⟨slots, ring, index⟩ := c
  simp only [select]
  have h₁ := Clock.turn_passes Slot.isIdle true slots ring slots.size
  have sure : ∀ i, i < slots.size → (slots.getD i {}).isIdle = true →
      (Clock.turn Slot.isIdle true slots ring slots.size).1.isSome :=
    fun i hi ha => Clock.isSome_turn (whole i hi) ha
  have inside : ∀ i, i ∈ ring.toList → i < slots.size := fun i hi => hc.mem_ring.1 hi
  rcases e₁ : Clock.turn Slot.isIdle true slots ring slots.size with ⟨_ | i, slots₁, ring₁⟩
  case some =>
    rw [e₁] at h₁
    obtain ⟨hr, hs, hd, ha⟩ := h₁
    exact ⟨⟨rfl, hs, hr, hd⟩, inside i (ha i rfl).1, fun _ => (ha i rfl).2⟩
  rw [e₁] at h₁
  obtain ⟨hr₁, hs₁, hd₁, -⟩ := h₁
  have noIdle : ¬ ∃ i, i < slots.size ∧ (Cache.slot ⟨slots, ring, index⟩ i).isIdle = true := by
    rintro ⟨i, hi, ha⟩
    have := sure i hi ha
    rw [e₁] at this
    cases this
  simp only
  have h₂ := Clock.turn_passes Slot.isReady false slots₁ ring₁ slots.size
  rcases e₂ : Clock.turn Slot.isReady false slots₁ ring₁ slots.size with ⟨_ | i, slots₂, ring₂⟩
  case some =>
    rw [e₂] at h₂
    obtain ⟨hr, hs, hd, ha⟩ := h₂
    exact ⟨⟨rfl, hs.trans hs₁, hr.trans hr₁, fun j => (hd₁ j).trans (hd j)⟩,
      inside i (hr₁.mem_iff.1 (ha i rfl).1), fun h => absurd h noIdle⟩
  rw [e₂] at h₂
  obtain ⟨hr₂, hs₂, hd₂, -⟩ := h₂
  simp only
  have h₃ := Clock.turn_passes Slot.isUnused false slots₂ ring₂ slots.size
  rcases e₃ : Clock.turn Slot.isUnused false slots₂ ring₂ slots.size with ⟨_ | i, slots₃, ring₃⟩
  case some =>
    rw [e₃] at h₃
    obtain ⟨hr, hs, hd, ha⟩ := h₃
    exact ⟨⟨rfl, (hs.trans hs₂).trans hs₁, (hr.trans hr₂).trans hr₁,
        fun j => ((hd₁ j).trans (hd₂ j)).trans (hd j)⟩,
      inside i ((hr₂.trans hr₁).mem_iff.1 (ha i rfl).1), fun h => absurd h noIdle⟩
  rw [e₃] at h₃
  obtain ⟨hr₃, hs₃, hd₃, -⟩ := h₃
  simp only
  have toRing := (hr₃.trans hr₂).trans hr₁
  cases e : ring₃.rotate with
  | mk first ring₄ =>
    cases first with
    | none =>
      refine ⟨⟨rfl, (hs₃.trans hs₂).trans hs₁,
        (Clock.perm_of_rotate_eq_none e).trans toRing,
        fun j => ((hd₁ j).trans (hd₂ j)).trans (hd₃ j)⟩, pos, fun h => absurd h noIdle⟩
    | some i =>
      obtain ⟨rest, before, after⟩ := Clock.toList_of_rotate e
      have turned : ring₄.toList.Perm ring₃.toList := by
        rw [before, after]
        exact List.perm_append_comm
      refine ⟨⟨rfl, (hs₃.trans hs₂).trans hs₁, turned.trans toRing,
        fun j => ((hd₁ j).trans (hd₂ j)).trans (hd₃ j)⟩, ?_, fun h => absurd h noIdle⟩
      exact inside i (toRing.mem_iff.1 (by simp [before]))

end Cache

end SectorVolume
