import Mathlib.Tactic.ByContra
import SectorVolume.Cache.Clock

/-!
# Well-formed caches

The ring of a well-formed cache goes round its slots, and its index finds exactly the sectors that
stand in slots. Each change of a cache is described by what it does to the slots and to the index;
from that follows what it does to the bytes that the cache has for a sector.
-/

namespace SectorVolume

namespace Slot

/-- The sector that a slot holds. -/
def sector? (s : Slot) : Option SectorId := s.line.map Line.sector

@[simp] theorem pins_mapMark (s : Slot) (f : Mark → Mark) : (s.mapMark f).pins = s.pins := by
  unfold mapMark; split <;> rfl

theorem line_mapMark (s : Slot) (f : Mark → Mark) :
    (s.mapMark f).line = s.line.map fun l => ⟨l.sector, f l.mark, l.bytes⟩ := by
  unfold mapMark; split <;> rfl

@[simp] theorem sector?_mapMark (s : Slot) (f : Mark → Mark) :
    (s.mapMark f).sector? = s.sector? := by
  unfold mapMark sector?; split <;> rfl

@[simp] theorem pins_store (s : Slot) (b : Sector) : (s.store b).pins = s.pins := by
  unfold store; split <;> rfl

theorem line_store (s : Slot) (b : Sector) :
    (s.store b).line = s.line.map fun l => ⟨l.sector, .dirty, b⟩ := by
  unfold store; split <;> rfl

@[simp] theorem sector?_store (s : Slot) (b : Sector) : (s.store b).sector? = s.sector? := by
  unfold store sector?; split <;> rfl

theorem isDirty_iff {s : Slot} : s.isDirty = true ↔ ∃ l, s.line = some l ∧ l.mark = .dirty := by
  obtain ⟨_ | ⟨sector, mark, bytes⟩, pins⟩ := s
  · simp [isDirty]
  · cases mark <;> simp [isDirty]

theorem sector?_eq_some_iff {s : Slot} {id : SectorId} :
    s.sector? = some id ↔ ∃ l, s.line = some l ∧ l.sector = id := by
  simp [sector?, Option.map_eq_some_iff]

end Slot

namespace Cache

/-- The ring goes round the slots, and the index finds the slot of each sector in the cache. -/
structure WellFormed (c : Cache) : Prop where
  ring : c.ring.toList.Perm (List.range c.slots.size)
  index : ∀ s i, c.lookup s = some i ↔ (c.slot i).sector? = some s

/-! ## What changes do to slots and index -/

theorem slot_eq_default {c : Cache} {i : Nat} (h : c.slots.size ≤ i) : c.slot i = {} := by
  simp [slot, Array.getD_eq_getD_getElem?, Array.getElem?_eq_none h]

theorem lt_size_of_line {c : Cache} {i : Nat} {l : Line} (h : (c.slot i).line = some l) :
    i < c.slots.size := by
  by_contra hi
  rw [slot_eq_default (Nat.le_of_not_lt hi)] at h
  cases h

theorem getD_modify (slots : Array Slot) (i j : Nat) (f : Slot → Slot) :
    (slots.modify i f).getD j {} =
      if i = j ∧ j < slots.size then f (slots.getD j {}) else slots.getD j {} := by
  by_cases hj : j < slots.size
  · by_cases e : i = j <;> simp [Array.getD_eq_getD_getElem?, Array.getElem_modify, hj, e]
  · simp [Array.getD_eq_getD_getElem?, hj]

theorem slot_modifySlot (c : Cache) (i j : Nat) (f : Slot → Slot) :
    (c.modifySlot i f).slot j =
      if i = j ∧ j < c.slots.size then f (c.slot j) else c.slot j := getD_modify ..

@[simp] theorem size_modifySlot (c : Cache) (i : Nat) (f : Slot → Slot) :
    (c.modifySlot i f).slots.size = c.slots.size := Array.size_modify ..

@[simp] theorem lookup_modifySlot (c : Cache) (i : Nat) (f : Slot → Slot) (s : SectorId) :
    (c.modifySlot i f).lookup s = c.lookup s := rfl

@[simp] theorem ring_modifySlot (c : Cache) (i : Nat) (f : Slot → Slot) :
    (c.modifySlot i f).ring = c.ring := rfl

theorem slot_modifySlot_self {c : Cache} {i : Nat} {f : Slot → Slot} (hi : i < c.slots.size) :
    (c.modifySlot i f).slot i = f (c.slot i) := by
  rw [slot_modifySlot, if_pos ⟨rfl, hi⟩]

theorem slot_modifySlot_of_ne {c : Cache} {i j : Nat} {f : Slot → Slot} (h : i ≠ j) :
    (c.modifySlot i f).slot j = c.slot j := by
  rw [slot_modifySlot, if_neg fun e => h e.1]

theorem vacate_eq_self {c : Cache} {i : Nat} (h : (c.slot i).line = none) : c.vacate i = c := by
  unfold vacate; rw [h]

theorem vacate_eq {c : Cache} {i : Nat} {l : Line} (h : (c.slot i).line = some l) :
    c.vacate i = ⟨c.slots.modify i fun s => { s with line := none }, c.ring,
      c.index.erase l.sector⟩ := by
  unfold vacate; rw [h]

@[simp] theorem size_vacate (c : Cache) (i : Nat) : (c.vacate i).slots.size = c.slots.size := by
  unfold vacate; split <;> simp

@[simp] theorem ring_vacate (c : Cache) (i : Nat) : (c.vacate i).ring = c.ring := by
  unfold vacate; split <;> rfl

theorem slot_vacate (c : Cache) (i j : Nat) :
    (c.vacate i).slot j = if i = j then ⟨none, (c.slot j).pins⟩ else c.slot j := by
  cases h : (c.slot i).line with
  | none =>
    rw [vacate_eq_self h]
    split
    · next e => subst e; rw [← h]
    · rfl
  | some l =>
    rw [vacate_eq h]
    refine (getD_modify ..).trans ?_
    by_cases e : i = j
    · subst e
      rw [if_pos ⟨rfl, lt_size_of_line h⟩, if_pos rfl]
      rfl
    · rw [if_neg fun e' => e e'.1, if_neg e]
      rfl

theorem lookup_vacate {c : Cache} {i : Nat} {l : Line} (h : (c.slot i).line = some l)
    (s : SectorId) : (c.vacate i).lookup s = if l.sector = s then none else c.lookup s := by
  rw [vacate_eq h]
  simp [lookup, Std.HashMap.getElem?_erase]

@[simp] theorem size_bind (c : Cache) (i : Nat) (l : Line) :
    (c.bind i l).slots.size = c.slots.size := Array.size_modify ..

@[simp] theorem ring_bind (c : Cache) (i : Nat) (l : Line) : (c.bind i l).ring = c.ring := rfl

theorem slot_bind (c : Cache) (i j : Nat) (l : Line) :
    (c.bind i l).slot j =
      if i = j ∧ j < c.slots.size then ⟨some l, (c.slot j).pins⟩ else c.slot j := getD_modify ..

theorem lookup_bind (c : Cache) (i : Nat) (l : Line) (s : SectorId) :
    (c.bind i l).lookup s = if l.sector = s then some i else c.lookup s := by
  simp [bind, lookup, Std.HashMap.getElem?_insert]

/-! ## Well-formedness -/

namespace WellFormed

variable {c : Cache}

theorem lookup_of_line (h : c.WellFormed) {i : Nat} {l : Line} (hl : (c.slot i).line = some l) :
    c.lookup l.sector = some i := (h.index _ _).2 (Slot.sector?_eq_some_iff.2 ⟨l, hl, rfl⟩)

theorem line_of_lookup (h : c.WellFormed) {i : Nat} {s : SectorId} (hl : c.lookup s = some i) :
    ∃ l, (c.slot i).line = some l ∧ l.sector = s := Slot.sector?_eq_some_iff.1 ((h.index _ _).1 hl)

theorem lt_of_lookup (h : c.WellFormed) {i : Nat} {s : SectorId} (hl : c.lookup s = some i) :
    i < c.slots.size := by
  obtain ⟨l, hl, -⟩ := h.line_of_lookup hl
  exact lt_size_of_line hl

theorem lookup_eq_none (h : c.WellFormed) {s : SectorId} (hl : c.lookup s = none) {i : Nat}
    {l : Line} (e : (c.slot i).line = some l) : l.sector ≠ s := by
  rintro rfl
  rw [h.lookup_of_line e] at hl
  cases hl

theorem mem_ring (h : c.WellFormed) {i : Nat} : i ∈ c.ring.toList ↔ i < c.slots.size := by
  rw [h.ring.mem_iff, List.mem_range]

theorem length_ring (h : c.WellFormed) : c.ring.toList.length = c.slots.size := by
  rw [h.ring.length_eq, List.length_range]

theorem modifySlot (h : c.WellFormed) {i : Nat} {f : Slot → Slot}
    (hf : (f (c.slot i)).sector? = (c.slot i).sector?) : (c.modifySlot i f).WellFormed := by
  refine ⟨by simpa using h.ring, fun s j => ?_⟩
  rw [lookup_modifySlot, slot_modifySlot, h.index]
  split
  · next e => rw [← e.1, hf]
  · rfl

theorem vacate (h : c.WellFormed) (i : Nat) : (c.vacate i).WellFormed := by
  cases e : (c.slot i).line with
  | none => rwa [vacate_eq_self e]
  | some l =>
    refine ⟨by simpa using h.ring, fun s j => ?_⟩
    rw [lookup_vacate e, slot_vacate]
    split
    · next hs =>
      subst hs
      refine iff_of_false (by simp) fun hj => ?_
      split at hj
      · cases hj
      · next hij =>
        have := (h.index _ _).2 hj
        rw [h.lookup_of_line e] at this
        exact hij (Option.some.inj this)
    · next hs =>
      rw [h.index]
      split
      · next hij =>
        subst hij
        refine iff_of_false (fun hj => ?_) (by simp [Slot.sector?])
        obtain ⟨l', hl', e'⟩ := Slot.sector?_eq_some_iff.1 hj
        rw [e] at hl'
        cases hl'
        exact hs e'
      · rfl

theorem bind (h : c.WellFormed) {i : Nat} {l : Line} (hi : i < c.slots.size)
    (empty : (c.slot i).line = none) (absent : c.lookup l.sector = none) :
    (c.bind i l).WellFormed := by
  refine ⟨by simpa using h.ring, fun s j => ?_⟩
  rw [lookup_bind, slot_bind]
  by_cases hij : i = j
  · subst hij
    rw [if_pos (⟨rfl, hi⟩ : i = i ∧ i < c.slots.size)]
    by_cases e : l.sector = s
    · simp [Slot.sector?, e]
    · rw [if_neg e]
      refine iff_of_false (fun hs => ?_) (by simpa [Slot.sector?] using e)
      obtain ⟨l', hl', -⟩ := h.line_of_lookup hs
      rw [empty] at hl'
      cases hl'
  · rw [if_neg fun e : i = j ∧ _ => hij e.1]
    by_cases e : l.sector = s
    · subst e
      refine iff_of_false (by simpa using hij) fun hs => ?_
      rw [(h.index _ _).2 hs] at absent
      cases absent
    · rw [if_neg e]
      exact h.index s j

end WellFormed

/-! ## Capacities -/

/-- The capacities that a cache can have. -/
def Fits (capacity : Nat) : Prop := 0 < capacity ∧ slotFootprint * capacity < wordRange64 / 2

instance (capacity : Nat) : Decidable (Fits capacity) := inferInstanceAs (Decidable (_ ∧ _))

theorem fits_iff {capacity : Nat} : Fits capacity ↔ ∃ cache, create capacity = .ok cache := by
  unfold create Fits
  by_cases none : capacity = 0
  · rw [if_pos none]
    exact iff_of_false (fun h => absurd none (Nat.ne_of_gt h.1)) nofun
  · rw [if_neg none]
    by_cases large : slotFootprint * capacity ≥ wordRange64 / 2
    · rw [if_pos large]
      exact iff_of_false (fun h => absurd h.2 (Nat.not_lt.2 large)) nofun
    · rw [if_neg large]
      exact iff_of_true ⟨Nat.pos_of_ne_zero none, Nat.not_le.1 large⟩ ⟨_, rfl⟩

end Cache

end SectorVolume
