import Mathlib.Data.Set.Insert
import SectorVolume.Proofs.Cache.Replacing

/-!
# Caches that hang together

In a sound storage the ring goes round the slots, the index finds the sectors that stand in slots,
each slot counts the pins that are held on it, and each pin still has its sector. A slot that is not
dirty is as on the disk, but for a set of sectors in doubt: their slots were filled without reading
the disk, or the disk was changed behind the cache.

Every operation keeps a storage sound, whatever comes of it.
-/

namespace SectorVolume

/-- The line is dirty, its sector is in doubt, or it is as on the disk. -/
def Line.Settled (doubt : Set SectorId) (d : Disk) (l : Line) : Prop :=
  l.mark = .dirty ∨ l.sector ∈ doubt ∨ l.bytes = d.sector l.sector.toNat

theorem Line.settled_empty_iff {d : Disk} {l : Line} :
    l.Settled ∅ d ↔ (l.mark ≠ .dirty → l.bytes = d.sector l.sector.toNat) := by
  unfold Line.Settled
  rw [Set.mem_empty_iff_false, false_or, or_iff_not_imp_left]

namespace Storage

open SectorVolume.Action

variable {capacity : Nat} {pins : List Pin} {doubt doubt' : Set SectorId} {st st' : Storage}

/-- The cache has `capacity` slots and hangs together, `pins` are held, and what is not dirty is as
on the disk, but for the sectors in `doubt`. -/
structure Sound (capacity : Nat) (pins : List Pin) (doubt : Set SectorId) (st : Storage) :
    Prop where
  wellFormed : st.cache.WellFormed
  size : st.cache.slots.size = capacity
  inhabited : 0 < capacity
  counted : ∀ i, (st.cache.slot i).pins = pins.countP (·.slot == i)
  kept : ∀ p ∈ pins, st.cache.lookup p.sector = some p.slot
  settled : ∀ i l, (st.cache.slot i).line = some l → l.Settled doubt st.disk

/-! ## Sectors in doubt -/

theorem Sound.mono (h : st.Sound capacity pins doubt) (sub : doubt ⊆ doubt') :
    st.Sound capacity pins doubt' :=
  { h with settled := fun i l hl => (h.settled i l hl).imp_right fun why => why.imp_left (sub ·) }

/-- A sector is not in doubt when it has no slot or a dirty one. -/
theorem Sound.resolve (h : st.Sound capacity pins doubt) {sector : SectorId}
    (dirty : ∀ i l, (st.cache.slot i).line = some l → l.sector = sector → l.mark = .dirty) :
    st.Sound capacity pins (doubt \ {sector}) := by
  refine { h with settled := fun i l hl => ?_ }
  by_cases e : l.sector = sector
  · exact .inl (dirty i l hl e)
  · exact (h.settled i l hl).imp_right fun why => why.imp_left fun mem => ⟨mem, e⟩

theorem Sound.resolve_absent (h : st.Sound capacity pins doubt) {sector : SectorId}
    (absent : st.cache.lookup sector = none) : st.Sound capacity pins (doubt \ {sector}) :=
  h.resolve fun _ _ hl e => absurd e (h.wellFormed.lookup_eq_none absent hl)

/-! ## Changes of the cache -/

/-- Slots may change their marks and bytes as long as what is not dirty stays right. -/
theorem Sound.of_slots (h : st.Sound capacity pins doubt)
    (wf : st'.cache.WellFormed) (size : st'.cache.slots.size = st.cache.slots.size)
    (lookup : ∀ s, st'.cache.lookup s = st.cache.lookup s)
    (pinned : ∀ i, (st'.cache.slot i).pins = (st.cache.slot i).pins)
    (settled : ∀ i l, (st'.cache.slot i).line = some l → l.Settled doubt' st'.disk) :
    st'.Sound capacity pins doubt' := by
  refine ⟨wf, size.trans h.size, h.inhabited, fun i => ?_, fun p hp => ?_, settled⟩
  · rw [pinned]
    exact h.counted i
  · rw [lookup]
    exact h.kept p hp

theorem Sound.passed (h : st.Sound capacity pins doubt) (hc : st.cache.Passed st'.cache)
    (hd : st'.disk.content = st.disk.content) : st'.Sound capacity pins doubt := by
  refine h.of_slots (hc.wellFormed h.wellFormed) hc.size hc.lookup (fun i => (hc.slot i).pins) ?_
  intro i l hl
  obtain ⟨l', hl', hs, hb, hm⟩ := (hc.slot i).line hl
  unfold Line.Settled
  rw [← hm, ← hs, ← hb, Disk.sector_of_content hd]
  exact h.settled i l' hl'

theorem Sound.rests (h : st.Sound capacity pins doubt) (hc : st'.cache = st.cache)
    (hd : st'.disk.content = st.disk.content) : st'.Sound capacity pins doubt := by
  refine h.passed ?_ hd
  rw [hc]
  exact ⟨rfl, rfl, .refl _, fun _ => .refl _⟩

theorem Sound.modifySlot (h : st.Sound capacity pins doubt) {i : Nat} {f : Slot → Slot}
    (hs : ∀ s, (f s).sector? = s.sector?) (hp : ∀ s, (f s).pins = s.pins)
    (hc : st'.cache = st.cache.modifySlot i f)
    (self : ∀ l, (f (st.cache.slot i)).line = some l → l.Settled doubt' st'.disk)
    (other : ∀ j l, i ≠ j → (st.cache.slot j).line = some l → l.Settled doubt' st'.disk) :
    st'.Sound capacity pins doubt' := by
  have default : ∀ l, (f {}).line ≠ some l := fun l hl => by
    have none := hs {}
    rw [Slot.sector?, hl] at none
    cases none
  refine h.of_slots ?_ ?_ (fun s => ?_) (fun j => ?_) fun j l hl => ?_
  · rw [hc]
    exact h.wellFormed.modifySlot (hs _)
  · rw [hc, Cache.size_modifySlot]
  · rw [hc, Cache.lookup_modifySlot]
  · rw [hc, Cache.slot_modifySlot]
    split
    · exact hp _
    · rfl
  · by_cases e : i = j
    · subst e
      by_cases lt : i < st.cache.slots.size
      · rw [hc, Cache.slot_modifySlot_self lt] at hl
        exact self l hl
      · rw [hc, Cache.slot_eq_default (by simpa using Nat.le_of_not_lt lt)] at hl
        cases hl
    · rw [hc, Cache.slot_modifySlot_of_ne e] at hl
      exact other j l e hl

theorem Sound.touch (h : st.Sound capacity pins doubt) {i : Nat} (hd : st'.disk = st.disk)
    (hc : st'.cache = st.cache.touch i) : st'.Sound capacity pins doubt := by
  refine h.modifySlot (fun _ => Slot.sector?_mapMark ..) (fun _ => Slot.pins_mapMark ..) hc ?_ ?_
  · intro l hl
    rw [Slot.line_mapMark, Option.map_eq_some_iff] at hl
    obtain ⟨l', hl', rfl⟩ := hl
    rw [hd]
    refine (h.settled i l' hl').imp_left fun dirty => ?_
    show l'.mark.afterRead = .dirty
    rw [dirty]
    rfl
  · intro j l _ hl
    rw [hd]
    exact h.settled j l hl

/-- A sector whose slot was changed is not in doubt: the slot is dirty. -/
theorem Sound.store (h : st.Sound capacity pins doubt) {sector : SectorId} {i : Nat} {b : Sector}
    (hi : st.cache.lookup sector = some i) (hd : st'.disk = st.disk)
    (hc : st'.cache = st.cache.store i b) : st'.Sound capacity pins (doubt \ {sector}) := by
  refine h.modifySlot (fun _ => Slot.sector?_store ..) (fun _ => Slot.pins_store ..) hc ?_ ?_
  · intro l hl
    rw [Slot.line_store, Option.map_eq_some_iff] at hl
    obtain ⟨l', -, rfl⟩ := hl
    exact .inl rfl
  · intro j l ne hl
    rw [hd]
    refine (h.settled j l hl).imp_right fun why => why.imp_left fun mem => ⟨mem, ?_⟩
    rintro rfl
    rw [h.wellFormed.lookup_of_line hl] at hi
    exact ne (Option.some.inj hi).symm

/-- A slot that was written back is as on the disk. -/
theorem Sound.wroteBack (h : st.Sound capacity pins doubt) {i : Nat} {l : Line}
    (hl : (st.cache.slot i).line = some l)
    (hd : st'.disk.content = st.disk.content.put l.sector.toNat l.bytes)
    (hc : st'.cache = st.cache.markClean i) : st'.Sound capacity pins doubt := by
  refine h.modifySlot (fun _ => Slot.sector?_mapMark ..) (fun _ => Slot.pins_mapMark ..) hc ?_ ?_
  · intro l' hl'
    rw [Slot.line_mapMark, hl] at hl'
    cases hl'
    refine .inr (.inr ?_)
    rw [Disk.sector_of_put hd, if_pos rfl]
  · intro j l' ne hl'
    have apart : l'.sector.toNat ≠ l.sector.toNat := by
      intro e
      have found := h.wellFormed.lookup_of_line hl'
      rw [UInt32.toNat_inj.1 e, h.wellFormed.lookup_of_line hl] at found
      exact ne (Option.some.inj found)
    unfold Line.Settled
    rw [Disk.sector_of_put hd, if_neg apart]
    exact h.settled j l' hl'

/-- No pin is held on a slot that nobody uses. -/
theorem Sound.slot_ne (h : st.Sound capacity pins doubt) {i : Nat}
    (hi : (st.cache.slot i).pins = 0) {p : Pin} (hp : p ∈ pins) : p.slot ≠ i := by
  intro e
  have none := h.counted i
  rw [hi] at none
  exact List.countP_eq_zero.1 none.symm p hp (beq_iff_eq.2 e)

theorem Sound.vacate (h : st.Sound capacity pins doubt) {i : Nat}
    (hi : (st.cache.slot i).pins = 0) (hd : st'.disk = st.disk)
    (hc : st'.cache = st.cache.vacate i) : st'.Sound capacity pins doubt := by
  refine ⟨?_, ?_, h.inhabited, fun j => ?_, fun p hp => ?_, fun j l hl => ?_⟩
  · rw [hc]
    exact h.wellFormed.vacate i
  · rw [hc, Cache.size_vacate]
    exact h.size
  · rw [hc, Cache.slot_vacate]
    split
    · exact h.counted j
    · exact h.counted j
  · have kept := h.kept p hp
    cases e : (st.cache.slot i).line with
    | none => rwa [hc, Cache.vacate_eq_self e]
    | some l =>
      rw [hc, Cache.lookup_vacate e, if_neg, kept]
      rintro same
      rw [← same, h.wellFormed.lookup_of_line e] at kept
      exact h.slot_ne hi hp (Option.some.inj kept).symm
  · rw [hc, Cache.slot_vacate] at hl
    split at hl
    · cases hl
    · rw [hd]
      exact h.settled j l hl

theorem Sound.bind (h : st.Sound capacity pins doubt) {i : Nat} {l : Line}
    (hi : i < st.cache.slots.size) (empty : (st.cache.slot i).line = none)
    (absent : st.cache.lookup l.sector = none) (settled : l.Settled doubt st.disk)
    (hd : st'.disk = st.disk) (hc : st'.cache = st.cache.bind i l) :
    st'.Sound capacity pins doubt := by
  refine ⟨?_, ?_, h.inhabited, fun j => ?_, fun p hp => ?_, fun j l' hl' => ?_⟩
  · rw [hc]
    exact h.wellFormed.bind hi empty absent
  · rw [hc, Cache.size_bind]
    exact h.size
  · rw [hc, Cache.slot_bind]
    split
    · exact h.counted j
    · exact h.counted j
  · rw [hc, Cache.lookup_bind, if_neg, h.kept p hp]
    intro e
    rw [e, h.kept p hp] at absent
    cases absent
  · rw [hd]
    rw [hc, Cache.slot_bind] at hl'
    split at hl'
    · cases hl'
      exact settled
    · exact h.settled j l' hl'

/-- A slot is used by more or by fewer; its line stays. -/
theorem Sound.repin (h : st.Sound capacity pins doubt) {pins' : List Pin} {i : Nat} {f : Nat → Nat}
    (hd : st'.disk = st.disk)
    (hc : st'.cache = st.cache.modifySlot i fun s => { s with pins := f s.pins })
    (counted : ∀ j, pins'.countP (·.slot == j) = if i = j ∧ j < st.cache.slots.size then
      f (pins.countP (·.slot == j)) else pins.countP (·.slot == j))
    (kept : ∀ p ∈ pins', st.cache.lookup p.sector = some p.slot) :
    st'.Sound capacity pins' doubt := by
  refine ⟨?_, ?_, h.inhabited, fun j => ?_, fun p hp => ?_, fun j l hl => ?_⟩
  · rw [hc]
    exact h.wellFormed.modifySlot rfl
  · rw [hc, Cache.size_modifySlot]
    exact h.size
  · rw [counted, hc, Cache.slot_modifySlot, ← h.counted j]
    split <;> rfl
  · rw [hc, Cache.lookup_modifySlot]
    exact kept p hp
  · rw [hd]
    refine h.settled j l ?_
    rw [hc, Cache.slot_modifySlot] at hl
    split at hl
    · exact hl
    · exact hl

theorem Sound.pin (h : st.Sound capacity pins doubt) {sector : SectorId} {i : Nat}
    (hi : st.cache.lookup sector = some i) (hd : st'.disk = st.disk)
    (hc : st'.cache = st.cache.pin i) : st'.Sound capacity (⟨i, sector⟩ :: pins) doubt := by
  refine h.repin (i := i) (f := (· + 1)) hd hc (fun j => ?_) fun p hp => ?_
  · by_cases e : i = j
    · subst e
      rw [if_pos ⟨rfl, h.wellFormed.lt_of_lookup hi⟩, List.countP_cons_of_pos (by simp)]
    · rw [if_neg fun e' => e e'.1, List.countP_cons_of_neg (by simpa using e)]
  · rcases List.mem_cons.1 hp with rfl | hp
    · exact hi
    · exact h.kept p hp

theorem Sound.unpin (h : st.Sound capacity pins doubt) {p : Pin} (hp : p ∈ pins)
    (hd : st'.disk = st.disk) (hc : st'.cache = st.cache.unpin p.slot) :
    st'.Sound capacity (pins.erase p) doubt := by
  refine h.repin (i := p.slot) (f := (· - 1)) hd hc (fun j => ?_)
    fun q hq => h.kept q (List.mem_of_mem_erase hq)
  have split : pins.countP (·.slot == j) = (p :: pins.erase p).countP (·.slot == j) :=
    (List.perm_cons_erase hp).countP_eq _
  rw [split]
  by_cases e : p.slot = j
  · subst e
    rw [if_pos ⟨rfl, h.wellFormed.lt_of_lookup (h.kept p hp)⟩,
      List.countP_cons_of_pos (by simp), Nat.add_sub_cancel]
  · rw [if_neg fun e' => e e'.1, List.countP_cons_of_neg (by simpa using e)]

end Storage

end SectorVolume
