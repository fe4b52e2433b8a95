import Mathlib.Logic.Function.Basic
import SectorVolume.Proofs.Cache.Sound

/-!
# What a storage holds

`Good` is the invariant of a storage of which some slots are pinned: the cache is well-formed,
whatever is not dirty is as on the disk, and the pins are those given. With it goes `logical`, the
content of the storage as a whole. Giving a sector a slot, also when another one loses it and is
written back first, changes neither.

The invariant has two parameters for what is known of the disk. If `w` holds, the disk works for its
first `n` sectors and only these are in the cache, and no transfer fails.
-/

namespace SectorVolume

namespace Storage

open SectorVolume.Action

variable {w : Prop} {n : Nat} {pins : List Pin} {st st' : Storage}

/-- The cache of the storage is well-formed and true to the disk, and `pins` are held. -/
structure Good (w : Prop) (n : Nat) (pins : List Pin) (st : Storage) : Prop where
  wellFormed : st.cache.WellFormed
  inhabited : 0 < st.cache.slots.size
  coherent : ∀ i l, (st.cache.slot i).line = some l → l.mark ≠ .dirty →
    l.bytes = st.disk.sector l.sector.toNat
  counted : ∀ i, (st.cache.slot i).pins = pins.countP (·.slot == i)
  kept : ∀ p ∈ pins, st.cache.lookup p.sector = some p.slot
  working : w → st.disk.Working n
  within : w → ∀ i l, (st.cache.slot i).line = some l → l.sector.toNat < n

/-! ## The content of a sector -/

theorem bytes_of_line {c : Cache} {i : Nat} {l : Line} (h : (c.slot i).line = some l) :
    c.bytes i = l.bytes := by
  unfold Cache.bytes
  rw [h]

theorem logical_of_lookup {s : SectorId} {i : Nat} (h : st.cache.lookup s = some i) :
    st.logical s = st.cache.bytes i := by
  unfold logical
  rw [h]

theorem logical_of_absent {s : SectorId} (h : st.cache.lookup s = none) :
    st.logical s = st.disk.sector s.toNat := by
  unfold logical
  rw [h]

theorem logical_of_line (h : st.cache.WellFormed) {i : Nat} {l : Line}
    (hl : (st.cache.slot i).line = some l) : st.logical l.sector = l.bytes := by
  rw [logical_of_lookup (h.lookup_of_line hl), bytes_of_line hl]

theorem bytes_congr {c c' : Cache} {i : Nat} (h : (c'.slot i).line = (c.slot i).line) :
    c'.bytes i = c.bytes i := by
  unfold Cache.bytes
  rw [h]

theorem bytes_mapMark (c : Cache) (i j : Nat) (f : Mark → Mark) :
    (c.modifySlot i (·.mapMark f)).bytes j = c.bytes j := by
  unfold Cache.bytes
  rw [Cache.slot_modifySlot]
  by_cases e : i = j ∧ j < c.slots.size
  · rw [if_pos e, Slot.line_mapMark]
    cases (c.slot j).line <;> rfl
  · rw [if_neg e]

/-- The content of a sector depends on where the index finds it and on the bytes there. -/
theorem logical_congr_at {s : SectorId} (hl : st'.cache.lookup s = st.cache.lookup s)
    (hb : ∀ i, st.cache.lookup s = some i → st'.cache.bytes i = st.cache.bytes i)
    (hd : st.cache.lookup s = none → st'.disk.sector s.toNat = st.disk.sector s.toNat) :
    st'.logical s = st.logical s := by
  unfold logical
  rw [hl]
  cases e : st.cache.lookup s with
  | none => exact hd e
  | some i => exact hb i e

theorem logical_congr (hl : ∀ s, st'.cache.lookup s = st.cache.lookup s)
    (hb : ∀ i, st'.cache.bytes i = st.cache.bytes i)
    (hd : ∀ s, st.cache.lookup s = none → st'.disk.sector s.toNat = st.disk.sector s.toNat) :
    st'.logical = st.logical :=
  funext fun s => logical_congr_at (hl s) (fun i _ => hb i) (hd s)

theorem logical_eq_update {sector : SectorId} {b : Sector} (self : st'.logical sector = b)
    (others : ∀ s, s ≠ sector → st'.logical s = st.logical s) :
    st'.logical = Function.update st.logical sector b := by
  funext s
  by_cases e : s = sector
  · rw [e, Function.update_self, self]
  · rw [Function.update_of_ne e, others s e]

/-! ## An empty cache -/

theorem slot_of_create {capacity : Nat} {c : Cache} (h : Cache.create capacity = .ok c) :
    c.WellFormed ∧ 0 < c.slots.size ∧ (∀ i, c.slot i = {}) ∧ ∀ s, c.lookup s = none := by
  unfold Cache.create at h
  split at h
  · cases h
  split at h
  · cases h
  next pos _ =>
  cases h
  have slots : ∀ i, (Array.replicate capacity ({} : Slot)).getD i {} = {} := by
    intro i
    rw [Array.getD_eq_getD_getElem?, Array.getElem?_replicate]
    split <;> rfl
  have absent : ∀ s : SectorId, ({} : Std.HashMap SectorId Nat)[s]? = none := by simp
  refine ⟨⟨?_, fun s i => iff_of_false ?_ ?_⟩, ?_, slots, absent⟩
  · simp
  · intro found
    rw [Cache.lookup, absent] at found
    cases found
  · intro found
    rw [Cache.slot, slots] at found
    cases found
  · rw [Array.size_replicate]
    exact Nat.pos_of_ne_zero pos

/-- With an empty cache nothing is pinned, and the content is that of the disk. -/
theorem good_of_create {capacity : Nat} {c : Cache} {d : Disk} {log : Log}
    (h : Cache.create capacity = .ok c) (hw : w → d.Working n) :
    Good w n [] ⟨d, c, log⟩ ∧ (⟨d, c, log⟩ : Storage).logical = fun s => d.sector s.toNat := by
  obtain ⟨wf, pos, slots, absent⟩ := slot_of_create h
  refine ⟨⟨wf, pos, fun i l hl => ?_, fun i => ?_, nofun, hw, fun _ i l hl => ?_⟩,
    funext fun s => logical_of_absent (absent s)⟩
  · rw [slots] at hl
    cases hl
  · rw [slots]
    rfl
  · rw [slots] at hl
    cases hl

/-! ## Changes of the cache -/

theorem Good.sound (h : st.Good w n pins) : st.Sound st.cache.slots.size pins ∅ :=
  ⟨h.wellFormed, rfl, h.inhabited, h.counted, h.kept,
    fun i l hl => Line.settled_empty_iff.2 (h.coherent i l hl)⟩

theorem Sound.good {capacity : Nat} (h : st.Sound capacity pins ∅)
    (working : w → st.disk.Working n)
    (within : w → ∀ s i, st.cache.lookup s = some i → s.toNat < n) : st.Good w n pins where
  wellFormed := h.wellFormed
  inhabited := h.size ▸ h.inhabited
  coherent i l hl := Line.settled_empty_iff.1 (h.settled i l hl)
  counted := h.counted
  kept := h.kept
  working := working
  within hw i l hl := within hw l.sector i (h.wellFormed.lookup_of_line hl)

theorem Good.lt_of_lookup (h : st.Good w n pins) (hw : w) {s : SectorId} {i : Nat}
    (hi : st.cache.lookup s = some i) : s.toNat < n := by
  obtain ⟨l, hl, rfl⟩ := h.wellFormed.line_of_lookup hi
  exact h.within hw i l hl

/-- The invariant is kept by a sound change that gives no sector a slot. -/
theorem Good.of_sound (h : st.Good w n pins) {pins' : List Pin} {capacity : Nat}
    (sound : st'.Sound capacity pins' ∅) (hd : st'.disk = st.disk)
    (found : ∀ s i, st'.cache.lookup s = some i → st.cache.lookup s = some i) :
    st'.Good w n pins' :=
  sound.good (fun hw => hd ▸ h.working hw) fun hw _ _ hi => h.lt_of_lookup hw (found _ _ hi)

theorem Good.congr_disk (h : st.Good w n pins) (hc : st'.cache = st.cache)
    (hd : st'.disk.content = st.disk.content) (hw : w → st'.disk.Working n) :
    st'.Good w n pins ∧ st'.logical = st.logical := by
  refine ⟨(h.sound.rests hc hd).good hw fun hw s i hi => h.lt_of_lookup hw (hc ▸ hi), ?_⟩
  exact logical_congr (fun s => by rw [hc]) (fun i => by rw [hc])
    fun s _ => Disk.sector_of_content hd _

theorem Good.passed (h : st.Good w n pins) (hc : st.cache.Passed st'.cache)
    (hd : st'.disk = st.disk) : st'.Good w n pins ∧ st'.logical = st.logical := by
  refine ⟨h.of_sound (h.sound.passed hc (by rw [hd])) hd fun s i hi => hc.lookup s ▸ hi, ?_⟩
  exact logical_congr hc.lookup hc.bytes fun s _ => by rw [hd]

theorem Good.touch (h : st.Good w n pins) {i : Nat} (hd : st'.disk = st.disk)
    (hc : st'.cache = st.cache.touch i) : st'.Good w n pins ∧ st'.logical = st.logical := by
  refine ⟨h.of_sound (h.sound.touch hd hc) hd fun s j hj => by rwa [hc] at hj, ?_⟩
  refine logical_congr (fun s => by rw [hc]; rfl) (fun j => ?_) fun s _ => by rw [hd]
  rw [hc]
  exact bytes_mapMark ..

theorem Good.wroteBack (h : st.Good w n pins) {i : Nat} {l : Line}
    (hl : (st.cache.slot i).line = some l)
    (hd : st'.disk.content = st.disk.content.put l.sector.toNat l.bytes)
    (hc : st'.cache = st.cache.markClean i) (hw : w → st'.disk.Working n) :
    st'.Good w n pins ∧ st'.logical = st.logical := by
  refine ⟨(h.sound.wroteBack hl hd hc).good hw fun hw s j hj => ?_, ?_⟩
  · rw [hc] at hj
    exact h.lt_of_lookup hw hj
  · refine logical_congr (fun s => by rw [hc]; rfl) (fun j => ?_) fun s hs => ?_
    · rw [hc]
      exact bytes_mapMark ..
    · rw [Disk.sector_of_put hd, if_neg]
      intro e
      rw [UInt32.toNat_inj.1 e, h.wellFormed.lookup_of_line hl] at hs
      cases hs

/-- A changed slot is dirty, and the content of its sector is what was stored. -/
theorem Good.store (h : st.Good w n pins) {i : Nat} {s : SectorId} (b : Sector)
    (hi : st.cache.lookup s = some i) (hd : st'.disk = st.disk)
    (hc : st'.cache = st.cache.store i b) :
    st'.Good w n pins ∧ st'.logical = Function.update st.logical s b := by
  have hc' : st'.cache = st.cache.modifySlot i (·.store b) := hc
  obtain ⟨l, hl, rfl⟩ := h.wellFormed.line_of_lookup hi
  have sound := (h.sound.store hi hd hc).mono fun _ mem => mem.1
  refine ⟨h.of_sound sound hd fun s j hj => by rwa [hc'] at hj, logical_eq_update ?_ ?_⟩
  · refine logical_of_line sound.wellFormed (l := ⟨l.sector, .dirty, b⟩) (i := i) ?_
    rw [hc', Cache.slot_modifySlot_self (Cache.lt_size_of_line hl), Slot.line_store, hl]
    rfl
  · intro s ne
    refine logical_congr_at (by rw [hc', Cache.lookup_modifySlot]) (fun j hj => ?_)
      fun _ => by rw [hd]
    have apart : i ≠ j := by
      rintro rfl
      obtain ⟨l', hl', rfl⟩ := h.wellFormed.line_of_lookup hj
      rw [hl] at hl'
      cases hl'
      exact ne rfl
    exact bytes_congr (by rw [hc', Cache.slot_modifySlot_of_ne apart])

/-- A slot that is not dirty and not in use may be emptied. -/
theorem Good.vacate (h : st.Good w n pins) {i : Nat} (hi : (st.cache.slot i).isReady = true)
    (hd : st'.disk = st.disk) (hc : st'.cache = st.cache.vacate i) :
    st'.Good w n pins ∧ st'.logical = st.logical := by
  obtain ⟨unused, clean⟩ : (st.cache.slot i).pins = 0 ∧ (st.cache.slot i).isDirty = false := by
    simpa [Slot.isReady] using hi
  have sound := h.sound.vacate unused hd hc
  cases e : (st.cache.slot i).line with
  | none =>
    rw [Cache.vacate_eq_self e] at hc
    exact h.congr_disk hc (by rw [hd]) fun hw => hd ▸ h.working hw
  | some l =>
    have lookup : ∀ s, st'.cache.lookup s = if l.sector = s then none else st.cache.lookup s := by
      intro s
      rw [hc, Cache.lookup_vacate e]
    refine ⟨h.of_sound sound hd fun s j hj => ?_, funext fun s => ?_⟩
    · rw [lookup] at hj
      split at hj
      · cases hj
      · exact hj
    by_cases hs : l.sector = s
    · -- the slot is not dirty, so that the disk has its bytes
      have same : l.bytes = st.disk.sector l.sector.toNat := h.coherent i l e fun dirty => by
        rw [Slot.isDirty_iff.2 ⟨l, e, dirty⟩] at clean
        cases clean
      have absent : st'.cache.lookup s = none := by rw [lookup, if_pos hs]
      rw [logical_of_absent absent, ← hs, logical_of_line h.wellFormed e, same, hd]
    · refine logical_congr_at (by rw [lookup, if_neg hs]) (fun j hj => ?_) fun _ => by rw [hd]
      have apart : i ≠ j := by
        rintro rfl
        obtain ⟨l', hl', e'⟩ := h.wellFormed.line_of_lookup hj
        rw [e] at hl'
        cases hl'
        exact hs e'
      exact bytes_congr (by rw [hc, Cache.slot_vacate, if_neg apart])

/-- An empty slot may be given to a sector that has none. What is not dirty has to be as on the
disk. -/
theorem Good.bind (h : st.Good w n pins) {i : Nat} {l : Line} (hi : i < st.cache.slots.size)
    (empty : (st.cache.slot i).line = none) (absent : st.cache.lookup l.sector = none)
    (within : w → l.sector.toNat < n)
    (hl : l.mark ≠ .dirty → l.bytes = st.disk.sector l.sector.toNat)
    (hd : st'.disk = st.disk) (hc : st'.cache = st.cache.bind i l) :
    st'.Good w n pins ∧ st'.logical = Function.update st.logical l.sector l.bytes := by
  have sound := h.sound.bind hi empty absent (Line.settled_empty_iff.2 hl) hd hc
  have lookup : ∀ s, st'.cache.lookup s = if l.sector = s then some i else st.cache.lookup s := by
    intro s
    rw [hc, Cache.lookup_bind]
  refine ⟨sound.good (fun hw => hd ▸ h.working hw) fun hw s j hj => ?_, logical_eq_update ?_ ?_⟩
  · rw [lookup] at hj
    split at hj
    · next e => exact e ▸ within hw
    · exact h.lt_of_lookup hw hj
  · refine logical_of_line sound.wellFormed (i := i) ?_
    rw [hc, Cache.slot_bind, if_pos ⟨rfl, hi⟩]
  · intro s ne
    refine logical_congr_at (by rw [lookup, if_neg (Ne.symm ne)]) (fun j hj => ?_)
      fun _ => by rw [hd]
    have apart : i ≠ j := by
      rintro rfl
      obtain ⟨l', hl', -⟩ := h.wellFormed.line_of_lookup hj
      rw [empty] at hl'
      cases hl'
    exact bytes_congr (by rw [hc, Cache.slot_bind, if_neg fun e => apart e.1])

end Storage

end SectorVolume
