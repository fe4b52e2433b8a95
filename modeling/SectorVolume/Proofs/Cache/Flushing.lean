import SectorVolume.Proofs.Cache.Unpinned

/-!
# What is on the disk

When a slot was written back it is not dirty any more, and no slot gets dirty by that. So after
everything was written back the disk has the content of the storage.
-/

namespace SectorVolume

namespace Storage

open SectorVolume.Action

variable {w : Prop} {n : Nat} {pins : List Pin} {st st' : Storage}

/-- The disk has the content of the storage. -/
def Flushed (st : Storage) : Prop := ∀ s, st.disk.sector s.toNat = st.logical s

/-- What is in the cache and not dirty is on the disk. -/
theorem Good.stored (h : st.Good w n pins) (s : SectorId)
    (clean : ∀ i, st.cache.lookup s = some i → (st.cache.slot i).isDirty ≠ true) :
    st.disk.sector s.toNat = st.logical s := by
  cases e : st.cache.lookup s with
  | none => exact (logical_of_absent e).symm
  | some i =>
    obtain ⟨l, hl, rfl⟩ := h.wellFormed.line_of_lookup e
    rw [logical_of_line h.wellFormed hl]
    exact (h.coherent i l hl fun dirty => clean i e (Slot.isDirty_iff.2 ⟨l, hl, dirty⟩)).symm

theorem Good.flushed (h : st.Good w n pins) (clean : ∀ i, (st.cache.slot i).isDirty ≠ true) :
    st.Flushed := fun s => h.stored s fun i _ => clean i

theorem Flushed.congr (h : st.Flushed) (hd : st'.disk = st.disk) (hc : st'.cache = st.cache) :
    st'.Flushed := by
  intro s
  have same : st'.logical s = st.logical s := by
    unfold logical
    rw [hd, hc]
  rw [hd, same]
  exact h s

/-- Of the slots that are dirty only one is written back, and none becomes dirty. -/
theorem ends_writeBack_dirty (st : Storage) (i : Nat) :
    Ends (writeBack i) st
      (fun _ st' => ∀ j, (st'.cache.slot j).isDirty = true →
        (st.cache.slot j).isDirty = true ∧ j ≠ i)
      fun _ _ => True := by
  refine (ends_writeBack_of_slot st i).mono ?_ fun _ _ _ => trivial
  rintro _ st' (⟨rfl, ready⟩ | ⟨l, back⟩) j dirty
  · refine ⟨dirty, ?_⟩
    rintro rfl
    simp [Slot.isReady, dirty] at ready
  · have lt := Cache.lt_size_of_line back.line
    rw [back.cache, Cache.markClean] at dirty
    by_cases e : i = j
    · subst e
      rw [Cache.slot_modifySlot_self lt] at dirty
      obtain ⟨l', hl', mark⟩ := Slot.isDirty_iff.1 dirty
      rw [Slot.line_mapMark, Option.map_eq_some_iff] at hl'
      obtain ⟨_, -, rfl⟩ := hl'
      cases mark
    · rw [Cache.slot_modifySlot_of_ne e] at dirty
      exact ⟨dirty, Ne.symm e⟩

/-- Where the sectors are in the cache stays the same. -/
theorem ends_writeBack_lookup (st : Storage) (i : Nat) :
    Ends (writeBack i) st (fun _ st' => st'.cache.lookup = st.cache.lookup) fun _ _ => True := by
  refine (ends_writeBack_of_slot st i).mono ?_ fun _ _ _ => trivial
  rintro _ st' (⟨rfl, -⟩ | ⟨l, back⟩)
  · rfl
  · rw [back.cache]
    rfl

theorem ends_writeBackAll_dirty (st : Storage) (count : Nat) (is : List Nat) :
    Ends (writeBackAll count is) st
      (fun _ st' => ∀ j, (st'.cache.slot j).isDirty = true →
        (st.cache.slot j).isDirty = true ∧ j ∉ is)
      fun _ _ => True := by
  induction is generalizing st count with
  | nil => exact ends_pure fun j dirty => ⟨dirty, List.not_mem_nil⟩
  | cons i is ih =>
    unfold writeBackAll
    refine (ends_writeBack_dirty st i).bind (fun _ st₁ h₁ => ?_) fun _ _ h₁ => h₁
    refine (ih st₁ _).mono (fun _ st₂ h₂ j dirty => ?_) fun _ _ h => h
    obtain ⟨dirty₁, notin⟩ := h₂ j dirty
    obtain ⟨dirty₀, ne⟩ := h₁ j dirty₁
    exact ⟨dirty₀, fun mem => (List.mem_cons.1 mem).elim ne notin⟩

/-- After everything was written back no slot is dirty. -/
theorem ends_flushAll_clean (h : st.cache.WellFormed) :
    Ends flushAll st (fun _ st' => ∀ i, (st'.cache.slot i).isDirty ≠ true) fun _ _ => True := by
  unfold flushAll
  refine ends_get_bind ((ends_writeBackAll_dirty st 0 _).bind (fun _ st₁ h₁ => ?_) fun _ _ h => h)
  refine ends_note_bind fun st₂ _ hc => ends_pure fun i dirty => ?_
  rw [hc] at dirty
  obtain ⟨dirty₀, notin⟩ := h₁ i dirty
  obtain ⟨l, hl, -⟩ := Slot.isDirty_iff.1 dirty₀
  exact notin (List.mem_filter.2 ⟨h.mem_ring.2 (Cache.lt_size_of_line hl), dirty₀⟩)

/-- Everything is written back, unless the disk fails. -/
theorem meets_flushAll_clean (h : st.Good w n []) :
    Meets flushAll st (fun _ st' => Same w n [] st st' ∧ ∀ i, (st'.cache.slot i).isDirty ≠ true)
      (Breaks w n st) :=
  Meets.of_ends (((meets_flushAll h).ends.and (ends_flushAll_clean h.wellFormed)).mono
    (fun _ _ h' => h') fun _ _ h' => h'.1) fun _ _ h' => h'

theorem meets_flushAll_flushed (h : st.Good w n []) :
    Meets flushAll st (fun _ st' => Same w n [] st st' ∧ st'.Flushed) (Breaks w n st) :=
  (meets_flushAll_clean h).mono (fun _ _ h' => ⟨h'.1, h'.1.good.flushed h'.2⟩) fun _ _ h' => h'

/-- The sector that is written back is on the disk then, unless that fails. -/
theorem meets_flushSector_stored (h : st.Good w n []) (sector : SectorId) :
    Meets (flushSector sector) st
      (fun _ st' => Same w n [] st st' ∧ st'.disk.sector sector.toNat = st'.logical sector)
      (Breaks w n st) := by
  have stored : Ends (flushSector sector) st
      (fun _ st' => ∀ i, st'.cache.lookup sector = some i → (st'.cache.slot i).isDirty ≠ true)
      fun _ _ => True := by
    unfold flushSector
    refine ends_get_bind ?_
    split
    · next absent =>
      refine ends_pure fun i e => ?_
      rw [absent] at e
      cases e
    · next i present =>
      refine ((ends_writeBack_dirty st i).and (ends_writeBack_lookup st i)).mono
        (fun _ st' h' j e dirty => ?_) fun _ _ _ => trivial
      rw [h'.2, present] at e
      exact (h'.1 j dirty).2 (Option.some.inj e).symm
  have both := (meets_flushSector h sector).ends.and stored
  exact Meets.of_ends (both.mono (fun _ _ h' => ⟨h'.1, h'.1.good.stored sector h'.2⟩)
    fun _ _ h' => h'.1) fun _ _ h' => h'

end Storage

end SectorVolume
