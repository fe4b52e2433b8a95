import SectorVolume.Proofs.Cache.Operations
import SectorVolume.Proofs.Device.Content

/-!
# Storage that shows a given content

A storage mirrors a content if the disk has it and the slots have nothing else. Reading keeps it so,
whatever is read and however that ends: a slot that is written back tells the disk what it has
already, and the disk gets no longer by that, because only sectors that it has get into slots. The
same holds when a sector is replaced by the bytes that it has.
-/

namespace SectorVolume

namespace Storage

open SectorVolume.Action

variable {c : Content} {st st' : Storage} {sector : SectorId} {i : Nat} {α : Type}

/-- The disk has the content `c`, and each slot has the bytes of a sector of it. -/
structure Mirrors (c : Content) (st : Storage) : Prop where
  wellFormed : st.cache.WellFormed
  inhabited : 0 < st.cache.slots.size
  disk : c.Alike st.disk.content
  line : ∀ i l, (st.cache.slot i).line = some l →
    c.Has l.sector.toNat ∧ l.bytes = c.sector l.sector.toNat

theorem Mirrors.bytes (h : st.Mirrors c) (hi : st.cache.lookup sector = some i) :
    st.cache.bytes i = c.sector sector.toNat := by
  obtain ⟨l, hl, rfl⟩ := h.wellFormed.line_of_lookup hi
  unfold Cache.bytes
  rw [hl]
  exact (h.line i l hl).2

theorem Mirrors.has (h : st.Mirrors c) (hi : st.cache.lookup sector = some i) :
    c.Has sector.toNat := by
  obtain ⟨l, hl, rfl⟩ := h.wellFormed.line_of_lookup hi
  exact (h.line i l hl).1

/-- The storage was just set up on a disk. -/
theorem mirrors_of_create {capacity : Nat} {cache : Cache} (e : Cache.create capacity = .ok cache)
    (disk : Disk) (log : Log) : Mirrors disk.content ⟨disk, cache, log⟩ := by
  obtain ⟨wf, pos, slots, -⟩ := slot_of_create e
  refine ⟨wf, pos, .refl _, fun i l hl => ?_⟩
  have hl : (cache.slot i).line = some l := hl
  rw [slots] at hl
  cases hl

/-! ## Changes of the cache -/

theorem Mirrors.passed (h : st.Mirrors c) (hc : st.cache.Passed st'.cache)
    (hd : c.Alike st'.disk.content) : st'.Mirrors c := by
  refine ⟨hc.wellFormed h.wellFormed, hc.size ▸ h.inhabited, hd, fun i l hl => ?_⟩
  obtain ⟨l', hl', hs, hb, -⟩ := (hc.slot i).line hl
  rw [← hs, ← hb]
  exact h.line i l' hl'

theorem Mirrors.rests (h : st.Mirrors c) (hc : st'.cache = st.cache)
    (hd : c.Alike st'.disk.content) : st'.Mirrors c := by
  refine h.passed ?_ hd
  rw [hc]
  exact ⟨rfl, rfl, .refl _, fun _ => .refl _⟩

/-- The mark of a slot changes. -/
theorem Mirrors.mapMark (h : st.Mirrors c) {f : Mark → Mark}
    (hc : st'.cache = st.cache.modifySlot i (·.mapMark f)) (hd : c.Alike st'.disk.content) :
    st'.Mirrors c := by
  refine ⟨hc ▸ h.wellFormed.modifySlot (Slot.sector?_mapMark ..), ?_, hd, fun j l hl => ?_⟩
  · rw [hc, Cache.size_modifySlot]
    exact h.inhabited
  · rw [hc, Cache.slot_modifySlot] at hl
    split at hl
    · rw [Slot.line_mapMark, Option.map_eq_some_iff] at hl
      obtain ⟨l', hl', rfl⟩ := hl
      exact h.line j l' hl'
    · exact h.line j l hl

/-- A slot gets the bytes that its sector has. -/
theorem Mirrors.store (h : st.Mirrors c) (hi : st.cache.lookup sector = some i)
    (hc : st'.cache = st.cache.store i (c.sector sector.toNat)) (hd : st'.disk = st.disk) :
    st'.Mirrors c := by
  refine ⟨hc ▸ h.wellFormed.modifySlot (Slot.sector?_store ..), ?_, hd ▸ h.disk, fun j l hl => ?_⟩
  · rw [hc, Cache.store, Cache.size_modifySlot]
    exact h.inhabited
  · rw [hc, Cache.store, Cache.slot_modifySlot] at hl
    split at hl
    · next here =>
      rw [Slot.line_store, Option.map_eq_some_iff] at hl
      obtain ⟨l', hl', rfl⟩ := hl
      have found := h.wellFormed.lookup_of_line hl'
      rw [← here.1] at hl'
      obtain ⟨l'', hl'', rfl⟩ := h.wellFormed.line_of_lookup hi
      rw [hl'] at hl''
      cases hl''
      exact ⟨(h.line i l' hl').1, rfl⟩
    · exact h.line j l hl

/-- An empty slot is given to a sector. -/
theorem Mirrors.bind (h : st.Mirrors c) {l : Line} (lt : i < st.cache.slots.size)
    (empty : (st.cache.slot i).line = none) (absent : st.cache.lookup l.sector = none)
    (has : c.Has l.sector.toNat) (bytes : l.bytes = c.sector l.sector.toNat)
    (hc : st'.cache = st.cache.bind i l) (hd : st'.disk = st.disk) : st'.Mirrors c := by
  refine ⟨hc ▸ h.wellFormed.bind lt empty absent, ?_, hd ▸ h.disk, fun j l' hl' => ?_⟩
  · rw [hc, Cache.size_bind]
    exact h.inhabited
  · rw [hc, Cache.slot_bind] at hl'
    split at hl'
    · cases hl'
      exact ⟨has, bytes⟩
    · exact h.line j l' hl'

/-! ## Steps -/

theorem Turned.mirrors (h : Turned st st') (shows : st.Mirrors c) : st'.Mirrors c :=
  shows.passed h.cache (h.disk ▸ shows.disk)

/-- The disk is told what it has. -/
theorem WroteBack.mirrors {l : Line} (h : WroteBack i l st st') (shows : st.Mirrors c) :
    st'.Mirrors c := by
  obtain ⟨has, bytes⟩ := shows.line i l h.line
  refine shows.mapMark h.cache ?_
  rw [h.disk, bytes]
  exact shows.disk.put has

theorem Refused.mirrors {e : Failure} (h : Refused i st st' e) (shows : st.Mirrors c) :
    st'.Mirrors c := by
  cases h with
  | waits _ same => rwa [same]
  | device _ hc hd => exact shows.rests hc (hd ▸ shows.disk)

theorem Cleared.mirrors (h : Cleared st st') (shows : st.Mirrors c) : st'.Mirrors c := by
  cases h with
  | atOnce turned => exact turned.mirrors shows
  | writing first back second => exact second.mirrors (back.mirrors (first.mirrors shows))

theorem Emptied.mirrors (h : Emptied sector i st st') (shows : st.Mirrors c) : st'.Mirrors c := by
  refine ⟨h.cache ▸ shows.wellFormed.vacate i, ?_, h.disk ▸ shows.disk, fun j l hl => ?_⟩
  · rw [h.cache, Cache.size_vacate]
    exact shows.inhabited
  · rw [h.cache, Cache.slot_vacate] at hl
    split at hl
    · cases hl
    · exact shows.line j l hl

theorem mirrors_note (e : Event) : Preserves (Mirrors c) (note e) := fun _ shows =>
  ends_note fun _ hd hc => shows.rests hc (hd ▸ shows.disk)

theorem mirrors_writeBack (i : Nat) : Preserves (Mirrors c) (writeBack i) := by
  refine fun st shows => (ends_writeBack_of_slot st i).mono ?_ fun _ _ refused => refused.mirrors shows
  rintro _ st' (⟨rfl, -⟩ | ⟨l, back⟩)
  · exact shows
  · exact back.mirrors shows

theorem mirrors_flushSector (sector : SectorId) : Preserves (Mirrors c) (flushSector sector) := by
  unfold flushSector
  refine preserves_get.bind fun st => ?_
  split
  · exact preserves_pure _
  · exact mirrors_writeBack _

/-- A slot can be given to a sector with nothing known of its bytes. -/
theorem mirrors_claim (shows : st.Mirrors c) (absent : st.cache.lookup sector = none) (fill : Fill) :
    Ends (claim sector fill) st
      (fun i st' => ∃ st₀ : Storage, st₀.Mirrors c ∧ i < st₀.cache.slots.size ∧
        (st₀.cache.slot i).line = none ∧ st₀.cache.lookup sector = none ∧ st'.disk = st₀.disk ∧
        st'.cache = st₀.cache.bind i (fill.line sector st₀.disk) ∧
        (fill = .disk → c.Has sector.toNat))
      fun _ st' => st'.Mirrors c := by
  refine (ends_claim_emptied shows.wellFormed shows.inhabited sector fill).mono ?_ ?_
  · rintro i st' ⟨st₁, st₂, cleared, emptied, hd, hc, held⟩
    have shows₂ := emptied.mirrors (cleared.mirrors shows)
    refine ⟨st₂, shows₂, emptied.inside, emptied.empty,
      emptied.absent ((cleared.lookup sector).trans absent), hd, hc, fun e => ?_⟩
    have has := held e
    unfold Disk.sectorCount at has
    rwa [shows₂.disk.length] at has
  · rintro e st' ⟨i, st₁, ⟨turned, refused⟩ | ⟨cleared, unread⟩⟩
    · exact refused.mirrors (turned.mirrors shows)
    · exact unread.emptied.mirrors (cleared.mirrors shows)

/-- Only a sector of the content can be fetched. -/
theorem mirrors_fetch (shows : st.Mirrors c) (sector : SectorId) :
    Ends (fetch sector .disk) st
      (fun i st' => st'.Mirrors c ∧ st'.cache.lookup sector = some i)
      fun _ st' => st'.Mirrors c := by
  cases e : st.cache.lookup sector with
  | some i => exact (ends_pure ⟨shows, e⟩).of_eq (fetch_of_lookup e .disk)
  | none =>
    refine ((mirrors_claim shows e .disk).of_eq (fetch_of_absent e .disk)).mono ?_ fun _ _ h => h
    rintro i st' ⟨st₀, shows₀, lt, empty, absent, hd, hc, held⟩
    refine ⟨shows₀.bind lt empty absent (held rfl) (shows₀.disk.sector _) hc hd, ?_⟩
    rw [hc, Cache.lookup_bind]
    exact if_pos rfl

/-! ## Reading -/

theorem mirrors_readSlot (i : Nat) : Preserves (Mirrors c) (readSlot i) := fun _ shows =>
  ends_modifyGet (shows.mapMark rfl shows.disk)

theorem mirrors_readSector (sector : SectorId) : Preserves (Mirrors c) (readSector sector) :=
  fun _ shows => (mirrors_fetch shows sector).bind
    (fun i _ h => mirrors_readSlot i _ h.1) fun _ _ h => h

theorem mirrors_read (sector : SectorId) (offset len : Nat) :
    Preserves (Mirrors c) (read sector offset len) := by
  intro st shows
  unfold read
  refine (ends_checkRange st offset len _).bind ?_ fun e _ ⟨same, _⟩ => same ▸ shows
  rintro _ _ ⟨rfl, -⟩
  refine (mirrors_fetch shows sector).bind (fun i st₁ h₁ => ?_) fun _ _ h => h
  exact ((mirrors_readSlot i).bind fun _ => (mirrors_note _).bind fun _ => preserves_pure _) st₁ h₁.1

/-- What is read is what the content has there. -/
theorem mirrors_readView (shows : st.Mirrors c) (view : View α) (sector : SectorId) (offset : Nat) :
    Ends (readView view sector offset) st
      (fun a st' => st'.Mirrors c ∧ c.Has sector.toNat ∧
        view.read (c.sector sector.toNat) offset = .ok a)
      fun _ st' => st'.Mirrors c := by
  unfold readView
  refine (mirrors_fetch shows sector).bind (fun i st₁ h₁ => ?_) fun _ _ h => h
  obtain ⟨shows₁, hi⟩ := h₁
  unfold readViewSlot
  refine ends_get_bind ?_
  rw [shows₁.bytes hi]
  cases e : view.read (c.sector sector.toNat) offset with
  | error v => exact ends_violate_bind shows₁
  | ok a =>
    refine (ends_ofExcept (d := fun r st' => st' = st₁ ∧ r = a)
      (fun r e => ⟨rfl, (Except.ok.inj e).symm⟩) fun v e => nomatch e).bind ?_ fun _ _ h => h
    rintro _ _ ⟨rfl, rfl⟩
    refine ends_onCache_bind fun st₂ hd hc => ends_pure ⟨?_, shows₁.has hi, rfl⟩
    exact shows₁.mapMark hc (hd ▸ shows₁.disk)

/-! ## Writing what is there -/

/-- A sector is given the bytes that it has. -/
theorem mirrors_replaceSector (has : c.Has sector.toNat) :
    Preserves (Mirrors c) (replaceSector sector (c.sector sector.toNat)) := by
  intro st shows
  unfold replaceSector
  cases e : st.cache.lookup sector with
  | some i =>
    refine Ends.bind (d := fun j st' => j = i ∧ st' = st)
      ((ends_pure ⟨rfl, rfl⟩).of_eq (fetch_of_lookup e .blank)) ?_ fun _ _ h => h
    rintro _ _ ⟨rfl, rfl⟩
    exact ends_onCache fun st₁ hd hc => shows.store e hc hd
  | none =>
    refine ((mirrors_claim shows e .blank).of_eq (fetch_of_absent e .blank)).bind ?_ fun _ _ h => h
    rintro i st₁ ⟨st₀, shows₀, lt, empty, absent, hd, hc, -⟩
    refine ends_onCache fun st₂ hd₂ hc₂ => ?_
    -- between the two steps the slot has zeros, which nobody sees
    rw [hc, Fill.line, store_bind] at hc₂
    exact shows₀.bind lt empty absent has rfl hc₂ (hd₂.trans hd)

end Storage

end SectorVolume
