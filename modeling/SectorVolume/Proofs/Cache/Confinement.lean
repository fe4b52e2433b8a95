import SectorVolume.Proofs.Cache.Operations

/-!
# Storage confined to the first sectors of a disk

As long as only the first sectors are asked for, no other sector gets into a slot, so the disk stays
as it is behind them and gets no longer. And as long as they are only read, no slot gets dirty.
-/

namespace SectorVolume

namespace Storage

open SectorVolume.Action

variable {writes : Prop} {n : Nat} {c : Content} {st st' : Storage} {sector : SectorId} {i : Nat}
  {α : Type}

/-- Only the first `n` sectors are in slots, and behind them the disk is as in `c`. Slots may be
dirty if something `writes`, which takes a disk that has these sectors. -/
structure Confined (writes : Prop) (n : Nat) (c : Content) (st : Storage) : Prop where
  wellFormed : st.cache.WellFormed
  inhabited : 0 < st.cache.slots.size
  line : ∀ i l, (st.cache.slot i).line = some l →
    l.sector.toNat < n ∧ (l.mark = .dirty → writes)
  room : writes → n ≤ c.length / sectorSize
  length : st.disk.content.length = c.length
  behind : ∀ m, n ≤ m → st.disk.sector m = c.sector m

/-- The storage was just set up on a disk. -/
theorem confined_of_create {capacity : Nat} {cache : Cache} (e : Cache.create capacity = .ok cache)
    {disk : Disk} (room : writes → n ≤ disk.sectorCount) (log : Log) :
    Confined writes n disk.content ⟨disk, cache, log⟩ := by
  obtain ⟨wf, pos, slots, -⟩ := slot_of_create e
  refine ⟨wf, pos, fun i l hl => ?_, room, rfl, fun _ _ => rfl⟩
  have hl : (cache.slot i).line = some l := hl
  rw [slots] at hl
  cases hl

/-- When no slot is dirty, nothing has to be written. -/
theorem Confined.clean (h : st.Confined writes n c) (clean : ∀ i, (st.cache.slot i).isDirty ≠ true) :
    st.Confined False n c :=
  ⟨h.wellFormed, h.inhabited, fun i l hl => ⟨(h.line i l hl).1, fun dirty =>
    clean i (Slot.isDirty_iff.2 ⟨l, hl, dirty⟩)⟩, False.elim, h.length, h.behind⟩

theorem Confined.not_dirty (h : st.Confined False n c) (i : Nat) :
    (st.cache.slot i).isDirty ≠ true := fun dirty => by
  obtain ⟨l, hl, mark⟩ := Slot.isDirty_iff.1 dirty
  exact (h.line i l hl).2 mark

/-! ## Changes of the cache -/

theorem Confined.passed (h : st.Confined writes n c) (hc : st.cache.Passed st'.cache)
    (hd : st'.disk.content = st.disk.content) : st'.Confined writes n c := by
  refine ⟨hc.wellFormed h.wellFormed, hc.size ▸ h.inhabited, fun i l hl => ?_, h.room,
    hd ▸ h.length, fun m hm => (Disk.sector_of_content hd m).trans (h.behind m hm)⟩
  obtain ⟨l', hl', hs, -, hm⟩ := (hc.slot i).line hl
  obtain ⟨lt, dirty⟩ := h.line i l' hl'
  exact ⟨hs ▸ lt, fun e => dirty (hm.2 e)⟩

theorem Confined.rests (h : st.Confined writes n c) (hc : st'.cache = st.cache)
    (hd : st'.disk.content = st.disk.content) : st'.Confined writes n c := by
  refine h.passed ?_ hd
  rw [hc]
  exact ⟨rfl, rfl, .refl _, fun _ => .refl _⟩

/-- The mark of a slot changes, but not to dirty. -/
theorem Confined.mapMark (h : st.Confined writes n c) {f : Mark → Mark}
    (hf : ∀ m, f m = .dirty → m = .dirty) (hc : st'.cache = st.cache.modifySlot i (·.mapMark f))
    (length : st'.disk.content.length = c.length)
    (behind : ∀ m, n ≤ m → st'.disk.sector m = c.sector m) : st'.Confined writes n c := by
  refine ⟨hc ▸ h.wellFormed.modifySlot (Slot.sector?_mapMark ..), ?_, fun j l hl => ?_, h.room,
    length, behind⟩
  · rw [hc, Cache.size_modifySlot]
    exact h.inhabited
  · rw [hc, Cache.slot_modifySlot] at hl
    split at hl
    · rw [Slot.line_mapMark, Option.map_eq_some_iff] at hl
      obtain ⟨l', hl', rfl⟩ := hl
      exact ⟨(h.line j l' hl').1, fun e => (h.line j l' hl').2 (hf _ e)⟩
    · exact h.line j l hl

theorem Confined.touch (h : st.Confined writes n c) (hc : st'.cache = st.cache.touch i)
    (hd : st'.disk = st.disk) : st'.Confined writes n c :=
  h.mapMark (fun m => by cases m <;> simp [Mark.afterRead]) hc (hd ▸ h.length) (hd ▸ h.behind)

/-- A slot gets other bytes. -/
theorem Confined.store (h : st.Confined writes n c) (may : writes) {b : Sector}
    (hc : st'.cache = st.cache.store i b) (hd : st'.disk = st.disk) : st'.Confined writes n c := by
  refine ⟨hc ▸ h.wellFormed.modifySlot (Slot.sector?_store ..), ?_, fun j l hl => ?_, h.room,
    hd ▸ h.length, hd ▸ h.behind⟩
  · rw [hc, Cache.store, Cache.size_modifySlot]
    exact h.inhabited
  · rw [hc, Cache.store, Cache.slot_modifySlot] at hl
    split at hl
    · rw [Slot.line_store, Option.map_eq_some_iff] at hl
      obtain ⟨l', hl', rfl⟩ := hl
      exact ⟨(h.line j l' hl').1, fun _ => may⟩
    · exact h.line j l hl

/-- An empty slot is given to one of the first sectors. -/
theorem Confined.bind (h : st.Confined writes n c) {l : Line} (lt : i < st.cache.slots.size)
    (empty : (st.cache.slot i).line = none) (absent : st.cache.lookup l.sector = none)
    (inside : l.sector.toNat < n) (dirty : l.mark = .dirty → writes)
    (hc : st'.cache = st.cache.bind i l) (hd : st'.disk = st.disk) : st'.Confined writes n c := by
  refine ⟨hc ▸ h.wellFormed.bind lt empty absent, ?_, fun j l' hl' => ?_, h.room, hd ▸ h.length,
    hd ▸ h.behind⟩
  · rw [hc, Cache.size_bind]
    exact h.inhabited
  · rw [hc, Cache.slot_bind] at hl'
    split at hl'
    · cases hl'
      exact ⟨inside, dirty⟩
    · exact h.line j l' hl'

/-! ## Steps of a replacement -/

theorem Turned.confined (h : Turned st st') (confined : st.Confined writes n c) :
    st'.Confined writes n c := confined.passed h.cache (by rw [h.disk])

/-- The disk has the sector that is written back, so that it gets no longer. -/
theorem WroteBack.confined {l : Line} (h : WroteBack i l st st') (confined : st.Confined writes n c) :
    st'.Confined writes n c := by
  have size : sectorSize = 512 := rfl
  obtain ⟨inside, writes⟩ := confined.line i l h.line
  have room := confined.room (writes h.dirty)
  refine confined.mapMark (fun _ e => by cases e) h.cache ?_ fun m hm => ?_
  · rw [h.disk]
    show max st.disk.content.length (sectorSize * (l.sector.toNat + 1)) = c.length
    rw [confined.length, size]
    rw [size] at room
    omega
  · rw [Disk.sector_of_put h.disk, if_neg (by omega), confined.behind m hm]

theorem Refused.confined {e : Failure} (h : Refused i st st' e) (confined : st.Confined writes n c) :
    st'.Confined writes n c := by
  cases h with
  | waits _ same => rwa [same]
  | device _ hc hd => exact confined.rests hc hd

theorem Cleared.confined (h : Cleared st st') (confined : st.Confined writes n c) :
    st'.Confined writes n c := by
  cases h with
  | atOnce turned => exact turned.confined confined
  | writing first back second =>
    exact second.confined (back.confined (first.confined confined))

theorem Emptied.confined (h : Emptied sector i st st') (confined : st.Confined writes n c) :
    st'.Confined writes n c := by
  refine ⟨h.cache ▸ confined.wellFormed.vacate i, ?_, fun j l hl => ?_, confined.room,
    h.disk ▸ confined.length, fun m hm =>
      (Disk.sector_of_content h.disk m).trans (confined.behind m hm)⟩
  · rw [h.cache, Cache.size_vacate]
    exact confined.inhabited
  · rw [h.cache, Cache.slot_vacate] at hl
    split at hl
    · cases hl
    · exact confined.line j l hl

/-! ## Operations -/

theorem confined_note (e : Event) : Preserves (Confined writes n c) (note e) := fun _ h =>
  ends_note fun _ hd hc => h.rests hc (by rw [hd])

theorem confined_writeBack (i : Nat) : Preserves (Confined writes n c) (writeBack i) := by
  refine fun st h => (ends_writeBack_of_slot st i).mono ?_ fun _ _ refused => refused.confined h
  rintro _ st' (⟨rfl, -⟩ | ⟨l, back⟩)
  · exact h
  · exact back.confined h

theorem confined_writeBackAll (count : Nat) (is : List Nat) :
    Preserves (Confined writes n c) (writeBackAll count is) := by
  induction is generalizing count with
  | nil => exact preserves_pure _
  | cons i is ih => exact (confined_writeBack i).bind fun _ => ih _

theorem confined_flushAll : Preserves (Confined writes n c) flushAll :=
  preserves_get.bind fun _ => (confined_writeBackAll 0 _).bind fun _ =>
    (confined_note _).bind fun _ => preserves_pure _

/-- One of the first sectors gets a slot. -/
theorem confined_claim (h : st.Confined writes n c) (hs : sector.toNat < n)
    (absent : st.cache.lookup sector = none) {fill : Fill} (dirty : ∀ b, fill = .bytes b → writes) :
    Ends (claim sector fill) st (fun _ st' => st'.Confined writes n c)
      fun _ st' => st'.Confined writes n c := by
  refine (ends_claim_emptied h.wellFormed h.inhabited sector fill).mono ?_ ?_
  · rintro i st' ⟨st₁, st₂, cleared, emptied, hd, hc, -⟩
    have h₂ := emptied.confined (cleared.confined h)
    have absent₂ := emptied.absent ((cleared.lookup sector).trans absent)
    rw [← fill.sector_line sector st₂.disk] at hs absent₂
    refine h₂.bind emptied.inside emptied.empty absent₂ hs (fun mark => ?_) hc hd
    cases fill with
    | disk | blank => cases mark
    | bytes b => exact dirty b rfl
  · rintro e st' ⟨i, st₁, ⟨turned, refused⟩ | ⟨cleared, unread⟩⟩
    · exact refused.confined (turned.confined h)
    · exact unread.emptied.confined (cleared.confined h)

theorem confined_fetch (hs : sector.toNat < n) {fill : Fill} (dirty : ∀ b, fill = .bytes b → writes) :
    Preserves (Confined writes n c) (fetch sector fill) := by
  intro st h
  cases e : st.cache.lookup sector with
  | some i =>
    refine Ends.of_eq (ends_pure ?_) (fetch_of_lookup e fill)
    exact h
  | none => exact (confined_claim h hs e dirty).of_eq (fetch_of_absent e fill)

theorem confined_readSector (hs : sector.toNat < n) :
    Preserves (Confined writes n c) (readSector sector) :=
  (confined_fetch hs nofun).bind fun _ _ h => ends_modifyGet (h.touch rfl rfl)

theorem confined_onStore (may : writes) (i : Nat) (f : Cache → Sector) :
    Preserves (Confined writes n c) (onCache fun cache => cache.store i (f cache)) := fun _ h =>
  ends_onCache fun _ hd hc => h.store may hc hd

theorem confined_modifySector (may : writes) (hs : sector.toNat < n)
    (f : Sector → Except Violation (α × Sector)) :
    Preserves (Confined writes n c) (modifySector sector f) := by
  refine (confined_fetch hs nofun).bind fun i => preserves_get.bind fun st => ?_
  refine (preserves_ofExcept _).bind fun r => ?_
  exact (confined_onStore may i fun _ => r.2).bind fun _ => preserves_pure _

theorem confined_overwriteSector (may : writes) (hs : sector.toNat < n) (f : Sector → Sector) :
    Preserves (Confined writes n c) (do
      let i ← fetch sector .blank
      onCache fun cache => cache.store i (f (cache.bytes i))) :=
  (confined_fetch hs nofun).bind fun i => confined_onStore may i fun cache => f (cache.bytes i)

theorem confined_write (may : writes) (hs : sector.toNat < n) (offset : Nat) (bytes : Bytes) :
    Preserves (Confined writes n c) (write sector offset bytes) := by
  intro st h
  unfold write
  refine (ends_checkRange st offset bytes.size _).bind ?_ fun _ _ ⟨same, _⟩ => same ▸ h
  rintro _ _ ⟨rfl, -⟩
  have overlay : ∀ i, Preserves (Confined writes n c) (overlaySlot i offset bytes) := fun i =>
    confined_onStore may i _
  refine ends_get_bind ?_
  split
  · exact ((overlay _).bind fun _ => confined_note _) _ h
  · next absent =>
    split
    · refine ends_note_bind fun st₁ hd hc => ?_
      exact (confined_claim (h.rests hc (by rw [hd])) hs (hc ▸ absent) fun _ _ => may).bind
        (fun _ _ h => ends_pure h) fun _ _ h => h
    · have read : ∀ b, Fill.disk = .bytes b → writes := nofun
      exact (confined_claim h hs absent read).bind
        (fun _ st₁ h₁ => ((overlay _).bind fun _ => confined_note _) st₁ h₁) fun _ _ h => h

end Storage

end SectorVolume
