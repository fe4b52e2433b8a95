import SectorVolume.Proofs.Cache.Sound
import SectorVolume.Proofs.Cache.Transparency

/-!
# The representation of a cache in use

Ring, index, slots and pins agree after every operation, also when pins are held for long, when
transfers fail in the middle of an operation, when sectors are pinned without being read, and when
the disk is changed behind the cache. A slot that is not dirty is as on the disk, unless its sector
was left in doubt by one of the last two.
-/

namespace SectorVolume

namespace Storage

open SectorVolume.Action

variable {capacity : Nat} {pins : List Pin} {doubt doubt' : Set SectorId} {st st' : Storage}

/-! ## Writing back -/

theorem Turned.sound (h : Turned st st') (sound : st.Sound capacity pins doubt) :
    st'.Sound capacity pins doubt := sound.passed h.cache (by rw [h.disk])

theorem WroteBack.sound {i : Nat} {l : Line} (h : WroteBack i l st st')
    (sound : st.Sound capacity pins doubt) : st'.Sound capacity pins doubt :=
  sound.wroteBack h.line h.disk h.cache

theorem Refused.sound {i : Nat} {e : Failure} (h : Refused i st st' e)
    (sound : st.Sound capacity pins doubt) : st'.Sound capacity pins doubt := by
  cases h with
  | waits _ same => exact same ▸ sound
  | device _ hc hd => exact sound.rests hc hd

theorem sound_writeBack (h : st.Sound capacity pins doubt) (i : Nat) :
    Ends (writeBack i) st (fun _ st' => st'.Sound capacity pins doubt)
      fun _ st' => st'.Sound capacity pins doubt := by
  refine (ends_writeBack_of_slot st i).mono ?_ fun _ _ refused => refused.sound h
  rintro _ st' (⟨rfl, -⟩ | ⟨l, back⟩)
  · exact h
  · exact back.sound h

theorem sound_writeBackAll (h : st.Sound capacity pins doubt) (count : Nat) (is : List Nat) :
    Ends (writeBackAll count is) st (fun _ st' => st'.Sound capacity pins doubt)
      fun _ st' => st'.Sound capacity pins doubt := by
  induction is generalizing st count with
  | nil => exact ends_pure h
  | cons i is ih =>
    unfold writeBackAll
    exact (sound_writeBack h i).bind (fun _ st₁ h₁ => ih h₁ _) fun _ _ h₁ => h₁

theorem sound_flushAll (h : st.Sound capacity pins doubt) :
    Ends flushAll st (fun _ st' => st'.Sound capacity pins doubt)
      fun _ st' => st'.Sound capacity pins doubt := by
  unfold flushAll
  refine ends_get_bind ((sound_writeBackAll h 0 _).bind (fun _ st₁ h₁ => ?_) fun _ _ h₁ => h₁)
  exact ends_note_bind fun st₂ hd hc => ends_pure (h₁.rests hc (by rw [hd]))

theorem sound_flushSector (h : st.Sound capacity pins doubt) (sector : SectorId) :
    Ends (flushSector sector) st (fun _ st' => st'.Sound capacity pins doubt)
      fun _ st' => st'.Sound capacity pins doubt := by
  unfold flushSector
  refine ends_get_bind ?_
  split
  · exact ends_pure h
  · exact sound_writeBack h _

/-! ## Bringing sectors into the cache -/

theorem Cleared.sound (h : Cleared st st') (sound : st.Sound capacity pins doubt) :
    st'.Sound capacity pins doubt := by
  cases h with
  | atOnce turned => exact turned.sound sound
  | writing first back second => exact second.sound (back.sound (first.sound sound))

theorem Emptied.sound {sector : SectorId} {i : Nat} (h : Emptied sector i st st')
    (sound : st.Sound capacity pins doubt) : st'.Sound capacity pins doubt :=
  have emptied : (⟨st.disk, st.cache.vacate i, st.log⟩ : Storage).Sound capacity pins doubt :=
    sound.vacate h.unused rfl rfl
  emptied.rests h.cache h.disk

/-- A sector that is filled with neither its own bytes nor new ones has to be in doubt. -/
theorem sound_claim (h : st.Sound capacity pins doubt) {sector : SectorId} {fill : Fill}
    (absent : st.cache.lookup sector = none) (sub : doubt ⊆ doubt')
    (fits : ∀ d, (fill.line sector d).Settled doubt' d) :
    Ends (claim sector fill) st
      (fun i st' => st'.Sound capacity pins doubt' ∧ st'.cache.lookup sector = some i)
      fun _ st' => st'.Sound capacity pins doubt := by
  have pos : 0 < st.cache.slots.size := h.size ▸ h.inhabited
  refine (ends_claim_emptied h.wellFormed pos sector fill).mono ?_ ?_
  · rintro i st' ⟨st₁, st₂, cleared, emptied, hd, hc, -⟩
    have sound := (emptied.sound (cleared.sound h)).mono sub
    have absent₂ : st₂.cache.lookup (fill.line sector st₂.disk).sector = none := by
      rw [Fill.sector_line]
      exact emptied.absent ((cleared.lookup sector).trans absent)
    refine ⟨sound.bind emptied.inside emptied.empty absent₂ (fits _) hd hc, ?_⟩
    rw [hc, Cache.lookup_bind, if_pos (Fill.sector_line ..)]
  · rintro e st' ⟨i, st₁, ⟨turned, refused⟩ | ⟨cleared, unread⟩⟩
    · exact refused.sound (turned.sound h)
    · exact unread.emptied.sound (cleared.sound h)

theorem sound_fetch (h : st.Sound capacity pins doubt) {sector : SectorId} {fill : Fill}
    (sub : doubt ⊆ doubt')
    (fits : st.cache.lookup sector = none → ∀ d, (fill.line sector d).Settled doubt' d) :
    Ends (fetch sector fill) st
      (fun i st' => st'.Sound capacity pins doubt' ∧ st'.cache.lookup sector = some i)
      fun _ st' => st'.Sound capacity pins doubt := by
  cases e : st.cache.lookup sector with
  | some i => exact (ends_pure ⟨h.mono sub, e⟩).of_eq (fetch_of_lookup e fill)
  | none => exact (sound_claim h e sub (fits e)).of_eq (fetch_of_absent e fill)

/-- A sector that is read from the disk is not in doubt. -/
theorem sound_fetch_disk (h : st.Sound capacity pins doubt) (sector : SectorId) :
    Ends (fetch sector .disk) st
      (fun i st' => st'.Sound capacity pins doubt ∧ st'.cache.lookup sector = some i)
      fun _ st' => st'.Sound capacity pins doubt :=
  sound_fetch h (fun _ mem => mem) fun _ _ => .inr (.inr rfl)

/-! ## Reading and writing -/

theorem sound_readSlot (h : st.Sound capacity pins doubt) (i : Nat) :
    Ends (readSlot i) st (fun _ st' => st'.Sound capacity pins doubt) fun _ _ => False :=
  ends_modifyGet (h.touch rfl rfl)

theorem sound_overlaySlot (h : st.Sound capacity pins doubt) {sector : SectorId} {i : Nat}
    (hi : st.cache.lookup sector = some i) (offset : Nat) (bytes : Bytes) :
    Ends (overlaySlot i offset bytes) st
      (fun _ st' => st'.Sound capacity pins (doubt \ {sector})) fun _ _ => False :=
  ends_onCache fun _ hd hc => h.store hi hd hc

theorem sound_readViewSlot {α : Type} (h : st.Sound capacity pins doubt) (view : View α)
    (i offset : Nat) :
    Ends (readViewSlot view i offset) st (fun _ st' => st'.Sound capacity pins doubt)
      fun _ st' => st'.Sound capacity pins doubt := by
  unfold readViewSlot
  refine ends_get_bind ((ends_ofExcept (d := fun _ st' => st' = st)
    (fun _ _ => rfl) fun _ _ => h).bind ?_ fun _ _ h => h)
  rintro _ _ rfl
  exact ends_onCache_bind fun _ hd hc => ends_pure (h.touch hd hc)

theorem sound_modifyViewSlot {α : Type} (h : st.Sound capacity pins doubt) (view : View α)
    {sector : SectorId} {i : Nat} (hi : st.cache.lookup sector = some i) (offset : Nat)
    (f : α → α) :
    Ends (modifyViewSlot view i offset f) st
      (fun _ st' => st'.Sound capacity pins (doubt \ {sector}))
      fun _ st' => st'.Sound capacity pins doubt := by
  unfold modifyViewSlot
  refine ends_get_bind ((ends_ofExcept (d := fun _ st' => st' = st)
    (fun _ _ => rfl) fun _ _ => h).bind ?_ fun _ _ h => h)
  rintro _ _ rfl
  exact ends_onCache_bind fun _ hd hc => ends_pure (h.store hi hd hc)

theorem sound_read (h : st.Sound capacity pins doubt) (sector : SectorId) (offset len : Nat) :
    Ends (read sector offset len) st (fun _ st' => st'.Sound capacity pins doubt)
      fun _ st' => st'.Sound capacity pins doubt := by
  unfold read
  refine (ends_checkRange st offset len _).bind ?_ fun _ _ e => e.1 ▸ h
  rintro _ _ ⟨rfl, -⟩
  refine (sound_fetch_disk h sector).bind (fun i st₁ h₁ => ?_) fun _ _ h => h
  refine (sound_readSlot h₁.1 i).bind (fun _ st₂ h₂ => ?_) fun _ _ h => h.elim
  exact ends_note_bind fun _ hd hc => ends_pure (h₂.rests hc (by rw [hd]))

theorem sound_write (h : st.Sound capacity pins doubt) (sector : SectorId) (offset : Nat)
    (bytes : Bytes) :
    Ends (write sector offset bytes) st (fun _ st' => st'.Sound capacity pins (doubt \ {sector}))
      fun _ st' => st'.Sound capacity pins doubt := by
  unfold write
  refine (ends_checkRange st offset bytes.size _).bind ?_ fun _ _ e => e.1 ▸ h
  rintro _ st ⟨rfl, -⟩
  have rest : ∀ st₂ i, st₂.Sound capacity pins doubt → st₂.cache.lookup sector = some i →
      Ends (do
        overlaySlot i offset bytes
        note (.sectorWritten sector offset bytes.size)) st₂
        (fun _ st' => st'.Sound capacity pins (doubt \ {sector}))
        fun _ st' => st'.Sound capacity pins doubt := by
    intro st₂ i h₂ hi
    refine (sound_overlaySlot h₂ hi offset bytes).bind (fun _ st₃ h₃ => ?_) fun _ _ h => h.elim
    exact ends_note fun _ hd hc => h₃.rests hc (by rw [hd])
  refine ends_get_bind ?_
  split
  · next i hi => exact rest st i h hi
  next absent =>
  split
  · refine ends_note_bind fun st₂ hd hc => ?_
    -- the sector is not in doubt while it has no slot, and gets a dirty one
    have h₂ := (h.resolve_absent absent).rests hc (by rw [hd])
    rw [← hc] at absent
    refine (sound_claim h₂ absent (fun _ mem => mem) fun _ => .inl rfl).bind (fun _ _ h₃ => ends_pure h₃.1) ?_
    exact fun _ _ h₃ => h₃.mono fun _ mem => mem.1
  · refine (sound_claim h absent (fun _ mem => mem) fun _ => .inr (.inr rfl)).bind ?_ fun _ _ h => h
    exact fun i st₂ h₂ => rest st₂ i h₂.1 h₂.2

theorem sound_readView {α : Type} (h : st.Sound capacity pins doubt) (view : View α)
    (sector : SectorId) (offset : Nat) :
    Ends (readView view sector offset) st (fun _ st' => st'.Sound capacity pins doubt)
      fun _ st' => st'.Sound capacity pins doubt := by
  unfold readView
  refine (sound_fetch_disk h sector).bind (fun i st₁ h₁ => ?_) fun _ _ h => h
  exact sound_readViewSlot h₁.1 view i offset

theorem sound_modifyView {α : Type} (h : st.Sound capacity pins doubt) (view : View α)
    (sector : SectorId) (offset : Nat) (f : α → α) :
    Ends (modifyView view sector offset f) st
      (fun _ st' => st'.Sound capacity pins (doubt \ {sector}))
      fun _ st' => st'.Sound capacity pins doubt := by
  unfold modifyView
  refine (sound_fetch_disk h sector).bind (fun i st₁ h₁ => ?_) fun _ _ h => h
  exact sound_modifyViewSlot h₁.1 view h₁.2 offset f

/-! ## Pins -/

theorem sound_pinResident (h : st.Sound capacity pins doubt) (sector : SectorId) :
    Ends (pinResident sector) st (fun p st' => st'.Sound capacity (p.toList ++ pins) doubt)
      fun _ _ => False := by
  unfold pinResident
  refine ends_get_bind ?_
  split
  · exact ends_pure h
  · next i hi => exact ends_onCache_bind fun _ hd hc => ends_pure (h.pin hi hd hc)

theorem sound_pin (h : st.Sound capacity pins doubt) {sector : SectorId} {fill : Fill}
    (sub : doubt ⊆ doubt')
    (fits : st.cache.lookup sector = none → ∀ d, (fill.line sector d).Settled doubt' d) :
    Ends (pin sector fill) st (fun p st' => st'.Sound capacity (p :: pins) doubt')
      fun _ st' => st'.Sound capacity pins doubt := by
  unfold pin
  refine (sound_fetch h sub fits).bind (fun i st₁ h₁ => ?_) fun _ _ h => h
  exact ends_onCache_bind fun _ hd hc => ends_pure (h₁.1.pin h₁.2 hd hc)

/-- A sector may be pinned without being read if it counts as in doubt from then on. -/
theorem sound_pin_blank (h : st.Sound capacity pins doubt) (sector : SectorId) :
    Ends (pin sector .blank) st
      (fun p st' => st'.Sound capacity (p :: pins)
        (if st.cache.lookup sector = none then insert sector doubt else doubt))
      fun _ st' => st'.Sound capacity pins doubt := by
  split
  · exact sound_pin h (Set.subset_insert sector doubt) fun _ d =>
      .inr (.inl (Set.mem_insert sector doubt))
  · next resident => exact sound_pin h (fun _ mem => mem) fun absent => absurd absent resident

theorem sound_unpin (h : st.Sound capacity pins doubt) {p : Pin} (hp : p ∈ pins) :
    Ends (unpin p) st (fun _ st' => st'.Sound capacity (pins.erase p) doubt) fun _ _ => False :=
  ends_onCache fun _ hd hc => h.unpin hp hd hc

end Storage

namespace Access

open SectorVolume.Action

variable {capacity : Nat} {held : List Storage.Pin} {doubt : Set SectorId} {st : Storage}

/-- The sectors in doubt after a request was answered: not the one that it changed. -/
def doubts (doubt : Set SectorId) : Access → Set SectorId
  | write sector _ _ => doubt \ {sector}
  | modifyAs _ _ sector _ _ => doubt \ {sector}
  | modifyHeld _ _ p _ _ => doubt \ {p.sector}
  | _ => doubt

/-- Every request keeps a storage sound. -/
theorem sound_run (h : st.Sound capacity held doubt) (r : Access) (hr : r.Allowed held) :
    Ends r.run st (fun a st' => st'.Sound capacity (r.holds held a) (r.doubts doubt))
      fun _ st' => st'.Sound capacity held doubt := by
  cases r with
  | read sector offset len => exact Storage.sound_read h sector offset len
  | write sector offset bytes => exact Storage.sound_write h sector offset bytes
  | readAs α view sector offset => exact Storage.sound_readView h view sector offset
  | modifyAs α view sector offset f => exact Storage.sound_modifyView h view sector offset f
  | search sector => exact (Storage.sound_pinResident h sector).mono (fun _ _ h => h) fun _ _ no => no.elim
  | load sector => exact Storage.sound_pin h (fun _ mem => mem) fun _ _ => .inr (.inr rfl)
  | readHeld α view p offset => exact Storage.sound_readViewSlot h view p.slot offset
  | modifyHeld α view p offset f =>
    exact Storage.sound_modifyViewSlot h view (h.kept p hr) offset f
  | drop p => exact (Storage.sound_unpin h hr).mono (fun _ _ h => h) fun _ _ no => no.elim
  | flushSector sector => exact Storage.sound_flushSector h sector
  | flushAll => exact Storage.sound_flushAll h

end Access

namespace Storage

open SectorVolume.Action

variable {capacity : Nat} {disk : Disk} {log : Log} {held : List Pin} {doubt : Set SectorId}
  {st : Storage}

/-- Operations of a program led from an empty cache in front of a disk to the storage `st`. The
program holds `held`, and `doubt` are the sectors that it pinned without having them read and has
not changed since, and those that changed on the disk behind the cache. An operation that fails
leaves both as they are. -/
inductive Used (capacity : Nat) (disk : Disk) (log : Log) :
    Storage → List Pin → Set SectorId → Prop
  | start {cache : Cache} : Cache.create capacity = .ok cache →
      Used capacity disk log ⟨disk, cache, log⟩ [] ∅
  | answered {st st' : Storage} {held : List Pin} {doubt : Set SectorId} (r : Access)
      {a : r.Answer} : Used capacity disk log st held doubt → r.Allowed held →
      r.run st = .ok a st' → Used capacity disk log st' (r.holds held a) (r.doubts doubt)
  | failed {st st' : Storage} {held : List Pin} {doubt : Set SectorId} (r : Access) {e : Failure} :
      Used capacity disk log st held doubt → r.Allowed held → r.run st = .error e st' →
      Used capacity disk log st' held doubt
  | unread {st st' : Storage} {held : List Pin} {doubt : Set SectorId} {sector : SectorId}
      {p : Pin} : Used capacity disk log st held doubt → pin sector .blank st = .ok p st' →
      Used capacity disk log st' (p :: held)
        (if st.cache.lookup sector = none then insert sector doubt else doubt)
  | unpinned {st st' : Storage} {held : List Pin} {doubt : Set SectorId} {sector : SectorId}
      {e : Failure} : Used capacity disk log st held doubt → pin sector .blank st = .error e st' →
      Used capacity disk log st' held doubt
  | altered {st : Storage} {held : List Pin} {doubt : Set SectorId} (disk' : Disk) :
      Used capacity disk log st held doubt →
      Used capacity disk log ⟨disk', st.cache, st.log⟩ held
        (doubt ∪ {s | disk'.sector s.toNat ≠ st.disk.sector s.toNat})

/-- How the parts of a cache belong together. -/
structure Represented (capacity : Nat) (held : List Pin) (doubt : Set SectorId) (st : Storage) :
    Prop where
  size : st.cache.slots.size = capacity
  ring : st.cache.ring.toList.Perm (List.range capacity)
  index : ∀ s i, st.cache.lookup s = some i ↔ (st.cache.slot i).sector? = some s
  single : ∀ s i j, (st.cache.slot i).sector? = some s → (st.cache.slot j).sector? = some s → i = j
  empty : ∀ i, (st.cache.slot i).line = none ↔ ∀ s, st.cache.lookup s ≠ some i
  dirty : ∀ i, (st.cache.slot i).isDirty = true → ∃ s, st.cache.lookup s = some i
  counted : ∀ i, (st.cache.slot i).pins = held.countP (·.slot == i)
  kept : ∀ p ∈ held, p.slot < capacity ∧ (st.cache.slot p.slot).sector? = some p.sector
  clean : ∀ i l, (st.cache.slot i).line = some l → l.mark ≠ .dirty → l.sector ∉ doubt →
    l.bytes = st.disk.sector l.sector.toNat

theorem represented_of_sound (h : st.Sound capacity held doubt) :
    st.Represented capacity held doubt where
  size := h.size
  ring := h.size ▸ h.wellFormed.ring
  index := h.wellFormed.index
  single s i j hi hj := by
    have found := (h.wellFormed.index s i).2 hi
    rw [(h.wellFormed.index s j).2 hj] at found
    exact (Option.some.inj found).symm
  empty i := by
    constructor
    · intro none s hs
      obtain ⟨l, hl, -⟩ := h.wellFormed.line_of_lookup hs
      rw [none] at hl
      cases hl
    · intro absent
      cases e : (st.cache.slot i).line with
      | none => rfl
      | some l => exact absurd (h.wellFormed.lookup_of_line e) (absent l.sector)
  dirty i dirty := by
    obtain ⟨l, hl, -⟩ := Slot.isDirty_iff.1 dirty
    exact ⟨l.sector, h.wellFormed.lookup_of_line hl⟩
  counted := h.counted
  kept p hp := by
    have kept := h.kept p hp
    exact ⟨h.size ▸ h.wellFormed.lt_of_lookup kept, (h.wellFormed.index _ _).1 kept⟩
  clean i l hl mark known := ((h.settled i l hl).resolve_left mark).resolve_left known

theorem sound_of_create {cache : Cache} (hc : Cache.create capacity = .ok cache) (disk : Disk)
    (log : Log) : (⟨disk, cache, log⟩ : Storage).Sound capacity [] ∅ := by
  obtain ⟨wf, pos, slots, -⟩ := slot_of_create hc
  have size : cache.slots.size = capacity := by
    unfold Cache.create at hc
    split at hc
    · cases hc
    split at hc
    · cases hc
    cases hc
    exact Array.size_replicate
  refine ⟨wf, size, size ▸ pos, fun i => ?_, nofun, fun i l hl => ?_⟩
  · rw [slots]
    rfl
  · rw [slots] at hl
    cases hl

theorem Sound.altered (h : st.Sound capacity held doubt) (disk' : Disk) :
    (⟨disk', st.cache, st.log⟩ : Storage).Sound capacity held
      (doubt ∪ {s | disk'.sector s.toNat ≠ st.disk.sector s.toNat}) := by
  refine { h with settled := fun i l hl => ?_ }
  rcases h.settled i l hl with dirty | mem | same
  · exact .inl dirty
  · exact .inr (.inl (.inl mem))
  · by_cases e : disk'.sector l.sector.toNat = st.disk.sector l.sector.toNat
    · exact .inr (.inr (same.trans e.symm))
    · exact .inr (.inl (.inr e))

theorem Used.sound (h : Used capacity disk log st held doubt) : st.Sound capacity held doubt := by
  induction h with
  | start hc => exact sound_of_create hc disk log
  | answered r _ hr e ih => exact (r.sound_run ih hr).ok e
  | failed r _ hr e ih => exact (r.sound_run ih hr).error e
  | unread _ e ih => exact (sound_pin_blank ih _).ok e
  | unpinned _ e ih => exact (sound_pin_blank ih _).error e
  | altered disk' _ ih => exact ih.altered disk'

/-- Whatever a program does with a cache and whatever becomes of it, the parts of the cache belong
together afterwards. -/
theorem Used.represented (h : Used capacity disk log st held doubt) :
    st.Represented capacity held doubt := represented_of_sound h.sound

/-- In front of a memory disk a sector can be pinned without being read. -/
theorem represented_of_unread :
    ∃ st p, Used 1 (Disk.memory 8) {} st [p] {3} ∧ st.Represented 1 [p] {3} := by
  have works : True → (Disk.memory 8).Working 8 := fun _ => ⟨nofun, by decide, rfl⟩
  obtain ⟨cache, hc⟩ : ∃ cache, Cache.create 1 = .ok cache := ⟨_, rfl⟩
  have good : (⟨Disk.memory 8, cache, {}⟩ : Storage).Good True 8 [] := (good_of_create hc works).1
  have absent : cache.lookup 3 = none := (slot_of_create hc).2.2.2 3
  have pinning : Ends (pin 3 .blank) ⟨Disk.memory 8, cache, {}⟩ (fun _ _ => True)
      (Stops True 8 [] ⟨Disk.memory 8, cache, {}⟩) := by
    have claiming := ends_claim good (by decide : (3 : SectorId).toNat < 8) absent .blank
    unfold pin
    refine (claiming.of_eq (fetch_of_absent absent .blank)).bind (fun i st _ => ?_) fun _ _ h => h
    exact ends_onCache_bind fun _ _ _ => ends_pure trivial
  cases e : pin 3 .blank ⟨Disk.memory 8, cache, {}⟩ with
  | error e' st => exact absurd trivial (pinning.error e).not_working
  | ok p st =>
    have used : Used 1 (Disk.memory 8) {} st [p] {3} := by
      have used : Used 1 (Disk.memory 8) {} st [p] (if cache.lookup 3 = none then insert 3 ∅ else ∅) :=
        .unread (.start hc) e
      rwa [if_pos absent, insert_empty_eq] at used
    exact ⟨st, p, used, used.represented⟩

end Storage

end SectorVolume
