import SectorVolume.Cache.Storage
import SectorVolume.Proofs.Cache.Choice
import SectorVolume.Proofs.Device.Transfer

/-!
# How a slot is replaced

A sector that needs a slot makes the hand turn. If the slot found is dirty it is written back and
the hand turns once more; then the slot is emptied and the first bytes of the sector are fetched.
Each of these steps is described here by what it does to the cache and to the disk, whatever
invariant is wanted of them.
-/

namespace SectorVolume

namespace Storage

open SectorVolume.Action

variable {st st' st'' : Storage}

section Steps

variable {α β : Type} {D : α → Storage → Prop} {F : Failure → Storage → Prop}

theorem ends_onDisk {x : Action Disk α} {d : α → Disk → Prop} {f : Failure → Disk → Prop}
    (h : Ends x st.disk d f) :
    Ends (onDisk x) st (fun a st' => d a st'.disk ∧ st'.cache = st.cache)
      fun e st' => f e st'.disk ∧ st'.cache = st.cache := by
  obtain ⟨disk, cache, log⟩ := st
  unfold Ends onDisk at *
  simp only at h ⊢
  cases e : x disk with
  | ok a disk' => rw [e] at h; exact ⟨h, rfl⟩
  | error c disk' => rw [e] at h; exact ⟨h, rfl⟩

theorem ends_onCache_bind {f : Cache → Cache} {k : Unit → Action Storage α}
    (h : ∀ st', st'.disk = st.disk → st'.cache = f st.cache → Ends (k ()) st' D F) :
    Ends (onCache f >>= k) st D F := ends_modify_bind (h _ rfl rfl)

theorem ends_onCache {f : Cache → Cache} {D : Unit → Storage → Prop}
    (h : ∀ st', st'.disk = st.disk → st'.cache = f st.cache → D () st') :
    Ends (onCache f) st D F := ends_modify (h _ rfl rfl)

theorem ends_note_bind {e : Event} {k : Unit → Action Storage α}
    (h : ∀ st', st'.disk = st.disk → st'.cache = st.cache → Ends (k ()) st' D F) :
    Ends (note e >>= k) st D F := ends_modify_bind (h _ rfl rfl)

theorem ends_note {e : Event} {D : Unit → Storage → Prop}
    (h : ∀ st', st'.disk = st.disk → st'.cache = st.cache → D () st') :
    Ends (note e) st D F := ends_modify (h _ rfl rfl)

end Steps

/-! ## Turning the hand -/

/-- The hand has turned, and nothing else happened. -/
structure Turned (st st' : Storage) : Prop where
  disk : st'.disk = st.disk
  cache : st.cache.Passed st'.cache

theorem Turned.congr (h : Turned st st') (hd : st''.disk = st'.disk) (hc : st''.cache = st'.cache) :
    Turned st st'' := ⟨hd.trans h.disk, hc ▸ h.cache⟩

theorem ends_select_turned (wf : st.cache.WellFormed) (pos : 0 < st.cache.slots.size) :
    Ends select st
      (fun sel st' => Turned st st' ∧ sel.victim < st.cache.slots.size ∧
        ((∃ i, i < st.cache.slots.size ∧ (st.cache.slot i).isIdle = true) →
          (st'.cache.slot sel.victim).isIdle = true))
      fun _ _ => False := by
  obtain ⟨passed, lt, idle⟩ := Cache.select_passes wf pos
  have run : select st = .ok st.cache.select.1 ⟨st.disk, st.cache.select.2, st.log⟩ := rfl
  unfold Ends
  rw [run]
  exact ⟨⟨rfl, passed⟩, lt, idle⟩

/-! ## Writing back -/

/-- Slot `i` held the dirty line `l`, and now the disk has its bytes. -/
structure WroteBack (i : Nat) (l : Line) (st st' : Storage) : Prop where
  line : (st.cache.slot i).line = some l
  dirty : l.mark = .dirty
  unused : (st.cache.slot i).pins = 0
  disk : st'.disk.content = st.disk.content.put l.sector.toNat l.bytes
  cache : st'.cache = st.cache.markClean i
  failures : st.disk.failures ≤ st'.disk.failures
  working : ∀ m, l.sector.toNat < m → st.disk.Working m → st'.disk.Working m

/-- Slot `i` is in use, or the disk refused the bytes of its line. -/
inductive Refused (i : Nat) (st st' : Storage) : Failure → Prop
  | waits : (st.cache.slot i).pins ≠ 0 → st' = st → Refused i st st' .blocked
  | device {l : Line} {cause : TransferError} : (st.cache.slot i).line = some l →
      st'.cache = st.cache → st'.disk.content = st.disk.content →
      st.disk.failures < st'.disk.failures →
      (∀ m, l.sector.toNat < m → ¬ st.disk.Working m) → Refused i st st' (.fault (.device cause))

/-- A slot that could be given away as it is stays as it is, and another one is written back unless
something is in the way. -/
theorem ends_writeBack_of_slot (st : Storage) (i : Nat) :
    Ends (writeBack i) st
      (fun _ st' => (st' = st ∧ (st.cache.slot i).isReady = true) ∨ ∃ l, WroteBack i l st st')
      fun e st' => Refused i st st' e := by
  unfold writeBack
  refine ends_get_bind ?_
  simp only
  split
  · next used => exact ends_throw (.waits used rfl)
  next unused =>
  have unused : (st.cache.slot i).pins = 0 := by simpa using unused
  split
  · next sector bytes hl =>
    refine (ends_onDisk (Disk.ends_write _ bytes st.disk sector.toNat_lt)).bind ?_
      fun _ _ h => h.1.elim
    rintro (cause | _) st₁ ⟨⟨hd, mono, more, hw⟩, hc⟩
    · refine ends_note_bind fun st₂ hd₂ hc₂ => ends_throw (.device hl (hc₂.trans hc) ?_ ?_ ?_)
      · rw [hd₂]
        exact hd
      · rw [hd₂]
        exact more cause rfl
      · exact fun m hm works => (hw m hm works).2 cause rfl
    · refine ends_onCache_bind fun st₂ hd₂ hc₂ => ends_note_bind fun st₃ hd₃ hc₃ => ends_pure ?_
      have hd₃ : st₃.disk = st₁.disk := hd₃.trans hd₂
      refine .inr ⟨_, hl, rfl, unused, ?_, ?_, ?_, ?_⟩
      · rw [hd₃]
        exact hd
      · rw [hc₃, hc₂, hc]
      · rw [hd₃]
        exact mono
      · rw [hd₃]
        exact fun m hm works => (hw m hm works).1
  · next clean =>
    refine ends_pure (.inl ⟨rfl, ?_⟩)
    have notDirty : (st.cache.slot i).isDirty ≠ true := by
      intro dirty
      obtain ⟨⟨sector, mark, bytes⟩, hl, rfl⟩ := Slot.isDirty_iff.1 dirty
      exact clean sector bytes hl
    simpa [Slot.isReady, unused] using notDirty

namespace WroteBack

variable {i : Nat} {l : Line}

theorem isIdle (h : WroteBack i l st st') : (st'.cache.slot i).isIdle = true := by
  have hl := h.line
  have unused := h.unused
  rw [h.cache, Cache.markClean, Cache.slot_modifySlot_self (Cache.lt_size_of_line hl)]
  rcases e : st.cache.slot i with ⟨line, p⟩
  rw [e] at hl unused
  cases hl
  cases unused
  rfl

theorem lookup (h : WroteBack i l st st') (s : SectorId) :
    st'.cache.lookup s = st.cache.lookup s := by
  rw [h.cache, Cache.markClean, Cache.lookup_modifySlot]

theorem size (h : WroteBack i l st st') : st'.cache.slots.size = st.cache.slots.size := by
  rw [h.cache, Cache.markClean, Cache.size_modifySlot]

theorem wellFormed (h : WroteBack i l st st') (wf : st.cache.WellFormed) :
    st'.cache.WellFormed := by
  rw [h.cache]
  exact wf.modifySlot (Slot.sector?_mapMark ..)

end WroteBack

/-! ## Finding a slot -/

/-- The hand has turned, and if it had to, it turned again after a slot was written back. -/
inductive Cleared (st st' : Storage) : Prop
  | atOnce : Turned st st' → Cleared st st'
  | writing {st₁ st₂ : Storage} {i : Nat} {l : Line} : Turned st st₁ → WroteBack i l st₁ st₂ →
      Turned st₂ st' → Cleared st st'

theorem Cleared.lookup (h : Cleared st st') (s : SectorId) :
    st'.cache.lookup s = st.cache.lookup s := by
  cases h with
  | atOnce turned => exact turned.cache.lookup s
  | writing first back second =>
    rw [second.cache.lookup, back.lookup, first.cache.lookup]

theorem isReady_of_isIdle {s : Slot} (h : s.isIdle = true) : s.isReady = true := by
  simp [Slot.isIdle, Slot.isReady] at h ⊢
  exact h.1

/-- The slot found is in the cache and can be given away at once. -/
theorem ends_vacancy_cleared (wf : st.cache.WellFormed) (pos : 0 < st.cache.slots.size) :
    Ends vacancy st
      (fun i st' => Cleared st st' ∧ i < st'.cache.slots.size ∧
        (st'.cache.slot i).isReady = true)
      fun e st' => ∃ i st₁, Turned st st₁ ∧ Refused i st₁ st' e := by
  unfold vacancy
  refine (ends_select_turned wf pos).bind (fun first st₁ h₁ => ?_) fun _ _ h => h.elim
  obtain ⟨turned₁, lt₁, -⟩ := h₁
  refine ends_get_bind ?_
  split
  · next ready => exact ends_pure ⟨.atOnce turned₁, turned₁.cache.size ▸ lt₁, ready⟩
  next ready =>
  have rest : ∀ st₂, st₂.disk = st₁.disk → st₂.cache = st₁.cache →
      Ends (do
        let _ ← writeBack first.victim
        let second ← select
        return second.victim) st₂
        (fun i st' => Cleared st st' ∧ i < st'.cache.slots.size ∧
          (st'.cache.slot i).isReady = true)
        fun e st' => ∃ i st₁, Turned st st₁ ∧ Refused i st₁ st' e := by
    intro st₂ hd hc
    have turned₂ := turned₁.congr hd hc
    refine (ends_writeBack_of_slot st₂ first.victim).bind (fun _ st₃ h₃ => ?_)
      fun _ _ refused => ⟨_, st₂, turned₂, refused⟩
    obtain ⟨rfl, ready'⟩ | ⟨l, back⟩ := h₃
    · rw [hc] at ready'
      exact absurd ready' ready
    have size₃ : st₃.cache.slots.size = st.cache.slots.size := back.size.trans turned₂.cache.size
    refine (ends_select_turned (back.wellFormed (turned₂.cache.wellFormed wf))
      (size₃ ▸ pos)).bind (fun second st₄ h₄ => ?_) fun _ _ h => h.elim
    obtain ⟨turned₄, lt₄, idle₄⟩ := h₄
    -- the slot that was written back is idle, so that the second choice is an idle slot too
    have idle := idle₄ ⟨first.victim, size₃ ▸ lt₁, back.isIdle⟩
    exact ends_pure
      ⟨.writing turned₂ back turned₄, turned₄.cache.size ▸ lt₄, isReady_of_isIdle idle⟩
  split
  · exact ends_note_bind fun st₂ hd hc => rest st₂ hd hc
  · exact rest st₁ rfl rfl

/-! ## Filling it -/

/-- The first line of a sector that gets a slot. -/
def Fill.line (sector : SectorId) (d : Disk) : Fill → Line
  | .disk => ⟨sector, .clean, d.sector sector.toNat⟩
  | .blank => ⟨sector, .clean, Sector.zero⟩
  | .bytes b => ⟨sector, .dirty, b⟩

theorem Fill.sector_line (sector : SectorId) (d : Disk) (fill : Fill) :
    (fill.line sector d).sector = sector := by
  cases fill <;> rfl

/-- Slot `i`, which could be given away, was emptied, and `sector` may have been read. -/
structure Emptied (sector : SectorId) (i : Nat) (st st' : Storage) : Prop where
  lt : i < st.cache.slots.size
  ready : (st.cache.slot i).isReady = true
  cache : st'.cache = st.cache.vacate i
  disk : st'.disk.content = st.disk.content
  failures : st.disk.failures ≤ st'.disk.failures
  working : ∀ m, sector.toNat < m → st.disk.Working m → st'.disk.Working m

namespace Emptied

variable {sector : SectorId} {i : Nat}

theorem empty (h : Emptied sector i st st') : (st'.cache.slot i).line = none := by
  rw [h.cache, Cache.slot_vacate, if_pos rfl]

theorem inside (h : Emptied sector i st st') : i < st'.cache.slots.size := by
  rw [h.cache, Cache.size_vacate]
  exact h.lt

theorem unused (h : Emptied sector i st st') : (st.cache.slot i).pins = 0 := by
  have ready := h.ready
  simp only [Slot.isReady, Bool.and_eq_true, beq_iff_eq] at ready
  exact ready.1

theorem absent (h : Emptied sector i st st') {s : SectorId} (hs : st.cache.lookup s = none) :
    st'.cache.lookup s = none := by
  rw [h.cache]
  cases e : (st.cache.slot i).line with
  | none => rw [Cache.vacate_eq_self e, hs]
  | some l => rw [Cache.lookup_vacate e, hs, ite_self]

end Emptied

theorem ends_firstLine_of_fill (st : Storage) (sector : SectorId) (fill : Fill) :
    Ends (firstLine sector fill) st
      (fun r st' => st'.cache = st.cache ∧ st'.disk.content = st.disk.content ∧
        st.disk.failures ≤ st'.disk.failures ∧
        (∀ m, sector.toNat < m → st.disk.Working m → st'.disk.Working m) ∧
        ((∃ cause, r = .error cause) ∧ st.disk.failures < st'.disk.failures ∧
            (∀ m, sector.toNat < m → ¬ st.disk.Working m) ∨
          r = .ok (fill.line sector st'.disk) ∧
            (fill = .disk → sector.toNat < st.disk.sectorCount)))
      fun _ _ => False := by
  cases fill with
  | disk =>
    refine (ends_onDisk (Disk.ends_read _ st.disk sector.toNat_lt)).bind ?_ fun _ _ h => h.1.elim
    rintro r st₁ ⟨⟨hd, hb, mono, more, hw⟩, hc⟩
    have works : ∀ m, sector.toNat < m → st.disk.Working m → st₁.disk.Working m :=
      fun m hm working => (hw m hm working).1
    cases r with
    | error cause =>
      refine ends_pure ⟨hc, hd, mono, works, .inl ⟨⟨cause, rfl⟩, more cause rfl, ?_⟩⟩
      exact fun m hm working => (hw m hm working).2 cause rfl
    | ok b =>
      refine ends_pure ⟨hc, hd, mono, works, .inr ?_⟩
      refine ⟨?_, fun _ => (hb b rfl).2⟩
      rw [(hb b rfl).1, Fill.line, Disk.sector_of_content hd]
  | blank => exact ends_pure ⟨rfl, rfl, Nat.le_refl _, fun _ _ h => h, .inr ⟨rfl, nofun⟩⟩
  | bytes b => exact ends_pure ⟨rfl, rfl, Nat.le_refl _, fun _ _ h => h, .inr ⟨rfl, nofun⟩⟩

/-- Nothing could be read into the slot that was emptied. -/
structure Unread (sector : SectorId) (i : Nat) (st st' : Storage) (e : Failure) : Prop where
  device : ∃ cause, e = .fault (.device cause)
  emptied : Emptied sector i st st'
  more : st.disk.failures < st'.disk.failures
  idle : ∀ m, sector.toNat < m → ¬ st.disk.Working m

/-- A sector gets an emptied slot, whatever its first bytes are. They can only be read from the disk
if it has them. -/
theorem ends_claim_emptied (wf : st.cache.WellFormed) (pos : 0 < st.cache.slots.size)
    (sector : SectorId) (fill : Fill) :
    Ends (claim sector fill) st
      (fun i st' => ∃ st₁ st₂, Cleared st st₁ ∧ Emptied sector i st₁ st₂ ∧
        st'.disk = st₂.disk ∧ st'.cache = st₂.cache.bind i (fill.line sector st₂.disk) ∧
        (fill = .disk → sector.toNat < st₂.disk.sectorCount))
      fun e st' => ∃ i st₁, Turned st st₁ ∧ Refused i st₁ st' e ∨
        Cleared st st₁ ∧ Unread sector i st₁ st' e := by
  unfold claim
  refine (ends_vacancy_cleared wf pos).bind (fun i st₁ h₁ => ?_)
    fun _ _ ⟨i, st₁, why⟩ => ⟨i, st₁, .inl why⟩
  obtain ⟨cleared, lt, ready⟩ := h₁
  refine ends_get_bind ?_
  extract_lets load
  have rest : ∀ st₂, st₂.disk = st₁.disk → st₂.cache = st₁.cache.vacate i →
      Ends (load ⟨⟩) st₂
        (fun i st' => ∃ st₁ st₂, Cleared st st₁ ∧ Emptied sector i st₁ st₂ ∧
          st'.disk = st₂.disk ∧ st'.cache = st₂.cache.bind i (fill.line sector st₂.disk) ∧
          (fill = .disk → sector.toNat < st₂.disk.sectorCount))
        fun e st' => ∃ i st₁, Turned st st₁ ∧ Refused i st₁ st' e ∨
          Cleared st st₁ ∧ Unread sector i st₁ st' e := by
    intro st₂ hd hc
    refine (ends_firstLine_of_fill st₂ sector fill).bind (fun r st₃ h₃ => ?_) fun _ _ h => h.elim
    rw [hc, hd] at h₃
    obtain ⟨hc₃, hd₃, mono, works, ⟨⟨cause, rfl⟩, more, idle⟩ | ⟨rfl, held⟩⟩ := h₃
    · refine ends_note_bind fun st₄ hd₄ hc₄ => ends_throw ⟨i, st₁, .inr ⟨cleared, ?_⟩⟩
      rw [← hd₄] at hd₃ mono works more
      exact ⟨⟨cause, rfl⟩, ⟨lt, ready, hc₄.trans hc₃, hd₃, mono, works⟩, more, idle⟩
    · refine ends_onCache_bind fun st₄ hd₄ hc₄ => ends_note_bind fun st₅ hd₅ hc₅ => ends_pure ?_
      refine ⟨st₁, st₃, cleared, ⟨lt, ready, hc₃, hd₃, mono, works⟩, hd₅.trans hd₄, hc₅.trans hc₄,
        fun e => ?_⟩
      unfold Disk.sectorCount
      rw [hd₃]
      exact held e
  split
  · next old e =>
    exact ends_onCache_bind fun st₂ hd hc => ends_note_bind fun st₃ hd₃ hc₃ =>
      rest st₃ (hd₃.trans hd) (hc₃.trans hc)
  · next e => exact rest st₁ rfl (Cache.vacate_eq_self e).symm

theorem fetch_of_lookup {sector : SectorId} {i : Nat} (h : st.cache.lookup sector = some i)
    (fill : Fill) : fetch sector fill st = (pure i : Action Storage Nat) st := by
  unfold fetch
  rw [get_bind, h]

theorem fetch_of_absent {sector : SectorId} (h : st.cache.lookup sector = none) (fill : Fill) :
    fetch sector fill st = claim sector fill st := by
  unfold fetch
  rw [get_bind, h]

theorem ends_checkRange (st : Storage) (offset len : Nat) (outside : Violation) :
    Ends (checkRange offset len outside) st (fun _ st' => st' = st ∧ offset + len ≤ 512)
      fun e st' => st' = st ∧ (∃ v, e = .violation v) ∧ ¬ offset + len ≤ 512 := by
  have e₁ : wordRange64 = 2 ^ 64 := rfl
  have e₂ : sectorSize = 512 := rfl
  unfold checkRange
  by_cases h₁ : offset + len ≥ wordRange64
  · rw [if_pos h₁]
    exact ends_violate_bind ⟨rfl, ⟨_, rfl⟩, by omega⟩
  rw [if_neg h₁]
  by_cases h₂ : offset + len > sectorSize
  · rw [if_pos h₂]
    exact ends_throw ⟨rfl, ⟨_, rfl⟩, by omega⟩
  · rw [if_neg h₂]
    exact ends_pure ⟨rfl, by omega⟩

theorem checkRange_of_inside (st : Storage) {offset len : Nat} (inside : offset + len ≤ 512)
    (outside : Violation) :
    checkRange offset len outside st = (pure () : Action Storage Unit) st := by
  have ends := ends_checkRange st offset len outside
  cases run : checkRange offset len outside st with
  | ok a st' =>
    obtain ⟨rfl, -⟩ := ends.ok run
    rfl
  | error e st' => exact absurd inside (ends.error run).2.2

/-- A sector that is in no slot is in none either when another one is bound to a slot. -/
theorem absent_insert {index : Std.HashMap SectorId Nat} {i : Nat} {s sector : SectorId}
    (other : sector ≠ s) (absent : index[s]? = none) : (index.insert sector i)[s]? = none := by
  rw [Std.HashMap.getElem?_insert, if_neg (by simpa using other)]
  exact absent

/-- What a read is if its sector is in no slot. -/
theorem read_of_absent {sector : SectorId} (absent : st.cache.lookup sector = none)
    {offset len : Nat} (inside : offset + len ≤ 512) :
    read sector offset len st = (do
      let bytes ← readSlot (← claim sector .disk)
      note (.sectorRead sector offset len)
      return bytes.slice offset len : Action Storage Bytes) st := by
  unfold read
  rw [bind_congr_at (checkRange_of_inside st inside _), pure_bind,
    bind_congr_at (fetch_of_absent absent .disk)]

/-- What a write to a part of a sector is if the sector is in no slot. -/
theorem write_of_absent {sector : SectorId} (absent : st.cache.lookup sector = none) {offset : Nat}
    {bytes : Bytes} (inside : offset + bytes.size ≤ 512) (part : bytes.size ≠ 512) :
    write sector offset bytes st = (do
      let i ← claim sector .disk
      overlaySlot i offset bytes
      note (.sectorWritten sector offset bytes.size) : Action Storage Unit) st := by
  unfold write
  rw [bind_congr_at (checkRange_of_inside st inside _), pure_bind, get_bind, absent]
  exact congrFun (if_neg fun whole => part whole.2) st

/-- What filling a sector with zeros is if the sector is in no slot. -/
theorem writeZeros_of_absent {sector : SectorId} (absent : st.cache.lookup sector = none) :
    writeZeros sector st = (do
      note (.sectorReplaced sector)
      let _ ← claim sector (.bytes (Sector.ofBytes Sector.zero.toArray)) : Action Storage Unit)
      st := by
  unfold writeZeros write
  rw [bind_congr_at (checkRange_of_inside st (by simp) _), pure_bind, get_bind, absent]
  exact congrFun (if_pos ⟨rfl, by simp [sectorSize]⟩) st

section WholeSector

variable {α : Type} {sector : SectorId} {i : Nat} {f : Sector → Except Violation (α × Sector)}
  {a : α} {b : Sector}

theorem readSector_of_lookup (found : st.cache.lookup sector = some i) :
    readSector sector st = readSlot i st := by
  unfold readSector
  rw [bind_congr_at (fetch_of_lookup found .disk), pure_bind]

theorem modifySector_of_lookup (found : st.cache.lookup sector = some i)
    (change : f (st.cache.bytes i) = .ok (a, b)) :
    modifySector sector f st = .ok a ⟨st.disk, st.cache.store i b, st.log⟩ := by
  unfold modifySector
  rw [bind_congr_at (fetch_of_lookup found .disk), pure_bind, get_bind, change]
  rfl

theorem modifySector_of_absent (absent : st.cache.lookup sector = none)
    (claimed : claim sector .disk st = .ok i st') (change : f (st'.cache.bytes i) = .ok (a, b)) :
    modifySector sector f st = .ok a ⟨st'.disk, st'.cache.store i b, st'.log⟩ := by
  unfold modifySector
  rw [bind_congr_at (fetch_of_absent absent .disk)]
  refine run_bind claimed ?_
  rw [get_bind, change]
  rfl

end WholeSector

end Storage

end SectorVolume
