import SectorVolume.Proofs.Cache.Representation
import SectorVolume.Proofs.Cache.Rounds

/-!
# An access makes progress

An access has at most two transfers. The first one writes a dirty slot that nobody uses, and only if
there is no other kind of slot that nobody uses; the second one reads the sector that was asked for,
and only if its bytes are needed. If one of them fails the access ends there.
-/

namespace SectorVolume

namespace Storage

open SectorVolume.Action

variable {st st' st'' : Storage} {sector : SectorId} {i : Nat}

/-! ## Traffic -/

/-- The transfers of an access, with whether they took place: at most one that writes a line, and
after it at most one that reads the sector asked for. -/
structure Traffic where
  /-- The line that was written. -/
  written : Option (Line × Bool) := none
  /-- Whether the sector was read. -/
  read : Option Bool := none

namespace Traffic

variable {t : Traffic}

/-- The transfers in order. -/
def transfers (sector : SectorId) (t : Traffic) : List (Transfer × Bool) :=
  (t.written.map fun w => (⟨.write, w.1.sector.toNat⟩, w.2)).toList ++
    (t.read.map fun ok => (⟨.read, sector.toNat⟩, ok)).toList

/-- What the transfers make of a content. -/
def content (c : Content) (t : Traffic) : Content :=
  match t.written with
  | some (l, true) => c.put l.sector.toNat l.bytes
  | _ => c

/-- One of the transfers failed. -/
def Fails (t : Traffic) : Prop := (∃ l, t.written = some (l, false)) ∨ t.read = some false

/-- Why an access to `sector` has the transfers `t`; `reads` says whether it needs the bytes that
the sector has on the disk. -/
structure Justified (sector : SectorId) (reads : Prop) (st st' : Storage) (t : Traffic) :
    Prop where
  /-- They are what happens on the disk. -/
  trace : st'.disk.trace.toList = st.disk.trace.toList ++ t.transfers sector
  /-- What is written is the bytes of the line. -/
  content : st'.disk.content = t.content st.disk.content
  /-- There are none if the sector has a slot. -/
  hit : st.cache.lookup sector ≠ none → t = {}
  /-- Only the line of a dirty slot that nobody uses is written, and only if all such slots are
  dirty. -/
  wrote : ∀ l ok, t.written = some (l, ok) → ∃ i, (st.cache.slot i).line = some l ∧
    l.mark = .dirty ∧ (st.cache.slot i).pins = 0 ∧
      ∀ j < st.cache.slots.size, (st.cache.slot j).pins = 0 → (st.cache.slot j).isDirty = true
  /-- Only a sector without a slot is read, and only if its bytes are needed. -/
  read : t.read ≠ none → st.cache.lookup sector = none ∧ reads
  /-- The slot that was written back is the one that the sector gets. -/
  given : ∀ l, t.written = some (l, true) → t.read ≠ some false →
    ∃ i, (st.cache.slot i).line = some l ∧ st'.cache.lookup sector = some i
  /-- If the line could not be written nothing is read, the line stays in its slot, and the sector
  has none. -/
  unwritten : ∀ l, t.written = some (l, false) → t.read = none ∧
    st'.cache.lookup sector = none ∧
      ∃ i, (st.cache.slot i).line = some l ∧ (st'.cache.slot i).line = some l
  /-- If the sector could not be read it has no slot, and the slot that it was to get is left empty
  and not in use. -/
  unread : t.read = some false → st'.cache.lookup sector = none ∧
    ∃ i < st.cache.slots.size, st'.cache.slot i = {} ∧
      ∀ l, t.written = some (l, true) → (st.cache.slot i).line = some l

variable {reads : Prop}

theorem Justified.imp {reads' : Prop} (h : Justified sector reads st st' t) (sub : reads → reads') :
    Justified sector reads' st st' t :=
  { h with read := fun hr => (h.read hr).imp_right sub }

/-- Nothing needs to be transferred for a sector that has a slot. -/
theorem justified_of_disk (disk : st'.disk = st.disk) : Justified sector reads st st' {} where
  trace := by rw [disk]; simp [transfers]
  content := by rw [disk]; rfl
  hit _ := rfl
  wrote _ _ h := nomatch h
  read h := absurd rfl h
  given _ h := nomatch h
  unwritten _ h := nomatch h
  unread h := nomatch h

theorem not_fails_nil : ¬ Fails {} := by
  rintro (⟨l, h⟩ | h)
  · cases h
  · cases h

/-- The transfers of an access that succeeded stay justified by what comes after it, as long as the
disk is left alone and sectors keep their slots. -/
theorem Justified.congr (h : Justified sector reads st st' t) (ok : ¬ t.Fails)
    (disk : st''.disk = st'.disk) (lookup : st''.cache.lookup sector = st'.cache.lookup sector) :
    Justified sector reads st st'' t where
  trace := by rw [disk]; exact h.trace
  content := by rw [disk]; exact h.content
  hit := h.hit
  wrote := h.wrote
  read := h.read
  given l hl hr := by rw [lookup]; exact h.given l hl hr
  unwritten l hl := absurd (.inl ⟨l, hl⟩) ok
  unread hr := absurd (.inr hr) ok

/-- What the storage logged before does not matter. -/
theorem Justified.of_log (h : Justified sector reads st st' t) (disk : st.disk = st''.disk)
    (cache : st.cache = st''.cache) : Justified sector reads st'' st' t := by
  obtain ⟨disk₁, cache₁, log₁⟩ := st
  obtain ⟨disk₂, cache₂, log₂⟩ := st''
  cases disk
  cases cache
  exact ⟨h.trace, h.content, h.hit, h.wrote, h.read, h.given, h.unwritten, h.unread⟩

end Traffic

/-- What reading a sector for its first line adds to the transfers. -/
def Fill.read? : Fill → Option Bool
  | .disk => some true
  | _ => none

theorem Fill.read?_ne_some_false (fill : Fill) : fill.read? ≠ some false := by
  cases fill <;> simp [Fill.read?]

theorem Fill.eq_disk_of_read? {fill : Fill} (h : fill.read? ≠ none) : fill = .disk := by
  cases fill with
  | disk => rfl
  | blank => exact absurd rfl h
  | bytes b => exact absurd rfl h

/-! ## Finding a slot and filling it -/

theorem Pressed.dirty_of_unused {l : Line} {c : Cache} (h : Pressed i l c) (wf : c.WellFormed) {j : Nat}
    (lt : j < c.slots.size) (unused : (c.slot j).pins = 0) : (c.slot j).isDirty = true := by
  have notReady := h.none j (wf.mem_ring.2 lt)
  simpa [Slot.isReady, unused] using notReady

/-- Slot `i` can be given away, after `written` was written back if there is such a line. -/
structure Spare (written : Option Line) (i : Nat) (st st' : Storage) : Prop where
  lt : i < st.cache.slots.size
  size : st'.cache.slots.size = st.cache.slots.size
  ready : (st'.cache.slot i).isReady = true
  lookup : ∀ s, st'.cache.lookup s = st.cache.lookup s
  pressed : ∀ l, written = some l → Pressed i l st.cache
  content : st'.disk.content =
    Traffic.content st.disk.content { written := written.map (·, true) }
  trace : st'.disk.trace.toList = st.disk.trace.toList ++
    (written.map fun l => (⟨.write, l.sector.toNat⟩, true)).toList

theorem ends_vacancy_spare (wf : st.cache.WellFormed)
    (free : ∃ i ∈ st.cache.ring.toList, (st.cache.slot i).pins = 0) :
    Ends vacancy st (fun i st' => ∃ written, Spare written i st st')
      fun e st' => (∃ cause, e = .fault (.device cause)) ∧ ∃ i l, Kept i l st st' := by
  rw [vacancy_eq]
  refine (ends_round wf free).bind (fun found st₁ h₁ => ?_) fun _ _ h => h
  cases found with
  | some i =>
    obtain ⟨disk, passed, lt, ready⟩ := h₁
    refine ends_pure ⟨none, lt, passed.size, ready, passed.lookup, nofun, ?_, ?_⟩
    · rw [disk]
      rfl
    · rw [disk]
      simp
  | none =>
    obtain ⟨i, l, freed⟩ := h₁
    obtain ⟨victim, passed⟩ := select_of_freed freed
    have run : select st₁ = .ok st₁.cache.select.1 ⟨st₁.disk, st₁.cache.select.2, st₁.log⟩ := rfl
    refine (ends_of_ok (d := fun sel st' => sel.victim = i ∧ st₁.cache.Passed st'.cache ∧
      st'.disk = st₁.disk) run ⟨victim, passed, rfl⟩).bind (fun sel st₂ h₂ => ?_) fun _ _ h => h
    obtain ⟨rfl, passed, disk⟩ := h₂
    refine ends_pure ⟨some l, Cache.lt_size_of_line freed.pressed.line,
      passed.size.trans freed.size, ?_, fun s => (passed.lookup s).trans (freed.lookup s), ?_, ?_, ?_⟩
    · rw [isReady_of_demoted (passed.slot _)]
      exact isReady_of_isIdle freed.idle
    · rintro _ ⟨⟩
      exact freed.pressed
    · rw [disk]
      exact freed.content
    · rw [disk]
      exact freed.trace

section Filling

variable {reads : Prop} {fill : Fill} {written : Option Line}

theorem wrote_of_spare (wf : st.cache.WellFormed) (h : Spare written i st st') {l : Line} {ok : Bool}
    (e : written.map (·, true) = some (l, ok)) : ∃ i, (st.cache.slot i).line = some l ∧
      l.mark = .dirty ∧ (st.cache.slot i).pins = 0 ∧
        ∀ j < st.cache.slots.size, (st.cache.slot j).pins = 0 →
          (st.cache.slot j).isDirty = true := by
  obtain ⟨l', hl', same⟩ := Option.map_eq_some_iff.1 e
  cases same
  have pressed := h.pressed l hl'
  exact ⟨i, pressed.line, pressed.dirty, pressed.unused, fun j => pressed.dirty_of_unused wf⟩

theorem lookup_of_installed (filled : Installed sector fill i st' st'') :
    st''.cache.lookup sector = some i := by
  rw [filled.cache, Cache.lookup_bind, Fill.sector_line, if_pos rfl]

/-- A transfer that took place is not one that failed. -/
theorem not_failed_written {l : Line} : written.map (·, true) ≠ some (l, false) := by
  intro e
  obtain ⟨_, _, e⟩ := Option.map_eq_some_iff.1 e
  cases e

theorem eq_some_of_written {l : Line} (e : written.map (·, true) = some (l, true)) :
    written = some l := by
  obtain ⟨_, hl, same⟩ := Option.map_eq_some_iff.1 e
  cases same
  exact hl

/-- A slot was found and filled. -/
theorem justified_of_installed (wf : st.cache.WellFormed) (absent : st.cache.lookup sector = none)
    (spare : Spare written i st st') (filled : Installed sector fill i st' st'') :
    Traffic.Justified sector (fill = .disk) st st''
      { written := written.map (·, true), read := fill.read? } where
  trace := by
    rw [filled.trace, spare.trace, List.append_assoc]
    congr 1
    cases written <;> cases fill <;> rfl
  content := by
    rw [filled.content, spare.content]
    rfl
  hit found := absurd absent found
  wrote _ _ e := wrote_of_spare wf spare e
  read needed := ⟨absent, Fill.eq_disk_of_read? needed⟩
  given l e _ := ⟨i, (spare.pressed l (eq_some_of_written e)).line, lookup_of_installed filled⟩
  unwritten _ e := absurd e not_failed_written
  unread e := absurd e (Fill.read?_ne_some_false fill)

/-- A slot was found, and the sector could not be read. -/
theorem justified_of_failed {e : Failure} (wf : st.cache.WellFormed)
    (absent : st.cache.lookup sector = none) (needed : reads) (spare : Spare written i st st')
    (failed : Failed sector i st' st'' e) :
    Traffic.Justified sector reads st st''
      { written := written.map (·, true), read := some false } where
  trace := by
    rw [failed.trace, spare.trace, List.append_assoc]
    congr 1
    cases written <;> rfl
  content := by
    rw [failed.content, spare.content]
    rfl
  hit found := absurd absent found
  wrote _ _ e := wrote_of_spare wf spare e
  read _ := ⟨absent, needed⟩
  given _ _ ok := absurd rfl ok
  unwritten _ e := absurd e not_failed_written
  unread _ := by
    have ready := spare.ready
    simp only [Slot.isReady, Bool.and_eq_true, beq_iff_eq] at ready
    have empty : st''.cache.slot i = {} := by
      rw [failed.cache, Cache.slot_vacate, if_pos rfl, ready.1]
    refine ⟨?_, i, spare.lt, empty, fun l e => (spare.pressed l (eq_some_of_written e)).line⟩
    rw [← spare.lookup] at absent
    rw [failed.cache]
    cases line : (st'.cache.slot i).line with
    | none => rw [Cache.vacate_eq_self line, absent]
    | some l => rw [Cache.lookup_vacate line, absent, ite_self]

/-- A line could not be written back. -/
theorem justified_of_kept {l : Line} (wf : st.cache.WellFormed)
    (absent : st.cache.lookup sector = none) (kept : Kept i l st st') :
    Traffic.Justified sector reads st st' { written := some (l, false) } where
  trace := by
    rw [kept.trace]
    rfl
  content := kept.content
  hit found := absurd absent found
  wrote l' ok e := by
    cases e
    have pressed := kept.pressed
    exact ⟨i, pressed.line, pressed.dirty, pressed.unused, fun j => pressed.dirty_of_unused wf⟩
  read needed := absurd rfl needed
  given _ e := nomatch e
  unwritten l' e := by
    cases e
    refine ⟨rfl, ?_, i, kept.pressed.line, kept.line⟩
    rw [kept.lookup, absent]
  unread e := nomatch e

/-- The transfers of an access failed in the way that the access did. -/
structure Broken (sector : SectorId) (reads : Prop) (st : Storage) (e : Failure) (st' : Storage) :
    Prop where
  device : ∃ cause, e = .fault (.device cause)
  transfers : ∃ t : Traffic, t.Justified sector reads st st' ∧ t.Fails

/-- The transfers of an access took place, and the sector has slot `i` now. -/
structure Settled (sector : SectorId) (reads : Prop) (st : Storage) (i : Nat) (st' : Storage) :
    Prop where
  transfers : ∃ t : Traffic, t.Justified sector reads st st' ∧ ¬ t.Fails
  found : st'.cache.lookup sector = some i

theorem Broken.imp {reads' : Prop} {e : Failure} (h : Broken sector reads st e st')
    (sub : reads → reads') : Broken sector reads' st e st' := by
  obtain ⟨device, t, justified, fails⟩ := h
  exact ⟨device, t, justified.imp sub, fails⟩

theorem Settled.imp {reads' : Prop} (h : Settled sector reads st i st') (sub : reads → reads') :
    Settled sector reads' st i st' := by
  obtain ⟨⟨t, justified, ok⟩, found⟩ := h
  exact ⟨⟨t, justified.imp sub, ok⟩, found⟩

/-- What is done with a slot afterwards needs no transfer. -/
theorem Settled.congr (h : Settled sector reads st i st') (disk : st''.disk = st'.disk)
    (lookup : st''.cache.lookup sector = st'.cache.lookup sector) :
    Settled sector reads st i st'' := by
  obtain ⟨⟨t, justified, ok⟩, found⟩ := h
  exact ⟨⟨t, justified.congr ok disk lookup, ok⟩, lookup.trans found⟩

theorem ends_claim_settled (wf : st.cache.WellFormed)
    (free : ∃ i ∈ st.cache.ring.toList, (st.cache.slot i).pins = 0)
    (absent : st.cache.lookup sector = none) (fill : Fill) :
    Ends (claim sector fill) st (Settled sector (fill = .disk) st)
      (Broken sector (fill = .disk) st) := by
  rw [claim_eq]
  refine (ends_vacancy_spare wf free).bind (fun i st₁ h₁ => ?_) fun e st₁ h₁ => ?_
  · obtain ⟨written, spare⟩ := h₁
    refine (ends_install st₁ sector fill i).mono (fun j st₂ h₂ => ?_) fun e st₂ h₂ => ?_
    · obtain ⟨rfl, filled⟩ := h₂
      have justified := justified_of_installed wf absent spare filled
      refine ⟨⟨_, justified, ?_⟩, lookup_of_installed filled⟩
      rintro (⟨l, e⟩ | e)
      · exact not_failed_written e
      · exact Fill.read?_ne_some_false fill e
    · obtain ⟨disk, failed⟩ := h₂
      exact ⟨failed.device, _, justified_of_failed wf absent disk spare failed, .inr rfl⟩
  · obtain ⟨device, i, l, kept⟩ := h₁
    exact ⟨device, _, justified_of_kept wf absent kept, .inl ⟨l, rfl⟩⟩

theorem ends_fetch_settled (wf : st.cache.WellFormed)
    (free : ∃ i ∈ st.cache.ring.toList, (st.cache.slot i).pins = 0) (sector : SectorId)
    (fill : Fill) :
    Ends (fetch sector fill) st (Settled sector (fill = .disk) st)
      (Broken sector (fill = .disk) st) := by
  cases found : st.cache.lookup sector with
  | some i =>
    refine (ends_pure ?_).of_eq (fetch_of_lookup found fill)
    exact ⟨⟨{}, Traffic.justified_of_disk rfl, Traffic.not_fails_nil⟩, found⟩
  | none => exact (ends_claim_settled wf free found fill).of_eq (fetch_of_absent found fill)

end Filling

end Storage

/-! ## Demands -/

/-- A demand for a sector of a cache. -/
inductive Demand where
  /-- Its slot, if it has one. -/
  | search (sector : SectorId)
  /-- Its slot, or else a new one; whether all of it will be overwritten. -/
  | load (sector : SectorId) (overwritten : Bool)
  /-- The same, but the sector is searched for first. -/
  | ask (sector : SectorId) (overwritten : Bool)
  /-- Some of its bytes. -/
  | read (sector : SectorId) (offset len : Nat)
  /-- New bytes for some of it. -/
  | write (sector : SectorId) (offset : Nat) (bytes : Bytes)

namespace Demand

open SectorVolume.Action Storage

variable {st st' : Storage}

/-- The sector. -/
def sector : Demand → SectorId
  | search sector => sector
  | load sector _ => sector
  | ask sector _ => sector
  | read sector _ _ => sector
  | write sector _ _ => sector

/-- The demand needs bytes that the sector has on the disk if it has no slot. -/
def Reads : Demand → Prop
  | search _ => False
  | load _ overwritten => overwritten = false
  | ask _ overwritten => overwritten = false
  | read _ _ _ => True
  | write _ offset bytes => ¬ (offset = 0 ∧ bytes.size = sectorSize)

/-- The bytes that are demanded are inside the sector. -/
def InRange : Demand → Prop
  | read _ offset len => offset + len ≤ sectorSize
  | write _ offset bytes => offset + bytes.size ≤ sectorSize
  | _ => True

/-- The first bytes of a new slot. -/
def fill (overwritten : Bool) : Fill := if overwritten then .blank else .disk

theorem eq_false_of_fill {overwritten : Bool} (h : fill overwritten = .disk) :
    overwritten = false := by
  cases overwritten with
  | false => rfl
  | true => cases h

/-- Meets a demand. -/
def run : Demand → Action Storage Unit
  | search sector => do
    let _ ← pinResident sector
  | load sector overwritten => do
    let _ ← pin sector (fill overwritten)
  | ask sector overwritten => do
    match ← pinResident sector with
    | some _ => return ()
    | none =>
      let _ ← pin sector (fill overwritten)
  | read sector offset len => do
    let _ ← Storage.read sector offset len
  | write sector offset bytes => Storage.write sector offset bytes

/-- Meets a demand with a choice of slots in so many rounds, and says whether they sufficed. -/
def within (rounds : Nat) : Demand → Action Storage Bool
  | search sector => do
    let _ ← pinResident sector
    return true
  | load sector overwritten => do
    match ← fetchWithin sector (fill overwritten) rounds with
    | none => return false
    | some i =>
      onCache (·.pin i)
      return true
  | ask sector overwritten => do
    match ← pinResident sector with
    | some _ => return true
    | none =>
      match ← fetchWithin sector (fill overwritten) rounds with
      | none => return false
      | some i =>
        onCache (·.pin i)
        return true
  | read sector offset len => do
    checkRange offset len .readOutsideSector
    match ← fetchWithin sector .disk rounds with
    | none => return false
    | some i =>
      let _ ← readSlot i
      note (.sectorRead sector offset len)
      return true
  | write sector offset bytes => do
    checkRange offset bytes.size .writeOutsideSector
    match (← get).cache.lookup sector with
    | some i =>
      overlaySlot i offset bytes
      note (.sectorWritten sector offset bytes.size)
      return true
    | none =>
      if offset = 0 ∧ bytes.size = sectorSize then
        note (.sectorReplaced sector)
        match ← fetchWithin sector (.bytes (Sector.ofBytes bytes)) rounds with
        | none => return false
        | some _ => return true
      else
        match ← fetchWithin sector .disk rounds with
        | none => return false
        | some i =>
          overlaySlot i offset bytes
          note (.sectorWritten sector offset bytes.size)
          return true

/-- A demand was met. -/
structure Met (r : Demand) (st st' : Storage) : Prop where
  transfers : ∃ t : Traffic, t.Justified r.sector r.Reads st st' ∧ ¬ t.Fails
  found : (∃ s, r = search s) ∨ st'.cache.lookup r.sector ≠ none

/-- A demand could not be met: it is for bytes outside the sector, or a transfer failed. -/
inductive Unmet (r : Demand) (st : Storage) : Failure → Storage → Prop
  | outside {v : Violation} : ¬ r.InRange → Unmet r st (.violation v) st
  | broken {e : Failure} {st' : Storage} : Broken r.sector r.Reads st e st' → Unmet r st e st'

theorem met_of_settled {r : Demand} {i : Nat} (h : Settled r.sector r.Reads st i st') :
    r.Met st st' := ⟨h.transfers, .inr fun none => nomatch h.found.symm.trans none⟩

theorem ends_checkRange_of {r : Demand} {offset len : Nat} (outside : Violation)
    (range : r.InRange ↔ offset + len ≤ sectorSize) :
    Ends (checkRange offset len outside) st (fun _ st' => st' = st) (r.Unmet st) := by
  refine (ends_checkRange st offset len outside).mono (fun _ _ h => h.1) ?_
  rintro e _ ⟨rfl, ⟨v, rfl⟩, far⟩
  exact .outside fun inside => far (range.1 inside)

/-- Searching pins the slot of a sector that has one, and does nothing else. -/
theorem ends_pinResident_found (st : Storage) (sector : SectorId) :
    Ends (pinResident sector) st
      (fun p st' => p = none ∧ st' = st ∨
        ∃ i, p = some ⟨i, sector⟩ ∧ Settled sector False st i st')
      fun _ _ => False := by
  unfold pinResident
  refine ends_get_bind ?_
  split
  · exact ends_pure (.inl ⟨rfl, rfl⟩)
  · next i found =>
    refine ends_onCache_bind fun st₁ hd hc => ends_pure (.inr ⟨i, rfl, ⟨{}, ?_, ?_⟩, ?_⟩)
    · exact Traffic.justified_of_disk hd
    · exact Traffic.not_fails_nil
    · rw [hc]
      exact found

theorem checkRange_run (st : Storage) (offset len : Nat) (outside : Violation) :
    checkRange offset len outside st = (pure () : Action Storage Unit) st ∨
      ∃ e, checkRange offset len outside st = (throw e : Action Storage Unit) st := by
  have ends := ends_checkRange st offset len outside
  cases run : checkRange offset len outside st with
  | ok a st' =>
    obtain ⟨rfl, -⟩ := ends.ok run
    exact .inl rfl
  | error e st' =>
    obtain ⟨rfl, -⟩ := ends.error run
    exact .inr ⟨e, rfl⟩

theorem pinResident_run (st : Storage) (sector : SectorId) :
    pinResident sector st = (pure none : Action Storage (Option Pin)) st ∨
      ∃ p st', pinResident sector st = (pure (some p) : Action Storage (Option Pin)) st' := by
  unfold pinResident
  rw [get_bind]
  cases st.cache.lookup sector with
  | none => exact .inl rfl
  | some i => exact .inr ⟨⟨i, sector⟩, _, rfl⟩

variable (wf : st.cache.WellFormed)
  (free : ∃ i ∈ st.cache.ring.toList, (st.cache.slot i).pins = 0)

include wf free

theorem ends_pin_met (sector : SectorId) (overwritten : Bool) :
    Ends (pin sector (fill overwritten)) st
      (fun _ st' => ∃ i, Settled sector (overwritten = false) st i st')
      (Broken sector (overwritten = false) st) := by
  unfold pin
  refine (ends_fetch_settled wf free sector (fill overwritten)).bind (fun i st₁ h₁ => ?_)
    fun _ _ h => h.imp eq_false_of_fill
  refine ends_onCache_bind fun st₂ hd hc => ends_pure ⟨i, ?_⟩
  refine (h₁.imp eq_false_of_fill).congr hd ?_
  rw [hc]
  rfl

theorem ends_run_read (sector : SectorId) (offset len : Nat) :
    Ends (Storage.read sector offset len) st (fun _ st' => (read sector offset len).Met st st')
      ((read sector offset len).Unmet st) := by
  unfold Storage.read
  refine (ends_checkRange_of _ Iff.rfl).bind ?_ fun _ _ h => h
  rintro _ st rfl
  refine (ends_fetch_settled wf free sector .disk).bind (fun i st₁ h₁ => ?_)
    fun _ _ h => .broken (h.imp fun _ => trivial)
  refine Ends.bind (d := fun _ st₂ => st₂.disk = st₁.disk ∧ st₂.cache = st₁.cache.touch i)
    (ends_modifyGet ⟨rfl, rfl⟩) ?_ fun _ _ h => h
  rintro _ st₂ ⟨hd, hc⟩
  refine ends_note_bind fun st₃ hd₃ hc₃ => ends_pure ?_
  have settled : Settled sector True st i st₃ := by
    refine (h₁.imp fun _ => trivial).congr (hd₃.trans hd) ?_
    rw [hc₃, hc]
    rfl
  exact met_of_settled settled

theorem ends_run_write (sector : SectorId) (offset : Nat) (bytes : Bytes) :
    Ends (Storage.write sector offset bytes) st
      (fun _ st' => (write sector offset bytes).Met st st')
      ((write sector offset bytes).Unmet st) := by
  unfold Storage.write
  refine (ends_checkRange_of _ Iff.rfl).bind ?_ fun _ _ h => h
  rintro _ st rfl
  have rest : ∀ st₁ i, Settled sector (write sector offset bytes).Reads st i st₁ →
      Ends (do
        overlaySlot i offset bytes
        note (.sectorWritten sector offset bytes.size)) st₁
        (fun _ st' => (write sector offset bytes).Met st st')
        ((write sector offset bytes).Unmet st) := by
    intro st₁ i h₁
    refine ends_onCache_bind fun st₂ hd hc => ends_note fun st₃ hd₃ hc₃ => ?_
    have settled := h₁.congr (hd₃.trans hd) (by rw [hc₃, hc]; rfl)
    exact met_of_settled settled
  refine ends_get_bind ?_
  split
  · next i found =>
    exact rest st i ⟨⟨{}, Traffic.justified_of_disk rfl, Traffic.not_fails_nil⟩, found⟩
  next absent =>
  split
  · refine ends_note_bind fun st₁ hd hc => ?_
    rw [← hc] at wf free absent
    refine (ends_claim_settled wf free absent _).bind (fun i st₂ h₂ => ends_pure ?_) fun e st₂ h₂ => ?_
    · obtain ⟨⟨t, justified, ok⟩, found⟩ := h₂
      have justified := justified.of_log hd hc
      exact met_of_settled ⟨⟨t, justified.imp nofun, ok⟩, found⟩
    · obtain ⟨device, t, justified, fails⟩ := h₂
      exact .broken ⟨device, t, (justified.of_log hd hc).imp nofun, fails⟩
  · next part =>
    refine (ends_claim_settled wf free absent .disk).bind (fun i st₁ h₁ => ?_)
      fun _ _ h => .broken (h.imp fun _ => part)
    exact rest st₁ i (h₁.imp fun _ => part)

/-- With a slot that is not in use a demand is met, or it is for bytes outside the sector, or a
transfer failed. -/
theorem ends_run (r : Demand) : Ends r.run st (fun _ st' => r.Met st st') (r.Unmet st) := by
  cases r with
  | search sector =>
    unfold run
    refine (ends_pinResident_found st sector).bind ?_ fun _ _ h => h.elim
    rintro _ st₁ (⟨rfl, rfl⟩ | ⟨i, rfl, settled⟩)
    · refine ends_pure ⟨⟨{}, Traffic.justified_of_disk rfl, Traffic.not_fails_nil⟩, .inl ⟨_, rfl⟩⟩
    · exact ends_pure (met_of_settled settled)
  | load sector overwritten =>
    unfold run
    refine (ends_pin_met wf free sector overwritten).bind ?_ fun _ _ h => .broken h
    rintro _ st₁ ⟨i, settled⟩
    exact ends_pure (met_of_settled settled)
  | ask sector overwritten =>
    unfold run
    refine (ends_pinResident_found st sector).bind ?_ fun _ _ h => h.elim
    rintro _ st₁ (⟨rfl, rfl⟩ | ⟨i, rfl, settled⟩)
    · refine (ends_pin_met wf free sector overwritten).bind ?_ fun _ _ h => .broken h
      rintro _ st₂ ⟨i, settled⟩
      exact ends_pure (met_of_settled settled)
    · exact ends_pure (met_of_settled (settled.imp False.elim))
  | read sector offset len =>
    unfold run
    exact (ends_run_read wf free sector offset len).bind (fun _ _ h => ends_pure h) fun _ _ h => h
  | write sector offset bytes => exact ends_run_write wf free sector offset bytes

/-- Two rounds are enough for every demand, and more of them make no difference. -/
theorem within_eq (r : Demand) {rounds : Nat} (enough : 2 ≤ rounds) :
    r.within rounds st =
      (do
        r.run
        return true : Action Storage Bool) st := by
  have fetching := fun sector fill => fetchWithin_eq wf free sector fill enough
  cases r with
  | search sector => simp only [within, run, bind_assoc, pure_bind]
  | load sector overwritten =>
    simp only [within, run, pin, bind_assoc, pure_bind]
    rw [bind_congr_at (fetching sector _)]
    simp only [bind_assoc, pure_bind]
  | ask sector overwritten =>
    simp only [within, run, pin, bind_assoc, pure_bind]
    obtain none | ⟨p, st', some⟩ := pinResident_run st sector
    · rw [bind_congr_at none, bind_congr_at none]
      simp only [pure_bind]
      rw [bind_congr_at (fetching sector _)]
      simp only [bind_assoc, pure_bind]
    · rw [bind_congr_at some, bind_congr_at some]
      simp only [pure_bind]
  | read sector offset len =>
    simp only [within, run, Storage.read, bind_assoc, pure_bind]
    obtain ok | ⟨e, failed⟩ := checkRange_run st offset len .readOutsideSector
    · rw [bind_congr_at ok, bind_congr_at ok]
      simp only [pure_bind]
      rw [bind_congr_at (fetching sector _)]
      simp only [bind_assoc, pure_bind]
    · rw [bind_congr_at failed, bind_congr_at failed]
      rfl
  | write sector offset bytes =>
    simp only [within, run, Storage.write, bind_assoc]
    obtain ok | ⟨e, failed⟩ := checkRange_run st offset bytes.size .writeOutsideSector
    · rw [bind_congr_at ok, bind_congr_at ok]
      simp only [pure_bind, get_bind]
      cases found : st.cache.lookup sector with
      | some i => simp only [bind_assoc]
      | none =>
        simp only
        split
        · -- the log does not matter for the rounds
          let st₁ : Storage := ⟨st.disk, st.cache, st.log.add (.sectorReplaced sector)⟩
          have noted : note (.sectorReplaced sector) st = (pure () : Action Storage Unit) st₁ := rfl
          have wf₁ : st₁.cache.WellFormed := wf
          have free₁ : ∃ i ∈ st₁.cache.ring.toList, (st₁.cache.slot i).pins = 0 := free
          have found₁ : st₁.cache.lookup sector = none := found
          have fetching := fetchWithin_eq wf₁ free₁ sector (.bytes (Sector.ofBytes bytes)) enough
          simp only [bind_assoc]
          rw [bind_congr_at noted, bind_congr_at noted]
          simp only [pure_bind]
          rw [bind_congr_at fetching]
          simp only [bind_assoc, pure_bind]
          rw [bind_congr_at (fetch_of_absent found₁ _)]
        · rw [bind_congr_at (fetching sector _)]
          simp only [bind_assoc, pure_bind]
          rw [bind_congr_at (fetch_of_absent found _)]
    · rw [bind_congr_at failed, bind_congr_at failed]
      rfl

end Demand

namespace Storage

open SectorVolume.Action

/-- A round that only frees a slot is not enough for a read. -/
theorem within_one_of_round {st st' : Storage} {sector : SectorId}
    (absent : st.cache.lookup sector = none) {offset len : Nat} (inside : offset + len ≤ 512)
    (found : round st = .ok none st') :
    (Demand.read sector offset len).within 1 st = .ok false st' := by
  have fetching : fetchWithin sector .disk 1 st = .ok none st' := by
    unfold fetchWithin
    rw [get_bind, absent]
    exact run_bind found rfl
  exact run_bind (checkRange_of_inside st inside _) (run_bind fetching rfl)

/-- Sector 5 was pinned and part of sector 6 written. A read of another sector has to wait for
sector 6 to be written back. -/
theorem exists_pressed : ∃ st p b₁ b₂ st₁ b st₂, Used 2 (Disk.memory 8) {} st [p] (∅ \ {6}) ∧
    st.cache.slots = #[⟨some ⟨5, .clean, b₁⟩, 1⟩, ⟨some ⟨6, .dirty, b₂⟩, 0⟩] ∧
    st.cache.lookup 3 = none ∧ round st = .ok none st₁ ∧ read 3 0 4 st = .ok b st₂ ∧
    st₂.disk.trace = st.disk.trace ++ #[(⟨.write, 6⟩, true), (⟨.read, 3⟩, true)] := by
  obtain ⟨cache, hc, explicit⟩ : ∃ cache, Cache.create 2 = .ok cache ∧
      cache = ⟨#[{}, {}], Queue.ofList [0, 1], {}⟩ := ⟨_, rfl, rfl⟩
  have absent : ∀ s, cache.lookup s = none := (slot_of_create hc).2.2.2
  have second : ∀ s ≠ 5, (cache.index.insert 5 0)[(s : SectorId)]? = none := fun s ne =>
    absent_insert ne.symm (absent s)
  have third : ((cache.index.insert 5 0).insert 6 1)[(3 : SectorId)]? = none :=
    absent_insert (by decide) (second 3 (by decide))
  obtain ⟨st, st', b₁, b₂, loaded, wrote, after⟩ : ∃ st st' b₁ b₂,
      pin 5 .disk ⟨Disk.memory 8, cache, {}⟩ = .ok ⟨0, 5⟩ st' ∧ write 6 8 #[1, 2] st' = .ok () st ∧
      st.cache.slots = #[⟨some ⟨5, .clean, b₁⟩, 1⟩, ⟨some ⟨6, .dirty, b₂⟩, 0⟩] ∧
      st.cache.lookup 3 = none ∧ ∃ st₁ b st₂, round st = .ok none st₁ ∧ read 3 0 4 st = .ok b st₂ ∧
      st₂.disk.trace = st.disk.trace ++ #[(⟨.write, 6⟩, true), (⟨.read, 3⟩, true)] := by
    subst explicit
    exact ⟨_, _, _, _, (bind_congr_at (fetch_of_absent (absent 5) .disk) _).trans rfl,
      (write_of_absent (by exact second 6 (by decide)) (by decide) (by decide)).trans rfl, rfl,
      third, _, _, _, rfl, (read_of_absent (by exact third) (by decide)).trans rfl, rfl⟩
  obtain ⟨slots, absent, st₁, b, st₂, found, read, trace⟩ := after
  have used : Used 2 (Disk.memory 8) {} st [⟨0, 5⟩] (∅ \ {6}) :=
    .answered (.write 6 8 #[1, 2]) (.answered (.load 5) (.start hc) trivial loaded) trivial wrote
  exact ⟨st, ⟨0, 5⟩, b₁, b₂, st₁, b, st₂, used, slots, absent, found, read, trace⟩

/-- Whatever a program did with a cache and however the disk behaves: as long as some slot is not in
use, every demand is met or fails without waiting, in at most two rounds, and its transfers are
justified. -/
theorem Used.progresses {capacity : Nat} {disk : Disk} {log : Log} {held : List Pin}
    {doubt : Set SectorId} {st : Storage} (h : Used capacity disk log st held doubt)
    (free : ∃ i < capacity, (st.cache.slot i).pins = 0) (r : Demand) :
    (∀ rounds, 2 ≤ rounds → r.within rounds st =
      (do
        r.run
        return true : Action Storage Bool) st) ∧
    Ends r.run st (fun _ st' => r.Met st st') (r.Unmet st) := by
  have sound := h.sound
  have wf := sound.wellFormed
  have free : ∃ i ∈ st.cache.ring.toList, (st.cache.slot i).pins = 0 := by
    obtain ⟨i, lt, unused⟩ := free
    exact ⟨i, wf.mem_ring.2 (sound.size ▸ lt), unused⟩
  constructor
  · intro rounds enough
    exact r.within_eq wf free enough
  · exact r.ends_run wf free

/-- With one slot of two in use and the other one dirty, a read takes two rounds and two transfers. -/
theorem progresses_of_pressed : ∃ st p b₁ b₂ st₁ st₂,
    Used 2 (Disk.memory 8) {} st [p] (∅ \ {6}) ∧
    st.cache.slots = #[⟨some ⟨5, .clean, b₁⟩, 1⟩, ⟨some ⟨6, .dirty, b₂⟩, 0⟩] ∧
    (∃ i < 2, (st.cache.slot i).pins = 0) ∧ (Demand.read 3 0 4).within 1 st = .ok false st₁ ∧
    (Demand.read 3 0 4).within 2 st = .ok true st₂ ∧ (Demand.read 3 0 4).Met st st₂ ∧
    st₂.disk.trace = st.disk.trace ++ #[(⟨.write, 6⟩, true), (⟨.read, 3⟩, true)] := by
  obtain ⟨st, p, b₁, b₂, st₁, b, st₂, used, slots, absent, found, read, trace⟩ := exists_pressed
  have free : ∃ i < 2, (st.cache.slot i).pins = 0 := by
    refine ⟨1, by decide, ?_⟩
    rw [Cache.slot, slots]
    rfl
  obtain ⟨rounds, ends⟩ := used.progresses free (.read 3 0 4)
  have run : (Demand.read 3 0 4).run st = .ok () st₂ := run_bind read rfl
  have two : (Demand.read 3 0 4).within 2 st = .ok true st₂ := by
    rw [rounds 2 (Nat.le_refl 2)]
    exact run_bind run rfl
  exact ⟨st, p, b₁, b₂, st₁, st₂, used, slots, free,
    within_one_of_round absent (by decide) found, two, ends.ok run, trace⟩

end Storage

end SectorVolume
