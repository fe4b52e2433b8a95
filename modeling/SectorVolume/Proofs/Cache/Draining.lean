import SectorVolume.Proofs.Cache.Representation
import SectorVolume.Proofs.Cache.Traffic

/-!
# Writing everything back

Writing back goes through the dirty slots in the order of the ring, with one transfer for each. If
the disk refuses one of them, those before it are clean and on the disk, and it and those after it
are as they were, so that writing back later goes on there. Nothing else changes, and no sector
changes its content.
-/

namespace SectorVolume

/-- The transfers by which lines are written. -/
def Line.writes (lines : List Line) : List (Transfer × Bool) :=
  lines.map fun l => (⟨.write, l.sector.toNat⟩, true)

namespace Cache

variable {c c' : Cache} {is : List Nat} {i : Nat}

/-- No dirty slot is in use. -/
def Calm (c : Cache) : Prop := ∀ i, (c.slot i).isDirty = true → (c.slot i).pins = 0

/-- The lines of some slots. -/
def lines (c : Cache) (is : List Nat) : List Line := is.filterMap fun i => (c.slot i).line

theorem mem_lines {l : Line} : l ∈ c.lines is ↔ ∃ i ∈ is, (c.slot i).line = some l :=
  List.mem_filterMap

theorem lines_append (is js : List Nat) : c.lines (is ++ js) = c.lines is ++ c.lines js :=
  List.filterMap_append ..

theorem lines_congr (h : ∀ i ∈ is, (c'.slot i).line = (c.slot i).line) :
    c'.lines is = c.lines is := by
  induction is with
  | nil => rfl
  | cons i is ih =>
    rw [lines, lines, List.filterMap_cons, List.filterMap_cons, h i List.mem_cons_self]
    have rest := ih fun j hj => h j (List.mem_cons_of_mem _ hj)
    unfold lines at rest
    rw [rest]

theorem mem_dirtySlots (wf : c.WellFormed) : i ∈ c.dirtySlots ↔ (c.slot i).isDirty = true := by
  unfold dirtySlots
  rw [List.mem_filter, wf.mem_ring]
  constructor
  · rintro ⟨-, dirty⟩
    exact dirty
  · intro dirty
    obtain ⟨l, hl, -⟩ := Slot.isDirty_iff.1 dirty
    exact ⟨lt_size_of_line hl, dirty⟩

theorem nodup_dirtySlots (wf : c.WellFormed) : c.dirtySlots.Nodup :=
  (wf.ring.nodup_iff.2 List.nodup_range).filter _

theorem toList_slots (c : Cache) : c.slots.toList = (List.range c.slots.size).map c.slot := by
  refine List.ext_getElem (by simp) fun i hi _ => ?_
  have lt : i < c.slots.size := by simpa using hi
  simp [slot, Array.getD_eq_getD_getElem?, lt]

/-- Going round the ring finds each dirty slot once. -/
theorem length_dirtySlots (wf : c.WellFormed) : c.dirtySlots.length = c.dirtyCount := by
  unfold dirtySlots dirtyCount
  rw [← List.countP_eq_length_filter, wf.ring.countP_eq, ← Array.countP_toList, toList_slots,
    List.countP_map]
  rfl

/-- Each dirty slot has a line. -/
theorem length_lines (dirty : ∀ i ∈ is, (c.slot i).isDirty = true) :
    (c.lines is).length = is.length := by
  induction is with
  | nil => rfl
  | cons i is ih =>
    obtain ⟨l, hl, -⟩ := Slot.isDirty_iff.1 (dirty i List.mem_cons_self)
    rw [lines, List.filterMap_cons, hl]
    exact congrArg (· + 1) (ih fun j hj => dirty j (List.mem_cons_of_mem _ hj))

end Cache

namespace Storage

open SectorVolume.Action

variable {st st' st'' : Storage} {is js : List Nat} {i : Nat}

/-- The slots `is` were written back one after the other, and nothing else happened. -/
structure Drained (is : List Nat) (st st' : Storage) : Prop where
  trace : st'.disk.trace.toList = st.disk.trace.toList ++ Line.writes (st.cache.lines is)
  /-- Their bytes are on the disk. -/
  stored : ∀ l ∈ st.cache.lines is, st'.disk.sector l.sector.toNat = l.bytes
  /-- No other sector of the disk changed. -/
  spared : ∀ n, (∀ l ∈ st.cache.lines is, l.sector.toNat ≠ n) →
    st'.disk.sector n = st.disk.sector n
  index : st'.cache.index = st.cache.index
  ring : st'.cache.ring = st.cache.ring
  size : st'.cache.slots.size = st.cache.slots.size
  slot : ∀ j, st'.cache.slot j =
    if j ∈ is then (st.cache.slot j).mapMark fun _ => .clean else st.cache.slot j
  working : ∀ m, (∀ l ∈ st.cache.lines is, l.sector.toNat < m) → st.disk.Working m →
    st'.disk.Working m

theorem drained_nil (st : Storage) : Drained [] st st where
  trace := by simp [Cache.lines, Line.writes]
  stored := nofun
  spared _ _ := rfl
  index := rfl
  ring := rfl
  size := rfl
  slot j := by simp
  working _ _ h := h

namespace Drained

theorem slot_of_not_mem (h : Drained is st st') {j : Nat} (hj : j ∉ is) :
    st'.cache.slot j = st.cache.slot j := by
  rw [h.slot, if_neg hj]

theorem sector? (h : Drained is st st') (j : Nat) :
    (st'.cache.slot j).sector? = (st.cache.slot j).sector? := by
  rw [h.slot]
  split
  · exact Slot.sector?_mapMark ..
  · rfl

theorem lookup (h : Drained is st st') (s : SectorId) :
    st'.cache.lookup s = st.cache.lookup s := by
  unfold Cache.lookup
  rw [h.index]

theorem wellFormed (h : Drained is st st') (wf : st.cache.WellFormed) : st'.cache.WellFormed := by
  refine ⟨?_, fun s j => ?_⟩
  · rw [h.ring, h.size]
    exact wf.ring
  · rw [h.lookup, h.sector?]
    exact wf.index s j

theorem pins (h : Drained is st st') (j : Nat) :
    (st'.cache.slot j).pins = (st.cache.slot j).pins := by
  rw [h.slot]
  split
  · exact Slot.pins_mapMark ..
  · rfl

theorem bytes (h : Drained is st st') (j : Nat) : st'.cache.bytes j = st.cache.bytes j := by
  unfold Cache.bytes
  by_cases hj : j ∈ is
  · rw [h.slot, if_pos hj, Slot.line_mapMark]
    cases (st.cache.slot j).line <;> rfl
  · rw [h.slot_of_not_mem hj]

/-- Different slots have different sectors. -/
theorem sector_ne (wf : st.cache.WellFormed) {j : Nat} {l l' : Line}
    (hl : (st.cache.slot i).line = some l) (hl' : (st.cache.slot j).line = some l') (ne : i ≠ j) :
    l.sector.toNat ≠ l'.sector.toNat := by
  intro e
  have found := wf.lookup_of_line hl
  rw [UInt32.toNat_inj.1 e, wf.lookup_of_line hl'] at found
  exact ne (Option.some.inj found).symm

theorem trans (h : Drained is st st') (h' : Drained js st' st'') (wf : st.cache.WellFormed)
    (apart : ∀ j ∈ js, j ∉ is) : Drained (is ++ js) st st'' := by
  have same : st'.cache.lines js = st.cache.lines js :=
    Cache.lines_congr fun j hj => by rw [h.slot_of_not_mem (apart j hj)]
  have trace := h'.trace
  have stored := h'.stored
  have spared := h'.spared
  have working := h'.working
  rw [same] at trace stored spared working
  refine ⟨?_, fun l mem => ?_, fun n others => ?_, h'.index.trans h.index, h'.ring.trans h.ring,
    h'.size.trans h.size, fun j => ?_, fun m within works => ?_⟩
  · rw [trace, h.trace, List.append_assoc, Cache.lines_append]
    simp [Line.writes]
  · rw [Cache.lines_append] at mem
    rcases List.mem_append.1 mem with mem | mem
    · -- no slot that is written back later has the same sector
      obtain ⟨i, hi, hl⟩ := Cache.mem_lines.1 mem
      rw [spared, h.stored l mem]
      intro l' mem'
      obtain ⟨j, hj, hl'⟩ := Cache.mem_lines.1 mem'
      refine sector_ne wf hl' hl ?_
      rintro rfl
      exact apart j hj hi
    · exact stored l mem
  · rw [Cache.lines_append] at others
    rw [spared n fun l mem => others l (List.mem_append_right _ mem),
      h.spared n fun l mem => others l (List.mem_append_left _ mem)]
  · rw [h'.slot, h.slot]
    by_cases hj : j ∈ js
    · simp [hj, apart j hj]
    · simp [hj]
  · rw [Cache.lines_append] at within
    exact working m (fun l mem => within l (List.mem_append_right _ mem))
      (h.working m (fun l mem => within l (List.mem_append_left _ mem)) works)

end Drained

theorem drained_of_wroteBack {l : Line} (back : WroteBack i l st st')
    (trace : st'.disk.trace.toList =
      st.disk.trace.toList ++ [(⟨.write, l.sector.toNat⟩, true)]) : Drained [i] st st' := by
  have line : st.cache.lines [i] = [l] := by
    simp [Cache.lines, back.line]
  have lt := Cache.lt_size_of_line back.line
  refine ⟨?_, ?_, fun n others => ?_, ?_, ?_, back.size, fun j => ?_, fun m within => ?_⟩
  · rw [trace, line]
    rfl
  · rw [line]
    intro l' mem
    rw [List.mem_singleton.1 mem, Disk.sector_of_put back.disk, if_pos rfl]
  · rw [line] at others
    rw [Disk.sector_of_put back.disk, if_neg (Ne.symm (others l (List.mem_singleton_self l)))]
  · rw [back.cache]
    rfl
  · rw [back.cache]
    rfl
  · rw [back.cache, Cache.markClean]
    by_cases e : i = j
    · rw [← e, Cache.slot_modifySlot_self lt, if_pos (List.mem_singleton_self i)]
    · rw [Cache.slot_modifySlot_of_ne e, if_neg fun mem => e (List.mem_singleton.1 mem).symm]
  · rw [line] at within
    exact back.working m (within l (List.mem_singleton_self l))

/-- Writing back the slots `is` stopped at one of them, which the disk refused. -/
structure Halted (is : List Nat) (st st' : Storage) (e : Failure) (done : List Nat) (i : Nat)
    (rest : List Nat) : Prop where
  split : is = done ++ i :: rest
  reached : ∃ st₁ l, Drained done st st₁ ∧ (st₁.cache.slot i).line = some l ∧ Denied l st₁ st' e

/-- Dirty slots that nobody uses are written back one after the other, until the disk refuses one. -/
theorem ends_writeBackAll_drained (wf : st.cache.WellFormed) (count : Nat) (nodup : is.Nodup)
    (dirty : ∀ i ∈ is, (st.cache.slot i).isDirty = true)
    (unused : ∀ i ∈ is, (st.cache.slot i).pins = 0) :
    Ends (writeBackAll count is) st (fun n st' => n = count + is.length ∧ Drained is st st')
      fun e st' => ∃ done i rest, Halted is st st' e done i rest := by
  induction is generalizing st count with
  | nil => exact ends_pure ⟨rfl, drained_nil st⟩
  | cons i is ih =>
    obtain ⟨fresh, nodup⟩ := List.nodup_cons.1 nodup
    obtain ⟨l, hl, mark⟩ := Slot.isDirty_iff.1 (dirty i List.mem_cons_self)
    have apart : ∀ j ∈ is, j ∉ [i] := by
      intro j hj mem
      rw [List.mem_singleton.1 mem] at hj
      exact fresh hj
    unfold writeBackAll
    refine (ends_writeBack_of_dirty hl mark (unused i List.mem_cons_self)).bind
      (fun b st₁ h₁ => ?_) fun e st' denied => ?_
    · obtain ⟨rfl, back, trace⟩ := h₁
      have first := drained_of_wroteBack back trace
      have same := fun j hj => first.slot_of_not_mem (apart j hj)
      rw [if_pos rfl]
      refine (ih (first.wellFormed wf) (count + 1) nodup (fun j hj => ?_) fun j hj => ?_).mono ?_ ?_
      · rw [same j hj]
        exact dirty j (List.mem_cons_of_mem _ hj)
      · rw [same j hj]
        exact unused j (List.mem_cons_of_mem _ hj)
      · rintro n st' ⟨rfl, drained⟩
        refine ⟨?_, first.trans drained wf apart⟩
        rw [List.length_cons]
        omega
      · rintro e st' ⟨done, j, rest, split, st₂, l, drained, hl, denied⟩
        refine ⟨i :: done, j, rest, ?_, st₂, l, first.trans drained wf fun k hk => ?_, hl, denied⟩
        · rw [split]
          rfl
        · refine apart k ?_
          rw [split]
          exact List.mem_append_left _ hk
    · exact ⟨[], i, is, rfl, st, l, drained_nil st, hl, denied⟩

/-! ## What is left and what stays -/

theorem Drained.congr (h : Drained is st st') (disk : st''.disk = st'.disk)
    (cache : st''.cache = st'.cache) : Drained is st st'' := by
  obtain ⟨disk₁, cache₁, log₁⟩ := st'
  obtain ⟨disk₂, cache₂, log₂⟩ := st''
  cases disk
  cases cache
  exact ⟨h.trace, h.stored, h.spared, h.index, h.ring, h.size, h.slot, h.working⟩

/-- The slots that are still dirty are those that were not written back, in the same order. -/
theorem Drained.dirtySlots (h : Drained is st st') :
    st'.cache.dirtySlots = st.cache.dirtySlots.filter fun j => j ∉ is := by
  unfold Cache.dirtySlots
  rw [h.ring, List.filter_filter]
  refine List.filter_congr fun j _ => ?_
  rw [h.slot]
  by_cases hj : j ∈ is
  · rcases e : st.cache.slot j with ⟨_ | ⟨sector, mark, bytes⟩, pins⟩
    · simp [hj, Slot.isDirty, Slot.mapMark]
    · simp [hj, Slot.isDirty, Slot.mapMark]
  · simp [hj]

/-- Nothing is different in the cache but marks, and no sector has another content. -/
structure Undisturbed (st st' : Storage) : Prop where
  resident : st'.cache.resident = st.cache.resident
  lookup : ∀ s, st'.cache.lookup s = st.cache.lookup s
  ring : st'.cache.ring.toList = st.cache.ring.toList
  pins : ∀ j, (st'.cache.slot j).pins = (st.cache.slot j).pins
  bytes : ∀ j, st'.cache.bytes j = st.cache.bytes j
  others : ∀ j, (st.cache.slot j).isDirty = false → st'.cache.slot j = st.cache.slot j
  logical : st'.logical = st.logical

theorem Drained.undisturbed (h : Drained is st st') (wf : st.cache.WellFormed)
    (dirty : ∀ i ∈ is, (st.cache.slot i).isDirty = true) : Undisturbed st st' where
  resident := by
    unfold Cache.resident
    rw [Cache.toList_slots, Cache.toList_slots, h.size, List.filterMap_map, List.filterMap_map]
    exact congrArg (List.filterMap · _) (funext h.sector?)
  lookup := h.lookup
  ring := by rw [h.ring]
  pins := h.pins
  bytes := h.bytes
  others j clean := by
    refine h.slot_of_not_mem fun mem => ?_
    rw [dirty j mem] at clean
    cases clean
  logical := by
    refine logical_congr h.lookup h.bytes fun s absent => h.spared _ fun l mem e => ?_
    obtain ⟨i, -, hl⟩ := Cache.mem_lines.1 mem
    exact wf.lookup_eq_none absent hl (UInt32.toNat_inj.1 e)

theorem Undisturbed.congr (h : Undisturbed st st') (content : st''.disk.content = st'.disk.content)
    (cache : st''.cache = st'.cache) : Undisturbed st st'' := by
  have logical : st''.logical = st'.logical := by
    refine logical_congr (fun s => by rw [cache]) (fun j => by rw [cache]) fun s _ => ?_
    exact Disk.sector_of_content content _
  refine ⟨?_, fun s => ?_, ?_, fun j => ?_, fun j => ?_, fun j clean => ?_, logical.trans h.logical⟩
  · rw [cache, h.resident]
  · rw [cache, h.lookup]
  · rw [cache, h.ring]
  · rw [cache, h.pins]
  · rw [cache, h.bytes]
  · rw [cache, h.others j clean]

/-! ## Writing back all of them -/

theorem ends_flushAll_drained (wf : st.cache.WellFormed) (calm : st.cache.Calm) :
    Ends flushAll st
      (fun n st' => n = st.cache.dirtyCount ∧ Drained st.cache.dirtySlots st st')
      fun e st' => ∃ done i rest, Halted st.cache.dirtySlots st st' e done i rest := by
  have dirty := fun i => (Cache.mem_dirtySlots wf (i := i)).1
  unfold flushAll
  refine ends_get_bind ((ends_writeBackAll_drained wf 0 (Cache.nodup_dirtySlots wf) dirty
    fun i hi => calm i (dirty i hi)).bind ?_ fun _ _ halted => halted)
  rintro n st₁ ⟨rfl, drained⟩
  refine ends_note_bind fun st₂ hd hc => ends_pure ⟨?_, drained.congr hd hc⟩
  rw [Nat.zero_add, Cache.length_dirtySlots wf]

theorem dirtySlots_of_drained (h : Drained st.cache.dirtySlots st st') :
    st'.cache.dirtySlots = [] := by
  rw [h.dirtySlots]
  exact List.filter_eq_nil_iff.2 fun j hj => by simpa using hj

/-- Nothing is written when no slot is dirty. -/
theorem flushAll_of_clean (clean : st.cache.dirtySlots = []) :
    ∃ st', flushAll st = .ok 0 st' ∧ st'.disk = st.disk ∧ st'.cache = st.cache := by
  refine ⟨⟨st.disk, st.cache, st.log.add (.cacheFlushed 0)⟩, ?_, rfl, rfl⟩
  unfold flushAll
  rw [get_bind, clean]
  rfl

/-- Everything was written back, `n` sectors. -/
structure Complete (n : Nat) (st st' : Storage) : Prop where
  count : n = st.cache.dirtyCount
  length : (st.cache.lines st.cache.dirtySlots).length = n
  /-- There was one transfer for each dirty slot, in the order of the ring. -/
  trace : st'.disk.trace.toList =
    st.disk.trace.toList ++ Line.writes (st.cache.lines st.cache.dirtySlots)
  clean : st'.cache.dirtyCount = 0
  /-- Each line is as on the disk if it was dirty or as on the disk before. -/
  stored : ∀ i l, (st'.cache.slot i).line = some l →
    (st.cache.slot i).isDirty = true ∨ l.bytes = st.disk.sector l.sector.toNat →
    st'.disk.sector l.sector.toNat = l.bytes
  /-- To write everything back again does nothing. -/
  again : ∃ st'', flushAll st' = .ok 0 st'' ∧ st''.disk = st'.disk ∧ st''.cache = st'.cache

theorem complete_of_drained (wf : st.cache.WellFormed) (h : Drained st.cache.dirtySlots st st') :
    Complete st.cache.dirtyCount st st' := by
  have dirty := fun i => Cache.mem_dirtySlots wf (i := i)
  have none := dirtySlots_of_drained h
  have length : (st.cache.lines st.cache.dirtySlots).length = st.cache.dirtyCount := by
    rw [Cache.length_lines fun i => (dirty i).1, Cache.length_dirtySlots wf]
  refine ⟨rfl, length, h.trace, ?_, fun i l hl why => ?_, flushAll_of_clean none⟩
  · rw [← Cache.length_dirtySlots (h.wellFormed wf), none]
    rfl
  · by_cases mem : i ∈ st.cache.dirtySlots
    · rw [h.slot, if_pos mem, Slot.line_mapMark, Option.map_eq_some_iff] at hl
      obtain ⟨l', hl', rfl⟩ := hl
      exact h.stored l' (Cache.mem_lines.2 ⟨i, mem, hl'⟩)
    · rw [h.slot_of_not_mem mem] at hl
      have same := why.resolve_left fun d => mem ((dirty i).2 d)
      rw [h.spared, same]
      intro l' mem'
      obtain ⟨j, hj, hl'⟩ := Cache.mem_lines.1 mem'
      refine Drained.sector_ne wf hl' hl ?_
      rintro rfl
      exact mem hj

/-- No slot is gone through twice. -/
theorem not_mem_done {done rest : List Nat} (wf : st.cache.WellFormed)
    (split : st.cache.dirtySlots = done ++ i :: rest) : ∀ j ∈ i :: rest, j ∉ done := by
  have nodup := Cache.nodup_dirtySlots wf
  rw [split] at nodup
  intro j hj mem
  exact (List.nodup_append.1 nodup).2.2 j mem j hj rfl

/-- On a disk that works everything is written back. -/
theorem flushAll_of_working {n : Nat} (wf : st.cache.WellFormed) (calm : st.cache.Calm)
    (works : st.disk.Working n)
    (within : ∀ l ∈ st.cache.lines st.cache.dirtySlots, l.sector.toNat < n) :
    ∃ st', flushAll st = .ok st.cache.dirtyCount st' ∧ Complete st.cache.dirtyCount st st' := by
  obtain ⟨_, st', run, rfl, drained⟩ := (ends_flushAll_drained wf calm).returns (by
    rintro e st' ⟨done, i, rest, split, st₁, l, drained, hl, denied⟩
    have inside : ∀ l ∈ st.cache.lines done, l.sector.toNat < n := by
      intro l mem
      refine within l ?_
      rw [split, Cache.lines_append]
      exact List.mem_append_left _ mem
    rw [drained.slot_of_not_mem (not_mem_done wf split i List.mem_cons_self)] at hl
    refine denied.idle n (within l (Cache.mem_lines.2 ⟨i, ?_, hl⟩)) (drained.working n inside works)
    rw [split]
    simp)
  exact ⟨st', run, complete_of_drained wf drained⟩

/-- The disk refused slot `i`. Those written back before are `done`, and `rest` come after it. -/
structure Incomplete (st st' : Storage) (done : List Nat) (i : Nat) (rest : List Nat) : Prop where
  split : st.cache.dirtySlots = done ++ i :: rest
  /-- There was one transfer for each slot that was written back, and the one that failed. -/
  trace : ∃ l, (st.cache.slot i).line = some l ∧ st'.disk.trace.toList = st.disk.trace.toList ++
    (Line.writes (st.cache.lines done) ++ [(⟨.write, l.sector.toNat⟩, false)])
  cleaned : ∀ j ∈ done, st'.cache.slot j = (st.cache.slot j).mapMark fun _ => .clean
  stored : ∀ l ∈ st.cache.lines done, st'.disk.sector l.sector.toNat = l.bytes
  kept : ∀ j ∈ i :: rest, st'.cache.slot j = st.cache.slot j
  left : st'.cache.dirtySlots = i :: rest
  /-- On a disk that works the slots that are left are written back later. -/
  resumed : ∀ d n, Disk.Working n d → (∀ l ∈ st.cache.lines (i :: rest), l.sector.toNat < n) →
    ∃ st'', flushAll ⟨d, st'.cache, st'.log⟩ = .ok (rest.length + 1) st'' ∧
      st''.disk.trace.toList = d.trace.toList ++ Line.writes (st.cache.lines (i :: rest)) ∧
      Complete (rest.length + 1) ⟨d, st'.cache, st'.log⟩ st''

section Refused

variable {e : Failure} {done rest : List Nat} {l : Line} (wf : st.cache.WellFormed)
  (split : st.cache.dirtySlots = done ++ i :: rest) (drained : Drained done st st')
  (denied : Denied l st' st'' e)

include wf split drained denied

/-- The refused slot and those after it are as they were. -/
theorem slot_of_refused : ∀ j ∈ i :: rest, st''.cache.slot j = st.cache.slot j := by
  intro j hj
  rw [denied.cache, drained.slot_of_not_mem (not_mem_done wf split j hj)]

theorem dirtySlots_of_refused : st''.cache.dirtySlots = i :: rest := by
  have before : done.filter (fun j => j ∉ done) = [] :=
    List.filter_eq_nil_iff.2 fun j hj => by simpa using hj
  have after : (i :: rest).filter (fun j => j ∉ done) = i :: rest :=
    List.filter_eq_self.2 fun j hj => by simpa using not_mem_done wf split j hj
  rw [denied.cache, drained.dirtySlots, split, List.filter_append, before, after, List.nil_append]

/-- Writing back later goes on with the refused slot. -/
theorem flushAll_of_refused (calm : st.cache.Calm) {d : Disk} {n : Nat} (works : d.Working n)
    (within : ∀ l ∈ st.cache.lines (i :: rest), l.sector.toNat < n) :
    ∃ st₃, flushAll ⟨d, st''.cache, st''.log⟩ = .ok (rest.length + 1) st₃ ∧
      st₃.disk.trace.toList = d.trace.toList ++ Line.writes (st.cache.lines (i :: rest)) ∧
      Complete (rest.length + 1) ⟨d, st''.cache, st''.log⟩ st₃ := by
  have kept := slot_of_refused wf split drained denied
  have left := dirtySlots_of_refused wf split drained denied
  have same : st''.cache.lines (i :: rest) = st.cache.lines (i :: rest) :=
    Cache.lines_congr fun j hj => by rw [kept j hj]
  have wf'' : st''.cache.WellFormed := by
    rw [denied.cache]
    exact drained.wellFormed wf
  have calm'' : st''.cache.Calm := by
    intro j dirty
    have mem := (Cache.mem_dirtySlots wf'').2 dirty
    rw [left] at mem
    rw [kept j mem] at dirty ⊢
    exact calm j dirty
  have count : st''.cache.dirtyCount = rest.length + 1 := by
    rw [← Cache.length_dirtySlots wf'', left, List.length_cons]
  obtain ⟨st₃, run, complete⟩ : ∃ st₃, flushAll ⟨d, st''.cache, st''.log⟩ =
      .ok st''.cache.dirtyCount st₃ ∧
        Complete st''.cache.dirtyCount ⟨d, st''.cache, st''.log⟩ st₃ :=
    flushAll_of_working wf'' calm'' works (by rwa [left, same])
  have trace := complete.trace
  rw [left, same] at trace
  rw [count] at run complete
  exact ⟨st₃, run, trace, complete⟩

theorem incomplete_of_refused (calm : st.cache.Calm) (line : (st'.cache.slot i).line = some l) :
    Incomplete st st'' done i rest where
  split := split
  trace := by
    rw [drained.slot_of_not_mem (not_mem_done wf split i List.mem_cons_self)] at line
    refine ⟨l, line, ?_⟩
    rw [denied.trace, drained.trace, List.append_assoc]
  cleaned j hj := by
    rw [denied.cache, drained.slot, if_pos hj]
  stored l mem := by
    rw [Disk.sector_of_content denied.content]
    exact drained.stored l mem
  kept := slot_of_refused wf split drained denied
  left := dirtySlots_of_refused wf split drained denied
  resumed _ _ works within := flushAll_of_refused wf split drained denied calm works within

end Refused

/-- Parts of three sectors were written, and the disk refuses to take the second one back. -/
theorem exists_refused : ∃ st st', Used 3 ((Disk.memory 8).failingWrite 1) {} st []
      (((∅ \ {3}) \ {5}) \ {6}) ∧
    st.cache.dirtySlots = [0, 1, 2] ∧
    flushAll st = .error (.fault (.device .injectedWrite)) st' ∧ st'.cache.dirtySlots = [1, 2] := by
  obtain ⟨cache, hc, explicit⟩ : ∃ cache, Cache.create 3 = .ok cache ∧
      cache = ⟨#[{}, {}, {}], Queue.ofList [0, 1, 2], {}⟩ := ⟨_, rfl, rfl⟩
  have absent : ∀ s, cache.lookup s = none := (slot_of_create hc).2.2.2
  have second : ∀ s ≠ 3, (cache.index.insert 3 0)[(s : SectorId)]? = none := fun s ne =>
    absent_insert ne.symm (absent s)
  have third : ((cache.index.insert 3 0).insert 5 1)[(6 : SectorId)]? = none :=
    absent_insert (by decide) (second 6 (by decide))
  -- what the slots hold is not looked at when it is written back
  obtain ⟨st₁, st₂, st, disk, b₁, b₂, b₃, index, log, first, next, last, full, hd⟩ :
      ∃ st₁ st₂ st disk b₁ b₂ b₃ index log,
        write 3 8 #[1, 2] ⟨(Disk.memory 8).failingWrite 1, cache, {}⟩ = .ok () st₁ ∧
        write 5 0 #[4] st₁ = .ok () st₂ ∧ write 6 500 #[7, 8, 9] st₂ = .ok () st ∧
        st = ⟨disk, ⟨#[⟨some ⟨3, .dirty, b₁⟩, 0⟩, ⟨some ⟨5, .dirty, b₂⟩, 0⟩,
          ⟨some ⟨6, .dirty, b₃⟩, 0⟩], ⟨[], [2, 1, 0]⟩, index⟩, log⟩ ∧
        disk = { (Disk.memory 8).failingWrite 1 with
          trace := #[(⟨.read, 3⟩, true), (⟨.read, 5⟩, true), (⟨.read, 6⟩, true)], reads := 3 } := by
    subst explicit
    exact ⟨_, _, _, _, _, _, _, _, _,
      (write_of_absent (absent 3) (by decide) (by decide)).trans rfl,
      (write_of_absent (by exact second 5 (by decide)) (by decide) (by decide)).trans rfl,
      (write_of_absent (by exact third) (by decide) (by decide)).trans rfl, rfl, rfl⟩
  have used : Used 3 ((Disk.memory 8).failingWrite 1) {} st [] (((∅ \ {3}) \ {5}) \ {6}) :=
    .answered (.write 6 500 #[7, 8, 9]) (.answered (.write 5 0 #[4])
      (.answered (.write 3 8 #[1, 2]) (.start hc) trivial first) trivial next) trivial last
  obtain ⟨st', dirty, run, left⟩ : ∃ st', st.cache.dirtySlots = [0, 1, 2] ∧
      flushAll st = .error (.fault (.device .injectedWrite)) st' ∧
      st'.cache.dirtySlots = [1, 2] := by
    rw [full, hd]
    exact ⟨_, rfl, rfl, rfl⟩
  exact ⟨st, st', used, dirty, run, left⟩

/-- As long as no dirty slot is in use, and however the disk behaves, everything is written back, or
the disk refuses a slot and the ones from there on are left for the next time. -/
theorem Used.flushAll_exact {capacity : Nat} {disk : Disk} {log : Log} {held : List Pin}
    {doubt : Set SectorId} (h : Used capacity disk log st held doubt) (calm : st.cache.Calm) :
    Ends flushAll st (fun n st' => Complete n st st' ∧ Undisturbed st st')
      fun e st' => (∃ cause, e = .fault (.device cause)) ∧
        (∃ done i rest, Incomplete st st' done i rest) ∧ Undisturbed st st' := by
  have wf := h.sound.wellFormed
  refine (ends_flushAll_drained wf calm).mono ?_ ?_
  · rintro _ st' ⟨rfl, drained⟩
    exact ⟨complete_of_drained wf drained,
      drained.undisturbed wf fun i => (Cache.mem_dirtySlots wf).1⟩
  · rintro e st' ⟨done, i, rest, split, st₁, l, drained, line, denied⟩
    have dirty : ∀ j ∈ done, (st.cache.slot j).isDirty = true := by
      intro j hj
      rw [← Cache.mem_dirtySlots wf, split]
      exact List.mem_append_left _ hj
    have incomplete := incomplete_of_refused wf split drained denied calm line
    exact ⟨denied.device, ⟨done, i, rest, incomplete⟩,
      (drained.undisturbed wf dirty).congr denied.content denied.cache⟩

/-- Of three dirty slots the disk refuses the second one: the first one is written back, and the
other two are left for the next time. -/
theorem flushAll_exact_of_refused : ∃ st st', Used 3 ((Disk.memory 8).failingWrite 1) {} st []
      (((∅ \ {3}) \ {5}) \ {6}) ∧
    st.cache.Calm ∧ flushAll st = .error (.fault (.device .injectedWrite)) st' ∧
    Incomplete st st' [0] 1 [2] ∧ Undisturbed st st' := by
  obtain ⟨st, st', used, dirty, run, left⟩ := exists_refused
  have calm : st.cache.Calm := fun i _ => used.sound.counted i
  obtain ⟨-, ⟨done, i, rest, incomplete⟩, undisturbed⟩ := (used.flushAll_exact calm).error run
  have split := incomplete.split
  rw [← incomplete.left, dirty, left] at split
  have same := incomplete.left
  rw [left] at same
  obtain ⟨rfl, rfl⟩ := List.cons.inj same
  obtain rfl : done = [0] := (List.append_cancel_right (split : [0] ++ [1, 2] = done ++ [1, 2])).symm
  exact ⟨st, st', used, calm, run, incomplete, undisturbed⟩

end Storage

end SectorVolume
