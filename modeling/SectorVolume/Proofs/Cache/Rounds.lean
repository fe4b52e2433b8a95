import SectorVolume.Proofs.Cache.Traffic

/-!
# Rounds of looking for a slot

A sector that has no slot is given one in rounds: a slot is chosen, and if it cannot be given away
as it is, it is written back and the next round begins. As long as some slot is not in use two
rounds are enough, since the slot that was written back is the only idle one and is chosen next.
-/

namespace SectorVolume

namespace Storage

open SectorVolume.Action

variable {st st' st'' : Storage} {sector : SectorId} {i : Nat}

/-! ## Rounds -/

/-- Looks for a slot once: if the chosen slot cannot be given away as it is, it is written back, and
there is no slot yet. -/
def round : Action Storage (Option Nat) := do
  let choice ← select
  if ((← get).cache.slot choice.victim).isReady then return some choice.victim
  if choice.sweep = .forced then note (.slotForced choice.victim)
  let _ ← writeBack choice.victim
  return none

/-- Gives a sector a slot, if so many rounds suffice. -/
def fetchWithin (sector : SectorId) (fill : Fill) : Nat → Action Storage (Option Nat)
  | 0 => return none
  | rounds + 1 => do
    match (← get).cache.lookup sector with
    | some i => return some i
    | none =>
      match ← round with
      | some i => return some (← install sector fill i)
      | none => fetchWithin sector fill rounds

/-- The line of slot `i` is dirty and the slot is not in use, and no slot can be given away as it
is. -/
structure Pressed (i : Nat) (l : Line) (c : Cache) : Prop where
  line : (c.slot i).line = some l
  dirty : l.mark = .dirty
  unused : (c.slot i).pins = 0
  none : ∀ j ∈ c.ring.toList, (c.slot j).isReady = false

/-- A round wrote the line `l` of slot `i` back, and the slot is the only idle one now. -/
structure Freed (i : Nat) (l : Line) (st st' : Storage) : Prop where
  pressed : Pressed i l st.cache
  wellFormed : st'.cache.WellFormed
  size : st'.cache.slots.size = st.cache.slots.size
  lookup : ∀ s, st'.cache.lookup s = st.cache.lookup s
  idle : (st'.cache.slot i).isIdle = true
  only : ∀ j, (st'.cache.slot j).isIdle = true → j < st.cache.slots.size → j = i
  content : st'.disk.content = st.disk.content.put l.sector.toNat l.bytes
  trace : st'.disk.trace.toList = st.disk.trace.toList ++ [(⟨.write, l.sector.toNat⟩, true)]

/-- A round could not write the line `l` of slot `i` back, and the slot is as it was. -/
structure Kept (i : Nat) (l : Line) (st st' : Storage) : Prop where
  pressed : Pressed i l st.cache
  line : (st'.cache.slot i).line = some l
  lookup : ∀ s, st'.cache.lookup s = st.cache.lookup s
  content : st'.disk.content = st.disk.content
  trace : st'.disk.trace.toList = st.disk.trace.toList ++ [(⟨.write, l.sector.toNat⟩, false)]

theorem isReady_of_demoted {s s' : Slot} (h : s.Demoted s') : s'.isReady = s.isReady := by
  simp [Slot.isReady, h.pins, h.isDirty]

/-- A dirty slot has no mark to lose. -/
theorem line_of_demoted {s s' : Slot} (h : s.Demoted s') {l : Line} (hl : s.line = some l)
    (dirty : l.mark = .dirty) : s'.line = some l := by
  rcases h with rfl | rfl
  · exact hl
  · obtain ⟨sector, _, bytes⟩ := l
    cases dirty
    rw [Slot.line_mapMark, hl]
    rfl

/-- Writing back the chosen slot frees it. -/
theorem freed_of_wroteBack {st₁ : Storage} {l : Line} (wf : st.cache.WellFormed)
    (pressed : Pressed i l st.cache) (disk : st₁.disk = st.disk)
    (passed : st.cache.Passed st₁.cache) (back : WroteBack i l st₁ st')
    (trace : st'.disk.trace.toList = st₁.disk.trace.toList ++
      [(⟨.write, l.sector.toNat⟩, true)]) : Freed i l st st' := by
  refine ⟨pressed, back.wellFormed (passed.wellFormed wf), back.size.trans passed.size,
    fun s => (back.lookup s).trans (passed.lookup s), back.isIdle, fun j idle lt => ?_, ?_, ?_⟩
  · by_contra ne
    have notReady := pressed.none j (wf.mem_ring.2 lt)
    rw [← isReady_of_demoted (passed.slot j)] at notReady
    rw [back.cache, Cache.markClean, Cache.slot_modifySlot_of_ne (Ne.symm ne)] at idle
    rw [isReady_of_isIdle idle] at notReady
    cases notReady
  · rw [back.disk, disk]
  · rw [trace, disk]

/-- The chosen slot is freed, or the disk refuses its bytes. -/
theorem ends_writeBack_pressed {st₁ : Storage} {l : Line} (wf : st.cache.WellFormed)
    (pressed : Pressed i l st.cache) (disk : st₁.disk = st.disk)
    (passed : st.cache.Passed st₁.cache) :
    Ends (writeBack i) st₁ (fun _ st' => ∃ i l, Freed i l st st')
      fun e st' => (∃ cause, e = .fault (.device cause)) ∧ ∃ i l, Kept i l st st' := by
  have demoted := passed.slot i
  have line : (st₁.cache.slot i).line = some l :=
    line_of_demoted demoted pressed.line pressed.dirty
  have unused : (st₁.cache.slot i).pins = 0 := by
    rw [demoted.pins]
    exact pressed.unused
  refine (ends_writeBack_of_dirty line pressed.dirty unused).mono ?_ ?_
  · rintro _ st' ⟨-, back, trace⟩
    exact ⟨i, l, freed_of_wroteBack wf pressed disk passed back trace⟩
  · intro e st' denied
    refine ⟨denied.device, i, l, pressed, ?_, fun s => ?_, ?_, ?_⟩
    · rw [denied.cache]
      exact line
    · rw [denied.cache]
      exact passed.lookup s
    · rw [denied.content, disk]
    · rw [denied.trace, disk]

/-- If some slot is not in use, a round finds a slot or frees one, or the disk refuses the bytes of a
slot. -/
theorem ends_round (wf : st.cache.WellFormed) (free : ∃ i ∈ st.cache.ring.toList,
    (st.cache.slot i).pins = 0) :
    Ends round st
      (fun r st' => match r with
        | some i => st'.disk = st.disk ∧ st.cache.Passed st'.cache ∧
          i < st.cache.slots.size ∧ (st'.cache.slot i).isReady = true
        | none => ∃ i l, Freed i l st st')
      fun e st' => (∃ cause, e = .fault (.device cause)) ∧ ∃ i l, Kept i l st st' := by
  have pos : 0 < st.cache.slots.size := by
    obtain ⟨i, mem, -⟩ := free
    exact Nat.zero_lt_of_lt (wf.mem_ring.1 mem)
  unfold round
  refine (ends_select_chosen wf pos).bind (fun sel st₁ h₁ => ?_) fun _ _ h => h.elim
  obtain ⟨disk, chosen⟩ := h₁
  have passed := chosen.passes
  refine ends_get_bind ?_
  split
  · next ready => exact ends_pure ⟨disk, passed, wf.mem_ring.1 chosen.mem, ready⟩
  next ready =>
  rw [isReady_of_demoted (passed.slot sel.victim)] at ready
  obtain ⟨unused, dirty, notReady⟩ := (chosen.ready_or_dirty free).resolve_left ready
  obtain ⟨l, hl, mark⟩ := Slot.isDirty_iff.1 dirty
  have pressed : Pressed sel.victim l st.cache := ⟨hl, mark, unused, notReady⟩
  split
  · refine ends_note_bind fun st₂ hd hc => ?_
    exact (ends_writeBack_pressed wf pressed (hd.trans disk) (hc ▸ passed)).bind
      (fun _ _ freed => ends_pure freed) fun _ _ kept => kept
  · exact (ends_writeBack_pressed wf pressed disk passed).bind
      (fun _ _ freed => ends_pure freed) fun _ _ kept => kept

/-- The slot for a sector is found in one round, or else by the choice after it. -/
theorem vacancy_eq : vacancy = (do
    match ← round with
    | some i => return i
    | none =>
      let second ← select
      return second.victim) := by
  unfold vacancy round
  rw [bind_assoc]
  congr 1
  funext first
  rw [bind_assoc]
  congr 1
  funext st
  split
  · rfl
  · split
    · simp only [bind_assoc, pure_bind]
    · simp only [bind_assoc, pure_bind]

/-- The choice after a slot was freed is that slot. -/
theorem select_of_freed {st₀ : Storage} {l : Line} (h : Freed i l st₀ st) :
    st.cache.select.1.victim = i ∧ st.cache.Passed st.cache.select.2 := by
  have lt := Cache.lt_size_of_line h.pressed.line
  have chosen := Cache.select_chosen h.wellFormed (by rw [h.size]; omega)
  have mem : ∀ j, j ∈ st.cache.ring.toList ↔ j < st₀.cache.slots.size := fun j => by
    rw [h.wellFormed.mem_ring, h.size]
  refine ⟨chosen.eq_of_only_idle ((mem i).2 lt) h.idle fun j hj idle => ?_, chosen.passes⟩
  exact h.only j idle ((mem j).1 hj)

/-- A round that can give away the chosen slot does no more than choose. -/
theorem round_of_ready (ready : (st.cache.select.2.slot st.cache.select.1.victim).isReady = true) :
    round st = .ok (some st.cache.select.1.victim) ⟨st.disk, st.cache.select.2, st.log⟩ := by
  have run : select st = .ok st.cache.select.1 ⟨st.disk, st.cache.select.2, st.log⟩ := rfl
  unfold round
  refine run_bind run ?_
  rw [get_bind, if_pos ready]
  rfl

/-- Two rounds are enough, and more of them make no difference. -/
theorem fetchWithin_eq (wf : st.cache.WellFormed)
    (free : ∃ i ∈ st.cache.ring.toList, (st.cache.slot i).pins = 0) (sector : SectorId)
    (fill : Fill) {rounds : Nat} (enough : 2 ≤ rounds) :
    fetchWithin sector fill rounds st =
      (do
        let i ← fetch sector fill
        return some i : Action Storage (Option Nat)) st := by
  obtain ⟨rounds, rfl⟩ : ∃ more, rounds = more + 1 + 1 := ⟨rounds - 2, by omega⟩
  unfold fetchWithin
  rw [get_bind]
  cases absent : st.cache.lookup sector with
  | some i =>
    rw [bind_congr_at (fetch_of_lookup absent fill)]
    rfl
  | none =>
    rw [bind_congr_at (fetch_of_absent absent fill), claim_eq, vacancy_eq]
    simp only [bind_assoc]
    cases run : round st with
    | error e st₁ =>
      have run : round st = (throw e : Action Storage (Option Nat)) st₁ := run
      rw [bind_congr_at run, bind_congr_at run]
      rfl
    | ok found st₁ =>
      have after := (ends_round wf free).ok run
      have run : round st = (pure found : Action Storage (Option Nat)) st₁ := run
      rw [bind_congr_at run, bind_congr_at run]
      cases found with
      | some i => rfl
      | none =>
        obtain ⟨i, l, freed⟩ := after
        obtain ⟨victim, passed⟩ := select_of_freed freed
        have ready : (st₁.cache.select.2.slot st₁.cache.select.1.victim).isReady = true := by
          rw [victim, isReady_of_demoted (passed.slot i)]
          exact isReady_of_isIdle freed.idle
        have second : round st₁ = (pure (some st₁.cache.select.1.victim) : Action Storage _)
          ⟨st₁.disk, st₁.cache.select.2, st₁.log⟩ := round_of_ready ready
        have chosen : select st₁ = (pure st₁.cache.select.1 : Action Storage _)
          ⟨st₁.disk, st₁.cache.select.2, st₁.log⟩ := rfl
        rw [← freed.lookup] at absent
        simp only [pure_bind, fetchWithin, bind_assoc]
        rw [get_bind, absent, bind_congr_at chosen]
        exact bind_congr_at second _

end Storage

end SectorVolume
