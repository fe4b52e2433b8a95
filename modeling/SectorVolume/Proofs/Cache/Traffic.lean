import SectorVolume.Proofs.Cache.Policy
import SectorVolume.Proofs.Cache.Replacing

/-!
# The transfers of a replacement

What writing a slot back and filling one do to the cache, together with the transfers that are noted
in the trace of the disk. A dirty slot is written with the bytes that it has, and stays as it is if
the disk refuses them. A slot is filled by at most one transfer, the reading of the sector that gets
it; if that fails the slot stays empty.
-/

namespace SectorVolume

namespace Storage

open SectorVolume.Action

variable {st st' st'' : Storage} {i : Nat}

/-! ## Writing back -/

/-- The disk refused the bytes of the line `l`, and nothing else happened. -/
structure Denied (l : Line) (st st' : Storage) (e : Failure) : Prop where
  device : ∃ cause, e = .fault (.device cause)
  cache : st'.cache = st.cache
  content : st'.disk.content = st.disk.content
  trace : st'.disk.trace.toList = st.disk.trace.toList ++ [(⟨.write, l.sector.toNat⟩, false)]
  idle : ∀ m, l.sector.toNat < m → ¬ st.disk.Working m

/-- A dirty slot that nobody uses is written back with one transfer. -/
theorem ends_writeBack_of_dirty {l : Line} (hl : (st.cache.slot i).line = some l)
    (dirty : l.mark = .dirty) (unused : (st.cache.slot i).pins = 0) :
    Ends (writeBack i) st
      (fun b st' => b = true ∧ WroteBack i l st st' ∧
        st'.disk.trace.toList = st.disk.trace.toList ++ [(⟨.write, l.sector.toNat⟩, true)])
      fun e st' => Denied l st st' e := by
  obtain ⟨sector, _, bytes⟩ := l
  cases dirty
  unfold writeBack
  refine ends_get_bind ?_
  simp only
  rw [if_neg (by simpa using unused), hl]
  have writing := (Disk.ends_write _ bytes st.disk sector.toNat_lt).and
    (Disk.ends_write_trace _ bytes st.disk sector.toNat_lt)
  refine (ends_onDisk writing).bind ?_ fun _ _ h => h.1.1.elim
  rintro (cause | _) st₁ ⟨⟨⟨hd, mono, more, hw⟩, trace⟩, hc⟩
  · refine ends_note_bind fun st₂ hd₂ hc₂ => ends_throw ⟨⟨cause, rfl⟩, hc₂.trans hc, ?_, ?_, ?_⟩
    · rw [hd₂]
      exact hd
    · rw [hd₂, trace]
      simp [Except.isOk, Except.toBool]
    · intro m hm works
      exact (hw m hm works).2 cause rfl
  · refine ends_onCache_bind fun st₂ hd₂ hc₂ => ends_note_bind fun st₃ hd₃ hc₃ => ends_pure ?_
    have hd₃ : st₃.disk = st₁.disk := hd₃.trans hd₂
    refine ⟨rfl, ⟨hl, rfl, unused, ?_, ?_, ?_, ?_⟩, ?_⟩
    · rw [hd₃]
      exact hd
    · rw [hc₃, hc₂, hc]
    · rw [hd₃]
      exact mono
    · intro m hm works
      rw [hd₃]
      exact (hw m hm works).1
    · rw [hd₃, trace]
      simp [Except.isOk, Except.toBool]

/-! ## Filling a slot -/

/-- Empties a slot that can be given away and gives it to a sector. -/
def install (sector : SectorId) (fill : Fill) (i : Nat) : Action Storage Nat := do
  match ((← get).cache.slot i).line with
  | some old => onCache (·.vacate i); note (.evicted old.sector i)
  | none => pure ()
  match ← firstLine sector fill with
  | .ok line =>
    onCache (·.bind i line)
    note (.loaded sector i)
    return i
  | .error cause =>
    note (.loadFailed sector cause)
    Action.fail (.device cause)

theorem claim_eq (sector : SectorId) (fill : Fill) :
    claim sector fill = vacancy >>= install sector fill := rfl

/-- The transfers by which a line gets its first bytes. -/
def Fill.transfers (sector : SectorId) : Fill → List (Transfer × Bool)
  | .disk => [(⟨.read, sector.toNat⟩, true)]
  | _ => []

theorem ends_firstLine_trace (st : Storage) (sector : SectorId) (fill : Fill) :
    Ends (firstLine sector fill) st
      (fun r st' => st'.cache = st.cache ∧ st'.disk.content = st.disk.content ∧
        ((∃ cause, r = .error cause) ∧ fill = .disk ∧
            st'.disk.trace.toList = st.disk.trace.toList ++ [(⟨.read, sector.toNat⟩, false)] ∨
          r = .ok (fill.line sector st'.disk) ∧
            st'.disk.trace.toList = st.disk.trace.toList ++ fill.transfers sector))
      fun _ _ => False := by
  cases fill with
  | disk =>
    have reading := (Disk.ends_read _ st.disk sector.toNat_lt).and
      (Disk.ends_read_trace _ st.disk sector.toNat_lt)
    refine (ends_onDisk reading).bind ?_ fun _ _ h => h.1.1.elim
    rintro (cause | b) st₁ ⟨⟨⟨hd, hb, -⟩, trace⟩, hc⟩
    · refine ends_pure ⟨hc, hd, .inl ⟨⟨cause, rfl⟩, rfl, ?_⟩⟩
      rw [trace]
      simp [Except.isOk, Except.toBool]
    · refine ends_pure ⟨hc, hd, .inr ⟨?_, ?_⟩⟩
      · rw [(hb b rfl).1, Fill.line, Disk.sector_of_content hd]
      · rw [trace]
        simp [Except.isOk, Except.toBool, Fill.transfers]
  | blank => exact ends_pure ⟨rfl, rfl, .inr ⟨rfl, by simp [Fill.transfers]⟩⟩
  | bytes b => exact ends_pure ⟨rfl, rfl, .inr ⟨rfl, by simp [Fill.transfers]⟩⟩

/-- Slot `i` has the sector now. -/
structure Installed (sector : SectorId) (fill : Fill) (i : Nat) (st st' : Storage) : Prop where
  cache : st'.cache = (st.cache.vacate i).bind i (fill.line sector st'.disk)
  content : st'.disk.content = st.disk.content
  trace : st'.disk.trace.toList = st.disk.trace.toList ++ fill.transfers sector

/-- The sector could not be read, and slot `i` is empty now. -/
structure Failed (sector : SectorId) (i : Nat) (st st' : Storage) (e : Failure) : Prop where
  device : ∃ cause, e = .fault (.device cause)
  cache : st'.cache = st.cache.vacate i
  content : st'.disk.content = st.disk.content
  trace : st'.disk.trace.toList = st.disk.trace.toList ++ [(⟨.read, sector.toNat⟩, false)]

theorem ends_install (st : Storage) (sector : SectorId) (fill : Fill) (i : Nat) :
    Ends (install sector fill i) st (fun j st' => j = i ∧ Installed sector fill i st st')
      fun e st' => fill = .disk ∧ Failed sector i st st' e := by
  unfold install
  refine ends_get_bind ?_
  extract_lets load
  have rest : ∀ st₂, st₂.disk = st.disk → st₂.cache = st.cache.vacate i →
      Ends (load ⟨⟩) st₂ (fun j st' => j = i ∧ Installed sector fill i st st')
        fun e st' => fill = .disk ∧ Failed sector i st st' e := by
    intro st₂ hd hc
    refine (ends_firstLine_trace st₂ sector fill).bind (fun r st₃ h₃ => ?_) fun _ _ h => h.elim
    rw [hc, hd] at h₃
    obtain ⟨hc₃, content, ⟨⟨cause, rfl⟩, disk, trace⟩ | ⟨rfl, trace⟩⟩ := h₃
    · refine ends_note_bind fun st₄ hd₄ hc₄ => ends_throw ⟨disk, ⟨cause, rfl⟩, hc₄.trans hc₃, ?_, ?_⟩
      · rw [hd₄, content]
      · rw [hd₄, trace]
    · refine ends_onCache_bind fun st₄ hd₄ hc₄ => ends_note_bind fun st₅ hd₅ hc₅ => ends_pure ?_
      have hd₅ : st₅.disk = st₃.disk := hd₅.trans hd₄
      refine ⟨rfl, ?_, ?_, ?_⟩
      · rw [hc₅, hc₄, hc₃, hd₅]
      · rw [hd₅, content]
      · rw [hd₅, trace]
  split
  · exact ends_onCache_bind fun st₂ hd hc => ends_note_bind fun st₃ hd₃ hc₃ =>
      rest st₃ (hd₃.trans hd) (hc₃.trans hc)
  · next e => exact rest st rfl (Cache.vacate_eq_self e).symm

/-! ## Choosing a slot -/

/-- The hand moves and chooses, and no transfer takes place. -/
theorem ends_select_chosen (wf : st.cache.WellFormed) (pos : 0 < st.cache.slots.size) :
    Ends select st (fun sel st' => st'.disk = st.disk ∧ st.cache.Chosen st'.cache sel)
      fun _ _ => False := by
  have chosen := Cache.select_chosen wf pos
  have run : select st = .ok st.cache.select.1 ⟨st.disk, st.cache.select.2, st.log⟩ := rfl
  exact ends_of_ok run ⟨rfl, chosen⟩

end Storage

end SectorVolume
