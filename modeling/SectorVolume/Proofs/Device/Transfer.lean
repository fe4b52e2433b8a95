import SectorVolume.Device.Disk
import SectorVolume.Proofs.Ends

/-!
# Transfers

A transfer that fails leaves the content of the disk as it was, and is counted among the failures.
A disk that works for its first `n` sectors lets no transfer with one of them fail, and goes on
working for them.
-/

namespace SectorVolume

namespace FaultRule

/-- A rule that lets nothing fail. -/
def Silent (r : FaultRule) : Prop := ∀ k, r.fails k = false

theorem consult_silent (t : Transfer) {rules : List FaultRule} (h : ∀ r ∈ rules, r.Silent) :
    (consult t rules).1 = false ∧ ∀ r ∈ (consult t rules).2, r.Silent := by
  induction rules with
  | nil => exact ⟨rfl, h⟩
  | cons rule rules ih =>
    have head : rule.Silent := h rule List.mem_cons_self
    obtain ⟨ok, rest⟩ := ih fun r hr => h r (List.mem_cons_of_mem _ hr)
    unfold consult
    split
    · rw [if_neg (by rw [head]; decide)]
      refine ⟨ok, fun r hr => ?_⟩
      rcases List.mem_cons.1 hr with rfl | hr
      · exact head
      · exact rest r hr
    · refine ⟨ok, fun r hr => ?_⟩
      rcases List.mem_cons.1 hr with rfl | hr
      · exact head
      · exact rest r hr

end FaultRule

namespace Disk

open SectorVolume.Action

/-- The number of transfers that failed so far. -/
def failures (d : Disk) : Nat := d.trace.countP fun entry => !entry.2

/-- The disk with the fault plan that lets just one write fail, the `n`-th one counted from zero. -/
def failingWrite (d : Disk) (n : Nat) : Disk :=
  { d with plan := [⟨fun t => t.direction = .write, (· == n), 0⟩] }

/-- The disk has `n` sectors, its fault plan lets no transfer fail, and none has failed so far. -/
structure Working (n : Nat) (d : Disk) : Prop where
  silent : ∀ r ∈ d.plan, r.Silent
  room : n ≤ d.sectorCount
  clean : d.failures = 0

/-- No sector of a 32-bit number is beyond what 64 bits address, no sector that the disk has is
refused, and no other can be read. -/
theorem refusal_eq_ok (d : Disk) (t : Transfer) (ht : t.sector < wordRange32) :
    ∃ cause, d.refusal t = .ok cause ∧ (t.sector < d.sectorCount → cause = none) ∧
      (cause = none → t.direction = .read → t.sector < d.sectorCount) := by
  have e₁ : wordRange32 = 2 ^ 32 := rfl
  have e₂ : wordRange64 = 2 ^ 64 := rfl
  have e₃ : sectorSize = 512 := rfl
  have there : d.holds t.sector = true ↔ t.sector < d.sectorCount := decide_eq_true_iff
  unfold refusal
  cases d.kind with
  | memory =>
    refine ⟨_, rfl, fun h => if_pos (there.2 h), fun granted _ => ?_⟩
    split at granted
    · next h => exact there.1 h
    · cases granted
  | file =>
    simp only
    rw [if_neg (by rw [e₃]; omega), if_neg (by rw [e₃]; omega)]
    split
    · next h => exact ⟨_, rfl, fun h' => absurd (there.2 h') h.2, nofun⟩
    · next h =>
      exact ⟨_, rfl, fun _ => rfl, fun _ reads =>
        there.1 (Decidable.byContradiction fun absent => h ⟨reads, absent⟩)⟩

theorem ends_grant (t : Transfer) (d : Disk) (ht : t.sector < wordRange32) :
    Ends (grant t) d
      (fun cause d' => d'.content = d.content ∧
        d'.failures = d.failures + (if cause.isSome then 1 else 0) ∧
        (cause = none → t.direction = .read → t.sector < d.sectorCount) ∧
        ∀ n, t.sector < n → d.Working n → d'.Working n ∧ cause = none)
      fun _ _ => False := by
  obtain ⟨kind, content, plan, trace, reads, writes⟩ := d
  have silent := fun h : ∀ r ∈ plan, r.Silent => FaultRule.consult_silent t h
  unfold Ends grant
  simp only
  generalize FaultRule.consult t plan = r at silent ⊢
  obtain ⟨failed, plan'⟩ := r
  cases failed with
  | true =>
    refine ⟨rfl, Array.countP_push, nofun, fun n _ hw => ?_⟩
    have := (silent hw.silent).1
    cases this
  | false =>
    obtain ⟨cause, e, there, held⟩ :=
      refusal_eq_ok ⟨kind, content, plan', trace, reads, writes⟩ t ht
    simp only [Bool.false_eq_true, if_false, e]
    refine ⟨trivial, Array.countP_push.trans ?_, held, fun n hn hw => ?_⟩
    · cases cause <;> rfl
    · obtain rfl := there (Nat.lt_of_lt_of_le hn hw.room)
      exact ⟨⟨(silent hw.silent).2, hw.room, Array.countP_push.trans hw.clean⟩, rfl⟩

theorem ends_read (n : Nat) (d : Disk) (hn : n < wordRange32) :
    Ends (read n) d
      (fun r d' => d'.content = d.content ∧
        (∀ b, r = .ok b → b = d.sector n ∧ n < d.sectorCount) ∧ d.failures ≤ d'.failures ∧
        (∀ cause, r = .error cause → d.failures < d'.failures) ∧
        ∀ m, n < m → d.Working m → d'.Working m ∧ ∀ cause, r ≠ .error cause)
      fun _ _ => False := by
  refine (ends_grant ⟨.read, n⟩ d hn).bind (fun cause d' h => ?_) fun _ _ h => h
  obtain ⟨hc, hf, held, hw⟩ := h
  cases cause with
  | some cause =>
    refine ends_pure ⟨hc, (fun b h => nomatch h), hf ▸ Nat.le_succ _,
      fun _ _ => hf ▸ Nat.lt_succ_self _, fun m hm h => ?_⟩
    exact absurd (hw m hm h).2 nofun
  | none =>
    refine ends_modifyGet ⟨hc, fun b h => ?_, Nat.le_of_eq hf.symm, (fun _ h => nomatch h),
      fun m hm h => ⟨?_, fun _ h => nomatch h⟩⟩
    · cases h
      exact ⟨by simp only [sector, hc], held rfl rfl⟩
    · have works := (hw m hm h).1
      exact ⟨works.silent, works.room, works.clean⟩

theorem length_put_le (c : Content) (n : Nat) (s : Sector) :
    c.length ≤ (c.put n s).length := Nat.le_max_left ..

theorem ends_write (n : Nat) (s : Sector) (d : Disk) (hn : n < wordRange32) :
    Ends (write n s) d
      (fun r d' => (d'.content = match r with | .ok _ => d.content.put n s | .error _ => d.content) ∧
        d.failures ≤ d'.failures ∧ (∀ cause, r = .error cause → d.failures < d'.failures) ∧
        ∀ m, n < m → d.Working m → d'.Working m ∧ ∀ cause, r ≠ .error cause)
      fun _ _ => False := by
  refine (ends_grant ⟨.write, n⟩ d hn).bind (fun cause d' h => ?_) fun _ _ h => h
  obtain ⟨hc, hf, -, hw⟩ := h
  cases cause with
  | some cause =>
    refine ends_pure ⟨hc, hf ▸ Nat.le_succ _, fun _ _ => hf ▸ Nat.lt_succ_self _,
      fun m hm h => ?_⟩
    exact absurd (hw m hm h).2 nofun
  | none =>
    obtain ⟨kind, content, plan, trace, reads, writes⟩ := d'
    refine ends_modifyGet ⟨by show Content.put content n s = _; rw [← hc], Nat.le_of_eq hf.symm,
      (fun _ h => nomatch h), fun m hm h => ⟨?_, fun _ h => nomatch h⟩⟩
    have works := (hw m hm h).1
    refine ⟨works.silent, Nat.le_trans works.room ?_, works.clean⟩
    exact Nat.div_le_div_right (length_put_le content n s)

/-! ## The trace -/

/-- Every transfer is noted, with whether it took place. -/
theorem ends_grant_trace (t : Transfer) (d : Disk) (ht : t.sector < wordRange32) :
    Ends (grant t) d (fun cause d' => d'.trace = d.trace.push (t, cause.isNone))
      fun _ _ => False := by
  obtain ⟨kind, content, plan, trace, reads, writes⟩ := d
  unfold Ends grant
  simp only
  generalize FaultRule.consult t plan = r
  obtain ⟨failed, plan'⟩ := r
  cases failed with
  | true => rfl
  | false =>
    obtain ⟨cause, e, -⟩ := refusal_eq_ok ⟨kind, content, plan', trace, reads, writes⟩ t ht
    simp only [Bool.false_eq_true, if_false, e]

theorem ends_read_trace (n : Nat) (d : Disk) (hn : n < wordRange32) :
    Ends (read n) d (fun r d' => d'.trace = d.trace.push (⟨.read, n⟩, r.isOk))
      fun _ _ => False := by
  refine (ends_grant_trace ⟨.read, n⟩ d hn).bind (fun cause d' h => ?_) fun _ _ h => h
  cases cause with
  | some cause => exact ends_pure h
  | none => exact ends_modifyGet h

theorem ends_write_trace (n : Nat) (s : Sector) (d : Disk) (hn : n < wordRange32) :
    Ends (write n s) d (fun r d' => d'.trace = d.trace.push (⟨.write, n⟩, r.isOk))
      fun _ _ => False := by
  refine (ends_grant_trace ⟨.write, n⟩ d hn).bind (fun cause d' h => ?_) fun _ _ h => h
  cases cause with
  | some cause => exact ends_pure h
  | none => exact ends_modifyGet h

/-! ## Sectors -/

theorem sector_of_content {d d' : Disk} (h : d'.content = d.content) (n : Nat) :
    d'.sector n = d.sector n := by
  unfold sector
  rw [h]

theorem sector_of_put {d d' : Disk} {n : Nat} {s : Sector} (h : d'.content = d.content.put n s)
    (m : Nat) : d'.sector m = if m = n then s else d.sector m := by
  unfold sector
  rw [h]
  split
  · next e => rw [e, Content.sector_put_self]
  · next e => rw [Content.sector_put_of_ne _ _ e]

end Disk

end SectorVolume
