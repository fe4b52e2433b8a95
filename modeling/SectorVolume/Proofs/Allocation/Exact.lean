import SectorVolume.Proofs.Allocation.Clear
import SectorVolume.Proofs.Cache.Intact

/-!
# What an allocation takes

An allocation of `count` sectors takes those of the first `count` clear bits, or none: if there are
fewer, or a transfer fails, it gives back what it has. Only sectors that cannot be given back are
lost, and for each of them a transfer failed. A number of sectors whose ids cannot be listed at all
is not even tried.
-/

namespace SectorVolume

namespace FreeMap

open SectorVolume.Action Storage

variable {m : FreeMap} {w : Prop} {n : Nat} {st₀ st st' : Storage} {ids : List SectorId}

/-- The sectors of the first clear bits were taken, in order. -/
structure Handed (m : FreeMap) (L L' : SectorId → Sector) (ids : List SectorId) : Prop where
  first : m.clear L = ids.map (·.toNat) ++ m.clear L'
  others : ∀ s, ¬ m.Holds s → L' s = L s

/-- An allocation of `count` sectors ended with the fault `c`, and the bits of `lost` stay set
although they were clear. -/
structure Denied (m : FreeMap) (count : Nat) (st st' : Storage) (c : Fault) (lost : List SectorId) :
    Prop where
  nodup : lost.Nodup
  clear : ∀ id ∈ lost, id.toNat ∈ m.clear st.logical
  clears : m.Clears st.logical st'.logical fun k =>
    k ∈ m.clear st.logical ∧ ∀ id ∈ lost, k ≠ id.toNat
  reason :
    (c = .exhausted count ∧ (m.clear st.logical).length < count ∧
        st.disk.failures + lost.length ≤ st'.disk.failures ∧
        (lost = [] → st'.disk.failures = st.disk.failures)) ∨
      (∃ cause, c = .device cause) ∧ st.disk.failures + lost.length < st'.disk.failures

theorem Handed.refl {L : SectorId → Sector} : m.Handed L L [] := ⟨rfl, fun _ _ => rfl⟩

/-- One more sector is taken. Its number is the position of its bit. -/
theorem Handed.more {L L' L'' : SectorId → Sector} {id : SectorId} {k : Nat}
    (h : m.Handed L L' ids) (h' : m.TookFirst L' L'' id k) (small : k < wordRange32) :
    m.Handed L L'' (ids ++ [id]) := by
  have number : id.toNat = k := by
    rw [h'.id]
    exact UInt32.toNat_ofNat_of_lt' small
  refine ⟨?_, fun s hs => (h'.others s hs).trans (h.others s hs)⟩
  rw [h.first, h'.first]
  simp [number]

theorem Handed.nodup {L L' : SectorId → Sector} (h : m.Handed L L' ids) : ids.Nodup := by
  have all := nodup_clear (m := m) (L := L)
  rw [h.first] at all
  exact all.of_append_left.of_map _

theorem Handed.mem_clear {L L' : SectorId → Sector} (h : m.Handed L L' ids) {id : SectorId}
    (hid : id ∈ ids) : id.toNat ∈ m.clear L := by
  rw [h.first]
  exact List.mem_append_left _ (List.mem_map_of_mem hid)

theorem Handed.marked {L L' : SectorId → Sector} (h : m.Handed L L' ids) {id : SectorId}
    (hid : id ∈ ids) : m.Marked L' id.toNat := by
  refine marked_of_not_mem (FreeMap.mem_clear.1 (h.mem_clear hid)).1 fun clear => ?_
  have all := nodup_clear (m := m) (L := L)
  rw [h.first] at all
  exact List.disjoint_of_nodup_append all (List.mem_map_of_mem hid) clear

/-! ## Giving back what was taken -/

/-- Sectors that cannot be given back stay taken. For each of them a transfer failed. -/
theorem meets_rollBack (hp : m.Stands n) (h : st.Good w n []) (nodup : ids.Nodup)
    (marked : ∀ id ∈ ids, m.Marked st.logical id.toNat) {f : Fault → Storage → Prop} :
    Meets (m.rollBack ids) st
      (fun _ st' => st'.Good w n [] ∧ ∃ lost, lost.Sublist ids ∧
        st.disk.failures + lost.length ≤ st'.disk.failures ∧
        (lost = [] → st'.disk.failures = st.disk.failures) ∧
        m.Clears st.logical st'.logical fun k =>
          k ∈ m.clear st.logical ∨ ∃ id ∈ ids, id ∉ lost ∧ k = id.toNat) f := by
  induction ids generalizing st with
  | nil =>
    exact meets_pure ⟨h, [], .slnil, Nat.le_refl _, fun _ => rfl, by simpa using Clears.refl⟩
  | cons id rest ih =>
    obtain ⟨fresh, nodup'⟩ := List.nodup_cons.1 nodup
    have apart : ∀ id' ∈ rest, id'.toNat ≠ id.toNat := fun id' hid' e =>
      fresh (UInt32.toNat_inj.1 e ▸ hid')
    unfold rollBack
    refine Meets.bind (d := fun r st₁ => st₁.Good w n [] ∧ match r with
        | .ok _ => st₁.disk.failures = st.disk.failures ∧
          m.Clears st.logical st₁.logical fun k => k ∈ m.clear st.logical ∨ k = id.toNat
        | .error _ => st.disk.failures < st₁.disk.failures ∧ st₁.logical = st.logical) (f := f)
      ((meets_giveBack hp h (marked id List.mem_cons_self)).attempt
        (fun _ st₁ h₁ => ⟨h₁.2.1, h₁.1, h₁.2.2⟩)
        fun c st₁ h₁ => ⟨h₁.2.2.2.good, h₁.2.2.1, h₁.2.2.2.logical⟩) (fun r st₁ h₁ => ?_)
      fun _ _ h => h
    obtain ⟨good, h₁⟩ := h₁
    cases r with
    | ok =>
      obtain ⟨clean, clears⟩ := h₁
      refine (ih good nodup' fun id' hid' => ?_).mono (fun _ st₂ h₂ => ?_) fun _ _ h => h
      · have before := marked id' (List.mem_cons_of_mem _ hid')
        refine marked_of_not_mem before.1 fun clear => ?_
        rcases (clears.clear _).1 clear with clear | e
        · exact before.not_mem_clear clear
        · exact apart id' hid' e
      · obtain ⟨good₂, lost, sub, less, none, clears₂⟩ := h₂
        have notin : id ∉ lost := fun hid => fresh (sub.subset hid)
        refine ⟨good₂, lost, sub.cons id, by omega, fun e => (none e).trans clean,
          (clears.trans clears₂).congr fun k => ?_⟩
        simp only [clears.clear, List.mem_cons, exists_eq_or_imp, notin, not_false_eq_true,
          true_and, or_assoc]
    | error c =>
      obtain ⟨failed, e⟩ := h₁
      refine (meets_note good _).bind (fun _ st₂ same => ?_) fun _ _ h => h
      have le := same.failures
      have logical : st₂.logical = st.logical := same.logical.trans e
      refine (ih same.good nodup' fun id' hid' => ?_).mono (fun _ st₃ h₃ => ?_) fun _ _ h => h
      · rw [logical]
        exact marked id' (List.mem_cons_of_mem _ hid')
      · obtain ⟨good₃, lost, sub, less, none, clears⟩ := h₃
        rw [logical] at clears
        refine ⟨good₃, id :: lost, sub.cons_cons id, ?_, nofun, clears.congr fun k => ?_⟩
        · rw [List.length_cons]
          omega
        · refine or_congr_right ⟨?_, ?_⟩
          · rintro ⟨id', hid', notin, rfl⟩
            refine ⟨id', List.mem_cons_of_mem _ hid', fun hmem => ?_, rfl⟩
            rcases List.mem_cons.1 hmem with rfl | hmem
            · exact fresh hid'
            · exact notin hmem
          · rintro ⟨id', hid', notin, rfl⟩
            have ne : id' ≠ id := fun e => notin (e ▸ List.mem_cons_self)
            exact ⟨id', (List.mem_cons.1 hid').resolve_left ne,
              fun hmem => notin (List.mem_cons_of_mem _ hmem), rfl⟩

/-- What was taken from `st₀` on is given back. -/
theorem Handed.meets_undo (took : m.Handed st₀.logical st.logical ids) (hp : m.Stands n)
    (h : st.Good w n []) {f : Fault → Storage → Prop} :
    Meets (m.rollBack ids) st
      (fun _ st' => st'.Good w n [] ∧ ∃ lost : List SectorId, lost.Nodup ∧
        (∀ id ∈ lost, id.toNat ∈ m.clear st₀.logical) ∧
        st.disk.failures + lost.length ≤ st'.disk.failures ∧
        (lost = [] → st'.disk.failures = st.disk.failures) ∧
        m.Clears st₀.logical st'.logical fun k =>
          k ∈ m.clear st₀.logical ∧ ∀ id ∈ lost, k ≠ id.toNat) f := by
  refine (meets_rollBack hp h took.nodup fun id hid => took.marked hid).mono (fun _ st₁ h₁ => ?_)
    fun _ _ h => h
  obtain ⟨good, lost, sub, less, none, clears⟩ := h₁
  refine ⟨good, lost, took.nodup.sublist sub, fun id hid => took.mem_clear (sub.subset hid), less,
    none, fun k => ?_, fun s hs => (clears.others s hs).trans (took.others s hs)⟩
  rw [clears.clear, took.first, List.mem_append, List.mem_map]
  constructor
  · rintro (clear | ⟨id, hid, notin, rfl⟩)
    · refine ⟨.inr clear, ?_⟩
      rintro id hid rfl
      exact (took.marked (sub.subset hid)).not_mem_clear clear
    · refine ⟨.inl ⟨id, hid, rfl⟩, fun id' hid' e => notin ?_⟩
      rwa [UInt32.toNat_inj.1 e]
  · rintro ⟨⟨id, hid, rfl⟩ | clear, apart⟩
    · exact .inr ⟨id, hid, fun hmem => apart id hmem rfl, rfl⟩
    · exact .inl clear

/-! ## Allocations -/

/-- As long as no transfer fails the sectors of the first clear bits are taken one by one. What was
taken is given back if there is not enough. -/
theorem meets_takeMore (hp : m.Stands n) (requested : Nat) (taken : List SectorId) (missing : Nat)
    (all : taken.length + missing = requested) (h : st.Good w n [])
    (named : ∀ k ∈ m.clear st₀.logical, k < wordRange32)
    (took : m.Handed st₀.logical st.logical taken.reverse)
    (clean : st.disk.failures = st₀.disk.failures) :
    Meets (m.takeMore requested taken missing) st
      (fun ids st' => st'.Good w n [] ∧ st'.disk.failures = st₀.disk.failures ∧
        ids.length = requested ∧ m.Handed st₀.logical st'.logical ids)
      fun c st' => st'.Good w n [] ∧ ∃ lost, m.Denied requested st₀ st' c lost := by
  induction missing generalizing taken st with
  | zero => exact meets_pure ⟨h, clean, by rw [List.length_reverse]; exact all, took⟩
  | succ missing ih =>
    unfold takeMore
    refine Meets.bind (d := fun r st₁ => st₁.Good w n [] ∧ match r with
      | .ok none => st₁.disk.failures = st₀.disk.failures ∧ m.clear st₁.logical = [] ∧
        m.Handed st₀.logical st₁.logical taken.reverse
      | .ok (some id) => st₁.disk.failures = st₀.disk.failures ∧
        m.Handed st₀.logical st₁.logical (id :: taken).reverse
      | .error c => (∃ cause, c = .device cause) ∧ st₀.disk.failures < st₁.disk.failures ∧
        m.Handed st₀.logical st₁.logical taken.reverse)
      ((meets_takeOne hp h).attempt (fun r st₁ h₁ => ?_) fun c st₁ h₁ => ?_) (fun r st₁ h₁ => ?_)
      fun _ _ h => h
    · obtain ⟨failures, good, h₁⟩ := h₁
      refine ⟨good, ?_⟩
      cases r with
      | none =>
        rw [← h₁.1] at took h₁
        exact ⟨failures.trans clean, h₁.2, took⟩
      | some id =>
        obtain ⟨k, first⟩ := h₁
        have there : k ∈ m.clear st₀.logical := by
          rw [took.first, first.first]
          exact List.mem_append_right _ List.mem_cons_self
        refine ⟨failures.trans clean, ?_⟩
        rw [List.reverse_cons]
        exact took.more first (named k there)
    · obtain ⟨device, -, failed, same⟩ := h₁
      rw [← same.logical] at took
      exact ⟨same.good, device, clean ▸ failed, took⟩
    · obtain ⟨good, h₁⟩ := h₁
      match r with
      | .ok none =>
        obtain ⟨failures, nothing, took⟩ := h₁
        refine (took.meets_undo hp good).bind (fun _ st₂ h₂ => meets_fail ?_) fun _ _ h => h
        obtain ⟨good₂, lost, nodup, clear, less, none, clears⟩ := h₂
        have short : (m.clear st₀.logical).length < requested := by
          rw [took.first, nothing]
          simp
          omega
        exact ⟨good₂, lost, nodup, clear, clears,
          .inl ⟨rfl, short, failures ▸ less, fun e => (none e).trans failures⟩⟩
      | .error c =>
        obtain ⟨device, failed, took⟩ := h₁
        refine (took.meets_undo hp good).bind (fun _ st₂ h₂ => meets_fail ?_) fun _ _ h => h
        obtain ⟨good₂, lost, nodup, clear, less, -, clears⟩ := h₂
        exact ⟨good₂, lost, nodup, clear, clears, .inr ⟨device, by omega⟩⟩
      | .ok (some id) =>
        obtain ⟨failures, took⟩ := h₁
        exact ih (id :: taken) (by rw [List.length_cons]; omega) good took failures

/-- The ids of `count` sectors fit into memory. -/
def Listable (count : Nat) : Prop := idFootprint * count < wordRange64 / 2

instance (count : Nat) : Decidable (Listable count) := inferInstanceAs (Decidable (_ < _))

theorem listable_of_le {count : Nat} (h : count ≤ wordRange32) : Listable count := by
  have words : wordRange32 = 2 ^ 32 ∧ wordRange64 = 2 ^ 64 := ⟨rfl, rfl⟩
  unfold Listable idFootprint
  omega

theorem allocate_eq {count : Nat} (listable : Listable count) :
    m.allocate count = m.takeMore count [] count := by
  unfold allocate
  exact if_neg (Nat.not_le.2 listable)

/-- A list beyond all memory is not begun. -/
theorem allocate_of_not_listable {count : Nat} (h : ¬ Listable count) :
    m.allocate count st = .error (.violation .tooManyIds) st := by
  unfold allocate
  rw [if_pos (Nat.not_lt.1 h)]
  rfl

theorem meets_allocate (hp : m.Stands n) (h : st.Good w n [])
    (named : ∀ k ∈ m.clear st.logical, k < wordRange32) {count : Nat} (listable : Listable count) :
    Meets (m.allocate count) st
      (fun ids st' => st'.Good w n [] ∧ st'.disk.failures = st.disk.failures ∧
        ids.length = count ∧ m.Handed st.logical st'.logical ids)
      fun c st' => st'.Good w n [] ∧ ∃ lost, m.Denied count st st' c lost := by
  rw [allocate_eq listable]
  exact meets_takeMore hp count [] count (by simp) h named .refl rfl

/-- Whatever the number is: a list that is beyond all memory is not begun. -/
theorem ends_allocate (hp : m.Stands n) (h : st.Good w n [])
    (named : ∀ k ∈ m.clear st.logical, k < wordRange32) (count : Nat) :
    Ends (m.allocate count) st
      (fun ids st' => st'.Good w n [] ∧ st'.disk.failures = st.disk.failures ∧
        ids.length = count ∧ m.Handed st.logical st'.logical ids)
      fun e st' =>
        (Listable count ∧ ∃ c, e = .fault c ∧ st'.Good w n [] ∧
          ∃ lost, m.Denied count st st' c lost) ∨
        ¬ Listable count ∧ e = .violation .tooManyIds ∧ st' = st := by
  by_cases listable : Listable count
  · exact (meets_allocate hp h named listable).ends.mono (fun _ _ h => h)
      fun _ _ h => .inl ⟨listable, h⟩
  · exact ends_of_error (allocate_of_not_listable listable) (.inr ⟨listable, rfl, rfl⟩)

/-! ## All or nothing -/

namespace Denied

variable {lost : List SectorId} {count : Nat} {c : Fault}

theorem failures_le (h : m.Denied count st st' c lost) : st.disk.failures ≤ st'.disk.failures := by
  rcases h.reason with ⟨-, -, less, -⟩ | ⟨-, less⟩ <;> omega

theorem lost_eq_nil (h : m.Denied count st st' c lost)
    (clean : st'.disk.failures = st.disk.failures) : lost = [] := by
  refine List.length_eq_zero_iff.1 ?_
  rcases h.reason with ⟨-, -, less, -⟩ | ⟨-, less⟩ <;> omega

/-- Without losses the same bits are clear. -/
theorem mem_clear_iff (h : m.Denied count st st' c []) (k : Nat) :
    k ∈ m.clear st'.logical ↔ k ∈ m.clear st.logical := by
  rw [h.clears.clear]
  exact and_iff_left nofun

theorem clear_eq (h : m.Denied count st st' c []) : m.clear st'.logical = m.clear st.logical :=
  FreeMap.clear_eq pairwise_clear h.mem_clear_iff

/-- A single sector that is lost is missing among the clear bits. -/
theorem clear_eq_erase {id : SectorId} (h : m.Denied count st st' c [id]) :
    m.clear st'.logical = (m.clear st.logical).erase id.toNat := by
  refine FreeMap.clear_eq (pairwise_clear.sublist List.erase_sublist) fun k => ?_
  rw [h.clears.clear, nodup_clear.mem_erase_iff, List.forall_mem_singleton, and_comm]

end Denied

/-- An allocation that fails, with at most one failed transfer, leaves the bits as they were. Only
if it fails for want of sectors, and the one transfer fails while it gives back what it had taken,
one of these is lost. -/
theorem all_or_nothing (hp : m.Stands wordRange32) (h : st.Intact)
    (named : ∀ k ∈ m.clear st.logical, k < wordRange32) {count : Nat} {e : Failure}
    (run : m.allocate count st = .error e st')
    (one : st'.disk.failures ≤ st.disk.failures + 1) :
    (¬ (e = .fault (.exhausted count) ∧ st.disk.failures < st'.disk.failures) →
        m.clear st'.logical = m.clear st.logical) ∧
      (e = .fault (.exhausted count) ∧ st.disk.failures < st'.disk.failures →
        ∃ k ∈ m.clear st.logical, m.clear st'.logical = (m.clear st.logical).erase k) := by
  obtain ⟨-, c, rfl, -, lost, denied⟩ | ⟨-, rfl, rfl⟩ := (ends_allocate hp h named count).error run
  rotate_left
  · exact ⟨fun _ => rfl, nofun⟩
  rcases denied.reason with ⟨rfl, -, less, none⟩ | ⟨⟨cause, rfl⟩, less⟩
  · match lost with
    | [] => exact ⟨fun _ => denied.clear_eq, fun ⟨_, failed⟩ => absurd (none rfl) (by omega)⟩
    | [id] =>
      rw [List.length_singleton] at less
      refine ⟨fun no => absurd ⟨rfl, less⟩ no, fun _ => ⟨id.toNat, ?_, denied.clear_eq_erase⟩⟩
      exact denied.clear id List.mem_cons_self
    | _ :: _ :: _ =>
      simp only [List.length_cons] at less
      omega
  · obtain rfl : lost = [] := List.length_eq_zero_iff.1 (by omega)
    exact ⟨fun _ => denied.clear_eq, nofun⟩

/-- With two free sectors a request for three is refused, and both are given back. -/
theorem all_or_nothing_of_short : ∃ (m : FreeMap) (st st' : Storage), m.Stands wordRange32 ∧
    st.Intact ∧ m.clear st.logical = [6, 7] ∧
    m.allocate 3 st = .error (.fault (.exhausted 3)) st' ∧
    m.clear st'.logical = m.clear st.logical := by
  have stands : (⟨1, 1, 8⟩ : FreeMap).Stands wordRange32 := ⟨by decide, Nat.le_refl _⟩
  obtain ⟨_, st, -, -, good, clear⟩ := exists_formatted stands 6
  have two : (⟨1, 1, 8⟩ : FreeMap).clear st.logical = [6, 7] := by
    refine FreeMap.clear_eq (by decide) fun k => ?_
    rw [clear, List.mem_cons, List.mem_singleton]
    show k < 4096 ∧ 6 ≤ k ∧ k < 8 ↔ _
    omega
  have named : ∀ k ∈ (⟨1, 1, 8⟩ : FreeMap).clear st.logical, k < wordRange32 := by
    rw [two]
    decide
  have outcome := meets_allocate stands good named (by decide : Listable 3)
  cases run : (⟨1, 1, 8⟩ : FreeMap).allocate 3 st with
  | ok ids st' =>
    obtain ⟨-, -, three, handed⟩ := outcome.ends.ok run
    have lengths := congrArg List.length handed.first
    rw [two, List.length_append, List.length_map, three] at lengths
    simp only [List.length_cons, List.length_nil] at lengths
    omega
  | error e st' =>
    obtain ⟨c, rfl, good', lost, denied⟩ := outcome.ends.error run
    have clean : st'.disk.failures = st.disk.failures :=
      (good'.working trivial).clean.trans (good.working trivial).clean.symm
    obtain rfl := denied.lost_eq_nil clean
    rcases denied.reason with ⟨rfl, -⟩ | ⟨-, more⟩
    · exact ⟨_, st, st', stands, good.intact, two, run,
        (all_or_nothing stands good.intact named run (by omega)).1 fun failed => by omega⟩
    · omega

end FreeMap

end SectorVolume
