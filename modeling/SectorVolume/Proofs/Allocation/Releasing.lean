import SectorVolume.Proofs.Allocation.Counting
import SectorVolume.Proofs.Cache.Intact

/-!
# Giving back a range of sectors

A release gives its sectors back one after the other and stops at the first that is not there or not
taken. If it gets through, the bits of the whole range were set and are clear now. The range is as
long as the 32-bit word that is left of the number of sectors.
-/

namespace SectorVolume

namespace FreeMap

open SectorVolume.Action Storage

variable {m : FreeMap} {w : Prop} {n : Nat} {st st' : Storage} {L L' L'' : SectorId → Sector}
  {first count : Nat}

/-- There are `count` bits from `first` on, and all are set. -/
def Covers (m : FreeMap) (L : SectorId → Sector) (first count : Nat) : Prop :=
  ∀ k, first ≤ k → k < first + count → m.Marked L k

/-- From `L` to `L'` the bits from `first` on, `count` of them, were set and become clear. -/
structure Freed (m : FreeMap) (L L' : SectorId → Sector) (first count : Nat) : Prop where
  covers : m.Covers L first count
  clears : m.Clears L L' fun k => k ∈ m.clear L ∨ first ≤ k ∧ k < first + count

theorem Freed.refl (m : FreeMap) (L : SectorId → Sector) (first : Nat) : m.Freed L L first 0 :=
  ⟨fun _ ge lt => by omega, Clears.refl.congr fun _ => ⟨.inl, fun h => h.resolve_right (by omega)⟩⟩

/-- Of a new bitmap the reserved bits are covered. -/
theorem covers_of_reserved {reserved : Nat}
    (clear : ∀ k, k ∈ m.clear L ↔ k < m.sectors * 4096 ∧ reserved ≤ k ∧ k < m.total)
    (le : first + count ≤ reserved) (fits : first + count ≤ m.sectors * 4096) :
    m.Covers L first count := by
  refine fun k _ lt => marked_of_not_mem (Nat.lt_of_lt_of_le lt fits) fun hk => ?_
  obtain ⟨-, ge, -⟩ := (clear k).1 hk
  omega

/-- What is clear stays clear while more becomes clear. -/
theorem Marked.before {P : Nat → Prop} {k : Nat} (h : m.Marked L' k)
    (clears : m.Clears L L' fun k => k ∈ m.clear L ∨ P k) : m.Marked L k :=
  marked_of_not_mem h.1 fun clear => h.not_mem_clear ((clears.clear k).2 (.inl clear))

/-- After the first bit of a range the rest of it is still set. -/
theorem Covers.rest (h : m.Covers L first (count + 1))
    (clears : m.Clears L L' fun k => k ∈ m.clear L ∨ k = first) :
    m.Covers L' (first + 1) count := by
  intro k ge lt
  have before := h k (by omega) (by omega)
  refine marked_of_not_mem before.1 fun clear => ?_
  rcases (clears.clear k).1 clear with clear | rfl
  · exact before.not_mem_clear clear
  · omega

/-- The first bit of a range is cleared, and then the rest. -/
theorem Freed.step (marked : m.Marked L first)
    (clears : m.Clears L L' fun k => k ∈ m.clear L ∨ k = first)
    (rest : m.Freed L' L'' (first + 1) count) : m.Freed L L'' first (count + 1) := by
  refine ⟨fun k ge lt => ?_, (clears.trans rest.clears).congr fun k => ?_⟩
  · rcases Nat.eq_or_lt_of_le ge with rfl | gt
    · exact marked
    · exact (rest.covers k gt (by omega)).before clears
  · rw [clears.clear, or_assoc]
    refine or_congr_right ?_
    omega

/-- What is cleared adds to the number of clear bits. -/
theorem Freed.clearBits (h : m.Freed L L' first count) :
    m.clearBits L' = m.clearBits L + count := by
  have apart : (m.clear L).Disjoint (List.range' first count) := fun k clear range =>
    have bounds := List.mem_range'_1.1 range
    (h.covers k bounds.1 bounds.2).not_mem_clear clear
  have perm : (m.clear L').Perm (m.clear L ++ List.range' first count) := by
    refine (List.perm_ext_iff_of_nodup nodup_clear ?_).2 fun k => ?_
    · exact nodup_clear.append List.nodup_range' apart
    · rw [h.clears.clear, List.mem_append, List.mem_range'_1]
  rw [clearBits_eq, clearBits_eq, perm.length_eq, List.length_append, List.length_range']

/-- A release that does not get through leaves the sectors beside the bitmap alone. If the range was
all taken, a transfer failed. -/
structure Stuck (m : FreeMap) (w : Prop) (n : Nat) (st : Storage) (first count : Nat)
    (st' : Storage) : Prop where
  good : st'.Good w n []
  others : ∀ s, ¬ m.Holds s → st'.logical s = st.logical s
  device : m.Covers st.logical first count → ¬ w ∧ st.disk.failures < st'.disk.failures

/-- By induction on the number of sectors: as long as the range is taken, nothing but the disk is in
the way. -/
theorem ends_giveBackAll (hp : m.Stands n) (first count : Nat) (small : first + count ≤ wordRange32)
    (h : st.Good w n []) :
    Ends (forEach (fun id => m.giveBack (UInt32.ofNat id)) first count) st
      (fun _ st' => st'.disk.failures = st.disk.failures ∧ st'.Good w n [] ∧
        m.Freed st.logical st'.logical first count)
      fun _ st' => m.Stuck w n st first count st' := by
  induction count generalizing first st with
  | zero => exact ends_pure ⟨rfl, h, .refl ..⟩
  | succ count ih =>
    have number : (UInt32.ofNat first).toNat = first :=
      UInt32.toNat_ofNat_of_lt' (Nat.lt_of_lt_of_le (by omega) small)
    have one := (ends_giveBack hp h (UInt32.ofNat first)).and (m.smooth_giveBack _ st)
    rw [number] at one
    unfold forEach
    refine one.bind (fun _ st₁ h₁ => ?_) fun e st₁ h₁ => ?_
    · obtain ⟨⟨marked, good, clears⟩, clean⟩ := h₁
      have clean : st₁.disk.failures = st.disk.failures := clean trivial
      refine (ih (first + 1) (by omega) good).mono (fun _ st₂ h₂ => ?_) fun _ st₂ h₂ => ?_
      · exact ⟨h₂.1.trans clean, h₂.2.1, .step marked clears h₂.2.2⟩
      · refine ⟨h₂.good, fun s hs => (h₂.others s hs).trans (clears.others s hs), fun covers => ?_⟩
        obtain ⟨idle, more⟩ := h₂.device (covers.rest clears)
        exact ⟨idle, clean ▸ more⟩
    · obtain ⟨halts, -⟩ := h₁
      have same := halts.same
      refine ⟨same.good, fun s _ => congrFun same.logical s, fun covers => ?_⟩
      rcases halts with stops | ⟨⟨_, _, free⟩, _⟩
      · obtain ⟨_, _, _, idle, more, _⟩ := stops.breaks
        exact ⟨idle, more⟩
      · exact absurd (covers first (Nat.le_refl _) (by omega)) free

/-- A release frees the sectors of its range, which all have to be taken. -/
theorem ends_release (hp : m.Stands n) (h : st.Good w n []) (first : SectorId) (count : Nat) :
    Ends (m.release first count) st
      (fun _ st' => st'.disk.failures = st.disk.failures ∧ st'.Good w n [] ∧
        m.Freed st.logical st'.logical first.toNat (count % wordRange32))
      fun _ st' => st'.Good w n [] ∧ (∀ s, ¬ m.Holds s → st'.logical s = st.logical s) ∧
        (first.toNat + count % wordRange32 < wordRange32 →
          m.Covers st.logical first.toNat (count % wordRange32) →
            ¬ w ∧ st.disk.failures < st'.disk.failures) := by
  rw [release_eq]
  split
  · next small =>
    exact (ends_giveBackAll hp _ _ (Nat.le_of_lt small) h).mono (fun _ _ h => h)
      fun _ _ stuck => ⟨stuck.good, stuck.others, fun _ => stuck.device⟩
  · next large => exact ends_throw ⟨h, fun _ _ => rfl, fun lt => absurd lt large⟩

/-- A release that succeeds frees what it was asked to free, as far as a 32-bit word can tell: the
bits of the range were there and set, they are clear afterwards and no other bit changes. The number
of free sectors grows by their number. -/
theorem release_frees (hp : m.Stands wordRange32) (h : st.Intact) {first : SectorId}
    {count : Nat} (run : m.release first count st = .ok () st') :
    m.Freed st.logical st'.logical first.toNat (count % wordRange32) ∧
      ∀ free free' s s', m.freeCount st = .ok free s → m.freeCount st' = .ok free' s' →
        free' = free + count % wordRange32 := by
  obtain ⟨-, good, freed⟩ := (ends_release hp h first count).ok run
  refine ⟨freed, fun free free' s s' before after => ?_⟩
  rw [((meets_freeCount hp h).ok before).2, ((meets_freeCount hp good).ok after).2, freed.clearBits]

/-- With everything taken in a bitmap of eight sectors three of them can be given back. -/
theorem release_frees_of_full : ∃ (m : FreeMap) (st st' : Storage), m.Stands wordRange32 ∧
    st.Intact ∧ m.release 2 3 st = .ok () st' ∧ m.Freed st.logical st'.logical 2 3 ∧
    ∀ free free' s s', m.freeCount st = .ok free s → m.freeCount st' = .ok free' s' →
      free' = free + 3 := by
  have stands : (⟨1, 1, 8⟩ : FreeMap).Stands wordRange32 := ⟨by decide, Nat.le_refl _⟩
  obtain ⟨_, st, -, -, good, clear⟩ := exists_formatted stands 8
  have covers : (⟨1, 1, 8⟩ : FreeMap).Covers st.logical 2 3 :=
    covers_of_reserved clear (by decide) (by decide)
  obtain ⟨_, st', run, -⟩ := (ends_release stands good 2 3).returns fun _ _ stuck =>
    (stuck.2.2 (by decide) covers).1 trivial
  exact ⟨_, st, st', stands, good.intact, run, release_frees stands good.intact run⟩

/-- A number of sectors that is a multiple of the word range counts as none. -/
theorem release_of_wordRange32 : ∃ (m : FreeMap) (st : Storage), m.Stands wordRange32 ∧
    st.Intact ∧ m.release 0 wordRange32 st = .ok () st ∧
    ¬ m.Covers st.logical 0 wordRange32 := by
  have stands : (⟨1, 1, 8⟩ : FreeMap).Stands wordRange32 := ⟨by decide, Nat.le_refl _⟩
  obtain ⟨_, st, -, -, good, -⟩ := exists_formatted stands 8
  refine ⟨_, st, stands, good.intact, rfl, fun covers => ?_⟩
  have inside := (covers 4096 (Nat.zero_le _) (by decide)).1
  exact absurd inside (by decide)

end FreeMap

end SectorVolume
