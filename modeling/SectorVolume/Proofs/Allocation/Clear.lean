import Mathlib.Data.List.Sort
import SectorVolume.Proofs.Allocation.Bitmap
import SectorVolume.Proofs.Cache.Smooth

/-!
# The clear bits of a bitmap

The positions of the clear bits, in increasing order, are all there is to know of a bitmap. Taking a
sector takes away the first of them; giving sectors back adds theirs, if none of them was there
before.
-/

namespace SectorVolume

namespace FreeMap

open SectorVolume.Action Storage

variable {m : FreeMap} {w : Prop} {n : Nat} {st st' : Storage} {L L' L'' : SectorId → Sector}

/-- The positions of the clear bits, in increasing order. -/
def clear (m : FreeMap) (L : SectorId → Sector) : List Nat :=
  (List.range (m.sectors * 4096)).filter fun k => !m.bit L k

theorem mem_clear {k : Nat} : k ∈ m.clear L ↔ k < m.sectors * 4096 ∧ m.bit L k = false := by
  simp [clear]

theorem pairwise_clear : (m.clear L).Pairwise (· < ·) := List.pairwise_lt_range.filter _

theorem nodup_clear : (m.clear L).Nodup := List.nodup_range.filter _

/-- As many bits as there are sector numbers all have one. -/
theorem Placed.named (h : m.Placed n) : ∀ k ∈ m.clear L, k < wordRange32 := fun _ hk =>
  Nat.lt_of_lt_of_le (mem_clear.1 hk).1 h.bits

/-- There are not more clear bits than sector numbers. -/
theorem Placed.length_clear_le (h : m.Placed n) : (m.clear L).length ≤ wordRange32 := by
  refine Nat.le_trans (List.length_filter_le ..) ?_
  rw [List.length_range]
  exact h.bits

/-- Two increasing lists with the same positions on them are the same. -/
theorem clear_eq {ks : List Nat} (increasing : ks.Pairwise (· < ·))
    (h : ∀ k, k ∈ m.clear L ↔ k ∈ ks) : m.clear L = ks :=
  pairwise_clear.eq_of_mem_iff increasing h

/-- There is a bit at this position, and it is set. -/
def Marked (m : FreeMap) (L : SectorId → Sector) (k : Nat) : Prop :=
  k < m.sectors * 4096 ∧ m.bit L k = true

theorem Marked.not_mem_clear {k : Nat} (h : m.Marked L k) : k ∉ m.clear L := fun hk => by
  have clear := (mem_clear.1 hk).2
  rw [h.2] at clear
  cases clear

theorem marked_of_not_mem {k : Nat} (lt : k < m.sectors * 4096) (h : k ∉ m.clear L) :
    m.Marked L k := by
  refine ⟨lt, ?_⟩
  cases e : m.bit L k with
  | true => rfl
  | false => exact absurd (mem_clear.2 ⟨lt, e⟩) h

/-- From `L` to `L'` the positions with `P` become the clear ones, and beside the bitmap nothing
changes. -/
structure Clears (m : FreeMap) (L L' : SectorId → Sector) (P : Nat → Prop) : Prop where
  clear : ∀ k, k ∈ m.clear L' ↔ P k
  others : ∀ s, ¬ m.Holds s → L' s = L s

theorem Clears.trans {P Q : Nat → Prop} (h : m.Clears L L' P) (h' : m.Clears L' L'' Q) :
    m.Clears L L'' Q := ⟨h'.clear, fun s hs => (h'.others s hs).trans (h.others s hs)⟩

theorem Clears.congr {P Q : Nat → Prop} (h : m.Clears L L' P) (e : ∀ k, P k ↔ Q k) :
    m.Clears L L' Q := ⟨fun k => (h.clear k).trans (e k), h.others⟩

theorem Clears.refl : m.Clears L L (· ∈ m.clear L) := ⟨fun _ => Iff.rfl, fun _ _ => rfl⟩

theorem Turns.clears {f : Nat → Bool} (h : m.Turns L L' f) :
    m.Clears L L' fun k => k < m.sectors * 4096 ∧ f k = false := by
  refine ⟨fun k => mem_clear.trans (and_congr_right fun lt => ?_), h.others⟩
  rw [h.bits k lt]

/-- The bits of a new bitmap are clear from the reserved ones on up to the last sector. -/
theorem clears_fresh {reserved : Nat} (h : m.Turns L L' (m.fresh reserved)) :
    m.Clears L L' fun k => k < m.sectors * 4096 ∧ reserved ≤ k ∧ k < m.total := by
  refine h.clears.congr fun k => and_congr_right fun _ => ?_
  simp [fresh]

/-- On a memory disk a bitmap can be set up, and from then on no transfer fails. -/
theorem exists_formatted (hp : m.Stands wordRange32) (reserved : Nat) :
    ∃ st₀ st : Storage, st₀.Good True wordRange32 [] ∧ m.format reserved st₀ = .ok () st ∧
      st.Good True wordRange32 [] ∧
      ∀ k, k ∈ m.clear st.logical ↔ k < m.sectors * 4096 ∧ reserved ≤ k ∧ k < m.total := by
  obtain ⟨disk, works⟩ : ∃ disk : Disk, disk.Working wordRange32 :=
    ⟨Disk.memory wordRange32, nofun, by decide, rfl⟩
  obtain ⟨cache, hc⟩ : ∃ cache, Cache.create 1 = .ok cache := ⟨_, rfl⟩
  have good : (⟨disk, cache, {}⟩ : Storage).Good True wordRange32 [] :=
    (good_of_create hc fun _ => works).1
  obtain ⟨_, st, run, good', -, turns⟩ :=
    (meets_format hp good reserved).ends.returns fun _ _ ⟨_, _, failed⟩ => failed.1.1 trivial
  exact ⟨_, st, good, run, good', (clears_fresh turns).clear⟩

/-! ## Taking one sector -/

/-- The sector of the first clear bit was taken, if a sector number can be that large. -/
structure TookFirst (m : FreeMap) (L L' : SectorId → Sector) (id : SectorId) (k : Nat) : Prop where
  id : id = UInt32.ofNat k
  first : m.clear L = k :: m.clear L'
  others : ∀ s, ¬ m.Holds s → L' s = L s

/-- A bit is set that was clear when all bits before it were set. -/
theorem tookFirst_of_turns {k : Nat} (lt : k < m.sectors * 4096) (clear : m.bit L k = false)
    (before : ∀ j, j < k → m.bit L j = true)
    (h : m.Turns L L' fun j => m.bit L j || j == k) : m.TookFirst L L' (UInt32.ofNat k) k := by
  have left : ∀ j, j ∈ m.clear L' ↔ j ∈ m.clear L ∧ j ≠ k := by
    intro j
    rw [h.clears.clear, mem_clear]
    simp [and_assoc]
  refine ⟨rfl, clear_eq (List.pairwise_cons.2 ⟨fun j hj => ?_, pairwise_clear⟩) fun j => ?_, h.others⟩
  · obtain ⟨hj, ne⟩ := (left j).1 hj
    by_contra ge
    have set := before j (by omega)
    rw [(mem_clear.1 hj).2] at set
    cases set
  · rw [List.mem_cons, left]
    by_cases e : j = k
    · subst e
      simp [mem_clear, lt, clear]
    · simp [e]

theorem smooth_sectorAt (m : FreeMap) (i : Nat) :
    Smooth Storage.failures (m.sectorAt i : Action Storage SectorId) :=
  smooth_ite (smooth_pure _) (smooth_violate _)

theorem smooth_takeFrom (m : FreeMap) (i count : Nat) :
    Smooth Storage.failures (m.takeFrom i count) := by
  induction count generalizing i with
  | zero => exact smooth_pure _
  | succ count ih =>
    unfold takeFrom
    refine (m.smooth_sectorAt i).bind fun sector => (smooth_readSector sector).bind fun s => ?_
    split
    · exact (smooth_modifySector sector _).bind fun _ => smooth_pure _
    · exact ih (i + 1)

/-- The sector taken is the lowest free one from bitmap sector `i` on. -/
theorem meets_takeFrom (hp : m.Stands n) (h : st.Good w n []) (i count : Nat)
    (all : i + count = m.sectors)
    (before : ∀ k, k < i * 4096 → m.bit st.logical k = true) :
    Meets (m.takeFrom i count) st
      (fun r st' => st'.Good w n [] ∧ match r with
        | none => st'.logical = st.logical ∧ m.clear st.logical = []
        | some id => ∃ k, m.TookFirst st.logical st'.logical id k)
      (Breaks w n st) := by
  induction count generalizing i st with
  | zero =>
    refine meets_pure ⟨h, rfl, List.eq_nil_iff_forall_not_mem.2 fun k hk => ?_⟩
    obtain ⟨lt, clear⟩ := mem_clear.1 hk
    rw [Nat.add_zero] at all
    rw [before k (all ▸ lt)] at clear
    cases clear
  | succ count ih =>
    have hi : i < m.sectors := by omega
    unfold takeFrom
    rw [hp.sectorAt_eq hi, pure_bind]
    refine (meets_readSector h (hp.block_lt hi)).bind (fun s st₁ h₁ => ?_) fun _ _ h => h
    obtain ⟨same, rfl⟩ := h₁
    cases e : (st.logical (m.block i)).firstClear with
    | some b =>
      obtain ⟨clear, low⟩ := Sector.bit_of_firstClear_eq_some e
      have hb := b.isLt
      refine Meets.bind (meets_modifySector same.good (hp.block_lt hi) rfl) (fun _ st₂ h₂ => ?_)
        fun _ _ h => same.breaks h
      have changed := h₂.2
      suffices took : m.TookFirst st.logical st₂.logical (UInt32.ofNat (i * 4096 + b.val))
          (i * 4096 + b.val) from
        meets_pure ⟨changed.good, _, took⟩
      refine tookFirst_of_turns (by omega) (by rw [bit_eq b rfl, clear]) (fun j hj => ?_) ?_
      · by_cases block : j < i * 4096
        · exact before j block
        · have inside : j - i * 4096 < 4096 := by omega
          rw [bit_eq ⟨_, inside⟩ (by show j = i * 4096 + (j - i * 4096); omega)]
          exact low _ (by show j - i * 4096 < b.val; omega)
      · rw [changed.logical, same.logical]
        refine hp.turns_update hi _ (fun j => ?_) fun k _ hk => ?_
        · rw [Sector.bit_setBit, bit_eq j rfl]
          congr 1
          rw [Bool.eq_iff_iff]
          simp only [decide_eq_true_eq, beq_iff_eq, Fin.ext_iff]
          omega
        · have ne : (k == i * 4096 + b.val) = false := by
            rw [beq_eq_false_iff_ne]
            omega
          rw [ne, Bool.or_false]
    | none =>
      have full := Sector.firstClear_eq_none_iff.1 e
      have next := ih same.good (i + 1) (by omega) fun k hk => by
        rw [same.logical]
        by_cases block : k < i * 4096
        · exact before k block
        · have inside : k - i * 4096 < 4096 := by omega
          rw [bit_eq ⟨_, inside⟩ (by show k = i * 4096 + (k - i * 4096); omega)]
          exact full _
      rw [same.logical] at next
      exact next.mono (fun _ _ h => h) fun _ _ h => same.breaks h

theorem meets_takeOne (hp : m.Stands n) (h : st.Good w n []) :
    Meets m.takeOne st
      (fun r st' => st'.disk.failures = st.disk.failures ∧ st'.Good w n [] ∧ match r with
        | none => st'.logical = st.logical ∧ m.clear st.logical = []
        | some id => ∃ k, m.TookFirst st.logical st'.logical id k)
      (Breaks w n st) :=
  (meets_takeFrom hp h 0 m.sectors (Nat.zero_add _) fun k hk => by omega).and_smooth
    (m.smooth_takeFrom 0 m.sectors)

/-! ## Giving one sector back -/

theorem smooth_giveBack (m : FreeMap) (id : SectorId) :
    Smooth Storage.failures (m.giveBack id) := by
  unfold giveBack
  exact smooth_when (smooth_violate _)
    ((m.smooth_sectorAt _).bind fun sector => smooth_modifySector sector _)

/-- A sector is given back only if its bit is there and set, and then nothing but the disk can be in
the way. -/
theorem ends_giveBack (hp : m.Stands n) (h : st.Good w n []) (id : SectorId) :
    Ends (m.giveBack id) st
      (fun _ st' => m.Marked st.logical id.toNat ∧ st'.Good w n [] ∧
        m.Clears st.logical st'.logical fun k => k ∈ m.clear st.logical ∨ k = id.toNat)
      (Halts w n [] st fun _ => ¬ m.Marked st.logical id.toNat) := by
  have here : sectorBits = 4096 := rfl
  unfold giveBack
  simp only
  by_cases hi : id.toNat / sectorBits < m.sectors
  · have lt : id.toNat < m.sectors * 4096 := by rw [here] at hi; omega
    rw [if_neg (Nat.not_le.2 hi), hp.sectorAt_eq hi, pure_bind]
    have bit : (st.logical (m.block (id.toNat / sectorBits))).bit
      ⟨id.toNat % 4096, Nat.mod_lt _ (by decide)⟩ = m.bit st.logical id.toNat := rfl
    refine (ends_modifySector h (hp.block_lt hi) _).mono (fun _ st₁ h₁ => ?_) fun e st₁ h₁ => ?_
    · obtain ⟨b, e, changed⟩ := h₁
      rw [bit] at e
      split at e
      · next set =>
        cases e
        refine ⟨⟨lt, set⟩, changed.good, ?_⟩
        have turns : m.Turns st.logical st₁.logical fun k => m.bit st.logical k && k != id.toNat := by
          rw [changed.logical]
          refine hp.turns_update hi _ (fun j => ?_) fun k _ hk => ?_
          · rw [Sector.bit_clearBit, bit_eq j rfl]
            congr 1
            have hj := j.isLt
            rw [here, Bool.eq_iff_iff]
            simp only [Bool.not_eq_true', decide_eq_false_iff_not, bne_iff_ne, Fin.ext_iff, ne_eq]
            omega
          · have ne : (k != id.toNat) = true := by
              rw [bne_iff_ne]
              rintro rfl
              exact hk rfl
            rw [ne, Bool.and_true]
        refine turns.clears.congr fun k => ?_
        rw [mem_clear, Bool.and_eq_false_iff, bne_eq_false_iff_eq, and_or_left]
        exact or_congr_right ⟨And.right, fun e => ⟨e ▸ lt, e⟩⟩
      · cases e
    · refine h₁.imp_right (And.imp_left ?_)
      rintro ⟨v, rfl, refused⟩
      refine ⟨v, rfl, fun marked => ?_⟩
      rw [bit, if_pos marked.2] at refused
      cases refused
  · rw [if_pos (Nat.not_lt.1 hi)]
    refine ends_violate_bind (.inr ⟨⟨_, rfl, fun marked => hi ?_⟩, h.same⟩)
    have := marked.1
    rw [here]
    omega

theorem meets_giveBack (hp : m.Stands n) (h : st.Good w n []) {id : SectorId}
    (marked : m.Marked st.logical id.toNat) :
    Meets (m.giveBack id) st
      (fun _ st' => st'.disk.failures = st.disk.failures ∧ st'.Good w n [] ∧
        m.Clears st.logical st'.logical fun k => k ∈ m.clear st.logical ∨ k = id.toNat)
      (Breaks w n st) :=
  Meets.and_smooth ((meets_of_halts (ends_giveBack hp h id) fun _ no => no marked).mono
    (fun _ _ h => h.2) fun _ _ h => h) (m.smooth_giveBack id)

/-- A release looks at nothing but the end of its range before it gives the sectors back. -/
theorem release_eq (m : FreeMap) (first : SectorId) (count : Nat) :
    m.release first count =
      if first.toNat + count % wordRange32 < wordRange32 then
        forEach (fun id => m.giveBack (UInt32.ofNat id)) first.toNat (count % wordRange32)
      else violate .sumOverflow := by
  unfold release
  simp only
  by_cases small : first.toNat + count % wordRange32 < wordRange32
  · rw [if_neg (Nat.not_le.2 small), if_pos small]
  · rw [if_pos (Nat.not_lt.1 small), if_neg small]
    rfl

end FreeMap

end SectorVolume
