import SectorVolume.Allocation.FreeMap
import SectorVolume.Proofs.Cache.Unpinned

/-!
# Bits of the bitmap

`FreeMap.bit` reads a bit of the bitmap off the content of a storage. Each operation of the bitmap
is described by what it does to the bits, and changes nothing in any sector beside the bitmap.
-/

namespace SectorVolume

namespace FreeMap

open SectorVolume.Action Storage

variable {m : FreeMap} {w : Prop} {n : Nat} {st : Storage} {L L' L'' : SectorId → Sector}

/-- Sector number `i` of the bitmap. -/
def block (m : FreeMap) (i : Nat) : SectorId := UInt32.ofNat (m.start.toNat + i)

/-- Bit `k` of the bitmap, for the content `L`. -/
def bit (m : FreeMap) (L : SectorId → Sector) (k : Nat) : Bool :=
  (L (m.block (k / 4096))).bit ⟨k % 4096, Nat.mod_lt _ (by decide)⟩

/-- Whether a sector is one of the bitmap. -/
def Holds (m : FreeMap) (s : SectorId) : Prop :=
  m.start.toNat ≤ s.toNat ∧ s.toNat < m.start.toNat + m.sectors

/-- The bitmap stands in the first `n` sectors, which all have numbers. -/
structure Stands (m : FreeMap) (n : Nat) : Prop where
  room : m.start.toNat + m.sectors ≤ n
  words : n ≤ wordRange32

/-- The bitmap stands in the first `n` sectors and has no more bits than there are sector numbers,
but one for each sector that it manages. -/
structure Placed (m : FreeMap) (n : Nat) : Prop where
  room : m.start.toNat + m.sectors ≤ n
  words : n ≤ wordRange32
  bits : m.sectors * 4096 ≤ wordRange32
  total : m.total ≤ m.sectors * 4096

/-- From `L` to `L'` the bits become `f`, and beside the bitmap nothing changes. -/
structure Turns (m : FreeMap) (L L' : SectorId → Sector) (f : Nat → Bool) : Prop where
  bits : ∀ k, k < m.sectors * 4096 → m.bit L' k = f k
  others : ∀ s, ¬ m.Holds s → L' s = L s

/-! ## Where the bits are -/

theorem Placed.stands (h : m.Placed n) : m.Stands n := ⟨h.room, h.words⟩

theorem Stands.toNat_block (h : m.Stands n) {i : Nat} (hi : i < m.sectors) :
    (m.block i).toNat = m.start.toNat + i := by
  have := h.room; have : n ≤ 2 ^ 32 := h.words
  rw [block, UInt32.toNat_ofNat']
  exact Nat.mod_eq_of_lt (by omega)

theorem Stands.block_lt (h : m.Stands n) {i : Nat} (hi : i < m.sectors) :
    (m.block i).toNat < n := by
  have := h.room
  rw [h.toNat_block hi]
  omega

theorem Stands.holds_block (h : m.Stands n) {i : Nat} (hi : i < m.sectors) :
    m.Holds (m.block i) := by
  unfold Holds
  rw [h.toNat_block hi]
  omega

theorem Stands.block_inj (h : m.Stands n) {i j : Nat} (hi : i < m.sectors) (hj : j < m.sectors)
    (e : m.block i = m.block j) : i = j := by
  have := congrArg UInt32.toNat e
  rw [h.toNat_block hi, h.toNat_block hj] at this
  omega

theorem Stands.sectorAt_eq (h : m.Stands n) {σ : Type} {i : Nat} (hi : i < m.sectors) :
    m.sectorAt i = (pure (m.block i) : Action σ SectorId) := by
  have := h.room; have := h.words
  have e : wordRange32 = 2 ^ 32 := rfl
  have small : i % wordRange32 = i := Nat.mod_eq_of_lt (by omega)
  unfold sectorAt
  rw [small]
  exact if_pos (by omega)

theorem bit_eq {k i : Nat} (b : Fin 4096) (h : k = i * 4096 + b.val) :
    m.bit L k = (L (m.block i)).bit b := by
  have hq : k / 4096 = i := by omega
  have hr : k % 4096 = b.val := by omega
  unfold bit
  simp only [hq, hr]

theorem bit_congr (h : ∀ s, m.Holds s → L' s = L s) (hp : m.Stands n) {k : Nat}
    (hk : k < m.sectors * 4096) : m.bit L' k = m.bit L k := by
  unfold bit
  rw [h _ (hp.holds_block (by omega))]

/-- One sector of the bitmap is replaced. -/
theorem Stands.turns_update (h : m.Stands n) {i : Nat} (hi : i < m.sectors) (b : Sector)
    {f : Nat → Bool} (self : ∀ j : Fin 4096, b.bit j = f (i * 4096 + j))
    (other : ∀ k, k < m.sectors * 4096 → k / 4096 ≠ i → m.bit L k = f k) :
    m.Turns L (Function.update L (m.block i) b) f := by
  refine ⟨fun k hk => ?_, fun s hs => Function.update_of_ne (fun e => ?_) ..⟩
  · by_cases e : k / 4096 = i
    · have hk' : k = i * 4096 + k % 4096 := by omega
      rw [bit_eq ⟨k % 4096, Nat.mod_lt _ (by decide)⟩ hk', Function.update_self, self]
      exact congrArg f hk'.symm
    · rw [← other k hk e]
      unfold bit
      rw [Function.update_of_ne fun e' => e (h.block_inj (by omega) hi e')]
  · rw [e] at hs
    exact hs (h.holds_block hi)

theorem Turns.trans {f g : Nat → Bool} (h : m.Turns L L' f) (h' : m.Turns L' L'' g) :
    m.Turns L L'' g := ⟨h'.bits, fun s hs => (h'.others s hs).trans (h.others s hs)⟩

theorem Turns.refl : m.Turns L L (m.bit L) := ⟨fun _ _ => rfl, fun _ _ => rfl⟩

/-! ## Setting up -/

/-- The bits of a new bitmap. -/
def fresh (m : FreeMap) (reserved k : Nat) : Bool := k < reserved || k ≥ m.total

theorem meets_format (hp : m.Stands n) (h : st.Good w n []) (reserved : Nat) :
    Meets (m.format reserved) st
      (fun _ st' => st'.Good w n [] ∧ st.disk.failures ≤ st'.disk.failures ∧
        m.Turns st.logical st'.logical (m.fresh reserved))
      fun _ st' => (¬ w ∧ st.disk.failures < st'.disk.failures) ∧ st'.Good w n [] ∧
        ∀ s, ¬ m.Holds s → st'.logical s = st.logical s := by
  unfold format
  -- after the first `i` sectors the bits in there are the new ones
  let inv (i : Nat) (st' : Storage) : Prop :=
    st'.Good w n [] ∧ st.disk.failures ≤ st'.disk.failures ∧
      m.Turns st.logical st'.logical fun k =>
        if k / 4096 < i then m.fresh reserved k else m.bit st.logical k
  have start : inv 0 st := ⟨h, Nat.le_refl _, by simpa using Turns.refl⟩
  refine (meets_forEach (I := inv) m.sectors start fun i st₁ _ hi h₁ => ?_).bind ?_ fun _ _ h => h
  · have hi : i < m.sectors := by omega
    obtain ⟨good, failures, turns⟩ := h₁
    rw [hp.sectorAt_eq hi, pure_bind]
    refine (meets_modifySector good (hp.block_lt hi) rfl).mono (fun _ st₂ h₂ => ?_)
      fun _ _ ⟨_, idle, failed, same⟩ => ⟨⟨idle, Nat.lt_of_le_of_lt failures failed⟩, same.good,
        fun s hs => (congrFun same.logical s).trans (turns.others s hs)⟩
    refine ⟨h₂.2.good, Nat.le_trans failures h₂.2.failures, ?_⟩
    rw [h₂.2.logical]
    refine turns.trans (hp.turns_update hi _ (fun j => ?_) fun k hk hk' => ?_)
    · have hj := j.isLt
      rw [Sector.bit_ofBits, if_pos (by omega)]
      rfl
    · rw [turns.bits k hk]
      by_cases e : k / 4096 < i
      · rw [if_pos e, if_pos (by omega)]
      · rw [if_neg e, if_neg (by omega)]
  · intro _ st₁ h₁
    obtain ⟨good, failures, turns⟩ := h₁
    refine (meets_note good _).mono (fun _ st₂ same => ?_) fun _ _ h => h
    refine ⟨same.good, Nat.le_trans failures same.failures, ?_⟩
    rw [same.logical]
    refine ⟨fun k hk => ?_, turns.others⟩
    rw [turns.bits k hk]
    exact if_pos (by omega)

/-! ## A bitmap of one sector -/

section OneSector

variable {st' : Storage} {i : Nat} (one : m.sectors = 1)

theorem sectorAt_zero {σ : Type} (m : FreeMap) :
    (m.sectorAt 0 : Action σ SectorId) = pure m.start := by
  have lt : m.start.toNat < wordRange32 := m.start.toNat_lt
  simp [sectorAt, lt]

include one

/-- The sector is set up in the slot that it gets. -/
theorem format_of_absent (absent : st.cache.lookup m.start = none)
    (claimed : claim m.start .disk st = .ok i st') (reserved : Nat) :
    m.format reserved st = .ok () ⟨st'.disk,
      st'.cache.store i (Sector.ofBits (m.fresh reserved)),
      st'.log.add (.bitmapFormatted m.total reserved)⟩ := by
  have bits : (fun b => decide (0 * sectorBits + b < reserved) ||
      decide (0 * sectorBits + b ≥ m.total)) = m.fresh reserved := by
    simp only [Nat.zero_mul, Nat.zero_add]
    rfl
  have filled : modifySector m.start (fun _ => .ok ((), Sector.ofBits (m.fresh reserved))) st =
      .ok () ⟨st'.disk, st'.cache.store i (Sector.ofBits (m.fresh reserved)), st'.log⟩ :=
    modifySector_of_absent absent claimed rfl
  rw [← bits] at filled ⊢
  have place : m.sectorAt 0 st = .ok m.start st := by
    rw [sectorAt_zero]
    rfl
  unfold format
  rw [one]
  exact run_bind (run_bind (run_bind place filled) rfl) rfl

/-- If the sector has a slot, taking a bit needs no transfer. -/
theorem takeOne_of_lookup (found : st.cache.lookup m.start = some i) {k : Fin 4096}
    (first : (st.cache.bytes i).firstClear = some k) :
    m.takeOne st = .ok (some (UInt32.ofNat k)) ⟨st.disk,
      (st.cache.touch i).store i (((st.cache.touch i).bytes i).setBit k), st.log⟩ := by
  have read : readSector m.start st = .ok (st.cache.bytes i) ⟨st.disk, st.cache.touch i, st.log⟩ :=
    (readSector_of_lookup found).trans rfl
  have change : modifySector m.start (fun s => .ok ((), s.setBit k))
      ⟨st.disk, st.cache.touch i, st.log⟩ = .ok () ⟨st.disk,
        (st.cache.touch i).store i (((st.cache.touch i).bytes i).setBit k), st.log⟩ :=
    modifySector_of_lookup found rfl
  unfold takeOne takeFrom
  rw [one]
  simp only
  rw [sectorAt_zero, pure_bind]
  refine run_bind read ?_
  rw [first]
  refine run_bind change ?_
  rw [Nat.zero_mul, Nat.zero_add]
  rfl

/-- If the sector has a slot, giving a bit back needs no transfer. -/
theorem giveBack_of_lookup (found : st.cache.lookup m.start = some i) {id : SectorId}
    (lt : id.toNat < 4096) (taken : (st.cache.bytes i).bit ⟨id.toNat, lt⟩ = true) :
    m.giveBack id st = .ok () ⟨st.disk,
      st.cache.store i ((st.cache.bytes i).clearBit ⟨id.toNat, lt⟩), st.log⟩ := by
  have inside : id.toNat / sectorBits = 0 := Nat.div_eq_of_lt lt
  have same : id.toNat % 4096 = id.toNat := Nat.mod_eq_of_lt lt
  unfold giveBack
  simp only [inside, one, same]
  rw [if_neg (by decide), sectorAt_zero]
  simp only [pure_bind]
  exact modifySector_of_lookup found (if_pos taken)

end OneSector

end FreeMap

end SectorVolume
