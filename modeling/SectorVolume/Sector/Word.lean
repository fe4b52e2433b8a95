import SectorVolume.Sector.Basic

/-!
# Words in a sector

Numbers of 32 and 64 bits stand in a sector with their least significant byte first. A sector is the
same thing as 128 words of 32 bits, and the same thing as 64 words of 64 bits: taking it apart and
putting it together again are inverse to each other.
-/

namespace SectorVolume

namespace Word

/-- Byte `k` of a 32-bit word, counted from the least significant one. -/
def byte32 (w : UInt32) (k : Nat) : UInt8 := UInt8.ofNat (w.toNat >>> (8 * k))

/-- Byte `k` of a 64-bit word, counted from the least significant one. -/
def byte64 (w : UInt64) (k : Nat) : UInt8 := UInt8.ofNat (w.toNat >>> (8 * k))

/-- The 32-bit word with the given bytes, the least significant one first. -/
def of32 (b₀ b₁ b₂ b₃ : UInt8) : UInt32 :=
  UInt32.ofNat (b₀.toNat + 256 * b₁.toNat + 65536 * b₂.toNat + 16777216 * b₃.toNat)

/-- The 64-bit word with the given halves, the less significant one first. -/
def of64 (lo hi : UInt32) : UInt64 := UInt64.ofNat (lo.toNat + 4294967296 * hi.toNat)

/-- The less significant half of a 64-bit word. -/
def low (w : UInt64) : UInt32 := UInt32.ofNat w.toNat

/-- The more significant half of a 64-bit word. -/
def high (w : UInt64) : UInt32 := UInt32.ofNat (w.toNat >>> 32)

theorem of32_byte32 (w : UInt32) :
    of32 (byte32 w 0) (byte32 w 1) (byte32 w 2) (byte32 w 3) = w := by
  apply UInt32.toNat_inj.1
  have := w.toNat_lt
  simp only [of32, byte32, UInt8.toNat_ofNat', UInt32.toNat_ofNat', Nat.shiftRight_eq_div_pow]
  omega

theorem byte32_of32_zero (a b c d : UInt8) : byte32 (of32 a b c d) 0 = a := by
  apply UInt8.toNat_inj.1
  have := a.toNat_lt; have := b.toNat_lt; have := c.toNat_lt; have := d.toNat_lt
  simp only [of32, byte32, UInt8.toNat_ofNat', UInt32.toNat_ofNat', Nat.shiftRight_eq_div_pow]
  omega

theorem byte32_of32_one (a b c d : UInt8) : byte32 (of32 a b c d) 1 = b := by
  apply UInt8.toNat_inj.1
  have := a.toNat_lt; have := b.toNat_lt; have := c.toNat_lt; have := d.toNat_lt
  simp only [of32, byte32, UInt8.toNat_ofNat', UInt32.toNat_ofNat', Nat.shiftRight_eq_div_pow]
  omega

theorem byte32_of32_two (a b c d : UInt8) : byte32 (of32 a b c d) 2 = c := by
  apply UInt8.toNat_inj.1
  have := a.toNat_lt; have := b.toNat_lt; have := c.toNat_lt; have := d.toNat_lt
  simp only [of32, byte32, UInt8.toNat_ofNat', UInt32.toNat_ofNat', Nat.shiftRight_eq_div_pow]
  omega

theorem byte32_of32_three (a b c d : UInt8) : byte32 (of32 a b c d) 3 = d := by
  apply UInt8.toNat_inj.1
  have := a.toNat_lt; have := b.toNat_lt; have := c.toNat_lt; have := d.toNat_lt
  simp only [of32, byte32, UInt8.toNat_ofNat', UInt32.toNat_ofNat', Nat.shiftRight_eq_div_pow]
  omega

theorem of64_low_high (w : UInt64) : of64 (low w) (high w) = w := by
  apply UInt64.toNat_inj.1
  have := w.toNat_lt
  simp only [of64, low, high, UInt32.toNat_ofNat', UInt64.toNat_ofNat', Nat.shiftRight_eq_div_pow]
  omega

theorem low_of64 (lo hi : UInt32) : low (of64 lo hi) = lo := by
  apply UInt32.toNat_inj.1
  have := lo.toNat_lt; have := hi.toNat_lt
  simp only [of64, low, UInt32.toNat_ofNat', UInt64.toNat_ofNat']
  omega

theorem high_of64 (lo hi : UInt32) : high (of64 lo hi) = hi := by
  apply UInt32.toNat_inj.1
  have := lo.toNat_lt; have := hi.toNat_lt
  simp only [of64, high, UInt32.toNat_ofNat', UInt64.toNat_ofNat', Nat.shiftRight_eq_div_pow]
  omega

end Word

namespace Sector

/-- Word `i` of a sector read as 128 words of 32 bits. -/
def word32 (s : Sector) (i : Fin 128) : UInt32 :=
  Word.of32 s[4 * i.val] s[4 * i.val + 1] s[4 * i.val + 2] s[4 * i.val + 3]

/-- A sector as 128 words of 32 bits. -/
def words32 (s : Sector) : Vector UInt32 128 := Vector.ofFn s.word32

/-- The sector that consists of the given 32-bit words. -/
def ofWords32 (ws : Vector UInt32 128) : Sector :=
  Vector.ofFn fun i : Fin 512 => Word.byte32 ws[i.val / 4] (i.val % 4)

/-- A sector as 64 words of 64 bits. -/
def words64 (s : Sector) : Vector UInt64 64 :=
  Vector.ofFn fun i : Fin 64 =>
    Word.of64 (s.word32 ⟨2 * i.val, by omega⟩) (s.word32 ⟨2 * i.val + 1, by omega⟩)

/-- The sector that consists of the given 64-bit words. -/
def ofWords64 (ws : Vector UInt64 64) : Sector :=
  ofWords32 <| Vector.ofFn fun i : Fin 128 =>
    if i.val % 2 = 0 then Word.low ws[i.val / 2] else Word.high ws[i.val / 2]

theorem getElem_words32 (s : Sector) (i : Nat) (h : i < 128) : s.words32[i] = s.word32 ⟨i, h⟩ := by
  simp [words32]

/-- Taking a sector apart into 32-bit words and putting it together gives the sector back. -/
theorem ofWords32_words32 (s : Sector) : ofWords32 s.words32 = s := by
  refine Vector.ext fun i hi => ?_
  obtain ⟨q, r, hr, rfl⟩ : ∃ q r, r < 4 ∧ i = 4 * q + r := ⟨i / 4, i % 4, by omega, by omega⟩
  have h₁ : (4 * q + r) / 4 = q := by omega
  have h₂ : (4 * q + r) % 4 = r := by omega
  simp only [ofWords32, Vector.getElem_ofFn, getElem_words32, word32, h₁, h₂]
  match r, hr with
  | 0, _ => exact Word.byte32_of32_zero ..
  | 1, _ => exact Word.byte32_of32_one ..
  | 2, _ => exact Word.byte32_of32_two ..
  | 3, _ => exact Word.byte32_of32_three ..

/-- The 32-bit words of the sector that consists of given words are these words. -/
theorem word32_ofWords32 (ws : Vector UInt32 128) (i : Fin 128) :
    (ofWords32 ws).word32 i = ws[i] := by
  have d : ∀ k, k < 4 → (4 * i.val + k) / 4 = i.val ∧ (4 * i.val + k) % 4 = k := by omega
  have h₀ := d 0 (by decide); have h₁ := d 1 (by decide)
  have h₂ := d 2 (by decide); have h₃ := d 3 (by decide)
  simp only [Nat.add_zero] at h₀
  simp only [word32, ofWords32, Vector.getElem_ofFn, h₀.1, h₀.2, h₁.1, h₁.2, h₂.1, h₂.2, h₃.1, h₃.2]
  exact Word.of32_byte32 _

theorem words32_ofWords32 (ws : Vector UInt32 128) : (ofWords32 ws).words32 = ws := by
  refine Vector.ext fun i hi => ?_
  rw [getElem_words32, word32_ofWords32]
  rfl

/-- Taking a sector apart into 64-bit words and putting it together gives the sector back. -/
theorem ofWords64_words64 (s : Sector) : ofWords64 s.words64 = s := by
  refine Eq.trans (congrArg ofWords32 ?_) (ofWords32_words32 s)
  refine Vector.ext fun i hi => ?_
  simp only [words64, Vector.getElem_ofFn, getElem_words32]
  split
  · rw [Word.low_of64]; congr; omega
  · rw [Word.high_of64]; congr; omega

/-- The 64-bit words of the sector that consists of given words are these words. -/
theorem words64_ofWords64 (ws : Vector UInt64 64) : (ofWords64 ws).words64 = ws := by
  refine Vector.ext fun i hi => ?_
  simp only [words64, ofWords64, Vector.getElem_ofFn, word32_ofWords32, Fin.getElem_fin]
  have h₀ : (2 * i) % 2 = 0 ∧ 2 * i / 2 = i := by omega
  have h₁ : ¬ (2 * i + 1) % 2 = 0 ∧ (2 * i + 1) / 2 = i := by omega
  simp only [h₀.1, h₀.2, h₁.1, h₁.2, if_true, if_false]
  exact Word.of64_low_high _

end Sector

end SectorVolume
