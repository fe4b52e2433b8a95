import Mathlib.Tactic.IntervalCases
import SectorVolume.Sector.View

/-!
# Values that consist of numbers

A plain value is a row of numbers. It stands in a sector as the bytes of these numbers, one number
after the other, each with its least significant byte first, and every string of bytes of the right
length is a value. So bytes can be looked at as one kind of values after they were written as
another.
-/

namespace SectorVolume

variable {α β : Type}

/-- The last `width` digits of a number to the base 256, the least significant one first. -/
def littleEndian : Nat → Nat → List UInt8
  | 0, _ => []
  | width + 1, n => UInt8.ofNat n :: littleEndian width (n / 256)

/-- A number that takes `width` bytes. -/
structure Numeral where
  /-- The number of bytes. -/
  width : Nat
  /-- The number. -/
  value : Nat

/-- The bytes of numbers that stand one after the other. -/
def Numeral.bytes (numerals : List Numeral) : List UInt8 :=
  numerals.flatMap fun n => littleEndian n.width n.value

/-- The values of a view are rows of numbers, and all bytes are values. -/
structure View.Plain (v : View α) (numerals : α → List Numeral) : Prop where
  decode_encode : ∀ a, v.decode (v.encode a) = a
  encode_decode : ∀ b, v.encode (v.decode b) = b
  bytes_encode : ∀ a, (v.encode a).toList = Numeral.bytes (numerals a)

/-! ## Digits -/

theorem getElem?_littleEndian (width n k : Nat) :
    (littleEndian width n)[k]? = if k < width then some (UInt8.ofNat (n >>> (8 * k))) else none := by
  induction width generalizing n k with
  | zero => rfl
  | succ width ih =>
    cases k with
    | zero => simp [littleEndian]
    | succ k =>
      have shift : (n / 256) >>> (8 * k) = n >>> (8 * (k + 1)) := by
        rw [Nat.shiftRight_eq_div_pow, Nat.shiftRight_eq_div_pow, Nat.div_div_eq_div_mul,
          Nat.mul_succ, Nat.add_comm, Nat.pow_add]
      rw [littleEndian, List.getElem?_cons_succ, ih, shift]
      simp

theorem length_littleEndian (width n : Nat) : (littleEndian width n).length = width := by
  induction width generalizing n with
  | zero => rfl
  | succ width ih => rw [littleEndian, List.length_cons, ih]

/-- Parts of one length are found by division. -/
theorem getElem?_flatMap {g : α → List β} {width : Nat} (length : ∀ a, (g a).length = width)
    (xs : List α) (q : Nat) {r : Nat} (hr : r < width) :
    (xs.flatMap g)[width * q + r]? = xs[q]?.bind fun a => (g a)[r]? := by
  induction xs generalizing q with
  | nil => rfl
  | cons x xs ih =>
    rw [List.flatMap_cons]
    cases q with
    | zero => rw [Nat.mul_zero, Nat.zero_add, List.getElem?_append_left (by rw [length]; exact hr)]; rfl
    | succ q =>
      rw [List.getElem?_append_right (by rw [length, Nat.mul_succ]; omega), length,
        List.getElem?_cons_succ, ← ih q]
      congr 1
      rw [Nat.mul_succ]
      omega

/-- A string of bytes is the row of the numbers whose digits it has. -/
theorem toList_ofFn_of_digits {n m width : Nat} {f : Fin m → UInt8} (value : α → Nat)
    (pos : 0 < width) (size : m = width * n) (xs : Vector α n)
    (digits : ∀ q (hq : q < n) r, r < width → ∀ h : width * q + r < m,
      f ⟨width * q + r, h⟩ = UInt8.ofNat (value xs[q] >>> (8 * r))) :
    (Vector.ofFn f).toList = xs.toList.flatMap fun a => littleEndian width (value a) := by
  refine List.ext_getElem? fun i => ?_
  obtain ⟨q, r, hr, rfl⟩ : ∃ q r, r < width ∧ i = width * q + r :=
    ⟨i / width, i % width, Nat.mod_lt i pos, (Nat.div_add_mod i width).symm⟩
  rw [getElem?_flatMap (fun a => length_littleEndian width (value a)) _ _ hr, Vector.toList_ofFn]
  by_cases hq : q < n
  · have inside : width * q + r < m := by
      have row := Nat.mul_le_mul_left width (Nat.succ_le_of_lt hq)
      rw [Nat.mul_succ] at row
      omega
    rw [List.getElem?_eq_getElem (by simpa using inside), List.getElem?_eq_getElem (by simpa using hq)]
    simp only [List.getElem_ofFn, Vector.getElem_toList, Option.bind_some, getElem?_littleEndian,
      if_pos hr, digits q hq r hr inside]
  · have outside : m ≤ width * q + r := by
      have row := Nat.mul_le_mul_left width (Nat.le_of_not_lt hq)
      omega
    rw [List.getElem?_eq_none (by simpa using outside), List.getElem?_eq_none (by simpa using hq)]
    rfl

namespace Word

theorem byte32_low (w : UInt64) {k : Nat} (hk : k < 4) : byte32 (low w) k = byte64 w k := by
  apply UInt8.toNat_inj.1
  have := w.toNat_lt
  simp only [byte32, byte64, low, UInt8.toNat_ofNat', UInt32.toNat_ofNat', Nat.shiftRight_eq_div_pow]
  interval_cases k <;> omega

theorem byte32_high (w : UInt64) {k : Nat} (hk : k < 4) : byte32 (high w) k = byte64 w (k + 4) := by
  apply UInt8.toNat_inj.1
  have := w.toNat_lt
  simp only [byte32, byte64, high, UInt8.toNat_ofNat', UInt32.toNat_ofNat',
    Nat.shiftRight_eq_div_pow]
  interval_cases k <;> omega

theorem byte64_of64_low (lo hi : UInt32) {k : Nat} (hk : k < 4) :
    byte64 (of64 lo hi) k = byte32 lo k := by
  rw [← byte32_low _ hk, low_of64]

theorem byte64_of64_high (lo hi : UInt32) {k : Nat} (hk : k < 4) :
    byte64 (of64 lo hi) (k + 4) = byte32 hi k := by
  rw [← byte32_high _ hk, high_of64]

theorem of64_byte64 (w : UInt64) :
    of64 (of32 (byte64 w 0) (byte64 w 1) (byte64 w 2) (byte64 w 3))
      (of32 (byte64 w 4) (byte64 w 5) (byte64 w 6) (byte64 w 7)) = w := by
  have lo := of32_byte32 (low w)
  have hi := of32_byte32 (high w)
  simp only [byte32_low, byte32_high, Nat.reduceLT, Nat.reduceAdd] at lo hi
  rw [lo, hi, of64_low_high]

end Word

/-! ## The bytes of words -/

theorem toList_ofFn_byte32 (w : UInt32) :
    (Vector.ofFn fun i : Fin 4 => Word.byte32 w i).toList = littleEndian 4 w.toNat := by
  refine List.ext_getElem? fun k => ?_
  rw [Vector.toList_ofFn, List.getElem?_ofFn, getElem?_littleEndian]
  rfl

theorem toList_ofFn_byte64 (w : UInt64) :
    (Vector.ofFn fun i : Fin 8 => Word.byte64 w i).toList = littleEndian 8 w.toNat := by
  refine List.ext_getElem? fun k => ?_
  rw [Vector.toList_ofFn, List.getElem?_ofFn, getElem?_littleEndian]
  rfl

/-- The bytes of a double word are those of its halves. -/
theorem littleEndian_eight (w : UInt64) : littleEndian 8 w.toNat =
    littleEndian 4 (Word.low w).toNat ++ littleEndian 4 (Word.high w).toNat := by
  rw [← toList_ofFn_byte64, ← toList_ofFn_byte32, ← toList_ofFn_byte32]
  simp [Vector.toList_ofFn, Word.byte32_low, Word.byte32_high]

theorem toList_ofFn_words {n : Nat} (ws : Vector UInt32 n) :
    (Vector.ofFn fun i : Fin (4 * n) => Word.byte32 ws[i.val / 4] (i.val % 4)).toList =
      ws.toList.flatMap fun w => littleEndian 4 w.toNat := by
  refine toList_ofFn_of_digits UInt32.toNat (by decide) rfl ws fun q hq r hr h => ?_
  have h₁ : (4 * q + r) / 4 = q := by omega
  have h₂ : (4 * q + r) % 4 = r := by omega
  simp only [h₁, h₂]
  rfl

namespace Sector

theorem toList_ofWords32 (ws : Vector UInt32 128) :
    (ofWords32 ws).toList = ws.toList.flatMap fun w => littleEndian 4 w.toNat := toList_ofFn_words ws

theorem toList_ofWords64 (ws : Vector UInt64 64) :
    (ofWords64 ws).toList = ws.toList.flatMap fun w => littleEndian 8 w.toNat := by
  unfold ofWords64 ofWords32
  refine toList_ofFn_of_digits UInt64.toNat (by decide) (by decide) ws fun q hq r hr h => ?_
  show _ = Word.byte64 ws[q] r
  simp only [Vector.getElem_ofFn]
  by_cases lower : r < 4
  · have h₁ : (8 * q + r) / 4 % 2 = 0 := by omega
    have h₂ : (8 * q + r) / 4 / 2 = q := by omega
    have h₃ : (8 * q + r) % 4 = r := by omega
    simp only [h₁, h₂, h₃, if_true]
    exact Word.byte32_low _ lower
  · have h₁ : ¬ (8 * q + r) / 4 % 2 = 0 := by omega
    have h₂ : (8 * q + r) / 4 / 2 = q := by omega
    have h₃ : (8 * q + r) % 4 = r - 4 := by omega
    have h₄ : r - 4 + 4 = r := by omega
    simp only [h₂, h₃, if_neg h₁]
    rw [Word.byte32_high _ (by omega), h₄]

end Sector

/-! ## Views of words -/

/-- A whole sector as it is. -/
def View.whole : View Sector where
  size := 512
  alignment := 1
  decode := id
  encode := id

namespace View

theorem plain_byte : byte.Plain fun b => [⟨1, b.toNat⟩] where
  decode_encode _ := rfl
  encode_decode b := by
    refine Vector.ext fun i hi => ?_
    obtain rfl : i = 0 := Nat.lt_one_iff.1 hi
    rfl
  bytes_encode b := by simp [byte, Numeral.bytes, littleEndian]

theorem plain_word32 : word32.Plain fun w => [⟨4, w.toNat⟩] where
  decode_encode w := by
    show Word.of32 _ _ _ _ = w
    simp only [word32, Vector.getElem_ofFn]
    exact Word.of32_byte32 w
  encode_decode b := by
    refine Vector.ext fun i hi => ?_
    have hi : i < 4 := hi
    simp only [word32, Vector.getElem_ofFn]
    match i, hi with
    | 0, _ => exact Word.byte32_of32_zero ..
    | 1, _ => exact Word.byte32_of32_one ..
    | 2, _ => exact Word.byte32_of32_two ..
    | 3, _ => exact Word.byte32_of32_three ..
  bytes_encode w := by
    refine (toList_ofFn_byte32 w).trans ?_
    simp [Numeral.bytes]

theorem plain_word64 : word64.Plain fun w => [⟨8, w.toNat⟩] where
  decode_encode w := by
    show Word.of64 _ _ = w
    simp only [word64, Vector.getElem_ofFn]
    exact Word.of64_byte64 w
  encode_decode b := by
    refine Vector.ext fun i hi => ?_
    have hi : i < 8 := hi
    simp only [word64, Vector.getElem_ofFn]
    match i, hi with
    | 0, _ => exact (Word.byte64_of64_low _ _ (by decide)).trans (Word.byte32_of32_zero ..)
    | 1, _ => exact (Word.byte64_of64_low _ _ (by decide)).trans (Word.byte32_of32_one ..)
    | 2, _ => exact (Word.byte64_of64_low _ _ (by decide)).trans (Word.byte32_of32_two ..)
    | 3, _ => exact (Word.byte64_of64_low _ _ (by decide)).trans (Word.byte32_of32_three ..)
    | 4, _ => exact (Word.byte64_of64_high _ _ (by decide)).trans (Word.byte32_of32_zero ..)
    | 5, _ => exact (Word.byte64_of64_high _ _ (by decide)).trans (Word.byte32_of32_one ..)
    | 6, _ => exact (Word.byte64_of64_high _ _ (by decide)).trans (Word.byte32_of32_two ..)
    | 7, _ => exact (Word.byte64_of64_high _ _ (by decide)).trans (Word.byte32_of32_three ..)
  bytes_encode w := by
    refine (toList_ofFn_byte64 w).trans ?_
    simp [Numeral.bytes]

theorem plain_words64 : words64.Plain fun ws => ws.toList.map fun w => ⟨8, w.toNat⟩ where
  decode_encode := Sector.words64_ofWords64
  encode_decode := Sector.ofWords64_words64
  bytes_encode ws := by
    refine (Sector.toList_ofWords64 ws).trans ?_
    rw [Numeral.bytes, List.flatMap_map]

theorem plain_whole : whole.Plain fun s => s.toList.map fun b => ⟨1, b.toNat⟩ where
  decode_encode _ := rfl
  encode_decode _ := rfl
  bytes_encode s := by
    rw [Numeral.bytes, List.flatMap_map]
    simp [whole, littleEndian]

end View

end SectorVolume
