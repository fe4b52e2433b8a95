import SectorVolume.Sector.Basic

/-!
# Bits in a sector

A sector as a row of 4096 bits: bit `b` is bit `b % 8` of byte `b / 8`, the least significant bit
first. Reading whole words with their least significant byte first gives the bits the same order.
The lemmas say what setting, clearing and searching do to single bits.
-/

namespace SectorVolume

namespace Bit

/-- Whether bit `k` of a byte is set. -/
def isSet (byte : UInt8) (k : Nat) : Bool := byte.toNat.testBit k

/-- The byte with bit `k` set. -/
def set (byte : UInt8) (k : Nat) : UInt8 := UInt8.ofNat (byte.toNat ||| 1 <<< k)

/-- The byte with bit `k` clear. -/
def clear (byte : UInt8) (k : Nat) : UInt8 :=
  if isSet byte k then UInt8.ofNat (byte.toNat ^^^ 1 <<< k) else byte

/-- The bit numbers of a byte. -/
def numbers : List (Fin 8) := [0, 1, 2, 3, 4, 5, 6, 7]

/-- The byte whose bit `k` is `f k`. -/
def pack (f : Nat → Bool) : UInt8 :=
  numbers.foldl (fun (byte : UInt8) (k : Fin 8) => if f k.val then set byte k.val else byte) 0

/-- The number of set bits of a byte. -/
def count (byte : UInt8) : Nat := numbers.countP fun (k : Fin 8) => isSet byte k.val

/-- Setting bit `k` leaves the other bits alone. -/
theorem isSet_set (byte : UInt8) {k : Nat} (hk : k < 8) (j : Nat) :
    isSet (set byte k) j = (isSet byte j || decide (k = j)) := by
  have small : byte.toNat ||| 2 ^ k < 2 ^ 8 :=
    Nat.or_lt_two_pow byte.toNat_lt (Nat.pow_lt_pow_right (by decide) hk)
  rw [isSet, set, Nat.one_shiftLeft, UInt8.toNat_ofNat', Nat.mod_eq_of_lt small, Nat.testBit_or,
    Nat.testBit_two_pow]
  rfl

/-- Clearing bit `k` leaves the other bits alone. -/
theorem isSet_clear (byte : UInt8) {k : Nat} (hk : k < 8) (j : Nat) :
    isSet (clear byte k) j = (isSet byte j && !decide (k = j)) := by
  have small : byte.toNat ^^^ 2 ^ k < 2 ^ 8 :=
    Nat.xor_lt_two_pow byte.toNat_lt (Nat.pow_lt_pow_right (by decide) hk)
  unfold clear
  split
  · next h =>
    rw [isSet, Nat.one_shiftLeft, UInt8.toNat_ofNat', Nat.mod_eq_of_lt small, Nat.testBit_xor,
      Nat.testBit_two_pow]
    by_cases e : k = j
    · subst e
      rw [isSet] at h
      simp [isSet, h]
    · simp [isSet, e]
  · next h =>
    by_cases e : k = j
    · subst e
      simpa using h
    · simp [e]

/-- Eight bits are all there are in a byte. -/
theorem eq_of_isSet {a b : UInt8} (h : ∀ k : Fin 8, isSet a k = isSet b k) : a = b := by
  refine UInt8.toNat_inj.1 (Nat.eq_of_testBit_eq fun k => ?_)
  by_cases hk : k < 8
  · exact h ⟨k, hk⟩
  · have big : 2 ^ 8 ≤ 2 ^ k := Nat.pow_le_pow_right (by decide) (by omega)
    rw [Nat.testBit_lt_two_pow (Nat.lt_of_lt_of_le a.toNat_lt big),
      Nat.testBit_lt_two_pow (Nat.lt_of_lt_of_le b.toNat_lt big)]

theorem mem_numbers (k : Fin 8) : k ∈ numbers := by
  revert k; decide

/-- Setting bits one after the other sets those that are asked for and no others. -/
theorem isSet_foldl_set (f : Nat → Bool) (ks : List (Fin 8)) (byte : UInt8) (j : Fin 8) :
    isSet (ks.foldl (fun byte k => if f k.val then set byte k.val else byte) byte) j =
      (isSet byte j || (ks.contains j && f j)) := by
  induction ks generalizing byte with
  | nil => simp
  | cons k ks ih =>
    rw [List.foldl_cons, ih, List.contains_cons]
    by_cases e : j = k
    · subst e
      by_cases hf : f j.val <;> simp [hf, isSet_set _ j.isLt]
    · have e' : ¬ k.val = j.val := fun h => e (Fin.ext h.symm)
      have e'' : (j == k) = false := beq_eq_false_iff_ne.2 e
      by_cases hf : f k.val <;> simp [hf, isSet_set _ k.isLt, e', e'']

/-- The bits of a packed byte are those given. -/
theorem isSet_pack (f : Nat → Bool) (j : Fin 8) : isSet (pack f) j = f j := by
  have z : isSet 0 j.val = false := by simp [isSet]
  rw [pack, isSet_foldl_set, z, List.contains_iff_mem.2 (mem_numbers j)]
  simp

/-- The search for a bit number finds the least one. -/
theorem find?_numbers {p : Fin 8 → Bool} {k : Fin 8} (h : numbers.find? p = some k) :
    p k = true ∧ ∀ j, j < k → p j = false := by
  obtain ⟨hk, before, after, e, fails⟩ := List.find?_eq_some_iff_append.1 h
  refine ⟨hk, fun j hj => ?_⟩
  have ascending : numbers.Pairwise (· < ·) := by decide
  rw [e] at ascending
  have mem := mem_numbers j
  rw [e] at mem
  rcases List.mem_append.1 mem with mem | mem
  · simpa using fails j mem
  · rcases List.mem_cons.1 mem with rfl | mem
    · exact absurd hj (by omega)
    · have := List.rel_of_pairwise_cons (List.pairwise_append.1 ascending).2.1 mem
      exact absurd this (by omega)

/-- All bits of 255 are set. -/
theorem isSet_full (k : Fin 8) : isSet 255 k = true := by
  revert k; decide

/-- A byte other than 255 has a clear bit. -/
theorem exists_clear {byte : UInt8} (h : byte ≠ 255) : ∃ k : Fin 8, isSet byte k = false := by
  refine Classical.byContradiction fun none => h (eq_of_isSet fun k => ?_)
  have : isSet byte k = true := by
    cases e : isSet byte k.val
    · exact absurd ⟨k, e⟩ none
    · rfl
  rw [this, isSet_full]

end Bit

namespace Sector

/-- Whether bit `b` is set. -/
def bit (s : Sector) (b : Fin 4096) : Bool := Bit.isSet s[b.val / 8] (b.val % 8)

/-- The sector with bit `b` set. -/
def setBit (s : Sector) (b : Fin 4096) : Sector :=
  s.set (b.val / 8) (Bit.set s[b.val / 8] (b.val % 8))

/-- The sector with bit `b` clear. -/
def clearBit (s : Sector) (b : Fin 4096) : Sector :=
  s.set (b.val / 8) (Bit.clear s[b.val / 8] (b.val % 8))

/-- The lowest clear bit. -/
def firstClear (s : Sector) : Option (Fin 4096) :=
  match s.findFinIdx? (· != 255) with
  | none => none
  | some i =>
    (Bit.numbers.find? fun (k : Fin 8) => !Bit.isSet (s.get i) k.val).map fun (k : Fin 8) =>
      ⟨8 * i.val + k.val, by omega⟩

/-- The sector whose bit `b` is `f b`. -/
def ofBits (f : Nat → Bool) : Sector :=
  Vector.ofFn fun i : Fin 512 => Bit.pack fun k => f (8 * i.val + k)

/-- The number of set bits. -/
def setCount (s : Sector) : Nat := s.foldl (fun n byte => n + Bit.count byte) 0

/-- The number of clear bits. -/
def clearCount (s : Sector) : Nat := 4096 - s.setCount

/-- A bit by the number of its byte and its number in there. -/
theorem bit_eq (s : Sector) (b : Fin 4096) {q r : Nat} (hq : q < 512) (hr : r < 8)
    (h : b.val = 8 * q + r) : s.bit b = Bit.isSet s[q] r := by
  have h₁ : b.val / 8 = q := by omega
  have h₂ : b.val % 8 = r := by omega
  simp only [bit, h₁, h₂]

/-- Two bits of the same byte are the same if their numbers in there are. -/
theorem decide_mod_eq {b c : Fin 4096} (h : b.val / 8 = c.val / 8) :
    decide (b.val % 8 = c.val % 8) = decide (b = c) :=
  decide_eq_decide.2 ⟨fun h' => Fin.ext (by omega), fun h' => by rw [h']⟩

/-- Setting a bit leaves the other bits alone. -/
theorem bit_setBit (s : Sector) (b c : Fin 4096) :
    (s.setBit b).bit c = (s.bit c || decide (b = c)) := by
  simp only [bit, setBit, Vector.getElem_set]
  split
  · next h =>
    have e : s[b.val / 8] = s[c.val / 8] := getElem_congr_idx h
    rw [Bit.isSet_set _ (Nat.mod_lt _ (by decide)), decide_mod_eq h, e]
  · next h =>
    have e : b ≠ c := fun h' => h (by rw [h'])
    simp [e]

/-- Clearing a bit leaves the other bits alone. -/
theorem bit_clearBit (s : Sector) (b c : Fin 4096) :
    (s.clearBit b).bit c = (s.bit c && !decide (b = c)) := by
  simp only [bit, clearBit, Vector.getElem_set]
  split
  · next h =>
    have e : s[b.val / 8] = s[c.val / 8] := getElem_congr_idx h
    rw [Bit.isSet_clear _ (Nat.mod_lt _ (by decide)), decide_mod_eq h, e]
  · next h =>
    have e : b ≠ c := fun h' => h (by rw [h'])
    simp [e]

/-- The bits of a sector made of given bits are those given. -/
theorem bit_ofBits (f : Nat → Bool) (b : Fin 4096) : (ofBits f).bit b = f b := by
  have hr : b.val % 8 < 8 := Nat.mod_lt _ (by decide)
  simp only [bit, ofBits, Vector.getElem_ofFn]
  exact (Bit.isSet_pack _ ⟨b.val % 8, hr⟩).trans (congrArg f (Nat.div_add_mod b.val 8))

/-- The bit found clear is clear, and all bits before it are set. -/
theorem bit_of_firstClear_eq_some {s : Sector} {b : Fin 4096} (h : s.firstClear = some b) :
    s.bit b = false ∧ ∀ c, c < b → s.bit c = true := by
  unfold firstClear at h
  split at h
  · cases h
  next i hi =>
  obtain ⟨k, hk, rfl⟩ := Option.map_eq_some_iff.1 h
  obtain ⟨clear, before⟩ := Bit.find?_numbers hk
  have full : ∀ j : Fin 512, j < i → s[j.val] = 255 := by
    intro j hj
    obtain ⟨i', hi', rfl⟩ := Option.map_eq_some_iff.1 hi
    have := (Array.findFinIdx?_eq_some_iff.1 hi').2 ⟨j.val, by simp⟩ hj
    simpa using this
  constructor
  · rw [bit_eq s _ i.isLt k.isLt rfl]
    exact Bool.not_eq_true' _ ▸ clear
  · intro c hc
    have hc : c.val < 8 * i.val + k.val := hc
    have hr : c.val % 8 < 8 := Nat.mod_lt _ (by decide)
    by_cases e : c.val / 8 = i.val
    · rw [bit_eq s c i.isLt hr (by omega)]
      exact Bool.not_eq_false' _ ▸ before ⟨c.val % 8, hr⟩ (show c.val % 8 < k.val by omega)
    · have e' : s[c.val / 8] = 255 :=
        full ⟨c.val / 8, by omega⟩ (show c.val / 8 < i.val by omega)
      rw [bit, e']
      exact Bit.isSet_full ⟨c.val % 8, hr⟩

/-- There is a clear bit unless all bits are set. -/
theorem firstClear_eq_none_iff {s : Sector} : s.firstClear = none ↔ ∀ b, s.bit b = true := by
  constructor
  · intro h b
    unfold firstClear at h
    split at h
    · next hi =>
      have e : s[b.val / 8] = 255 := by
        simpa using Vector.findFinIdx?_eq_none_iff.1 hi s[b.val / 8] (by simp)
      rw [bit, e]
      exact Bit.isSet_full ⟨b.val % 8, Nat.mod_lt _ (by decide)⟩
    · next i hi =>
      obtain ⟨i', hi', rfl⟩ := Option.map_eq_some_iff.1 hi
      have ne := (Array.findFinIdx?_eq_some_iff.1 hi').1
      obtain ⟨k, hk⟩ := Bit.exists_clear (by simpa using ne)
      have none := List.find?_eq_none.1 (Option.map_eq_none_iff.1 h) k (Bit.mem_numbers k)
      exact absurd (Bool.not_eq_true' _ ▸ hk) none
  · intro h
    cases e : s.firstClear with
    | none => rfl
    | some b => exact absurd (h b) (by simp [(bit_of_firstClear_eq_some e).1])

/-- A clear bit is found if all bits before it are set. -/
theorem firstClear_of_bit {s : Sector} {b : Fin 4096} (clear : s.bit b = false)
    (before : ∀ c, c < b → s.bit c = true) : s.firstClear = some b := by
  cases e : s.firstClear with
  | none =>
    rw [firstClear_eq_none_iff.1 e b] at clear
    cases clear
  | some c =>
    obtain ⟨clear', before'⟩ := bit_of_firstClear_eq_some e
    rcases Nat.lt_trichotomy c b with lt | same | lt
    · rw [before c lt] at clear'
      cases clear'
    · rw [Fin.ext same]
    · rw [before' b lt] at clear
      cases clear

end Sector

end SectorVolume
