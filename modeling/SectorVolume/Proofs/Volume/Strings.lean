import SectorVolume.Proofs.Volume.Contents

/-!
# Byte strings

A file is a byte string to its users. Writing beyond its end fills the gap with zeros. Two byte
strings are equal if they have the same size and the same bytes, where there are zeros beyond the
end of each.
-/

namespace SectorVolume

namespace Bytes

/-- The bytes, and zeros behind them if there are fewer than `size`. -/
def padded (b : Bytes) (size : Nat) : Bytes := b ++ Array.replicate (size - b.size) 0

/-- The bytes with `new` from `offset` on. -/
def overwritten (b : Bytes) (offset : Nat) (new : Bytes) : Bytes :=
  (padded b offset).extract 0 offset ++ new ++ b.extract (offset + new.size) b.size

/-- The first `size` bytes, or all of them and zeros. -/
def resized (b : Bytes) (size : Nat) : Bytes := (padded b size).extract 0 size

variable {a b new : Bytes} {offset size i : Nat}

theorem size_padded (b : Bytes) (size : Nat) : (padded b size).size = max b.size size := by
  unfold padded
  rw [Array.size_append, Array.size_replicate]
  omega

theorem size_overwritten (b : Bytes) (offset : Nat) (new : Bytes) :
    (overwritten b offset new).size = max b.size (offset + new.size) := by
  unfold overwritten
  rw [Array.size_append, Array.size_append, Array.size_extract, Array.size_extract, size_padded]
  omega

/-- Bytes that are written at the beginning of nothing. -/
theorem overwritten_empty (new : Bytes) : overwritten #[] 0 new = new := by
  simp [overwritten, padded]

theorem size_resized (b : Bytes) (size : Nat) : (resized b size).size = size := by
  unfold resized
  rw [Array.size_extract, size_padded]
  omega

theorem getD_of_lt (h : i < b.size) : b.getD i 0 = b[i] := by
  rw [Array.getD_eq_getD_getElem?, Array.getElem?_eq_getElem h, Option.getD_some]

theorem getD_of_le (h : b.size ≤ i) : b.getD i 0 = 0 := by
  rw [Array.getD_eq_getD_getElem?, Array.getElem?_eq_none h, Option.getD_none]

theorem ext_getD (size : a.size = b.size) (h : ∀ i, a.getD i 0 = b.getD i 0) : a = b := by
  refine Array.ext size fun i hi hi' => ?_
  rw [← getD_of_lt hi, h, getD_of_lt hi']

theorem getD_append (a b : Bytes) (i : Nat) :
    (a ++ b).getD i 0 = if i < a.size then a.getD i 0 else b.getD (i - a.size) 0 := by
  rw [Array.getD_eq_getD_getElem?, Array.getElem?_append]
  by_cases lt : i < a.size
  · rw [if_pos lt, if_pos lt, Array.getD_eq_getD_getElem?]
  · rw [if_neg lt, if_neg lt, Array.getD_eq_getD_getElem?]

theorem getD_extract (b : Bytes) (start stop i : Nat) :
    (b.extract start stop).getD i 0 = if start + i < stop then b.getD (start + i) 0 else 0 := by
  by_cases lt : i < (b.extract start stop).size
  · have lt' := lt
    rw [Array.size_extract] at lt'
    rw [getD_of_lt lt, if_pos (by omega), Array.getElem_extract, getD_of_lt]
  · have le := Nat.not_lt.1 lt
    rw [getD_of_le le]
    rw [Array.size_extract] at le
    by_cases inside : start + i < stop
    · rw [if_pos inside, getD_of_le (by omega)]
    · rw [if_neg inside]

theorem getD_padded (b : Bytes) (size i : Nat) : (padded b size).getD i 0 = b.getD i 0 := by
  unfold padded
  rw [getD_append]
  by_cases lt : i < b.size
  · rw [if_pos lt]
  · rw [if_neg lt, getD_of_le (Nat.not_lt.1 lt), Array.getD_eq_getD_getElem?,
      Array.getElem?_replicate]
    split
    · rfl
    · rfl

theorem getD_overwritten (b : Bytes) (offset : Nat) (new : Bytes) (i : Nat) :
    (overwritten b offset new).getD i 0 =
      if offset ≤ i ∧ i < offset + new.size then new.getD (i - offset) 0 else b.getD i 0 := by
  have front : ((padded b offset).extract 0 offset).size = offset := size_resized b offset
  unfold overwritten
  rw [getD_append, getD_append, Array.size_append, front, getD_extract, getD_extract, getD_padded,
    Nat.zero_add]
  by_cases before : i < offset
  · rw [if_pos (by omega), if_pos before, if_pos before, if_neg (by omega)]
  · by_cases inside : i < offset + new.size
    · rw [if_pos inside, if_neg before, if_pos ⟨Nat.not_lt.1 before, inside⟩]
    · have outside : ¬ (offset ≤ i ∧ i < offset + new.size) := fun h => inside h.2
      rw [if_neg inside, if_neg outside,
        show offset + new.size + (i - (offset + new.size)) = i by omega]
      by_cases lt : i < b.size
      · rw [if_pos lt]
      · rw [if_neg lt, getD_of_le (Nat.not_lt.1 lt)]

theorem getD_resized (b : Bytes) (size i : Nat) :
    (resized b size).getD i 0 = if i < size then b.getD i 0 else 0 := by
  unfold resized
  rw [getD_extract, Nat.zero_add, getD_padded]

theorem getD_span (f : Nat → UInt8) (start size i : Nat) :
    (span f start size).getD i 0 = if i < size then f (start + i) else 0 := by
  by_cases lt : i < size
  · rw [getD_of_lt (by rw [size_span]; exact lt), getElem_span, if_pos lt]
  · rw [getD_of_le (by rw [size_span]; exact Nat.not_lt.1 lt), if_neg lt]

end Bytes

end SectorVolume
