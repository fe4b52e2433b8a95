/-!
# Sectors

The unit of storage: a string of exactly 512 bytes. A sector is read in slices and overwritten in
place by shorter strings.
-/

namespace SectorVolume

/-- The number of a sector on a device. As an entry of an index it also says "not allocated": that
is what sector number zero stands for there. -/
abbrev SectorId := UInt32

/-- A byte string of any length. -/
abbrev Bytes := Array UInt8

/-- The number of bytes in a sector. -/
def sectorSize : Nat := 512

/-- The content of a sector. -/
abbrev Sector := Vector UInt8 512

/-- The number of values of a 32-bit word. -/
def wordRange32 : Nat := 4294967296

/-- The number of values of a 64-bit word. Sizes and offsets stay below it. -/
def wordRange64 : Nat := 18446744073709551616

namespace Sector

/-- The sector of zero bytes. -/
@[irreducible] def zero : Sector := Vector.replicate 512 0

/-- The sector that begins with `bytes`: a longer string is cut, a shorter one is continued by
zeros. -/
def ofBytes (bytes : Bytes) : Sector := Vector.ofFn fun i => bytes.getD i 0

/-- The bytes at `offset`, …, `offset + len - 1`, as far as they lie inside the sector. -/
def slice (s : Sector) (offset len : Nat) : Bytes := s.toArray.extract offset (offset + len)

/-- The sector with `bytes` written at `offset`. What would stick out is dropped. -/
def overlay (s : Sector) (offset : Nat) (bytes : Bytes) : Sector :=
  Vector.ofFn fun i => if offset ≤ i then bytes.getD (i - offset) s[i] else s[i]

/-- Outside the written range an overlay changes nothing. -/
theorem getElem_overlay_of_not_mem (s : Sector) {offset : Nat} {bytes : Bytes} {i : Nat}
    (hi : i < 512) (h : i < offset ∨ offset + bytes.size ≤ i) :
    (s.overlay offset bytes)[i] = s[i] := by
  simp only [overlay, Vector.getElem_ofFn]
  split
  · rw [Array.getD_eq_getD_getElem?, Array.getElem?_eq_none (by omega)]; rfl
  · rfl

/-- Inside the written range an overlay has the written bytes. -/
theorem getElem_overlay_of_mem (s : Sector) {offset : Nat} {bytes : Bytes} {i : Nat}
    (hi : i < 512) (h₁ : offset ≤ i) (h₂ : i < offset + bytes.size) :
    (s.overlay offset bytes)[i] = bytes[i - offset] := by
  simp only [overlay, Vector.getElem_ofFn, if_pos h₁]
  rw [Array.getD_eq_getD_getElem?, Array.getElem?_eq_getElem (by omega)]; rfl

/-- A slice inside the sector has the asked length. -/
theorem size_slice (s : Sector) {offset len : Nat} (h : offset + len ≤ 512) :
    (s.slice offset len).size = len := by
  simp [slice]; omega

end Sector

end SectorVolume
