import SectorVolume.Failure
import SectorVolume.Sector.Word

/-!
# Typed views of a sector

A view reads and writes a value of a fixed number of bytes at an offset in a sector. The value must
lie inside the sector, a sector in memory must be aligned as strictly as the view asks for, and the
offset must be a multiple of the view's alignment; anything else is a violation of the rules of use.
Writing through a view changes the bytes of the value only.
-/

namespace SectorVolume

/-- What the address of a sector in memory is a multiple of. -/
def sectorAlignment : Nat := 8

/-- A window of `size` bytes at `offset`. -/
def Sector.window (s : Sector) (offset size : Nat) (h : offset + size ≤ 512) : Vector UInt8 size :=
  Vector.ofFn fun i => s[offset + i.val]

/-- A way to read `size` bytes as a value of type `α` and to write such a value. -/
structure View (α : Type) where
  /-- The number of bytes of a value. -/
  size : Nat
  /-- What offsets must be a multiple of. -/
  alignment : Nat
  /-- The value of given bytes. -/
  decode : Vector UInt8 size → α
  /-- The bytes of a value. -/
  encode : α → Vector UInt8 size

namespace View

variable {α : Type}

/-- The bytes that the view covers at `offset`, if the offset is allowed. -/
def bytes (v : View α) (s : Sector) (offset : Nat) : Except Violation (Vector UInt8 v.size) :=
  if offset + v.size ≥ wordRange64 then .error .sumOverflow
  else if h : offset + v.size ≤ 512 then
    if v.alignment > sectorAlignment then .error .overaligned
    else if offset % v.alignment ≠ 0 then .error (.misaligned (offset % v.alignment))
    else .ok (s.window offset v.size h)
  else .error .viewOutsideSector

/-- The value that stands at `offset`. -/
def read (v : View α) (s : Sector) (offset : Nat) : Except Violation α :=
  v.decode <$> v.bytes s offset

/-- Replaces the value at `offset` by what `f` makes of it; the old value is returned as well. -/
def modify (v : View α) (s : Sector) (offset : Nat) (f : α → α) :
    Except Violation (α × Sector) := do
  let old ← v.read s offset
  return (old, s.overlay offset (v.encode (f old)).toArray)

end View

/-- A single byte. -/
def View.byte : View UInt8 where
  size := 1
  alignment := 1
  decode b := b[0]
  encode b := #v[b]

/-- A 32-bit word. -/
def View.word32 : View UInt32 where
  size := 4
  alignment := 4
  decode b := Word.of32 b[0] b[1] b[2] b[3]
  encode w := Vector.ofFn fun i => Word.byte32 w i

/-- A 64-bit word. -/
def View.word64 : View UInt64 where
  size := 8
  alignment := 8
  decode b := Word.of64 (Word.of32 b[0] b[1] b[2] b[3]) (Word.of32 b[4] b[5] b[6] b[7])
  encode w := Vector.ofFn fun i => Word.byte64 w i

/-- A whole sector as 64 words of 64 bits. -/
def View.words64 : View (Vector UInt64 64) where
  size := 512
  alignment := 8
  decode := Sector.words64
  encode := Sector.ofWords64

end SectorVolume
