import SectorVolume.Sector.Basic

/-!
# Byte ranges cut at sector boundaries

A range of bytes is the concatenation of pieces that each lie in one sector. Only the first piece
may begin inside a sector and only the last one may end before its sector does.
-/

namespace SectorVolume

/-- A run of bytes that does not cross a sector boundary. -/
structure Piece where
  /-- The position of the first byte. -/
  start : Nat
  /-- The number of bytes. -/
  size : Nat
  deriving DecidableEq, Repr

namespace Piece

/-- The number of the sector that holds the piece. -/
def index (p : Piece) : Nat := p.start / sectorSize

/-- Where in its sector the piece begins. -/
def offset (p : Piece) : Nat := p.start % sectorSize

end Piece

/-- The `len` bytes from `start` on, cut at sector boundaries. -/
def pieces (start len : Nat) : List Piece :=
  if _h : len = 0 then []
  else
    let size := min len (512 - start % 512)
    ⟨start, size⟩ :: pieces (start + size) (len - size)
termination_by len
decreasing_by
  have : start % 512 < 512 := Nat.mod_lt _ (by decide)
  omega

end SectorVolume
