import Std.Data.HashMap
import SectorVolume.Sector.Pieces

/-!
# Content kept by sectors

A long byte string that is mostly zero: only sectors that were written are stored. Bytes past the
end are zero too, so that making the string longer shows zeros.
-/

namespace SectorVolume

/-- A byte string kept by sectors. -/
structure Content where
  /-- The number of bytes. -/
  length : Nat
  /-- The sectors that were written; all others are zero. -/
  sectors : Std.HashMap Nat Sector

namespace Content

/-- A string of zero bytes. -/
def zeros (length : Nat) : Content := ⟨length, {}⟩

instance : Inhabited Content := ⟨zeros 0⟩

/-- The bytes of sector `n`. -/
def sector (c : Content) (n : Nat) : Sector := c.sectors.getD n Sector.zero

/-- Replaces sector `n` and leaves the length alone. -/
def replace (c : Content) (n : Nat) (s : Sector) : Content :=
  { c with sectors := c.sectors.insert n s }

/-- Replaces sector `n`; the string becomes longer if it ended before the end of the sector. -/
def put (c : Content) (n : Nat) (s : Sector) : Content :=
  match c with
  | ⟨length, sectors⟩ => ⟨max length (sectorSize * (n + 1)), sectors.insert n s⟩

/-- Makes the string `length` bytes long: it is cut or continued by zeros. -/
def resize (c : Content) (length : Nat) : Content :=
  if c.length ≤ length then { c with length }
  else
    let last := length / sectorSize
    let kept := c.sectors.filter fun n _ => n < last
    let rest := (c.sector last).slice 0 (length % sectorSize)
    ⟨length, if rest.isEmpty then kept else kept.insert last (Sector.ofBytes rest)⟩

/-- The bytes at `offset`, …, `offset + len - 1`, as far as the string goes. -/
def slice (c : Content) (offset len : Nat) : Bytes :=
  (pieces offset (min len (c.length - offset))).foldl
    (fun bytes p => bytes ++ (c.sector p.index).slice p.offset p.size) #[]

/-- Writes `bytes` at `offset`; the string becomes longer if it ended before the end of the written
range. -/
def patch (c : Content) (offset : Nat) (bytes : Bytes) : Content :=
  let filled := (pieces offset bytes.size).foldl
    (fun c p =>
      c.replace p.index <| (c.sector p.index).overlay p.offset <|
        bytes.extract (p.start - offset) (p.start - offset + p.size)) c
  if bytes.isEmpty then c else { filled with length := max c.length (offset + bytes.size) }

/-- The string with the given bytes. -/
def ofBytes (bytes : Bytes) : Content := (zeros 0).patch 0 bytes

/-- All bytes of the string. -/
def toBytes (c : Content) : Bytes := c.slice 0 c.length

/-- A replaced sector has its new bytes. -/
theorem sector_put_self (c : Content) (n : Nat) (s : Sector) : (c.put n s).sector n = s := by
  simp [put, sector]

/-- Replacing a sector leaves the others alone. -/
theorem sector_put_of_ne (c : Content) {n m : Nat} (s : Sector) (h : m ≠ n) :
    (c.put n s).sector m = c.sector m := by
  simp [put, sector, Std.HashMap.getD_insert, h.symm]

end Content

end SectorVolume
