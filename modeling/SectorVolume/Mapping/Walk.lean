import SectorVolume.Allocation.Space

/-!
# From file offsets to sectors

Reading the map of a file: which sector holds a byte, and which sectors the file has altogether.
Index blocks are read through the cache. Nothing is assumed about the entries found there; a list of
entries ends at the first zero.
-/

namespace SectorVolume

namespace IndexBlock

/-- The index block in a sector. -/
def ofSector (s : Sector) : IndexBlock := s.words32

/-- The sector of an index block. -/
def toSector (block : IndexBlock) : Sector := Sector.ofWords32 block

/-- The index block that begins with the given entries. -/
def ofList (ids : List SectorId) : IndexBlock :=
  let entries := ids.toArray
  Vector.ofFn fun i => entries.getD i 0

/-- Reads an index block. -/
def load (sector : SectorId) : Action Storage IndexBlock := do
  return ofSector (← Storage.readSector sector)

/-- Writes an index block. -/
def save (sector : SectorId) (block : IndexBlock) : Action Storage Unit :=
  Storage.replaceSector sector block.toSector

/-- Reads one entry of an index block. -/
def entry (sector : SectorId) (i : Fin 128) : Action Storage SectorId := do
  return (← Storage.readSector sector).word32 i

end IndexBlock

/-- The entries up to the first zero. -/
def allocated {n : Nat} (entries : Vector SectorId n) : List SectorId :=
  entries.toList.takeWhile (· ≠ 0)

/-- The sectors of a file. -/
structure MappedSectors where
  /-- The data sectors, in the order of the file. -/
  data : List SectorId
  /-- The index blocks. -/
  index : List SectorId
  deriving DecidableEq, Repr

namespace Record

/-- The data sector for byte `offset`, if one is allocated. -/
def lookup (r : Record) (offset : Nat) : Action Storage (Option SectorId) := do
  let sector ← match locate offset with
    | none => pure 0
    | some (.direct i) => pure r.direct[i]
    | some (.indirect i) =>
      if r.indirect = 0 then pure 0 else IndexBlock.entry r.indirect i
    | some (.double outer inner) =>
      if r.doubleIndirect = 0 then pure 0
      else
        let child ← IndexBlock.entry r.doubleIndirect outer
        if child = 0 then pure 0 else IndexBlock.entry child inner
  return if sector = 0 then none else some sector

/-- The sectors below the given index blocks, and these blocks. -/
def mappedBelow : List SectorId → Action Storage MappedSectors
  | [] => return ⟨[], []⟩
  | child :: rest => do
    let block ← IndexBlock.load child
    let below ← mappedBelow rest
    return ⟨allocated block ++ below.data, child :: below.index⟩

/-- The sectors below a top block, and the index blocks from the top block down. -/
def mappedTop (top : SectorId) : Action Storage MappedSectors := do
  let below ← mappedBelow (allocated (← IndexBlock.load top))
  return ⟨below.data, top :: below.index⟩

/-- All sectors of a file. -/
def mapped (r : Record) : Action Storage MappedSectors := do
  let first ← mappedBelow (if r.indirect = 0 then [] else [r.indirect])
  let rest ← if r.doubleIndirect = 0 then mappedBelow [] else mappedTop r.doubleIndirect
  return ⟨allocated r.direct ++ first.data ++ rest.data, first.index ++ rest.index⟩

end Record

end SectorVolume
