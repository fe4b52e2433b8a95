import SectorVolume.Mapping.Growth

/-!
# Creating and dissolving the map of a file

A file can be given all its sectors at once: they are taken together, so that nothing is taken if
there are too few, and then hung in in the order of the file. Dissolving gives all of them back.
-/

namespace SectorVolume

namespace Mapping

/-- Runs an action of the storage. -/
def onStorage {α : Type} (x : Action Storage α) : Action Mapping α := onSpace (Space.onStorage x)

/-- The first `count` of the sectors that were taken for a map. There must be as many. -/
def supply {σ : Type} (count : Nat) (ids : List SectorId) : Action σ (List SectorId) := do
  if ids.length < count then Action.violate .tooFewSectors
  return ids.take count

/-- Fills `count` new index blocks with `remaining` data sectors, all out of `ids`: each block is
followed by its entries. Returns the index blocks and the data sectors. -/
def fillBlocks (remaining : Nat) :
    Nat → List SectorId → Action Storage (List SectorId × List SectorId)
  | 0, _ => return ([], [])
  | _ + 1, [] => Action.violate .tooFewSectors
  | count + 1, block :: ids => do
    let entries ← supply (min remaining indexCount) ids
    IndexBlock.save block (IndexBlock.ofList entries)
    let (blocks, data) ← fillBlocks (remaining - indexCount) count (ids.drop entries.length)
    return (block :: blocks, entries ++ data)

/-- Hangs `ids` into the record as the sectors of a file with `data` data sectors, and fills the
data sectors with zeros. -/
def fill (data : Nat) (ids : List SectorId) : Action Mapping Unit := do
  let direct ← supply (min data directCount) ids
  let ids := ids.drop direct.length
  modifyRecord fun r => { r with direct := Growth.setFrom r.direct 0 direct }
  if data ≤ directBound then
    Growth.zeroAll direct
  else
    modifyRecord fun r => { r with indirect := ids.headD 0 }
    let (_, first) ← onStorage (fillBlocks (data - directBound) 1 ids)
    let ids := ids.drop (1 + first.length)
    if data ≤ indirectBound then
      Growth.zeroAll (direct ++ first)
    else
      let top := ids.headD 0
      modifyRecord fun r => { r with doubleIndirect := top }
      let remaining := data - indirectBound
      let (blocks, rest) ←
        onStorage (fillBlocks remaining ((remaining + (indexCount - 1)) / indexCount) (ids.drop 1))
      onStorage (IndexBlock.save top (IndexBlock.ofList blocks))
      Growth.zeroAll (direct ++ first ++ rest)

/-- Gives the record all sectors of a file of `length` bytes. If that fails they are given back and
the record has none. -/
def populate (length : Nat) : Action Mapping Unit := do
  if length > maxFileSize then Action.fail (.sizeLimit length maxFileSize)
  let data := dataSectors length
  let total := totalSectors data
  if total = 0 then return ()
  let ids ← Space.allocate total
  onStorage (Storage.note (.populating data (total - data)))
  match ← Action.attempt (fill data ids) with
  | .ok () => return ()
  | .error cause =>
    onStorage (Storage.note (.populateFailed total))
    modifyRecord fun r => Record.make r.length r.isDirectory
    Space.releaseAll ids
    Action.fail cause

/-- Gives all sectors of the record back and counts them. -/
def release : Action Mapping Nat := do
  let r := (← get).record
  let mapped ← onStorage r.mapped
  if mapped.data.length < dataSectors r.length.toNat then Action.violate .lengthBeyondMap
  Space.releaseAll (mapped.data ++ mapped.index)
  modifyRecord Record.withoutSectors
  return mapped.data.length + mapped.index.length

/-- All sectors of the record. -/
def mapped : Action Mapping MappedSectors := do
  let r := (← get).record
  onStorage r.mapped

end Mapping

end SectorVolume
