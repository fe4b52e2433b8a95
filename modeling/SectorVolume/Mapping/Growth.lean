import SectorVolume.Mapping.Walk

/-!
# Growing the map of a file

Writing past the sectors that a file has makes its map grow. In every list of entries the missing
ones before the target are allocated together with it, and a tier is begun only when the one before
is full. So the allocated entries always form an unbroken beginning of the file, also when a growth
stops halfway: what it had hung in by then stays.
-/

namespace SectorVolume

/-- Storage with an allocator, and a record whose map is being changed. -/
structure Mapping where
  /-- Where index blocks are kept and sectors come from. -/
  space : Space
  /-- The record. -/
  record : Record

namespace Mapping

instance : Inhabited Mapping := ⟨⟨default, default⟩⟩

/-- Runs an action that does not concern the record. -/
def onSpace {α : Type} (x : Action Space α) : Action Mapping α := fun
  | ⟨space, record⟩ =>
    match x space with
    | .ok a space => .ok a ⟨space, record⟩
    | .error failure space => .error failure ⟨space, record⟩

instance : MonadLift (Action Space) (Action Mapping) := ⟨onSpace⟩

/-- Changes the record. -/
def modifyRecord (f : Record → Record) : Action Mapping Unit :=
  modify fun ⟨space, record⟩ => ⟨space, f record⟩

end Mapping

namespace Growth

/-- Fills sectors with zeros. -/
def zeroAll : List SectorId → Action Space Unit
  | [] => return ()
  | id :: rest => do
    Storage.writeZeros id
    zeroAll rest

/-- Takes `count` sectors and fills them with zeros. If that fails they are given back. -/
def allocateZeroed (count : Nat) : Action Space (List SectorId) := do
  let ids ← Space.allocate count
  match ← Action.attempt (zeroAll ids) with
  | .ok () => return ids
  | .error cause =>
    Space.releaseAll ids
    Action.fail cause

/-- Takes one sector and fills it with zeros. -/
def allocateOne : Action Space SectorId := do
  return (← allocateZeroed 1).headD 0

/-- The first of the missing entries that lead up to entry `i` without a gap. -/
def firstMissing {n : Nat} (entries : Vector SectorId n) : Nat → Nat
  | 0 => 0
  | i + 1 => if entries[i]?.getD 0 = 0 then firstMissing entries i else i + 1

/-- The entries with `ids` written from entry `first` on. -/
def setFrom {n : Nat} (entries : Vector SectorId n) (first : Nat) (ids : List SectorId) :
    Vector SectorId n :=
  let ids := ids.toArray
  Vector.ofFn fun i => if first ≤ i.val then ids.getD (i - first) entries[i] else entries[i]

/-- Allocates entry `i` and the missing entries before it. -/
def backfill {n : Nat} (entries : Vector SectorId n) (i : Fin n) :
    Action Space (Vector SectorId n) := do
  if entries.get i ≠ 0 then return entries
  let first := firstMissing entries i
  let ids ← allocateZeroed (i + 1 - first)
  return setFrom entries first ids

/-- The sector that entry `i` of an index block names, which is allocated if there is none. -/
def ensureEntry (block : SectorId) (i : Fin 128) : Action Space SectorId := do
  let entries ← IndexBlock.load block
  if entries.get i ≠ 0 then return entries.get i
  let entries ← backfill entries i
  IndexBlock.save block entries
  return entries.get i

/-- Hangs `count` new index blocks into a top block from entry `cursor` on, each but the last one
full. The entries reached are returned in any case. -/
def growChildren (top : IndexBlock) (cursor : Nat) :
    Nat → Action Space (IndexBlock × Except Fault Unit)
  | 0 => return (top, .ok ())
  | count + 1 => do
    match ← Action.attempt allocateOne with
    | .error cause => return (top, .error cause)
    | .ok child =>
      let top := top.setIfInBounds cursor child
      if count = 0 then return (top, .ok ())
      match ← Action.attempt (ensureEntry child (Fin.last 127)) with
      | .error cause => return (top, .error cause)
      | .ok _ => growChildren top (cursor + 1) count

/-- Makes a top block reach entry `outer`, of which `first` is the first missing one. The index
block before that may have been only partly full. -/
def growTop (top : IndexBlock) (first outer : Nat) :
    Action Space (IndexBlock × Except Fault Unit) := do
  let before ←
    if first = 0 then pure (.ok 0)
    else Action.attempt (ensureEntry (top[first - 1]?.getD 0) (Fin.last 127))
  match before with
  | .error cause => return (top, .error cause)
  | .ok _ => growChildren top first (outer + 1 - first)

/-- The sector of an entry of the record, which is allocated if there is none. -/
def ensureDirect (i : Fin 12) : Action Mapping SectorId := do
  let direct ← backfill (← get).record.direct i
  Mapping.modifyRecord fun r => { r with direct }
  return direct.get i

/-- The sector of an entry of the first index block. The first use of the block fills the record's
own entries. -/
def ensureIndirect (i : Fin 128) : Action Mapping SectorId := do
  if (← get).record.indirect = 0 then
    let _ ← ensureDirect (Fin.last 11)
    let sector ← allocateOne
    Mapping.modifyRecord fun r => { r with indirect := sector }
    Mapping.onSpace (Storage.note (.indirectAllocated sector))
  ensureEntry (← get).record.indirect i

/-- The sector of an entry below the top block. The first use of the top block fills the first index
block, and an index block is begun when the one before is full. -/
def ensureDouble (outer inner : Fin 128) : Action Mapping SectorId := do
  if (← get).record.doubleIndirect = 0 then
    let _ ← ensureIndirect (Fin.last 127)
    let sector ← allocateOne
    Mapping.modifyRecord fun r => { r with doubleIndirect := sector }
    Mapping.onSpace (Storage.note (.doubleIndirectAllocated sector))
  let sector := (← get).record.doubleIndirect
  let top ← Mapping.onSpace (IndexBlock.load sector)
  if top.get outer ≠ 0 then ensureEntry (top.get outer) inner
  else
    let (top, grown) ← growTop top (firstMissing top outer) outer
    Mapping.onSpace (IndexBlock.save sector top)
    Action.resume grown
    ensureEntry (top.get outer) inner

/-- The sector for byte `offset`, which is allocated if there is none. Past the greatest length
there is no sector. -/
def ensure (offset : Nat) : Action Mapping (Option SectorId) := do
  match locate offset with
  | none => return none
  | some (.direct i) => return some (← ensureDirect i)
  | some (.indirect i) => return some (← ensureIndirect i)
  | some (.double outer inner) => return some (← ensureDouble outer inner)

end Growth

/-- The sector for byte `offset`. When the byte is to be written, a missing sector is allocated. -/
def Mapping.translate (offset : Nat) (forWriting : Bool) : Action Mapping (Option SectorId) := do
  if forWriting then Growth.ensure offset
  else
    let r := (← get).record
    Mapping.onSpace (r.lookup offset)

end SectorVolume
