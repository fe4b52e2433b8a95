import SectorVolume.Volume.Basic

/-!
# Creating, opening, closing and removing inodes

Everyone who opens a sector shares one node. A removed inode keeps its sectors until it is closed
for the last time. While they are being given back its node stays in the table with nobody having
it open, so that the sector cannot be opened again; if giving back fails it stays there for good.
-/

namespace SectorVolume

namespace Volume

/-- Takes a sector for a new inode. -/
def allocateInode : Action Volume SectorId := do
  return (← Space.allocate 1).headD 0

/-- Gives the record at hand all sectors of a file of `length` bytes and writes it to its own
sector. If that fails the sectors are given back. -/
def createRecord (sector : SectorId) (length : Nat) : Action Mapping Unit := do
  Mapping.populate length
  let r := (← get).record
  match ← Action.attempt (Mapping.onStorage (saveRecord sector r)) with
  | .ok () => return ()
  | .error cause =>
    let _ ← Mapping.release
    Action.fail cause

/-- Creates an inode with a file of `length` zero bytes. -/
def createInode (sector : SectorId) (length : Nat) (isDirectory : Bool) : Action Volume Unit := do
  if length > maxFileSize then
    note (.createTooLong sector length)
    Action.fail (.sizeLimit length maxFileSize)
  withRecord (Record.make (UInt32.ofNat length) isDirectory) (createRecord sector length)
  note (.inodeCreated sector length isDirectory)

/-- Opens the inode at `sector` when nobody has it open. -/
def readInode (sector : SectorId) : Action Volume NodeId := do
  let r ← onSpace (Storage.readView Record.view sector 0)
  if !r.isValid then
    note (.recordRejected sector r.magic)
    Action.fail (.corrupted sector r.magic)
  let id := (← get).nodes.size
  modify fun ⟨space, superblock, nodes, table⟩ =>
    ⟨space, superblock, nodes.push (Node.ofRecord sector r), table.insert sector id⟩
  note (.inodeOpened sector)
  return id

/-- Opens the inode at `sector`. -/
def openInode (sector : SectorId) : Action Volume NodeId := do
  match (← get).superblock with
  | some sb =>
    if sector ≥ sb.totalSectors then Action.fail (.outOfRange sector sb.totalSectors)
  | none => pure ()
  match (← get).table.lookup sector with
  | some id =>
    if (← getNode id).opens = 0 then
      note (.openWhileReleased sector)
      Action.fail (.released sector)
    modifyNode id fun n => { n with opens := n.opens + 1 }
    return id
  | none => readInode sector

/-- Opens a node once more. -/
def reopen (id : NodeId) : Action Volume Unit := do
  let n ← getNode id
  if n.opens = 0 then Action.violate (.reopenedAfterClose n.sector)
  modifyNode id fun n => { n with opens := n.opens + 1 }

/-- Writes the record of a node, with its length brought up to date, to its sector. -/
def persist (id : NodeId) : Action Volume Unit := do
  modifyNode id fun n => { n with record := n.currentRecord }
  let n ← getNode id
  onSpace (saveRecord n.sector n.record)

/-- Notes that the sectors of a node are to be given back after the last close. -/
def remove (id : NodeId) : Action Volume Unit := do
  modifyNode id fun n => { n with removed := true }
  note (.inodeRemoved (← getNode id).sector)

/-- Denies writes once more. This may not happen more often than the node is open. -/
def denyWrites (id : NodeId) : Action Volume Unit := do
  modifyNode id fun n => { n with denials := n.denials + 1 }
  let n ← getNode id
  if n.denials > n.opens then Action.violate .deniedBeyondOpeners

/-- Takes one denial of writes back. -/
def allowWrites (id : NodeId) : Action Volume Unit := do
  let n ← getNode id
  if n.denials = 0 then Action.violate .allowedWithoutDenial
  if n.denials > n.opens then Action.violate .deniedBeyondOpeners
  modifyNode id fun n => { n with denials := n.denials - 1 }

/-- Gives back all sectors of a removed node and at last the one of its record, whose bytes are
cleared so that nobody takes them for a record. -/
def releaseNode (id : NodeId) : Action Volume Unit := do
  let freed ← onRecord id Mapping.release
  let sector := (← getNode id).sector
  onSpace (Storage.writeZeros sector)
  Space.release sector 1
  note (.inodeReleased sector (freed + 1))

/-- Closes a node once. The record is written first. After the last close the node leaves the table:
at once, and with its record on the disk, or when its sectors are given back. -/
def closeInode (id : NodeId) : Action Volume Unit := do
  persist id
  let n ← getNode id
  if n.opens = 0 then Action.violate (.closedTooOften n.sector)
  modifyNode id fun n => { n with opens := n.opens - 1 }
  if n.opens > 1 then return ()
  if n.removed then
    releaseNode id
    modifyTable (·.erase n.sector)
  else
    modifyTable (·.erase n.sector)
    let _ ← onSpace (Storage.flushSector n.sector)
    note (.inodeClosed n.sector)

/-- All sectors of a node. -/
def mappedSectors (id : NodeId) : Action Volume MappedSectors := do
  let n ← getNode id
  onSpace n.record.mapped

end Volume

end SectorVolume
