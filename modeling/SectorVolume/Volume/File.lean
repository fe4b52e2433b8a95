import SectorVolume.Volume.Inode

/-!
# Reading and writing files

A file is read up to its length; sectors that are not allocated read as zeros. Writing past the
length makes the file longer, and stops early when the volume is full or the file has its greatest
length. Whatever stops a write, what it has written and allocated by then is kept in the record.
-/

namespace SectorVolume

namespace Volume

/-- The bytes of one piece of a file. -/
def readPiece (r : Record) (p : Piece) : Action Storage Bytes := do
  match ← r.lookup p.start with
  | some sector => Storage.read sector p.offset p.size
  | none => return Array.replicate p.size 0

/-- The bytes of consecutive pieces of a file after those already read. -/
def readPieces (r : Record) (bytes : Bytes) : List Piece → Action Storage Bytes
  | [] => return bytes
  | p :: rest => do
    let next ← readPiece r p
    readPieces r (bytes ++ next) rest

/-- Reads up to `len` bytes from `offset` on. -/
def readAt (id : NodeId) (offset len : Nat) : Action Volume Bytes := do
  let n ← getNode id
  onSpace (readPieces n.record #[] (pieces offset (min len (n.length - offset))))

/-- Writes consecutive pieces of `data`, which begins at `offset`, and returns the number of bytes
written by then together with what stopped the write, if it was a fault. Running out of free sectors
is no fault here. -/
def writePieces (inode : SectorId) (data : Bytes) (offset written : Nat) :
    List Piece → Action Mapping (Nat × Except Fault Unit)
  | [] => return (written, .ok ())
  | p :: rest => do
    match ← Action.attempt (Growth.ensure p.start) with
    | .error (.exhausted requested) =>
      Mapping.onStorage (Storage.note (.growthExhausted inode requested))
      return (written, .ok ())
    | .error cause => return (written, .error cause)
    | .ok none => return (written, .ok ())
    | .ok (some sector) =>
      let bytes := data.extract (p.start - offset) (p.start - offset + p.size)
      match ← Action.attempt (Mapping.onStorage (Storage.write sector p.offset bytes)) with
      | .error cause => return (written, .error cause)
      | .ok () => writePieces inode data offset (written + p.size) rest

/-- Brings a node up to date after `written` bytes were written at `offset`; `before` is the node as
it was before. The record is written if the file got longer or got new sectors. -/
def settleWrite (id : NodeId) (before : Node) (offset written : Nat) : Action Volume Unit := do
  let longer := written > 0 && offset + written > before.length
  if longer then modifyNode id fun n => { n with length := offset + written }
  if longer || !(← getNode id).record.samePointers before.record then persist id

/-- Writes `data` at `offset` and returns the number of bytes written. Nothing is written while
writes are denied. -/
def writeAt (id : NodeId) (data : Bytes) (offset : Nat) : Action Volume Nat := do
  let before ← getNode id
  if before.denials > 0 then
    note (.writeDenied before.sector)
    return 0
  let room := maxFileSize - offset
  let (written, outcome) ←
    onRecord id <|
      writePieces before.sector data offset 0 (pieces offset (min data.size room))
  if written < data.size && outcome.isOk then
    note (.shortWrite before.sector written data.size offset)
  settleWrite id before offset written
  Action.resume outcome
  return written

/-- Fills consecutive pieces of a file with zeros, as far as they are allocated. -/
def zeroPieces (r : Record) : List Piece → Action Storage Unit
  | [] => return ()
  | p :: rest => do
    match ← r.lookup p.start with
    | some sector => Storage.write sector p.offset (Array.replicate p.size 0)
    | none => pure ()
    zeroPieces r rest

/-- Changes the length of a file within what its sectors hold. What is cut off is cleared, so that
it does not come back when the file grows again. -/
def setLength (id : NodeId) (length : Nat) : Action Volume Unit := do
  let n ← getNode id
  let mapped ← onSpace n.record.mapped
  let limit := mapped.data.length * sectorSize
  if length > limit then Action.fail (.sizeLimit length limit)
  if length < n.length then
    onSpace (zeroPieces n.record (pieces length (min n.length limit - length)))
  modifyNode id fun n => { n with length }
  persist id

end Volume

end SectorVolume
