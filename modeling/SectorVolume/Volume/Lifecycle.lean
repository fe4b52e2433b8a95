import SectorVolume.Volume.Basic

/-!
# Setting up, opening and closing volumes

Setting a volume up clears the superblock's sector and the bitmap, writes the superblock, marks the
sectors used so far as taken and writes everything back. Opening a volume reads the superblock and
believes it if the magic number is right. A volume that cannot be set up or opened leaves the disk
and the log as they are by then.
-/

namespace SectorVolume

namespace Volume

/-- What is left when a volume could not be set up or opened. -/
structure Aborted where
  /-- Why it could not. -/
  cause : Failure
  /-- The disk as it is by then. -/
  disk : Disk
  /-- The log as it is by then. -/
  log : Log

/-- Lets an action work on a disk through a new cache, and puts a volume on top. -/
def start (disk : Disk) (log : Log) (capacity : Nat) (x : Action Storage (Superblock × FreeMap)) :
    Except Aborted Volume :=
  match Cache.create capacity with
  | .error violation => .error ⟨.violation violation, disk, log⟩
  | .ok cache =>
    match x ⟨disk, cache, log⟩ with
    | .ok (superblock, map) storage => .ok ⟨⟨storage, .bitmap map⟩, some superblock, #[], []⟩
    | .error cause ⟨disk, _, log⟩ => .error ⟨cause, disk, log⟩

/-- Fills sectors `0`, …, `count - 1` with zeros. -/
def clearSectors (count : Nat) : Action Storage Unit :=
  Action.forEach (fun sector => Storage.writeZeros (UInt32.ofNat sector)) 0 count

/-- Writes a superblock over the beginning of sector 0. -/
def saveSuperblock (sb : Superblock) : Action Storage Unit := do
  let i ← Storage.fetch 0 .blank
  Storage.onCache fun c => c.store i (sb.store (c.bytes i))

/-- Writes the superblock and the bitmap of an empty volume. -/
def initialise (total : UInt32) (time : Int64) : Action Storage (Superblock × FreeMap) := do
  let bitmap := bitmapSectors total.toNat
  let reserved := 1 + bitmap
  clearSectors reserved
  let sb := Superblock.make total 1 (UInt32.ofNat bitmap) time
  saveSuperblock sb
  let map ← Action.ofExcept (FreeMap.create 1 bitmap total.toNat)
  map.format reserved
  let _ ← Storage.flushAll
  if (← get).log.keeps .info then
    let free ← map.freeCount
    Storage.note (.volumeFormatted total bitmap free)
  return (sb, map)

/-- Sets up a volume of `total` sectors on a disk. There has to be room for more than the superblock
and the bitmap. -/
def format (disk : Disk) (log : Log) (total : UInt32) (capacity : Nat) (time : Int64) :
    Except Aborted Volume :=
  let reserved := 1 + bitmapSectors total.toNat
  if reserved ≥ total.toNat then
    .error ⟨.fault (.outOfRange (UInt32.ofNat reserved) total), disk, log⟩
  else start disk log capacity (initialise total time)

/-- Reads the superblock and works out where the bitmap is. -/
def recognise : Action Storage (Superblock × FreeMap) := do
  let sb ← Storage.readView Superblock.view 0 0
  if !sb.isValid then
    Storage.note (.superblockRejected sb)
    Action.fail .badSuperblock
  Storage.note (.volumeOpened sb)
  let map ← Action.ofExcept <|
    FreeMap.create sb.bitmapStart sb.bitmapSectors.toNat sb.totalSectors.toNat
  return (sb, map)

/-- Opens the volume on a disk. -/
def «open» (disk : Disk) (log : Log) (capacity : Nat) : Except Aborted Volume :=
  start disk log capacity recognise

/-- Writes back everything the disk does not have, and counts the sectors. -/
def flush : Action Volume Nat := onSpace Storage.flushAll

/-- Writes back everything before the volume is left. Inodes that are still open are pointed out. -/
def close : Action Volume Unit := do
  let stillOpen := (← get).table.map Prod.fst
  if !stillOpen.isEmpty then note (.closedWithOpenInodes stillOpen)
  let count ← flush
  note (.volumeClosed count)

end Volume

end SectorVolume
