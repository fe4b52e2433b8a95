import SectorVolume.Sector.View
import SectorVolume.Device.Disk
import SectorVolume.Cache.Clock
import SectorVolume.Log

/-!
# Cached storage

A disk behind a cache. All reads and writes of the layers above go through here.

A sector that is not in the cache takes the place of another one: `vacancy` chooses a slot, writes
its bytes back if they are dirty, and chooses again. A sector that is about to be overwritten as a
whole is not read from the disk first.

`Storage.logical` is what the storage holds as a whole: the bytes in the cache where there are any
and the bytes on the disk elsewhere.
-/

namespace SectorVolume

/-- A disk behind a cache, and the log of what happens there. -/
structure Storage where
  /-- The disk. -/
  disk : Disk
  /-- The cache in front of it. -/
  cache : Cache
  /-- The log. -/
  log : Log

namespace Storage

instance : Inhabited Storage := ⟨⟨default, default, {}⟩⟩

/-- The bytes of a sector: those in the cache, or else those on the disk. -/
def logical (st : Storage) (sector : SectorId) : Sector :=
  match st.cache.lookup sector with
  | some i => st.cache.bytes i
  | none => st.disk.sector sector.toNat

/-- Runs an action of the disk. -/
def onDisk {α : Type} (x : Action Disk α) : Action Storage α := fun
  | ⟨disk, cache, log⟩ =>
    match x disk with
    | .ok a disk => .ok a ⟨disk, cache, log⟩
    | .error failure disk => .error failure ⟨disk, cache, log⟩

/-- Changes the cache. -/
def onCache (f : Cache → Cache) : Action Storage Unit :=
  modify fun ⟨disk, cache, log⟩ => ⟨disk, f cache, log⟩

/-- Logs an event. -/
def note (event : Event) : Action Storage Unit :=
  modify fun ⟨disk, cache, log⟩ => ⟨disk, cache, log.add event⟩

/-- Chooses the slot to be replaced next. -/
def select : Action Storage Selection :=
  modifyGet fun ⟨disk, cache, log⟩ =>
    let (selection, cache) := cache.select
    (selection, ⟨disk, cache, log⟩)

/-! ## Writing back -/

/-- Tells the disk about the bytes of slot `i` if it does not have them, and says whether that was
so. A slot in use has to be waited for. If the disk refuses, the slot stays dirty. -/
def writeBack (i : Nat) : Action Storage Bool := do
  let slot := (← get).cache.slot i
  if slot.pins ≠ 0 then throw .blocked
  match slot.line with
  | some ⟨sector, .dirty, bytes⟩ =>
    match ← onDisk (Disk.write sector.toNat bytes) with
    | .ok () =>
      onCache (·.markClean i)
      note (.wroteBack sector i)
      return true
    | .error cause =>
      note (.writeBackFailed sector cause)
      Action.fail (.device cause)
  | _ => return false

/-- Writes back the given slots in order, and counts those that had to be. -/
def writeBackAll (count : Nat) : List Nat → Action Storage Nat
  | [] => return count
  | i :: rest => do
    let written ← writeBack i
    writeBackAll (if written then count + 1 else count) rest

/-- Writes back everything the disk does not have, and counts the sectors. -/
def flushAll : Action Storage Nat := do
  let count ← writeBackAll 0 (← get).cache.dirtySlots
  note (.cacheFlushed count)
  return count

/-- Writes back one sector if it is in the cache, and says whether it had to be. -/
def flushSector (sector : SectorId) : Action Storage Bool := do
  match (← get).cache.lookup sector with
  | none => return false
  | some i => writeBack i

/-! ## Bringing sectors into the cache -/

/-- A slot that can be given to another sector at once. If the chosen slot cannot, it is written
back first and the choice repeated: then there is at least that slot, unused and clean. -/
def vacancy : Action Storage Nat := do
  let first ← select
  if ((← get).cache.slot first.victim).isReady then return first.victim
  if first.sweep = .forced then note (.slotForced first.victim)
  let _ ← writeBack first.victim
  let second ← select
  return second.victim

/-- Where the first bytes of a sector come from when it gets a slot. -/
inductive Fill where
  /-- From the disk. -/
  | disk
  /-- They are zero, because the caller is about to overwrite all of them. -/
  | blank
  /-- They are given, and the disk does not have them. -/
  | bytes (bytes : Sector)

/-- The first line of a sector. -/
def firstLine (sector : SectorId) : Fill → Action Storage (Except TransferError Line)
  | .disk => do
    match ← onDisk (Disk.read sector.toNat) with
    | .ok bytes => return .ok ⟨sector, .clean, bytes⟩
    | .error cause => return .error cause
  | .blank => return .ok ⟨sector, .clean, Sector.zero⟩
  | .bytes bytes => return .ok ⟨sector, .dirty, bytes⟩

/-- Gives a slot to a sector that has none. If its bytes cannot be read the slot stays empty. -/
def claim (sector : SectorId) (fill : Fill) : Action Storage Nat := do
  let i ← vacancy
  match ((← get).cache.slot i).line with
  | some old => onCache (·.vacate i); note (.evicted old.sector i)
  | none => pure ()
  match ← firstLine sector fill with
  | .ok line =>
    onCache (·.bind i line)
    note (.loaded sector i)
    return i
  | .error cause =>
    note (.loadFailed sector cause)
    Action.fail (.device cause)

/-- The slot of a sector, which gets one if it has none. -/
def fetch (sector : SectorId) (fill : Fill) : Action Storage Nat := do
  match (← get).cache.lookup sector with
  | some i => return i
  | none => claim sector fill

/-! ## Reading and writing -/

/-- Whether a range is inside a sector; `outside` is the violation if it is not. -/
def checkRange (offset len : Nat) (outside : Violation) : Action Storage Unit := do
  if offset + len ≥ wordRange64 then Action.violate .sumOverflow
  if offset + len > sectorSize then Action.violate outside

/-- The bytes of slot `i`, which counts as a use. -/
def readSlot (i : Nat) : Action Storage Sector :=
  modifyGet fun ⟨disk, cache, log⟩ => (cache.bytes i, ⟨disk, cache.touch i, log⟩)

/-- Reads `len` bytes at `offset` of a sector. -/
def read (sector : SectorId) (offset len : Nat) : Action Storage Bytes := do
  checkRange offset len .readOutsideSector
  let bytes ← readSlot (← fetch sector .disk)
  note (.sectorRead sector offset len)
  return bytes.slice offset len

/-- Writes bytes at `offset` of the sector in slot `i`. -/
def overlaySlot (i : Nat) (offset : Nat) (bytes : Bytes) : Action Storage Unit :=
  onCache fun c => c.store i ((c.bytes i).overlay offset bytes)

/-- Writes bytes at `offset` of a sector. A sector that is overwritten as a whole gets its slot with
the new bytes in it. -/
def write (sector : SectorId) (offset : Nat) (bytes : Bytes) : Action Storage Unit := do
  checkRange offset bytes.size .writeOutsideSector
  match (← get).cache.lookup sector with
  | some i =>
    overlaySlot i offset bytes
    note (.sectorWritten sector offset bytes.size)
  | none =>
    if offset = 0 ∧ bytes.size = sectorSize then
      note (.sectorReplaced sector)
      let _ ← claim sector (.bytes (Sector.ofBytes bytes))
    else
      let i ← claim sector .disk
      overlaySlot i offset bytes
      note (.sectorWritten sector offset bytes.size)

/-- Fills a sector with zeros. -/
def writeZeros (sector : SectorId) : Action Storage Unit := write sector 0 Sector.zero.toArray

/-- Reads a whole sector. -/
def readSector (sector : SectorId) : Action Storage Sector := do
  readSlot (← fetch sector .disk)

/-- Changes a whole sector, if `f` does not object. -/
def modifySector {α : Type} (sector : SectorId) (f : Sector → Except Violation (α × Sector)) :
    Action Storage α := do
  let i ← fetch sector .disk
  let (a, bytes) ← Action.ofExcept (f ((← get).cache.bytes i))
  onCache (·.store i bytes)
  return a

/-- Replaces a whole sector without reading it. -/
def replaceSector (sector : SectorId) (bytes : Sector) : Action Storage Unit := do
  let i ← fetch sector .blank
  onCache (·.store i bytes)

/-- Reads a typed value in slot `i`. -/
def readViewSlot {α : Type} (view : View α) (i offset : Nat) : Action Storage α := do
  let a ← Action.ofExcept (view.read ((← get).cache.bytes i) offset)
  onCache (·.touch i)
  return a

/-- Changes a typed value in slot `i` and returns the old one. -/
def modifyViewSlot {α : Type} (view : View α) (i offset : Nat) (f : α → α) : Action Storage α := do
  let (old, bytes) ← Action.ofExcept (view.modify ((← get).cache.bytes i) offset f)
  onCache (·.store i bytes)
  return old

/-- Reads a typed value at `offset` of a sector. -/
def readView {α : Type} (view : View α) (sector : SectorId) (offset : Nat) : Action Storage α := do
  readViewSlot view (← fetch sector .disk) offset

/-- Changes a typed value at `offset` of a sector and returns the old one. -/
def modifyView {α : Type} (view : View α) (sector : SectorId) (offset : Nat) (f : α → α) :
    Action Storage α := do
  modifyViewSlot view (← fetch sector .disk) offset f

/-! ## Pins -/

/-- A claim to a slot: as long as it is held, the slot keeps its sector. -/
structure Pin where
  /-- The slot. -/
  slot : Nat
  /-- The sector that the slot holds. -/
  sector : SectorId
  deriving DecidableEq, Repr

/-- Pins a sector that is in the cache. -/
def pinResident (sector : SectorId) : Action Storage (Option Pin) := do
  match (← get).cache.lookup sector with
  | none => return none
  | some i =>
    onCache (·.pin i)
    return some ⟨i, sector⟩

/-- Pins a sector, which gets a slot if it has none. -/
def pin (sector : SectorId) (fill : Fill) : Action Storage Pin := do
  let i ← fetch sector fill
  onCache (·.pin i)
  return ⟨i, sector⟩

/-- Gives a pin back. -/
def unpin (p : Pin) : Action Storage Unit := onCache (·.unpin p.slot)

/-- Reads a typed value in a pinned slot. -/
def readPinned {α : Type} (view : View α) (p : Pin) (offset : Nat) : Action Storage α :=
  readViewSlot view p.slot offset

/-- Changes a typed value in a pinned slot and returns the old one. -/
def modifyPinned {α : Type} (view : View α) (p : Pin) (offset : Nat) (f : α → α) :
    Action Storage α :=
  modifyViewSlot view p.slot offset f

end Storage

end SectorVolume
