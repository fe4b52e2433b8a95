import SectorVolume.Sector.Bits
import SectorVolume.Cache.Storage

/-!
# The free-sector bitmap

One bit per sector of the volume, in a run of sectors of its own: a set bit means that the sector is
taken. Bits are read and changed through the cache. An allocation takes the lowest free sectors, and
either all that were asked for or none.
-/

namespace SectorVolume

/-- Where a bitmap stands and what it manages. -/
structure FreeMap where
  /-- The first sector of the bitmap. -/
  start : SectorId
  /-- The number of sectors of the bitmap. -/
  sectors : Nat
  /-- The number of sectors that it manages. -/
  total : Nat
  deriving DecidableEq, Repr

namespace FreeMap

/-- A bitmap of `sectors` sectors at `start` that manages `total` sectors. It has to have a bit for
each of them. -/
def create (start : SectorId) (sectors total : Nat) : Except Violation FreeMap :=
  if sectors * sectorBits ≥ wordRange64 then .error .productOverflow
  else if sectors * sectorBits < total then .error .bitmapTooSmall
  else .ok ⟨start, sectors, total⟩

/-- Sector number `i` of the bitmap. Its id has to fit a 32-bit word. -/
def sectorAt {σ : Type} (m : FreeMap) (i : Nat) : Action σ SectorId :=
  let position := m.start.toNat + i % wordRange32
  if position < wordRange32 then pure (UInt32.ofNat position) else Action.violate .sumOverflow

/-- Marks the first `reserved` sectors and everything past the end as taken and the rest as
free. -/
def format (m : FreeMap) (reserved : Nat) : Action Storage Unit := do
  Action.forEach (fun i => do
    let sector ← m.sectorAt i
    Storage.modifySector sector fun _ =>
      .ok ((), Sector.ofBits fun b =>
        let bit := i * sectorBits + b
        bit < reserved || bit ≥ m.total)) 0 m.sectors
  Storage.note (.bitmapFormatted m.total reserved)

/-- Takes the lowest free sector at or after bitmap sector `i`, with `count` bitmap sectors left. -/
def takeFrom (m : FreeMap) (i : Nat) : Nat → Action Storage (Option SectorId)
  | 0 => return none
  | count + 1 => do
    let sector ← m.sectorAt i
    match (← Storage.readSector sector).firstClear with
    | some b =>
      Storage.modifySector sector fun s => .ok ((), s.setBit b)
      return some (UInt32.ofNat (i * sectorBits + b.val))
    | none => takeFrom m (i + 1) count

/-- Takes the lowest free sector. -/
def takeOne (m : FreeMap) : Action Storage (Option SectorId) := m.takeFrom 0 m.sectors

/-- Gives one sector back. It has to be managed by the bitmap, and taken. -/
def giveBack (m : FreeMap) (id : SectorId) : Action Storage Unit := do
  let i := id.toNat / sectorBits
  if i ≥ m.sectors then Action.violate (.outsideBitmap id)
  let sector ← m.sectorAt i
  let b : Fin 4096 := ⟨id.toNat % 4096, Nat.mod_lt _ (by decide)⟩
  Storage.modifySector sector fun s =>
    if s.bit b then .ok ((), s.clearBit b) else .error (.alreadyFree id)

/-- Gives back what an allocation took before it failed. A sector that cannot be given back is only
logged. -/
def rollBack (m : FreeMap) : List SectorId → Action Storage Unit
  | [] => return ()
  | id :: rest => do
    match ← Action.attempt (m.giveBack id) with
    | .ok () => pure ()
    | .error cause => Storage.note (.rollbackFailed id cause)
    rollBack m rest

/-- Takes `missing` more sectors for an allocation of `requested` sectors. `taken` are those that it
has already, the latest first. -/
def takeMore (m : FreeMap) (requested : Nat) (taken : List SectorId) :
    Nat → Action Storage (List SectorId)
  | 0 => return taken.reverse
  | missing + 1 => do
    match ← Action.attempt m.takeOne with
    | .ok (some id) => takeMore m requested (id :: taken) missing
    | .ok none =>
      m.rollBack taken.reverse
      Action.fail (.exhausted requested)
    | .error cause =>
      m.rollBack taken.reverse
      Action.fail cause

/-- The bytes that an id takes in a list. -/
def idFootprint : Nat := 4

/-- Takes `count` sectors, or none. The list of their ids has to fit into the memory that can be
addressed, whether there are so many sectors or not. -/
def allocate (m : FreeMap) (count : Nat) : Action Storage (List SectorId) := do
  if idFootprint * count ≥ wordRange64 / 2 then Action.violate .tooManyIds
  m.takeMore count [] count

/-- Gives back `count` sectors from `first` on. Ids are 32-bit words, and so is the number of
sectors. -/
def release (m : FreeMap) (first : SectorId) (count : Nat) : Action Storage Unit := do
  let count := count % wordRange32
  if first.toNat + count ≥ wordRange32 then Action.violate .sumOverflow
  Action.forEach (fun id => m.giveBack (UInt32.ofNat id)) first.toNat count

/-- The number of free sectors in `count` bitmap sectors from number `i` on. -/
def freeFrom (m : FreeMap) (i free : Nat) : Nat → Action Storage Nat
  | 0 => return free
  | count + 1 => do
    let sector ← m.sectorAt i
    let s ← Storage.readSector sector
    freeFrom m (i + 1) (free + s.clearCount) count

/-- The number of free sectors. -/
def freeCount (m : FreeMap) : Action Storage Nat := m.freeFrom 0 0 m.sectors

end FreeMap

end SectorVolume
