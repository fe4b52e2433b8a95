import SectorVolume.Volume.Lifecycle
import SectorVolume.Volume.File

/-!
# One disk, many users

A host owns a disk and a log. On the disk it keeps any number of caches, on the caches any number of
volumes, and at most one of the volumes is mounted. Caches of the same disk know nothing of each
other; volumes may share a cache and an allocator.

To run an action of a layer, the host puts the parts together that the action works on and takes
them apart again afterwards, also when the action fails.
-/

namespace SectorVolume

/-- The name of a cache of a host. -/
abbrev CacheId := Nat

/-- The name of a volume of a host. -/
abbrev VolumeId := Nat

/-- The name of an allocator of a host. -/
inductive AllocatorId where
  /-- A bitmap in the storage of the volume. -/
  | bitmap (map : FreeMap)
  /-- An allocator from outside. The host keeps what it remembers. -/
  | supplied (supplier : Supplier) (id : Nat)

/-- A volume without the parts that it shares. -/
structure VolumeEntry where
  /-- The cache that it stands on. -/
  cache : CacheId
  /-- The allocator of its sectors. -/
  allocator : AllocatorId
  /-- Its superblock, if it has one. -/
  superblock : Option Superblock
  /-- All nodes that were ever made. -/
  nodes : Array Node
  /-- The nodes that stand for sectors. -/
  table : OpenTable

instance : Inhabited VolumeEntry := ⟨⟨0, .supplied .queue 0, none, #[], []⟩⟩

/-- A disk and everything on it. -/
structure Host where
  /-- The disk. -/
  disk : Disk
  /-- The log of everything that happens on it. -/
  log : Log
  /-- The caches, by name. -/
  caches : Array Cache
  /-- What the allocators from outside remember, by name. -/
  memories : Array (Queue SectorId)
  /-- The volumes, by name. -/
  volumes : Array VolumeEntry
  /-- The volume at the mount point. -/
  mounted : Option VolumeId

namespace Host

instance : Inhabited Host := ⟨⟨default, {}, #[], #[], #[], none⟩⟩

/-- A host with nothing but a disk. -/
def ofDisk (disk : Disk) (threshold : Option Level) : Host :=
  { disk, log := { threshold }, caches := #[], memories := #[], volumes := #[], mounted := none }

/-- Cache `id`. -/
def cache (h : Host) (id : CacheId) : Cache := h.caches.getD id default

/-- Volume `id`. -/
def volume (h : Host) (id : VolumeId) : VolumeEntry := h.volumes.getD id default

/-- An allocator as the layers above the cache see it. -/
def loadAllocator (memories : Array (Queue SectorId)) : AllocatorId → Allocator
  | .bitmap map => .bitmap map
  | .supplied supplier id => .supplied supplier (memories.getD id default)

/-- What the allocators remember after one of them was used. -/
def storeAllocator (memories : Array (Queue SectorId)) :
    AllocatorId → Allocator → Array (Queue SectorId)
  | .supplied _ id, .supplied _ memory => memories.setIfInBounds id memory
  | _, _ => memories

/-! ## Actions of the layers -/

/-- Runs an action of the disk. -/
def onDisk {α : Type} (x : Action Disk α) : Action Host α := fun
  | ⟨disk, log, caches, memories, volumes, mounted⟩ =>
    match x disk with
    | .ok a disk => .ok a ⟨disk, log, caches, memories, volumes, mounted⟩
    | .error failure disk => .error failure ⟨disk, log, caches, memories, volumes, mounted⟩

/-- Runs an action on cache `id`. -/
def onCache {α : Type} (id : CacheId) (x : Action Storage α) : Action Host α := fun
  | ⟨disk, log, caches, memories, volumes, mounted⟩ =>
    match x ⟨disk, caches.getD id default, log⟩ with
    | .ok a ⟨disk, cache, log⟩ =>
      .ok a ⟨disk, log, caches.setIfInBounds id cache, memories, volumes, mounted⟩
    | .error failure ⟨disk, cache, log⟩ =>
      .error failure ⟨disk, log, caches.setIfInBounds id cache, memories, volumes, mounted⟩

/-- Runs an action on cache `id` with an allocator. -/
def onSpace {α : Type} (id : CacheId) (source : AllocatorId) (x : Action Space α) :
    Action Host α := fun
  | ⟨disk, log, caches, memories, volumes, mounted⟩ =>
    match x ⟨⟨disk, caches.getD id default, log⟩, loadAllocator memories source⟩ with
    | .ok a ⟨⟨disk, cache, log⟩, allocator⟩ =>
      .ok a ⟨disk, log, caches.setIfInBounds id cache, storeAllocator memories source allocator,
        volumes, mounted⟩
    | .error failure ⟨⟨disk, cache, log⟩, allocator⟩ =>
      .error failure ⟨disk, log, caches.setIfInBounds id cache,
        storeAllocator memories source allocator, volumes, mounted⟩

/-- Runs an action on volume `id`. -/
def onVolume {α : Type} (id : VolumeId) (x : Action Volume α) : Action Host α := fun
  | ⟨disk, log, caches, memories, volumes, mounted⟩ =>
    let ⟨cacheId, source, superblock, nodes, table⟩ := volumes.getD id default
    let space : Space :=
      ⟨⟨disk, caches.getD cacheId default, log⟩, loadAllocator memories source⟩
    match x ⟨space, superblock, nodes, table⟩ with
    | .ok a ⟨⟨⟨disk, cache, log⟩, allocator⟩, superblock, nodes, table⟩ =>
      .ok a ⟨disk, log, caches.setIfInBounds cacheId cache,
        storeAllocator memories source allocator,
        volumes.setIfInBounds id ⟨cacheId, source, superblock, nodes, table⟩, mounted⟩
    | .error failure ⟨⟨⟨disk, cache, log⟩, allocator⟩, superblock, nodes, table⟩ =>
      .error failure ⟨disk, log, caches.setIfInBounds cacheId cache,
        storeAllocator memories source allocator,
        volumes.setIfInBounds id ⟨cacheId, source, superblock, nodes, table⟩, mounted⟩

/-! ## New caches, allocators and volumes -/

/-- A new cache of `capacity` slots. -/
def addCache (capacity : Nat) : Action Host CacheId := do
  let cache ← Action.ofExcept (Cache.create capacity)
  modifyGet fun h => (h.caches.size, { h with caches := h.caches.push cache })

/-- A new allocator from outside. -/
def addSupplied (supplier : Supplier) (memory : Queue SectorId) : Action Host AllocatorId :=
  modifyGet fun h =>
    (.supplied supplier h.memories.size, { h with memories := h.memories.push memory })

/-- A new queue of free sectors. -/
def addQueue (ids : Queue SectorId) : Action Host AllocatorId := addSupplied .queue ids

/-- A new volume on a cache and an allocator. -/
def addVolume (cache : CacheId) (allocator : AllocatorId) (superblock : Option Superblock) :
    Action Host VolumeId :=
  modifyGet fun h =>
    (h.volumes.size, { h with volumes := h.volumes.push ⟨cache, allocator, superblock, #[], []⟩ })

/-- Takes in a volume that was just set up or opened, with a cache of its own. -/
def adopt (outcome : Except Volume.Aborted Volume) : Action Host VolumeId := do
  match outcome with
  | .error ⟨cause, disk, log⟩ =>
    modify fun h => { h with disk, log }
    throw cause
  | .ok ⟨⟨⟨disk, cache, log⟩, allocator⟩, superblock, _, _⟩ =>
    let id ← modifyGet fun h =>
      (h.caches.size, { h with disk, log, caches := h.caches.push cache })
    let source ← match allocator with
      | .bitmap map => pure (.bitmap map)
      | .supplied supplier memory => addSupplied supplier memory
    addVolume id source superblock

/-- Sets up a volume on the disk. -/
def format (total : UInt32) (capacity : Nat) (time : Int64) : Action Host VolumeId := do
  let h ← get
  adopt (Volume.format h.disk h.log total capacity time)

/-- Opens the volume on the disk. -/
def openVolume (capacity : Nat) : Action Host VolumeId := do
  let h ← get
  adopt (Volume.open h.disk h.log capacity)

/-! ## The mount point -/

/-- Mounts a volume in place of the one mounted before, which is returned. -/
def mount (id : VolumeId) : Action Host (Option VolumeId) :=
  modifyGet fun h => (h.mounted, { h with mounted := some id })

/-- Takes the mounted volume off the mount point and closes it. -/
def unmount : Action Host Unit := do
  match ← modifyGet fun h => (h.mounted, { h with mounted := none }) with
  | none => return ()
  | some id => onVolume id Volume.close

end Host

end SectorVolume
