import SectorVolume.Allocation.FreeMap
import SectorVolume.Allocation.Supplier

/-!
# Storage with an allocator

Layers above ask an allocator for sectors and give them back to it. Two kinds of allocator serve
them: the bitmap in the storage itself, and any allocator from outside.
-/

namespace SectorVolume

/-- A source of free sectors. -/
inductive Allocator where
  /-- A bitmap in the storage. -/
  | bitmap (map : FreeMap)
  /-- An allocator from outside, with what it remembers. -/
  | supplied (supplier : Supplier) (memory : Queue SectorId)

/-- Storage with an allocator of its sectors. -/
structure Space where
  /-- The storage. -/
  storage : Storage
  /-- The source of its free sectors. -/
  allocator : Allocator

namespace Space

instance : Inhabited Space := ⟨⟨default, .supplied .queue default⟩⟩

/-- Runs an action of the storage. -/
def onStorage {α : Type} (x : Action Storage α) : Action Space α := fun
  | ⟨storage, allocator⟩ =>
    match x storage with
    | .ok a storage => .ok a ⟨storage, allocator⟩
    | .error failure storage => .error failure ⟨storage, allocator⟩

instance : MonadLift (Action Storage) (Action Space) := ⟨onStorage⟩

/-- Takes `count` sectors, or none. -/
def allocate (count : Nat) : Action Space (List SectorId) := do
  match (← get).allocator with
  | .bitmap map => map.allocate count
  | .supplied supplier memory =>
    match supplier.take? memory count with
    | some (ids, memory) =>
      modify fun space => { space with allocator := .supplied supplier memory }
      return ids
    | none => Action.fail (.exhausted count)

/-- Gives back `count` sectors from `first` on. Ids are 32-bit words, and so is the number of
sectors. An allocator from outside gets the ids up to the last one that there can be. -/
def release (first : SectorId) (count : Nat) : Action Space Unit := do
  match (← get).allocator with
  | .bitmap map => map.release first count
  | .supplied supplier memory =>
    let count := count % wordRange32
    let room := wordRange32 - first.toNat
    let returned := (List.range (min count room)).map fun i => UInt32.ofNat (first.toNat + i)
    let memory := supplier.give memory returned
    modify fun space => { space with allocator := .supplied supplier memory }
    if count > room then Action.violate .sumOverflow

/-- Gives back single sectors, in order. -/
def releaseAll : List SectorId → Action Space Unit
  | [] => return ()
  | id :: rest => do
    release id 1
    releaseAll rest

/-- The number of free sectors. -/
def freeCount : Action Space Nat := do
  match (← get).allocator with
  | .bitmap map => map.freeCount
  | .supplied supplier memory => return supplier.count memory

end Space

end SectorVolume
