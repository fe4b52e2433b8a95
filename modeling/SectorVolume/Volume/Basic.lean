import SectorVolume.Mapping.Populate

/-!
# Volumes and their open inodes

A volume is storage with an allocator, a superblock if it has one, and the inodes that are open. An
open inode is a node: it is shared by everyone who opened the same sector, and it stays around as
long as somebody may still hold on to it. The table says which node stands for a sector at present.
-/

namespace SectorVolume

/-- An open inode. -/
structure Node where
  /-- Where its record stands. -/
  sector : SectorId
  /-- Whether it is a directory. -/
  isDirectory : Bool
  /-- Its record. The length in the record may lag behind. -/
  record : Record
  /-- The number of bytes of the file. -/
  length : Nat
  /-- How often it is open. A node that nobody has open any more is kept in the table as long as its
  sectors are being given back. -/
  opens : Nat
  /-- Whether its sectors are to be given back when it is closed for the last time. -/
  removed : Bool
  /-- How often writes were denied and not allowed again. -/
  denials : Nat

namespace Node

/-- The node of a record that was just read. -/
def ofRecord (sector : SectorId) (r : Record) : Node where
  sector := sector
  isDirectory := r.isDirectory
  record := r
  length := r.length.toNat
  opens := 1
  removed := false
  denials := 0

instance : Inhabited Node := ⟨{ ofRecord 0 default with opens := 0 }⟩

/-- The record with the length up to date. -/
def currentRecord (n : Node) : Record := { n.record with length := UInt32.ofNat n.length }

end Node

/-- The name of a node within its volume. -/
abbrev NodeId := Nat

/-- The nodes that stand for sectors, by ascending sector. -/
abbrev OpenTable := List (SectorId × NodeId)

namespace OpenTable

/-- The table with `id` standing for `sector`. -/
def insert (sector : SectorId) (id : NodeId) : OpenTable → OpenTable
  | [] => [(sector, id)]
  | (sector', id') :: rest =>
    if sector < sector' then (sector, id) :: (sector', id') :: rest
    else if sector = sector' then (sector, id) :: rest
    else (sector', id') :: insert sector id rest

/-- The table with nothing standing for `sector`. -/
def erase (sector : SectorId) (table : OpenTable) : OpenTable :=
  table.filter fun entry => entry.1 ≠ sector

end OpenTable

/-- A volume. -/
structure Volume where
  /-- Its storage and the allocator of its sectors. -/
  space : Space
  /-- Its superblock. A volume on an arbitrary allocator has none. -/
  superblock : Option Superblock
  /-- All nodes that were ever made, in order. -/
  nodes : Array Node
  /-- The nodes that stand for sectors. -/
  table : OpenTable

namespace Volume

/-- A volume without a superblock on storage with an arbitrary allocator. -/
def ofSpace (space : Space) : Volume := ⟨space, none, #[], []⟩

instance : Inhabited Volume := ⟨ofSpace default⟩

/-- Node `id`. -/
def node (v : Volume) (id : NodeId) : Node := v.nodes.getD id default

/-- Runs an action that does not concern the nodes. -/
def onSpace {α : Type} (x : Action Space α) : Action Volume α := fun
  | ⟨space, superblock, nodes, table⟩ =>
    match x space with
    | .ok a space => .ok a ⟨space, superblock, nodes, table⟩
    | .error failure space => .error failure ⟨space, superblock, nodes, table⟩

instance : MonadLift (Action Space) (Action Volume) := ⟨onSpace⟩

/-- Runs an action on the map of node `id`. -/
def onRecord {α : Type} (id : NodeId) (x : Action Mapping α) : Action Volume α := fun
  | ⟨space, superblock, nodes, table⟩ =>
    match x ⟨space, (nodes.getD id default).record⟩ with
    | .ok a ⟨space, record⟩ =>
      .ok a ⟨space, superblock, nodes.modify id fun n => { n with record }, table⟩
    | .error failure ⟨space, record⟩ =>
      .error failure ⟨space, superblock, nodes.modify id fun n => { n with record }, table⟩

/-- Runs an action on the map of a record that belongs to no node. -/
def withRecord {α : Type} (r : Record) (x : Action Mapping α) : Action Volume α := fun
  | ⟨space, superblock, nodes, table⟩ =>
    match x ⟨space, r⟩ with
    | .ok a ⟨space, _⟩ => .ok a ⟨space, superblock, nodes, table⟩
    | .error failure ⟨space, _⟩ => .error failure ⟨space, superblock, nodes, table⟩

/-- The present state of node `id`. -/
def getNode (id : NodeId) : Action Volume Node := return (← get).node id

/-- Changes node `id`. -/
def modifyNode (id : NodeId) (f : Node → Node) : Action Volume Unit :=
  modify fun ⟨space, superblock, nodes, table⟩ => ⟨space, superblock, nodes.modify id f, table⟩

/-- Changes the table. -/
def modifyTable (f : OpenTable → OpenTable) : Action Volume Unit :=
  modify fun ⟨space, superblock, nodes, table⟩ => ⟨space, superblock, nodes, f table⟩

/-- Logs an event. -/
def note (event : Event) : Action Volume Unit := onSpace (Storage.note event)

/-- The number of sectors that have an open inode. -/
def openCount (v : Volume) : Nat := v.table.length

/-- The number of free sectors. -/
def freeCount : Action Volume Nat := Space.freeCount

/-- Writes an inode record to its sector. -/
def saveRecord (sector : SectorId) (r : Record) : Action Storage Unit :=
  Storage.replaceSector sector r.toSector

end Volume

end SectorVolume
