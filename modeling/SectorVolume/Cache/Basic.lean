import SectorVolume.Failure
import SectorVolume.Queue
import Std.Data.HashMap

/-!
# The slots of a cache

A cache has a fixed number of slots. A slot is empty or holds the bytes of one sector, with a mark
that says whether they were used lately and whether the disk still has to be told about them. A slot
with pins is in use and keeps its sector. An index finds the slot of a sector, and a ring gives the
order in which slots come up for replacement.
-/

namespace SectorVolume

/-- What is known about the bytes in a slot. -/
inductive Mark where
  /-- As on the disk, and not used since the mark was last taken away. -/
  | clean
  /-- As on the disk, and used lately. -/
  | accessed
  /-- Changed: the disk has to be told before the slot can be given to another sector. -/
  | dirty
  deriving DecidableEq, Repr

/-- The mark after a read. -/
def Mark.afterRead : Mark → Mark
  | .clean => .accessed
  | mark => mark

/-- The mark when the hand passes by. -/
def Mark.demoted : Mark → Mark
  | .accessed => .clean
  | mark => mark

/-- What a slot holds. -/
structure Line where
  /-- The sector. -/
  sector : SectorId
  /-- What is known about its bytes. -/
  mark : Mark
  /-- Its bytes. -/
  bytes : Sector

/-- A slot. -/
structure Slot where
  /-- What the slot holds, if it is not empty. -/
  line : Option Line := none
  /-- The number of users that want the slot to stay as it is. -/
  pins : Nat := 0

namespace Slot

/-- Whether the slot holds bytes that the disk does not have. -/
def isDirty (s : Slot) : Bool :=
  match s.line with
  | some ⟨_, .dirty, _⟩ => true
  | _ => false

/-- Whether the slot was used lately and can be forgotten about. -/
def isAccessed (s : Slot) : Bool :=
  match s.line with
  | some ⟨_, .accessed, _⟩ => true
  | _ => false

/-- The slot with its mark changed. -/
def mapMark (s : Slot) (f : Mark → Mark) : Slot :=
  match s with
  | ⟨none, pins⟩ => ⟨none, pins⟩
  | ⟨some ⟨sector, mark, bytes⟩, pins⟩ => ⟨some ⟨sector, f mark, bytes⟩, pins⟩

/-- The slot with changed bytes, which makes it dirty. -/
def store (s : Slot) (bytes : Sector) : Slot :=
  match s with
  | ⟨none, pins⟩ => ⟨none, pins⟩
  | ⟨some ⟨sector, _, _⟩, pins⟩ => ⟨some ⟨sector, .dirty, bytes⟩, pins⟩

end Slot

/-- A cache of sectors. -/
structure Cache where
  /-- The slots. -/
  slots : Array Slot
  /-- The slots in the order in which they come up for replacement. -/
  ring : Queue Nat
  /-- The slot of each sector that is in the cache. -/
  index : Std.HashMap SectorId Nat

namespace Cache

instance : Inhabited Cache := ⟨⟨#[], default, {}⟩⟩

/-- The number of bytes of memory that a slot takes. -/
def slotFootprint : Nat := 560

/-- A cache of `capacity` empty slots. There has to be one, and all of them have to fit into the
memory that can be addressed. -/
def create (capacity : Nat) : Except Violation Cache :=
  if capacity = 0 then .error .noSlots
  else if slotFootprint * capacity ≥ wordRange64 / 2 then .error .tooManySlots
  else .ok ⟨Array.replicate capacity {}, Queue.ofList (List.range capacity), {}⟩

/-- The number of slots. -/
def capacity (c : Cache) : Nat := c.slots.size

/-- Slot `i`. -/
def slot (c : Cache) (i : Nat) : Slot := c.slots.getD i {}

/-- The slot of a sector, if the sector is in the cache. -/
def lookup (c : Cache) (sector : SectorId) : Option Nat := c.index[sector]?

/-- The bytes in slot `i`; an empty slot has zeros. -/
def bytes (c : Cache) (i : Nat) : Sector :=
  match (c.slot i).line with
  | some line => line.bytes
  | none => Sector.zero

/-- The sectors in the cache, by slot. -/
def resident (c : Cache) : List SectorId :=
  c.slots.toList.filterMap fun s => s.line.map Line.sector

/-- The number of slots with bytes that the disk does not have. -/
def dirtyCount (c : Cache) : Nat := c.slots.countP Slot.isDirty

/-- The slots with bytes that the disk does not have, in ring order. -/
def dirtySlots (c : Cache) : List Nat := c.ring.toList.filter fun i => (c.slot i).isDirty

/-- The cache with slot `i` changed by `f`. -/
def modifySlot (c : Cache) (i : Nat) (f : Slot → Slot) : Cache :=
  match c with
  | ⟨slots, ring, index⟩ => ⟨slots.modify i f, ring, index⟩

/-- Notes that slot `i` was read. -/
def touch (c : Cache) (i : Nat) : Cache := c.modifySlot i (·.mapMark Mark.afterRead)

/-- Replaces the bytes in slot `i`. -/
def store (c : Cache) (i : Nat) (bytes : Sector) : Cache := c.modifySlot i (·.store bytes)

/-- Notes that the disk has the bytes of slot `i`. -/
def markClean (c : Cache) (i : Nat) : Cache := c.modifySlot i (·.mapMark fun _ => .clean)

/-- Empties slot `i`. -/
def vacate (c : Cache) (i : Nat) : Cache :=
  match (c.slot i).line with
  | none => c
  | some line =>
    match c with
    | ⟨slots, ring, index⟩ =>
      ⟨slots.modify i fun s => { s with line := none }, ring, index.erase line.sector⟩

/-- Gives the empty slot `i` to a sector. -/
def bind (c : Cache) (i : Nat) (line : Line) : Cache :=
  match c with
  | ⟨slots, ring, index⟩ =>
    ⟨slots.modify i fun s => { s with line := some line }, ring, index.insert line.sector i⟩

/-- One more user of slot `i`. -/
def pin (c : Cache) (i : Nat) : Cache := c.modifySlot i fun s => { s with pins := s.pins + 1 }

/-- One user of slot `i` less. -/
def unpin (c : Cache) (i : Nat) : Cache := c.modifySlot i fun s => { s with pins := s.pins - 1 }

end Cache

end SectorVolume
