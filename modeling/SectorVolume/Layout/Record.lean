import SectorVolume.Sector.View
import SectorVolume.Geometry

/-!
# Inode records and index blocks

An inode record fills one sector with 128 words: twelve entries, the sector of the first index
block, the sector of the top block, the length, a directory flag, a magic number and 111 words that
nobody uses but that are kept. An index block fills one sector with 128 entries. In both, entry zero
means "not allocated".
-/

namespace SectorVolume

/-- The magic number of an inode record. -/
def recordMagic : UInt32 := 0x494e4f44

/-- The entries of an index block. -/
abbrev IndexBlock := Vector SectorId 128

/-- An index block without entries. -/
def IndexBlock.empty : IndexBlock := Vector.replicate 128 0

/-- Numbers in square brackets, separated by commas. -/
def bracketed (ids : List SectorId) : String :=
  "[" ++ ", ".intercalate (ids.map toString) ++ "]"

/-- An inode as it stands on the device. -/
structure Record where
  /-- The sectors of the first twelve pieces of the file. -/
  direct : Vector SectorId 12
  /-- The first index block. -/
  indirect : SectorId
  /-- The top block, whose entries name further index blocks. -/
  doubleIndirect : SectorId
  /-- The number of bytes of the file. -/
  length : UInt32
  /-- Not zero for a directory. -/
  directoryFlag : UInt32
  /-- Tells a record from other content. -/
  magic : UInt32
  /-- Words without a meaning. -/
  reserved : Vector UInt32 111
  deriving DecidableEq

namespace Record

/-- A record without sectors. -/
def make (length : UInt32) (isDirectory : Bool) : Record where
  direct := Vector.replicate 12 0
  indirect := 0
  doubleIndirect := 0
  length := length
  directoryFlag := if isDirectory then 1 else 0
  magic := recordMagic
  reserved := Vector.replicate 111 0

instance : Inhabited Record := ⟨make 0 false⟩

/-- Whether the record is that of a directory. -/
def isDirectory (r : Record) : Bool := r.directoryFlag != 0

/-- Whether the magic number is that of a record. -/
def isValid (r : Record) : Bool := r.magic == recordMagic

/-- The record with no sectors left. -/
def withoutSectors (r : Record) : Record :=
  { r with direct := Vector.replicate 12 0, indirect := 0, doubleIndirect := 0 }

/-- Whether two records name the same sectors in the record itself. -/
def samePointers (r r' : Record) : Bool :=
  r.direct == r'.direct && r.indirect == r'.indirect && r.doubleIndirect == r'.doubleIndirect

/-- The record that a sector holds. -/
def ofSector (s : Sector) : Record where
  direct := Vector.ofFn fun i : Fin 12 => s.word32 ⟨i.val, by omega⟩
  indirect := s.word32 12
  doubleIndirect := s.word32 13
  length := s.word32 14
  directoryFlag := s.word32 15
  magic := s.word32 16
  reserved := Vector.ofFn fun i : Fin 111 => s.word32 ⟨17 + i.val, by omega⟩

/-- Word `i` of a record. -/
def word (r : Record) (i : Fin 128) : UInt32 :=
  if h : i.val < 12 then r.direct[i.val]
  else if i.val = 12 then r.indirect
  else if i.val = 13 then r.doubleIndirect
  else if i.val = 14 then r.length
  else if i.val = 15 then r.directoryFlag
  else if h' : i.val = 16 then r.magic
  else r.reserved[i.val - 17]

/-- The sector that holds a record. -/
def toSector (r : Record) : Sector := Sector.ofWords32 (Vector.ofFn r.word)

/-- A record as a typed view of a sector. -/
def view : View Record where
  size := 512
  alignment := 4
  decode := ofSector
  encode := toSector

/-- The fields in words, for diagnosis. -/
def debugText (r : Record) : String :=
  "DiskInode \x7b direct: " ++ bracketed r.direct.toList ++
  ", indirect: " ++ toString r.indirect ++
  ", double_indirect: " ++ toString r.doubleIndirect ++
  ", length: " ++ toString r.length ++
  ", is_dir: " ++ toString r.isDirectory ++
  ", magic: " ++ toString r.magic ++ " \x7d"

end Record

end SectorVolume
