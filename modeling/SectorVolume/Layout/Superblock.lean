import SectorVolume.Sector.View

/-!
# The superblock

The first 24 bytes of sector 0 describe the volume: a magic number, the number of sectors, where the
free-sector bitmap stands, and when the volume was set up. A reader trusts only the magic number.
-/

namespace SectorVolume

/-- The magic number of a volume. -/
def superblockMagic : UInt32 := 0x3b800001

/-- The description of a volume as it stands on the device. -/
structure Superblock where
  /-- Tells a volume from other content. -/
  magic : UInt32
  /-- The number of sectors of the volume. -/
  totalSectors : UInt32
  /-- The first sector of the bitmap. -/
  bitmapStart : UInt32
  /-- The number of sectors of the bitmap. -/
  bitmapSectors : UInt32
  /-- When the volume was set up, in seconds since 1970. -/
  formattedAt : Int64
  deriving DecidableEq, Repr

namespace Superblock

/-- The superblock of a new volume. -/
def make (totalSectors bitmapStart bitmapSectors : UInt32) (formattedAt : Int64) : Superblock where
  magic := superblockMagic
  totalSectors := totalSectors
  bitmapStart := bitmapStart
  bitmapSectors := bitmapSectors
  formattedAt := formattedAt

/-- Whether the magic number is that of a volume. -/
def isValid (sb : Superblock) : Bool := sb.magic == superblockMagic

/-- The superblock that given bytes describe. -/
def decode (b : Vector UInt8 24) : Superblock where
  magic := Word.of32 b[0] b[1] b[2] b[3]
  totalSectors := Word.of32 b[4] b[5] b[6] b[7]
  bitmapStart := Word.of32 b[8] b[9] b[10] b[11]
  bitmapSectors := Word.of32 b[12] b[13] b[14] b[15]
  formattedAt :=
    (Word.of64 (Word.of32 b[16] b[17] b[18] b[19]) (Word.of32 b[20] b[21] b[22] b[23])).toInt64

/-- The bytes of a superblock. -/
def encode (sb : Superblock) : Vector UInt8 24 :=
  let words : Vector UInt32 6 :=
    #v[sb.magic, sb.totalSectors, sb.bitmapStart, sb.bitmapSectors,
      Word.low sb.formattedAt.toUInt64, Word.high sb.formattedAt.toUInt64]
  Vector.ofFn fun i : Fin 24 => Word.byte32 words[i.val / 4] (i.val % 4)

/-- A superblock as a typed view of a sector. -/
def view : View Superblock where
  size := 24
  alignment := 8
  decode := decode
  encode := encode

/-- The superblock at the beginning of a sector. -/
def ofSector (s : Sector) : Superblock := decode (s.window 0 24 (by decide))

/-- The sector with a superblock written at its beginning. -/
def store (sb : Superblock) (s : Sector) : Sector := s.overlay 0 sb.encode.toArray

/-- The fields in words, for diagnosis. -/
def debugText (sb : Superblock) : String :=
  "SuperBlock \x7b magic: " ++ toString sb.magic ++
  ", total_sectors: " ++ toString sb.totalSectors ++
  ", free_map_start: " ++ toString sb.bitmapStart ++
  ", free_map_sectors: " ++ toString sb.bitmapSectors ++
  ", formatted_at: " ++ toString sb.formattedAt.toInt ++ " \x7d"

end Superblock

end SectorVolume
