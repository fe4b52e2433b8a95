import SectorVolume.Failure

/-!
# The geometry of a file

A file's data sectors are reached over three tiers: 12 entries in the inode record itself, 128
entries in one index block, and 128 index blocks with 128 entries each below a top block. `locate`
says where the entry for a byte offset stands, and `totalSectors` counts data and index sectors
together.
-/

namespace SectorVolume

/-- The number of entries in the inode record. -/
def directCount : Nat := 12

/-- The number of entries in an index block. -/
def indexCount : Nat := 128

/-- The number of data sectors below the top block. -/
def doubleCount : Nat := indexCount * indexCount

/-- The number of data sectors that the record's own entries reach. -/
def directBound : Nat := directCount

/-- The number of data sectors that the first two tiers reach. -/
def indirectBound : Nat := directBound + indexCount

/-- The number of data sectors that all three tiers reach. -/
def doubleBound : Nat := indirectBound + doubleCount

/-- The number of bytes that the record's own entries reach. -/
def directLimit : Nat := directBound * sectorSize

/-- The number of bytes that the first two tiers reach. -/
def indirectLimit : Nat := indirectBound * sectorSize

/-- The greatest length of a file. -/
def maxFileSize : Nat := doubleBound * sectorSize

/-- The number of bits in a sector. -/
def sectorBits : Nat := sectorSize * 8

/-- The number of slots of a cache if nobody asks for another one. -/
def defaultCapacity : Nat := 64

/-- The place of the entry that names a data sector. -/
inductive Position where
  /-- An entry of the record. -/
  | direct (i : Fin 12)
  /-- An entry of the first index block. -/
  | indirect (i : Fin 128)
  /-- Entry `inner` of the index block that entry `outer` of the top block names. -/
  | double (outer inner : Fin 128)
  deriving DecidableEq, Repr

/-- The place of the entry for data sector number `i` of a file, if a file can have that many. -/
def Position.ofIndex (i : Nat) : Option Position :=
  if h₁ : i < 12 then some (.direct ⟨i, h₁⟩)
  else if h₂ : i < 140 then some (.indirect ⟨i - 12, by omega⟩)
  else if h₃ : i < 16524 then
    some (.double ⟨(i - 140) / 128, by omega⟩ ⟨(i - 140) % 128, by omega⟩)
  else none

/-- The number of the data sector whose entry stands at a position. -/
def Position.index : Position → Nat
  | .direct i => i
  | .indirect i => directBound + i
  | .double outer inner => indirectBound + indexCount * outer + inner

/-- The place of the entry for the data sector that holds byte `offset`. Past the greatest length
there is none. -/
def locate (offset : Nat) : Option Position := Position.ofIndex (offset / sectorSize)

/-- The number of data sectors that hold `size` bytes. -/
def dataSectors (size : Nat) : Nat := (size + (sectorSize - 1)) / sectorSize

/-- The number of index blocks of a file with `data` data sectors. -/
def indexSectors (data : Nat) : Nat :=
  (if data > directBound then 1 else 0) +
  (if data > indirectBound then 1 + (data - indirectBound + (indexCount - 1)) / indexCount else 0)

/-- The number of sectors, data and index, of a file with `data` data sectors. -/
def totalSectors (data : Nat) : Nat := data + indexSectors data

/-- The number of bitmap sectors that manage `total` sectors. -/
def bitmapSectors (total : Nat) : Nat := dataSectors ((total + 7) / 8)

/-! ## The same counts in 64-bit arithmetic -/

/-- A sum, if it fits a 64-bit word. -/
def checkedSum (a b : Nat) : Except Violation Nat :=
  if a + b < wordRange64 then .ok (a + b) else .error .sumOverflow

/-- `dataSectors`, where the intermediate sum has to fit. -/
def dataSectors? (size : Nat) : Except Violation Nat := do
  let _ ← checkedSum size sectorSize
  return dataSectors size

/-- `totalSectors`, where the sum has to fit. -/
def totalSectors? (data : Nat) : Except Violation Nat := checkedSum data (indexSectors data)

/-- `bitmapSectors`, where the intermediate sum has to fit. -/
def bitmapSectors? (total : Nat) : Except Violation Nat := do
  let padded ← checkedSum total 7
  dataSectors? (padded / 8)

/-! ## Positions and numbers -/

theorem Position.index_of_ofIndex {i : Nat} {p : Position} (h : ofIndex i = some p) :
    p.index = i := by
  unfold ofIndex at h
  split at h
  · cases h; rfl
  split at h
  · cases h; show 12 + (i - 12) = i; omega
  split at h
  · cases h; show 140 + 128 * ((i - 140) / 128) + (i - 140) % 128 = i; omega
  · cases h

/-- Only offsets below the greatest length have a position. -/
theorem locate_isSome_iff {offset : Nat} : (locate offset).isSome ↔ offset < maxFileSize := by
  have e : maxFileSize = 16524 * 512 := rfl
  have d : offset / sectorSize = offset / 512 := rfl
  rw [locate, d, e]
  unfold Position.ofIndex
  repeat' split
  all_goals
    simp only [Option.isSome_some, Option.isSome_none, true_iff, Bool.false_eq_true, false_iff]
  all_goals omega

end SectorVolume
