import SectorVolume.Sector.Basic

/-!
# How operations end when they do not succeed

An operation that does not succeed ends in one of three ways, and keeps whatever it changed before.

* A `Fault` is an answer: the volume is full, the device failed, a record is damaged. Callers may
  look at it and go on.
* A `Violation` is a broken rule of use or a broken assumption about stored data. No operation
  recovers from one, so it always reaches the caller.
* A blocked operation waits for a pin that only its own caller could release.

`Action σ α` is a computation on a state `σ` that yields an `α` or fails in one of these ways.
-/

namespace SectorVolume

/-- Why a device did not carry out a transfer. -/
inductive TransferError where
  /-- The device has no such sector. -/
  | outOfRange (sector : Nat)
  /-- The file ends inside or before the sector. -/
  | shortRead
  /-- The file cannot be addressed that far. -/
  | unreachable
  /-- A read that the fault plan lets fail. -/
  | injectedRead
  /-- A write that the fault plan lets fail. -/
  | injectedWrite
  /-- Any other cause, in the words of the device. -/
  | other (text : String)
  deriving DecidableEq, Repr

/-- The wording of a transfer error. -/
def TransferError.message : TransferError → String
  | .outOfRange sector => s!"sector {sector} out of range"
  | .shortRead => "failed to fill whole buffer"
  | .unreachable => "Invalid argument (os error 22)"
  | .injectedRead => "injected read failure"
  | .injectedWrite => "injected write failure"
  | .other text => text

/-- The answers of a storage operation that could not do what it was asked to. -/
inductive Fault where
  /-- The allocator has too few free sectors. -/
  | exhausted (requested : Nat)
  /-- A length beyond what the file can have. -/
  | sizeLimit (requested limit : Nat)
  /-- A transfer failed. -/
  | device (cause : TransferError)
  /-- The sector holds no inode record. -/
  | corrupted (sector : SectorId) (magic : UInt32)
  /-- The inode is on its way out: its sectors are being given back. -/
  | released (sector : SectorId)
  /-- The device holds no volume. -/
  | badSuperblock
  /-- The volume has no such sector. -/
  | outOfRange (sector : SectorId) (total : UInt32)
  deriving DecidableEq, Repr

/-- A number in hexadecimal digits after `0x`. -/
def hexadecimal (n : Nat) : String := "0x" ++ String.ofList (Nat.toDigits 16 n)

namespace Fault

/-- The wording of a fault. -/
def message : Fault → String
  | .exhausted requested => s!"free-space allocator cannot supply {requested} sector(s)"
  | .sizeLimit requested limit => s!"length {requested} exceeds the maximum file size {limit}"
  | .device cause => "block device I/O failed: " ++ cause.message
  | .corrupted sector magic =>
    s!"inode record at sector {sector} is corrupted (magic {hexadecimal magic.toNat})"
  | .released sector => s!"inode at sector {sector} is being released"
  | .badSuperblock => "superblock magic mismatch, not a sector-fs volume"
  | .outOfRange sector total => s!"sector {sector} is outside the device ({total} sectors)"

/-- The faults that a caller may treat as an ordinary refusal: nothing is broken, there is just no
room. -/
def isRecoverable : Fault → Bool
  | .exhausted _ | .sizeLimit _ _ => true
  | _ => false

/-- The wordings of a fault and of what caused it, outermost first. -/
def causes : Fault → List String
  | .device cause => [message (.device cause), cause.message]
  | fault => [fault.message]

end Fault

/-- Broken rules of use and broken assumptions. -/
inductive Violation where
  /-- A sum left the range of its word. -/
  | sumOverflow
  /-- A difference fell below zero. -/
  | differenceOverflow
  /-- A product left the range of its word. -/
  | productOverflow
  /-- A cache without slots. -/
  | noSlots
  /-- A cache beyond all memory. -/
  | tooManySlots
  /-- A list of ids beyond all memory. -/
  | tooManyIds
  /-- A read that leaves the sector. -/
  | readOutsideSector
  /-- A write that leaves the sector. -/
  | writeOutsideSector
  /-- A typed view that leaves the sector. -/
  | viewOutsideSector
  /-- A typed view whose values are aligned more strictly than a sector is. -/
  | overaligned
  /-- A typed view off its alignment by `remainder` bytes. -/
  | misaligned (remainder : Nat)
  /-- A bitmap region too small for the sectors it has to manage. -/
  | bitmapTooSmall
  /-- A sector beyond the bitmap was given back. -/
  | outsideBitmap (sector : SectorId)
  /-- A free sector was given back. -/
  | alreadyFree (sector : SectorId)
  /-- A map needed more sectors than were taken for it. -/
  | tooFewSectors
  /-- A record claims more bytes than its sectors hold. -/
  | lengthBeyondMap
  /-- Writes were denied more often than the inode is open. -/
  | deniedBeyondOpeners
  /-- Writes were allowed that nobody had denied. -/
  | allowedWithoutDenial
  /-- An inode was closed that nobody has open. -/
  | closedTooOften (sector : SectorId)
  /-- A closed inode was opened again through an old handle. -/
  | reopenedAfterClose (sector : SectorId)
  /-- A look at a sector that a device of `sectors` sectors does not have. -/
  | noSuchSector (sectors sector : Nat)
  deriving DecidableEq, Repr

/-- The wording of a violation. -/
def Violation.message : Violation → String
  | .sumOverflow => "attempt to add with overflow"
  | .differenceOverflow => "attempt to subtract with overflow"
  | .productOverflow => "attempt to multiply with overflow"
  | .noSlots => "buffer cache needs at least one slot"
  | .tooManySlots | .tooManyIds => "capacity overflow"
  | .readOutsideSector => "assertion failed: offset + dst.len() <= SECTOR_SIZE"
  | .writeOutsideSector => "assertion failed: offset + src.len() <= SECTOR_SIZE"
  | .viewOutsideSector => "assertion failed: offset + mem::size_of::<T>() <= SECTOR_SIZE"
  | .overaligned => "assertion failed: mem::align_of::<T>() <= mem::align_of::<SectorBuf>()"
  | .misaligned remainder =>
    s!"assertion `left == right` failed\n  left: {remainder}\n right: 0"
  | .bitmapTooSmall => "assertion failed: sectors * SECTOR_BITS >= total"
  | .outsideBitmap sector => s!"sector {sector} outside free map"
  | .alreadyFree sector => s!"releasing free sector {sector}"
  | .tooFewSectors => "populate allocated too few sectors"
  | .lengthBeyondMap =>
    "assertion failed: mapped.data.len() >= bytes_to_sectors(record.length as usize)"
  | .deniedBeyondOpeners => "assertion failed: meta.deny_write_count <= meta.open_count"
  | .allowedWithoutDenial => "allow_write without deny_write"
  | .closedTooOften sector => s!"inode {sector} closed too often"
  | .reopenedAfterClose sector => s!"inode {sector} reopened after close"
  | .noSuchSector sectors sector =>
    s!"index out of bounds: the len is {sectors} but the index is {sector}"

/-- The ways in which an operation can end without its result. -/
inductive Failure where
  /-- An answer that callers may act on. -/
  | fault (fault : Fault)
  /-- A broken rule. -/
  | violation (violation : Violation)
  /-- The operation waits for a pin held by its own caller. -/
  | blocked
  deriving DecidableEq, Repr

/-- A computation on a state `σ`. The state that a failing computation reached is kept. -/
abbrev Action (σ α : Type) := EStateM Failure σ α

namespace Action

variable {σ α : Type}

/-- Ends with a fault. -/
def fail (fault : Fault) : Action σ α := throw (.fault fault)

/-- Ends with a violation. -/
def violate (violation : Violation) : Action σ α := throw (.violation violation)

/-- Ends with a violation if there is one. -/
def ofExcept : Except Violation α → Action σ α
  | .ok a => pure a
  | .error violation => violate violation

/-- Runs an action and hands a fault over as a value. What the action changed stays changed, and a
violation still ends the whole computation. -/
def attempt (x : Action σ α) : Action σ (Except Fault α) := fun s =>
  match x s with
  | .ok a s => .ok (.ok a) s
  | .error (.fault fault) s => .ok (.error fault) s
  | .error failure s => .error failure s

/-- Goes on with the outcome of an attempt. -/
def resume : Except Fault α → Action σ α
  | .ok a => pure a
  | .error fault => fail fault

/-- Runs `f first`, `f (first + 1)`, … for `count` numbers. -/
def forEach (f : Nat → Action σ Unit) (first : Nat) : Nat → Action σ Unit
  | 0 => pure ()
  | count + 1 => do
    f first
    forEach f (first + 1) count

end Action

end SectorVolume
