import SectorVolume.Layout.Superblock
import SectorVolume.Layout.Record

/-!
# The event log

Operations report what they do as events. Each event has a level, and a log keeps those that are at
least as severe as its threshold; a log without a threshold keeps nothing. Keeping an event changes
the log and nothing else.
-/

namespace SectorVolume

/-- How severe an event is. -/
inductive Level where
  | error
  | warn
  | info
  | debug
  | trace
  deriving DecidableEq, Repr

namespace Level

/-- The position of a level in the order from severe to chatty. -/
def rank : Level → Nat
  | .error => 1
  | .warn => 2
  | .info => 3
  | .debug => 4
  | .trace => 5

/-- The name of a level in a log line. -/
def name : Level → String
  | .error => "ERROR"
  | .warn => "WARN"
  | .info => "INFO"
  | .debug => "DEBUG"
  | .trace => "TRACE"

end Level

/-- What operations report. -/
inductive Event where
  /-- A slot that is dirty or in use has to be given away. -/
  | slotForced (slot : Nat)
  /-- A sector lost its slot. -/
  | evicted (sector : SectorId) (slot : Nat)
  /-- A sector got a slot. -/
  | loaded (sector : SectorId) (slot : Nat)
  /-- The disk refused to read a sector. -/
  | loadFailed (sector : SectorId) (cause : TransferError)
  /-- The disk was told about the bytes of a slot. -/
  | wroteBack (sector : SectorId) (slot : Nat)
  /-- The disk refused to write a sector. -/
  | writeBackFailed (sector : SectorId) (cause : TransferError)
  /-- A part of a sector was read. -/
  | sectorRead (sector : SectorId) (offset len : Nat)
  /-- A part of a sector was written. -/
  | sectorWritten (sector : SectorId) (offset len : Nat)
  /-- A sector that has no slot is about to be overwritten as a whole. -/
  | sectorReplaced (sector : SectorId)
  /-- All dirty slots were written back. -/
  | cacheFlushed (count : Nat)
  /-- A bitmap was set up. -/
  | bitmapFormatted (total reserved : Nat)
  /-- A sector of an allocation that failed could not be given back. -/
  | rollbackFailed (sector : SectorId) (cause : Fault)
  /-- A file is about to get all its sectors. -/
  | populating (data index : Nat)
  /-- A file did not get its sectors, and they are about to be given back. -/
  | populateFailed (count : Nat)
  /-- A file got its first index block. -/
  | indirectAllocated (sector : SectorId)
  /-- A file got its top block. -/
  | doubleIndirectAllocated (sector : SectorId)
  /-- A volume was set up. -/
  | volumeFormatted (total : UInt32) (bitmap free : Nat)
  /-- The disk holds no volume. -/
  | superblockRejected (superblock : Superblock)
  /-- A volume was recognised. -/
  | volumeOpened (superblock : Superblock)
  /-- A new file would be too long. -/
  | createTooLong (inode : SectorId) (length : Nat)
  /-- An inode was created. -/
  | inodeCreated (inode : SectorId) (length : Nat) (isDirectory : Bool)
  /-- Someone tried to open an inode that is on its way out. -/
  | openWhileReleased (inode : SectorId)
  /-- A sector holds no inode record. -/
  | recordRejected (inode : SectorId) (magic : UInt32)
  /-- An inode was opened that nobody had open. -/
  | inodeOpened (inode : SectorId)
  /-- A volume is about to be left with inodes still open. -/
  | closedWithOpenInodes (inodes : List SectorId)
  /-- A volume was left. -/
  | volumeClosed (count : Nat)
  /-- A write came while writes were denied. -/
  | writeDenied (inode : SectorId)
  /-- A write stopped early without a fault. -/
  | shortWrite (inode : SectorId) (written asked offset : Nat)
  /-- A file could not grow for want of free sectors. -/
  | growthExhausted (inode : SectorId) (requested : Nat)
  /-- An inode was marked for removal. -/
  | inodeRemoved (inode : SectorId)
  /-- An inode was closed for the last time. -/
  | inodeClosed (inode : SectorId)
  /-- The sectors of a removed inode were given back. -/
  | inodeReleased (inode : SectorId) (count : Nat)

namespace Event

/-- The level of an event. -/
def level : Event → Level
  | .loadFailed .. | .writeBackFailed .. | .rollbackFailed .. | .populateFailed ..
  | .superblockRejected .. | .recordRejected .. => .error
  | .slotForced .. | .createTooLong .. | .closedWithOpenInodes .. | .shortWrite .. => .warn
  | .volumeFormatted .. | .volumeClosed .. => .info
  | .evicted .. | .loaded .. | .wroteBack .. | .sectorRead .. | .sectorWritten ..
  | .sectorReplaced .. | .cacheFlushed .. => .trace
  | .bitmapFormatted .. | .populating .. | .indirectAllocated .. | .doubleIndirectAllocated ..
  | .volumeOpened .. | .inodeCreated .. | .openWhileReleased .. | .inodeOpened ..
  | .writeDenied .. | .growthExhausted .. | .inodeRemoved .. | .inodeClosed ..
  | .inodeReleased .. => .debug

/-- The wording of an event. -/
def message : Event → String
  | .slotForced slot => s!"cache: every slot dirty or in use, forcing slot {slot}"
  | .evicted sector slot => s!"cache: evict sector {sector} from slot {slot}"
  | .loaded sector slot => s!"cache: load sector {sector} into slot {slot}"
  | .loadFailed sector cause => s!"cache: failed to read sector {sector}: {cause.message}"
  | .wroteBack sector slot => s!"cache: wrote back sector {sector} from slot {slot}"
  | .writeBackFailed sector cause =>
    s!"cache: failed to write back sector {sector}: {cause.message}"
  | .sectorRead sector offset len => s!"cache: read sector {sector} [{offset}, +{len})"
  | .sectorWritten sector offset len => s!"cache: write sector {sector} [{offset}, +{len})"
  | .sectorReplaced sector => s!"cache: overwrite sector {sector}"
  | .cacheFlushed count => s!"cache: flushed {count} sector(s)"
  | .bitmapFormatted total reserved =>
    s!"free map: formatted {total} sector(s), {reserved} reserved"
  | .rollbackFailed sector cause =>
    s!"free map: rollback of sector {sector} failed: {cause.message}"
  | .populating data index => s!"block map: populate {data} data + {index} index sector(s)"
  | .populateFailed count => s!"block map: populate failed, releasing {count} sector(s)"
  | .indirectAllocated sector => s!"block map: indirect block at sector {sector}"
  | .doubleIndirectAllocated sector => s!"block map: double indirect block at sector {sector}"
  | .volumeFormatted total bitmap free =>
    s!"format: {total} sector(s), free map {bitmap} sector(s), {free} free"
  | .superblockRejected superblock => "open: bad superblock " ++ superblock.debugText
  | .volumeOpened superblock => "open: " ++ superblock.debugText
  | .createTooLong inode length => s!"create: inode {inode} length {length} exceeds {maxFileSize}"
  | .inodeCreated inode length isDirectory =>
    s!"create: inode {inode} length {length} dir {isDirectory}"
  | .openWhileReleased inode => s!"open: inode {inode} is being released"
  | .recordRejected inode magic =>
    s!"open: inode {inode} has bad magic {hexadecimal magic.toNat}"
  | .inodeOpened inode => s!"open: inode {inode}"
  | .closedWithOpenInodes inodes => s!"close: inode(s) {bracketed inodes} are still open"
  | .volumeClosed count => s!"close: flushed {count} sector(s)"
  | .writeDenied inode => s!"write: inode {inode} is write-denied"
  | .shortWrite inode written asked offset =>
    s!"write: inode {inode} short write {written} of {asked} byte(s) at {offset}"
  | .growthExhausted inode requested =>
    s!"write: inode {inode} growth needs {requested} more sector(s), allocator exhausted"
  | .inodeRemoved inode => s!"remove: inode {inode}"
  | .inodeClosed inode => s!"close: inode {inode}"
  | .inodeReleased inode count =>
    s!"close: inode {inode} removed, released {count} sector(s)"

/-- The log line of an event: its level and its wording. -/
def line (e : Event) : String := e.level.name ++ " " ++ e.message

end Event

/-- A log. -/
structure Log where
  /-- The least severe level that is kept. -/
  threshold : Option Level := none
  /-- The events kept so far, in order. -/
  events : Array Event := #[]

namespace Log

/-- Whether events of a level are kept. -/
def keeps (log : Log) (level : Level) : Bool :=
  match log.threshold with
  | none => false
  | some threshold => level.rank ≤ threshold.rank

/-- The log after an event. -/
def add (log : Log) (e : Event) : Log :=
  if log.keeps e.level then { log with events := log.events.push e } else log

end Log

end SectorVolume
