import SectorVolume.Calendar
import SectorVolume.Tool.Arguments
import SectorVolume.Tool.Files
import SectorVolume.Volume.Lifecycle
import SectorVolume.Volume.File

/-!
# The image tool

The tool works on a volume in an image file: it sets one up, copies files in and out, shows and
removes inodes. Each command opens the image anew. What it prints, how it ends and which files it
leaves behind are values, so that a whole run can be reasoned about.
-/

namespace SectorVolume

namespace Tool

/-- The files around the tool and what it has printed. -/
structure Desk where
  /-- The files around the tool. -/
  files : Files
  /-- What was printed so far. -/
  output : String

/-- How a command ends early. -/
inductive Stop where
  /-- It says why: the wordings of an error and its causes, outermost first. -/
  | report (causes : List String)
  /-- It breaks down on a broken rule. -/
  | breakdown

/-- A part of a command. -/
abbrev Work := EStateM Stop Desk

/-- Prints a line. -/
def printLine (line : String) : Work Unit :=
  modify fun desk => { desk with output := desk.output ++ line ++ "\n" }

/-- Reports an error of the surrounding system with what was attempted. -/
def onPath {α : Type} (attempted : String) : Except PathError α → Work α
  | .ok a => pure a
  | .error cause => throw (.report [attempted, cause.message])

/-- The end of a command whose work on the volume failed. -/
def stopOf (attempted : List String) : Failure → Stop
  | .fault fault => .report (attempted ++ fault.causes)
  | .violation _ | .blocked => .breakdown

/-- Replaces the content of a file. -/
def saveFile (attempted path : String) (content : Content) : Work Unit := do
  let files ← onPath attempted ((← get).files.write path content)
  modify fun desk => { desk with files }

/-- Keeps what became of an image. -/
def saveImage (image : String) (disk : Disk) : Work Unit :=
  saveFile ("cannot write " ++ image) image disk.content

/-- Takes in a volume that was just set up or opened on an image. -/
def adopt (image : String) (attempted : List String) :
    Except Volume.Aborted Volume → Work Volume
  | .ok volume => do
    saveImage image volume.space.storage.disk
    return volume
  | .error ⟨cause, disk, _⟩ => do
    saveImage image disk
    throw (stopOf attempted cause)

/-- Works on a volume and keeps what became of its image. -/
def onVolume {α : Type} (image : String) (volume : Volume) (x : Action Volume α) :
    Work (α × Volume) := do
  match x volume with
  | .ok a volume =>
    saveImage image volume.space.storage.disk
    return (a, volume)
  | .error cause volume =>
    saveImage image volume.space.storage.disk
    throw (stopOf [] cause)

/-- Opens the volume in an image. -/
def openImage (image : String) (cache : Nat) : Work Volume := do
  let content ← onPath ("cannot open image " ++ image) ((← get).files.read image)
  adopt image [image ++ " is not a sector-fs volume"] (Volume.open (Disk.ofFile content) {} cache)

/-- Sets up a volume in a new image. -/
def format (image : String) (cache : Nat) (sectors : UInt32) (time : Int64) : Work Unit := do
  let content := Content.zeros (sectors.toNat * sectorSize)
  saveFile ("cannot create image " ++ image) image content
  let volume ←
    adopt image ["format failed"] (Volume.format (Disk.ofFile content) {} sectors cache time)
  let (free, volume) ← onVolume image volume Volume.freeCount
  printLine s!"formatted {image}: {sectors} sector(s), {free} free"
  let _ ← onVolume image volume Volume.close

/-- Stores bytes in a new inode, and returns its sector and the number of bytes stored. -/
def store (bytes : Bytes) : Action Volume (SectorId × Nat) := do
  let sector ← Volume.allocateInode
  Volume.createInode sector 0 false
  let id ← Volume.openInode sector
  let written ← Volume.writeAt id bytes 0
  Volume.closeInode id
  Volume.close
  return (sector, written)

/-- Copies a file into a new inode. -/
def put (image : String) (volume : Volume) (file : String) : Work Unit := do
  let content ← onPath ("cannot read " ++ file) ((← get).files.read file)
  let bytes := content.toBytes
  let ((sector, written), _) ← onVolume image volume (store bytes)
  if written < bytes.size then
    throw <| .report
      [s!"volume full: wrote {written} of {bytes.size} byte(s) to inode {sector}"]
  printLine (toString sector)

/-- All bytes of an inode. -/
def retrieve (sector : SectorId) : Action Volume Bytes := do
  let id ← Volume.openInode sector
  let bytes ← Volume.readAt id 0 (← Volume.getNode id).length
  Volume.closeInode id
  return bytes

/-- Copies the content of an inode to a file. -/
def get (image : String) (volume : Volume) (sector : SectorId) (out : String) : Work Unit := do
  let (bytes, _) ← onVolume image volume (retrieve sector)
  saveFile ("cannot write " ++ out) out (Content.ofBytes bytes)
  printLine s!"{bytes.size} byte(s) -> {out}"

/-- The record and the sectors of an inode. -/
def inspect (sector : SectorId) : Action Volume (Record × MappedSectors) := do
  let id ← Volume.openInode sector
  let r := (← Volume.getNode id).currentRecord
  let mapped ← Volume.mappedSectors id
  Volume.closeInode id
  return (r, mapped)

/-- Shows an inode. -/
def stat (image : String) (volume : Volume) (sector : SectorId) : Work Unit := do
  let ((r, mapped), _) ← onVolume image volume (inspect sector)
  let kind := if r.isDirectory then "directory" else "file"
  printLine s!"inode: {sector}"
  printLine s!"length: {r.length} B"
  printLine s!"type: {kind}"
  printLine ("direct: " ++ bracketed r.direct.toList)
  printLine s!"indirect: {r.indirect}"
  printLine s!"double indirect: {r.doubleIndirect}"
  printLine s!"sectors: {mapped.data.length} data, {mapped.index.length} index"

/-- Removes an inode, and returns the number of sectors that this freed. -/
def discard (sector : SectorId) : Action Volume Nat := do
  let before ← Volume.freeCount
  let id ← Volume.openInode sector
  Volume.remove id
  Volume.closeInode id
  Volume.close
  let after ← Volume.freeCount
  if after < before then Action.violate .differenceOverflow
  return after - before

/-- Removes an inode. -/
def rm (image : String) (volume : Volume) (sector : SectorId) : Work Unit := do
  let (freed, _) ← onVolume image volume (discard sector)
  printLine s!"removed inode {sector}, released {freed} sector(s)"

/-- A moment in words, or the number of seconds if it is too far away. -/
def momentText (seconds : Int) : String :=
  match Moment.ofSeconds? seconds with
  | some moment => moment.text
  | none => toString seconds

/-- Shows the superblock and the free space. -/
def info (image : String) (volume : Volume) : Work Unit := do
  match volume.superblock with
  | none => throw (.report ["volume has no superblock"])
  | some sb =>
    printLine s!"total sectors: {sb.totalSectors}"
    let bitmapEnd := sb.bitmapStart.toNat + sb.bitmapSectors.toNat
    if bitmapEnd ≥ wordRange32 then throw .breakdown
    printLine s!"free map: sectors [{sb.bitmapStart}, {bitmapEnd})"
    printLine ("formatted at: " ++ momentText sb.formattedAt.toInt)
    let (free, _) ← onVolume image volume Volume.freeCount
    printLine s!"free sectors: {free}"

/-- Carries out a request at a given time. -/
def perform (request : Invocation) (time : Int64) : Work Unit := do
  match request.command with
  | .format sectors => format request.image request.cache sectors time
  | .put file => put request.image (← openImage request.image request.cache) file
  | .get inode out => get request.image (← openImage request.image request.cache) inode out
  | .stat inode => stat request.image (← openImage request.image request.cache) inode
  | .rm inode => rm request.image (← openImage request.image request.cache) inode
  | .info => info request.image (← openImage request.image request.cache)

/-- How a run of the tool ended. -/
structure Outcome where
  /-- The exit code. -/
  exitCode : Nat
  /-- What was printed. -/
  output : String
  /-- What was reported as an error. -/
  errors : String
  deriving DecidableEq, Repr

/-- The wording of an error and its causes. Several causes are numbered. -/
def reportText : List String → String
  | [] => ""
  | [error] => "Error: " ++ error ++ "\n"
  | [error, cause] => "Error: " ++ error ++ "\n\nCaused by:\n    " ++ cause ++ "\n"
  | error :: causes =>
    let lines := causes.mapIdx fun i cause => s!"    {i}: " ++ cause ++ "\n"
    "Error: " ++ error ++ "\n\nCaused by:\n" ++ String.join lines

/-- Runs the tool with given arguments at a given time. -/
def run (args : List String) (time : Int64) (files : Files) : Outcome × Files :=
  match readArguments args with
  | .help => (⟨0, "", ""⟩, files)
  | .misuse => (⟨2, "", ""⟩, files)
  | .run request =>
    match perform request time ⟨files, ""⟩ with
    | .ok () desk => (⟨0, desk.output, ""⟩, desk.files)
    | .error (.report causes) desk => (⟨1, desk.output, reportText causes⟩, desk.files)
    | .error .breakdown desk => (⟨101, desk.output, ""⟩, desk.files)

end Tool

end SectorVolume
