import Std.Time.DateTime.Timestamp
import SectorVolume.Tool.Run

/-!
# The image tool as a program

Looks up the paths that a request names, runs the tool on what is found there, and stores the files
that it changed.
-/

namespace SectorVolume

namespace Main

/-- The paths that a request reads or writes. -/
def pathsOf (request : Tool.Invocation) : List String :=
  match request.command with
  | .put file => [request.image, file]
  | .get _ out => [request.image, out]
  | _ => [request.image]

/-- The beginnings of a path, name by name. -/
def beginnings (path : String) : List String :=
  let names := Files.names path
  (List.range names.length).map fun i => "/".intercalate (names.take (i + 1))

/-- What stands at a path. A directory cannot be read as a file. -/
def probe (path : String) : IO (Option Entry) := do
  match ← (IO.FS.readBinFile path).toBaseIO with
  | .ok bytes => return some (.file (Content.ofBytes bytes.data))
  | .error (.inappropriateType ..) => return some .directory
  | .error _ => return none

/-- The files on the way to the given paths. -/
def survey (paths : List String) : IO Files := do
  let mut files := Files.empty
  for path in paths.flatMap beginnings do
    if let .ok place := files.resolve path then
      if (files.lookup place).isNone then
        if let some entry ← probe path then
          files := files.insert place entry
  return files

/-- Stores the files at the given paths that are not as they were before. -/
def store (before after : Files) (paths : List String) : IO Unit := do
  for path in paths do
    if let .ok content := after.read path then
      let bytes := content.toBytes
      let unchanged := match before.read path with
        | .ok old => old.toBytes == bytes
        | .error _ => false
      unless unchanged do IO.FS.writeBinFile path ⟨bytes⟩

/-- The number of seconds since the beginning of 1970. -/
def now : IO Int64 := return (← Std.Time.Timestamp.now).toSecondsSinceUnixEpoch.val.toInt64

end Main

end SectorVolume

open SectorVolume in
def main (args : List String) : IO UInt32 := do
  let paths := match Tool.readArguments args with
    | .run request => Main.pathsOf request
    | _ => []
  let before ← Main.survey paths
  let (outcome, after) := Tool.run args (← Main.now) before
  Main.store before after paths
  (← IO.getStdout).putStr outcome.output
  (← IO.getStderr).putStr outcome.errors
  return UInt32.ofNat outcome.exitCode
