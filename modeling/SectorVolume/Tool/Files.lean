import SectorVolume.Device.Content

/-!
# The files around the image tool

The files and directories that the tool can see, by their place. A path is followed component by
component; every component but the last has to be a directory.
-/

namespace SectorVolume

/-- Why the surrounding system refuses to work on a path. -/
inductive PathError where
  /-- There is nothing. -/
  | notFound
  /-- There is something already. -/
  | alreadyExists
  /-- Something on the way is a file. -/
  | notDirectory
  /-- It is a directory. -/
  | isDirectory
  /-- A name is longer than names can be, or the whole path is. -/
  | nameTooLong
  /-- The path has a null character in it, which no name can have. -/
  | nullInName
  deriving DecidableEq, Repr

/-- The wording of a path error. -/
def PathError.message : PathError → String
  | .notFound => "No such file or directory (os error 2)"
  | .alreadyExists => "File exists (os error 17)"
  | .notDirectory => "Not a directory (os error 20)"
  | .isDirectory => "Is a directory (os error 21)"
  | .nameTooLong => "File name too long (os error 36)"
  | .nullInName => "file name contained an unexpected NUL byte"

/-- What stands at a place. -/
inductive Entry where
  /-- A file. -/
  | file (content : Content)
  /-- A directory. -/
  | directory

/-- A place: the names that lead there from the working directory. Names of `..` at the front lead
out of it, and a first name of `/` starts at the root. -/
abbrev Place := List String

/-- Files and directories by place. -/
structure Files where
  /-- What stands where, apart from the directories that are always there. -/
  entries : List (Place × Entry)

namespace Files

/-- Nothing but the working directory. -/
def empty : Files := ⟨[]⟩

instance : Inhabited Files := ⟨empty⟩

/-- The working directory, the directories around it and the root are always there. -/
def isOuter (place : Place) : Bool := place == ["/"] || place.all (· == "..")

/-- What stands at a place. -/
def lookup (fs : Files) (place : Place) : Option Entry :=
  if isOuter place then some .directory else fs.entries.lookup place

/-- Puts something at a place. -/
def insert (fs : Files) (place : Place) (entry : Entry) : Files :=
  ⟨(place, entry) :: fs.entries.filter fun e => e.1 ≠ place⟩

/-- The number of bytes that a name can have. -/
def longestName : Nat := 255

/-- The number of bytes that a path can have. -/
def longestPath : Nat := 4095

/-- The place that a name leads to from a directory. -/
def enter (place : Place) (name : String) : Place :=
  if name = "" ∨ name = "." then place
  else if name = ".." then
    if place = ["/"] then place
    else if isOuter place then place ++ [".."]
    else place.dropLast
  else place ++ [name]

/-- Follows names from a place. Each place passed has to be a directory. -/
def follow (fs : Files) (place : Place) : List String → Except PathError Place
  | [] => .ok place
  | name :: rest =>
    match fs.lookup place with
    | none => .error .notFound
    | some (.file _) => .error .notDirectory
    | some .directory =>
      if name.utf8ByteSize > longestName then .error .nameTooLong
      else follow fs (enter place name) rest

/-- The names in a path. -/
def names (path : String) : List String := path.splitOn "/"

/-- The place where a path begins. -/
def origin (path : String) : Place := if path.startsWith "/" then ["/"] else []

/-- Whether a path can lead anywhere. -/
def checkPath (path : String) : Except PathError Unit :=
  if path.contains '\x00' then .error .nullInName
  else if path = "" then .error .notFound
  else if path.utf8ByteSize > longestPath then .error .nameTooLong
  else .ok ()

/-- The place that a path leads to. -/
def resolve (fs : Files) (path : String) : Except PathError Place := do
  checkPath path
  fs.follow (origin path) (names path)

/-- The content of an existing file. -/
def read (fs : Files) (path : String) : Except PathError Content := do
  match fs.lookup (← fs.resolve path) with
  | none => .error .notFound
  | some .directory => .error .isDirectory
  | some (.file content) => .ok content

/-- The names in a path, without the slashes that it ends with. -/
def bareNames (path : String) : List String := ((names path).reverse.dropWhile (· = "")).reverse

/-- The place of a file to be written. A name with a slash behind it can only be that of a
directory, whether there is one or not. -/
def resolveFile (fs : Files) (path : String) : Except PathError Place := do
  checkPath path
  match (bareNames path).getLast? with
  | none => fs.follow (origin path) (names path)
  | some name =>
    if bareNames path = names path ∨ name = "." ∨ name = ".." then
      fs.follow (origin path) (names path)
    else
      let _ ← fs.follow (origin path) ((bareNames path).dropLast ++ [""])
      .error .isDirectory

/-- Replaces the content of a file, which is created if there is none. -/
def write (fs : Files) (path : String) (content : Content) : Except PathError Files := do
  let place ← fs.resolveFile path
  match fs.lookup place with
  | some .directory => .error .isDirectory
  | _ => .ok (fs.insert place (.file content))

/-- Creates a directory in one that is there. The name must not be in use. -/
def makeDirectory (fs : Files) (path : String) : Except PathError Files := do
  checkPath path
  let place ← fs.follow (origin path) (bareNames path)
  match fs.lookup place with
  | some _ => .error .alreadyExists
  | none => .ok (fs.insert place .directory)

end Files

end SectorVolume
