import SectorVolume.Geometry

/-!
# The command line of the image tool

The arguments are options for all commands, the name of a command, and options of that command. An
option is given by its long name (`--image v.img`, `--image=v.img`) or, if it has one, by its letter
(`-i v.img`, `-iv.img`, `-i=v.img`), and at most once. Its value has to be acceptable. A value that
stands by itself may not begin with a dash, unless it is just a dash.
-/

namespace SectorVolume

namespace Tool

/-- What the image tool is asked to do with an image. -/
inductive Command where
  /-- Set up a volume of so many sectors. -/
  | format (sectors : UInt32)
  /-- Copy a file into a new inode. -/
  | put (file : String)
  /-- Copy the content of an inode to a file. -/
  | get (inode : UInt32) (out : String)
  /-- Show an inode. -/
  | stat (inode : UInt32)
  /-- Remove an inode. -/
  | rm (inode : UInt32)
  /-- Show the superblock and the free space. -/
  | info
  deriving DecidableEq, Repr

/-- A complete request. -/
structure Invocation where
  /-- The path of the image. -/
  image : String
  /-- The number of slots of the cache. -/
  cache : Nat
  /-- What to do. -/
  command : Command
  deriving DecidableEq, Repr

/-- The image if nobody names another one. -/
def defaultImage : String := "target/fs.img"

/-- The number of sectors of a new volume if nobody asks for another one. -/
def defaultSectors : UInt32 := 0x4000

/-! ## Numbers -/

/-- A row of decimal digits, at least one. -/
def digits? (cs : List Char) : Option Nat :=
  if !cs.isEmpty && cs.all Char.isDigit then
    some (cs.foldl (fun n c => 10 * n + (c.toNat - '0'.toNat)) 0)
  else none

/-- A number that fits a 64-bit word, with or without a plus sign. -/
def size? (s : String) : Option Nat :=
  let n := match s.toList with
    | '+' :: cs => digits? cs
    | cs => digits? cs
  n.filter (· < wordRange64)

/-- A number that fits a 32-bit word, with or without a sign. -/
def word32? (s : String) : Option UInt32 :=
  let n := match s.toList with
    | '+' :: cs => digits? cs
    | '-' :: cs => (digits? cs).filter (· == 0)
    | cs => digits? cs
  (n.filter (· < wordRange32)).map UInt32.ofNat

/-! ## Options -/

/-- An option. -/
structure OptionSpec where
  /-- The long name. -/
  long : String
  /-- The letter. -/
  short : Option Char
  /-- The values it may have. -/
  accepts : String → Bool

/-- An option whose value is a path. -/
def pathOption (long : String) (short : Option Char) : OptionSpec := ⟨long, short, fun s => s ≠ ""⟩

/-- The option for the image. -/
def imageOption : OptionSpec := pathOption "image" (some 'i')

/-- The option for the number of slots of the cache. -/
def cacheOption : OptionSpec := ⟨"cache", some 'c', fun s => (size? s).isSome⟩

/-- The option for the number of sectors of a new volume. -/
def sectorsOption : OptionSpec := ⟨"sectors", some 's', fun s => (word32? s).isSome⟩

/-- The option for a file to be read. -/
def fileOption : OptionSpec := pathOption "file" (some 'f')

/-- The option for an inode. -/
def inodeOption : OptionSpec := ⟨"inode", none, fun s => (word32? s).isSome⟩

/-- The option for a file to be written. -/
def outOption : OptionSpec := pathOption "out" (some 'o')

/-- The values given, by long name. -/
abbrev OptionValues := List (String × String)

/-- How an argument reads. -/
inductive Token where
  /-- An option that is known, with its value if the argument holds one. -/
  | option (spec : OptionSpec) (value : Option String)
  /-- A request for help. -/
  | help
  /-- Two dashes: no options from here on. -/
  | separator
  /-- A word. -/
  | word (text : String)
  /-- An option that is not known, or not like this. -/
  | unknown

/-- Reads the rest of an argument that begins with two dashes. -/
def longToken (specs : List OptionSpec) (body : List Char) : Token :=
  let name := String.ofList (body.takeWhile (· ≠ '='))
  let value := match body.dropWhile (· ≠ '=') with
    | [] => none
    | _ :: rest => some (String.ofList rest)
  match specs.find? (·.long = name) with
  | some spec => .option spec value
  | none => if name = "help" ∧ value.isNone then .help else .unknown

/-- Reads the rest of an argument that begins with one dash. -/
def shortToken (specs : List OptionSpec) (letter : Char) (rest : List Char) : Token :=
  match specs.find? (·.short = some letter) with
  | some spec =>
    match rest with
    | [] => .option spec none
    | '=' :: value => .option spec (some (String.ofList value))
    | value => .option spec (some (String.ofList value))
  | none => if letter = 'h' then .help else .unknown

/-- Reads an argument. -/
def token (specs : List OptionSpec) (arg : String) : Token :=
  match arg.toList with
  | ['-', '-'] => .separator
  | '-' :: '-' :: body => longToken specs body
  | '-' :: letter :: rest => shortToken specs letter rest
  | _ => .word arg

/-- Whether an argument may be the value of the option before it. -/
def isValue (arg : String) : Bool :=
  match arg.toList with
  | '-' :: _ :: _ => false
  | _ => true

/-- Where the options of one level end. -/
inductive Scan where
  /-- At the end of the arguments. -/
  | finished (values : OptionValues)
  /-- At a word. -/
  | stopped (values : OptionValues) (word : String) (rest : List String)
  /-- At a request for help. -/
  | help
  /-- At something that is not allowed. -/
  | bad

/-- Adds a value, if the option has none yet and accepts it. -/
def OptionValues.add (values : OptionValues) (spec : OptionSpec) (value : String) :
    Option OptionValues :=
  if (values.lookup spec.long).isNone && spec.accepts value then some ((spec.long, value) :: values)
  else none

/-- Collects options. -/
def scan (specs : List OptionSpec) (values : OptionValues) : List String → Scan
  | [] => .finished values
  | arg :: rest =>
    match token specs arg with
    | .word word => .stopped values word rest
    | .help => .help
    | .unknown => .bad
    | .separator => if rest.isEmpty then .finished values else .bad
    | .option spec (some value) =>
      match values.add spec value with
      | some values => scan specs values rest
      | none => .bad
    | .option spec none =>
      match rest with
      | [] => .bad
      | value :: rest =>
        if isValue value then
          match values.add spec value with
          | some values => scan specs values rest
          | none => .bad
        else .bad

/-! ## Requests -/

/-- How the arguments read as a whole. -/
inductive Reading where
  /-- A request that can be carried out. -/
  | run (invocation : Invocation)
  /-- A request for help. -/
  | help
  /-- No request at all. -/
  | misuse
  deriving DecidableEq, Repr

/-- The options of a command, by its name. -/
def commandOptions : String → Option (List OptionSpec)
  | "format" => some [sectorsOption]
  | "put" => some [fileOption]
  | "get" => some [inodeOption, outOption]
  | "stat" => some [inodeOption]
  | "rm" => some [inodeOption]
  | "info" => some []
  | _ => none

/-- The command of a name with the values of its options, if none is missing. -/
def makeCommand (name : String) (values : OptionValues) : Option Command :=
  let inode := (values.lookup "inode").bind word32?
  match name with
  | "format" =>
    some (.format (((values.lookup "sectors").bind word32?).getD defaultSectors))
  | "put" => (values.lookup "file").map .put
  | "get" => do return .get (← inode) (← values.lookup "out")
  | "stat" => inode.map .stat
  | "rm" => inode.map .rm
  | "info" => some .info
  | _ => none

/-- Reads a request for help with a command. -/
def readHelp : List String → Reading
  | [] => .help
  | [name] => if name = "help" || (commandOptions name).isSome then .help else .misuse
  | _ => .misuse

/-- Reads the arguments. -/
def readArguments (args : List String) : Reading :=
  match scan [imageOption, cacheOption] [] args with
  | .help => .help
  | .bad | .finished _ => .misuse
  | .stopped values name rest =>
    if name = "help" then readHelp rest
    else
      match commandOptions name with
      | none => .misuse
      | some specs =>
        match scan specs [] rest with
        | .help => .help
        | .bad | .stopped .. => .misuse
        | .finished commandValues =>
          match makeCommand name commandValues with
          | none => .misuse
          | some command =>
            .run {
              image := (values.lookup "image").getD defaultImage
              cache := ((values.lookup "cache").bind size?).getD defaultCapacity
              command }

end Tool

end SectorVolume
