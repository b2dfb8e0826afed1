import MetaCache.Store.Backend

/-!
# Places on disk

A disk holds directories and files under paths. A path is followed from directory to directory; each
of them must be there (`follow`).

A store makes the directories above it that are missing, and beside itself a file by which processes
keep off each other (`prepare`). Even if it cannot be opened in the end, these stay.
-/

namespace MetaCache.Store

/-- What lies at a place. -/
inductive Entry
  | directory
  | text (content : String)
  | store (volume : Volume)
  /-- A file beside a store by which processes keep off each other. -/
  | lock

/-- The steps from directory to directory, ending with a name. -/
abbrev Path := List String

namespace Path

/-- The parts of a text between slashes. -/
def parts (text : String) : List String := (text.toList.splitOn '/').map String.ofList

/-- Whether a part stays where it is. -/
def isIdle (part : String) : Bool := part = "" ∨ part = "."

/-- Follows one step: a dot stays, two dots lead back. -/
def step (path : Path) (name : String) : Path :=
  if isIdle name then path
  else if name = ".." then path.dropLast
  else path ++ [name]

/-- The names in a text with slashes, without those that stay where they are. -/
def names (text : String) : List String := (parts text).filter fun part => !isIdle part

/-- Whether a text begins at the root of the disk. -/
def isAbsolute (text : String) : Bool := text.toList.head? = some '/'

/-- Whether a text is a name and nothing that leads to it. -/
def isBare (text : String) : Bool :=
  (names text).length = 1 && !isAbsolute text && (parts text).head? ≠ some "."

/-- The longest name in bytes. -/
def longestName : Nat := 255

/-- The longest text of a path in bytes. -/
def longestText : Nat := 4095

/-- The name of the file beside a store. -/
def lockName (name : String) : String := name ++ "-lock"

end Path

/-- Directories and files under paths. -/
structure Disk where
  entries : Table Path Entry
  /-- The directory from which paths lead. -/
  home : Path

/-- Why a path does not lead to a text. -/
inductive ReadFault
  | missing
  | directory
  /-- The way leads through a file. -/
  | notDirectory
  | nameTooLong
  | notText
  deriving DecidableEq, Repr

def ReadFault.message : ReadFault → String
  | .missing => "No such file or directory (os error 2)"
  | .directory => "Is a directory (os error 21)"
  | .notDirectory => "Not a directory (os error 20)"
  | .nameTooLong => "File name too long (os error 36)"
  | .notText => "stream did not contain valid UTF-8"

namespace Disk

def empty : Disk := ⟨.empty, []⟩

instance : Inhabited Disk := ⟨empty⟩

/-- What lies at a path. The root is a directory, and so is all that leads to the home. -/
def lookup (d : Disk) (path : Path) : Option Entry :=
  if path <+: d.home then some .directory else d.entries.get? path

def put (d : Disk) (path : Path) (entry : Entry) : Disk :=
  { d with entries := d.entries.put path entry }

/-! ## Paths -/

/-- Where a text begins to lead. -/
def origin (d : Disk) (text : String) : Path := if Path.isAbsolute text then [] else d.home

/-- Follows one name out of a directory. -/
def followName (d : Disk) (path : Path) (name : String) : Except ReadFault Path :=
  match d.lookup path with
  | some .directory =>
    if Path.longestName < name.utf8ByteSize then .error .nameTooLong else .ok (path.step name)
  | some _ => .error .notDirectory
  | none => .error .missing

/-- Follows a path to what lies there. Every part of it but the last must be a directory, and so
must one that a slash follows. -/
def follow (d : Disk) (text : String) : Except ReadFault Path :=
  if text = "" then .error .missing
  else if Path.longestText < text.utf8ByteSize then .error .nameTooLong
  else do
    let path ← (Path.parts text).foldlM d.followName (d.origin text)
    if (d.lookup path).isSome then .ok path else .error .missing

/-- Whether a path leads to anything. -/
def leads (d : Disk) (text : String) : Bool := (d.follow text).isOk

/-- Follows names from a directory and makes the directories that are missing. -/
def makeDirectories (d : Disk) : Path → List String → Disk × Option Path
  | path, [] => (d, some path)
  | path, name :: names =>
    if name = ".." then d.makeDirectories path.dropLast names
    else if Path.longestName < name.utf8ByteSize then (d, none)
    else
      match d.lookup (path ++ [name]) with
      | some .directory => d.makeDirectories (path ++ [name]) names
      | some _ => (d, none)
      | none => (d.put (path ++ [name]) .directory).makeDirectories (path ++ [name]) names

/-- Writes a text to a file, whose directories are made. -/
def write (d : Disk) (text content : String) : Disk :=
  let names := Path.names text
  match names.getLast?, d.makeDirectories (d.origin text) names.dropLast with
  | some name, (d, some path) => d.put (path ++ [name]) (.text content)
  | _, (d, _) => d

/-- The text of a file. -/
def read (d : Disk) (text : String) : Except ReadFault String := do
  match d.lookup (← d.follow text) with
  | some (.text content) => .ok content
  | some .directory => .error .directory
  | some _ => .error .notText
  | none => .error .missing

/-! ## Stores -/

/-- Makes the directories above a place for a store and finds the place. A bare name leads nowhere
as long as there is nothing. -/
def reach (d : Disk) (text : String) : Disk × Option Path :=
  if text.toList.any (·.toNat = 0) ∨ Path.longestText < text.utf8ByteSize then (d, none)
  else
    let names := Path.names text
    match d.makeDirectories (d.origin text) names.dropLast with
    | (d, none) => (d, none)
    | (d, some path) =>
      match d.follow text with
      | .ok found => (d, some found)
      | .error .missing =>
        match names.getLast? with
        | some name => (d, if Path.isBare text then none else some (path ++ [name]))
        | none => (d, none)
      | .error _ => (d, none)

/-- Makes all that a store needs beside itself, and finds its place. Only the file beside the root
lies elsewhere. -/
def prepare (d : Disk) (text : String) : Disk × Option Path :=
  match d.reach text with
  | (d, none) => (d, none)
  | (d, some path) =>
    match path.getLast? with
    | none => (d, some path)
    | some name =>
      let lock := path.dropLast ++ [Path.lockName name]
      if Path.longestName < (Path.lockName name).utf8ByteSize then (d, none)
      else
        match d.lookup lock with
        | some .directory => (d, none)
        | _ => (d.put lock .lock, some path)

/-- What a store finds at a place. -/
def groundAt (d : Disk) (path : Path) : Ground :=
  match d.lookup path with
  | none | some (.text "") => .vacant
  | some (.store volume) => .store volume
  | some _ => .unusable

/-- The place of a store, as the store finds it. -/
def site (d : Disk) (text : String) : Site :=
  match d.prepare text with
  | (prepared, some path) =>
    { ground := prepared.groundAt path
      isPresent := d.leads text
      leadsBack := (prepared.put path .lock).leads text }
  | (_, none) => ⟨.unusable, d.leads text, false⟩

/-- The backend that settings ask for, on this disk. -/
def backend (d : Disk) (s : CacheSettings) : Except Error Backend := Backend.ofSettings d.site s

/-- Leaves on the disk what a store at a place has made there. -/
def settleStore (d : Disk) (text : String) (p : Persistent) : Disk :=
  if p.wasTried then
    match d.prepare text, p.site.ground with
    | (d, some path), .store volume => d.put path (.store volume)
    | (d, _), _ => d
  else d

/-- Leaves on the disk what a backend has there. -/
def settle (d : Disk) (s : CacheSettings) (b : Backend) : Disk :=
  match b, s.storagePath with
  | .persistent store, some text => d.settleStore text store
  | _, _ => d

end Disk

end MetaCache.Store
