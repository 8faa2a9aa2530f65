/-
A file system: files, directories and symbolic links below one root, seen
from a working directory. A path is followed part by part, from the root
if it begins with a slash and from the working directory if not. A dot or
an empty part stays, two dots go up as long as there is anything above,
and a link is replaced by its target; a part may follow only where there
is a directory. No more than forty links are followed on one path, which
is how links in a circle come to an end.

A file may be there and yet not be given out: there may be no right to
read it, reading it may fail, or it may be no regular file. The system
then answers with an error of any kind (`Fault`). What a directory lists
is always told.
-/
import QueryLint.Text.Quoted
import QueryLint.Text.SourceText

namespace QueryLint

/-- The error that the system answers with in place of a file's bytes. -/
structure Fault where
  /-- The system's number of the error. -/
  number : Nat
  wording : String
  /-- Whether the file was opened all the same; the message then does not
  name it. -/
  opened : Bool
deriving DecidableEq, Repr

/-- Something that a directory lists. -/
inductive Entry where
  | file (bytes : List UInt8)
  /-- A file that cannot be read. -/
  | refused (fault : Fault)
  | link (target : String)
  | directory (entries : List (String × Entry))

/-- The entries of a directory by name. -/
abbrev Listing := List (String × Entry)

/-- A file system. -/
structure FileSystem where
  /-- What the root lists. -/
  entries : Listing
  /-- The names from the root down to the working directory. -/
  working : List String

-- ================================================================== errors

/-- The ways in which a path leads to no bytes. -/
inductive FileError where
  | missing
  | notDirectory
  | isDirectory
  | tooManyLinks
  | fault (f : Fault)
deriving DecidableEq, Repr

namespace FileError

/-- The system's number of an error and its wording. -/
def describe : FileError → Nat × String
  | missing => (2, "No such file or directory")
  | notDirectory => (20, "Not a directory")
  | isDirectory => (21, "Is a directory")
  | tooManyLinks => (40, "Too many levels of symbolic links")
  | fault f => (f.number, f.wording)

/-- Whether the message names the path. -/
def namesPath : FileError → Bool
  | fault f => !f.opened
  | _ => true

/-- The message for an error at a path. -/
def message (e : FileError) (path : String) : String :=
  "[Errno " ++ toString e.describe.1 ++ "] " ++ e.describe.2 ++
    if e.namesPath then ": " ++ Quoted.render path else ""

end FileError

namespace Entry

/-- What a directory lists; nothing else lists anything. -/
def listing? : Entry → Option Listing
  | directory entries => some entries
  | _ => none

def isDirectory (e : Entry) : Bool := e.listing?.isSome

end Entry

-- =================================================================== paths

/-- The stretches of a text between slashes; there is always one. -/
def cutAtSlashes : List Char → List (List Char)
  | [] => [[]]
  | c :: rest =>
    match cutAtSlashes rest with
    | [] => [[c]]
    | part :: parts => if c = '/' then [] :: part :: parts else (c :: part) :: parts

/-- The parts of a path. -/
def pathParts (path : String) : List String :=
  (cutAtSlashes path.toList).map String.ofList

/-- The path of an entry in a directory. -/
def joinPath (directory name : String) : String :=
  if directory.isEmpty || directory.endsWith "/" then directory ++ name
  else directory ++ "/" ++ name

/-- An entry with the directories above it, innermost first. -/
structure Place where
  entry : Entry
  above : List Entry

/-- Whether a path starts at the root. -/
def isAbsolute (path : String) : Bool := path.startsWith "/"

namespace Place

/-- The root above a place. -/
def top (place : Place) : Place := ⟨place.above.getLastD place.entry, []⟩

/-- Follows the parts of a path from a place. Where a link comes up,
`onLink` takes over, with the target's parts before those that are left. -/
def walk (onLink : Place → List String → Except FileError Place) (place : Place) :
    List String → Except FileError Place
  | [] => .ok place
  | part :: rest =>
    match place.entry.listing? with
    | none => .error .notDirectory
    | some listing =>
      if part = "" ∨ part = "." then walk onLink place rest
      else if part = ".." then
        match place.above with
        | [] => walk onLink place rest
        | up :: above => walk onLink ⟨up, above⟩ rest
      else
        match listing.lookup part with
        | none => .error .missing
        | some (.link target) =>
          onLink (if isAbsolute target then place.top else place) (pathParts target ++ rest)
        | some entry => walk onLink ⟨entry, place.entry :: place.above⟩ rest

/-- Follows the parts of a path from a place, through no more than a
number of links. -/
def follow : (links : Nat) → Place → List String → Except FileError Place
  | 0 => walk fun _ _ => .error .tooManyLinks
  | links + 1 => walk (follow links)

end Place

namespace FileSystem

variable (fs : FileSystem)

/-- How many links may be followed on one path. -/
def maxLinks : Nat := 40

/-- The root. -/
def root : Place := ⟨.directory fs.entries, []⟩

/-- Where a path starts. -/
def start (path : String) : Except FileError Place :=
  if isAbsolute path then .ok fs.root else Place.follow maxLinks fs.root fs.working

/-- What a path leads to. -/
def find (path : String) : Except FileError Entry :=
  if path.isEmpty then .error .missing
  else do
    let start ← fs.start path
    let place ← Place.follow maxLinks start (pathParts path)
    return place.entry

/-- The bytes of the file at a path. -/
def bytes (path : String) : Except FileError (List UInt8) :=
  match fs.find path with
  | .ok (.file bytes) => .ok bytes
  | .ok (.refused fault) => .error (.fault fault)
  | .ok _ => .error .isDirectory
  | .error e => .error e

/-- The text of the source file at a path. -/
def read (path : String) : Except FileError String := (fs.bytes path).map SourceText.read

/-- Whether a path leads to a directory. -/
def isDirectory (path : String) : Bool :=
  match fs.find path with
  | .ok entry => entry.isDirectory
  | .error _ => false

-- ================================================================ building

/-- A listing with an entry added, or another put in its place. -/
def put (name : String) (entry : Entry) : Listing → Listing
  | [] => [(name, entry)]
  | (n, old) :: rest =>
    if n = name then (n, entry) :: rest else (n, old) :: put name entry rest

/-- What the directory `name` lists. -/
def inside (name : String) (listing : Listing) : Listing :=
  ((listing.lookup name).bind Entry.listing?).getD []

/-- A listing with an entry added below it; directories on the way are
made, and a directory that is there already is kept. -/
def insertAt (entry : Entry) : List String → Listing → Listing
  | [], listing => listing
  | [name], listing =>
    match entry with
    | .directory [] => put name (.directory (inside name listing)) listing
    | _ => put name entry listing
  | name :: rest, listing =>
    put name (.directory (insertAt entry rest (inside name listing))) listing

/-- A file system with nothing in its working directory. -/
def blank : FileSystem := ⟨[("work", .directory [])], ["work"]⟩

/-- A file system with an entry added, by its path from the working
directory. -/
def insert (path : String) (entry : Entry) : FileSystem :=
  let parts := (pathParts path).filter fun part => part != "" && part != "."
  { fs with entries := insertAt entry (fs.working ++ parts) fs.entries }

end FileSystem

end QueryLint
