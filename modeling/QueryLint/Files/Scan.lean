/-
The source files below a directory. A directory is gone through files
first and then its own directories, each by name; directories for build
output and hidden ones are left out, with all below them. The directory
to start from may be called anything, and may be given by a link. Below
it links to directories are not followed, and a link to anything else,
or to nothing, counts as a file.
-/
import QueryLint.Files.Basic

namespace QueryLint

namespace FileSystem

variable (fs : FileSystem)

/-- Whether files of a name hold source text. -/
def isSourceName (name : String) : Bool := name.endsWith ".cs"

/-- Whether directories of a name are gone into. -/
def isEntered (name : String) : Bool :=
  !(name == "bin" || name == "obj" || name.startsWith ".")

/-- Pairs by name, that is by code point. -/
def byName (pairs : List (String × α)) : List (String × α) :=
  pairs.mergeSort fun a b => decide (a.1 ≤ b.1)

/-- Whether an entry of the directory at `path` counts as a file. -/
def isFileIn (path : String) : String × Entry → Bool
  | (_, .file _) => true
  | (_, .refused _) => true
  | (_, .directory _) => false
  | (name, .link _) => !fs.isDirectory (joinPath path name)

/-- The paths of the source files that the directory at `path` lists. -/
def ownSources (path : String) (listing : Listing) : List String :=
  (byName (listing.filter fun e => fs.isFileIn path e && isSourceName e.1)).map
    fun e => joinPath path e.1

mutual

/-- The paths of the source files in and below an entry at `path`. -/
def sourcesIn (path : String) : Entry → List String
  | .directory listing =>
    fs.ownSources path listing ++
      ((byName (sourcesOfEach path listing)).filter (isEntered ·.1)).flatMap (·.2)
  | _ => []

/-- Each entry of a listing with the source files in and below it. -/
def sourcesOfEach (path : String) : Listing → List (String × List String)
  | [] => []
  | (name, entry) :: rest =>
    (name, sourcesIn (joinPath path name) entry) :: sourcesOfEach path rest

end

/-- The paths of the source files below the directory at `path`; none if
there is no such directory. -/
def sources (path : String) : List String :=
  match fs.find path with
  | .ok entry => fs.sourcesIn path entry
  | .error _ => []

/-- The source files below the directory at `path`, with their texts. -/
def scan (path : String) : List (String × Except FileError String) :=
  (fs.sources path).map fun p => (p, fs.read p)

end FileSystem

end QueryLint
