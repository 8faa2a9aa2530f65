/-
Snapshots: a working directory and the parses of its sources, written
down as lines of text. The parser is another program's work; a snapshot
is how its results reach this one. There is a line for each thing, of
words with one blank between them:

    file PATH BYTES           a file
    link PATH TARGET          a symbolic link
    dir PATH                  a directory
    parse SOURCE ERRORS       a source, with what it was parsed into:
    node KIND NAMED FIELD START STOP PARENT
                              a node of the parse above it

Names, texts and bytes are written in hexadecimal, texts as UTF-8.
ERRORS and NAMED are 0 or 1, the nodes of a parse are numbered from zero
in document order, and a missing field or parent is a dash. A line that
is none of these spoils the snapshot.
-/
import QueryLint.Files.Basic
import QueryLint.Text.Hex
import QueryLint.Tree.Table
import QueryLint.Document

namespace QueryLint

/-- A parse whose nodes are still coming in. -/
structure Draft where
  source : String
  hasErrors : Bool
  /-- The nodes so far, last first. -/
  rows : List Row

/-- The parse of a finished draft, with its source. -/
def Draft.finish? (d : Draft) : Option (String × Parse) :=
  (Tree.ofRows? d.rows.reverse).map fun tree => (d.source, ⟨tree, d.hasErrors⟩)

/-- What a snapshot holds. -/
structure Snapshot where
  files : FileSystem
  /-- The parses, the last one first. -/
  drafts : List Draft

namespace Snapshot

/-- A snapshot of nothing. -/
def empty : Snapshot := ⟨.blank, []⟩

-- =================================================================== words

/-- A text in hexadecimal. -/
def text? (word : String) : Option String :=
  (Hex.bytes? word.toList).map fun bytes => String.ofList (Utf8.decode bytes)

def flag? : String → Option Bool
  | "0" => some false
  | "1" => some true
  | _ => none

/-- A word that a dash may stand for the lack of. -/
def orDash (read : String → Option α) : String → Option (Option α)
  | "-" => some none
  | word => (read word).map some

-- =================================================================== lines

/-- A node by the words of its line. -/
def row? (kind named field start stop parent : String) : Option Row := do
  let kind ← text? kind
  let named ← flag? named
  let field ← orDash text? field
  let start ← start.toNat?
  let stop ← stop.toNat?
  let parent ← orDash String.toNat? parent
  return ⟨⟨.ofName kind, named, field.map .ofName, start, stop⟩, parent⟩

/-- A snapshot with one more line. -/
def line? (s : Snapshot) (line : String) : Option Snapshot :=
  match line.splitOn " " with
  | ["file", path, bytes] => do
    let path ← text? path
    let bytes ← Hex.bytes? bytes.toList
    return { s with files := s.files.insert path (.file bytes) }
  | ["link", path, target] => do
    let path ← text? path
    let target ← text? target
    return { s with files := s.files.insert path (.link target) }
  | ["dir", path] => do
    let path ← text? path
    return { s with files := s.files.insert path (.directory []) }
  | ["parse", source, errors] => do
    let source ← text? source
    let hasErrors ← flag? errors
    return { s with drafts := ⟨source, hasErrors, []⟩ :: s.drafts }
  | ["node", kind, named, field, start, stop, parent] => do
    let row ← row? kind named field start stop parent
    match s.drafts with
    | [] => none
    | d :: ds => return { s with drafts := { d with rows := row :: d.rows } :: ds }
  | _ => none

/-- The snapshot that lines spell. -/
def ofLines? (lines : List String) : Option Snapshot := lines.foldlM line? empty

/-- The parse of a source, if the snapshot has one. -/
def parse? (s : Snapshot) (source : String) : Option Parse :=
  (s.drafts.reverse.filterMap Draft.finish?).lookup source

end Snapshot

end QueryLint
