/-
Documents: source text under a path, with the tree that the parser made
of it. The parser counts in bytes, so a `Source` is the UTF-8 bytes of
its text, and a node's text is the decoding of the bytes in its range.

A `Point` is a position for people: the number of newlines before it,
and the bytes since the last of them. Rows and columns count from zero.
-/
import QueryLint.Text.Utf8
import QueryLint.Tree.Order

namespace QueryLint

-- ================================================================= sources

/-- The bytes that the ranges of a tree refer to. -/
structure Source where
  bytes : Array UInt8

/-- A position as row and byte column, both from zero. -/
structure Point where
  row : Nat
  column : Nat
deriving DecidableEq, Repr

namespace Source

/-- The source whose text is `s`. -/
def ofText (s : String) : Source := ⟨(Utf8.encode s.toList).toArray⟩

/-- The text between two offsets; bytes that are cut out of the middle
of a character are replaced. -/
def slice (src : Source) (start stop : Nat) : String :=
  String.ofList (Utf8.decode (src.bytes.extract start stop).toList)

/-- The text of a node. -/
def text (src : Source) (t : Tree) : String := src.slice t.label.start t.label.stop

/-- The byte that ends a line. -/
def newline : UInt8 := 10

/-- The bytes before an offset. -/
def before (src : Source) (offset : Nat) : List UInt8 := src.bytes.toList.take offset

/-- Where the line that holds an offset begins, given the bytes before
the offset: just behind the last newline among them, or at zero. -/
def lineStart (before : List UInt8) : Nat :=
  before.length - (before.reverse.takeWhile (· != newline)).length

/-- The position of an offset. -/
def point (src : Source) (offset : Nat) : Point :=
  let before := src.before offset
  ⟨before.count newline, offset - lineStart before⟩

end Source

-- =============================================================== documents

/-- A source under its path, and its syntax tree. -/
structure Document where
  path : String
  source : Source
  tree : Tree

/-- The text of the node at a cursor. -/
def Document.text (doc : Document) (c : Cursor) : String := doc.source.text c.focus

/-- The position of the first byte of the node at a cursor. -/
def Document.point (doc : Document) (c : Cursor) : Point := doc.source.point c.start

/-- What a parser makes of a source: it always gives a tree, and says
whether it had to work around errors. -/
structure Parse where
  tree : Tree
  hasErrors : Bool

end QueryLint
