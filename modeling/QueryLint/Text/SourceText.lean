/-
How the bytes of a source file become text. Three rules, in this order:
one leading byte order mark is dropped, the rest is decoded as UTF-8
with replacement, and every line ending becomes a single newline. A file
that ends inside its byte order mark (`EF`, or `EF BB`) reads as empty,
as an empty file does.
-/
import QueryLint.Text.Utf8

namespace QueryLint.SourceText

/-- The bytes behind the byte order mark; a file that is only the
beginning of a mark has none. -/
def dropMark : List UInt8 → List UInt8
  | [0xEF] | [0xEF, 0xBB] => []
  | 0xEF :: 0xBB :: 0xBF :: rest => rest
  | bytes => bytes

/-- Carriage returns are line endings, alone or before a newline. -/
def foldLines : List Char → List Char
  | '\r' :: '\n' :: rest => '\n' :: foldLines rest
  | '\r' :: rest => '\n' :: foldLines rest
  | c :: rest => c :: foldLines rest
  | [] => []

/-- The text of a source file. -/
def read (bytes : List UInt8) : String :=
  String.ofList (foldLines (Utf8.decode (dropMark bytes)))

-- One mark is dropped and no more.
example : read [0xEF, 0xBB, 0xBF, 0xEF, 0xBB, 0xBF, 0x0D, 0x0A, 0x0D] = "\uFEFF\n\n" := by
  decide

end QueryLint.SourceText
