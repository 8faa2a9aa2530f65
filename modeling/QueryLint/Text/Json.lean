/-
JSON text, as far as a report needs it: a list of records whose fields
are texts and whole numbers, one field to a line. The text is plain
ASCII. Whatever is not printable there is escaped, the common control
characters by their short escapes and all else by four hexadecimal
digits; a character beyond U+FFFF takes two such escapes, one for each
half of its surrogate pair.
-/
import QueryLint.Text.Hex

namespace QueryLint.Json

-- =================================================================== texts

/-- The escape of a 16-bit unit. -/
def unit (n : Nat) : List Char := '\\' :: 'u' :: Hex.digits 4 n

/-- The escape of a character by its 16-bit units. -/
def units (c : Char) : List Char :=
  let v := c.toNat
  if v < 0x10000 then unit v
  else unit (0xD800 + (v - 0x10000) / 0x400) ++ unit (0xDC00 + (v - 0x10000) % 0x400)

/-- A character inside a text. -/
def escape (c : Char) : List Char :=
  if c = '"' then ['\\', '"']
  else if c = '\\' then ['\\', '\\']
  else if c = '\n' then ['\\', 'n']
  else if c = '\r' then ['\\', 'r']
  else if c = '\t' then ['\\', 't']
  else if c = '\x08' then ['\\', 'b']
  else if c = '\x0c' then ['\\', 'f']
  else if 0x20 ≤ c.toNat ∧ c.toNat ≤ 0x7E then [c]
  else units c

/-- A text in its quotes. -/
def quote (s : String) : String :=
  String.ofList ('"' :: (s.toList.flatMap escape ++ ['"']))

-- ================================================================= records

/-- The value of a field. -/
inductive Scalar where
  | text (s : String)
  | number (n : Int)
deriving DecidableEq, Repr

def Scalar.render : Scalar → String
  | text s => quote s
  | number n => toString n

/-- A record: its fields with their values, in order. -/
abbrev Record := List (String × Scalar)

/-- Lines with a comma behind each but the last. -/
def commaLines (lines : List String) : String := ",\n".intercalate lines

/-- One field on its line. -/
def fieldLine (field : String × Scalar) : String :=
  "    " ++ quote field.1 ++ ": " ++ field.2.render

/-- A record with its braces. -/
def renderRecord (r : Record) : String :=
  "  \x7b\n" ++ commaLines (r.map fieldLine) ++ "\n  \x7d"

/-- A list of records; an empty one stays on its line. -/
def render : List Record → String
  | [] => "[]"
  | records => "[\n" ++ commaLines (records.map renderRecord) ++ "\n]"

-- A character beyond U+FFFF is two units, and U+007F is not printable.
example : "😀\x7f".toList.flatMap escape = "\\ud83d\\ude00\\u007f".toList := by decide

end QueryLint.Json
