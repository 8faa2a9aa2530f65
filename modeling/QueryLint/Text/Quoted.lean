/-
Texts in quotes, as messages show them. The quotes are single ones, or
double ones if the text holds single quotes and no double ones. Inside,
the quote and the backslash are escaped by a backslash, and characters
that cannot be printed by their code in two, four or eight hexadecimal
digits, the three common ones apart.
-/
import QueryLint.Text.Hex
import QueryLint.Text.Printable

namespace QueryLint.Quoted

/-- The quote that a text is put into. -/
def mark (cs : List Char) : Char :=
  if cs.contains '\'' && !cs.contains '"' then '"' else '\''

/-- The code of a character that cannot be printed. -/
def code (c : Char) : List Char :=
  let v := c.toNat
  if v < 0x100 then '\\' :: 'x' :: Hex.digits 2 v
  else if v < 0x10000 then '\\' :: 'u' :: Hex.digits 4 v
  else '\\' :: 'U' :: Hex.digits 8 v

/-- A character between quotes of a given kind. -/
def escape (quote c : Char) : List Char :=
  if c = quote ∨ c = '\\' then ['\\', c]
  else if c = '\n' then ['\\', 'n']
  else if c = '\r' then ['\\', 'r']
  else if c = '\t' then ['\\', 't']
  else if isPrintable c then [c]
  else code c

/-- A text in quotes. -/
def render (s : String) : String :=
  let cs := s.toList
  let quote := mark cs
  String.ofList (quote :: (cs.flatMap (escape quote) ++ [quote]))

-- A single quote alone asks for double quotes; beside one it is escaped.
example : render "it's" = "\"it's\"" := by decide
example : render "'\"" = "'\\'\"'" := by decide

end QueryLint.Quoted
