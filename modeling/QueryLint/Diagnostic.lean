/-
Diagnostics: a rule, a place, and the arguments of the rule's message.
Diagnostics are ordered by path, line and column; two at the same place
are in no order, and sorting leaves them as they were.
-/
import QueryLint.Text.Template

namespace QueryLint

/-- A rule that diagnostics are reported under. -/
structure Rule where
  id : String
  title : String
  /-- The template of the message. -/
  messageFormat : String
  category : String
  severity : String
deriving DecidableEq, Repr

/-- A place in a file; lines and columns count from zero. -/
structure Location where
  path : String
  line : Int
  col : Int
deriving DecidableEq, Repr

/-- Whether a place does not come behind another: paths by code point,
then lines, then columns. -/
def Location.le (a b : Location) : Bool :=
  if a.path ≠ b.path then decide (a.path < b.path)
  else if a.line ≠ b.line then decide (a.line < b.line)
  else decide (a.col ≤ b.col)

/-- A finding of a rule at a place. -/
structure Diagnostic where
  rule : Rule
  location : Location
  /-- What the places of the message template are filled with. -/
  args : List String
deriving DecidableEq, Repr

namespace Diagnostic

/-- The message, if the template can be filled. -/
def message (d : Diagnostic) : Except TemplateError String :=
  Template.fill d.rule.messageFormat d.args

/-- Diagnostics by place; those at one place keep their order. -/
def sort (ds : List Diagnostic) : List Diagnostic :=
  ds.mergeSort fun a b => a.location.le b.location

end Diagnostic

end QueryLint
