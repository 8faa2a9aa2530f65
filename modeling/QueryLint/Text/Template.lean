/-
Message templates. A template is text with places for arguments: `{2}`
is argument 2, counting from zero, and a bare `{}` is the next one; a
template uses one of the two ways throughout. A brace that is text is
written twice.

A template is read in two passes, neither of which fails: what is wrong
with a template becomes a piece of it, at its place. So a fault is only
met after everything before it has been filled in, and of two faults the
one further left is reported.

Templates of diagnostics have no more to them than that, and neither has
this reading. What else could stand in a place, namely a conversion
(`{0!r}`), a format (`{0:>5}`), a lookup in an argument (`{0[1]}`,
`{0.x}`) or a number in digits other than `0` to `9`, is not read and
taken for the name of an argument, which no argument has
(`unknownPlace`).
-/
import QueryLint.Text.Quoted

namespace QueryLint

/-- What can go wrong in filling in a template. -/
inductive TemplateError where
  /-- A place asks for an argument that is not there. -/
  | outOfRange (index : Nat)
  /-- An opening brace at the very end. -/
  | loneOpening
  /-- A closing brace that closes nothing. -/
  | loneClosing
  /-- A place that is never closed. -/
  | unclosed
  /-- A numbered place behind a bare one. -/
  | numberedBehindBare
  /-- A bare place behind a numbered one. -/
  | bareBehindNumbered
  /-- A number that is greater than any index can be. -/
  | tooManyDigits
  /-- A place that is neither bare nor numbered. -/
  | unknownPlace (name : String)
deriving DecidableEq, Repr

namespace TemplateError

/-- The wording of an error. -/
def message : TemplateError → String
  | outOfRange i => "Replacement index " ++ toString i ++ " out of range for positional args tuple"
  | loneOpening => "Single '\x7b' encountered in format string"
  | loneClosing => "Single '\x7d' encountered in format string"
  | unclosed => "expected '\x7d' before end of string"
  | numberedBehindBare =>
    "cannot switch from automatic field numbering to manual field specification"
  | bareBehindNumbered =>
    "cannot switch from manual field specification to automatic field numbering"
  | tooManyDigits => "Too many decimal digits in format string"
  | unknownPlace name => Quoted.render name

end TemplateError

namespace Template

-- ================================================================== tokens

/-- A template cut up: single characters of text, and places with what
stands between their braces. -/
inductive Token where
  | char (c : Char)
  | place (inside : List Char)
  | fault (e : TemplateError)
deriving DecidableEq, Repr

/-- Where the reader stands between two characters. -/
inductive State where
  /-- In text. -/
  | text
  /-- Behind an opening brace. -/
  | opened
  /-- Behind a closing brace that has to be one of two. -/
  | closed
  /-- In a place, behind the given characters, last first. -/
  | place (inside : List Char)
deriving DecidableEq, Repr

def opening : Char := '\x7b'

def closing : Char := '\x7d'

/-- The tokens of a template, from a given state. -/
def tokensFrom : State → List Char → List Token
  | .text, [] => []
  | .opened, [] => [.fault .loneOpening]
  | .closed, [] => [.fault .loneClosing]
  | .place _, [] => [.fault .unclosed]
  | .text, c :: rest =>
    if c = opening then tokensFrom .opened rest
    else if c = closing then tokensFrom .closed rest
    else .char c :: tokensFrom .text rest
  | .opened, c :: rest =>
    if c = opening then .char opening :: tokensFrom .text rest
    else if c = closing then .place [] :: tokensFrom .text rest
    else tokensFrom (.place [c]) rest
  | .closed, c :: rest =>
    if c = closing then .char closing :: tokensFrom .text rest
    else [.fault .loneClosing]
  | .place inside, c :: rest =>
    if c = closing then .place inside.reverse :: tokensFrom .text rest
    else tokensFrom (.place (c :: inside)) rest

/-- The tokens of a template. -/
def tokens (s : String) : List Token := tokensFrom .text s.toList

-- ================================================================== pieces

/-- A template with its places numbered. -/
inductive Piece where
  | char (c : Char)
  | argument (index : Nat)
  | fault (e : TemplateError)
deriving DecidableEq, Repr

/-- How the places so far were written. -/
inductive Numbering where
  | undecided
  | numbered
  /-- Bare, and so many of them. -/
  | bare (count : Nat)
deriving DecidableEq, Repr

/-- The greatest index, 2^63 - 1. -/
def maxIndex : Nat := 0x7FFFFFFFFFFFFFFF

/-- What stands between the braces of a place that is not bare. -/
inductive Inside where
  | index (i : Nat)
  | tooManyDigits
  | word
deriving DecidableEq, Repr

/-- Reads an index digit by digit, behind digits that spell `n`. A number
that gets too great is given up at once, whatever is behind it. -/
def readIndex (n : Nat) : List Char → Inside
  | [] => .index n
  | c :: rest =>
    if c.isDigit then
      let n := 10 * n + (c.toNat - '0'.toNat)
      if maxIndex < n then .tooManyDigits else readIndex n rest
    else .word

/-- What a place stands for, and how places are written from there on. -/
def place (n : Numbering) (inside : List Char) : Piece × Numbering :=
  match inside, n with
  | [], .numbered => (.fault .bareBehindNumbered, n)
  | [], .bare count => (.argument count, .bare (count + 1))
  | [], .undecided => (.argument 0, .bare 1)
  | cs, n =>
    match readIndex 0 cs with
    | .word => (.fault (.unknownPlace (String.ofList cs)), n)
    | .tooManyDigits => (.fault .tooManyDigits, n)
    | .index i =>
      match n with
      | .bare _ => (.fault .numberedBehindBare, n)
      | _ => (.argument i, .numbered)

/-- The pieces of a template, given how the places before were written. -/
def piecesFrom : Numbering → List Token → List Piece
  | _, [] => []
  | n, .char c :: rest => .char c :: piecesFrom n rest
  | n, .fault e :: rest => .fault e :: piecesFrom n rest
  | n, .place inside :: rest =>
    let (piece, n) := place n inside
    piece :: piecesFrom n rest

-- ================================================================= filling

/-- The text of one piece. -/
def Piece.fill (args : List String) : Piece → Except TemplateError String
  | char c => .ok (String.singleton c)
  | argument i =>
    match args[i]? with
    | some a => .ok a
    | none => .error (.outOfRange i)
  | fault e => .error e

/-- The text of pieces, from left to right up to the first error. -/
def fillAll (args : List String) : List Piece → Except TemplateError String
  | [] => .ok ""
  | p :: rest => do
    let a ← p.fill args
    let b ← fillAll args rest
    return a ++ b

/-- A template with its places filled in. Arguments that no place asks
for are left out. -/
def fill (template : String) (args : List String) : Except TemplateError String :=
  fillAll args (piecesFrom .undecided (tokens template))

-- Doubled braces are text, also around a place.
example : fill "\x7b\x7b\x7b0\x7d\x7d\x7d" ["x"] = .ok "\x7bx\x7d" := by rfl

-- Of two faults the one further left is met.
example : fill "\x7b5\x7d \x7d" [] = .error (.outOfRange 5) := by rfl

end Template

end QueryLint
