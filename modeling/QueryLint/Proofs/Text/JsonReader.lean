/-
A reader of JSON. It takes all of JSON, not only what a report is written
in, and refuses everything else.

The text is cut into tokens by a machine of one character at a time, and
the tokens are put together by another of one token at a time. Between
tokens the first stands at `between`; a number or word goes on as long as
its characters do, so the character behind it is read twice, once to end
it and once for itself. A text between quotes is collected as units: an
escape by four digits is a unit of sixteen bits, and only when the text
ends are the two halves of a surrogate pair joined. A half that stands
alone is no character, and the text is refused.

The second machine keeps the lists and records that are open, innermost
first, each with what it holds so far.
-/
import QueryLint.Text.Hex

namespace QueryLint.Json

/-- A value. A number with a fraction or an exponent is kept as digits and
a power of ten. -/
inductive Value where
  | null
  | bool (b : Bool)
  | integer (n : Int)
  | decimal (digits exponent : Int)
  | text (s : String)
  | list (items : List Value)
  | record (fields : List (String × Value))

-- ========================================================= numbers and words

/-- A natural number by its digits. -/
def natural? (cs : List Char) : Option Nat :=
  if cs.isEmpty || !cs.all Char.isDigit then none else some (Nat.ofDigitChars 10 cs 0)

/-- The exponent behind the digits of a number, if it has one. -/
def exponent? : List Char → Option Int
  | [] => some 0
  | e :: rest =>
    if e = 'e' ∨ e = 'E' then
      match rest with
      | '+' :: digits => (natural? digits).map Int.ofNat
      | '-' :: digits => (natural? digits).map fun n => -Int.ofNat n
      | digits => (natural? digits).map Int.ofNat
    else none

/-- A number behind its sign. There are digits in front, and they do not
begin with a zero unless that is all. -/
def unsigned? (sign : Int) (cs : List Char) : Option Value :=
  let whole := cs.takeWhile Char.isDigit
  let rest := cs.dropWhile Char.isDigit
  if whole = [] ∨ (whole.head? = some '0' ∧ whole ≠ ['0']) then none
  else
    match rest with
    | [] => some (.integer (sign * Nat.ofDigitChars 10 whole 0))
    | '.' :: rest =>
      let fraction := rest.takeWhile Char.isDigit
      if fraction = [] then none
      else
        (exponent? (rest.dropWhile Char.isDigit)).map fun e =>
          .decimal (sign * Nat.ofDigitChars 10 (whole ++ fraction) 0) (e - fraction.length)
    | rest =>
      (exponent? rest).map fun e => .decimal (sign * Nat.ofDigitChars 10 whole 0) e

def number? : List Char → Option Value
  | '-' :: cs => unsigned? (-1) cs
  | cs => unsigned? 1 cs

/-- A value that is written without quotes. -/
def bare? (cs : List Char) : Option Value :=
  if cs = ['n', 'u', 'l', 'l'] then some .null
  else if cs = ['t', 'r', 'u', 'e'] then some (.bool true)
  else if cs = ['f', 'a', 'l', 's', 'e'] then some (.bool false)
  else number? cs

/-- Whether a character may stand in a number or a word. -/
def isBare (c : Char) : Bool := c.isAlphanum || c == '-' || c == '+' || c == '.'

-- ==================================================================== texts

/-- Whether a unit is the first half of a surrogate pair. -/
def isHigh (u : Nat) : Bool := 0xD800 ≤ u && u < 0xDC00

/-- Whether a unit is the second half of a surrogate pair. -/
def isLow (u : Nat) : Bool := 0xDC00 ≤ u && u < 0xE000

/-- The characters of units, behind the first half of a pair if there is
one. -/
def joinFrom : (high : Option Nat) → List Nat → Option (List Char)
  | none, [] => some []
  | some _, [] => none
  | none, u :: rest =>
    if isHigh u then joinFrom (some u) rest
    else if isLow u then none
    else (joinFrom none rest).map (Char.ofNat u :: ·)
  | some high, u :: rest =>
    if isLow u then
      (joinFrom none rest).map
        (Char.ofNat (0x10000 + (high - 0xD800) * 0x400 + (u - 0xDC00)) :: ·)
    else none

/-- The unit that a short escape stands for. -/
def short? (c : Char) : Option Nat :=
  if c = '"' ∨ c = '\\' ∨ c = '/' then some c.toNat
  else if c = 'b' then some 8
  else if c = 't' then some 9
  else if c = 'n' then some 10
  else if c = 'f' then some 12
  else if c = 'r' then some 13
  else none

-- =================================================================== tokens

/-- A piece of JSON text: a bracket, brace, colon or comma, or a value that
has no parts. -/
inductive Token where
  | mark (c : Char)
  | scalar (v : Value)

/-- Where the reader stands between two characters. What has been read of
a token is kept last first. -/
inductive State where
  /-- Between tokens. -/
  | between
  /-- In a number or a word. -/
  | bare (cs : List Char)
  /-- In a text. -/
  | text (units : List Nat)
  /-- In a text, behind a backslash. -/
  | escape (units : List Nat)
  /-- In a text, in an escape by digits: `more` follow the next one, and
  `value` is what has been read. -/
  | unit (units : List Nat) (value more : Nat)

/-- The effect of a character read between tokens. -/
def lead (c : Char) : Option (List Token × State) :=
  if c = ' ' ∨ c = '\n' ∨ c = '\r' ∨ c = '\t' then some ([], .between)
  else if c = '[' ∨ c = ']' ∨ c = '\x7b' ∨ c = '\x7d' ∨ c = ':' ∨ c = ',' then
    some ([.mark c], .between)
  else if c = '"' then some ([], .text [])
  else if isBare c then some ([], .bare [c])
  else none

/-- One character. -/
def feed : State → Char → Option (List Token × State)
  | .between, c => lead c
  | .bare cs, c =>
    if isBare c then some ([], .bare (c :: cs))
    else
      (bare? cs.reverse).bind fun v =>
        (lead c).map fun (out, next) => (.scalar v :: out, next)
  | .text units, c =>
    if c = '"' then
      (joinFrom none units.reverse).map fun cs =>
        ([.scalar (.text (String.ofList cs))], .between)
    else if c = '\\' then some ([], .escape units)
    else if c.toNat < 0x20 then none
    else some ([], .text (c.toNat :: units))
  | .escape units, c =>
    if c = 'u' then some ([], .unit units 0 3)
    else (short? c).map fun u => ([], .text (u :: units))
  | .unit units value more, c =>
    (Hex.value? c).map fun d =>
      match more with
      | 0 => ([], .text ((16 * value + d) :: units))
      | more + 1 => ([], .unit units (16 * value + d) more)

/-- What is left when the text ends. -/
def flush : State → Option (List Token)
  | .between => some []
  | .bare cs => (bare? cs.reverse).map fun v => [.scalar v]
  | _ => none

/-- The tokens of a text, from a given state. -/
def tokensFrom : State → List Char → Option (List Token)
  | s, [] => flush s
  | s, c :: rest =>
    (feed s c).bind fun (out, next) => (tokensFrom next rest).map (out ++ ·)

-- =================================================================== values

/-- A list or record that is open around a value. -/
inductive Frame where
  | item (before : List Value)
  | field (before : List (String × Value)) (name : String)

/-- Where the reader stands between two tokens, inside what is open. -/
inductive Reading where
  /-- Before a value. -/
  | value (above : List Frame)
  /-- Behind the opening bracket of a list. -/
  | opened (above : List Frame)
  /-- Before the name of a field. -/
  | fields (before : List (String × Value)) (above : List Frame)
  /-- Behind the name of a field. -/
  | named (before : List (String × Value)) (name : String) (above : List Frame)
  /-- Behind a value. -/
  | behind (v : Value) (above : List Frame)

/-- A token that begins a value. -/
def Reading.begin (above : List Frame) : Token → Option Reading
  | .scalar v => some (.behind v above)
  | .mark '[' => some (.opened above)
  | .mark '\x7b' => some (.fields [] above)
  | .mark _ => none

/-- One token. -/
def Reading.step : Reading → Token → Option Reading
  | .value above, t => begin above t
  | .opened above, .mark ']' => some (.behind (.list []) above)
  | .opened above, t => begin (.item [] :: above) t
  | .fields [] above, .mark '\x7d' => some (.behind (.record []) above)
  | .fields before above, .scalar (.text name) => some (.named before name above)
  | .named before name above, .mark ':' => some (.value (.field before name :: above))
  | .behind v (.item before :: above), .mark ',' => some (.value (.item (before ++ [v]) :: above))
  | .behind v (.item before :: above), .mark ']' =>
    some (.behind (.list (before ++ [v])) above)
  | .behind v (.field before name :: above), .mark ',' =>
    some (.fields (before ++ [(name, v)]) above)
  | .behind v (.field before name :: above), .mark '\x7d' =>
    some (.behind (.record (before ++ [(name, v)])) above)
  | _, _ => none

/-- The value that has been read, if it is complete. -/
def Reading.finish? : Reading → Option Value
  | .behind v [] => some v
  | _ => none

/-- The value that a text is JSON for. -/
def parse (s : String) : Option Value :=
  (tokensFrom .between s.toList).bind fun tokens =>
    (tokens.foldlM Reading.step (.value [])).bind Reading.finish?

-- Nested values, with blanks, escapes and a number of its own kind.
example : parse "[ \x7b\"a\\u0062\": [-1, 2.50e1, null]\x7d, \"\\ud83d\\ude00\" ]" = some (.list
    [.record [("ab", .list [.integer (-1), .decimal 250 (-1), .null])], .text "😀"]) := by rfl

-- A comma too many, a zero too many and half a pair are refused.
example : (parse "[1,]").isNone ∧ (parse "[01]").isNone ∧ (parse "\"\\ud83d\"").isNone := by
  decide

end QueryLint.Json
