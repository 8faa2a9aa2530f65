/-
UTF-8, both ways. Encoding is the standard one, character by character.
Decoding is total: bytes that are no UTF-8 are replaced, one U+FFFD for
each maximal run that could still have grown into a character.

The decoder is a machine of one byte at a time. Between characters it
stands at `start`; inside one it knows how many bytes are still owed,
the range that the next byte has to lie in, and the value so far. A byte
outside that range ends the character with one U+FFFD and is then read
again from `start` — it may well begin a good character of its own. The
ranges after E0, ED, F0 and F4 are narrower than those of a plain
continuation byte, which is what keeps overlong forms, surrogates and
values above U+10FFFF out; so `ED A0 80` gives three replacements, and
a truncated `F0 9F 98` gives one.
-/
namespace QueryLint.Utf8

-- ================================================================ encoding

/-- The bytes of a text. -/
def encode (cs : List Char) : List UInt8 := cs.flatMap String.utf8EncodeChar

-- ================================================================ decoding

/-- What stands for bytes that decode to nothing. -/
def replacement : Char := '\uFFFD'

/-- Where the decoder stands between two bytes. -/
inductive State where
  /-- Between characters. -/
  | start
  /-- Inside a character: the next byte has to lie between `lo` and `hi`,
  `more` bytes follow that one, and `value` is what has been read. -/
  | inside (more : Nat) (lo hi : UInt8) (value : Nat)
deriving DecidableEq, Repr

/-- The effect of a byte read between characters: what it completes, and
where the decoder stands after it. -/
def lead (b : UInt8) : List Char × State :=
  let v := b.toNat
  if v < 0x80 then ([Char.ofNat v], .start)
  else if v < 0xC2 then ([replacement], .start)
  else if v < 0xE0 then ([], .inside 0 0x80 0xBF (v - 0xC0))
  else if v < 0xF0 then
    let lo := if v = 0xE0 then 0xA0 else 0x80
    let hi := if v = 0xED then 0x9F else 0xBF
    ([], .inside 1 lo hi (v - 0xE0))
  else if v < 0xF5 then
    let lo := if v = 0xF0 then 0x90 else 0x80
    let hi := if v = 0xF4 then 0x8F else 0xBF
    ([], .inside 2 lo hi (v - 0xF0))
  else ([replacement], .start)

/-- One byte. Inside a character a byte out of range ends it and is read
again from between characters. -/
def feed : State → UInt8 → List Char × State
  | .start, b => lead b
  | .inside more lo hi value, b =>
    if lo ≤ b ∧ b ≤ hi then
      let value := value * 64 + (b.toNat - 0x80)
      match more with
      | 0 => ([Char.ofNat value], .start)
      | more + 1 => ([], .inside more 0x80 0xBF value)
    else
      let (out, next) := lead b
      (replacement :: out, next)

/-- What is left when the bytes end: a character cut short is replaced. -/
def flush : State → List Char
  | .start => []
  | .inside .. => [replacement]

/-- The characters of `bytes`, read from a given state. -/
def decodeFrom : State → List UInt8 → List Char
  | s, [] => flush s
  | s, b :: bytes =>
    let (out, next) := feed s b
    out ++ decodeFrom next bytes

/-- The text of `bytes`, with what is no UTF-8 replaced. -/
def decode (bytes : List UInt8) : List Char := decodeFrom .start bytes

-- An encoded surrogate is three bytes that each stand for nothing.
example : decode [0xED, 0xA0, 0x80] = [replacement, replacement, replacement] := by decide

-- A character cut short is replaced once, and the byte behind it is kept.
example : decode [0xF0, 0x9F, 0x98, 0x41] = [replacement, 'A'] := by decide

end QueryLint.Utf8
