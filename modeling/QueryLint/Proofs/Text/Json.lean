/-
Reading JSON undoes writing it. The text of some records, read as any
other JSON, is these records again (`parse_render`), and it holds nothing
but printable ASCII and newlines (`plainText_render`).

# One piece after the other

A piece of text takes the reader of characters from one state to another
and gives out some tokens, whatever is behind it (`Reads`). Pieces that
fit are put together by `Reads.append`. A character of a text, however it
is escaped, adds its units to those that have been collected
(`reads_escape`); a text in quotes and a blank lead from between tokens
to between tokens. A number does not: nothing but the next character can
say that it is over. So a line is read together with the character behind
it (`ReadsLine`), which is a comma or the end of the line.

# Nesting

The tokens of a record are read alike wherever a value may begin, and
that is all the reader of tokens has to know of its surroundings
(`read_record`). The same argument, once more, reads the list.
-/
import Mathlib.Data.List.Basic
import Mathlib.Data.List.TakeWhile
import Mathlib.Tactic.SplitIfs
import QueryLint.Proofs.Text.JsonReader
import QueryLint.Text.Json

namespace QueryLint

-- ============================================================ hexadecimal

namespace Hex

theorem value?_digit {n : Nat} (h : n < 16) : value? (digit n) = some n := by
  have hall : ∀ n < 16, value? (digit n) = some n := by decide
  exact hall n h

end Hex

namespace Json

-- =========================================================== taking pieces

/-- A piece of text leads from a state to a state and gives tokens,
whatever is behind it. -/
def Reads (s : State) (cs : List Char) (out : List Token) (t : State) : Prop :=
  ∀ rest, tokensFrom s (cs ++ rest) = (tokensFrom t rest).map (out ++ ·)

theorem reads_nil (s : State) : Reads s [] [] s := by
  intro rest
  simp

theorem reads_char {s t : State} {c : Char} {out : List Token}
    (h : feed s c = some (out, t)) : Reads s [c] out t := by
  intro rest
  rw [List.singleton_append, tokensFrom, h, Option.bind_some]

theorem Reads.append {s t u : State} {cs ds : List Char} {out more : List Token}
    (h : Reads s cs out t) (h' : Reads t ds more u) : Reads s (cs ++ ds) (out ++ more) u := by
  intro rest
  rw [List.append_assoc, h, h', Option.map_map]
  congr 1
  funext tokens
  exact (List.append_assoc out more tokens).symm

/-- A piece that gives nothing, in front of another. -/
theorem Reads.skip {s t u : State} {cs ds : List Char} {out : List Token}
    (h : Reads s cs [] t) (h' : Reads t ds out u) : Reads s (cs ++ ds) out u :=
  h.append h'

theorem Reads.tokensFrom_eq {cs : List Char} {s : State} {out : List Token}
    (h : Reads s cs out .between) : tokensFrom s cs = some out := by
  have hend := h []
  rw [List.append_nil] at hend
  simpa [tokensFrom, flush] using hend

-- =================================================================== texts

/-- The units of sixteen bits that a character is written in. -/
def unitsOf (c : Char) : List Nat :=
  if c.toNat < 0x10000 then [c.toNat]
  else [0xD800 + (c.toNat - 0x10000) / 0x400, 0xDC00 + (c.toNat - 0x10000) % 0x400]

/-- A unit by its four digits. -/
theorem reads_unit {n : Nat} (h : n < 0x10000) (us : List Nat) :
    Reads (.text us) (unit n) [] (.text (n :: us)) := by
  have hdigit : ∀ (value more : Nat) (d : Nat), d < 16 →
      Reads (.unit us value (more + 1)) [Hex.digit d] [] (.unit us (16 * value + d) more) := by
    intro value more d hd
    exact reads_char (by rw [feed, Hex.value?_digit hd, Option.map_some])
  have hlast : ∀ (value : Nat) (d : Nat), d < 16 →
      Reads (.unit us value 0) [Hex.digit d] [] (.text ((16 * value + d) :: us)) := by
    intro value d hd
    exact reads_char (by rw [feed, Hex.value?_digit hd, Option.map_some])
  have hvalue : 16 * (16 * (16 * (16 * 0 + n / 16 / 16 / 16 % 16) + n / 16 / 16 % 16)
      + n / 16 % 16) + n % 16 = n := by omega
  have hread := (reads_char (s := .text us) (c := '\\') rfl).skip <|
    (reads_char (s := .escape us) (c := 'u') rfl).skip <|
    (hdigit 0 2 (n / 16 / 16 / 16 % 16) (by omega)).skip <|
    (hdigit _ 1 (n / 16 / 16 % 16) (by omega)).skip <|
    (hdigit _ 0 (n / 16 % 16) (by omega)).skip (hlast _ (n % 16) (by omega))
  rw [hvalue] at hread
  exact hread

/-- A character by its units, or by the two of its pair. -/
theorem reads_units (c : Char) (us : List Nat) :
    Reads (.text us) (units c) [] (.text ((unitsOf c).reverse ++ us)) := by
  have hvalid : c.toNat < 0xD800 ∨ (0xDFFF < c.toNat ∧ c.toNat < 0x110000) := c.valid
  unfold units unitsOf
  by_cases hsmall : c.toNat < 0x10000
  · simp only [if_pos hsmall]
    exact reads_unit hsmall us
  · simp only [if_neg hsmall]
    exact (reads_unit (by omega) us).skip (reads_unit (by omega) _)

/-- A character, however it is written. -/
theorem reads_escape (c : Char) (us : List Nat) :
    Reads (.text us) (escape c) [] (.text ((unitsOf c).reverse ++ us)) := by
  have hshort : ∀ e : Char, e ≠ 'u' → short? e = some c.toNat → c.toNat < 0x10000 →
      Reads (.text us) ['\\', e] [] (.text ((unitsOf c).reverse ++ us)) := by
    intro e hu he hsmall
    have hfeed : feed (.escape us) e = some ([], .text (c.toNat :: us)) := by
      rw [feed, if_neg hu, he, Option.map_some]
    rw [unitsOf, if_pos hsmall]
    exact (reads_char (s := .text us) (c := '\\') rfl).skip (reads_char hfeed)
  unfold escape
  split_ifs with hquote hslash hn hr ht hb hf hplain
  · exact hshort '"' (by decide) (by rw [hquote]; rfl) (by rw [hquote]; decide)
  · exact hshort '\\' (by decide) (by rw [hslash]; rfl) (by rw [hslash]; decide)
  · exact hshort 'n' (by decide) (by rw [hn]; rfl) (by rw [hn]; decide)
  · exact hshort 'r' (by decide) (by rw [hr]; rfl) (by rw [hr]; decide)
  · exact hshort 't' (by decide) (by rw [ht]; rfl) (by rw [ht]; decide)
  · exact hshort 'b' (by decide) (by rw [hb]; rfl) (by rw [hb]; decide)
  · exact hshort 'f' (by decide) (by rw [hf]; rfl) (by rw [hf]; decide)
  · refine reads_char ?_
    rw [feed, if_neg hquote, if_neg hslash, if_neg (by omega), unitsOf, if_pos (by omega)]
    rfl
  · exact reads_units c us

theorem reads_escapes (cs : List Char) :
    ∀ us : List Nat,
      Reads (.text us) (cs.flatMap escape) [] (.text ((cs.flatMap unitsOf).reverse ++ us)) := by
  induction cs with
  | nil =>
    intro us
    exact reads_nil _
  | cons c cs ih =>
    intro us
    rw [List.flatMap_cons, List.flatMap_cons, List.reverse_append, List.append_assoc]
    exact (reads_escape c us).skip (ih _)

/-- The units of a character, joined, are the character. -/
theorem joinFrom_unitsOf (c : Char) (us : List Nat) :
    joinFrom none (unitsOf c ++ us) = (joinFrom none us).map (c :: ·) := by
  have hvalid : c.toNat < 0xD800 ∨ (0xDFFF < c.toNat ∧ c.toNat < 0x110000) := c.valid
  unfold unitsOf
  by_cases hsmall : c.toNat < 0x10000
  · have hhigh : isHigh c.toNat = false := by simp [isHigh]; omega
    have hlow : isLow c.toNat = false := by simp [isLow]; omega
    rw [if_pos hsmall, List.singleton_append, joinFrom, hhigh, hlow]
    simp
  · have hhigh : isHigh (0xD800 + (c.toNat - 0x10000) / 0x400) = true := by
      simp [isHigh]; omega
    have hlow : isLow (0xDC00 + (c.toNat - 0x10000) % 0x400) = true := by
      simp [isLow]; omega
    have hback : 0x10000 + (0xD800 + (c.toNat - 0x10000) / 0x400 - 0xD800) * 0x400
        + (0xDC00 + (c.toNat - 0x10000) % 0x400 - 0xDC00) = c.toNat := by omega
    rw [if_neg hsmall, List.cons_append, List.singleton_append, joinFrom, if_pos hhigh, joinFrom,
      if_pos hlow, hback, Char.ofNat_toNat]

theorem joinFrom_flatMap_unitsOf (cs : List Char) :
    joinFrom none (cs.flatMap unitsOf) = some cs := by
  induction cs with
  | nil => rfl
  | cons c cs ih => rw [List.flatMap_cons, joinFrom_unitsOf, ih, Option.map_some]

/-- A text in its quotes is read as that text. -/
theorem reads_quote (s : String) :
    Reads .between (quote s).toList [.scalar (.text s)] .between := by
  have hclose : feed (.text ((s.toList.flatMap unitsOf).reverse ++ [])) '"'
      = some ([.scalar (.text s)], .between) := by
    rw [feed, if_pos rfl, List.append_nil, List.reverse_reverse, joinFrom_flatMap_unitsOf,
      Option.map_some, String.ofList_toList]
  rw [quote, String.toList_ofList]
  exact (reads_char (s := .between) (c := '"') rfl).skip <|
    (reads_escapes s.toList []).skip (reads_char hclose)

-- ================================================================= numbers

/-- Digits do not begin with a zero unless that is all. -/
theorem head?_toDigits_eq_zero {n : Nat} (h : (Nat.toDigits 10 n).head? = some '0') :
    Nat.toDigits 10 n = ['0'] := by
  induction n using Nat.strongRecOn with
  | _ n ih =>
    by_cases hsmall : n < 10
    · have hall : ∀ n < 10,
          (Nat.toDigits 10 n).head? = some '0' → Nat.toDigits 10 n = ['0'] := by decide
      exact hall n hsmall h
    · -- the first digit is that of all digits but the last
      rw [Nat.toDigits_of_base_le (by decide) (by omega),
        List.head?_append_of_ne_nil _ Nat.toDigits_ne_nil] at h
      have hzero : Nat.toDigits 10 (n / 10) = Nat.toDigits 10 0 := ih (n / 10) (by omega) h
      have hvalue := congrArg (Nat.ofDigitChars 10 · 0) hzero
      simp only [Nat.ofDigitChars_ten_toDigits] at hvalue
      omega

theorem unsigned?_toDigits (sign : Int) (n : Nat) :
    unsigned? sign (Nat.toDigits 10 n) = some (.integer (sign * n)) := by
  have hdigits : ∀ c ∈ Nat.toDigits 10 n, c.isDigit = true := fun c hc =>
    Nat.isDigit_of_mem_toDigits (by decide) (by decide) hc
  have htake : (Nat.toDigits 10 n).takeWhile Char.isDigit = Nat.toDigits 10 n := by
    rw [List.takeWhile_eq_self_iff]
    exact hdigits
  have hdrop : (Nat.toDigits 10 n).dropWhile Char.isDigit = [] := by
    rw [List.dropWhile_eq_nil_iff]
    exact hdigits
  have hshape : ¬ (Nat.toDigits 10 n = []
      ∨ ((Nat.toDigits 10 n).head? = some '0' ∧ Nat.toDigits 10 n ≠ ['0'])) := by
    intro h
    obtain hnil | ⟨hhead, hne⟩ := h
    · exact Nat.toDigits_ne_nil hnil
    · exact hne (head?_toDigits_eq_zero hhead)
  simp only [unsigned?, htake, hdrop]
  rw [if_neg hshape, Nat.ofDigitChars_ten_toDigits]

/-- The digits of a whole number, behind a sign if it is negative. -/
theorem toList_toString_int (n : Int) :
    (toString n).toList
      = if n < 0 then '-' :: Nat.toDigits 10 n.natAbs else Nat.toDigits 10 n.natAbs := by
  rw [Int.toString_eq_repr, Int.repr_eq_if]
  by_cases hneg : n < 0
  · have habs : (-n).toNat = n.natAbs := by omega
    rw [if_neg (by omega), if_pos hneg, habs, String.toList_append, Nat.toList_repr]
    rfl
  · have habs : n.toNat = n.natAbs := by omega
    rw [if_pos (by omega), if_neg hneg, habs, Nat.toList_repr]

/-- A whole number is made of digits and a sign. -/
theorem isDigit_of_mem_toString {n : Int} {c : Char} (h : c ∈ (toString n).toList) :
    c = '-' ∨ c.isDigit = true := by
  rw [toList_toString_int] at h
  have hdigit : c ∈ Nat.toDigits 10 n.natAbs → c.isDigit = true := fun hc =>
    Nat.isDigit_of_mem_toDigits (by decide) (by decide) hc
  split at h
  · rcases List.mem_cons.1 h with hminus | hc
    · exact .inl hminus
    · exact .inr (hdigit hc)
  · exact .inr (hdigit h)

theorem number?_toString (n : Int) : number? (toString n).toList = some (.integer n) := by
  rw [toList_toString_int]
  split
  · next hneg =>
    rw [number?, unsigned?_toDigits]
    congr 2
    omega
  · next hpos =>
    rw [number?.eq_2]
    · rw [unsigned?_toDigits]
      congr 2
      omega
    · intro cs hcs
      have hminus : '-' ∈ Nat.toDigits 10 n.natAbs := hcs ▸ List.mem_cons_self
      exact absurd (Nat.isDigit_of_mem_toDigits (by decide) (by decide) hminus) (by decide)

/-- A number is not taken for a word. -/
theorem bare?_toString (n : Int) : bare? (toString n).toList = some (.integer n) := by
  have hword : ∀ (c : Char) (word : List Char), c ∈ word → c ≠ '-' → c.isDigit = false →
      (toString n).toList ≠ word := by
    intro c word hc hminus hdigit heq
    rcases isDigit_of_mem_toString (heq ▸ hc) with h | h
    · exact hminus h
    · rw [hdigit] at h
      cases h
  rw [bare?, if_neg (hword 'n' _ (by decide) (by decide) (by decide)),
    if_neg (hword 't' _ (by decide) (by decide) (by decide)),
    if_neg (hword 'f' _ (by decide) (by decide) (by decide)), number?_toString]

theorem isBare_of_mem_toString {n : Int} {c : Char} (h : c ∈ (toString n).toList) :
    isBare c = true := by
  rcases isDigit_of_mem_toString h with hminus | hdigit
  · rw [hminus]
    decide
  · simp [isBare, Char.isAlphanum, hdigit]

/-- A character of a number begins one. -/
theorem lead_of_isBare {c : Char} (h : isBare c = true) : lead c = some ([], .bare [c]) := by
  have hne : ∀ d : Char, isBare d = false → c ≠ d := by
    intro d hd heq
    rw [heq, hd] at h
    cases h
  rw [lead, if_neg, if_neg, if_neg (hne _ (by decide)), if_pos h]
  all_goals simp only [not_or]
  · exact ⟨hne _ (by decide), hne _ (by decide), hne _ (by decide), hne _ (by decide),
      hne _ (by decide), hne _ (by decide)⟩
  · exact ⟨hne _ (by decide), hne _ (by decide), hne _ (by decide), hne _ (by decide)⟩

/-- A number or word goes on as long as its characters do. -/
theorem reads_bare {cs : List Char} (h : ∀ c ∈ cs, isBare c = true) :
    ∀ before : List Char, Reads (.bare before) cs [] (.bare (cs.reverse ++ before)) := by
  induction cs with
  | nil =>
    intro before
    exact reads_nil _
  | cons c cs ih =>
    intro before
    have hfeed : feed (.bare before) c = some ([], .bare (c :: before)) := by
      rw [feed, if_pos (h c List.mem_cons_self)]
    rw [List.reverse_cons, List.append_assoc]
    exact (reads_char hfeed).skip (ih (fun d hd => h d (List.mem_cons_of_mem c hd)) _)

/-- A number is over when a character follows that is none of it. -/
theorem reads_number (n : Int) {c : Char} {out : List Token} {t : State}
    (hc : isBare c = false) (hlead : lead c = some (out, t)) :
    Reads .between ((toString n).toList ++ [c]) (.scalar (.integer n) :: out) t := by
  have hbare := fun (d : Char) (hd : d ∈ (toString n).toList) => isBare_of_mem_toString hd
  have hvalue := bare?_toString n
  cases hcs : (toString n).toList with
  | nil =>
    rw [hcs] at hvalue
    cases hvalue
  | cons d ds =>
    rw [hcs] at hbare hvalue
    have hfirst : feed .between d = some ([], .bare [d]) :=
      lead_of_isBare (hbare d List.mem_cons_self)
    have hlast : feed (.bare (ds.reverse ++ [d])) c = some (.scalar (.integer n) :: out, t) := by
      have hback : (ds.reverse ++ [d]).reverse = d :: ds := by simp
      rw [feed, hc, if_neg Bool.false_ne_true, hback, hvalue, hlead]
      rfl
    have hrest := reads_bare (fun e he => hbare e (List.mem_cons_of_mem d he)) [d]
    exact (reads_char hfirst).skip (hrest.skip (reads_char hlast))

-- =================================================================== lines

/-- What a field holds, as a value. -/
def Scalar.value : Scalar → Value
  | text s => .text s
  | number n => .integer n

/-- A field, as it is read. -/
def fieldValue (field : String × Scalar) : String × Value := (field.1, field.2.value)

/-- A record, as it is read. -/
def Record.value (r : Record) : Value := .record (r.map fieldValue)

/-- A line gives its tokens when the character behind it has been read,
which ends a number if there is one. -/
def ReadsLine (line : String) (tokens : List Token) : Prop :=
  ∀ (c : Char) (out : List Token), isBare c = false → lead c = some (out, .between) →
    Reads .between (line.toList ++ [c]) (tokens ++ out) .between

theorem reads_blanks (cs : List Char) (h : ∀ c ∈ cs, c = ' ' ∨ c = '\n') :
    Reads .between cs [] .between := by
  induction cs with
  | nil => exact reads_nil _
  | cons c cs ih =>
    have hfeed : feed .between c = some ([], .between) := by
      rcases h c List.mem_cons_self with hc | hc <;> rw [hc] <;> rfl
    exact (reads_char hfeed).skip (ih fun d hd => h d (List.mem_cons_of_mem c hd))

theorem reads_mark {c : Char} (h : lead c = some ([.mark c], .between)) :
    Reads .between [c] [.mark c] .between :=
  reads_char h

theorem readsLine_scalar (v : Scalar) : ReadsLine v.render [.scalar v.value] := by
  intro c out hbare hlead
  cases v with
  | text s => exact (reads_quote s).append (reads_char hlead)
  | number n => exact reads_number n hbare hlead

/-- The tokens of a field. -/
def fieldTokens (field : String × Scalar) : List Token :=
  [.scalar (.text field.1), .mark ':', .scalar field.2.value]

theorem readsLine_fieldLine (field : String × Scalar) :
    ReadsLine (fieldLine field) (fieldTokens field) := by
  intro c out hbare hlead
  have hblanks : Reads .between [' ', ' ', ' ', ' '] [] .between := reads_blanks _ (by simp)
  have hcolon : Reads .between [':', ' '] [.mark ':'] .between :=
    (reads_mark rfl).append (reads_blanks [' '] (by simp))
  have hread := hblanks.skip <| (reads_quote field.1).append <|
    hcolon.append (readsLine_scalar field.2 c out hbare hlead)
  simpa [fieldLine, fieldTokens] using hread

/-- Lines with commas between them. The comma or the end of the line says
that a line is over. -/
theorem reads_commaLines {α : Type} {line : α → String} {tokens : α → List Token}
    (h : ∀ a, ReadsLine (line a) (tokens a)) (as : List α) :
    Reads .between ((commaLines (as.map line)).toList ++ ['\n'])
      ([Token.mark ','].intercalate (as.map tokens)) .between := by
  induction as with
  | nil =>
    have hbreak : Reads .between ['\n'] [] .between := reads_blanks _ (by simp)
    simpa [commaLines] using hbreak
  | cons a as ih =>
    cases as with
    | nil => simpa [commaLines] using h a '\n' [] (by decide) rfl
    | cons b as =>
      have hcomma := h a ',' [.mark ','] (by decide) rfl
      have hbreak : Reads .between ['\n'] [] .between := reads_blanks _ (by simp)
      simpa [commaLines] using hcomma.append (hbreak.skip ih)

/-- The tokens of a record. -/
def recordTokens (r : Record) : List Token :=
  .mark '\x7b' :: ([Token.mark ','].intercalate (r.map fieldTokens) ++ [.mark '\x7d'])

theorem readsLine_renderRecord (r : Record) : ReadsLine (renderRecord r) (recordTokens r) := by
  intro c out hbare hlead
  have hblanks : Reads .between [' ', ' '] [] .between := reads_blanks _ (by simp)
  have hopen : Reads .between [' ', ' ', '\x7b', '\n'] [.mark '\x7b'] .between :=
    hblanks.skip <| (reads_mark rfl).append (reads_blanks ['\n'] (by simp))
  have hclose : Reads .between [' ', ' ', '\x7d', c] (.mark '\x7d' :: out) .between :=
    hblanks.skip <| (reads_mark rfl).append (reads_char hlead)
  have hread := hopen.append <| (reads_commaLines readsLine_fieldLine r).append hclose
  simpa [renderRecord, recordTokens] using hread

/-- The tokens of a list of records. -/
theorem tokensFrom_render (records : List Record) :
    tokensFrom .between (render records).toList
      = some (.mark '['
        :: ([Token.mark ','].intercalate (records.map recordTokens) ++ [.mark ']'])) := by
  refine Reads.tokensFrom_eq ?_
  cases records with
  | nil => exact (reads_mark (c := '[') rfl).append (reads_mark (c := ']') rfl)
  | cons r records =>
    have hopen : Reads .between ['[', '\n'] [.mark '['] .between :=
      (reads_mark rfl).append (reads_blanks ['\n'] (by simp))
    have hread := hopen.append <|
      (reads_commaLines readsLine_renderRecord (r :: records)).append (reads_mark (c := ']') rfl)
    simpa [render] using hread

-- ================================================================= nesting

/-- A field, behind those that have been read. -/
theorem read_field (field : String × Scalar) (before : List (String × Value))
    (above : List Frame) :
    List.foldlM Reading.step (.fields before above) (fieldTokens field)
      = some (.behind field.2.value (.field before field.1 :: above)) := by
  cases before <;> rfl

/-- The fields of a record that has any. -/
theorem read_fields (fields : List (String × Scalar)) :
    ∀ (field : String × Scalar) (before : List (String × Value)) (above : List Frame),
      List.foldlM Reading.step (.fields before above)
          ([Token.mark ','].intercalate ((field :: fields).map fieldTokens) ++ [.mark '\x7d'])
        = some (.behind (.record (before ++ (field :: fields).map fieldValue)) above) := by
  induction fields with
  | nil =>
    intro field before above
    simp [List.foldlM_append, read_field, fieldValue, Reading.step]
  | cons next fields ih =>
    intro field before above
    have hrest := ih next (before ++ [fieldValue field]) above
    simpa [List.foldlM_append, read_field, fieldValue, Reading.step] using hrest

/-- A record is read alike wherever a value may begin. -/
theorem read_record (r : Record) {s : Reading} {above : List Frame}
    (hs : s.step (.mark '\x7b') = some (.fields [] above)) :
    List.foldlM Reading.step s (recordTokens r) = some (.behind r.value above) := by
  rw [recordTokens, List.foldlM_cons, hs, Option.bind_eq_bind, Option.bind_some]
  cases r with
  | nil => rfl
  | cons field fields => exact read_fields fields field [] above

/-- The records of a list that has any, where the first may begin. -/
theorem read_records (records : List Record) :
    ∀ (r : Record) (before : List Value) (above : List Frame) (s : Reading),
      s.step (.mark '\x7b') = some (.fields [] (.item before :: above)) →
      List.foldlM Reading.step s
          ([Token.mark ','].intercalate ((r :: records).map recordTokens) ++ [.mark ']'])
        = some (.behind (.list (before ++ (r :: records).map Record.value)) above) := by
  induction records with
  | nil =>
    intro r before above s hs
    simp [List.foldlM_append, read_record r hs, Reading.step]
  | cons next records ih =>
    intro r before above s hs
    have hrest := ih next (before ++ [r.value]) above
      (.value (.item (before ++ [r.value]) :: above)) rfl
    simpa [List.foldlM_append, read_record r hs, Reading.step] using hrest

/-- What is written is read again. -/
theorem parse_render (records : List Record) :
    parse (render records) = some (.list (records.map Record.value)) := by
  rw [parse, tokensFrom_render, Option.bind_some, List.foldlM_cons]
  cases records with
  | nil => rfl
  | cons r records =>
    have hread := read_records records r [] [] (.opened []) rfl
    simp only [Reading.step, Reading.begin, Option.bind_eq_bind, Option.bind_some]
    rw [hread]
    rfl

-- ============================================================== characters

/-- A character of printable ASCII, or a newline. -/
def Plain (c : Char) : Prop := c = '\n' ∨ (0x20 ≤ c.toNat ∧ c.toNat ≤ 0x7E)

instance (c : Char) : Decidable (Plain c) :=
  inferInstanceAs (Decidable (c = '\n' ∨ (0x20 ≤ c.toNat ∧ c.toNat ≤ 0x7E)))

theorem plain_of_mem_digits {width n : Nat} {c : Char} (h : c ∈ Hex.digits width n) :
    Plain c := by
  induction width generalizing n with
  | zero => cases h
  | succ width ih =>
    rcases List.mem_append.1 h with hfront | hlast
    · exact ih hfront
    · have hall : ∀ d < 16, Plain (Hex.digit d) := by decide
      rw [List.mem_singleton.1 hlast]
      exact hall _ (Nat.mod_lt _ (by decide))

theorem plain_of_mem_unit {n : Nat} {c : Char} (h : c ∈ unit n) : Plain c := by
  simp only [unit, List.mem_cons] at h
  obtain hslash | hu | hdigit := h
  · rw [hslash]
    decide
  · rw [hu]
    decide
  · exact plain_of_mem_digits hdigit

theorem plain_of_mem_escape {c d : Char} (h : d ∈ escape c) : Plain d := by
  have hshort : ∀ e : Char, Plain e → d ∈ ['\\', e] → Plain d := by
    intro e he hd
    obtain hslash | hd := List.mem_cons.1 hd
    · rw [hslash]
      decide
    · rw [List.mem_singleton.1 hd]
      exact he
  unfold escape at h
  split_ifs at h with hquote hslash hn hr ht hb hf hplain
  · exact hshort '"' (by decide) h
  · exact hshort '\\' (by decide) h
  · exact hshort 'n' (by decide) h
  · exact hshort 'r' (by decide) h
  · exact hshort 't' (by decide) h
  · exact hshort 'b' (by decide) h
  · exact hshort 'f' (by decide) h
  · rw [List.mem_singleton.1 h]
    exact .inr hplain
  · simp only [units] at h
    split at h
    · exact plain_of_mem_unit h
    · rcases List.mem_append.1 h with h | h
      · exact plain_of_mem_unit h
      · exact plain_of_mem_unit h

/-- A text of plain characters. -/
def PlainText (s : String) : Prop := ∀ c ∈ s.toList, Plain c

instance (s : String) : Decidable (PlainText s) := List.decidableBAll Plain s.toList

theorem PlainText.append {s t : String} (hs : PlainText s) (ht : PlainText t) :
    PlainText (s ++ t) := by
  intro c hc
  rw [String.toList_append] at hc
  rcases List.mem_append.1 hc with h | h
  · exact hs c h
  · exact ht c h

theorem plainText_quote (s : String) : PlainText (quote s) := by
  intro c hc
  rw [quote, String.toList_ofList, List.mem_cons, List.mem_append, List.mem_singleton] at hc
  obtain hopen | hbody | hclose := hc
  · rw [hopen]
    decide
  · obtain ⟨d, -, hd⟩ := List.mem_flatMap.1 hbody
    exact plain_of_mem_escape hd
  · rw [hclose]
    decide

theorem plainText_scalar (v : Scalar) : PlainText v.render := by
  cases v with
  | text s => exact plainText_quote s
  | number n =>
    intro c hc
    rcases isDigit_of_mem_toString hc with hminus | hdigit
    · rw [hminus]
      decide
    · have hrange : 48 ≤ c.toNat ∧ c.toNat ≤ 57 := by
        simpa [Char.isDigit, UInt32.le_iff_toNat_le] using hdigit
      exact .inr (by omega)

theorem plainText_commaLines {α : Type} {line : α → String} (h : ∀ a, PlainText (line a))
    (as : List α) : PlainText (commaLines (as.map line)) := by
  induction as with
  | nil =>
    have hempty : PlainText "" := by decide
    simpa [commaLines] using hempty
  | cons a as ih =>
    cases as with
    | nil => simpa [commaLines] using h a
    | cons b as =>
      have hcomma : PlainText ",\n" := by decide
      rw [commaLines, List.map_cons, List.map_cons, String.intercalate_cons_cons]
      exact ((h a).append hcomma).append ih

theorem plainText_fieldLine (field : String × Scalar) : PlainText (fieldLine field) := by
  have hblanks : PlainText "    " := by decide
  have hcolon : PlainText ": " := by decide
  exact ((hblanks.append (plainText_quote field.1)).append hcolon).append (plainText_scalar field.2)

theorem plainText_renderRecord (r : Record) : PlainText (renderRecord r) := by
  have hopen : PlainText "  \x7b\n" := by decide
  have hclose : PlainText "\n  \x7d" := by decide
  exact (hopen.append (plainText_commaLines plainText_fieldLine r)).append hclose

/-- Nothing but printable ASCII and newlines is written. -/
theorem plainText_render (records : List Record) : PlainText (render records) := by
  cases records with
  | nil => decide
  | cons r records =>
    have hopen : PlainText "[\n" := by decide
    have hclose : PlainText "\n]" := by decide
    exact (hopen.append (plainText_commaLines plainText_renderRecord (r :: records))).append hclose

end Json

end QueryLint
