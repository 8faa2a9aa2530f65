/-
Templates, written and filled in again. What a message is to say is a
list of parts, each of them text or an argument (`Part`). Written down,
every brace of a text is doubled, and the arguments are either all given
by number or all left bare (`write`).

# Reading undoes writing

The reader is a machine with a state, and between two parts it stands in
text again. So each part is read by itself, whatever is behind it: a
doubled brace as one character of text, a place as that place
(`tokensFrom_write`). That is why `{{{0}` is a brace and then a place,
and not the other way round: the braces of a text come in pairs, and a
pair is used up before the place begins.

Filling in then goes from part to part and breaks off at the first
argument that is not there (`fill_write`).
-/
import QueryLint.Text.Template

namespace QueryLint.Template

-- =================================================================== parts

/-- A part of what a message says: a text, or an argument by its number. -/
inductive Part where
  | text (s : String)
  | argument (index : Nat)
deriving DecidableEq, Repr

/-- The two ways of writing places. -/
inductive Style where
  | numbered
  | bare
deriving DecidableEq, Repr

/-- A character of a text: braces are written twice. -/
def double (c : Char) : List Char :=
  if c = opening ∨ c = closing then [c, c] else [c]

/-- A part as a template has it. -/
def Part.write (style : Style) : Part → List Char
  | text s => s.toList.flatMap double
  | argument i =>
    match style with
    | .numbered => opening :: ((toString i).toList ++ [closing])
    | .bare => [opening, closing]

/-- The template of some parts. -/
def write (style : Style) (parts : List Part) : String :=
  String.ofList (parts.flatMap (Part.write style))

/-- Parts with their arguments numbered from left to right. -/
def inOrder (first : Nat) : List Part → List Part
  | [] => []
  | .text s :: rest => .text s :: inOrder first rest
  | .argument _ :: rest => .argument first :: inOrder (first + 1) rest

/-- The parts that a template asks for: places that are left bare stand
for the arguments in order. -/
def asked : Style → List Part → List Part
  | .numbered, parts => parts
  | .bare, parts => inOrder 0 parts

/-- An index that is written out can be read. -/
def Style.Fits (style : Style) (i : Nat) : Prop := style = .numbered → i ≤ maxIndex

instance (style : Style) (i : Nat) : Decidable (style.Fits i) :=
  inferInstanceAs (Decidable (style = .numbered → i ≤ maxIndex))

/-- What a part comes to. -/
def Part.fill (style : Style) (args : List String) : Part → Except TemplateError String
  | text s => .ok s
  | argument i =>
    if style.Fits i then
      match args[i]? with
      | some a => .ok a
      | none => .error (.outOfRange i)
    else .error .tooManyDigits

-- ================================================================== tokens

/-- The tokens of a part. -/
def Part.tokens (style : Style) : Part → List Token
  | text s => s.toList.map .char
  | argument i =>
    match style with
    | .numbered => [.place (toString i).toList]
    | .bare => [.place []]

theorem tokensFrom_double (c : Char) (rest : List Char) :
    tokensFrom .text (double c ++ rest) = .char c :: tokensFrom .text rest := by
  unfold double
  by_cases hopen : c = opening
  · rw [if_pos (.inl hopen), hopen]
    simp [tokensFrom]
  by_cases hclose : c = closing
  · rw [if_pos (.inr hclose), hclose]
    simp [tokensFrom, show closing ≠ opening by decide]
  · simp [tokensFrom, hopen, hclose]

theorem tokensFrom_text (cs rest : List Char) :
    tokensFrom .text (cs.flatMap double ++ rest)
      = cs.map .char ++ tokensFrom .text rest := by
  induction cs with
  | nil => rfl
  | cons c cs ih =>
    rw [List.flatMap_cons, List.append_assoc, tokensFrom_double, ih, List.map_cons,
      List.cons_append]

/-- A place goes on up to its closing brace. -/
theorem tokensFrom_place {cs : List Char} (h : closing ∉ cs) (inside rest : List Char) :
    tokensFrom (.place inside) (cs ++ closing :: rest)
      = .place (inside.reverse ++ cs) :: tokensFrom .text rest := by
  induction cs generalizing inside with
  | nil => simp [tokensFrom]
  | cons c cs ih =>
    have hc : c ≠ closing := fun heq => h (heq ▸ List.mem_cons_self)
    have hcs : closing ∉ cs := fun hmem => h (List.mem_cons_of_mem c hmem)
    rw [List.cons_append, tokensFrom, if_neg hc, ih hcs]
    simp

theorem isDigit_of_mem_toString {i : Nat} {c : Char} (h : c ∈ (toString i).toList) :
    c.isDigit = true := by
  rw [Nat.toString_eq_ofList_toDigits, String.toList_ofList] at h
  exact Nat.isDigit_of_mem_toDigits (by decide) (by decide) h

theorem tokensFrom_number (i : Nat) (rest : List Char) :
    tokensFrom .text (opening :: ((toString i).toList ++ closing :: rest))
      = .place (toString i).toList :: tokensFrom .text rest := by
  have hclosing : closing ∉ (toString i).toList := fun hmem =>
    absurd (isDigit_of_mem_toString hmem) (by decide)
  have hopening : opening ∉ (toString i).toList := fun hmem =>
    absurd (isDigit_of_mem_toString hmem) (by decide)
  -- there is a first digit, which is no brace
  cases hdigits : (toString i).toList with
  | nil =>
    rw [Nat.toString_eq_ofList_toDigits, String.toList_ofList] at hdigits
    exact absurd hdigits Nat.toDigits_ne_nil
  | cons c cs =>
    rw [hdigits] at hclosing hopening
    have hc : c ≠ closing := fun heq => hclosing (heq ▸ List.mem_cons_self)
    have hc' : c ≠ opening := fun heq => hopening (heq ▸ List.mem_cons_self)
    have hcs : closing ∉ cs := fun hmem => hclosing (List.mem_cons_of_mem c hmem)
    rw [tokensFrom, if_pos rfl, List.cons_append, tokensFrom, if_neg hc', if_neg hc,
      tokensFrom_place hcs]
    rfl

/-- A part is read by itself. -/
theorem tokensFrom_part (style : Style) (part : Part) (rest : List Char) :
    tokensFrom .text (part.write style ++ rest)
      = part.tokens style ++ tokensFrom .text rest := by
  cases part with
  | text s => exact tokensFrom_text s.toList rest
  | argument i =>
    cases style with
    | numbered =>
      show tokensFrom .text (opening :: (((toString i).toList ++ [closing]) ++ rest)) = _
      rw [List.append_assoc]
      exact tokensFrom_number i rest
    | bare => rfl

theorem tokensFrom_write (style : Style) (parts : List Part) :
    tokensFrom .text (parts.flatMap (Part.write style))
      = parts.flatMap (Part.tokens style) := by
  induction parts with
  | nil => rfl
  | cons part parts ih =>
    rw [List.flatMap_cons, tokensFrom_part, ih, List.flatMap_cons]

-- ================================================================== pieces

/-- The piece that a place comes to, once its number is known. -/
def Style.piece (style : Style) (i : Nat) : Piece :=
  if style.Fits i then .argument i else .fault .tooManyDigits

/-- The pieces of a part. -/
def Part.pieces (style : Style) : Part → List Piece
  | text s => s.toList.map .char
  | argument i => [style.piece i]

theorem piecesFrom_chars (n : Numbering) (cs : List Char) (tokens : List Token) :
    piecesFrom n (cs.map .char ++ tokens) = cs.map .char ++ piecesFrom n tokens := by
  induction cs with
  | nil => rfl
  | cons c cs ih => rw [List.map_cons, List.cons_append, piecesFrom, ih]; rfl

/-- Digits behind others are read as one number with them, unless that is
too great. -/
theorem readIndex_eq {cs : List Char} (h : ∀ c ∈ cs, c.isDigit = true) {n : Nat}
    (hn : n ≤ maxIndex) :
    readIndex n cs
      = if Nat.ofDigitChars 10 cs n ≤ maxIndex then .index (Nat.ofDigitChars 10 cs n)
        else .tooManyDigits := by
  induction cs generalizing n with
  | nil => rw [Nat.ofDigitChars_nil, if_pos hn]; rfl
  | cons c cs ih =>
    rw [readIndex, if_pos (h c List.mem_cons_self), Nat.ofDigitChars_cons]
    by_cases hgreat : maxIndex < 10 * n + (c.toNat - '0'.toNat)
    · have hmore : 10 * n + (c.toNat - '0'.toNat)
          ≤ Nat.ofDigitChars 10 cs (10 * n + (c.toNat - '0'.toNat)) := by
        rw [Nat.ofDigitChars_eq_ofDigitChars_zero]
        exact Nat.le_add_right_of_le (Nat.le_mul_of_pos_left _ (Nat.pow_pos (by decide)))
      rw [if_pos hgreat, if_neg (by omega)]
    · rw [if_neg hgreat]
      exact ih (fun d hd => h d (List.mem_cons_of_mem c hd)) (by omega)

theorem readIndex_toString (i : Nat) :
    readIndex 0 (toString i).toList
      = if i ≤ maxIndex then .index i else .tooManyDigits := by
  rw [readIndex_eq (fun c hc => isDigit_of_mem_toString hc) (Nat.zero_le _),
    Nat.toString_eq_ofList_toDigits, String.toList_ofList, Nat.ofDigitChars_ten_toDigits]

/-- A number between braces, where no place before it was bare. -/
theorem place_toString {n : Numbering} (hn : ∀ count, n ≠ .bare count) (i : Nat) :
    ∃ m : Numbering, (∀ count, m ≠ .bare count)
      ∧ place n (toString i).toList = (Style.numbered.piece i, m) := by
  have hread := readIndex_toString i
  cases hdigits : (toString i).toList with
  | nil =>
    rw [Nat.toString_eq_ofList_toDigits, String.toList_ofList] at hdigits
    exact absurd hdigits Nat.toDigits_ne_nil
  | cons c cs =>
    rw [hdigits] at hread
    unfold place
    simp only [hread]
    by_cases hfits : i ≤ maxIndex
    · have hnumbered : Style.numbered.Fits i := fun _ => hfits
      rw [if_pos hfits, Style.piece, if_pos hnumbered]
      cases n with
      | undecided => exact ⟨.numbered, by simp, rfl⟩
      | numbered => exact ⟨.numbered, by simp, rfl⟩
      | bare count => exact absurd rfl (hn count)
    · have hnumbered : ¬ Style.numbered.Fits i := fun h => hfits (h rfl)
      rw [if_neg hfits, Style.piece, if_neg hnumbered]
      exact ⟨n, hn, rfl⟩

theorem piecesFrom_numbered {n : Numbering} (hn : ∀ count, n ≠ .bare count)
    (parts : List Part) :
    piecesFrom n (parts.flatMap (Part.tokens .numbered))
      = parts.flatMap (Part.pieces .numbered) := by
  induction parts generalizing n with
  | nil => rfl
  | cons part parts ih =>
    rw [List.flatMap_cons, List.flatMap_cons]
    cases part with
    | text s =>
      rw [Part.tokens, piecesFrom_chars, ih hn]
      rfl
    | argument i =>
      obtain ⟨m, hm, hplace⟩ := place_toString hn i
      show piecesFrom n (.place (toString i).toList :: parts.flatMap (Part.tokens .numbered)) = _
      rw [piecesFrom, hplace]
      exact congrArg (Style.numbered.piece i :: ·) (ih hm)

theorem piecesFrom_bare (count : Nat) (parts : List Part) :
    piecesFrom (.bare count) (parts.flatMap (Part.tokens .bare))
      = (inOrder count parts).flatMap (Part.pieces .bare) := by
  induction parts generalizing count with
  | nil => rfl
  | cons part parts ih =>
    rw [List.flatMap_cons]
    cases part with
    | text s =>
      rw [Part.tokens, piecesFrom_chars, ih, inOrder, List.flatMap_cons]
      rfl
    | argument i =>
      show piecesFrom (.bare count) (.place [] :: _) = _
      rw [piecesFrom, inOrder, List.flatMap_cons]
      show .argument count :: piecesFrom (.bare (count + 1)) (parts.flatMap (Part.tokens .bare)) = _
      rw [ih]
      rfl

/-- Before any place it makes no difference whether bare ones are counted. -/
theorem piecesFrom_undecided (parts : List Part) :
    piecesFrom .undecided (parts.flatMap (Part.tokens .bare))
      = piecesFrom (.bare 0) (parts.flatMap (Part.tokens .bare)) := by
  induction parts with
  | nil => rfl
  | cons part parts ih =>
    rw [List.flatMap_cons]
    cases part with
    | text s => rw [Part.tokens, piecesFrom_chars, piecesFrom_chars, ih]
    | argument i => rfl

theorem piecesFrom_write (style : Style) (parts : List Part) :
    piecesFrom .undecided (parts.flatMap (Part.tokens style))
      = (asked style parts).flatMap (Part.pieces style) := by
  cases style with
  | numbered => exact piecesFrom_numbered (by simp) parts
  | bare => exact (piecesFrom_undecided parts).trans (piecesFrom_bare 0 parts)

-- ================================================================= filling

theorem fillAll_cons (args : List String) (p : Piece) (rest : List Piece) :
    fillAll args (p :: rest)
      = (p.fill args).bind fun a => (fillAll args rest).map (a ++ ·) := by
  show ((p.fill args) >>= _) = _
  cases p.fill args with
  | error e => rfl
  | ok a =>
    show (fillAll args rest >>= _) = (fillAll args rest).map (a ++ ·)
    cases fillAll args rest with
    | error e => rfl
    | ok b => rfl

theorem fillAll_chars (args : List String) (cs : List Char) (rest : List Piece) :
    fillAll args (cs.map .char ++ rest)
      = (fillAll args rest).map (String.ofList cs ++ ·) := by
  induction cs with
  | nil =>
    show fillAll args rest = _
    cases fillAll args rest with
    | error e => rfl
    | ok b => exact congrArg Except.ok String.empty_append.symm
  | cons c cs ih =>
    rw [List.map_cons, List.cons_append, fillAll_cons, ih]
    cases fillAll args rest with
    | error e => rfl
    | ok b =>
      show Except.ok (String.singleton c ++ (String.ofList cs ++ b)) = _
      rw [String.singleton_eq_ofList, ← String.append_assoc, ← String.ofList_append]
      rfl

theorem fill_piece (style : Style) (args : List String) (i : Nat) :
    (style.piece i).fill args = (Part.argument i).fill style args := by
  by_cases hfits : style.Fits i
  · rw [Style.piece, if_pos hfits, Part.fill, if_pos hfits]
    rfl
  · rw [Style.piece, if_neg hfits, Part.fill, if_neg hfits]
    rfl

/-- A part is filled in by itself. -/
theorem fillAll_part (style : Style) (args : List String) (part : Part) (rest : List Piece) :
    fillAll args (part.pieces style ++ rest)
      = (part.fill style args).bind fun a => (fillAll args rest).map (a ++ ·) := by
  cases part with
  | text s =>
    rw [Part.pieces, fillAll_chars, String.ofList_toList]
    rfl
  | argument i =>
    show fillAll args (style.piece i :: rest) = _
    rw [fillAll_cons, fill_piece]

/-- Filling in a template that was written for some parts goes through
these parts. -/
theorem fill_write (style : Style) (parts : List Part) (args : List String) :
    fill (write style parts) args
      = ((asked style parts).mapM (Part.fill style args)).map String.join := by
  unfold fill tokens write
  rw [String.toList_ofList, tokensFrom_write, piecesFrom_write]
  induction asked style parts with
  | nil => rfl
  | cons part parts ih =>
    rw [List.flatMap_cons, fillAll_part, ih, List.mapM_cons]
    cases part.fill style args with
    | error e => rfl
    | ok a =>
      show _ = (((parts.mapM (Part.fill style args)) >>= _).map String.join)
      cases parts.mapM (Part.fill style args) with
      | error e => rfl
      | ok texts => exact congrArg Except.ok String.join_cons.symm

end QueryLint.Template
