/-
What a message says. A rule writes its template for some parts, and the
message of a diagnostic is these parts one after the other, with each
argument as it was given: braces in an argument are text like any other,
and arguments that nobody asks for are left out
(`message_of_written_template`). If a part asks for more than there is,
there is no message, and the first part that does is blamed.

A number is too great to be an index at all from 2^63 on. Such a place is
not a place for a missing argument but no place, and is blamed as that
(`great_index_blamed_as_digits`).

The rule of index lambdas asks for one argument and is given one, so its
findings always have a message, whatever the call that was found is
named (`IndexLambda.message_of_check?`).
-/
import QueryLint.Proofs.Diagnostic.Sorting
import QueryLint.Proofs.Host.Analysis
import QueryLint.Proofs.Text.Template

namespace QueryLint

namespace Template

-- =================================================================== parts

/-- A part as it stands in a message. -/
def Part.verbatim (args : List String) : Part → String
  | text s => s
  | argument i => args.getD i ""

/-- What a part asks for can be given. -/
def Part.Given (style : Style) (args : List String) (part : Part) : Prop :=
  ∀ i, part = .argument i → i < args.length ∧ style.Fits i

variable {style : Style} {args : List String}

theorem Part.fill_of_given {part : Part} (h : part.Given style args) :
    part.fill style args = .ok (part.verbatim args) := by
  cases part with
  | text s => rfl
  | argument i =>
    obtain ⟨hlt, hfits⟩ := h i rfl
    rw [Part.fill, if_pos hfits, List.getElem?_eq_getElem hlt, Part.verbatim,
      List.getD_eq_getElem?_getD, List.getElem?_eq_getElem hlt, Option.getD_some]

/-- Only an argument can be missing, and it is blamed by its number if it
has one. -/
theorem Part.fill_eq_error_iff {part : Part} {e : TemplateError} :
    part.fill style args = .error e ↔
      ∃ i, part = .argument i
        ∧ ((style.Fits i ∧ args.length ≤ i ∧ e = .outOfRange i)
          ∨ (¬ style.Fits i ∧ e = .tooManyDigits)) := by
  cases part with
  | text s =>
    constructor
    · intro h
      cases h
    · intro h
      obtain ⟨i, heq, -⟩ := h
      cases heq
  | argument i =>
    rw [Part.fill]
    by_cases hfits : style.Fits i
    · rw [if_pos hfits]
      by_cases hlt : i < args.length
      · rw [List.getElem?_eq_getElem hlt]
        simp [hfits, Nat.not_le.2 hlt]
      · rw [List.getElem?_eq_none (by omega)]
        simp [hfits, Nat.le_of_not_lt hlt, eq_comm]
    · simp [hfits, eq_comm]

theorem Part.given_of_fill_eq_ok {part : Part} {a : String}
    (h : part.fill style args = .ok a) : part.Given style args := by
  intro i heq
  subst heq
  by_cases hfits : style.Fits i
  · refine ⟨?_, hfits⟩
    by_cases hlt : i < args.length
    · exact hlt
    · have herror : (Part.argument i).fill style args = .error (.outOfRange i) :=
        fill_eq_error_iff.2 ⟨i, rfl, .inl ⟨hfits, Nat.le_of_not_lt hlt, rfl⟩⟩
      rw [h] at herror
      cases herror
  · have herror : (Part.argument i).fill style args = .error .tooManyDigits :=
      fill_eq_error_iff.2 ⟨i, rfl, .inr ⟨hfits, rfl⟩⟩
    rw [h] at herror
    cases herror

-- =============================================================== templates

/-- All parts that are asked for can be given. -/
def AllGiven (style : Style) (args : List String) (parts : List Part) : Prop :=
  ∀ i, .argument i ∈ parts → i < args.length ∧ style.Fits i

theorem AllGiven.given {parts : List Part} (h : AllGiven style args parts) :
    ∀ part ∈ parts, part.Given style args := by
  intro part hpart i heq
  exact h i (heq ▸ hpart)

theorem fill_write_eq_ok_iff {parts : List Part} {text : String} :
    fill (write style parts) args = .ok text ↔
      AllGiven style args (asked style parts)
        ∧ text = String.join ((asked style parts).map (Part.verbatim args)) := by
  rw [fill_write]
  constructor
  · intro h
    cases htexts : (asked style parts).mapM (Part.fill style args) with
    | error e =>
      rw [htexts] at h
      cases h
    | ok texts =>
      rw [htexts] at h
      rw [mapM_eq_ok_iff] at htexts
      have hgiven : AllGiven style args (asked style parts) := by
        intro i hi
        have hmem : (Part.argument i).fill style args ∈ texts.map Except.ok := by
          rw [← htexts]
          exact List.mem_map_of_mem hi
        obtain ⟨a, -, ha⟩ := List.mem_map.1 hmem
        exact Part.given_of_fill_eq_ok ha.symm i rfl
      have hsaid : (asked style parts).map (Part.fill style args)
          = ((asked style parts).map (Part.verbatim args)).map Except.ok := by
        rw [List.map_map]
        exact List.map_congr_left fun part hpart => Part.fill_of_given (hgiven.given part hpart)
      rw [hsaid] at htexts
      have heq := (List.map_inj_right fun _ _ => Except.ok.inj).1 htexts
      rw [heq]
      exact ⟨hgiven, (Except.ok.inj h).symm⟩
  · intro h
    obtain ⟨hgiven, rfl⟩ := h
    have hsaid : (asked style parts).mapM (Part.fill style args)
        = .ok ((asked style parts).map (Part.verbatim args)) := by
      rw [mapM_eq_ok_iff, List.map_map]
      exact List.map_congr_left fun part hpart => Part.fill_of_given (hgiven.given part hpart)
    rw [hsaid]
    rfl

/-- The first part that cannot be given is blamed. -/
theorem fill_write_eq_error_iff {parts : List Part} {e : TemplateError} :
    fill (write style parts) args = .error e ↔
      ∃ before i after, asked style parts = before ++ .argument i :: after
        ∧ AllGiven style args before
        ∧ ((style.Fits i ∧ args.length ≤ i ∧ e = .outOfRange i)
          ∨ (¬ style.Fits i ∧ e = .tooManyDigits)) := by
  have hmap : fill (write style parts) args = .error e ↔
      (asked style parts).mapM (Part.fill style args) = .error e := by
    rw [fill_write]
    cases (asked style parts).mapM (Part.fill style args) with
    | error e' =>
      constructor
      · intro h
        cases h
        rfl
      · intro h
        cases h
        rfl
    | ok texts =>
      constructor
      · intro h
        cases h
      · intro h
        cases h
  rw [hmap, mapM_eq_error_iff]
  constructor
  · intro h
    obtain ⟨before, part, after, heq, hbefore, hpart⟩ := h
    obtain ⟨i, rfl, hblame⟩ := Part.fill_eq_error_iff.1 hpart
    refine ⟨before, i, after, heq, ?_, hblame⟩
    intro j hj
    obtain ⟨a, ha⟩ := hbefore _ hj
    exact Part.given_of_fill_eq_ok ha j rfl
  · intro h
    obtain ⟨before, i, after, heq, hbefore, hblame⟩ := h
    refine ⟨before, .argument i, after, heq, ?_, Part.fill_eq_error_iff.2 ⟨i, rfl, hblame⟩⟩
    intro part hpart
    exact ⟨_, Part.fill_of_given (hbefore.given part hpart)⟩

end Template

-- ============================================================ index lambdas

namespace IndexLambda

/-- What a finding says of a call by its name. -/
def told (name : String) : String :=
  "This version of Entity Framework does not support " ++
    ("using the second index parameter in " ++ name) ++
    ", this expression may throw an exception at runtime."

/-- The parts that the rule's message is made of. -/
def messageParts : List Template.Part :=
  [.text "This version of Entity Framework does not support ", .argument 0,
   .text ", this expression may throw an exception at runtime."]

theorem messageFormat_rule : rule.messageFormat = Template.write .numbered messageParts := by
  decide +kernel

theorem rule_args_of_check? {src : Source} {path : String} {link : Link} {d : Diagnostic}
    (h : check? src path link = some d) :
    d.rule = rule ∧ d.args = ["using the second index parameter in " ++ link.name] := by
  unfold check? at h
  split at h
  case isFalse => cases h
  case isTrue =>
    obtain ⟨parameter, -, rfl⟩ := Option.map_eq_some_iff.1 h
    exact ⟨rfl, rfl⟩

/-- Whatever a call is named, the finding there has a message. -/
theorem message_of_check? {src : Source} {path : String} {link : Link} {d : Diagnostic}
    (h : check? src path link = some d) : d.message = .ok (told link.name) := by
  obtain ⟨hrule, hargs⟩ := rule_args_of_check? h
  unfold Diagnostic.message
  rw [hrule, hargs, messageFormat_rule, Template.fill_write_eq_ok_iff]
  constructor
  · intro i hi
    have hzero : i = 0 := by simpa [messageParts, Template.asked] using hi
    subst hzero
    exact ⟨Nat.zero_lt_one, fun _ => Nat.zero_le _⟩
  · show told link.name = String.join [_, _, _]
    rw [String.join_cons, String.join_cons, String.join_cons, String.join_nil,
      String.append_empty, ← String.append_assoc]
    rfl

/-- What is found in a compilation is found at calls to operators. -/
theorem exists_check?_of_analyze {comp : Compilation} {ds : List Diagnostic}
    (h : Host.default.analyze comp = .ok ds) {d : Diagnostic} (hd : d ∈ ds) :
    ∃ doc ∈ comp.documents, ∃ link : Link, link.name ∈ operators
      ∧ check? doc.source doc.path link = some d := by
  obtain ⟨found, hfound, rfl⟩ := Host.analyze_eq_ok_iff.1 h
  obtain ⟨part, hpart, hmem⟩ := List.mem_flatten.1 ((Diagnostic.sort_perm _).mem_iff.1 hd)
  obtain ⟨doc, hdoc, hreport⟩ := exists_question hfound hpart
  obtain ⟨found, hfound, rfl⟩ := Host.reportIn_eq_ok_iff.1 hreport
  obtain ⟨part, hpart, hmem⟩ := List.mem_flatten.1 hmem
  obtain ⟨c, -, hat⟩ := exists_question hfound hpart
  cases hends : c.endsChain with
  | false =>
    rw [Host.reportAt_default_of_not_endsChain _ _ hends] at hat
    cases hat
    cases hmem
  | true =>
    rw [Host.reportAt_default_of_endsChain _ _ hends] at hat
    obtain ⟨links, type, -, -, rfl⟩ := (report_eq_ok_iff hends).1 hat
    split at hmem
    case isFalse => cases hmem
    case isTrue =>
      obtain ⟨link, hlink, hcheck⟩ := List.mem_filterMap.1 hmem
      refine ⟨doc, hdoc, link, ?_, hcheck⟩
      simpa [isSensitive] using (List.mem_filter.1 hlink).2

end IndexLambda

-- ================================================================= messages

/-- A message says what its template was written for. There is one exactly
if every part that is asked for can be given, and it is then these parts
one after the other; otherwise the first part that cannot be given is
blamed. In particular every finding of the rule of index lambdas has its
message, whatever name the source has for the call. -/
theorem message_of_written_template :
    (∀ (d : Diagnostic) (style : Template.Style) (parts : List Template.Part),
      d.rule.messageFormat = Template.write style parts →
        (∀ text, d.message = .ok text ↔
          (∀ i, .argument i ∈ Template.asked style parts → i < d.args.length ∧ style.Fits i)
            ∧ text = String.join ((Template.asked style parts).map (·.verbatim d.args)))
        ∧ ∀ e, d.message = .error e ↔
          ∃ before i after, Template.asked style parts = before ++ .argument i :: after
            ∧ (∀ j, .argument j ∈ before → j < d.args.length ∧ style.Fits j)
            ∧ ((style.Fits i ∧ d.args.length ≤ i ∧ e = .outOfRange i)
              ∨ (¬ style.Fits i ∧ e = .tooManyDigits)))
      ∧ (∀ (src : Source) (path : String) (link : Link) (d : Diagnostic),
        IndexLambda.check? src path link = some d →
          d.message = .ok (IndexLambda.told link.name))
      ∧ ∀ (comp : Compilation) (ds : List Diagnostic), Host.default.analyze comp = .ok ds →
        ∀ d ∈ ds, ∃ name ∈ IndexLambda.operators, d.message = .ok (IndexLambda.told name) := by
  refine ⟨?_, fun src path link d h => IndexLambda.message_of_check? h, ?_⟩
  · intro d style parts h
    unfold Diagnostic.message
    rw [h]
    exact ⟨fun text => Template.fill_write_eq_ok_iff, fun e => Template.fill_write_eq_error_iff⟩
  · intro comp ds h d hd
    obtain ⟨doc, -, link, hname, hcheck⟩ := IndexLambda.exists_check?_of_analyze h hd
    exact ⟨link.name, hname, IndexLambda.message_of_check? hcheck⟩

/-- A rule by its template alone. -/
def Rule.ofTemplate (template : String) : Rule := ⟨"T1", "T", template, "Test", "warning"⟩

/-- Of three arguments two are told, braces and all; of one, the first
that is missed is blamed. -/
theorem places_next_to_braces :
    (Diagnostic.mk (.ofTemplate "\x7b\x7b\x7b1\x7d\x7d\x7d\x7b0\x7d") ⟨"a.cs", 0, 0⟩
        ["\x7b9\x7d", "x", "y"]).message = .ok "\x7bx\x7d\x7b9\x7d"
      ∧ (Diagnostic.mk (.ofTemplate "\x7b\x7b\x7b1\x7d\x7d\x7d\x7b0\x7d") ⟨"a.cs", 0, 0⟩
        ["x"]).message = .error (.outOfRange 1) := by
  have hformat : (Rule.ofTemplate "\x7b\x7b\x7b1\x7d\x7d\x7d\x7b0\x7d").messageFormat
      = Template.write .numbered [.text "\x7b", .argument 1, .text "\x7d", .argument 0] := by
    decide +kernel
  constructor
  · refine ((message_of_written_template.1 _ _ _ hformat).1 _).2 ⟨?_, by decide +kernel⟩
    intro i hi
    have hcases : i = 1 ∨ i = 0 := by simpa [Template.asked] using hi
    rcases hcases with rfl | rfl
    · exact ⟨by decide, by decide⟩
    · exact ⟨by decide, by decide⟩
  · refine ((message_of_written_template.1 _ _ _ hformat).2 _).2
      ⟨[.text "\x7b"], 1, _, rfl, ?_, .inl ⟨by decide, by decide, rfl⟩⟩
    intro j hj
    simp at hj

/-- A diagnostic that asks for the argument behind the greatest index. -/
def Diagnostic.great : Diagnostic where
  rule := .ofTemplate "\x7b9223372036854775808\x7d"
  location := ⟨"a.cs", 0, 0⟩
  args := []

/-- An argument by a number beyond every index is missed as well, but no
index is named. -/
theorem great_index_blamed_as_digits :
    Diagnostic.great.rule.messageFormat
        = Template.write .numbered [.argument (Template.maxIndex + 1)]
      ∧ Diagnostic.great.message = .error .tooManyDigits
      ∧ ¬ ∀ (d : Diagnostic) (style : Template.Style) (parts : List Template.Part),
        d.rule.messageFormat = Template.write style parts →
          (∃ i, .argument i ∈ Template.asked style parts ∧ d.args.length ≤ i) →
            ∃ i, d.message = .error (.outOfRange i) := by
  have hformat : Diagnostic.great.rule.messageFormat
      = Template.write .numbered [.argument (Template.maxIndex + 1)] := by decide +kernel
  have hmessage : Diagnostic.great.message = .error .tooManyDigits := by decide +kernel
  refine ⟨hformat, hmessage, ?_⟩
  intro h
  obtain ⟨i, hi⟩ := h .great .numbered _ hformat
    ⟨Template.maxIndex + 1, List.mem_singleton_self _, Nat.zero_le _⟩
  rw [hmessage] at hi
  cases hi

end QueryLint
