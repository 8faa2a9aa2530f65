/-
A report loses nothing. If every message can be formed there is a report;
its JSON, read by anyone who reads JSON, is the list of the diagnostics'
records, with everything that was in them, and each printed line can be
told from the record at its place (`Report.json_lossless`).

The lines and the JSON are made apart from each other, both from the
diagnostics, and each adds one to lines and columns by itself. What ties
them together is a diagnostic with its message: both are functions of
these two (`record_eq`, `format_eq`), and the line asks for nothing that
is not in the record.
-/
import Mathlib.Data.List.Forall2
import QueryLint.Proofs.Outcome
import QueryLint.Proofs.Text.Json
import QueryLint.Report

namespace QueryLint

namespace Json.Value

/-- The field of a record by its name. -/
def field? (name : String) : Value → Option Value
  | record fields => fields.lookup name
  | _ => none

/-- The text that a field holds. -/
def text? (name : String) (v : Value) : Option String :=
  match v.field? name with
  | some (text s) => some s
  | _ => none

/-- The whole number that a field holds. -/
def integer? (name : String) (v : Value) : Option Int :=
  match v.field? name with
  | some (integer n) => some n
  | _ => none

end Json.Value

namespace Diagnostic

-- ================================================================= records

/-- The record of a diagnostic with its message, as it is read. -/
def toValue (d : Diagnostic) (message : String) : Json.Value :=
  .record
    [("id", .text d.rule.id),
     ("category", .text d.rule.category),
     ("severity", .text d.rule.severity),
     ("message", .text message),
     ("path", .text d.location.path),
     ("line", .integer (d.location.line + 1)),
     ("col", .integer (d.location.col + 1))]

/-- The line that a record makes: `path:line:col: severity id: message`. -/
def lineOf? (v : Json.Value) : Option String := do
  let path ← v.text? "path"
  let line ← v.integer? "line"
  let col ← v.integer? "col"
  let severity ← v.text? "severity"
  let id ← v.text? "id"
  let message ← v.text? "message"
  return path ++ ":" ++ toString line ++ ":" ++ toString col ++ ": " ++ severity ++ " " ++ id
    ++ ": " ++ message

variable {d : Diagnostic} {message : String}

theorem record_eq (h : d.message = .ok message) :
    ∃ r : Json.Record, d.record = .ok r ∧ r.value = d.toValue message := by
  rw [record, h]
  exact ⟨_, rfl, rfl⟩

theorem format_eq (h : d.message = .ok message) :
    ∃ line, d.format = .ok line ∧ lineOf? (d.toValue message) = some line := by
  rw [format, h]
  exact ⟨_, rfl, rfl⟩

end Diagnostic

-- ================================================================= reports

namespace Report

open Diagnostic (lineOf?)

/-- The records and lines of diagnostics that all have messages. -/
theorem exists_records {ds : List Diagnostic}
    (h : ∀ d ∈ ds, ∃ message, d.message = .ok message) :
    ∃ (records : List Json.Record) (lines : List String),
      ds.mapM Diagnostic.record = .ok records
        ∧ ds.mapM Diagnostic.format = .ok lines
        ∧ List.Forall₂ (fun d r => ∃ message,
            d.message = .ok message ∧ Json.Record.value r = d.toValue message) ds records
        ∧ List.Forall₂ (fun r line => lineOf? (Json.Record.value r) = some line) records lines := by
  induction ds with
  | nil => exact ⟨[], [], rfl, rfl, .nil, .nil⟩
  | cons d ds ih =>
    obtain ⟨message, hmessage⟩ := h d List.mem_cons_self
    obtain ⟨r, hr, hvalue⟩ := Diagnostic.record_eq hmessage
    obtain ⟨line, hline, hof⟩ := Diagnostic.format_eq hmessage
    obtain ⟨records, lines, hrecords, hlines, hvalues, hofs⟩ :=
      ih fun e he => h e (List.mem_cons_of_mem d he)
    rw [mapM_eq_ok_iff] at hrecords hlines
    refine ⟨r :: records, line :: lines, ?_, ?_, .cons ⟨message, hmessage, hvalue⟩ hvalues,
      .cons (hvalue ▸ hof) hofs⟩
    · rw [mapM_eq_ok_iff, List.map_cons, List.map_cons, hr, hrecords]
    · rw [mapM_eq_ok_iff, List.map_cons, List.map_cons, hline, hlines]

/-- The JSON of a report is plain text that is read as the records of the
diagnostics, in order, and the line of each diagnostic is made from its
record. -/
theorem json_lossless (ds : List Diagnostic)
    (h : ∀ d ∈ ds, ∃ message, d.message = .ok message) :
    ∃ (report : Report) (values : List Json.Value),
      ofDiagnostics ds = .ok report
        ∧ (∀ c ∈ report.json.toList, c = '\n' ∨ (0x20 ≤ c.toNat ∧ c.toNat ≤ 0x7E))
        ∧ Json.parse report.json = some (.list values)
        ∧ List.Forall₂ (fun d v => ∃ message,
            d.message = .ok message ∧ v = d.toValue message) ds values
        ∧ List.Forall₂ (fun d v => ∃ line, d.format = .ok line ∧ lineOf? v = some line) ds values
        ∧ List.Forall₂ (fun v line => lineOf? v = some line) values report.lines := by
  obtain ⟨records, lines, hrecords, hlines, hvalues, hofs⟩ := exists_records h
  have hreport : ofDiagnostics ds = .ok ⟨lines, summarize lines, Json.render records⟩ := by
    rw [ofDiagnostics, hlines, hrecords]
    rfl
  have hall : List.Forall₂ (fun d v => ∃ message,
      d.message = .ok message ∧ v = d.toValue message) ds (records.map Json.Record.value) :=
    List.forall₂_map_right_iff.2 hvalues
  refine ⟨_, records.map Json.Record.value, hreport, Json.plainText_render records,
    Json.parse_render records, hall, ?_, List.forall₂_map_left_iff.2 hofs⟩
  refine hall.imp fun d v hd => ?_
  obtain ⟨message, hmessage, hv⟩ := hd
  rw [hv]
  exact Diagnostic.format_eq hmessage

/-- Diagnostics with quotes, backslashes, control characters and a
character beyond U+FFFF in their texts, one before the first line and one
far to the right. -/
def hardTexts : List Diagnostic :=
  let rule : Rule :=
    { id := "\"R\\1\"", title := "", messageFormat := "\x7b0\x7d\t\x7f", category := "\x01é"
      severity := "\uffff" }
  [⟨rule, ⟨"a\\b\n.cs", -7, 1000000000000000000000000000000⟩, ["😀\x7b\x7d"]⟩,
    ⟨rule, ⟨"", 0, -1⟩, ["\r\x08\x0c"]⟩]

theorem json_of_hardTexts :
    (∀ d ∈ hardTexts, ∃ message, d.message = .ok message)
      ∧ ∃ (report : Report) (values : List Json.Value),
        ofDiagnostics hardTexts = .ok report
          ∧ (∀ c ∈ report.json.toList, c = '\n' ∨ (0x20 ≤ c.toNat ∧ c.toNat ≤ 0x7E))
          ∧ Json.parse report.json = some (.list values)
          ∧ List.Forall₂ (fun d v => ∃ message,
              d.message = .ok message ∧ v = d.toValue message) hardTexts values
          ∧ List.Forall₂ (fun d v => ∃ line, d.format = .ok line ∧ lineOf? v = some line)
              hardTexts values
          ∧ List.Forall₂ (fun v line => lineOf? v = some line) values report.lines := by
  have hmessages : ∀ d ∈ hardTexts, ∃ message, d.message = .ok message := by
    intro d hd
    simp only [hardTexts, List.mem_cons, List.not_mem_nil, or_false] at hd
    obtain rfl | rfl := hd
    · exact ⟨"😀\x7b\x7d\t\x7f", by with_unfolding_all rfl⟩
    · exact ⟨"\r\x08\x0c\t\x7f", by with_unfolding_all rfl⟩
  exact ⟨hmessages, json_lossless hardTexts hmessages⟩

end Report

end QueryLint
