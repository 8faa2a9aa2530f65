/-
How diagnostics are shown: one line each in the manner of a compiler, a
summary of them all, and a list of JSON records. People count lines and
columns from one, so all three do.
-/
import QueryLint.Diagnostic
import QueryLint.Text.Json

namespace QueryLint

namespace Diagnostic

/-- The line of a diagnostic: `path:line:col: severity id: message`. -/
def format (d : Diagnostic) : Except TemplateError String :=
  d.message.map fun message =>
    d.location.path ++ ":" ++ toString (d.location.line + 1) ++ ":" ++
      toString (d.location.col + 1) ++ ": " ++ d.rule.severity ++ " " ++ d.rule.id ++ ": " ++
      message

/-- A diagnostic as a record. -/
def record (d : Diagnostic) : Except TemplateError Json.Record :=
  d.message.map fun message =>
    [("id", .text d.rule.id),
     ("category", .text d.rule.category),
     ("severity", .text d.rule.severity),
     ("message", .text message),
     ("path", .text d.location.path),
     ("line", .number (d.location.line + 1)),
     ("col", .number (d.location.col + 1))]

end Diagnostic

/-- Diagnostics as they are shown. -/
structure Report where
  lines : List String
  summary : String
  json : String
deriving Repr

namespace Report

/-- The lines under a heading, and how many there are. -/
def summarize (lines : List String) : String :=
  "\n=== DIAGNOSTICS ===\n" ++ String.join (lines.map (· ++ "\n")) ++
    "\n" ++ toString lines.length ++ " warning(s)\n"

/-- The report of diagnostics whose messages can be formed. -/
def ofDiagnostics (ds : List Diagnostic) : Except TemplateError Report := do
  let lines ← ds.mapM Diagnostic.format
  let records ← ds.mapM Diagnostic.record
  return ⟨lines, summarize lines, Json.render records⟩

/-- A whole report, as it is printed. -/
def print (r : Report) : String := r.summary ++ "\n=== JSON ===\n" ++ r.json ++ "\n"

end Report

end QueryLint
