/-
The host: it holds a compilation and runs analyzers over it. An analyzer
declares the rules that it reports under and registers actions for kinds
of nodes; the host goes through every tree in visiting order and runs on
each node the actions registered for its kind, in the order of their
registration. A report under a rule that no analyzer declares breaks the
analysis off. What was found is put in the order of the source.
-/
import QueryLint.Explain

namespace QueryLint

-- ============================================================ compilations

/-- The documents that are analyzed together. -/
structure Compilation where
  documents : List Document

namespace Compilation

/-- A compilation of nothing. -/
def empty : Compilation := ⟨[]⟩

/-- A compilation with one more document. -/
def add (comp : Compilation) (doc : Document) : Compilation := ⟨comp.documents ++ [doc]⟩

/-- Adding documents one by one to nothing gives the compilation of them. -/
theorem foldl_add (docs : List Document) : docs.foldl add empty = ⟨docs⟩ := by
  have hgeneral : ∀ comp : Compilation, docs.foldl add comp = ⟨comp.documents ++ docs⟩ := by
    induction docs with
    | nil => intro comp; simp
    | cons doc docs ih => intro comp; simp [ih, add]
  exact hgeneral empty

/-- What the documents declare between them. -/
def index (comp : Compilation) : Index := .ofDocuments comp.documents

end Compilation

-- =============================================================== analyzers

/-- An action that is run on every node of a kind. -/
structure Registration where
  kind : Kind
  /-- What it reports at a node. -/
  report : Services → Document → Cursor → Except AnalysisError (List Diagnostic)
  /-- What it tells of its work. -/
  events : Model → Document → Cursor → List Event

/-- An analyzer. -/
structure Analyzer where
  /-- The rules that it declares. -/
  rules : List Rule
  /-- Its actions; none for an analyzer that leaves this part open and
  so cannot be run. -/
  registrations : Option (List Registration)

namespace Analyzer

/-- The bare analyzer: it declares no rules and leaves its actions open. -/
def abstract : Analyzer := ⟨[], none⟩

/-- The analyzer of index lambdas. -/
def indexLambda : Analyzer where
  rules := [IndexLambda.rule]
  registrations := some
    [{ kind := .invocation
       report := fun services doc c => IndexLambda.report services doc.source doc.path c
       events := fun m _ c => IndexLambda.events m c }]

end Analyzer

/-- What a marker says of a node. -/
inductive Detail where
  | kind
  | text
  | path
deriving DecidableEq, Repr

/-- A marker reports every node of some kinds, at its first byte. -/
structure Marker where
  rule : Rule
  /-- Whether the rule is declared. -/
  declared : Bool
  /-- The kinds to report; a kind listed twice is reported twice. -/
  kinds : List Kind
  details : List Detail

namespace Marker

/-- A detail of a node. -/
def detail (doc : Document) (c : Cursor) : Detail → String
  | .kind => c.kind.name
  | .text => doc.text c
  | .path => doc.path

/-- The diagnostic at a node. -/
def mark (marker : Marker) (doc : Document) (c : Cursor) : Diagnostic :=
  let point := doc.point c
  { rule := marker.rule
    location := ⟨doc.path, point.row, point.column⟩
    args := marker.details.map (detail doc c) }

/-- The marker as an analyzer. -/
def analyzer (marker : Marker) : Analyzer where
  rules := if marker.declared then [marker.rule] else []
  registrations := some <| marker.kinds.map fun kind =>
    { kind
      report := fun _ doc c => .ok [marker.mark doc c]
      events := fun _ _ _ => [] }

end Marker

-- =================================================================== hosts

/-- Analyzers ready to run. -/
structure Host where
  /-- The ids of the rules that the analyzers declare. -/
  supported : List String
  registrations : List Registration

/-- The ways in which a host cannot be made. -/
inductive SetupError where
  /-- There is no grammar to parse with. -/
  | missingGrammar
  /-- An analyzer leaves its actions open. -/
  | openAnalyzer
deriving DecidableEq, Repr

/-- The wording of an error. -/
def SetupError.message : SetupError → String
  | missingGrammar =>
    "Could not load C# grammar.\n" ++
    "- Install `tree-sitter-c-sharp` (pip install tree-sitter-c-sharp)."
  | openAnalyzer => ""

/-- The wording of an error. -/
def AnalysisError.message : AnalysisError → String
  | endlessResolution => ""
  | undeclaredDiagnostic id => "Reported diagnostic " ++ id ++ " is not declared by any analyzer"

namespace Host

/-- Finds the grammar, if it is installed. -/
def loadGrammar (installed : Bool) : Except SetupError Unit :=
  if installed then .ok () else .error .missingGrammar

/-- The actions of an analyzer that has them. -/
def actionsOf (a : Analyzer) : Except SetupError (List Registration) :=
  match a.registrations with
  | some rs => .ok rs
  | none => .error .openAnalyzer

/-- A host for some analyzers. -/
def make (analyzers : List Analyzer) : Except SetupError Host := do
  let registrations ← analyzers.mapM actionsOf
  return ⟨(analyzers.flatMap Analyzer.rules).map Rule.id, registrations.flatten⟩

/-- The host for index lambdas. -/
def default : Host where
  supported := [IndexLambda.rule.id]
  registrations := Analyzer.indexLambda.registrations.getD []

/-- The default host is the one that is made for its analyzer. -/
theorem make_indexLambda : make [.indexLambda] = .ok default := rfl

variable (host : Host)

/-- The ids of the declared rules, each once, by code point. -/
def supportedIds : List String := Index.sortedNames host.supported

/-- The actions for a kind of node. -/
def actions (kind : Kind) : List Registration := host.registrations.filter (·.kind == kind)

/-- Lets a report through if its rule is declared. -/
def accept (ds : List Diagnostic) : Except AnalysisError (List Diagnostic) :=
  match ds.find? (!host.supported.contains ·.rule.id) with
  | some d => .error (.undeclaredDiagnostic d.rule.id)
  | none => .ok ds

/-- What one action reports at a node. -/
def run (services : Services) (doc : Document) (c : Cursor) (r : Registration) :
    Except AnalysisError (List Diagnostic) := do
  let found ← r.report services doc c
  host.accept found

/-- What is reported at a node. -/
def reportAt (services : Services) (doc : Document) (c : Cursor) :
    Except AnalysisError (List Diagnostic) := do
  let found ← (host.actions c.kind).mapM (host.run services doc c)
  return found.flatten

/-- What is reported in a document, in visiting order. -/
def reportIn (index : Index) (doc : Document) : Except AnalysisError (List Diagnostic) := do
  let services := (Model.mk index doc.source).services
  let found ← doc.tree.visit.mapM (host.reportAt services doc)
  return found.flatten

/-- The diagnostics of a compilation, in the order of the source. -/
def analyze (comp : Compilation) : Except AnalysisError (List Diagnostic) := do
  let found ← comp.documents.mapM (host.reportIn comp.index)
  return Diagnostic.sort found.flatten

/-- What an analysis tells of its work. -/
def events (comp : Compilation) : List Event :=
  let index := comp.index
  comp.documents.flatMap fun doc =>
    doc.tree.visit.flatMap fun c =>
      (host.actions c.kind).flatMap fun r => r.events ⟨index, doc.source⟩ doc c

end Host

end QueryLint
