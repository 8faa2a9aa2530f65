/-
What EFX0001 reports, whatever the services answer. There are two places
where something is broken off, and they are of different kinds. Gathering
a query, an unknown call takes all behind it along; so the query has the
longest run of known calls, counted from the source. Going through the
query, the first call that is not made on a query ends it, while a call
to an operator that never takes an index is only passed over (`scan`); so
what is looked at is the longest run of calls on queries. Which types and
targets the services tell does not matter to either.
-/
import QueryLint.Proofs.Chain.Walk
import QueryLint.Proofs.Rule.Findings

namespace QueryLint

namespace IndexLambda

variable {src : Source} {path : String}

-- ==================================================== going through a query

/-- The findings in a row of calls, one call after the other. -/
def scan (src : Source) (path : String) : List Link → List Diagnostic
  | [] => []
  | link :: links =>
    -- from here on the calls are made in memory
    if !onQuery link then []
    else if !isSensitive link.name then scan src path links
    else
      match check? src path link with
      | none => scan src path links
      | some d => d :: scan src path links

theorem scan_eq_findings (source : Cursor) (links : List Link) :
    scan src path links = findings src path ⟨source, links⟩ := by
  induction links with
  | nil => rfl
  | cons link links ih =>
    unfold scan
    cases hquery : onQuery link with
    | false =>
      unfold findings
      rw [List.takeWhile_cons, hquery]
      rfl
    | true =>
      rw [findings_cons_of_onQuery hquery, ih]
      cases isSensitive link.name with
      | false => rfl
      | true =>
        cases check? src path link with
        | none => rfl
        | some d => rfl

/-- Scanning looks at the longest run of calls on queries. -/
theorem longestRun_onQuery (links : List Link) :
    LongestRun (fun link => link.target.receiver.name = "IQueryable") links
      (links.takeWhile onQuery) := by
  have hrun : LongestRun (onQuery · = true) links (links.takeWhile onQuery) :=
    longestRun_iff.2 rfl
  unfold onQuery at hrun ⊢
  simpa only [beq_iff_eq] using hrun

theorem isTable_iff {type : Option Ty} :
    isTable type = true ↔ type.map Ty.name = some "DbSet" := by
  cases type with
  | none => simp [isTable]
  | some type => simp [isTable]

theorem report_answering {type : Cursor → Option Ty} {method : Cursor → Option Method}
    {c : Cursor} (hends : c.endsChain = true) :
    report (.answering type method) src path c
      = .ok (if (type c.chain.source).map Ty.name = some "DbSet"
          then scan src path (answeredLinks src method c.chain.calls) else []) := by
  unfold report
  rw [query?_answering hends]
  show (if isTable (type c.chain.source) then _ else _) = _
  by_cases htable : isTable (type c.chain.source) = true
  · rw [if_pos htable, if_pos (isTable_iff.1 htable), scan_eq_findings c.chain.source]
    rfl
  · rw [if_neg htable, if_neg fun h => htable (isTable_iff.2 h)]
    rfl

/-- Whatever types and targets the services tell, for any node. There is
no query exactly if the node is no call through a dot or no tail, and
then nothing is reported. Else going down from the node one comes by some
calls to the source of the query; the walk gathers the query in as many
rounds; and the links of the query record, one by one, the longest run of
calls whose target is known. If the source is a `DbSet`, the report is
what scanning the links finds, and these are the checks of the calls to
sensitive operators in the longest run of links on queries; else it is
empty. -/
theorem longest_runs_reported (type : Cursor → Option Ty) (method : Cursor → Option Method)
    (src : Source) (path : String) (c : Cursor) :
    ((Services.answering type method).query? src c = .ok none ↔
        c.memberCall? = none ∨ c.isTail = false)
      ∧ (c.memberCall? = none ∨ c.isTail = false →
        report (.answering type method) src path c = .ok [])
      ∧ (c.memberCall? ≠ none → c.isTail = true →
        ∃ (query : Query) (calls known : List Call) (queried : List Link),
          (Services.answering type method).query? src c = .ok (some query)
            ∧ Descent c calls query.source
            ∧ Gathering.Ends src method ⟨c, []⟩ calls.length query
            ∧ LongestRun (fun call => (method call.site).isSome) calls known
            ∧ List.Forall₂ (Call.RecordedBy src method) known query.links
            ∧ report (.answering type method) src path c
              = .ok (if (type query.source).map Ty.name = some "DbSet"
                  then scan src path query.links else [])
            ∧ LongestRun (fun link => link.target.receiver.name = "IQueryable") query.links queried
            ∧ scan src path query.links
              = (queried.filter (isSensitive ·.name)).filterMap (check? src path)) := by
  rw [Services.query?_eq_ok_none_iff, ← Cursor.endsChain_eq_false_iff]
  refine ⟨Iff.rfl, report_of_not_endsChain, ?_⟩
  intro hcall htail
  have hends : c.endsChain = true := by
    rw [← Bool.not_eq_false, Cursor.endsChain_eq_false_iff, htail]
    simpa using hcall
  exact ⟨_, c.chain.calls, _, _, query?_answering hends, descent_iff.2 rfl,
    Gathering.ends_start c, longestRun_iff.2 rfl, forall₂_recordedBy c.chain.calls,
    report_answering hends, longestRun_onQuery _, scan_eq_findings c.chain.source _⟩

end IndexLambda

/-- A document with a chain of four calls, the first and the last with a
lambda that takes the index. -/
def Document.fourCalls : Document where
  path := "Q.cs"
  source := .ofText "class Q\x7bvoid m()\x7bd.Where((u,i)=>u).Take().M().Select((u,i)=>u);\x7d\x7d"
  tree :=
    named (.other "compilation_unit") none 0 65 [
      named .classDeclaration none 0 65 [
        named .identifier (some .name) 6 7 [],
        named (.other "declaration_list") (some .body) 7 65 [
          named .methodDeclaration none 8 64 [
            named .predefinedType (some .returns) 8 12 [],
            named .identifier (some .name) 13 14 [],
            named .parameterList (some .parameters) 14 16 [],
            named .block (some .body) 16 64 [
              named (.other "expression_statement") none 17 63 [
                let d := named .identifier (some .expression) 17 18 []
                let filtered := call (some .expression) d 19 24 34 [lambda 25]
                let taken := call (some .expression) filtered 35 39 41 []
                let unknown := call (some .expression) taken 42 43 45 []
                call none unknown 46 52 62 [lambda 53]]]]]]]
where
  named := sample.named
  call (field : Option Field) (receiver : Tree) (name list stop : Nat) (args : List Tree) : Tree :=
    named .invocation field 17 stop [
      named .memberAccess (some .function) 17 list [
        receiver,
        named .identifier (some .name) name list []],
      named (.other "argument_list") (some .arguments) list stop args]
  lambda (start : Nat) : Tree :=
    named .argument none start (start + 8) [
      named .lambda none start (start + 8) [
        named .parameterList (some .parameters) start (start + 5) [
          named .parameter none (start + 1) (start + 2) [
            named .identifier (some .name) (start + 1) (start + 2) []],
          named .parameter none (start + 3) (start + 4) [
            named .identifier (some .name) (start + 3) (start + 4) []]],
        named .identifier (some .body) (start + 7) (start + 8) []]]

/-- The tail of the chain. -/
def Document.fourCallsTail : Cursor :=
  Document.fourCalls.tree.tails.headD Document.fourCalls.tree.root

/-- Targets that are told call by call, as if each were made on a table.
So a call may be known behind one that is not. -/
def Document.fourCallsTarget (site : Cursor) : Option Method :=
  site.memberCall?.bind fun (_, name) =>
    Operator.bind? (.mk "DbSet" [.plain "U"]) (fourCalls.source.simpleName name.focus)
      site.lambdaArity?

/-- Of four calls the third is unknown: the first two are kept, and the
index in the first is reported. The one in the last is not, though its
target is known. -/
theorem kept_before_unknown_call :
    Document.fourCallsTail.memberCall? ≠ none ∧ Document.fourCallsTail.isTail = true
      ∧ ∃ (query : Query) (calls known : List Call),
        Descent Document.fourCallsTail calls query.source
          ∧ LongestRun (fun call => (Document.fourCallsTarget call.site).isSome) calls known
          ∧ calls.map (fun call => (Document.fourCallsTarget call.site).isSome)
            = [true, true, false, true]
          ∧ List.Forall₂ (Call.RecordedBy Document.fourCalls.source Document.fourCallsTarget) known
            query.links
          ∧ query.links.map Link.name = ["Where", "Take"]
          ∧ IndexLambda.report
              (.answering (fun _ => some (.mk "DbSet" [.plain "U"])) Document.fourCallsTarget)
              Document.fourCalls.source "Q.cs" Document.fourCallsTail
            = .ok [⟨IndexLambda.rule, ⟨"Q.cs", 0, 28⟩,
                ["using the second index parameter in Where"]⟩] := by
  have hends : Document.fourCallsTail.endsChain = true := by decide +kernel
  obtain ⟨hcall, htail⟩ := Bool.and_eq_true_iff.1 hends
  obtain ⟨-, -, hquery⟩ := IndexLambda.longest_runs_reported
    (fun _ => some (.mk "DbSet" [.plain "U"])) Document.fourCallsTarget
    Document.fourCalls.source "Q.cs" Document.fourCallsTail
  obtain ⟨query, calls, known, -, hok, hdown, -, hknown, hrecords, hreport, -, -⟩ :=
    hquery (Option.isSome_iff_ne_none.1 hcall) htail
  have hcalls : Document.fourCallsTail.chain.calls = calls := by rw [descent_iff.1 hdown]
  rw [query?_answering hends] at hok
  cases hok
  refine ⟨Option.isSome_iff_ne_none.1 hcall, htail, _, calls, known, hdown, hknown, ?_,
    hrecords, ?_, ?_⟩
  · rw [← hcalls]
    decide +kernel
  · decide +kernel
  · rw [hreport]
    decide +kernel

end QueryLint
