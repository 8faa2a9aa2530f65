/-
A host at work. Actions are registered in a table by the kind of node
that they are for, each behind those that are there (`register`). A
document is gone through with a stack, and on each node the actions for
its kind are run, one after the other; what they report goes behind what
has been reported, and a report under a rule that nobody declares breaks
the analysis off at once (`visitNode`). The documents come one after the
other.

All this ends with what the host is said to find. It is the same step on
each level: what is done next adds to what there is, or breaks off
(`foldlM_append`). From a report it goes up to an action, a node
(`visitNode_eq`), a document (`ends_reportIn_iff`) and a compilation
(`analyze_eq_foldlM`).
-/
import Mathlib.Logic.Function.Basic
import QueryLint.Proofs.Host.Analysis
import QueryLint.Proofs.Tree.Traversal
import QueryLint.Stack

namespace QueryLint

/-- Where each step adds to what there is, all of them together add what
each of them would add to nothing. -/
theorem foldlM_append {ε α β : Type} {step : List β → α → Except ε (List β)}
    {f : α → Except ε (List β)} (h : ∀ found x, step found x = (f x).map (found ++ ·))
    (found : List β) (xs : List α) :
    xs.foldlM step found = ((xs.mapM f).map List.flatten).map (found ++ ·) := by
  induction xs generalizing found with
  | nil => exact congrArg Except.ok (List.append_nil found).symm
  | cons x xs ih =>
    rw [List.foldlM_cons, h, flatten_mapM_cons]
    cases f x with
    | error e => rfl
    | ok ys =>
      show xs.foldlM step (found ++ ys) = _
      rw [ih]
      show _ = (((xs.mapM f).map List.flatten).map (ys ++ ·)).map (found ++ ·)
      cases (xs.mapM f).map List.flatten with
      | error e => rfl
      | ok zs => exact congrArg Except.ok (List.append_assoc found ys zs)

namespace Host

-- ============================================================== registering

/-- An action is registered: it goes behind those for its kind. -/
def register (table : Kind → Option (List Registration)) (r : Registration) :
    Kind → Option (List Registration) :=
  Function.update table r.kind (some ((table r.kind).getD [] ++ [r]))

/-- An action more is one for its kind and for no other. -/
theorem getD_register (table : Kind → Option (List Registration)) (r : Registration)
    (kind : Kind) :
    (register table r kind).getD [] = (table kind).getD [] ++ [r].filter (·.kind == kind) := by
  unfold register
  by_cases hkind : r.kind = kind
  · subst hkind
    simp
  · rw [Function.update_of_ne (Ne.symm hkind)]
    simp [hkind]

theorem getD_foldl_register (rs : List Registration)
    (table : Kind → Option (List Registration)) (kind : Kind) :
    (rs.foldl register table kind).getD []
      = (table kind).getD [] ++ rs.filter (·.kind == kind) := by
  induction rs generalizing table with
  | nil => rw [List.filter_nil, List.append_nil]; rfl
  | cons r rs ih =>
    rw [List.foldl_cons, ih, getD_register, List.append_assoc, ← List.filter_append,
      List.singleton_append]

variable (host : Host)

/-- The table when all actions have been registered. -/
def table : Kind → Option (List Registration) := host.registrations.foldl register fun _ => none

theorem getD_table (kind : Kind) : (host.table kind).getD [] = host.actions kind :=
  getD_foldl_register host.registrations _ kind

-- ================================================================= reporting

/-- A diagnostic is reported. -/
def report (found : List Diagnostic) (d : Diagnostic) : Except AnalysisError (List Diagnostic) :=
  if host.supported.contains d.rule.id then .ok (found ++ [d])
  else .error (.undeclaredDiagnostic d.rule.id)

/-- Reports are let through up to the first that is not. -/
theorem foldlM_report (found ds : List Diagnostic) :
    ds.foldlM host.report found = (host.accept ds).map (found ++ ·) := by
  induction ds generalizing found with
  | nil => exact congrArg Except.ok (List.append_nil found).symm
  | cons d ds ih =>
    rw [List.foldlM_cons, report]
    unfold accept at ih ⊢
    rw [List.find?_cons]
    cases hd : host.supported.contains d.rule.id with
    | false => rfl
    | true =>
      show ds.foldlM host.report (found ++ [d]) = _
      rw [ih, Bool.not_true]
      cases ds.find? (!host.supported.contains ·.rule.id) with
      | some refused => rfl
      | none => exact congrArg Except.ok (List.append_assoc found [d] ds)

/-- One action is run on a node. -/
def runAction (services : Services) (doc : Document) (c : Cursor) (found : List Diagnostic)
    (r : Registration) : Except AnalysisError (List Diagnostic) := do
  let ds ← r.report services doc c
  ds.foldlM host.report found

/-- A node is come by: the actions for its kind are run on it. -/
def visitNode (services : Services) (doc : Document) (found : List Diagnostic) (c : Cursor) :
    Except AnalysisError (List Diagnostic) :=
  ((host.table c.kind).getD []).foldlM (host.runAction services doc c) found

theorem runAction_eq (services : Services) (doc : Document) (c : Cursor)
    (found : List Diagnostic) (r : Registration) :
    host.runAction services doc c found r
      = (host.run services doc c r).map (found ++ ·) := by
  unfold runAction run
  cases r.report services doc c with
  | error e => rfl
  | ok ds => exact host.foldlM_report found ds

/-- At a node is added what is reported there. -/
theorem visitNode_eq (services : Services) (doc : Document) (found : List Diagnostic)
    (c : Cursor) :
    host.visitNode services doc found c
      = (host.reportAt services doc c).map (found ++ ·) := by
  rw [visitNode, getD_table, foldlM_append (host.runAction_eq services doc c),
    reportAt_eq_map]

-- ================================================================= documents

/-- From the root with nothing reported, the traversal ends with all
that is reported at the nodes. -/
theorem ends_visitNode_iff (services : Services) (doc : Document)
    (result : Except AnalysisError (List Diagnostic)) :
    (∃ n, Traversal.Ends (host.visitNode services doc) ⟨[doc.tree.root], []⟩ n result)
      ↔ result = (doc.tree.visit.mapM (host.reportAt services doc)).map List.flatten := by
  have hnothing : ∀ found : Except AnalysisError (List Diagnostic), found.map ([] ++ ·) = found :=
    fun found => by cases found <;> rfl
  rw [Traversal.ends_root_iff, foldlM_append (host.visitNode_eq services doc), hnothing]

/-- The traversal ends with what is reported in the document. -/
theorem ends_reportIn_iff (index : Index) (doc : Document)
    (result : Except AnalysisError (List Diagnostic)) :
    (∃ n, Traversal.Ends (host.visitNode (Model.mk index doc.source).services doc)
        ⟨[doc.tree.root], []⟩ n result) ↔ result = host.reportIn index doc := by
  rw [ends_visitNode_iff, reportIn_eq_map]

/-- With little room to resolve types in, it is the same. -/
theorem ends_reportInOn_iff (room : Nat) (index : Index) (doc : Document)
    (result : Except AnalysisError (List Diagnostic)) :
    (∃ n, Traversal.Ends (host.visitNode ((Model.mk index doc.source).servicesOn room) doc)
        ⟨[doc.tree.root], []⟩ n result) ↔ result = host.reportInOn room index doc := by
  rw [ends_visitNode_iff]
  show result = _ ↔ result = (doc.tree.visit.mapM
    (host.reportAt ((Model.mk index doc.source).servicesOn room) doc) >>= _)
  cases doc.tree.visit.mapM
    (host.reportAt ((Model.mk index doc.source).servicesOn room) doc) with
  | error e => rfl
  | ok found => rfl

/-- The analysis collects what is reported in one document after the
other, and sorts it. -/
theorem analyze_eq_foldlM (comp : Compilation) :
    host.analyze comp
      = (comp.documents.foldlM (fun found doc =>
          (host.reportIn comp.index doc).map (found ++ ·)) []).map Diagnostic.sort := by
  rw [foldlM_append (fun _ _ => rfl), analyze_eq_map]
  cases (comp.documents.mapM (host.reportIn comp.index)).map List.flatten with
  | error e => rfl
  | ok ds => rfl

end Host

end QueryLint
