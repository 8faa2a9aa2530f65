/-
Parentheses do not change the verdict. Putting parentheses around objects
of member accesses, values of variables and collections of loops leaves
what the documents declare, the types of expressions and the chains of
calls as they were, and at the new nodes there is nothing to report. So
the default host finds the same, or breaks off in the same way
(`analyze_parenthesize`), however often this is repeated.

Parentheses around an entry of a list would take it out of the list. The
parser gives no tree with an operand in such a place
(`Tree.OperandsApart`), and as that stays so, any operand can be put in
parentheses, any number of times
(`diagnostics_independent_of_parentheses`).
-/
import QueryLint.Proofs.Diagnostic.Sorting
import QueryLint.Proofs.Resolve.Parentheses
import QueryLint.Proofs.Rule.Mirror

namespace QueryLint

open Relation (ReflTransGen)

-- ================================================================= reports

namespace IndexLambda

theorem indexParameter?_moved (s : Insertion) {site : Cursor} (h : site.kind = .invocation) :
    indexParameter? (site.moved s.here) = (indexParameter? site).map (Cursor.moved s.here) := by
  unfold indexParameter?
  rw [s.arguments_moved h]
  cases site.arguments with
  | nil => rfl
  | cons first rest =>
    simp only [List.map_cons, s.lambdaParameters?_moved]
    match first.lambdaParameters? with
    | none => rfl
    | some [] => rfl
    | some [_] => rfl
    | some (_ :: _ :: _) => rfl

/-- The chain that ends at a moved node is what it was. -/
theorem mirrored_moved (m : Model) (s : Insertion) (c : Cursor) :
    Mirrored m (Cursor.moved s.here) c := by
  have hkind : ∀ call ∈ c.chain.calls, call.site.kind = .invocation := by
    intro call hcall
    have hsite : call.site ∈ c.chain.sites := List.mem_map_of_mem hcall
    exact Cursor.kind_of_memberCall? (Cursor.mem_sites_iff.1 hsite).2
  exact
    { endsChain := s.endsChain_moved c
      source := by rw [s.chain_moved]; rfl
      calls := by rw [s.chain_moved]; rfl
      type := m.resolve_moved s c.chain.source
      target := fun call hcall => m.resolveMethod_moved s (hkind call hcall)
      name := fun call _ => s.simpleName_moved m.source call.name
      index := by
        intro call hcall
        unfold SameIndex
        rw [indexParameter?_moved s (hkind call hcall), Option.map_map]
        exact Option.map_congr fun parameter _ => parameter.start_moved }

end IndexLambda

namespace Host

theorem reportAt_moved (index : Index) (doc : Document) (s : Insertion) (c : Cursor) :
    default.reportAt (Model.mk index doc.source).services (doc.parenthesize s.here)
        (c.moved s.here)
      = default.reportAt (Model.mk index doc.source).services doc c := by
  have hreport := (IndexLambda.mirrored_moved (Model.mk index doc.source) s c).report doc.path
  rw [reportAt_default, reportAt_default, Cursor.kind_moved]
  show (if _ then IndexLambda.report _ doc.source doc.path (c.moved s.here) else _) = _
  rw [hreport]

/-- Parentheses have nothing reported. -/
theorem reportAt_of_parenthesized (services : Services) (doc : Document) {c : Cursor}
    (h : c.kind = .parenthesized) : default.reportAt services doc c = .ok [] := by
  rw [reportAt_default, h]
  rfl

theorem reportIn_parenthesize (index : Index) (doc : Document) (s : Insertion) :
    default.reportIn index (doc.parenthesize s.here) = default.reportIn index doc := by
  rw [reportIn_eq_map, reportIn_eq_map]
  show ((doc.tree.parenthesize s.here).visit.mapM
    (default.reportAt (Model.mk index doc.source).services (doc.parenthesize s.here))).map _ = _
  rw [Tree.visit_parenthesize]
  refine flatten_mapM_flatMap fun c _ => ?_
  have hmoved := reportAt_moved index doc s c
  unfold Cursor.images
  split
  · next h =>
    rw [flatten_mapM_cons, flatten_mapM_singleton, hmoved,
      reportAt_of_parenthesized _ _ (Cursor.kind_wrapped_of_here h)]
    cases default.reportAt (Model.mk index doc.source).services doc c with
    | error e => rfl
    | ok ds => rfl
  · rw [flatten_mapM_singleton, hmoved]

end Host

-- =============================================================== inserting

namespace Compilation

/-- The compilation with some nodes in parentheses: `here i` says which in
the document at place `i`. -/
def parenthesize (comp : Compilation) (here : Nat → Cursor → Bool) : Compilation :=
  ⟨comp.documents.mapIdx fun i doc => doc.parenthesize (here i)⟩

theorem map_parenthesize {α : Type} {f : Document → α} {here : Nat → Cursor → Bool}
    (h : ∀ i doc, f (doc.parenthesize (here i)) = f doc) (comp : Compilation) :
    (comp.parenthesize here).documents.map f = comp.documents.map f := by
  refine List.ext_getElem? fun i => ?_
  unfold parenthesize
  rw [List.getElem?_map, List.getElem?_map, List.getElem?_mapIdx, Option.map_map]
  exact Option.map_congr fun doc _ => h i doc

theorem index_parenthesize (comp : Compilation) (s : Nat → Insertion) :
    (comp.parenthesize fun i => (s i).here).index = comp.index := by
  unfold index Index.ofDocuments
  rw [List.flatMap_def, List.flatMap_def,
    comp.map_parenthesize fun i doc => doc.declarations_parenthesize (s i)]

/-- One compilation comes from another by putting operands in parentheses. -/
def Parenthesized (comp comp' : Compilation) : Prop :=
  ∃ here : Nat → Cursor → Bool,
    (∀ i c, here i c = true → c.label.counts = true ∧ c.IsOperand)
      ∧ comp' = comp.parenthesize here

/-- In these trees, putting operands in parentheses is an insertion, and
leaves such trees. -/
theorem Parenthesized.exists_insertion {comp comp' : Compilation}
    (hapart : ∀ doc ∈ comp.documents, doc.tree.OperandsApart) (h : comp.Parenthesized comp') :
    ∃ s : Nat → Insertion, comp' = (comp.parenthesize fun i => (s i).here)
      ∧ ∀ doc ∈ comp'.documents, doc.tree.OperandsApart := by
  obtain ⟨here, hoperands, rfl⟩ := h
  let s : Nat → Insertion := fun i => .ofOperands (here i) (hoperands i)
  have hsame : comp.parenthesize here = comp.parenthesize fun i => (s i).here := by
    unfold parenthesize
    refine congrArg Compilation.mk (List.mapIdx_eq_mapIdx_iff.2 fun i hi => ?_)
    exact congrArg (Document.mk _ _)
      (Insertion.parenthesize_ofOperands (hapart _ (List.getElem_mem hi)) (hoperands i)).symm
  refine ⟨s, hsame, ?_⟩
  rw [hsame]
  intro doc' hdoc'
  obtain ⟨i, hi, rfl⟩ := List.mem_mapIdx.1 hdoc'
  exact (s i).operandsApart_parenthesize (hapart _ (List.getElem_mem hi))

end Compilation

/-- Parentheses change neither the diagnostics nor whether there are any. -/
theorem Host.analyze_parenthesize (comp : Compilation) (s : Nat → Insertion) :
    default.analyze (comp.parenthesize fun i => (s i).here) = default.analyze comp := by
  have hreports := comp.map_parenthesize (f := default.reportIn comp.index)
    fun i doc => reportIn_parenthesize comp.index doc (s i)
  unfold analyze
  rw [comp.index_parenthesize]
  have hmapM : ∀ docs : List Document, docs.mapM (default.reportIn comp.index)
      = (docs.map (default.reportIn comp.index)).mapM id := by
    intro docs
    rw [List.mapM_map]
    rfl
  rw [hmapM, hmapM, hreports]

/-- Putting parentheses, any number of times, around objects of member
accesses, values of variables and collections of loops adds these nodes
and changes no other; and where the trees of a compilation are as the
parser gives them, it does not change what the default host makes of it:
the diagnostics are the same, or the analysis breaks off in the same
way. -/
theorem diagnostics_independent_of_parentheses (comp comp' : Compilation)
    (hapart : ∀ doc ∈ comp.documents, doc.tree.OperandsApart)
    (h : ReflTransGen Compilation.Parenthesized comp comp') :
    (∀ (t : Tree) (here : Cursor → Bool), (t.parenthesize here).documentOrder.map Cursor.label
        = t.documentOrder.flatMap fun c =>
            if here c then [c.label.parens, c.label.bare] else [c.label])
      ∧ Host.default.analyze comp' = Host.default.analyze comp := by
  refine ⟨Tree.labels_parenthesize, ?_⟩
  have hrun : (∀ doc ∈ comp'.documents, doc.tree.OperandsApart)
      ∧ Host.default.analyze comp' = Host.default.analyze comp := by
    induction h with
    | refl => exact ⟨hapart, rfl⟩
    | tail _ hstep ih =>
      obtain ⟨s, rfl, hkept⟩ := hstep.exists_insertion ih.1
      exact ⟨hkept, (Host.analyze_parenthesize _ s).trans ih.2⟩
  exact hrun.2

/-- Whether a node is what a member is accessed on. -/
def Cursor.isObject (c : Cursor) : Bool :=
  c.label.counts && c.fills .expression && c.parent?.any (·.kind == .memberAccess)

theorem Cursor.operand_of_isObject {c : Cursor} (h : c.isObject = true) :
    c.label.counts = true ∧ c.IsOperand := by
  unfold isObject at h
  simp only [Bool.and_eq_true, Option.any_eq_true] at h
  obtain ⟨⟨hcounts, hfills⟩, access, hparent, hkind⟩ := h
  exact ⟨hcounts, .object (beq_iff_eq.1 hkind) (child?_eq_some_iff.2 ⟨hparent, hfills⟩)⟩

/-- Both receivers of the sample can be put in parentheses, and then in
parentheses again, and the finding stays. -/
theorem sample_receivers_in_parentheses :
    ∃ (once twice : Compilation) (ds : List Diagnostic),
      once = Compilation.parenthesize ⟨[.sample]⟩ (fun _ => Cursor.isObject)
        ∧ twice = once.parenthesize (fun _ => Cursor.isObject)
        ∧ twice.documents.map (·.tree.size) = [Document.sample.tree.size + 4]
        ∧ Document.sample.tree.OperandsApart
        ∧ Host.default.analyze ⟨[.sample]⟩ = .ok ds ∧ ds.length = 1
        ∧ Host.default.analyze twice = .ok ds := by
  let once : Compilation := Compilation.parenthesize ⟨[.sample]⟩ fun _ => Cursor.isObject
  let twice : Compilation := once.parenthesize fun _ => Cursor.isObject
  let d : Diagnostic :=
    ⟨IndexLambda.rule, ⟨"C.cs", 0, 47⟩, ["using the second index parameter in Where"]⟩
  have hds : Host.default.analyze ⟨[Document.sample]⟩ = .ok [d] := by decide +kernel
  have hsize : twice.documents.map (·.tree.size) = [Document.sample.tree.size + 4] := by
    decide +kernel
  have hapart : Document.sample.tree.OperandsApart :=
    Tree.operandsApart_of_kinds (by decide +kernel)
  have hsteps : ReflTransGen Compilation.Parenthesized ⟨[Document.sample]⟩ twice :=
    .tail (.single ⟨_, fun _ _ => Cursor.operand_of_isObject, rfl⟩)
      ⟨_, fun _ _ => Cursor.operand_of_isObject, rfl⟩
  have hsame := (diagnostics_independent_of_parentheses ⟨[.sample]⟩ twice
    (List.forall_mem_singleton.2 hapart) hsteps).2
  exact ⟨once, twice, [d], rfl, rfl, hsize, hapart, hds, rfl, hsame.trans hds⟩

end QueryLint
