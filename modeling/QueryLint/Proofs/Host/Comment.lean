/-
Comments do not change the verdict. A host goes through all nodes, the
comments among them, but the rule has nothing to say at a comment, and at
any other node the answers that it builds on are the same without
comments: what the documents declare, the types of expressions, the
targets of calls and the chain that ends there. So stripping a
compilation of its remarks changes neither what is reported nor whether
the analysis breaks off (`analyze_strip`). A compilation that loses any
of its loose comments is, stripped, what it was before, and so it has
the same verdict too.
-/
import QueryLint.Proofs.Diagnostic.Sorting
import QueryLint.Proofs.Resolve.Comment
import QueryLint.Proofs.Rule.Mirror

namespace QueryLint

-- ============================================================ breaking off

/-- Questions with an empty answer may be left out. -/
theorem flatten_mapM_filter {ε α β : Type} {f g : α → Except ε (List β)} {keep : α → Bool}
    {xs : List α} (hsame : ∀ x ∈ xs, keep x = true → g x = f x)
    (hnone : ∀ x ∈ xs, keep x = false → f x = .ok []) :
    ((xs.filter keep).mapM g).map List.flatten = (xs.mapM f).map List.flatten := by
  induction xs with
  | nil => rfl
  | cons x xs ih =>
    have hrest := ih (fun y hy => hsame y (List.mem_cons_of_mem x hy))
      (fun y hy => hnone y (List.mem_cons_of_mem x hy))
    rw [List.filter_cons, flatten_mapM_cons]
    cases hx : keep x with
    | true => rw [if_pos rfl, flatten_mapM_cons, hrest, hsame x List.mem_cons_self hx]
    | false =>
      rw [if_neg Bool.false_ne_true, hrest, hnone x List.mem_cons_self hx]
      cases xs.mapM f with
      | error e => rfl
      | ok zs => rfl

-- ================================================================= reports

namespace IndexLambda

theorem indexParameter?_strip (site : Cursor) :
    indexParameter? site.strip = (indexParameter? site).map Cursor.strip := by
  unfold indexParameter?
  rw [Cursor.arguments_strip]
  cases site.arguments with
  | nil => rfl
  | cons first rest =>
    simp only [List.map_cons, Cursor.lambdaParameters?_strip]
    match first.lambdaParameters? with
    | none => rfl
    | some [] => rfl
    | some [_] => rfl
    | some (_ :: _ :: _) => rfl

/-- Without comments a chain is what it was. -/
theorem mirrored_strip (m : Model) {c : Cursor} (h : c.isRemark = false) :
    Mirrored m Cursor.strip c where
  endsChain := Cursor.endsChain_strip h
  source := by rw [Cursor.chain_strip]; rfl
  calls := by rw [Cursor.chain_strip]; rfl
  type := Model.resolve_strip (Cursor.not_isRemark_source h)
  target := fun _ hcall => Model.resolveMethod_strip (Cursor.not_isRemark_of_mem_calls hcall)
  name := fun call _ => m.source.simpleName_strip call.name.focus
  index := by
    intro call _
    unfold SameIndex
    rw [indexParameter?_strip, Option.map_map]
    exact Option.map_congr fun parameter _ => parameter.start_strip

end IndexLambda

namespace Host

/-- At a node that stays, the same is reported. -/
theorem reportAt_strip (index : Index) (doc : Document) {c : Cursor} (h : c.isRemark = false) :
    default.reportAt (Model.mk index doc.source).services doc.strip c.strip
      = default.reportAt (Model.mk index doc.source).services doc c := by
  have hreport := (IndexLambda.mirrored_strip (Model.mk index doc.source) h).report doc.path
  rw [reportAt_default, reportAt_default, Cursor.kind_strip]
  show (if _ then IndexLambda.report _ doc.source doc.path c.strip else _) = _
  rw [hreport]

/-- At one that goes, there is nothing to report. -/
theorem reportAt_of_isRemark (services : Services) (doc : Document) {c : Cursor}
    (h : c.isRemark = true) : default.reportAt services doc c = .ok [] := by
  have hkind : c.kind = .comment := Label.kind_of_isRemark (Cursor.label_of_isRemark h)
  rw [reportAt_default, hkind]
  rfl

theorem reportIn_strip (index : Index) (doc : Document) :
    default.reportIn index doc.strip = default.reportIn index doc := by
  rw [reportIn_eq_map, reportIn_eq_map]
  show (doc.tree.strip.visit.mapM
    (default.reportAt (Model.mk index doc.source).services doc.strip)).map _ = _
  rw [Tree.visit_strip, List.mapM_map]
  refine flatten_mapM_filter ?_ ?_
  · intro c _ hkept
    exact reportAt_strip index doc (by simpa using hkept)
  · intro c _ hgone
    exact reportAt_of_isRemark _ doc (by simpa using hgone)

end Host

namespace Compilation

def strip (comp : Compilation) : Compilation := ⟨comp.documents.map Document.strip⟩

theorem index_strip (comp : Compilation) : comp.strip.index = comp.index := by
  unfold index Index.ofDocuments strip
  rw [List.flatMap_map]
  simp only [Document.declarations_strip]

end Compilation

/-- Remarks change neither the diagnostics nor whether there are any. -/
theorem Host.analyze_strip (comp : Compilation) :
    default.analyze comp.strip = default.analyze comp := by
  have hreports : default.reportIn comp.index ∘ Document.strip = default.reportIn comp.index := by
    funext doc
    exact reportIn_strip comp.index doc
  unfold analyze
  rw [comp.index_strip]
  show ((comp.documents.map Document.strip).mapM (default.reportIn comp.index) >>= _) = _
  rw [List.mapM_map, hreports]

-- ================================================================ deleting

def Document.erase (doc : Document) (gone : Cursor → Bool) : Document :=
  { doc with tree := doc.tree.erase gone }

/-- The compilation without some nodes: `gone i` says which are taken out
of the document at place `i`. -/
def Compilation.erase (comp : Compilation) (gone : Nat → Cursor → Bool) : Compilation :=
  ⟨comp.documents.mapIdx fun i doc => doc.erase (gone i)⟩

theorem Compilation.strip_erase (comp : Compilation) {gone : Nat → Cursor → Bool}
    (hgone : ∀ i c, gone i c = true → c.isLooseComment = true) :
    (comp.erase gone).strip = comp.strip := by
  have hdocument : ∀ i (doc : Document), (doc.erase (gone i)).strip = doc.strip := by
    intro i doc
    show { doc with tree := (doc.tree.erase (gone i)).strip } = doc.strip
    rw [Tree.strip_erase (hgone i)]
    rfl
  unfold strip erase
  refine congrArg Compilation.mk (List.ext_getElem? fun i => ?_)
  rw [List.getElem?_map, List.getElem?_map, List.getElem?_mapIdx, Option.map_map]
  exact Option.map_congr fun doc _ => hdocument i doc

/-- Deleting any loose comments from the trees of a compilation, and
leaving the sources and all other nodes as they are, does not change what
the default host makes of it: the diagnostics are the same, or the
analysis breaks off in the same way. -/
theorem diagnostics_independent_of_comments (comp : Compilation) (gone : Nat → Cursor → Bool)
    (hgone : ∀ i c, gone i c = true → c.isLooseComment = true) :
    (∀ i (t : Tree), (t.erase (gone i)).documentOrder.map Cursor.label
        = (t.documentOrder.filter (!gone i ·)).map Cursor.label)
      ∧ Host.default.analyze (comp.erase gone) = Host.default.analyze comp := by
  constructor
  · intro i t
    exact Tree.labels_erase (hgone i) t
  · rw [← Host.analyze_strip (comp.erase gone), comp.strip_erase hgone, Host.analyze_strip]

/-- A document with a finding, and with comments in a type argument list,
behind an equals sign, in parentheses, before a dot and between the
parameters of a lambda. -/
def Document.commented : Document where
  path := "E.cs"
  source := .ofText ("class E\x7bDbSet</*a*/U>t;void m()\x7bvar s=/*b*/t;" ++
    "(/*c*/s)/*d*/.Where((u,/*e*/i)=>u);\x7d\x7d")
  tree :=
    named (.other "compilation_unit") none 0 82 [
      named .classDeclaration none 0 82 [
        named .identifier (some .name) 6 7 [],
        named (.other "declaration_list") (some .body) 7 82 [
          named .fieldDeclaration none 8 23 [
            named .variableDeclaration none 8 22 [
              named .genericName (some .type) 8 21 [
                named .identifier none 8 13 [],
                named .typeArgumentList none 13 21 [
                  named .comment none 14 19 [],
                  named .identifier none 19 20 []]],
              named .variableDeclarator none 21 22 [
                named .identifier (some .name) 21 22 []]]],
          named .methodDeclaration none 23 81 [
            named .predefinedType (some .returns) 23 27 [],
            named .identifier (some .name) 28 29 [],
            named .parameterList (some .parameters) 29 31 [],
            named .block (some .body) 31 81 [
              named .localDeclaration none 32 45 [
                named .variableDeclaration none 32 44 [
                  named .implicitType (some .type) 32 35 [],
                  named .variableDeclarator none 36 44 [
                    named .identifier (some .name) 36 37 [],
                    .node ⟨.equalsSign, false, none, 37, 38⟩ [],
                    named .comment none 38 43 [],
                    named .identifier none 43 44 []]]],
              named (.other "expression_statement") none 45 80 [
                named .invocation none 45 79 [
                  named .memberAccess (some .function) 45 64 [
                    named .parenthesized (some .expression) 45 53 [
                      named .comment none 46 51 [],
                      named .identifier none 51 52 []],
                    named .comment none 53 58 [],
                    named .identifier (some .name) 59 64 []],
                  named (.other "argument_list") (some .arguments) 64 79 [
                    named .argument none 65 78 [
                      named .lambda none 65 78 [
                        named .parameterList (some .parameters) 65 75 [
                          named .parameter none 66 67 [
                            named .identifier (some .name) 66 67 []],
                          named .comment none 68 73 [],
                          named .parameter none 73 74 [
                            named .identifier (some .name) 73 74 []]],
                        named .identifier (some .body) 77 78 []]]]]]]]]]]
where
  named := sample.named

/-- Its five comments can all go, and the finding stays. -/
theorem sample_comments_deleted :
    (Document.commented.tree.erase Cursor.isLooseComment).size + 5
        = Document.commented.tree.size
      ∧ ∃ ds : List Diagnostic, ds.length = 1
        ∧ Host.default.analyze ⟨[.commented]⟩ = .ok ds
        ∧ Host.default.analyze (Compilation.erase ⟨[.commented]⟩ fun _ => Cursor.isLooseComment)
          = .ok ds := by
  let comp : Compilation := ⟨[.commented]⟩
  have hok : (Host.default.reportIn comp.index .commented).isOk = true := by decide +kernel
  have hlength : (comp.documents.flatMap (Host.default.found comp.index)).length = 1 := by
    decide +kernel
  have hanalyze : Host.default.analyze comp
      = .ok (Diagnostic.sort (comp.documents.flatMap (Host.default.found comp.index))) := by
    refine Host.analyze_eq_ok_iff_found.2 ⟨?_, rfl⟩
    intro doc hdoc
    rw [List.mem_singleton.1 hdoc]
    exact Host.reportIn_eq_ok_found hok
  have herased := (diagnostics_independent_of_comments comp (fun _ => Cursor.isLooseComment)
    fun _ _ h => h).2
  exact ⟨by decide +kernel, _, (Diagnostic.sort_perm _).length_eq.trans hlength, hanalyze,
    herased.trans hanalyze⟩

end QueryLint
