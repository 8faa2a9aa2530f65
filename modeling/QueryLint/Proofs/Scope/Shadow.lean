/-
Locals hide what is around them. The innermost scope that declares a name
ends the search for what the name means, and nothing of the scopes
further out, the members of the type among them, is ever asked for. A
parameter says what type is written, be it none, and a variable does so
if one is; so their types are those of the source, whatever the index
has under the same name.

A parameter without a type is found all the same, and what is found is
that its type is unknown. A chain of calls on it has then a source of no
type, and nothing is reported of it.
-/
import QueryLint.Proofs.Host.Analysis
import QueryLint.Proofs.Chain.Typing
import QueryLint.Proofs.Scope.Declared
import QueryLint.Proofs.Scope.Visible

namespace QueryLint

/-- The use that an identifier makes of its name. -/
def Source.use (src : Source) (u : Cursor) : Use := ⟨src.text u.focus, u.start⟩

/-- The declaration of an identifier's name in the nearest scope that has
one, below the type around it; of several in that scope, the first. -/
structure Nearest (src : Source) (u scope node : Cursor) (type : Option Cursor) : Prop where
  declares : Declares src (src.use u) scope node type
  first : ∀ node' type', Declares src (src.use u) scope node' type' → node.index ≤ node'.index
  innermost : ∃ inner outer, u.ancestors = inner ++ scope :: outer
    ∧ ∀ a ∈ inner, a.kind.declaresType = false
      ∧ ∀ node' type', ¬ Declares src (src.use u) a node' type'

-- =============================================================== resolution

namespace Model

variable {m : Model} {u scope node : Cursor} {type : Option Cursor}

/-- The nearest declaration ends the search for a meaning. -/
theorem meaning?_of_nearest (h : Nearest m.source u scope node type)
    (hwritten : scope.kind.declaresParameters = true
      ∨ (m.source.written? type).isSome = true) :
    m.meaning? u = some (.typed (m.source.written? type)) := by
  obtain ⟨inner, outer, hancestors, hinner⟩ := h.innermost
  have hnone : inner.findSome? (m.binding? · (m.source.use u)) = none := by
    refine List.findSome?_eq_none_iff.2 fun a ha => ?_
    obtain ⟨htype, hundeclared⟩ := hinner a ha
    rw [binding?_eq_said htype, declarations_eq_nil_iff.2 hundeclared]
    rfl
  have hfound : m.binding? scope (m.source.use u) = some (.typed (m.source.written? type)) := by
    rw [binding?_eq_said h.declares.not_declaresType,
      head?_declarations_eq_some_iff.2 ⟨h.declares, h.first⟩, Option.map_some,
      said_eq_typed hwritten]
  show u.ancestors.findSome? (m.binding? · (m.source.use u)) = _
  rw [hancestors, List.findSome?_append, hnone, Option.none_or, List.findSome?_cons, hfound]

theorem resolve_of_nearest (hu : u.kind = .identifier) (h : Nearest m.source u scope node type)
    (hwritten : scope.kind.declaresParameters = true
      ∨ (m.source.written? type).isSome = true) :
    m.resolve u = .ok (m.source.written? type) := by
  apply resolve_of_done
  have hunwrap : u.unwrap = u := by
    apply Cursor.unwrap_of_kind_ne
    rw [hu]
    decide
  unfold step ofExpression
  rw [hunwrap, hu, meaning?_of_nearest h hwritten]
  rfl

end Model

/-- The nearest declaration can be searched for. -/
theorem Nearest.of_find? {m : Model} {u scope node : Cursor} {type : Option Cursor}
    (hscope : u.ancestors.find? (fun a =>
        a.kind.declaresType || !(m.declarations a (m.source.use u)).isEmpty) = some scope)
    (hhead : (m.declarations scope (m.source.use u)).head? = some (node, type)) :
    Nearest m.source u scope node type := by
  obtain ⟨hdeclares, hfirst⟩ := Model.head?_declarations_eq_some_iff.1 hhead
  obtain ⟨-, inner, outer, hancestors, hinner⟩ := List.find?_eq_some_iff_append.1 hscope
  refine ⟨hdeclares, hfirst, inner, outer, hancestors, ?_⟩
  intro a ha
  have hfails := hinner a ha
  simp only [Bool.not_or, Bool.and_eq_true, Bool.not_eq_true', Bool.not_not,
    List.isEmpty_iff] at hfails
  exact ⟨hfails.1, Model.declarations_eq_nil_iff.1 hfails.2⟩

-- ================================================================== reports

/-- Nothing is reported of a chain whose source is of no known type. -/
theorem Host.reportAt_default_of_untyped {index : Index} {doc : Document} {c : Cursor}
    (h : (Model.mk index doc.source).resolve c.chain.source = .ok none) :
    default.reportAt (Model.mk index doc.source).services doc c = .ok [] := by
  cases hends : c.endsChain with
  | false => exact reportAt_default_of_not_endsChain _ doc hends
  | true =>
    obtain ⟨-, links, hlinks, -⟩ :=
      Services.query?_eq_ok_some_iff.1 (Model.query?_eq_knownLinks h hends)
    rw [reportAt_default_of_endsChain _ doc hends]
    exact (IndexLambda.report_eq_ok_iff hends).2 ⟨links, none, hlinks, h, rfl⟩

/-- Whatever the index: where the nearest declaration of a name, below the
type around it, is a parameter or a variable with a type written, the
name has the type that is written there, be it none. Where it is none,
nothing is reported of the chains that start from the name. -/
theorem locals_hide_members_and_outer_scopes (doc : Document) (u scope node : Cursor)
    (type : Option Cursor) (hu : u.kind = .identifier)
    (hnearest : Nearest doc.source u scope node type)
    (hwritten : scope.kind.declaresParameters = true
      ∨ (doc.source.written? type).isSome = true) :
    (∀ index index' : Index,
        (Model.mk index doc.source).resolve u = (Model.mk index' doc.source).resolve u
          ∧ (Model.mk index doc.source).resolve u = .ok (doc.source.written? type))
      ∧ (doc.source.written? type = none → ∀ (index : Index) (c : Cursor), c.chain.source = u →
          Host.default.reportAt (Model.mk index doc.source).services doc c = .ok []) := by
  have hresolve : ∀ index : Index,
      (Model.mk index doc.source).resolve u = .ok (doc.source.written? type) :=
    fun index => Model.resolve_of_nearest (m := ⟨index, doc.source⟩) hu hnearest hwritten
  refine ⟨fun index index' => ⟨(hresolve index).trans (hresolve index').symm, hresolve index⟩, ?_⟩
  intro hnone index c hsource
  apply Host.reportAt_default_of_untyped
  rw [hsource, hresolve index, hnone]

/-- A document with a table as a member of a class, and with a lambda
whose parameter has the name of the table. -/
def Document.hiddenTable : Document where
  path := "E.cs"
  source := .ofText "class E\x7bDbSet<U>x;void m()\x7bf(x=>x.Where((u,i)=>u));\x7d\x7d"
  tree :=
    named (.other "compilation_unit") none 0 53 [
      named .classDeclaration none 0 53 [
        named .identifier (some .name) 6 7 [],
        named (.other "declaration_list") (some .body) 7 53 [
          named .fieldDeclaration none 8 18 [
            named .variableDeclaration none 8 17 [
              named .genericName (some .type) 8 16 [
                named .identifier none 8 13 [],
                named .typeArgumentList none 13 16 [
                  named .identifier none 14 15 []]],
              named .variableDeclarator none 16 17 [
                named .identifier (some .name) 16 17 []]]],
          named .methodDeclaration none 18 52 [
            named .predefinedType (some .returns) 18 22 [],
            named .identifier (some .name) 23 24 [],
            named .parameterList (some .parameters) 24 26 [],
            named .block (some .body) 26 52 [
              named (.other "expression_statement") none 27 51 [
                named .invocation none 27 50 [
                  named .identifier (some .function) 27 28 [],
                  named (.other "argument_list") (some .arguments) 28 50 [
                    named .argument none 29 49 [
                      named .lambda none 29 49 [
                        named (.other "implicit_parameter") (some .parameters) 29 30 [],
                        named .invocation (some .body) 32 49 [
                          named .memberAccess (some .function) 32 39 [
                            named .identifier (some .expression) 32 33 [],
                            named .identifier (some .name) 34 39 []],
                          named (.other "argument_list") (some .arguments) 39 49 [
                            named .argument none 40 48 [
                              named .lambda none 40 48 [
                                named .parameterList (some .parameters) 40 45 [
                                  named .parameter none 41 42 [
                                    named .identifier (some .name) 41 42 []],
                                  named .parameter none 43 44 [
                                    named .identifier (some .name) 43 44 []]],
                                named .identifier (some .body) 47 48 []]]]]]]]]]]]]]]
where
  named := sample.named

/-- The parameter hides the table: the name that the chain starts from has
no known type, and nothing is reported. -/
theorem parameter_hides_table :
    ∃ c ∈ Document.hiddenTable.tree.documentOrder, ∃ scope node : Cursor,
      c.chain.source.kind = .identifier ∧ c.endsChain = true
        ∧ Nearest Document.hiddenTable.source c.chain.source scope node none
        ∧ scope.kind = .lambda
        ∧ (Index.ofDocuments [.hiddenTable]).memberType? "E"
            (Document.hiddenTable.text c.chain.source) = some (.mk "DbSet" [.plain "U"])
        ∧ (Model.mk (.ofDocuments [.hiddenTable]) Document.hiddenTable.source).resolve
            c.chain.source = .ok none
        ∧ Host.default.reportAt
            (Model.mk (.ofDocuments [.hiddenTable]) Document.hiddenTable.source).services
            .hiddenTable c = .ok [] := by
  let m : Model := ⟨.ofDocuments [.hiddenTable], Document.hiddenTable.source⟩
  let c := Document.hiddenTable.tree.nodeAt 24
  let u := c.chain.source
  have hu : u.kind = .identifier := by decide +kernel
  have hfind : ((u.ancestors.find? fun a =>
        a.kind.declaresType || !(m.declarations a (m.source.use u)).isEmpty).map fun a =>
          (a.kind, (m.declarations a (m.source.use u)).map fun entry => entry.2.isSome))
      = some (.lambda, [false]) := by decide +kernel
  obtain ⟨scope, hscope, heq⟩ := Option.map_eq_some_iff.1 hfind
  obtain ⟨hkind, htypes⟩ := Prod.mk.inj heq
  obtain ⟨⟨node, type⟩, hlist, htype⟩ := List.map_eq_singleton_iff.1 htypes
  have hnone : type = none := by simpa using htype
  subst hnone
  have hnearest : Nearest m.source u scope node none :=
    .of_find? hscope (by rw [hlist]; rfl)
  obtain ⟨hresolve, hreport⟩ := locals_hide_members_and_outer_scopes .hiddenTable u scope node none
    hu hnearest (.inl (by rw [hkind]; rfl))
  exact ⟨c, Tree.nodeAt_mem _ _, scope, node, hu, by decide +kernel, hnearest, hkind,
    by with_unfolding_all rfl, (hresolve m.index m.index).2, hreport rfl m.index c rfl⟩

end QueryLint
