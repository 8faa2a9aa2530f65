/-
Qualified names and resolution. From a node that is still there, a step
leads to one that is still there, and the same is done with its type
(`stepsAlike_of_shortens`). Together with what a shortened compilation
declares this gives `only_simple_names_count`: writing types in full or
not changes nothing about the type of any expression, or about the
method that any call calls.
-/
import QueryLint.Proofs.Scope.Qualification
import QueryLint.Proofs.Scope.Visible

namespace QueryLint

namespace Model

variable (m : Model) {c c' : Cursor}

-- =================================================================== steps

theorem target?_of_shortens (h : c.Shortens c') (hkind : c.kind = .invocation) :
    m.target? c' = m.target? c := by
  funext name type
  unfold target?
  rw [h.lambdaArity?_eq hkind]

theorem ownTarget?_of_shortens (h : c.Shortens c') (hkind : c.kind = .invocation) :
    m.ownTarget? c' = m.ownTarget? c := by
  have hfunction := h.child? (f := .function) fun l _ => by rw [hkind]; rfl
  unfold ownTarget?
  rw [m.enclosing?_of_shortens h]
  generalize c.child? .function = function at hfunction ⊢
  generalize c'.child? .function = function' at hfunction ⊢
  cases hfunction with
  | none => rfl
  | some hf => simp only [hf.kind_eq, hf.simpleName_eq]

theorem stepsAlike_ofBinding_of_shortens {b b' : Option Binding}
    (h : Option.Rel Binding.Shortens b b') :
    m.StepsAlike Cursor.Shortens (ofBinding b) (ofBinding b') := by
  cases h with
  | none => exact .done none
  | some h =>
    cases h with
    | typed type => exact .done type
    | typeOf hvalue => exact .ask hvalue rfl
    | elementOf hcollection => exact .ask hcollection rfl

theorem stepsAlike_ofCall_of_shortens (h : c.Shortens c') (hkind : c.kind = .invocation) :
    m.StepsAlike Cursor.Shortens (m.ofCall c) (m.ofCall c') := by
  have hcall := h.memberCall?
  unfold ofCall
  rw [m.ownTarget?_of_shortens h hkind]
  generalize c.memberCall? = parts at hcall ⊢
  generalize c'.memberCall? = parts' at hcall ⊢
  cases hcall with
  | none => exact .done _
  | some hparts =>
    refine .ask hparts.1 ?_
    funext type
    unfold fetch
    simp only [m.target?_of_shortens h hkind, hparts.2.simpleName_eq]

theorem stepsAlike_ofAccess_of_shortens (h : c.Shortens c') (hkind : c.kind = .memberAccess) :
    m.StepsAlike Cursor.Shortens (m.ofAccess c) (m.ofAccess c') := by
  have hplace : ∀ f : Field, ∀ l : Label, l.field = some f → c.kind.writesType l = false :=
    fun f l _ => by rw [hkind]; rfl
  have hname := map_eq_of_rel (h.child? (hplace .name)) fun n n' hn =>
    (hn.simpleName_eq m.source).symm
  have hobject := h.child? (hplace .expression)
  unfold ofAccess
  rw [← hname]
  generalize c.child? .expression = object at hobject ⊢
  generalize c'.child? .expression = object' at hobject ⊢
  cases hobject with
  | none => exact .done none
  | some ho => exact .ask ho rfl

theorem stepsAlike_of_shortens (h : c.Shortens c') :
    m.StepsAlike Cursor.Shortens (m.step c) (m.step c') := by
  have hexpression := h.unwrap
  unfold step
  generalize c.unwrap = e at hexpression ⊢
  generalize c'.unwrap = e' at hexpression ⊢
  unfold ofExpression
  rw [hexpression.kind_eq]
  split
  · exact m.stepsAlike_ofBinding_of_shortens (m.meaning?_of_shortens hexpression)
  · rw [m.enclosing?_of_shortens hexpression]
    exact .done _
  · rw [m.enclosing?_of_shortens hexpression]
    exact .done _
  · next hkind => exact m.stepsAlike_ofAccess_of_shortens hexpression hkind
  · next hkind => exact m.stepsAlike_ofCall_of_shortens hexpression hkind
  · rw [m.declared?_of_shortens hexpression]
    exact .done _
  · rw [m.declared?_of_shortens hexpression]
    exact .done _
  · exact .done none

-- ============================================================= resolutions

/-- An expression has the type that it had. -/
theorem resolve_of_shortens (h : c.Shortens c') : m.resolve c' = m.resolve c :=
  (resolve_eq_of_alike (fun _ _ => m.stepsAlike_of_shortens) h).symm

/-- A call calls what it called. -/
theorem resolveMethod_of_shortens (h : c.Shortens c') (hkind : c.kind = .invocation) :
    m.resolveMethod c' = m.resolveMethod c := by
  have hcall := h.memberCall?
  unfold resolveMethod
  rw [m.ownTarget?_of_shortens h hkind]
  generalize c.memberCall? = parts at hcall ⊢
  generalize c'.memberCall? = parts' at hcall ⊢
  cases hcall with
  | none => rfl
  | some hparts =>
    simp only [m.resolve_of_shortens hparts.1, m.target?_of_shortens h hkind,
      hparts.2.simpleName_eq]

end Model

/-- Only simple names count in types. A type denotes the same with its
qualified names cut, wherever they stand in it. It has the arguments that
its parts give it, and is unknown only if it is left open at the
outermost level. And in a compilation with names cut wherever types are
written, every expression and every call is still there and is resolved
to the same. -/
theorem only_simple_names_count :
    (∀ (src : Source) (may : Tree → Prop) (t t' : Tree), Tree.Shortens may t t' →
      Ty.ofTree? src t' = Ty.ofTree? src t)
    ∧ (∀ (src : Source) (t : Tree),
      (∀ type, Ty.ofTree? src t = some type →
        ∃ s, Ty.simple? t = some s ∧ type.args = (Ty.parts s).map (Ty.argument src))
      ∧ (Ty.ofTree? src t = none ↔
        ∀ s, Ty.simple? t = some s → Ty.leavesOpen src s = true))
    ∧ ∀ docs docs' : List Document, List.Forall₂ Document.Shortens docs docs' →
      Index.ofDocuments docs' = Index.ofDocuments docs
      ∧ ∀ doc doc', (doc, doc') ∈ docs.zip docs' →
        ∀ c : Cursor, c.top = doc.tree → c.OutsideNames →
          ∃ c', c.Shortens c' ∧ c'.top = doc'.tree
            ∧ (Model.mk (.ofDocuments docs') doc'.source).resolve c'
              = (Model.mk (.ofDocuments docs) doc.source).resolve c
            ∧ (c.kind = .invocation →
              (Model.mk (.ofDocuments docs') doc'.source).resolveMethod c'
                = (Model.mk (.ofDocuments docs) doc.source).resolveMethod c) := by
  refine ⟨fun src may t t' h => Ty.ofTree?_of_shortens src h,
    fun src t => ⟨fun type h => Ty.args_of_ofTree? src h, Ty.ofTree?_eq_none_iff src⟩, ?_⟩
  intro docs docs' h
  have hindex := Index.ofDocuments_of_shortens h
  refine ⟨hindex, ?_⟩
  intro doc doc' hmem c htop hnames
  obtain ⟨-, hsource, htree⟩ := List.forall₂_zip h hmem
  obtain ⟨c', hc, htop'⟩ := Cursor.exists_shortens htree htop hnames
  rw [hindex, hsource]
  exact ⟨c', hc, htop', Model.resolve_of_shortens _ hc, Model.resolveMethod_of_shortens _ hc⟩

namespace Document

/-- A class with a table and a call on it, the type of the table being
written as given. -/
def withTable (type : Tree) : Document where
  path := "F.cs"
  source := .ofText "class F\x7bN.DbSet<N.U>a;void m()\x7ba.First();\x7d\x7d"
  tree :=
    named (.other "compilation_unit") none 0 43 [
      named .classDeclaration none 0 43 [
        named .identifier (some .name) 6 7 [],
        named (.other "declaration_list") (some .body) 7 43 [
          named .fieldDeclaration none 8 22 [
            named .variableDeclaration none 8 21 [
              type,
              named .variableDeclarator none 20 21 [
                named .identifier (some .name) 20 21 []]]],
          named .methodDeclaration none 22 42 [
            named .predefinedType (some .returns) 22 26 [],
            named .identifier (some .name) 27 28 [],
            named .parameterList (some .parameters) 28 30 [],
            named .block (some .body) 30 42 [
              named (.other "expression_statement") none 31 41 [
                named .invocation none 31 40 [
                  named .memberAccess (some .function) 31 38 [
                    named .identifier (some .expression) 31 32 [],
                    named .identifier (some .name) 33 38 []],
                  named (.other "argument_list") (some .arguments) 38 40 []]]]]]]]
where
  named := sample.named

/-- `N.U` as a type argument. -/
def rowInFull : Tree :=
  sample.named .qualifiedName none 16 19 [
    sample.named .identifier (some (.other "qualifier")) 16 17 [],
    sample.named .identifier (some .name) 18 19 []]

/-- `N.DbSet<…>` as the type of a variable. -/
def tableInFull : Tree :=
  sample.named .qualifiedName (some .type) 8 20 [
    sample.named .identifier (some (.other "qualifier")) 8 9 [],
    sample.named .genericName (some .name) 10 20 [
      sample.named .identifier none 10 15 [],
      sample.named .typeArgumentList none 15 20 [rowInFull]]]

/-- `DbSet<U>`, cut out of the full name. -/
def table : Tree :=
  sample.named .genericName (some .type) 10 20 [
    sample.named .identifier none 10 15 [],
    sample.named .typeArgumentList none 15 20 [sample.named .identifier none 18 19 []]]

/-- The class with the full name. -/
def inFull : Document := withTable tableInFull

/-- The class with the short name. -/
def inShort : Document := withTable table

theorem table_shortens : Tree.Shortens Tree.IsPlain tableInFull table := by
  have hrow : Tree.Shortens Tree.IsPlain rowInFull (sample.named .identifier none 18 19 []) :=
    Tree.Shortens.name (by decide) rfl rfl rfl
      (.inside (.refl (sample.named .identifier (some .name) 18 19 [])))
  have hgeneric : Tree.ShortensBelow Tree.IsPlain
      (sample.named .genericName (some .name) 10 20 [
        sample.named .identifier none 10 15 [],
        sample.named .typeArgumentList none 15 20 [rowInFull]])
      (sample.named .genericName (some .name) 10 20 [
        sample.named .identifier none 10 15 [],
        sample.named .typeArgumentList none 15 20 [sample.named .identifier none 18 19 []]]) :=
    .node (.inside (.refl _) (.inside (.node (.type rfl hrow .nil)) .nil))
  exact Tree.Shortens.name (by decide) rfl rfl rfl (.inside hgeneric)

theorem inFull_shortens : inFull.Shortens inShort := by
  refine ⟨rfl, rfl, .node (.inside (.node (.inside (.refl _) (.inside ?_ .nil))) .nil)⟩
  -- the table is declared first in the body of the class
  refine .node (.inside (.node (.inside ?_ .nil)) (.refl _ _))
  exact .node (.type rfl table_shortens (.refl _ _))

end Document

/-- The name and the call are still there. The name has the type that its
declaration gives it in full, and the call calls what it called. -/
theorem table_in_full_resolved :
    Ty.ofTree? Document.inFull.source Document.table
        = Ty.ofTree? Document.inFull.source Document.tableInFull
      ∧ ∃ name name' call call' : Cursor, name.Shortens name' ∧ call.Shortens call'
        ∧ name.kind = .identifier ∧ call.kind = .invocation
        ∧ name.top = Document.inFull.tree ∧ name'.top = Document.inShort.tree
        ∧ (Model.mk (.ofDocuments [.inFull]) Document.inFull.source).resolve name
          = .ok (some (.mk "DbSet" [.plain "U"]))
        ∧ (Model.mk (.ofDocuments [.inShort]) Document.inShort.source).resolve name'
          = .ok (some (.mk "DbSet" [.plain "U"]))
        ∧ (Model.mk (.ofDocuments [.inShort]) Document.inShort.source).resolveMethod call'
          = (Model.mk (.ofDocuments [.inFull]) Document.inFull.source).resolveMethod call := by
  have htop : ∀ i, (Document.inFull.tree.nodeAt i).top = Document.inFull.tree := fun i =>
    Tree.mem_documentOrder_iff.1 (Tree.nodeAt_mem _ i)
  have htype : (Model.mk (.ofDocuments [.inFull]) Document.inFull.source).resolve
      (Document.inFull.tree.nodeAt 24) = .ok (some (.mk "DbSet" [.plain "U"])) :=
    Model.resolve_of_done (by with_unfolding_all rfl)
  let name := Document.inFull.tree.nodeAt 24
  let call := Document.inFull.tree.nodeAt 22
  have hcall : call.kind = .invocation := by decide +kernel
  have hname : ∀ a ∈ name :: name.ancestors, a.kind.qualifies = false := by decide +kernel
  have hcallNames : ∀ a ∈ call :: call.ancestors, a.kind.qualifies = false := by decide +kernel
  obtain ⟨hty, -, hdocs⟩ := only_simple_names_count
  obtain ⟨-, hnodes⟩ := hdocs [.inFull] [.inShort] (.cons Document.inFull_shortens .nil)
  have hpair : (Document.inFull, Document.inShort) ∈ [Document.inFull].zip [.inShort] :=
    List.mem_singleton.2 rfl
  obtain ⟨name', hshort, htop', hresolve, -⟩ := hnodes _ _ hpair name (htop 24) hname
  obtain ⟨call', hshort', -, -, hmethod⟩ := hnodes _ _ hpair call (htop 22) hcallNames
  exact ⟨hty _ _ _ _ Document.table_shortens, name, name', call, call', hshort, hshort',
    by decide +kernel, hcall, htop 24, htop', htype, hresolve.trans htype, hmethod hcall⟩

end QueryLint
