/-
Parentheses and declarations. An `Insertion` says which nodes of a tree
are put in parentheses: objects of member accesses, values of variables
and collections of `foreach` loops. What a document declares stays the
same (`declarations_parenthesize`).

Only four kinds of node have such a child (`Kind.holdsOperand`). Below
any other, the new tree has the moved children of the old one and
nothing else, and there a reading goes through as it is. What is left
are declarators, whose values may now be in parentheses, and lists. A
list is told by its place and its entries by their kind, and an entry in
parentheses would no longer be one; an insertion therefore leaves entries
alone (`Cursor.IsEntry`). What the parser gives has no operand among them
(`Tree.OperandsApart`), and this stays so when operands are put in
parentheses (`operandsApart_parenthesize`).
-/
import QueryLint.Proofs.Declaration.Contents
import QueryLint.Proofs.Scope.Offer
import QueryLint.Proofs.Tree.Parentheses

namespace QueryLint

-- ================================================================ operands

/-- The kinds of node that may have an operand for a child. -/
def Kind.holdsOperand : Kind → Bool
  | memberAccess | variableDeclarator | equalsValueClause | forEachStatement => true
  | _ => false

namespace Cursor

/-- The nodes that parentheses may be put around: what a member is
accessed on, what a variable starts with, and what a `foreach` runs
through. -/
inductive IsOperand (r : Cursor) : Prop
  | object {access : Cursor} (hkind : access.kind = .memberAccess)
      (hchild : access.child? .expression = some r)
  | value {declarator : Cursor} (hkind : declarator.kind = .variableDeclarator)
      (hvalue : declarator.declarator.value = some r)
  | collection {loop : Cursor} (hkind : loop.kind = .forEachStatement)
      (hchild : loop.child? .right = some r)

/-- The nodes that are found in their parent by their kind, since the
parent is in the place of a list: arguments of a call, parameters of a
declaration, and members of a type. -/
inductive IsEntry (r : Cursor) : Prop
  | argument {call list : Cursor} (hcall : call.kind = .invocation)
      (hlist : call.child? .arguments = some list) (hparent : r.parent? = some list)
      (hkind : r.kind = .argument)
  | parameter {owner list : Cursor} (howner : owner.kind.declaresCallable = true)
      (hlist : owner.child? .parameters = some list) (hparent : r.parent? = some list)
      (hkind : r.kind = .parameter)
  | member {decl body : Cursor} (hdecl : decl.kind.declaresType = true)
      (hbody : decl.child? .body = some body) (hparent : r.parent? = some body)
      (hkind : r.kind ∈ [.fieldDeclaration, .propertyDeclaration, .methodDeclaration])

/-- A node that can be put in parentheses without a difference. -/
structure TakesParentheses (r : Cursor) : Prop where
  counts : r.label.counts = true
  operand : r.IsOperand
  loose : ¬ r.IsEntry

theorem IsEntry.kind_mem {r : Cursor} (h : r.IsEntry) :
    r.kind ∈ [.argument, .parameter, .fieldDeclaration, .propertyDeclaration,
      .methodDeclaration] := by
  cases h with
  | argument _ _ _ hkind => simp [hkind]
  | parameter _ _ _ hkind => simp [hkind]
  | member _ _ _ hkind => exact List.mem_cons_of_mem _ (List.mem_cons_of_mem _ hkind)

theorem IsOperand.exists_holder {r : Cursor} (h : r.IsOperand) :
    ∃ holder, r.parent? = some holder ∧ holder.kind.holdsOperand = true := by
  cases h with
  | @object access hkind hchild =>
    exact ⟨access, parent?_of_child? hchild, by rw [hkind]; rfl⟩
  | @value declarator hkind hvalue =>
    rcases parent?_of_value hvalue with hparent | ⟨clause, -, hclause, hparent⟩
    · exact ⟨declarator, hparent, by rw [hkind]; rfl⟩
    · exact ⟨clause, hparent, by rw [hclause]; rfl⟩
  | @collection loop hkind hchild =>
    exact ⟨loop, parent?_of_child? hchild, by rw [hkind]; rfl⟩

/-- Of the children of a member access or a `foreach`, the operand is in
one field. -/
theorem IsOperand.field {r p : Cursor} (h : r.IsOperand) (hparent : r.parent? = some p)
    (hp : p.kind = .memberAccess ∨ p.kind = .forEachStatement) :
    r.label.field = some .expression ∨ r.label.field = some .right := by
  cases h with
  | object hkind hchild => exact .inl (field_of_child? hchild)
  | collection hkind hchild => exact .inr (field_of_child? hchild)
  | @value declarator hkind hvalue =>
    -- the parent would be a declarator or a clause
    have hholder : p.kind = .variableDeclarator ∨ p.kind = .equalsValueClause := by
      rcases parent?_of_value hvalue with heq | ⟨clause, -, hclause, heq⟩
      · rw [hparent] at heq
        cases heq
        exact .inl hkind
      · rw [hparent] at heq
        cases heq
        exact .inr hclause
    rcases hp with hp | hp <;> rcases hholder with hholder | hholder <;> rw [hp] at hholder <;>
      cases hholder

/-- The operand of a declarator is its value. -/
theorem IsOperand.value_of_parent? {r p : Cursor} (h : r.IsOperand) (hparent : r.parent? = some p)
    (hp : p.kind = .variableDeclarator) : p.declarator.value = some r := by
  cases h with
  | object hkind hchild =>
    rw [parent?_of_child? hchild] at hparent
    cases hparent
    rw [hkind] at hp
    cases hp
  | collection hkind hchild =>
    rw [parent?_of_child? hchild] at hparent
    cases hparent
    rw [hkind] at hp
    cases hp
  | value hkind hvalue =>
    rcases parent?_of_value hvalue with heq | ⟨clause, -, hclause, heq⟩
    · rw [hparent] at heq
      cases heq
      exact hvalue
    · rw [hparent] at heq
      cases heq
      rw [hclause] at hp
      cases hp

theorem top_eq_of_value {declarator r : Cursor} (h : declarator.declarator.value = some r) :
    r.top = declarator.top := by
  rcases parent?_of_value h with hparent | ⟨clause, hclause, -, hparent⟩
  · exact top_eq_of_parent? hparent
  · exact (top_eq_of_parent? hparent).trans (top_eq_of_parent? hclause)

end Cursor

/-- No operand is an entry of a list. The parser gives such trees: lists
are nodes of kinds of their own, and operands are not children of them. -/
def Tree.OperandsApart (t : Tree) : Prop :=
  ∀ c ∈ t.documentOrder, c.IsOperand → ¬ c.IsEntry

/-- It is enough that nothing of the kind of an entry is below a node that
may have an operand. -/
theorem Tree.operandsApart_of_kinds {t : Tree}
    (h : ∀ c ∈ t.documentOrder, c.parent?.any (·.kind.holdsOperand) = true →
      c.kind ∉ [.argument, .parameter, .fieldDeclaration, .propertyDeclaration,
        .methodDeclaration]) : t.OperandsApart := by
  intro c hc hoperand hentry
  obtain ⟨holder, hholder, hkind⟩ := hoperand.exists_holder
  refine h c hc ?_ hentry.kind_mem
  rw [hholder]
  exact hkind

/-- A choice of nodes to put in parentheses. -/
structure Insertion where
  here : Cursor → Bool
  takes : ∀ c, here c = true → c.TakesParentheses

namespace Insertion

variable (s : Insertion)

theorem counts (c : Cursor) (h : s.here c = true) : c.label.counts = true := (s.takes c h).counts

-- ============================================================ other parents

section

variable {s} {c p : Cursor}

theorem not_here_of_parent? (hparent : c.parent? = some p) (hp : p.kind.holdsOperand = false) :
    s.here c = false := by
  refine Bool.eq_false_iff.2 fun h => ?_
  obtain ⟨holder, hholder, hkind⟩ := (s.takes c h).operand.exists_holder
  rw [hparent] at hholder
  cases hholder
  rw [hp] at hkind
  cases hkind

/-- In a member access or a `foreach`, only the operand is put in
parentheses. -/
theorem not_here_of_field {f : Field} (hchild : p.child? f = some c)
    (hp : p.kind = .memberAccess ∨ p.kind = .forEachStatement) (hf : f ≠ .expression)
    (hf' : f ≠ .right) : s.here c = false := by
  refine Bool.eq_false_iff.2 fun h => ?_
  have hfield := Cursor.field_of_child? hchild
  rcases (s.takes c h).operand.field (Cursor.parent?_of_child? hchild) hp with heq | heq
  · rw [hfield] at heq
    exact hf (Option.some.inj heq)
  · rw [hfield] at heq
    exact hf' (Option.some.inj heq)

theorem wrapped_eq_moved (h : s.here c = false) : c.wrapped s.here = c.moved s.here :=
  (Cursor.moved_of_not_here h).symm

theorem child?_moved {f : Field} (hp : p.kind.holdsOperand = false) :
    (p.moved s.here).child? f = (p.child? f).map (Cursor.moved s.here) := by
  rw [Cursor.child?_moved]
  exact Option.map_congr fun d hd =>
    wrapped_eq_moved (not_here_of_parent? (Cursor.parent?_of_child? hd) hp)

theorem children_moved (hp : p.kind.holdsOperand = false) :
    (p.moved s.here).children = p.children.map (Cursor.moved s.here) := by
  rw [Cursor.children_moved]
  exact List.map_congr_left fun d hd =>
    wrapped_eq_moved (not_here_of_parent? (Cursor.mem_children_iff.1 hd) hp)

theorem namedChildren_moved (hp : p.kind.holdsOperand = false) :
    (p.moved s.here).namedChildren = p.namedChildren.map (Cursor.moved s.here) := by
  rw [Cursor.namedChildren_moved s.counts]
  exact List.map_congr_left fun d hd =>
    wrapped_eq_moved (not_here_of_parent? (Cursor.parent?_of_mem_namedChildren hd) hp)

theorem namedOfKind_moved {k : Kind} (hk : k ≠ .parenthesized)
    (hp : p.kind.holdsOperand = false) :
    (p.moved s.here).namedOfKind k = (p.namedOfKind k).map (Cursor.moved s.here) := by
  refine Cursor.namedOfKind_moved s.counts hk fun d hd h => ?_
  rw [not_here_of_parent? (Cursor.mem_children_iff.1 hd) hp] at h
  cases h

end

-- =========================================================== written types

@[simp]
theorem text_moved (src : Source) (c : Cursor) :
    src.text (c.moved s.here).focus = src.text c.focus := by
  show src.slice (c.moved s.here).start (c.moved s.here).stop = _
  rw [Cursor.start_moved, Cursor.stop_moved]
  rfl

@[simp]
theorem text_wrapped (src : Source) (c : Cursor) :
    src.text (c.wrapped s.here).focus = src.text c.focus := by
  show src.slice (c.wrapped s.here).start (c.wrapped s.here).stop = _
  rw [Cursor.start_wrapped, Cursor.stop_wrapped]
  rfl

end Insertion

/-- The last child of a kind. -/
def Cursor.lastOfKind? (c : Cursor) (k : Kind) : Option Cursor :=
  (c.children.filter (·.kind == k)).getLast?

theorem Cursor.lastOfKind?_focus (c : Cursor) (k : Kind) :
    Ty.lastOfKind? k c.focus.children = (c.lastOfKind? k).map focus := by
  unfold Ty.lastOfKind? lastOfKind?
  rw [← map_focus_children, List.filter_map, List.getLast?_map]
  rfl

theorem Cursor.parent?_of_lastOfKind? {c d : Cursor} {k : Kind} (h : c.lastOfKind? k = some d) :
    d.parent? = some c ∧ d.kind = k := by
  obtain ⟨hmem, hkind⟩ := List.mem_filter.1 (List.mem_of_getLast? h)
  exact ⟨mem_children_iff.1 hmem, beq_iff_eq.1 hkind⟩

/-- The part of a qualified name that names the type. -/
def Cursor.simplePart? (c : Cursor) : Option Cursor :=
  (c.child? .name).or c.namedChildren.getLast?

theorem Cursor.simplePart?_focus (c : Cursor) :
    Ty.simplePart? c.focus = c.simplePart?.map focus := by
  unfold Ty.simplePart? simplePart?
  rw [child?_focus, namedChildren_focus, List.getLast?_map, Option.map_or]

theorem Cursor.parent?_of_simplePart? {c d : Cursor} (h : c.simplePart? = some d) :
    d.parent? = some c := by
  rcases Option.or_eq_some_iff.1 h with h | ⟨-, h⟩
  · exact parent?_of_child? h
  · exact parent?_of_mem_namedChildren (List.mem_of_getLast? h)

namespace Insertion

variable (s : Insertion) (src : Source)

theorem lastOfKind?_moved {c : Cursor} (hc : c.kind.holdsOperand = false) (k : Kind) :
    (c.moved s.here).lastOfKind? k = (c.lastOfKind? k).map (Cursor.moved s.here) := by
  unfold Cursor.lastOfKind?
  rw [children_moved hc, List.filter_map, List.getLast?_map]
  simp only [Function.comp_def, Cursor.kind_moved]

theorem simplePart?_moved {c : Cursor} (hc : c.kind.holdsOperand = false) :
    (c.moved s.here).simplePart? = c.simplePart?.map (Cursor.moved s.here) := by
  unfold Cursor.simplePart?
  rw [child?_moved hc, namedChildren_moved hc, List.getLast?_map, Option.map_or]

/-- A node whose children are left alone, as a written type. -/
theorem ofTree?_moved_of_children {c : Cursor} (hc : c.kind.holdsOperand = false)
    (ih : ∀ d : Cursor, d.focus.size < c.focus.size →
      Ty.ofTree? src (d.moved s.here).focus = Ty.ofTree? src d.focus) :
    Ty.ofTree? src (c.moved s.here).focus = Ty.ofTree? src c.focus := by
  have hpart : ∀ d : Cursor, d.parent? = some c →
      Ty.ofTree? src (d.moved s.here).focus = Ty.ofTree? src d.focus := by
    intro d hd
    exact ih d (Cursor.size_focus_lt_of_mem_children (Cursor.mem_children_iff.2 hd))
  have hname : (Ty.lastOfKind? .identifier (c.moved s.here).focus.children).map src.text
      = (Ty.lastOfKind? .identifier c.focus.children).map src.text := by
    rw [Cursor.lastOfKind?_focus, Cursor.lastOfKind?_focus, s.lastOfKind?_moved hc]
    simp only [Option.map_map, Function.comp_def, text_moved]
  have hargs : ((Ty.lastOfKind? .typeArgumentList (c.moved s.here).focus.children).map fun list =>
        list.namedChildren.map fun u => (Ty.ofTree? src u).getD .object)
      = (Ty.lastOfKind? .typeArgumentList c.focus.children).map fun list =>
        list.namedChildren.map fun u => (Ty.ofTree? src u).getD .object := by
    rw [Cursor.lastOfKind?_focus, Cursor.lastOfKind?_focus, s.lastOfKind?_moved hc]
    simp only [Option.map_map]
    refine Option.map_congr fun list hlist => ?_
    obtain ⟨hparent, hkind⟩ := Cursor.parent?_of_lastOfKind? hlist
    have hplain : list.kind.holdsOperand = false := by rw [hkind]; rfl
    simp only [Function.comp_apply, Cursor.namedChildren_focus, namedChildren_moved hplain,
      List.map_map]
    refine List.map_congr_left fun d hd => ?_
    have hlt := Cursor.size_focus_lt_of_mem_children (Cursor.mem_children_iff.2 hparent)
    have hlt' := Cursor.size_focus_lt_of_mem_namedChildren hd
    exact congrArg (Option.getD · Ty.object) (ih d (Nat.lt_trans hlt' hlt))
  have hsimple : (Ty.simplePart? (c.moved s.here).focus).bind (Ty.ofTree? src)
      = (Ty.simplePart? c.focus).bind (Ty.ofTree? src) := by
    rw [Cursor.simplePart?_focus, Cursor.simplePart?_focus, s.simplePart?_moved hc]
    simp only [Option.bind_map]
    exact Option.bind_congr fun d hd => hpart d (Cursor.parent?_of_simplePart? hd)
  have hnullable : ((c.moved s.here).focus.namedChildren.head?.map fun u =>
        Ty.mk "Nullable" [(Ty.ofTree? src u).getD .object])
      = c.focus.namedChildren.head?.map fun u =>
        Ty.mk "Nullable" [(Ty.ofTree? src u).getD .object] := by
    rw [Cursor.namedChildren_focus, Cursor.namedChildren_focus, namedChildren_moved hc]
    simp only [List.head?_map, Option.map_map]
    refine Option.map_congr fun d hd => ?_
    simp only [Function.comp_apply]
    rw [hpart d (Cursor.parent?_of_mem_namedChildren (List.mem_of_head? hd))]
  have htype : ((c.moved s.here).focus.child? .type).bind (Ty.ofTree? src)
      = (c.focus.child? .type).bind (Ty.ofTree? src) := by
    rw [Cursor.child?_focus, Cursor.child?_focus, child?_moved hc]
    simp only [Option.bind_map]
    exact Option.bind_congr fun d hd => hpart d (Cursor.parent?_of_child? hd)
  have hkind : (c.moved s.here).focus.kind = c.focus.kind := c.kind_moved
  rw [Ty.ofTree?_eq, Ty.ofTree?_eq src c.focus, hkind, s.text_moved, hname, hargs, hsimple,
    hnullable, htype]

@[simp]
theorem ofTree?_moved (c : Cursor) :
    Ty.ofTree? src (c.moved s.here).focus = Ty.ofTree? src c.focus := by
  cases hc : c.kind.holdsOperand with
  | false =>
    refine s.ofTree?_moved_of_children src hc fun d hd => ?_
    exact ofTree?_moved d
  | true =>
    -- such a node is no type syntax, and what is left of it is its text
    have hkind : (c.moved s.here).focus.kind = c.focus.kind := c.kind_moved
    have hholds : c.focus.kind.holdsOperand = true := hc
    rw [Ty.ofTree?_eq, Ty.ofTree?_eq src c.focus, hkind, s.text_moved]
    unfold Kind.holdsOperand at hholds
    split at hholds
    · next heq => rw [heq]
    · next heq => rw [heq]
    · next heq => rw [heq]
    · next heq => rw [heq]
    · cases hholds
termination_by c.focus.size

/-- The type that a node declares, where that is not in parentheses. -/
theorem declared?_moved_of_child? {c : Cursor}
    (h : ∀ d, c.child? .type = some d → s.here d = false) :
    Ty.declared? src (c.moved s.here).focus = Ty.declared? src c.focus := by
  unfold Ty.declared?
  rw [Cursor.child?_focus, Cursor.child?_focus, Cursor.child?_moved]
  simp only [Option.bind_map]
  refine Option.bind_congr fun d hd => ?_
  simp only [Function.comp_apply]
  rw [wrapped_eq_moved (h d hd), s.ofTree?_moved]

theorem declared?_moved {c : Cursor} (hc : c.kind.holdsOperand = false) :
    Ty.declared? src (c.moved s.here).focus = Ty.declared? src c.focus :=
  s.declared?_moved_of_child? src fun _ hd => not_here_of_parent? (Cursor.parent?_of_child? hd) hc

/-- A list of parameters none of which is in parentheses. -/
theorem ofList_moved {list : Cursor}
    (h : ∀ d ∈ list.children, s.here d = true → d.kind ≠ .parameter) :
    Parameter.ofList src (list.moved s.here).focus = Parameter.ofList src list.focus := by
  unfold Parameter.ofList
  rw [Cursor.namedOfKind_focus, Cursor.namedOfKind_focus,
    Cursor.namedOfKind_moved s.counts (by decide) h]
  simp only [List.map_map]
  refine List.map_congr_left fun d hd => ?_
  have hplain : d.kind.holdsOperand = false := by
    rw [Cursor.kind_of_mem_namedOfKind hd]
    rfl
  simp only [Function.comp_apply]
  rw [s.declared?_moved src hplain, Cursor.child?_focus, Cursor.child?_focus, child?_moved hplain]
  simp only [Option.map_map, Function.comp_def, text_moved]

end Insertion

-- ============================================================= declarators

namespace Declarator

variable {α : Type} {tree : α → Tree} {inner : α → Option α}

/-- At each child of a declarator, the reading takes it for the value and
ends, or goes on. -/
theorem scan_cons_cases (tree : α → Tree) (inner : α → Option α) (p : Progress α) (x : α)
    (rest : List α) :
    (p.behindEquals = true ∧ scan tree inner p (x :: rest) = { p.parts with value := some x })
      ∨ ∃ q : Progress α, scan tree inner p (x :: rest) = scan tree inner q rest
        ∧ (q.parts.value = p.parts.value ∨ q.parts.value = inner x) := by
  rw [scan]
  split
  · exact .inr ⟨_, rfl, .inl rfl⟩
  split
  · exact .inr ⟨_, rfl, .inr rfl⟩
  split
  · exact .inr ⟨_, rfl, .inl rfl⟩
  split
  · next hvalue => exact .inl ⟨(Bool.and_eq_true_iff.1 hvalue).1, rfl⟩
  · exact .inr ⟨_, rfl, .inl rfl⟩

/-- What a reading ends with and has not come by before, it stops at. -/
theorem scan_cons_of_value {p : Progress α} {x : α} {rest : List α} (hx : x ∉ rest)
    (hp : p.parts.value ≠ some x) (hinner : ∀ y ∈ x :: rest, inner y ≠ some x)
    (hvalue : (scan tree inner p (x :: rest)).value = some x) :
    p.behindEquals = true ∧ scan tree inner p (x :: rest) = { p.parts with value := some x } := by
  rcases scan_cons_cases tree inner p x rest with h | ⟨q, hq, hparts⟩
  · exact h
  · exfalso
    rw [hq] at hvalue
    rcases value_of_scan hvalue with hv | ⟨hv, -⟩ | ⟨y, hy, -, hv⟩
    · rcases hparts with hparts | hparts
      · exact hp (hparts.symm.trans hv)
      · exact hinner x List.mem_cons_self (hparts.symm.trans hv)
    · exact hx hv
    · exact hinner y (List.mem_cons_of_mem x hy) hv

/-- Reading a declarator whose children have been changed: those in
parentheses, which have to be what the reading ends with, and the others
without a change to their labels. -/
theorem scan_map (g : α → α) (here : α → Bool)
    (hlabel : ∀ x, here x = false → (tree (g x)).label = (tree x).label)
    (hparens : ∀ x, here x = true → (tree (g x)).kind = .parenthesized
      ∧ (tree (g x)).label.counts = true)
    (p : Progress α) {xs : List α} (hnodup : xs.Nodup)
    (hinner : ∀ x ∈ xs, here x = false → inner (g x) = (inner x).map g)
    (hclause : ∀ x ∈ xs, ∀ y ∈ xs, inner x ≠ some y) (hp : ∀ x ∈ xs, p.parts.value ≠ some x)
    (hvalue : ∀ x ∈ xs, here x = true → (scan tree inner p xs).value = some x) :
    scan tree inner ⟨p.parts.map g, p.behindEquals⟩ (xs.map g) = (scan tree inner p xs).map g := by
  induction xs generalizing p with
  | nil => rfl
  | cons x rest ih =>
    obtain ⟨hx, hnodup⟩ := List.nodup_cons.1 hnodup
    rw [List.map_cons]
    cases h : here x with
    | true =>
      obtain ⟨hbehind, hscan⟩ := scan_cons_of_value hx (hp x List.mem_cons_self)
        (fun y hy => hclause y hy x List.mem_cons_self) (hvalue x List.mem_cons_self h)
      obtain ⟨hkind, hcounts⟩ := hparens x h
      rw [hscan, scan, hkind, hcounts, hbehind]
      simp [map]
    | false =>
      have hrest : ∀ q : Progress α, scan tree inner p (x :: rest) = scan tree inner q rest →
          (∀ y ∈ rest, q.parts.value ≠ some y) →
          scan tree inner ⟨q.parts.map g, q.behindEquals⟩ (rest.map g)
            = (scan tree inner q rest).map g := by
        intro q hq hparts
        refine ih q hnodup (fun y hy => hinner y (List.mem_cons_of_mem x hy))
          (fun y hy z hz => hclause y (List.mem_cons_of_mem x hy) z (List.mem_cons_of_mem x hz))
          hparts ?_
        intro y hy hhere
        rw [← hq]
        exact hvalue y (List.mem_cons_of_mem x hy) hhere
      have hkept : ∀ y ∈ rest, p.parts.value ≠ some y :=
        fun y hy => hp y (List.mem_cons_of_mem x hy)
      have hkind : (tree (g x)).kind = (tree x).kind := congrArg Label.kind (hlabel x h)
      have hname : (p.parts.map g).name.isNone = p.parts.name.isNone := Option.isNone_map
      rw [scan] at hrest ⊢
      rw [scan, hkind, hlabel x h, hname]
      split
      · -- the name
        next hif =>
        rw [if_pos hif] at hrest
        exact hrest ⟨⟨some x, p.parts.value⟩, p.behindEquals⟩ rfl hkept
      · next hif =>
        rw [if_neg hif] at hrest
        split
        · -- a clause
          next hif =>
          rw [if_pos hif] at hrest
          rw [hinner x List.mem_cons_self h]
          exact hrest ⟨⟨p.parts.name, inner x⟩, p.behindEquals⟩ rfl
            fun y hy => hclause x List.mem_cons_self y (List.mem_cons_of_mem x hy)
        · next hif =>
          rw [if_neg hif] at hrest
          split
          · -- the equals sign
            next hif =>
            rw [if_pos hif] at hrest
            exact hrest ⟨p.parts, true⟩ rfl hkept
          · next hif =>
            rw [if_neg hif] at hrest
            split
            · -- the value itself
              rfl
            · next hif =>
              rw [if_neg hif] at hrest
              exact hrest p rfl hkept

end Declarator

namespace Insertion

variable (s : Insertion)

/-- The parts of a declarator are what stands where they were. -/
theorem declarator_moved {c : Cursor} (hc : c.kind = .variableDeclarator) :
    (c.moved s.here).declarator = c.declarator.map (Cursor.wrapped s.here) := by
  unfold Cursor.declarator
  rw [Cursor.child?_moved, Cursor.children_moved]
  refine Declarator.scan_map (Cursor.wrapped s.here) s.here ?_ ?_
    ⟨⟨c.child? .name, none⟩, false⟩ c.nodup_children ?_ ?_ ?_ ?_
  · intro x hx
    show (x.wrapped s.here).label = _
    rw [Cursor.label_wrapped, hx, if_neg Bool.false_ne_true]
    rfl
  · intro x hx
    exact ⟨Cursor.kind_wrapped_of_here hx, (Cursor.counts_wrapped s.counts x).trans (s.counts x hx)⟩
  · intro x _ hx
    rw [wrapped_eq_moved hx, Cursor.namedChildren_moved s.counts, List.head?_map]
  · -- a child of a child is no child
    intro x hx y hy heq
    have hparent := Cursor.parent?_of_mem_namedChildren (List.mem_of_head? heq)
    rw [Cursor.mem_children_iff.1 hy] at hparent
    cases hparent
    exact Nat.lt_irrefl _ (Cursor.size_focus_lt_of_mem_children hx)
  · intro x _ h
    cases h
  · intro x hx hhere
    exact (s.takes x hhere).operand.value_of_parent? (Cursor.mem_children_iff.1 hx) hc

/-- A moved node is an operand only if the node was one. -/
theorem isOperand_of_moved {c : Cursor} (h : (c.moved s.here).IsOperand) : c.IsOperand := by
  cases h with
  | object hkind hchild =>
    obtain ⟨access, hobject, rfl⟩ := Cursor.exists_child?_of_moved hchild (by rw [hkind]; decide)
    rw [Cursor.kind_moved] at hkind
    exact .object hkind hobject
  | @value holder hkind hvalue =>
    -- around the value is the moved declarator, at once or behind a clause
    have hmoved : ∃ declarator : Cursor, declarator.top = c.top
        ∧ holder = declarator.moved s.here := by
      rcases Cursor.parent?_of_value hvalue with hparent | ⟨clause, hclause, hckind, hparent⟩
      · obtain ⟨p, hp, rfl⟩ := Cursor.exists_parent?_of_moved hparent (by rw [hkind]; decide)
        exact ⟨p, (Cursor.top_eq_of_parent? hp).symm, rfl⟩
      · obtain ⟨q, hq, rfl⟩ := Cursor.exists_parent?_of_moved hparent (by rw [hckind]; decide)
        obtain ⟨p, hp, rfl⟩ := Cursor.exists_parent?_of_moved hclause (by rw [hkind]; decide)
        exact ⟨p, ((Cursor.top_eq_of_parent? hq).trans (Cursor.top_eq_of_parent? hp)).symm, rfl⟩
    obtain ⟨declarator, htop, rfl⟩ := hmoved
    rw [Cursor.kind_moved] at hkind
    rw [s.declarator_moved hkind] at hvalue
    obtain ⟨d, hd, heq⟩ := Option.map_eq_some_iff.1 hvalue
    rw [Cursor.eq_of_wrapped_eq_moved ((Cursor.top_eq_of_value hd).trans htop) heq] at hd
    exact .value hkind hd
  | collection hkind hchild =>
    obtain ⟨loop, hright, rfl⟩ := Cursor.exists_child?_of_moved hchild (by rw [hkind]; decide)
    rw [Cursor.kind_moved] at hkind
    exact .collection hkind hright

/-- A moved operand is an entry only if it was one: it is in no new
parentheses, since these are not what a list is of. -/
theorem isEntry_of_moved {c : Cursor} (hoperand : (c.moved s.here).IsOperand)
    (h : (c.moved s.here).IsEntry) : c.IsEntry := by
  obtain ⟨holder, hholder, hholds⟩ := hoperand.exists_holder
  have hlist : ∀ list, (c.moved s.here).parent? = some list →
      ∃ p, c.parent? = some p ∧ list = p.moved s.here := by
    intro list hparent
    rw [hholder] at hparent
    cases hparent
    refine Cursor.exists_parent?_of_moved hholder fun hkind => ?_
    rw [hkind] at hholds
    cases hholds
  cases h with
  | argument hcall hfield hparent hkind =>
    obtain ⟨list, hlist, rfl⟩ := hlist _ hparent
    obtain ⟨call, harguments, rfl⟩ := Cursor.exists_child?_of_moved hfield
      (by rw [hcall]; decide)
    rw [Cursor.kind_moved] at hcall hkind
    exact .argument hcall harguments hlist hkind
  | parameter howner hfield hparent hkind =>
    obtain ⟨list, hlist, rfl⟩ := hlist _ hparent
    obtain ⟨owner, hparameters, rfl⟩ := Cursor.exists_child?_of_moved hfield
      (fun heq => by simp [heq, Kind.declaresCallable] at howner)
    rw [Cursor.kind_moved] at howner hkind
    exact .parameter howner hparameters hlist hkind
  | member hdecl hfield hparent hkind =>
    obtain ⟨body, hlist, rfl⟩ := hlist _ hparent
    obtain ⟨decl, hbody, rfl⟩ := Cursor.exists_child?_of_moved hfield
      (fun heq => by simp [heq, Kind.declaresType] at hdecl)
    rw [Cursor.kind_moved] at hdecl hkind
    exact .member hdecl hbody hlist hkind

theorem operandsApart_parenthesize {t : Tree} (h : t.OperandsApart) :
    (t.parenthesize s.here).OperandsApart := by
  intro e he hoperand hentry
  rw [t.documentOrder_parenthesize, List.mem_flatMap] at he
  obtain ⟨c, hc, he⟩ := he
  have hmoved : e = c.moved s.here := by
    unfold Cursor.images at he
    split at he
    · next hhere =>
      rcases List.mem_cons.1 he with rfl | he
      · -- parentheses are no entries
        have hkind := hentry.kind_mem
        rw [Cursor.kind_wrapped_of_here hhere] at hkind
        exact absurd hkind (by decide)
      · exact List.mem_singleton.1 he
    · exact List.mem_singleton.1 he
  subst hmoved
  exact h c hc (s.isOperand_of_moved hoperand) (s.isEntry_of_moved hoperand hentry)

/-- Some operands of a tree, where entries elsewhere are left alone. -/
noncomputable def ofOperands (here : Cursor → Bool)
    (h : ∀ c, here c = true → c.label.counts = true ∧ c.IsOperand) : Insertion where
  here c := here c && !(Classical.propDecidable c.IsEntry).decide
  takes c hc := by
    simp only [Bool.and_eq_true, Bool.not_eq_true', decide_eq_false_iff_not] at hc
    exact ⟨(h c hc.1).1, (h c hc.1).2, hc.2⟩

theorem parenthesize_ofOperands {t : Tree} (hapart : t.OperandsApart) {here : Cursor → Bool}
    (h : ∀ c, here c = true → c.label.counts = true ∧ c.IsOperand) :
    t.parenthesize (ofOperands here h).here = t.parenthesize here := by
  refine Tree.parenthesize_congr fun c hc => ?_
  show (here c && !(Classical.propDecidable c.IsEntry).decide) = here c
  cases hhere : here c with
  | false => rfl
  | true =>
    rw [Bool.true_and, Bool.not_eq_true', decide_eq_false_iff_not]
    exact hapart c hc (h c hhere).2

-- ====================================================== type declarations

variable (doc : Document)

theorem baseNames_moved {c : Cursor} (hc : c.kind.holdsOperand = false) :
    doc.baseNames (c.moved s.here) = doc.baseNames c := by
  unfold Document.baseNames
  rw [children_moved hc, List.filter_map, List.flatMap_map]
  simp only [Function.comp_def, Cursor.kind_moved]
  refine List.flatMap_congr fun list hlist => ?_
  have hplain : list.kind.holdsOperand = false := by
    rw [beq_iff_eq.1 (List.mem_filter.1 hlist).2]
    rfl
  rw [namedChildren_moved hplain, List.filterMap_map]
  simp only [Function.comp_def, ofTree?_moved]

theorem inBody_moved {c : Cursor} (hc : c.kind.holdsOperand = false) :
    (c.moved s.here).inBody = c.inBody.map (Cursor.wrapped s.here) := by
  unfold Cursor.inBody
  rw [child?_moved hc]
  cases c.child? .body with
  | none => rfl
  | some body => exact Cursor.namedChildren_moved s.counts body

theorem variablesOf_moved {c : Cursor} (hc : c.kind = .variableDeclaration) :
    TypeDecl.variablesOf doc.source (c.moved s.here).focus
      = TypeDecl.variablesOf doc.source c.focus := by
  have hplain : c.kind.holdsOperand = false := by rw [hc]; rfl
  have hnames : (((c.moved s.here).focus.namedOfKind .variableDeclarator).filterMap
        (·.declarator.name)).map doc.source.text
      = ((c.focus.namedOfKind .variableDeclarator).filterMap (·.declarator.name)).map
        doc.source.text := by
    rw [Cursor.namedOfKind_focus, Cursor.namedOfKind_focus,
      namedOfKind_moved (by decide) hplain, List.map_filterMap, List.map_filterMap]
    simp only [List.filterMap_map]
    refine List.filterMap_congr fun d hd => ?_
    simp only [Function.comp_apply, Cursor.declarator_focus,
      s.declarator_moved (Cursor.kind_of_mem_namedOfKind hd), Declarator.map, Option.map_map,
      Function.comp_def, text_wrapped]
  unfold TypeDecl.variablesOf
  rw [s.declared?_moved doc.source hplain]
  cases Ty.declared? doc.source c.focus with
  | none => rfl
  | some type =>
    have hpairs := congrArg (List.map fun name => (name, type)) hnames
    rw [List.map_map, List.map_map] at hpairs
    exact hpairs

theorem membersOf_moved (c : Cursor) :
    TypeDecl.membersOf doc.source (c.moved s.here).focus
      = TypeDecl.membersOf doc.source c.focus := by
  have hkind : (c.moved s.here).focus.kind = c.focus.kind := c.kind_moved
  unfold TypeDecl.membersOf
  rw [hkind]
  split
  · next hfield =>
    have hplain : c.kind.holdsOperand = false := by
      rw [show c.kind = _ from hfield]
      rfl
    rw [Cursor.namedOfKind_focus, Cursor.namedOfKind_focus,
      namedOfKind_moved (by decide) hplain, List.flatMap_map, List.flatMap_map, List.flatMap_map]
    refine List.flatMap_congr fun d hd => ?_
    exact s.variablesOf_moved doc (Cursor.kind_of_mem_namedOfKind hd)
  · next hproperty =>
    have hplain : c.kind.holdsOperand = false := by
      rw [show c.kind = _ from hproperty]
      rfl
    rw [s.declared?_moved doc.source hplain, Cursor.child?_focus, Cursor.child?_focus,
      child?_moved hplain]
    cases Ty.declared? doc.source c.focus with
    | none => rfl
    | some type =>
      cases c.child? .name with
      | none => rfl
      | some name =>
        show [(doc.source.text (name.moved s.here).focus, type)] = _
        rw [s.text_moved]
        rfl
  · rfl

theorem methodOf?_moved (owner : String) (c : Cursor) :
    TypeDecl.methodOf? doc.source owner (c.moved s.here).focus
      = TypeDecl.methodOf? doc.source owner c.focus := by
  rw [TypeDecl.methodOf?_focus, TypeDecl.methodOf?_focus, Cursor.kind_moved]
  split
  · next hkind =>
    have hplain : c.kind.holdsOperand = false := by rw [hkind]; rfl
    have hparameters : ((c.moved s.here).child? .parameters).map
          (Parameter.ofList doc.source ·.focus)
        = (c.child? .parameters).map (Parameter.ofList doc.source ·.focus) := by
      rw [child?_moved hplain, Option.map_map]
      refine Option.map_congr fun list hlist => ?_
      refine s.ofList_moved doc.source fun d hd hhere hparameter => ?_
      exact (s.takes d hhere).loose
        (.parameter (by rw [hkind]; rfl) hlist (Cursor.mem_children_iff.1 hd) hparameter)
    have hreturns : (((c.moved s.here).child? .returns).or ((c.moved s.here).child? .type)).bind
          (Ty.ofTree? doc.source ·.focus)
        = ((c.child? .returns).or (c.child? .type)).bind (Ty.ofTree? doc.source ·.focus) := by
      rw [child?_moved hplain, child?_moved hplain, ← Option.map_or, Option.bind_map]
      simp only [Function.comp_def, ofTree?_moved]
    rw [hparameters, hreturns, child?_moved hplain, Option.map_map]
    refine Option.map_congr fun name _ => ?_
    show { name := doc.source.text (name.moved s.here).focus, .. : Method } = _
    rw [s.text_moved]
    rfl
  · rfl

/-- Where a body stands that is read for members, parentheses are put
around none of them. -/
theorem kind_of_here_inBody {c member : Cursor} (hc : c.kind.declaresType = true)
    (hmember : member ∈ c.inBody) (h : s.here member = true) :
    member.kind ∉ [.fieldDeclaration, .propertyDeclaration, .methodDeclaration] := by
  intro hkind
  obtain ⟨body, hbody, hmember⟩ := Cursor.mem_inBody_iff.1 hmember
  exact (s.takes member h).loose
    (.member hc hbody (Cursor.parent?_of_mem_namedChildren hmember) hkind)

theorem membersOf_eq_nil {c : Cursor} (hfield : c.kind ≠ .fieldDeclaration)
    (hproperty : c.kind ≠ .propertyDeclaration) : TypeDecl.membersOf doc.source c.focus = [] := by
  unfold TypeDecl.membersOf
  split
  · next heq => exact absurd heq hfield
  · next heq => exact absurd heq hproperty
  · rfl

theorem membersOf_wrapped {c member : Cursor} (hc : c.kind.declaresType = true)
    (hmember : member ∈ c.inBody) :
    TypeDecl.membersOf doc.source (member.wrapped s.here).focus
      = TypeDecl.membersOf doc.source member.focus := by
  cases h : s.here member with
  | false => rw [wrapped_eq_moved h, s.membersOf_moved]
  | true =>
    have hkind : (member.wrapped s.here).kind = .parenthesized := Cursor.kind_wrapped_of_here h
    have hnone := s.kind_of_here_inBody hc hmember h
    have hold : TypeDecl.membersOf doc.source member.focus = [] := by
      apply membersOf_eq_nil
      · intro heq
        exact hnone (by rw [heq]; decide)
      · intro heq
        exact hnone (by rw [heq]; decide)
    have hnew : TypeDecl.membersOf doc.source (member.wrapped s.here).focus = [] := by
      apply membersOf_eq_nil
      · rw [hkind]
        decide
      · rw [hkind]
        decide
    rw [hold, hnew]

theorem methodOf?_wrapped (owner : String) {c member : Cursor} (hc : c.kind.declaresType = true)
    (hmember : member ∈ c.inBody) :
    TypeDecl.methodOf? doc.source owner (member.wrapped s.here).focus
      = TypeDecl.methodOf? doc.source owner member.focus := by
  cases h : s.here member with
  | false => rw [wrapped_eq_moved h, s.methodOf?_moved]
  | true =>
    have hnone : member.kind ≠ .methodDeclaration := by
      intro hkind
      exact s.kind_of_here_inBody hc hmember h (by rw [hkind]; decide)
    rw [TypeDecl.methodOf?_focus, TypeDecl.methodOf?_focus, Cursor.kind_wrapped_of_here h,
      if_neg (by decide), if_neg hnone]

/-- A declaration of a type says the same. -/
theorem typeDecl_moved (c : Cursor) :
    TypeDecl.ofTree? doc.source (c.moved s.here).focus = TypeDecl.ofTree? doc.source c.focus := by
  have hkind : (c.moved s.here).focus.kind = c.focus.kind := c.kind_moved
  unfold TypeDecl.ofTree?
  rw [hkind]
  split
  · next htype =>
    have hplain : c.kind.holdsOperand = false := by
      have htype : c.kind.declaresType = true := htype
      revert htype
      cases c.kind <;> simp [Kind.declaresType, Kind.holdsOperand]
    have hmembers : (TypeDecl.bodyOf (c.moved s.here).focus).flatMap
          (TypeDecl.membersOf doc.source)
        = (TypeDecl.bodyOf c.focus).flatMap (TypeDecl.membersOf doc.source) := by
      rw [TypeDecl.bodyOf_focus, TypeDecl.bodyOf_focus, s.inBody_moved hplain, List.flatMap_map,
        List.flatMap_map, List.flatMap_map]
      exact List.flatMap_congr fun member hmember => s.membersOf_wrapped doc htype hmember
    have hmethods : ∀ owner, (TypeDecl.bodyOf (c.moved s.here).focus).filterMap
          (TypeDecl.methodOf? doc.source owner)
        = (TypeDecl.bodyOf c.focus).filterMap (TypeDecl.methodOf? doc.source owner) := by
      intro owner
      rw [TypeDecl.bodyOf_focus, TypeDecl.bodyOf_focus, s.inBody_moved hplain, List.filterMap_map,
        List.filterMap_map, List.filterMap_map]
      exact List.filterMap_congr fun member hmember =>
        s.methodOf?_wrapped doc owner htype hmember
    rw [TypeDecl.basesOf_focus, TypeDecl.basesOf_focus, s.baseNames_moved doc hplain, hmembers,
      Cursor.child?_focus, Cursor.child?_focus, child?_moved hplain]
    simp only [Option.map_map, Function.comp_def, hmethods, text_moved]
  · rfl

theorem typeDecl_of_parenthesized {c : Cursor} (h : c.kind = .parenthesized) :
    TypeDecl.ofTree? doc.source c.focus = none := by
  have hkind : c.focus.kind = .parenthesized := h
  unfold TypeDecl.ofTree?
  rw [hkind]
  rfl

end Insertion

/-- The document with some nodes of its tree in parentheses; the text and
all positions stay. -/
def Document.parenthesize (doc : Document) (here : Cursor → Bool) : Document :=
  { doc with tree := doc.tree.parenthesize here }

/-- Parentheses declare nothing, and change nothing of what is declared. -/
theorem Document.declarations_parenthesize (doc : Document) (s : Insertion) :
    (doc.parenthesize s.here).declarations = doc.declarations := by
  show (doc.tree.parenthesize s.here).visit.filterMap
    (fun c => TypeDecl.ofTree? doc.source c.focus) = doc.tree.visit.filterMap _
  rw [Tree.visit_parenthesize, List.filterMap_flatMap, List.filterMap_eq_flatMap_toList]
  refine List.flatMap_congr fun c _ => ?_
  have hmoved : [c.moved s.here].filterMap (fun c => TypeDecl.ofTree? doc.source c.focus)
      = (TypeDecl.ofTree? doc.source c.focus).toList := by
    rw [List.filterMap_cons, s.typeDecl_moved]
    cases TypeDecl.ofTree? doc.source c.focus with
    | none => rfl
    | some d => rfl
  unfold Cursor.images
  split
  · next h =>
    have hparens := Insertion.typeDecl_of_parenthesized doc (Cursor.kind_wrapped_of_here h)
    rw [List.filterMap_cons, hparens]
    exact hmoved
  · exact hmoved

end QueryLint
