/-
Which locals a name can see. A block, and the head of a `for`, `using`
or `fixed`, answer a use from one declarator, and `declarator?` tells
which. The search skips a declarator that the use is in, and in a block
it stops at the first statement that does not begin before the use. So
it never answers from a later statement; but inside the statement that
declares, nothing compares the use with the declarator, and in the head
of a statement nothing does at all.

What is left is `local_seen_from_behind_or_own_statement`: a declarator
ends before every use that it answers, unless the use stands in the
declaring statement itself, in front of the declarator. The exception is
real: in `int a=b,b=1;` the first `b` is answered from the second
declarator (`later_declarator_seen`).
-/
import QueryLint.Proofs.Resolve.Trail

namespace QueryLint

namespace Model

variable (m : Model)

-- ================================================== the declarator that answers

/-- The declarator of a declaration that answers a use. -/
def declaratorIn? (declaration : Cursor) (use : Use) : Option Cursor :=
  (declaration.namedOfKind .variableDeclarator).find? (m.declares · use)

/-- The one among the declarations directly in a node. -/
def declaratorInHead? (scope : Cursor) (use : Use) : Option Cursor :=
  (scope.namedOfKind .variableDeclaration).findSome? (m.declaratorIn? · use)

/-- The one among the statements of a block that begin before the use. -/
def declaratorInBlock? (scope : Cursor) (use : Use) : Option Cursor :=
  (scope.namedChildren.takeWhile (decide <| ·.start < use.offset)).findSome? fun statement =>
    if statement.kind = .localDeclaration then m.declaratorInHead? statement use else none

/-- The declarator that a scope answers a use from, if it does so from
one. -/
def declarator? (scope : Cursor) (use : Use) : Option Cursor :=
  if scope.kind = .block then m.declaratorInBlock? scope use
  else if scope.kind.declaresInHead then m.declaratorInHead? scope use
  else none

/-- What a declarator of a declaration says of its name: the type that
is written, or else that of the initializer. -/
def answer (declaration declarator : Cursor) : Binding :=
  match m.declared? declaration with
  | some type => .typed (some type)
  | none =>
    match declarator.declarator.value with
    | some value => .typeOf value
    | none => .typed none

variable {m}

theorem parent?_of_declaratorIn? {declaration d : Cursor} {use : Use}
    (h : m.declaratorIn? declaration use = some d) : d.parent? = some declaration :=
  Cursor.parent?_of_mem_namedOfKind (List.mem_of_find?_eq_some h)

/-- A search for an answer goes along with a search for what it comes
from, where that always gives an answer. -/
theorem findSome?_eq_bind {α β γ : Type} {f : α → Option γ} {g : α → Option β}
    {answer : β → Option γ} {xs : List α} (hf : ∀ x ∈ xs, f x = (g x).bind answer)
    (hanswer : ∀ x ∈ xs, ∀ y, g x = some y → (answer y).isSome = true) :
    xs.findSome? f = (xs.findSome? g).bind answer := by
  induction xs with
  | nil => rfl
  | cons x xs ih =>
    rw [List.findSome?_cons, List.findSome?_cons, hf x List.mem_cons_self]
    cases hx : g x with
    | none =>
      exact ih (fun y hy => hf y (List.mem_cons_of_mem x hy))
        (fun y hy => hanswer y (List.mem_cons_of_mem x hy))
    | some y =>
      obtain ⟨z, hz⟩ := Option.isSome_iff_exists.1 (hanswer x List.mem_cons_self y hx)
      simp [hz]

theorem inHead_eq_bind (scope : Cursor) (use : Use) :
    m.inHead scope use
      = (m.declaratorInHead? scope use).bind fun d => d.parent?.map (m.answer · d) := by
  apply findSome?_eq_bind
  · intro declaration _
    show (m.declaratorIn? declaration use).map (m.answer declaration) = _
    cases hd : m.declaratorIn? declaration use with
    | none => rfl
    | some d => simp [parent?_of_declaratorIn? hd]
  · intro declaration _ d hd
    simp [parent?_of_declaratorIn? hd]

theorem inBlock_eq_bind (scope : Cursor) (use : Use) :
    m.inBlock scope use
      = (m.declaratorInBlock? scope use).bind fun d => d.parent?.map (m.answer · d) := by
  apply findSome?_eq_bind
  · intro statement _
    by_cases hkind : statement.kind = .localDeclaration
    · simp only [if_pos hkind, inHead_eq_bind]
    · simp only [if_neg hkind, Option.bind_none]
  · intro statement _ d hd
    split at hd
    case isFalse => cases hd
    case isTrue =>
      obtain ⟨declaration, -, hin⟩ := List.exists_of_findSome?_eq_some hd
      simp [parent?_of_declaratorIn? hin]

/-- Where there is a declarator to answer from, the scope answers what it
says. -/
theorem binding?_of_declarator? {scope d : Cursor} {use : Use}
    (h : m.declarator? scope use = some d) :
    m.binding? scope use = d.parent?.map (m.answer · d) := by
  unfold declarator? at h
  unfold binding?
  by_cases hblock : scope.kind = .block
  · rw [if_pos hblock] at h
    simp [hblock, Kind.declaresCallable, inBlock_eq_bind, h]
  · rw [if_neg hblock] at h
    by_cases hhead : scope.kind.declaresInHead = true
    · rw [if_pos hhead] at h
      have hkind : scope.kind ≠ .lambda ∧ scope.kind.declaresCallable = false
          ∧ scope.kind ≠ .forEachStatement := by
        revert hhead
        cases scope.kind <;> simp [Kind.declaresInHead, Kind.declaresCallable]
      simp [hkind, hblock, hhead, inHead_eq_bind, h]
    · rw [if_neg hhead] at h
      cases h

-- ==================================================== where it stands

/-- A declarator that answers is one of the statement's, and the use is
not in it. -/
theorem exists_declaration_of_declaratorInHead? {statement d : Cursor} {use : Use}
    (h : m.declaratorInHead? statement use = some d) :
    ∃ declaration, d.parent? = some declaration ∧ declaration.parent? = some statement
      ∧ d.covers use.offset = false := by
  obtain ⟨declaration, hmem, hd⟩ := List.exists_of_findSome?_eq_some h
  have hdeclares := List.find?_some hd
  unfold declares at hdeclares
  simp only [Bool.and_eq_true, Bool.not_eq_true'] at hdeclares
  exact ⟨declaration, parent?_of_declaratorIn? hd,
    Cursor.parent?_of_mem_namedOfKind hmem, hdeclares.1⟩

/-- The statement that declares is the scope itself, or one of a block
that begins before the use. -/
theorem exists_statement_of_declarator? {scope d : Cursor} {use : Use}
    (h : m.declarator? scope use = some d) :
    ∃ declaration statement, d.parent? = some declaration
      ∧ declaration.parent? = some statement ∧ d.covers use.offset = false
      ∧ ((statement = scope ∧ statement.kind.declaresInHead = true)
        ∨ (statement.parent? = some scope ∧ statement.kind = .localDeclaration
          ∧ statement.start < use.offset)) := by
  unfold declarator? at h
  split at h
  · obtain ⟨statement, hmem, hs⟩ := List.exists_of_findSome?_eq_some h
    split at hs
    case isFalse => cases hs
    case isTrue hkind =>
      obtain ⟨declaration, hd, hdeclaration, hcovers⟩ :=
        exists_declaration_of_declaratorInHead? hs
      have hstart : statement.start < use.offset := by
        simpa using List.mem_takeWhile_imp hmem
      exact ⟨declaration, statement, hd, hdeclaration, hcovers, .inr
        ⟨Cursor.parent?_of_mem_namedChildren (List.takeWhile_subset _ hmem), hkind, hstart⟩⟩
  · split at h
    case isFalse => cases h
    case isTrue hhead =>
      obtain ⟨declaration, hd, hdeclaration, hcovers⟩ :=
        exists_declaration_of_declaratorInHead? h
      exact ⟨declaration, scope, hd, hdeclaration, hcovers, .inl ⟨rfl, hhead⟩⟩

end Model

/-- On the way from a node up to one around it there is a child of the
latter. -/
theorem Cursor.exists_child_of_mem_ancestors {c a : Cursor} (h : a ∈ c.ancestors) :
    ∃ e, e.parent? = some a ∧ (e = c ∨ e ∈ c.ancestors) := by
  obtain ⟨t, path⟩ := c
  induction path generalizing t with
  | nil => cases h
  | cons f up ih =>
    rcases List.mem_cons.1 h with rfl | h
    · exact ⟨⟨t, f :: up⟩, rfl, .inl rfl⟩
    · obtain ⟨e, hparent, he⟩ := ih _ h
      refine ⟨e, hparent, .inr ?_⟩
      rcases he with rfl | he
      · exact List.mem_cons_self
      · exact List.mem_cons_of_mem _ he

/-- A child of a node around a name that begins before the name is around
the name too, or ends before it. -/
theorem Tree.Ranged.around_or_before {u scope statement : Cursor} (hr : u.top.Ranged)
    (hu : u.kind = .identifier) (hscope : scope ∈ u.ancestors)
    (hparent : statement.parent? = some scope) (hstart : statement.start < u.start) :
    statement ∈ u.ancestors ∨ statement.stop ≤ u.start := by
  obtain ⟨e, heparent, he⟩ := Cursor.exists_child_of_mem_ancestors hscope
  have hnonempty := hr.identifier_nonempty u u.mem_documentOrder_top hu
  have hinside : e.start ≤ u.start ∧ u.stop ≤ e.stop := by
    rcases he with rfl | he
    · omega
    · exact hr.enclosed he
  have hnode : scope ∈ u.top.documentOrder :=
    Tree.mem_documentOrder_iff.2 (Cursor.top_eq_of_mem_ancestors hscope)
  have hmem := Cursor.mem_children_iff.2 hparent
  have hmem' := Cursor.mem_children_iff.2 heparent
  rcases Nat.lt_trichotomy statement.place e.place with hlt | heq | hgt
  · have := Cursor.rel_of_place_lt (hr.ordered scope hnode) hmem hmem' hlt
    exact .inr (by omega)
  · have hsame := Cursor.eq_of_place_eq hmem hmem' heq
    subst hsame
    rcases he with rfl | he
    · omega
    · exact .inl he
  · -- behind the child that the name is in, everything begins behind the name
    have := Cursor.rel_of_place_lt (hr.ordered scope hnode) hmem' hmem hgt
    omega

/-- In a tree whose ranges fit: whenever a scope around a name answers it
from a declarator, that is what the scope answers, and the declarator
ends before the name begins, unless the name stands in the statement
that declares and in front of the declarator. -/
theorem local_seen_from_behind_or_own_statement (m : Model) (u scope d : Cursor)
    (hranged : u.top.Ranged) (hu : u.kind = .identifier) (hscope : scope ∈ u.ancestors)
    (h : m.declarator? scope ⟨m.text u, u.start⟩ = some d) :
    ∃ declaration statement, d.parent? = some declaration
      ∧ declaration.parent? = some statement
      ∧ m.binding? scope ⟨m.text u, u.start⟩ = some (m.answer declaration d)
      ∧ (d.stop ≤ u.start
        ∨ (u.start < d.start ∧ statement ∈ u.ancestors
          ∧ (statement.kind = .localDeclaration ∨ statement.kind.declaresInHead = true))) := by
  obtain ⟨declaration, statement, hd, hdeclaration, hcovers, hstatement⟩ :=
    Model.exists_statement_of_declarator? h
  have hbinding := Model.binding?_of_declarator? h
  rw [hd, Option.map_some] at hbinding
  refine ⟨declaration, statement, hd, hdeclaration, hbinding, ?_⟩
  have houtside : u.start < d.start ∨ d.stop ≤ u.start := by
    simp only [Cursor.covers, Bool.and_eq_false_iff, decide_eq_false_iff_not] at hcovers
    omega
  rcases houtside with hfront | hbehind
  · rcases hstatement with ⟨rfl, hkind⟩ | ⟨hparent, hkind, hstart⟩
    · exact .inr ⟨hfront, hscope, .inr hkind⟩
    · rcases hranged.around_or_before hu hscope hparent hstart with haround | hbefore
      · exact .inr ⟨hfront, haround, .inl hkind⟩
      · -- an earlier statement, and the declarator is in it
        have htop : d.top = u.top := by
          rw [Cursor.top_eq_of_parent? hd, Cursor.top_eq_of_parent? hdeclaration,
            Cursor.top_eq_of_parent? hparent, Cursor.top_eq_of_mem_ancestors hscope]
        have haround : statement ∈ d.ancestors := by
          rw [Cursor.ancestors_of_parent? hd, Cursor.ancestors_of_parent? hdeclaration]
          simp
        have := Tree.Ranged.enclosed (c := d) (by rw [htop]; exact hranged) haround
        exact .inl (by omega)
  · exact .inl hbehind

/-- The node of a given index; the root if there is none. -/
def Tree.nodeAt (t : Tree) (i : Nat) : Cursor := t.documentOrder.getD i t.root

theorem Tree.nodeAt_mem (t : Tree) (i : Nat) : t.nodeAt i ∈ t.documentOrder := by
  unfold nodeAt
  rw [List.getD_eq_getElem?_getD]
  cases h : t.documentOrder[i]? with
  | none => exact mem_documentOrder_iff.2 rfl
  | some c => exact List.mem_of_getElem? h

/-- In the sample, the name that the chain starts from is answered by the
block around it, from the declarator before it. -/
theorem sample_local_seen_from_behind :
    ∃ u ∈ Document.sample.tree.documentOrder, ∃ scope ∈ u.ancestors, ∃ d : Cursor,
      Document.sample.tree.Ranged ∧ u.kind = .identifier
        ∧ (Model.mk ⟨[]⟩ Document.sample.source).declarator? scope
            ⟨Document.sample.text u, u.start⟩ = some d
        ∧ d.stop ≤ u.start := by
  let m : Model := ⟨⟨[]⟩, Document.sample.source⟩
  let u := Document.sample.tree.nodeAt 30
  have hranged : Document.sample.tree.Ranged := by decide +kernel
  have hkind : u.kind = .identifier := by decide +kernel
  have hu : u.start = 36 := by decide +kernel
  have hanswer : (u.ancestors.findSome? (m.declarator? · ⟨m.text u, u.start⟩)).map Cursor.start
      = some 31 := by decide +kernel
  obtain ⟨d, hfind, hdstart⟩ := Option.map_eq_some_iff.1 hanswer
  obtain ⟨scope, hscope, hd⟩ := List.exists_of_findSome?_eq_some hfind
  have hmem := Document.sample.tree.nodeAt_mem 30
  obtain ⟨_, _, -, -, -, hseen⟩ := local_seen_from_behind_or_own_statement m u scope d
    ((Tree.mem_documentOrder_iff.1 hmem).symm ▸ hranged) hkind hscope hd
  refine ⟨u, hmem, scope, hscope, d, hranged, hkind, hd, ?_⟩
  rcases hseen with hbehind | ⟨hfront, -⟩
  · exact hbehind
  · omega

/-- Where one statement declares two variables, the name in the first
initializer is answered from the second declarator, which begins behind
it. -/
theorem later_declarator_seen :
    Document.twoDeclarators.tree.Ranged
      ∧ ∃ u ∈ Document.twoDeclarators.tree.documentOrder, ∃ scope ∈ u.ancestors, ∃ d : Cursor,
        u.kind = .identifier
          ∧ (Model.mk (.ofDocuments [.twoDeclarators]) Document.twoDeclarators.source).declarator?
              scope ⟨Document.twoDeclarators.text u, u.start⟩ = some d
          ∧ u.start < d.start ∧ ¬ d.stop ≤ u.start
          ∧ (Model.mk (.ofDocuments [.twoDeclarators]) Document.twoDeclarators.source).resolve u
            = .ok (some (.plain "Int32")) := by
  let m : Model := ⟨.ofDocuments [.twoDeclarators], Document.twoDeclarators.source⟩
  let u := Document.twoDeclarators.tree.nodeAt 20
  have hanswer : (u.ancestors.findSome? (m.declarator? · ⟨m.text u, u.start⟩)).map
      (fun d => (d.start, d.stop)) = some (25, 28) := by decide +kernel
  obtain ⟨d, hfind, hrange⟩ := Option.map_eq_some_iff.1 hanswer
  obtain ⟨scope, hscope, hd⟩ := List.exists_of_findSome?_eq_some hfind
  obtain ⟨hdstart, hdstop⟩ := Prod.mk.inj hrange
  have hu : u.start = 23 := by decide +kernel
  refine ⟨by decide +kernel, u, Tree.nodeAt_mem _ _, scope, hscope, d, by decide +kernel, hd,
    by omega, by omega, by with_unfolding_all rfl⟩

end QueryLint
