/-
Where the value of a variable stands. A binding either writes a type or
sends the search on to an expression: the initializer of a declarator or
the collection of a `foreach`. `Offers scope holder guard value` lists
the three places in which a scope has such an expression:

- a block offers the initializers of its local declarations; the holder
  is the statement, the guard the declarator;
- a `for`, `using` or `fixed` offers those of the declaration in its
  head; the holder is the declaration;
- a `foreach` offers its collection, which is holder and guard itself.

The holder is always a child of the scope, and the value is at or below
the guard. A use inside the guard is never answered from it, and in a
block the holder has to begin before the use: `exists_offers_of_binding?`
says that these are all the answers there are. `Offers` says nothing of
names, so it is coarser than the search, and exact enough for where a
resolution can go.
-/
import Mathlib.Data.List.TakeWhile
import QueryLint.Proofs.Tree.WellFormed
import QueryLint.Scope

namespace QueryLint

-- ============================================================= declarators

/-- What a declarator's value can be: a part on the way, or the inside of
a clause on the way. -/
theorem Declarator.value_of_scan {α : Type} {tree : α → Tree} {inner : α → Option α}
    {p : Progress α} {xs : List α} {v : α} (h : (scan tree inner p xs).value = some v) :
    p.parts.value = some v ∨ (v ∈ xs ∧ (tree v).label.counts = true)
      ∨ ∃ x ∈ xs, (tree x).kind = .equalsValueClause ∧ inner x = some v := by
  induction xs generalizing p with
  | nil => exact .inl h
  | cons x rest ih =>
    have hrest : ∀ q : Progress α, (scan tree inner q rest).value = some v →
        q.parts.value = some v ∨ (v ∈ x :: rest ∧ (tree v).label.counts = true)
          ∨ ∃ y ∈ x :: rest, (tree y).kind = .equalsValueClause ∧ inner y = some v := by
      intro q hq
      rcases ih hq with hv | ⟨hv, hcounts⟩ | ⟨y, hy, hclause⟩
      · exact .inl hv
      · exact .inr (.inl ⟨List.mem_cons_of_mem x hv, hcounts⟩)
      · exact .inr (.inr ⟨y, List.mem_cons_of_mem x hy, hclause⟩)
    unfold scan at h
    split at h
    · -- the name
      have hv := hrest _ h
      exact hv
    · split at h
      · -- a clause
        next hclause =>
        rcases hrest _ h with hv | hv
        · exact .inr (.inr ⟨x, List.mem_cons_self, by simpa using hclause, hv⟩)
        · exact .inr hv
      · split at h
        · -- the equals sign
          have hv := hrest _ h
          exact hv
        · split at h
          · -- the value itself
            next hpart =>
            have hv : x = v := by simpa using h
            subst hv
            exact .inr (.inl ⟨List.mem_cons_self, (Bool.and_eq_true_iff.1 hpart).2⟩)
          · exact hrest _ h

/-- The value of a declarator is a child of it, or a child of a clause
that is. -/
theorem Cursor.parent?_of_value {c v : Cursor} (h : c.declarator.value = some v) :
    v.parent? = some c
      ∨ ∃ clause, clause.parent? = some c ∧ clause.kind = .equalsValueClause
          ∧ v.parent? = some clause := by
  rcases Declarator.value_of_scan h with hv | ⟨hv, -⟩ | ⟨clause, hmem, hkind, hinner⟩
  · cases hv
  · exact .inl (mem_children_iff.1 hv)
  · exact .inr ⟨clause, mem_children_iff.1 hmem, hkind,
      parent?_of_mem_namedChildren (List.mem_of_head? hinner)⟩

-- ================================================================== offers

/-- The expression that a binding takes its type from, if it does. -/
def Binding.value? : Binding → Option Cursor
  | .typed _ => none
  | .typeOf value => some value
  | .elementOf collection => some collection

/-- The places in which a scope holds expressions that variables take
their types from. -/
inductive Offers (scope : Cursor) : (holder guard value : Cursor) → Prop
  | inBlock {statement declaration declarator value : Cursor}
      (hscope : scope.kind = .block) (hstatement : statement ∈ scope.namedChildren)
      (hkind : statement.kind = .localDeclaration)
      (hdeclaration : declaration ∈ statement.namedOfKind .variableDeclaration)
      (hdeclarator : declarator ∈ declaration.namedOfKind .variableDeclarator)
      (hvalue : declarator.declarator.value = some value) :
      Offers scope statement declarator value
  | inHead {declaration declarator value : Cursor}
      (hscope : scope.kind.declaresInHead = true)
      (hdeclaration : declaration ∈ scope.namedOfKind .variableDeclaration)
      (hdeclarator : declarator ∈ declaration.namedOfKind .variableDeclarator)
      (hvalue : declarator.declarator.value = some value) :
      Offers scope declaration declarator value
  | inForEach {collection : Cursor} (hscope : scope.kind = .forEachStatement)
      (hcollection : scope.child? .right = some collection) :
      Offers scope collection collection collection

namespace Model

variable (m : Model)

/-- Which declarator a declaration answers from. -/
theorem exists_declarator_of_inVariables {declaration value : Cursor} {use : Use} {b : Binding}
    (h : m.inVariables declaration use = some b) (hvalue : b.value? = some value) :
    ∃ declarator ∈ declaration.namedOfKind .variableDeclarator,
      declarator.declarator.value = some value ∧ declarator.covers use.offset = false := by
  unfold inVariables at h
  obtain ⟨d, hfind, hb⟩ := Option.map_eq_some_iff.1 h
  have hdeclares := List.find?_some hfind
  have hcovers : d.covers use.offset = false := by
    unfold declares at hdeclares
    simp only [Bool.and_eq_true, Bool.not_eq_true'] at hdeclares
    exact hdeclares.1
  refine ⟨d, List.mem_of_find?_eq_some hfind, ?_, hcovers⟩
  split at hb
  · subst hb
    cases hvalue
  · split at hb
    · next v hv =>
      subst hb
      cases hvalue
      exact hv
    · subst hb
      cases hvalue

theorem exists_declarator_of_inHead {scope value : Cursor} {use : Use} {b : Binding}
    (h : m.inHead scope use = some b) (hvalue : b.value? = some value) :
    ∃ declaration ∈ scope.namedOfKind .variableDeclaration,
      ∃ declarator ∈ declaration.namedOfKind .variableDeclarator,
        declarator.declarator.value = some value ∧ declarator.covers use.offset = false := by
  obtain ⟨declaration, hmem, hd⟩ := List.exists_of_findSome?_eq_some h
  exact ⟨declaration, hmem, m.exists_declarator_of_inVariables hd hvalue⟩

/-- Parameters write their types. -/
theorem value?_of_inParameters {parameters : List Cursor} {use : Use} {b : Binding}
    (h : m.inParameters parameters use = some b) : b.value? = none := by
  obtain ⟨p, -, hb⟩ := Option.map_eq_some_iff.1 h
  rw [← hb]
  rfl

theorem value?_of_inLambda {scope : Cursor} {use : Use} {b : Binding}
    (h : m.inLambda scope use = some b) : b.value? = none := by
  unfold inLambda at h
  split at h
  · exact m.value?_of_inParameters h
  · split at h
    · split at h
      · cases h
        rfl
      · cases h
    · cases h

theorem value?_of_inCallable {scope : Cursor} {use : Use} {b : Binding}
    (h : m.inCallable scope use = some b) : b.value? = none := by
  unfold inCallable at h
  split at h
  · cases h
  · exact m.value?_of_inParameters h

theorem value?_of_inType {scope : Cursor} {use : Use} {b : Binding}
    (h : m.inType scope use = some b) : b.value? = none := by
  unfold inType at h
  split at h
  · cases h
  · obtain ⟨t, -, hb⟩ := Option.map_eq_some_iff.1 h
    rw [← hb]
    rfl

theorem exists_offers_of_inBlock {scope value : Cursor} {use : Use} {b : Binding}
    (hscope : scope.kind = .block) (h : m.inBlock scope use = some b)
    (hvalue : b.value? = some value) :
    ∃ holder guard, Offers scope holder guard value ∧ guard.covers use.offset = false
      ∧ holder.start < use.offset := by
  obtain ⟨statement, hmem, hs⟩ := List.exists_of_findSome?_eq_some h
  split at hs
  case isFalse => cases hs
  case isTrue hkind =>
    obtain ⟨declaration, hdeclaration, declarator, hdeclarator, hv, hcovers⟩ :=
      m.exists_declarator_of_inHead hs hvalue
    have hstart : statement.start < use.offset := by
      simpa using List.mem_takeWhile_imp hmem
    exact ⟨statement, declarator, .inBlock hscope (List.takeWhile_subset _ hmem) hkind
      hdeclaration hdeclarator hv, hcovers, hstart⟩

theorem exists_offers_of_inForEach {scope value : Cursor} {use : Use} {b : Binding}
    (hscope : scope.kind = .forEachStatement) (h : m.inForEach scope use = some b)
    (hvalue : b.value? = some value) :
    Offers scope value value value ∧ value.covers use.offset = false := by
  unfold inForEach at h
  split at h
  · cases h
  · split at h
    · cases h
    · split at h
      · cases h
        cases hvalue
      · next collection hcollection =>
        split at h
        · cases h
        · next hcovers =>
          split at h
          · cases h
            cases hvalue
          · cases h
            cases hvalue
            exact ⟨.inForEach hscope hcollection, by simpa using hcovers⟩

/-- Whenever a scope sends the search on, it offers the expression, the
use is outside the guard, and in a block behind the beginning of the
holder. -/
theorem exists_offers_of_binding? {scope value : Cursor} {use : Use} {b : Binding}
    (h : m.binding? scope use = some b) (hvalue : b.value? = some value) :
    ∃ holder guard, Offers scope holder guard value ∧ guard.covers use.offset = false
      ∧ (scope.kind = .block → holder.start < use.offset) := by
  unfold binding? at h
  split at h
  · rw [m.value?_of_inLambda h] at hvalue
    cases hvalue
  split at h
  · rw [m.value?_of_inCallable h] at hvalue
    cases hvalue
  split at h
  · next hblock =>
    obtain ⟨holder, guard, hoffers, hcovers, hstart⟩ :=
      m.exists_offers_of_inBlock hblock h hvalue
    exact ⟨holder, guard, hoffers, hcovers, fun _ => hstart⟩
  split at h
  · next hblock heach =>
    obtain ⟨hoffers, hcovers⟩ := m.exists_offers_of_inForEach heach h hvalue
    exact ⟨value, value, hoffers, hcovers, fun hb => absurd hb hblock⟩
  split at h
  · next hblock _ hhead =>
    obtain ⟨declaration, hdeclaration, declarator, hdeclarator, hv, hcovers⟩ :=
      m.exists_declarator_of_inHead h hvalue
    exact ⟨declaration, declarator, .inHead hhead hdeclaration hdeclarator hv, hcovers,
      fun hb => absurd hb hblock⟩
  split at h
  · rw [m.value?_of_inType h] at hvalue
    cases hvalue
  · cases h

end Model

-- ======================================================== innermost scopes

/-- The kinds of nodes that may bind names for what is in them. -/
def Kind.opensScope (k : Kind) : Bool :=
  k == .lambda || k.declaresCallable || k == .block || k == .forEachStatement
    || k.declaresInHead || k.declaresType

theorem Model.opensScope_of_binding? {m : Model} {scope : Cursor} {use : Use} {b : Binding}
    (h : m.binding? scope use = some b) : scope.kind.opensScope = true := by
  unfold Model.binding? at h
  unfold Kind.opensScope
  simp only [Bool.or_eq_true, beq_iff_eq]
  by_cases h₁ : scope.kind = .lambda
  · simp only [h₁, true_or]
  by_cases h₂ : scope.kind.declaresCallable = true
  · simp only [h₂, or_true, true_or]
  by_cases h₃ : scope.kind = .block
  · simp only [h₃, or_true, true_or]
  by_cases h₄ : scope.kind = .forEachStatement
  · simp only [h₄, or_true, true_or]
  by_cases h₅ : scope.kind.declaresInHead = true
  · simp only [h₅, or_true, true_or]
  by_cases h₆ : scope.kind.declaresType = true
  · simp only [h₆, or_true]
  · rw [if_neg h₁, if_neg h₂, if_neg h₃, if_neg h₄, if_neg h₅, if_neg h₆] at h
    cases h

namespace Cursor

/-- The innermost node around a node that may bind names. -/
def scope? (c : Cursor) : Option Cursor := c.ancestors.find? (·.kind.opensScope)

theorem scope?_of_opensScope {c d : Cursor} (hparent : d.parent? = some c)
    (hc : c.kind.opensScope = true) : d.scope? = some c := by
  unfold scope?
  rw [ancestors_of_parent? hparent, List.find?_cons, hc]

theorem scope?_of_not_opensScope {c d : Cursor} (hparent : d.parent? = some c)
    (hc : c.kind.opensScope = false) : d.scope? = c.scope? := by
  unfold scope?
  rw [ancestors_of_parent? hparent, List.find?_cons, hc]

/-- Every scope around a node is the innermost one or around that. -/
theorem eq_or_mem_ancestors_of_scope? {c scope a : Cursor} (hscope : c.scope? = some scope)
    (ha : a ∈ c.ancestors) (hopens : a.kind.opensScope = true) :
    a = scope ∨ a ∈ scope.ancestors := by
  obtain ⟨t, path⟩ := c
  induction path generalizing t with
  | nil => cases ha
  | cons f up ih =>
    have hparent : parent? ⟨t, f :: up⟩ = some ⟨f.plug t, up⟩ := rfl
    rw [ancestors_of_parent? hparent] at ha
    cases hopen : (kind ⟨f.plug t, up⟩).opensScope with
    | true =>
      rw [scope?_of_opensScope hparent hopen] at hscope
      cases hscope
      exact List.mem_cons.1 ha
    | false =>
      rw [scope?_of_not_opensScope hparent hopen] at hscope
      rcases List.mem_cons.1 ha with heq | ha
      · rw [heq, hopen] at hopens
        cases hopens
      · exact ih _ hscope ha

end Cursor

-- ===================================================== the shape of an offer

namespace Offers

variable {scope holder guard value : Cursor}

theorem parent?_holder (h : Offers scope holder guard value) : holder.parent? = some scope := by
  cases h with
  | inBlock _ hstatement _ _ _ _ => exact Cursor.parent?_of_mem_namedChildren hstatement
  | inHead _ hdeclaration _ _ => exact Cursor.parent?_of_mem_namedOfKind hdeclaration
  | inForEach _ hcollection => exact Cursor.parent?_of_child? hcollection

theorem opensScope (h : Offers scope holder guard value) : scope.kind.opensScope = true := by
  unfold Kind.opensScope
  cases h with
  | inBlock hscope _ _ _ _ _ => rw [hscope]; rfl
  | inHead hscope _ _ _ => rw [hscope, Bool.or_true, Bool.true_or]
  | inForEach hscope _ => rw [hscope]; rfl

/-- The initializer of a declarator is below it, with no scope between. -/
theorem below_declarator {declarator : Cursor} (hkind : declarator.kind = .variableDeclarator)
    (hvalue : declarator.declarator.value = some value) :
    declarator ∈ value.ancestors ∧ value.scope? = declarator.scope? := by
  have hdeclarator : declarator.kind.opensScope = false := by
    rw [hkind]
    rfl
  rcases Cursor.parent?_of_value hvalue with hparent | ⟨clause, hclause, hckind, hparent⟩
  · refine ⟨?_, Cursor.scope?_of_not_opensScope hparent hdeclarator⟩
    rw [Cursor.ancestors_of_parent? hparent]
    exact List.mem_cons_self
  · have hopen : clause.kind.opensScope = false := by
      rw [hckind]
      rfl
    refine ⟨?_, ?_⟩
    · rw [Cursor.ancestors_of_parent? hparent, Cursor.ancestors_of_parent? hclause]
      exact List.mem_cons_of_mem _ List.mem_cons_self
    · rw [Cursor.scope?_of_not_opensScope hparent hopen,
        Cursor.scope?_of_not_opensScope hclause hdeclarator]

/-- The guard is at or around the value. -/
theorem guard_mem (h : Offers scope holder guard value) :
    guard = value ∨ guard ∈ value.ancestors := by
  cases h with
  | inBlock _ _ _ _ hdeclarator hvalue =>
    exact .inr (below_declarator (Cursor.kind_of_mem_namedOfKind hdeclarator) hvalue).1
  | inHead _ _ hdeclarator hvalue =>
    exact .inr (below_declarator (Cursor.kind_of_mem_namedOfKind hdeclarator) hvalue).1
  | inForEach _ _ => exact .inl rfl

/-- The holder is at or around the guard. -/
theorem holder_mem (h : Offers scope holder guard value) :
    holder = guard ∨ holder ∈ guard.ancestors := by
  cases h with
  | inBlock _ _ _ hdeclaration hdeclarator _ =>
    rw [Cursor.ancestors_of_parent? (Cursor.parent?_of_mem_namedOfKind hdeclarator),
      Cursor.ancestors_of_parent? (Cursor.parent?_of_mem_namedOfKind hdeclaration)]
    exact .inr (List.mem_cons_of_mem _ List.mem_cons_self)
  | inHead _ _ hdeclarator _ =>
    rw [Cursor.ancestors_of_parent? (Cursor.parent?_of_mem_namedOfKind hdeclarator)]
    exact .inr List.mem_cons_self
  | inForEach _ _ => exact .inl rfl

/-- Between a value and the scope that offers it there is no other. -/
theorem scope?_value (h : Offers scope holder guard value) : value.scope? = some scope := by
  have hopens := h.opensScope
  cases h with
  | inBlock _ hstatement hkind hdeclaration hdeclarator hvalue =>
    rw [(below_declarator (Cursor.kind_of_mem_namedOfKind hdeclarator) hvalue).2,
      Cursor.scope?_of_not_opensScope (Cursor.parent?_of_mem_namedOfKind hdeclarator)
        (by rw [Cursor.kind_of_mem_namedOfKind hdeclaration]; rfl),
      Cursor.scope?_of_not_opensScope (Cursor.parent?_of_mem_namedOfKind hdeclaration)
        (by rw [hkind]; rfl)]
    exact Cursor.scope?_of_opensScope (Cursor.parent?_of_mem_namedChildren hstatement) hopens
  | inHead _ hdeclaration hdeclarator hvalue =>
    rw [(below_declarator (Cursor.kind_of_mem_namedOfKind hdeclarator) hvalue).2,
      Cursor.scope?_of_not_opensScope (Cursor.parent?_of_mem_namedOfKind hdeclarator)
        (by rw [Cursor.kind_of_mem_namedOfKind hdeclaration]; rfl)]
    exact Cursor.scope?_of_opensScope (Cursor.parent?_of_mem_namedOfKind hdeclaration) hopens
  | inForEach _ hcollection =>
    exact Cursor.scope?_of_opensScope (Cursor.parent?_of_child? hcollection) hopens

/-- A value is in the tree of its scope. -/
theorem top_value (h : Offers scope holder guard value) : value.top = scope.top := by
  have hguard : guard.top = value.top := by
    rcases h.guard_mem with heq | hmem
    · rw [heq]
    · exact Cursor.top_eq_of_mem_ancestors hmem
  have hholder : holder.top = guard.top := by
    rcases h.holder_mem with heq | hmem
    · rw [heq]
    · exact Cursor.top_eq_of_mem_ancestors hmem
  rw [← hguard, ← hholder, Cursor.top_eq_of_parent? h.parent?_holder]

end Offers

/-- What an identifier is sent on to is offered by a scope around it. -/
theorem Model.exists_offers_of_meaning? {m : Model} {c value : Cursor} {b : Binding}
    (h : m.meaning? c = some b) (hvalue : b.value? = some value) :
    ∃ scope ∈ c.ancestors, scope.kind.opensScope = true ∧
      ∃ holder guard, Offers scope holder guard value ∧ guard.covers c.start = false
        ∧ (scope.kind = .block → holder.start < c.start) := by
  obtain ⟨scope, hmem, hb⟩ := List.exists_of_findSome?_eq_some h
  exact ⟨scope, hmem, Model.opensScope_of_binding? hb, m.exists_offers_of_binding? hb hvalue⟩

end QueryLint
