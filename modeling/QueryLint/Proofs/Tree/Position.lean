/-
Positions in a tree. A cursor knows its surroundings, so "the parent of"
and "a child of" are one relation read from either end, and a field of a
node is told as well from the child's side (`fills`) as from the
parent's (`child?`). What walks down a tree and what looks up from it
meet in these two equivalences.

# The nodes of one tree

A cursor is a node of the tree that it rebuilds, its `top`. The document
order of a tree lists exactly the cursors with that top
(`mem_documentOrder_iff`) and lists each once (`nodup_documentOrder`):
the indices along it are the numbers from zero on. So a set of distinct
nodes of a tree is never larger than the tree
(`length_le_size_of_nodup`).

The nodes of a subtree take up consecutive indices, and so the visiting
order can be told from positions: what is visited earlier is around what
is visited later, or stands behind it (`pairwise_visit`).
-/
import Mathlib.Data.List.Nodup
import Mathlib.Data.List.Perm.Subperm
import QueryLint.Tree.Order

namespace QueryLint

namespace Cursor

-- ================================================================= parents

/-- The node that a node is a child of; the root has none. -/
def parent? (c : Cursor) : Option Cursor :=
  match c.path with
  | [] => none
  | f :: up => some ⟨f.plug c.focus, up⟩

/-- The cursors along some siblings are the places that splitting the
siblings at one of them leaves. -/
theorem mem_along_iff {l : Label} {up : List Frame} {before after : List Tree} {d : Cursor} :
    d ∈ along l up before after ↔
      ∃ xs t ys, after = xs ++ t :: ys ∧ d = ⟨t, ⟨l, xs.reverse ++ before, ys⟩ :: up⟩ := by
  induction after generalizing before with
  | nil => simp [along]
  | cons u after ih =>
    rw [along, List.mem_cons, ih]
    constructor
    · intro h
      rcases h with rfl | ⟨xs, t, ys, rfl, rfl⟩
      · exact ⟨[], u, after, rfl, rfl⟩
      · exact ⟨u :: xs, t, ys, rfl, by simp⟩
    · intro h
      obtain ⟨xs, t, ys, hsplit, rfl⟩ := h
      cases xs with
      | nil =>
        obtain ⟨rfl, rfl⟩ := List.cons.inj hsplit
        exact .inl rfl
      | cons x xs =>
        obtain ⟨rfl, rfl⟩ := List.cons.inj hsplit
        exact .inr ⟨xs, t, ys, rfl, by simp⟩

/-- The children of a node are the nodes that it is the parent of. -/
theorem mem_children_iff {c d : Cursor} : d ∈ c.children ↔ d.parent? = some c := by
  obtain ⟨⟨l, ts⟩, up⟩ := c
  obtain ⟨t, path⟩ := d
  simp only [children, label, Tree.label, Tree.children, mem_along_iff]
  constructor
  · intro h
    obtain ⟨xs, u, ys, rfl, heq⟩ := h
    cases heq
    simp [parent?, Frame.plug]
  · intro h
    cases path with
    | nil => simp [parent?] at h
    | cons f path =>
      simp only [parent?, Frame.plug, Option.some.injEq, mk.injEq, Tree.node.injEq] at h
      obtain ⟨⟨rfl, rfl⟩, rfl⟩ := h
      exact ⟨f.left.reverse, t, f.right, rfl, by simp⟩

theorem parent?_of_mem_namedChildren {c d : Cursor} (h : d ∈ c.namedChildren) :
    d.parent? = some c :=
  mem_children_iff.1 (List.mem_filter.1 h).1

theorem parent?_of_mem_namedOfKind {c d : Cursor} {k : Kind} (h : d ∈ c.namedOfKind k) :
    d.parent? = some c :=
  parent?_of_mem_namedChildren (List.mem_filter.1 h).1

theorem kind_of_mem_namedOfKind {c d : Cursor} {k : Kind} (h : d ∈ c.namedOfKind k) :
    d.kind = k := by
  simpa using (List.mem_filter.1 h).2

theorem parent?_of_child? {c d : Cursor} {f : Field} (h : c.child? f = some d) :
    d.parent? = some c :=
  mem_children_iff.1 (List.mem_of_find?_eq_some h)

/-- A parent is in the same tree. -/
theorem top_eq_of_parent? {c d : Cursor} (h : d.parent? = some c) : d.top = c.top := by
  obtain ⟨t, path⟩ := d
  cases path with
  | nil => simp [parent?] at h
  | cons f up =>
    simp only [parent?, Option.some.injEq] at h
    rw [← h]
    rfl

/-- Below a parent by one. -/
theorem length_path_of_parent? {c d : Cursor} (h : d.parent? = some c) :
    d.path.length = c.path.length + 1 := by
  obtain ⟨t, path⟩ := d
  cases path with
  | nil => simp [parent?] at h
  | cons f up =>
    simp only [parent?, Option.some.injEq] at h
    rw [← h]
    rfl

-- ================================================================== fields

/-- Along siblings of which none before has a field, the first with the
field is the one that fills it. -/
theorem find?_along_eq_some_iff {l : Label} {up : List Frame} {f : Field}
    {before after : List Tree} {d : Cursor}
    (hbefore : ∀ t ∈ before, t.label.field ≠ some f) :
    (along l up before after).find? (·.label.field == some f) = some d ↔
      d ∈ along l up before after ∧ d.fills f = true := by
  induction after generalizing before with
  | nil => simp [along]
  | cons t after ih =>
    rw [along, List.find?_cons]
    by_cases ht : t.label.field = some f
    · have hhead : (label ⟨t, ⟨l, before, after⟩ :: up⟩).field = some f := ht
      rw [hhead]
      simp only [beq_self_eq_true, Option.some.injEq, List.mem_cons]
      constructor
      · intro heq
        subst heq
        refine ⟨.inl rfl, ?_⟩
        simp only [fills, hhead, beq_self_eq_true, Bool.true_and, List.all_eq_true, bne_iff_ne]
        exact hbefore
      · intro h
        obtain ⟨rfl | hd, hfills⟩ := h
        · rfl
        · -- a later sibling has `t` before it, which carries the field already
          obtain ⟨xs, u, ys, -, rfl⟩ := mem_along_iff.1 hd
          simp [fills, ht] at hfills
    · have hhead : (label ⟨t, ⟨l, before, after⟩ :: up⟩).field ≠ some f := ht
      rw [beq_eq_false_iff_ne.2 hhead]
      have hbefore' : ∀ u ∈ t :: before, u.label.field ≠ some f := by
        intro u hu
        rcases List.mem_cons.1 hu with rfl | hu
        · exact ht
        · exact hbefore u hu
      rw [ih hbefore', List.mem_cons]
      constructor
      · intro h
        exact ⟨.inr h.1, h.2⟩
      · intro h
        obtain ⟨rfl | hd, hfills⟩ := h
        · simp [fills, hhead] at hfills
        · exact ⟨hd, hfills⟩

/-- The child in a field is the one that fills it. -/
theorem child?_eq_some_iff {c d : Cursor} {f : Field} :
    c.child? f = some d ↔ d.parent? = some c ∧ d.fills f = true := by
  rw [← mem_children_iff]
  exact find?_along_eq_some_iff (by simp)

theorem field_of_child? {c d : Cursor} {f : Field} (h : c.child? f = some d) :
    d.label.field = some f := by
  simpa using List.find?_some h

-- =========================================================== bare subtrees

theorem child?_focus (c : Cursor) (f : Field) :
    c.focus.child? f = (c.child? f).map focus := by
  unfold Tree.child? child?
  rw [← map_focus_children, List.find?_map]
  rfl

theorem namedChildren_focus (c : Cursor) :
    c.focus.namedChildren = c.namedChildren.map focus := by
  unfold Tree.namedChildren namedChildren
  rw [← map_focus_children, List.filter_map]
  rfl

theorem namedOfKind_focus (c : Cursor) (k : Kind) :
    c.focus.namedOfKind k = (c.namedOfKind k).map focus := by
  unfold Tree.namedOfKind namedOfKind
  rw [namedChildren_focus, List.filter_map]
  rfl

-- =============================================================== ancestors

theorem ancestors_of_parent? {c d : Cursor} (h : d.parent? = some c) :
    d.ancestors = c :: c.ancestors := by
  obtain ⟨t, path⟩ := d
  cases path with
  | nil => simp [parent?] at h
  | cons f up =>
    simp only [parent?, Option.some.injEq] at h
    rw [← h]
    rfl

theorem ancestors_of_parent?_eq_none {c : Cursor} (h : c.parent? = none) :
    c.ancestors = [] := by
  obtain ⟨t, path⟩ := c
  cases path with
  | nil => rfl
  | cons f up => simp [parent?] at h

/-- What holds of a node, and with a node of its parent, holds of all
nodes around it. -/
theorem forall_mem_ancestors {P : Cursor → Prop}
    (hstep : ∀ c d : Cursor, d.parent? = some c → P d → P c) {c : Cursor} (hc : P c) :
    ∀ a ∈ c.ancestors, P a := by
  obtain ⟨t, path⟩ := c
  induction path generalizing t with
  | nil => simp [ancestors, above]
  | cons f up ih =>
    have hparent : P ⟨f.plug t, up⟩ := hstep _ ⟨t, f :: up⟩ rfl hc
    intro a ha
    rcases List.mem_cons.1 ha with rfl | ha
    · exact hparent
    · exact ih _ hparent a ha

theorem top_eq_of_mem_ancestors {c a : Cursor} (h : a ∈ c.ancestors) : a.top = c.top :=
  forall_mem_ancestors (P := fun a => a.top = c.top)
    (fun _ _ hparent hd => (top_eq_of_parent? hparent).symm.trans hd) rfl a h

theorem mem_ancestors_trans {a b c : Cursor} (hab : a ∈ b.ancestors) (hbc : b ∈ c.ancestors) :
    a ∈ c.ancestors := by
  obtain ⟨t, path⟩ := c
  induction path generalizing t with
  | nil => cases hbc
  | cons f up ih =>
    rcases List.mem_cons.1 hbc with rfl | hbc
    · exact List.mem_cons_of_mem _ hab
    · exact List.mem_cons_of_mem _ (ih _ hbc)

theorem length_path_lt_of_mem_ancestors {c a : Cursor} (h : a ∈ c.ancestors) :
    a.path.length < c.path.length := by
  cases hparent : c.parent? with
  | none => simp [ancestors_of_parent?_eq_none hparent] at h
  | some p =>
    have hp := length_path_of_parent? hparent
    rw [ancestors_of_parent? hparent] at h
    have hle := forall_mem_ancestors (P := fun a => a.path.length ≤ p.path.length)
      (fun _ _ hq hd => by have := length_path_of_parent? hq; omega) (Nat.le_refl _)
    rcases List.mem_cons.1 h with rfl | h
    · omega
    · have := hle a h
      omega

-- ================================================================== places

/-- How many siblings stand before a node. -/
def place (c : Cursor) : Nat :=
  match c.path with
  | [] => 0
  | f :: _ => f.left.length

/-- The siblings along a list stand at consecutive places. -/
theorem place_of_getElem?_along {l : Label} {up : List Frame} {before after : List Tree}
    {i : Nat} {d : Cursor} (h : (along l up before after)[i]? = some d) :
    d.place = before.length + i := by
  induction after generalizing before i with
  | nil => simp [along] at h
  | cons t after ih =>
    cases i with
    | zero =>
      simp only [along, List.getElem?_cons_zero, Option.some.injEq] at h
      rw [← h]
      rfl
    | succ i =>
      simp only [along, List.getElem?_cons_succ] at h
      have := ih h
      simp only [List.length_cons] at this
      omega

/-- A child is the one at its place. -/
theorem getElem?_place {c d : Cursor} (h : d ∈ c.children) : c.children[d.place]? = some d := by
  obtain ⟨i, hi⟩ := List.getElem?_of_mem h
  have hplace := place_of_getElem?_along hi
  simp only [List.length_nil, Nat.zero_add] at hplace
  rw [hplace]
  exact hi

/-- What holds of any two siblings in their order is told from their
places. -/
theorem rel_of_place_lt {R : Cursor → Cursor → Prop} {c d e : Cursor}
    (hR : c.children.Pairwise R) (hd : d ∈ c.children) (he : e ∈ c.children)
    (hlt : d.place < e.place) : R d e := by
  obtain ⟨hd', heqd⟩ := List.getElem?_eq_some_iff.1 (getElem?_place hd)
  obtain ⟨he', heqe⟩ := List.getElem?_eq_some_iff.1 (getElem?_place he)
  rw [← heqd, ← heqe]
  exact List.pairwise_iff_getElem.1 hR _ _ hd' he' hlt

theorem eq_of_place_eq {c d e : Cursor} (hd : d ∈ c.children) (he : e ∈ c.children)
    (heq : d.place = e.place) : d = e := by
  have h := getElem?_place hd
  rw [heq, getElem?_place he] at h
  exact (Option.some.inj h).symm

-- ===================================================== the nodes of a tree

mutual

theorem top_of_mem_inOrder {path : List Frame} {t : Tree} {c : Cursor}
    (h : c ∈ inOrder path t) : c.top = rebuild t path := by
  cases t with
  | node l ts =>
    rw [inOrder] at h
    rcases List.mem_cons.1 h with rfl | h
    · rfl
    · exact top_of_mem_inOrderAll h

theorem top_of_mem_inOrderAll {l : Label} {path : List Frame} {before after : List Tree}
    {c : Cursor} (h : c ∈ inOrderAll l path before after) :
    c.top = rebuild (.node l (before.reverse ++ after)) path := by
  cases after with
  | nil => simp [inOrderAll] at h
  | cons t after =>
    rw [inOrderAll] at h
    rcases List.mem_append.1 h with h | h
    · rw [top_of_mem_inOrder h]
      rfl
    · have := top_of_mem_inOrderAll h
      rwa [List.reverse_cons, List.append_assoc, List.singleton_append] at this

end

mutual

/-- The indices along the document order of a subtree are consecutive,
from that of its root on. -/
theorem map_index_inOrder (path : List Frame) (t : Tree) :
    (inOrder path t).map index = List.range' (index ⟨t, path⟩) t.size := by
  cases t with
  | node l ts =>
    have hrest := map_index_inOrderAll l path [] ts (.node l ts)
    have hstart : 1 + Tree.sizeAll [] + index ⟨.node l ts, path⟩
        = index ⟨.node l ts, path⟩ + 1 := by
      simp only [Tree.sizeAll]
      omega
    have hsize : (Tree.node l ts).size = Tree.sizeAll ts + 1 := by
      simp only [Tree.size]
      omega
    rw [inOrder, List.map_cons, hrest, hstart, hsize, List.range'_succ]

/-- An index depends on the path alone, so any tree `u` may stand for
the parent. -/
theorem map_index_inOrderAll (l : Label) (path : List Frame) (before after : List Tree)
    (u : Tree) :
    (inOrderAll l path before after).map index
      = List.range' (1 + Tree.sizeAll before + index ⟨u, path⟩) (Tree.sizeAll after) := by
  cases after with
  | nil => simp [inOrderAll, Tree.sizeAll]
  | cons t after =>
    have hhead := map_index_inOrder (⟨l, before, after⟩ :: path) t
    have htail := map_index_inOrderAll l path (t :: before) after u
    have hstart : 1 + Tree.sizeAll (t :: before) + index ⟨u, path⟩
        = 1 + Tree.sizeAll before + index ⟨u, path⟩ + 1 * t.size := by
      simp only [Tree.sizeAll]
      omega
    rw [hstart] at htail
    rw [inOrderAll, List.map_append, hhead, htail, Tree.sizeAll]
    exact List.range'_append

end

-- ========================================================== index ranges

mutual

/-- The nodes of a subtree take up the indices from that of its root on,
as many as there are nodes. -/
theorem index_bounds_of_mem_inOrder {path : List Frame} {t : Tree} {c : Cursor}
    (h : c ∈ inOrder path t) :
    index ⟨t, path⟩ ≤ c.index ∧ c.index + c.focus.size ≤ index ⟨t, path⟩ + t.size := by
  cases t with
  | node l ts =>
    rw [inOrder] at h
    rcases List.mem_cons.1 h with rfl | h
    · exact ⟨Nat.le_refl _, Nat.le_refl _⟩
    · have hrest := index_bounds_of_mem_inOrderAll h (.node l ts)
      simp only [Tree.sizeAll, Tree.size] at hrest ⊢
      omega

theorem index_bounds_of_mem_inOrderAll {l : Label} {path : List Frame}
    {before after : List Tree} {c : Cursor} (h : c ∈ inOrderAll l path before after) (u : Tree) :
    1 + Tree.sizeAll before + index ⟨u, path⟩ ≤ c.index
      ∧ c.index + c.focus.size
        ≤ 1 + Tree.sizeAll before + index ⟨u, path⟩ + Tree.sizeAll after := by
  cases after with
  | nil => cases h
  | cons t after =>
    rw [inOrderAll] at h
    rcases List.mem_append.1 h with h | h
    · have hfirst := index_bounds_of_mem_inOrder h
      have hindex : index ⟨t, ⟨l, before, after⟩ :: path⟩
          = 1 + Tree.sizeAll before + index ⟨u, path⟩ := rfl
      simp only [Tree.sizeAll]
      omega
    · have hrest := index_bounds_of_mem_inOrderAll h u
      simp only [Tree.sizeAll] at hrest ⊢
      omega

end

/-- A node is indexed with all that is in it before its later siblings. -/
theorem pairwise_children_apart (c : Cursor) :
    c.children.Pairwise fun d e => d.index + d.focus.size ≤ e.index := by
  have halong : ∀ before after : List Tree, (along c.label c.path before after).Pairwise
      fun d e => d.index + d.focus.size ≤ e.index := by
    intro before after
    induction after generalizing before with
    | nil => exact .nil
    | cons t after ih =>
      rw [along]
      refine List.pairwise_cons.2 ⟨?_, ih (t :: before)⟩
      intro d hd
      obtain ⟨xs, u, ys, -, rfl⟩ := mem_along_iff.1 hd
      simp only [index, List.foldr_cons, Tree.sizeAll_append, Tree.sizeAll]
      omega
  exact halong [] c.focus.children

/-- Siblings are indexed in their order. -/
theorem pairwise_children (c : Cursor) :
    c.children.Pairwise (·.index < ·.index) := by
  refine c.pairwise_children_apart.imp ?_
  intro d e hapart
  have := d.focus.size_eq
  omega

/-- A child is indexed inside its parent. -/
theorem index_bounds_of_parent? {c d : Cursor} (h : d.parent? = some c) :
    c.index < d.index ∧ d.index + d.focus.size ≤ c.index + c.focus.size := by
  obtain ⟨t, path⟩ := d
  cases path with
  | nil => cases h
  | cons f up =>
    cases h
    simp only [index, List.foldr_cons, Frame.plug, Tree.size, Tree.sizeAll_append,
      Tree.sizeAll_reverse, Tree.sizeAll]
    omega

theorem nodup_children (c : Cursor) : c.children.Nodup := by
  refine c.pairwise_children.imp ?_
  intro d e hlt heq
  rw [heq] at hlt
  exact Nat.lt_irrefl _ hlt

mutual

/-- The parent of a subtree's root is around all of the subtree. -/
theorem plug_mem_ancestors_of_mem_inOrder {f : Frame} {up : List Frame} {t : Tree} {c : Cursor}
    (h : c ∈ inOrder (f :: up) t) : ⟨f.plug t, up⟩ ∈ c.ancestors := by
  cases t with
  | node l ts =>
    rw [inOrder] at h
    rcases List.mem_cons.1 h with rfl | h
    · exact List.mem_cons_self
    · exact mem_ancestors_trans List.mem_cons_self (node_mem_ancestors_of_mem_inOrderAll h)

theorem node_mem_ancestors_of_mem_inOrderAll {l : Label} {path : List Frame}
    {before after : List Tree} {c : Cursor} (h : c ∈ inOrderAll l path before after) :
    ⟨.node l (before.reverse ++ after), path⟩ ∈ c.ancestors := by
  cases after with
  | nil => cases h
  | cons t after =>
    rw [inOrderAll] at h
    rcases List.mem_append.1 h with h | h
    · exact plug_mem_ancestors_of_mem_inOrder h
    · have hrest := node_mem_ancestors_of_mem_inOrderAll h
      rwa [List.reverse_cons, List.append_assoc, List.singleton_append] at hrest

end

-- ====================================================== the visiting order

/-- A node comes before another when visiting: it is around the other, or
it stands behind the other and all that is in it. -/
def VisitedBefore (a b : Cursor) : Prop :=
  a ∈ b.ancestors ∨ b.index + b.focus.size ≤ a.index

theorem not_visitedBefore_self (c : Cursor) : ¬ c.VisitedBefore c := by
  intro h
  rcases h with haround | hbehind
  · have := length_path_lt_of_mem_ancestors haround
    omega
  · have := c.focus.size_eq
    omega

mutual

theorem pairwise_visitFrom (path : List Frame) (t : Tree) :
    (visitFrom path t).Pairwise VisitedBefore := by
  cases t with
  | node l ts =>
    rw [visitFrom]
    refine List.pairwise_cons.2 ⟨?_, pairwise_visitAll l path [] ts⟩
    intro c hc
    exact .inl (node_mem_ancestors_of_mem_inOrderAll ((visitAll_perm l path [] ts).mem_iff.1 hc))

theorem pairwise_visitAll (l : Label) (path : List Frame) (before after : List Tree) :
    (visitAll l path before after).Pairwise VisitedBefore := by
  cases after with
  | nil => exact .nil
  | cons t after =>
    rw [visitAll]
    refine List.pairwise_append.2 ⟨pairwise_visitAll l path (t :: before) after,
      pairwise_visitFrom _ t, ?_⟩
    -- a later sibling, and all in it, stands behind an earlier one
    intro a ha b hb
    have hlater := index_bounds_of_mem_inOrderAll
      ((visitAll_perm l path (t :: before) after).mem_iff.1 ha) t
    have hearlier := index_bounds_of_mem_inOrder ((visitFrom_perm _ t).mem_iff.1 hb)
    have hindex : index ⟨t, ⟨l, before, after⟩ :: path⟩
        = 1 + Tree.sizeAll before + index ⟨t, path⟩ := rfl
    simp only [Tree.sizeAll] at hlater
    exact .inr (by omega)

end

end Cursor

namespace Tree

/-- The document order lists the cursors into the tree and no others. -/
theorem mem_documentOrder_iff {t : Tree} {c : Cursor} : c ∈ t.documentOrder ↔ c.top = t := by
  constructor
  · exact Cursor.top_of_mem_inOrder
  · intro htop
    subst htop
    exact c.mem_documentOrder_top

/-- The document order lists no node twice. -/
theorem nodup_documentOrder (t : Tree) : t.documentOrder.Nodup := by
  apply List.Nodup.of_map Cursor.index
  rw [documentOrder, Cursor.map_index_inOrder]
  exact List.nodup_range'

/-- Visiting goes by `VisitedBefore`. -/
theorem pairwise_visit (t : Tree) : t.visit.Pairwise Cursor.VisitedBefore :=
  Cursor.pairwise_visitFrom [] t

/-- There are no more distinct nodes than the tree has. -/
theorem length_le_size_of_nodup {t : Tree} {cs : List Cursor} (hnodup : cs.Nodup)
    (htop : ∀ c ∈ cs, c.top = t) : cs.length ≤ t.size := by
  rw [← length_documentOrder]
  exact (List.subperm_of_subset hnodup fun c hc =>
    mem_documentOrder_iff.2 (htop c hc)).length_le

end Tree

end QueryLint
