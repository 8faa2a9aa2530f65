/-
Trees with more parentheses. `parenthesize` puts parentheses around some
nodes of a tree: at each of them stands a new node, with the same range
and in the same field, and the node itself is all that it holds.

A node of the old tree has two places in the new one. `moved` is the node
itself, and `wrapped` is what stands where it was, the parentheses if it
got some. What is looked for below a node comes back wrapped, since the
children of a moved node are the old children, wrapped
(`children_moved`); what is around a node are the moved nodes, with
parentheses here and there between them. Whatever takes no notice of
parentheses can be carried from the old tree to the new one by these two
facts alone.
-/
import Mathlib.Data.List.Pairwise
import QueryLint.Call
import QueryLint.Proofs.Tree.Traversal

namespace QueryLint

/-- The label of parentheses that stand where a node was. -/
def Label.parens (l : Label) : Label := ⟨.parenthesized, true, l.field, l.start, l.stop⟩

/-- The label of a node in parentheses, where it fills no field. -/
def Label.bare (l : Label) : Label := { l with field := none }

-- =============================================================== inserting

namespace Tree

mutual

/-- What `t`, which stands at `path`, becomes when the nodes in question
are put in parentheses, itself included. -/
def insertFrom (here : Cursor → Bool) (path : List Frame) : Tree → Tree
  | node l ts =>
    if here ⟨node l ts, path⟩ then node l.parens [node l.bare (insertAll here l path [] ts)]
    else node l (insertAll here l path [] ts)

/-- What the siblings `after` become. -/
def insertAll (here : Cursor → Bool) (l : Label) (path : List Frame) :
    (before after : List Tree) → List Tree
  | _, [] => []
  | before, t :: after =>
    insertFrom here (⟨l, before, after⟩ :: path) t :: insertAll here l path (t :: before) after

end

/-- The tree with some of its nodes in parentheses. -/
def parenthesize (t : Tree) (here : Cursor → Bool) : Tree := insertFrom here [] t

end Tree

namespace Cursor

variable (here : Cursor → Bool)

/-- What stands where a node was. -/
def outer (c : Cursor) : Tree := Tree.insertFrom here c.path c.focus

/-- The node itself, with parentheses in it but not around it. -/
def inner (c : Cursor) : Tree :=
  .node (if here c then c.label.bare else c.label) (c.children.map (outer here))

theorem insertAll_eq (l : Label) (path : List Frame) (before after : List Tree) :
    Tree.insertAll here l path before after = (along l path before after).map (outer here) := by
  induction after generalizing before with
  | nil => rfl
  | cons t after ih =>
    rw [Tree.insertAll, along, List.map_cons, ih]
    rfl

theorem outer_eq (c : Cursor) :
    c.outer here = if here c then .node c.label.parens [c.inner here] else c.inner here := by
  obtain ⟨⟨l, ts⟩, path⟩ := c
  unfold outer inner
  rw [Tree.insertFrom, insertAll_eq]
  cases here ⟨.node l ts, path⟩ with
  | true => rfl
  | false => rfl

theorem children_inner (c : Cursor) : (c.inner here).children = c.children.map (outer here) :=
  rfl

-- ================================================================== places

/-- The place of `t`, which stood at `path`, found from its parent's. -/
def wrappedFrom (t : Tree) : List Frame → Cursor
  | [] => ⟨outer here ⟨t, []⟩, []⟩
  | f :: up =>
    let parent := wrappedFrom (f.plug t) up
    let inside := if here ⟨f.plug t, up⟩ then parent.children.headD parent else parent
    inside.children.getD f.left.length inside

/-- What stands where a node was, in its new tree. -/
def wrapped (c : Cursor) : Cursor := wrappedFrom here c.focus c.path

/-- The node itself, in its new tree. -/
def moved (c : Cursor) : Cursor :=
  if here c then (c.wrapped here).children.headD (c.wrapped here) else c.wrapped here

/-- The nodes of the new tree that a node of the old one has become. -/
def images (c : Cursor) : List Cursor :=
  if here c then [c.wrapped here, c.moved here] else [c.moved here]

theorem wrapped_of_parent? {c p : Cursor} (h : c.parent? = some p) :
    c.wrapped here = (p.moved here).children.getD c.place (p.moved here) := by
  obtain ⟨t, path⟩ := c
  cases path with
  | nil => cases h
  | cons f up =>
    cases h
    rfl

variable {here}

theorem moved_of_not_here {c : Cursor} (h : here c = false) : c.moved here = c.wrapped here := by
  rw [moved, h, if_neg Bool.false_ne_true]

/-- Parentheses hold the node that got them, and nothing else. -/
theorem children_wrapped_of_focus {c : Cursor} (hfocus : (c.wrapped here).focus = c.outer here)
    (h : here c = true) :
    (c.wrapped here).children = [c.moved here] ∧ (c.moved here).focus = c.inner here := by
  have hchildren : (c.wrapped here).children.map focus = [c.inner here] := by
    rw [map_focus_children, hfocus, outer_eq, if_pos h]
    rfl
  obtain ⟨d, hd, hinner⟩ := List.map_eq_singleton_iff.1 hchildren
  rw [moved, if_pos h, hd]
  exact ⟨rfl, hinner⟩

theorem focus_moved_of_focus {c : Cursor} (hfocus : (c.wrapped here).focus = c.outer here) :
    (c.moved here).focus = c.inner here := by
  cases h : here c with
  | true => exact (children_wrapped_of_focus hfocus h).2
  | false => rw [moved_of_not_here h, hfocus, outer_eq, h, if_neg Bool.false_ne_true]

/-- Below a moved node, each child is at its place. -/
theorem getElem?_children_moved_of_focus {c p : Cursor} (hparent : c.parent? = some p)
    (hfocus : (p.moved here).focus = p.inner here) :
    (p.moved here).children[c.place]? = some (c.wrapped here)
      ∧ (c.wrapped here).focus = c.outer here := by
  have hchildren : (p.moved here).children.map focus = p.children.map (outer here) := by
    rw [map_focus_children, hfocus, children_inner]
  have hplace : ((p.moved here).children.map focus)[c.place]? = some (c.outer here) := by
    rw [hchildren, List.getElem?_map, getElem?_place (mem_children_iff.2 hparent)]
    rfl
  rw [List.getElem?_map] at hplace
  obtain ⟨d, hd, houter⟩ := Option.map_eq_some_iff.1 hplace
  have hwrapped : c.wrapped here = d := by
    rw [wrapped_of_parent? here hparent, List.getD_eq_getElem?_getD, hd]
    rfl
  rw [hwrapped]
  exact ⟨hd, houter⟩

theorem focus_wrapped (c : Cursor) : (c.wrapped here).focus = c.outer here := by
  obtain ⟨t, path⟩ := c
  induction path generalizing t with
  | nil => rfl
  | cons f up ih =>
    have hparent : parent? ⟨t, f :: up⟩ = some ⟨f.plug t, up⟩ := rfl
    exact (getElem?_children_moved_of_focus hparent (focus_moved_of_focus (ih _))).2

theorem focus_moved (c : Cursor) : (c.moved here).focus = c.inner here :=
  focus_moved_of_focus c.focus_wrapped

/-- The children of a node are what stands where they were. -/
theorem children_moved (c : Cursor) :
    (c.moved here).children = c.children.map (wrapped here) := by
  have hlength : (c.moved here).children.length = c.children.length := by
    rw [← List.length_map focus, map_focus_children, focus_moved, children_inner, List.length_map]
  refine List.ext_getElem? fun i => ?_
  rw [List.getElem?_map]
  cases hi : c.children[i]? with
  | none =>
    rw [List.getElem?_eq_none_iff] at hi
    exact List.getElem?_eq_none_iff.2 (hlength ▸ hi)
  | some d =>
    have hplace : d.place = i := (place_of_getElem?_along hi).trans (Nat.zero_add i)
    have hparent : d.parent? = some c := mem_children_iff.1 (List.mem_of_getElem? hi)
    rw [← hplace]
    exact (getElem?_children_moved_of_focus hparent c.focus_moved).1

theorem children_wrapped {c : Cursor} (h : here c = true) :
    (c.wrapped here).children = [c.moved here] :=
  (children_wrapped_of_focus c.focus_wrapped h).1

-- ================================================================== labels

theorem label_moved (c : Cursor) :
    (c.moved here).label = if here c then c.label.bare else c.label := by
  rw [label, focus_moved]
  rfl

theorem label_wrapped (c : Cursor) :
    (c.wrapped here).label = if here c then c.label.parens else c.label := by
  rw [label, focus_wrapped, outer_eq]
  cases h : here c with
  | true => rfl
  | false => simp [inner, h, Tree.label]

@[simp]
theorem kind_moved (c : Cursor) : (c.moved here).kind = c.kind := by
  unfold kind
  rw [label_moved]
  split <;> rfl

theorem counts_moved (c : Cursor) : (c.moved here).label.counts = c.label.counts := by
  rw [label_moved]
  split <;> rfl

@[simp]
theorem start_moved (c : Cursor) : (c.moved here).start = c.start := by
  unfold start
  rw [label_moved]
  split <;> rfl

@[simp]
theorem start_wrapped (c : Cursor) : (c.wrapped here).start = c.start := by
  unfold start
  rw [label_wrapped]
  split <;> rfl

@[simp]
theorem stop_moved (c : Cursor) : (c.moved here).stop = c.stop := by
  unfold stop
  rw [label_moved]
  split <;> rfl

@[simp]
theorem stop_wrapped (c : Cursor) : (c.wrapped here).stop = c.stop := by
  unfold stop
  rw [label_wrapped]
  split <;> rfl

@[simp]
theorem covers_moved (c : Cursor) (offset : Nat) :
    (c.moved here).covers offset = c.covers offset := by
  unfold covers
  rw [start_moved, stop_moved]

@[simp]
theorem covers_wrapped (c : Cursor) (offset : Nat) :
    (c.wrapped here).covers offset = c.covers offset := by
  unfold covers
  rw [start_wrapped, stop_wrapped]

theorem field_wrapped (c : Cursor) : (c.wrapped here).label.field = c.label.field := by
  rw [label_wrapped]
  split <;> rfl

theorem kind_wrapped_of_here {c : Cursor} (h : here c = true) :
    (c.wrapped here).kind = .parenthesized := by
  unfold kind
  rw [label_wrapped, if_pos h]
  rfl

-- ============================================================ looking down

theorem child?_moved (c : Cursor) (f : Field) :
    (c.moved here).child? f = (c.child? f).map (wrapped here) := by
  unfold child?
  rw [children_moved, List.find?_map]
  simp only [Function.comp_def, field_wrapped]

section

variable (hcounts : ∀ c, here c = true → c.label.counts = true)

include hcounts

theorem counts_wrapped (c : Cursor) : (c.wrapped here).label.counts = c.label.counts := by
  rw [label_wrapped]
  split
  · next h => exact (hcounts c h).symm
  · rfl

theorem namedChildren_moved (c : Cursor) :
    (c.moved here).namedChildren = c.namedChildren.map (wrapped here) := by
  unfold namedChildren
  rw [children_moved, List.filter_map]
  simp only [Function.comp_def, counts_wrapped hcounts]

/-- Where none of the children of a kind got parentheses, they are all
found again. -/
theorem namedOfKind_moved {c : Cursor} {k : Kind} (hk : k ≠ .parenthesized)
    (hnone : ∀ d ∈ c.children, here d = true → d.kind ≠ k) :
    (c.moved here).namedOfKind k = (c.namedOfKind k).map (moved here) := by
  have hkind : ∀ d ∈ c.namedChildren, ((d.wrapped here).kind == k) = (d.kind == k) := by
    intro d hd
    cases h : here d with
    | true =>
      have hne := hnone d (List.mem_filter.1 hd).1 h
      rw [kind_wrapped_of_here h, beq_eq_false_iff_ne.2 hne, beq_eq_false_iff_ne.2 hk.symm]
    | false => rw [← moved_of_not_here h, kind_moved]
  unfold namedOfKind
  rw [namedChildren_moved hcounts, List.filter_map]
  have hfilter : c.namedChildren.filter ((·.kind == k) ∘ wrapped here)
      = c.namedChildren.filter (·.kind == k) := List.filter_congr hkind
  rw [hfilter]
  refine List.map_congr_left fun d hd => ?_
  obtain ⟨hd, hdk⟩ := List.mem_filter.1 hd
  refine (moved_of_not_here ?_).symm
  refine Bool.eq_false_iff.2 fun h => ?_
  exact hnone d (List.mem_filter.1 hd).1 h (beq_iff_eq.1 hdk)

-- ============================================================= parentheses

/-- Parentheses are unwrapped to what they were put around. -/
theorem unwrap_wrapped (c : Cursor) : (c.wrapped here).unwrap = (c.moved here).unwrap := by
  cases h : here c with
  | false => rw [moved_of_not_here h]
  | true =>
    have hhead : (c.wrapped here).namedChildren = [c.moved here] := by
      unfold namedChildren
      rw [children_wrapped h, List.filter_cons, counts_moved, hcounts c h]
      rfl
    rw [unwrap, if_pos (kind_wrapped_of_here h)]
    split
    · next d hd =>
      rw [hhead] at hd
      cases hd
      rfl
    · next hd =>
      rw [hhead] at hd
      cases hd

theorem unwrap_moved (c : Cursor) : (c.moved here).unwrap = c.unwrap.moved here := by
  fun_induction unwrap c with
  | case1 c hkind d hd ih =>
    rw [← ih, ← unwrap_wrapped hcounts d, unwrap, if_pos (by rw [kind_moved, hkind])]
    split
    · next e he =>
      rw [namedChildren_moved hcounts, List.head?_map, hd] at he
      cases he
      rfl
    · next he =>
      rw [namedChildren_moved hcounts, List.head?_map, hd] at he
      cases he
  | case2 c hkind hnone =>
    rw [unwrap, if_pos (by rw [kind_moved, hkind])]
    split
    · next e he =>
      rw [namedChildren_moved hcounts, List.head?_map, hnone] at he
      cases he
    · rfl
  | case3 c hkind => rw [unwrap, if_neg (by rw [kind_moved]; exact hkind)]

end

-- ============================================================== looking up

theorem parent?_wrapped {c p : Cursor} (h : c.parent? = some p) :
    (c.wrapped here).parent? = some (p.moved here) := by
  apply mem_children_iff.1
  rw [children_moved]
  exact List.mem_map_of_mem (mem_children_iff.2 h)

theorem parent?_moved_of_here {c : Cursor} (h : here c = true) :
    (c.moved here).parent? = some (c.wrapped here) := by
  apply mem_children_iff.1
  rw [children_wrapped h]
  exact List.mem_singleton_self _

theorem parent?_wrapped_of_eq_none {c : Cursor} (h : c.parent? = none) :
    (c.wrapped here).parent? = none := by
  obtain ⟨t, path⟩ := c
  cases path with
  | nil => rfl
  | cons f up => cases h

/-- Around what stands where a node was is the moved parent. -/
theorem exists_parent?_of_wrapped {c q : Cursor} (h : (c.wrapped here).parent? = some q) :
    ∃ p, c.parent? = some p ∧ q = p.moved here := by
  cases hp : c.parent? with
  | none =>
    rw [parent?_wrapped_of_eq_none hp] at h
    cases h
  | some p =>
    rw [parent?_wrapped hp] at h
    cases h
    exact ⟨p, rfl, rfl⟩

/-- Around a moved node is the moved parent, or else new parentheses. -/
theorem exists_parent?_of_moved {c q : Cursor} (h : (c.moved here).parent? = some q)
    (hkind : q.kind ≠ .parenthesized) : ∃ p, c.parent? = some p ∧ q = p.moved here := by
  cases hhere : here c with
  | true =>
    rw [parent?_moved_of_here hhere] at h
    cases h
    exact absurd (kind_wrapped_of_here hhere) hkind
  | false =>
    rw [moved_of_not_here hhere] at h
    exact exists_parent?_of_wrapped h

/-- A search among the nodes around a node that passes over parentheses
finds, in the new tree, what it found in the old one. -/
theorem findSome?_ancestors_moved {α β : Type} {f : Cursor → Option α} {f' : Cursor → Option β}
    {g : α → β} (hmoved : ∀ a, f' (a.moved here) = (f a).map g)
    (hparens : ∀ a, a.kind = .parenthesized → f' a = none) (c : Cursor) :
    (c.moved here).ancestors.findSome? f' = (c.ancestors.findSome? f).map g := by
  -- what is around the parentheses of a node is around the node
  have hwrapped : ∀ c : Cursor, (c.moved here).ancestors.findSome? f'
      = (c.wrapped here).ancestors.findSome? f' := by
    intro c
    cases h : here c with
    | false => rw [moved_of_not_here h]
    | true =>
      rw [ancestors_of_parent? (parent?_moved_of_here h), List.findSome?_cons,
        hparens _ (kind_wrapped_of_here h)]
  rw [hwrapped c]
  obtain ⟨t, path⟩ := c
  induction path generalizing t with
  | nil => rfl
  | cons frame up ih =>
    have hparent : parent? ⟨t, frame :: up⟩ = some ⟨frame.plug t, up⟩ := rfl
    rw [ancestors_of_parent? (parent?_wrapped hparent), ancestors_of_parent? hparent,
      List.findSome?_cons, List.findSome?_cons, hmoved, hwrapped, ih]
    cases f ⟨frame.plug t, up⟩ with
    | none => rfl
    | some a => rfl

theorem find?_ancestors_moved {p : Kind → Bool} (hp : p .parenthesized = false) (c : Cursor) :
    (c.moved here).ancestors.find? (p ·.kind)
      = (c.ancestors.find? (p ·.kind)).map (moved here) := by
  rw [List.find?_eq_findSome?_guard, List.find?_eq_findSome?_guard]
  refine findSome?_ancestors_moved ?_ ?_ c
  · intro a
    unfold Option.guard
    simp only [kind_moved]
    split <;> rfl
  · intro a ha
    unfold Option.guard
    simp only [ha, hp, Bool.false_eq_true, if_false]

-- ================================================================ listings

theorem inOrderAll_eq (l : Label) (path : List Frame) (before after : List Tree) :
    inOrderAll l path before after
      = (along l path before after).flatMap fun d => inOrder d.path d.focus := by
  induction after generalizing before with
  | nil => rfl
  | cons t after ih => rw [inOrderAll, along, List.flatMap_cons, ih]

theorem inOrder_eq (c : Cursor) :
    inOrder c.path c.focus = c :: c.children.flatMap fun d => inOrder d.path d.focus := by
  obtain ⟨⟨l, ts⟩, path⟩ := c
  show inOrder path (.node l ts) = _
  rw [inOrder, inOrderAll_eq]
  rfl

/-- A listing of all below a node that takes the node first and then its
children, in an order that does not depend on what they are, lists what
stands where the node was in the same order, with parentheses before what
they hold. -/
theorem flatMap_images {listing : Cursor → List Cursor}
    {arrange : List Cursor → List Cursor}
    (hlisting : ∀ c, listing c = c :: (arrange c.children).flatMap listing)
    (hmap : ∀ (f : Cursor → Cursor) (cs : List Cursor), arrange (cs.map f) = (arrange cs).map f)
    (hperm : ∀ cs, (arrange cs).Perm cs) (c : Cursor) :
    listing (c.wrapped here) = (listing c).flatMap (images here) := by
  have hbelow : ∀ d ∈ c.children, listing (d.wrapped here) = (listing d).flatMap (images here) := by
    intro d hd
    have := size_focus_lt_of_mem_children hd
    exact flatMap_images hlisting hmap hperm d
  have hmoved : listing (c.moved here)
      = c.moved here :: ((arrange c.children).flatMap listing).flatMap (images here) := by
    rw [hlisting, children_moved, hmap, List.flatMap_map, List.flatMap_assoc]
    refine congrArg (c.moved here :: ·) (List.flatMap_congr fun d hd => ?_)
    exact hbelow d ((hperm _).mem_iff.1 hd)
  rw [hlisting c, List.flatMap_cons]
  cases h : here c with
  | false =>
    rw [← moved_of_not_here h, hmoved, images, h]
    rfl
  | true =>
    rw [hlisting (c.wrapped here), children_wrapped h, List.perm_singleton.1 (hperm [c.moved here]),
      List.flatMap_singleton, hmoved, images, h]
    rfl
termination_by c.focus.size

end Cursor

/-- Visiting the new tree, each node comes up where it did in the old one,
behind its parentheses if it got some. -/
theorem Tree.visit_parenthesize (t : Tree) (here : Cursor → Bool) :
    (t.parenthesize here).visit = t.visit.flatMap (Cursor.images here) :=
  Cursor.flatMap_images Cursor.visitFrom_eq (fun _ _ => List.map_reverse.symm)
    List.reverse_perm t.root

theorem Tree.documentOrder_parenthesize (t : Tree) (here : Cursor → Bool) :
    (t.parenthesize here).documentOrder = t.documentOrder.flatMap (Cursor.images here) :=
  Cursor.flatMap_images Cursor.inOrder_eq (fun _ _ => rfl) List.Perm.refl t.root

/-- In document order, the labels of the new tree are those of the old one
and, before each node that got them, those of its parentheses. -/
theorem Tree.labels_parenthesize (t : Tree) (here : Cursor → Bool) :
    (t.parenthesize here).documentOrder.map Cursor.label
      = t.documentOrder.flatMap fun c =>
          if here c then [c.label.parens, c.label.bare] else [c.label] := by
  rw [t.documentOrder_parenthesize, List.map_flatMap]
  refine List.flatMap_congr fun c _ => ?_
  unfold Cursor.images
  split
  · next h =>
    show [(c.wrapped here).label, (c.moved here).label] = _
    rw [Cursor.label_wrapped, Cursor.label_moved, if_pos h, if_pos h]
  · next h =>
    show [(c.moved here).label] = _
    rw [Cursor.label_moved, if_neg h]

/-- No node of the new tree comes from two of the old one. -/
theorem Cursor.eq_of_mem_images {here : Cursor → Bool} {c d e : Cursor} (htop : c.top = d.top)
    (hc : e ∈ c.images here) (hd : e ∈ d.images here) : c = d := by
  apply Classical.byContradiction
  intro hne
  have hnodup := (c.top.parenthesize here).nodup_documentOrder
  rw [c.top.documentOrder_parenthesize, List.nodup_flatMap] at hnodup
  have : Std.Symm (Function.onFun List.Disjoint (images here)) := ⟨fun _ _ h _ he he' => h he' he⟩
  have hapart := hnodup.2.forall (Tree.mem_documentOrder_iff.2 rfl)
    (Tree.mem_documentOrder_iff.2 htop.symm) hne
  exact hapart hc hd

theorem Cursor.eq_of_wrapped_eq_moved {here : Cursor → Bool} {c d : Cursor}
    (htop : d.top = c.top) (h : d.wrapped here = c.moved here) : d = c := by
  have hd : c.moved here ∈ d.images here := by
    rw [← h, images]
    split
    · exact List.mem_cons_self
    · next hd =>
      rw [moved_of_not_here (Bool.eq_false_iff.2 hd)]
      exact List.mem_singleton_self _
  have hc : c.moved here ∈ c.images here := by
    rw [images]
    split
    · exact List.mem_cons_of_mem _ (List.mem_singleton_self _)
    · exact List.mem_singleton_self _
  exact eq_of_mem_images htop hd hc

/-- A field that a moved node fills is one that the node filled, unless it
is a field of parentheses. -/
theorem Cursor.exists_child?_of_moved {here : Cursor → Bool} {c q : Cursor} {f : Field}
    (h : q.child? f = some (c.moved here)) (hkind : q.kind ≠ .parenthesized) :
    ∃ p : Cursor, p.child? f = some c ∧ q = p.moved here := by
  obtain ⟨p, hparent, rfl⟩ := exists_parent?_of_moved (parent?_of_child? h) hkind
  rw [child?_moved] at h
  obtain ⟨d, hd, heq⟩ := Option.map_eq_some_iff.1 h
  have htop : d.top = c.top :=
    (top_eq_of_parent? (parent?_of_child? hd)).trans (top_eq_of_parent? hparent).symm
  rw [eq_of_wrapped_eq_moved htop heq] at hd
  exact ⟨p, hd, rfl⟩

-- ============================================================ the same tree

mutual

theorem Tree.insertFrom_congr {here here' : Cursor → Bool} (path : List Frame) (t : Tree)
    (h : ∀ c ∈ Cursor.inOrder path t, here c = here' c) :
    insertFrom here path t = insertFrom here' path t := by
  cases t with
  | node l ts =>
    rw [Cursor.inOrder] at h
    obtain ⟨hnode, hall⟩ := List.forall_mem_cons.1 h
    rw [insertFrom, insertFrom, hnode, Tree.insertAll_congr l path [] ts hall]

theorem Tree.insertAll_congr {here here' : Cursor → Bool} (l : Label) (path : List Frame)
    (before after : List Tree)
    (h : ∀ c ∈ Cursor.inOrderAll l path before after, here c = here' c) :
    insertAll here l path before after = insertAll here' l path before after := by
  cases after with
  | nil => rfl
  | cons t after =>
    rw [Cursor.inOrderAll] at h
    obtain ⟨hfirst, hrest⟩ := List.forall_mem_append.1 h
    rw [insertAll, insertAll, Tree.insertFrom_congr _ t hfirst,
      Tree.insertAll_congr l path (t :: before) after hrest]

end

/-- What is put in parentheses elsewhere does not matter. -/
theorem Tree.parenthesize_congr {here here' : Cursor → Bool} {t : Tree}
    (h : ∀ c ∈ t.documentOrder, here c = here' c) : t.parenthesize here = t.parenthesize here' :=
  insertFrom_congr [] t h

end QueryLint
