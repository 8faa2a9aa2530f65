/-
The two orders in which the nodes of a tree are listed. `documentOrder`
is the order of the source: a node, then its children from left to
right, each with all below it; a node's place in it is its `index`.
`visit` is the order in which the analysis goes through a tree: a node
before all below it, and of two siblings the later one first.

Both list every node once. `getElem?_index` says that a cursor stands in
the document order of its own tree, at its index; `length_documentOrder`
that there are as many as the tree has nodes; and `visit_perm` that
visiting leaves none out.
-/
import QueryLint.Tree.Cursor

namespace QueryLint

namespace Cursor

-- ========================================================== document order

mutual

/-- The nodes of `t`, which stands at `path`, in document order. -/
def inOrder (path : List Frame) : Tree → List Cursor
  | .node l ts => ⟨.node l ts, path⟩ :: inOrderAll l path [] ts

/-- The nodes of the siblings `after`, in document order. -/
def inOrderAll (l : Label) (path : List Frame) :
    (before after : List Tree) → List Cursor
  | _, [] => []
  | before, t :: after =>
    inOrder (⟨l, before, after⟩ :: path) t ++ inOrderAll l path (t :: before) after

end

/-- A node's place in the document order of its tree. -/
def index (c : Cursor) : Nat :=
  c.path.foldr (fun f n => 1 + Tree.sizeAll f.left + n) 0

-- ================================================================ visiting

mutual

/-- The nodes of `t`, which stands at `path`, in visiting order. -/
def visitFrom (path : List Frame) : Tree → List Cursor
  | .node l ts => ⟨.node l ts, path⟩ :: visitAll l path [] ts

/-- The nodes of the siblings `after`, in visiting order: the last
sibling is visited first. -/
def visitAll (l : Label) (path : List Frame) :
    (before after : List Tree) → List Cursor
  | _, [] => []
  | before, t :: after =>
    visitAll l path (t :: before) after ++ visitFrom (⟨l, before, after⟩ :: path) t

end

end Cursor

/-- Every node of a tree, in document order. -/
def Tree.documentOrder (t : Tree) : List Cursor := Cursor.inOrder [] t

/-- Every node of a tree, in visiting order. -/
def Tree.visit (t : Tree) : List Cursor := Cursor.visitFrom [] t

-- =============================================================== the laws

namespace Cursor

mutual

theorem length_inOrder (path : List Frame) (t : Tree) :
    (inOrder path t).length = t.size := by
  cases t with
  | node l ts =>
    have := length_inOrderAll l path [] ts
    simp only [inOrder, Tree.size, List.length_cons]
    omega

theorem length_inOrderAll (l : Label) (path : List Frame) (before after : List Tree) :
    (inOrderAll l path before after).length = Tree.sizeAll after := by
  cases after with
  | nil => rfl
  | cons t after =>
    have := length_inOrder (⟨l, before, after⟩ :: path) t
    have := length_inOrderAll l path (t :: before) after
    simp only [inOrderAll, Tree.sizeAll, List.length_append]
    omega

end

mutual

theorem visitFrom_perm (path : List Frame) (t : Tree) :
    (visitFrom path t).Perm (inOrder path t) := by
  cases t with
  | node l ts =>
    rw [visitFrom, inOrder]
    exact (visitAll_perm l path [] ts).cons _

theorem visitAll_perm (l : Label) (path : List Frame) (before after : List Tree) :
    (visitAll l path before after).Perm (inOrderAll l path before after) := by
  cases after with
  | nil => exact .refl _
  | cons t after =>
    rw [visitAll, inOrderAll]
    exact ((visitAll_perm l path (t :: before) after).append (visitFrom_perm _ t)).trans
      List.perm_append_comm

end

/-- The siblings behind `xs` are listed behind all that is in `xs`. -/
theorem exists_inOrderAll_append (l : Label) (path : List Frame) (before xs ys : List Tree) :
    ∃ front, front.length = Tree.sizeAll xs ∧
      inOrderAll l path before (xs ++ ys)
        = front ++ inOrderAll l path (xs.reverse ++ before) ys := by
  induction xs generalizing before with
  | nil => exact ⟨[], rfl, rfl⟩
  | cons t xs ih =>
    obtain ⟨front, hlength, heq⟩ := ih (t :: before)
    refine ⟨inOrder (⟨l, before, xs ++ ys⟩ :: path) t ++ front, ?_, ?_⟩
    · simp only [List.length_append, length_inOrder, hlength, Tree.sizeAll]
    · simp only [List.cons_append, inOrderAll, heq, List.reverse_cons, List.append_assoc,
        List.nil_append]

/-- One level up: what is listed of a node is listed of its parent,
behind the parent and all that is in the siblings before. -/
theorem getElem?_inOrder_plug (f : Frame) (up : List Frame) (t : Tree) (i : Nat) (c : Cursor)
    (h : (inOrder (f :: up) t)[i]? = some c) :
    (inOrder up (f.plug t))[1 + Tree.sizeAll f.left + i]? = some c := by
  obtain ⟨front, hlength, heq⟩ :=
    exists_inOrderAll_append f.label up [] f.left.reverse (t :: f.right)
  have hsize : front.length = Tree.sizeAll f.left := by
    rw [hlength, Tree.sizeAll_reverse]
  have hi : i < (inOrder (f :: up) t).length := (List.getElem?_eq_some_iff.1 h).1
  rw [Frame.plug, inOrder, heq, List.reverse_reverse, List.append_nil, inOrderAll,
    show 1 + Tree.sizeAll f.left + i = (front.length + i) + 1 by omega,
    List.getElem?_cons_succ, List.getElem?_append_right (by omega),
    show front.length + i - front.length = i by omega,
    List.getElem?_append_left hi]
  exact h

/-- What is listed of a node is listed of the whole tree, as much later
as the node itself. -/
theorem getElem?_inOrder_rebuild (path : List Frame) (t : Tree) (i : Nat) (c : Cursor)
    (h : (inOrder path t)[i]? = some c) :
    (inOrder [] (rebuild t path))[index ⟨t, path⟩ + i]? = some c := by
  induction path generalizing t i with
  | nil => simpa [index, rebuild] using h
  | cons f up ih =>
    have := ih _ _ (getElem?_inOrder_plug f up t i c h)
    simp only [index, rebuild, List.foldr_cons] at this ⊢
    rw [← this]
    congr 1
    omega

/-- A node is listed in the document order of its tree, at its index. -/
theorem getElem?_index (c : Cursor) : c.top.documentOrder[c.index]? = some c := by
  have h : (inOrder c.path c.focus)[0]? = some c := by
    obtain ⟨⟨l, ts⟩, path⟩ := c
    rfl
  exact getElem?_inOrder_rebuild c.path c.focus 0 c h

theorem mem_documentOrder_top (c : Cursor) : c ∈ c.top.documentOrder :=
  List.mem_of_getElem? c.getElem?_index

end Cursor

namespace Tree

/-- The document order lists as many nodes as there are. -/
theorem length_documentOrder (t : Tree) : t.documentOrder.length = t.size :=
  Cursor.length_inOrder [] t

/-- Visiting lists the same nodes as the document order. -/
theorem visit_perm (t : Tree) : t.visit.Perm t.documentOrder :=
  Cursor.visitFrom_perm [] t

end Tree

end QueryLint
