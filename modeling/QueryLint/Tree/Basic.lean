/-
Syntax trees. A tree is a label over its children in source order; what
the analysis asks of a node is its children that count (named, and no
comments) and its child in a given field, which is the first one there
if the tree has several.

`size` counts nodes. Every child is smaller than its parent, and that is
the measure by which everything that walks down a tree terminates.
-/
import QueryLint.Tree.Label

namespace QueryLint

/-- A syntax tree. -/
inductive Tree where
  | node (label : Label) (children : List Tree)
deriving Repr

namespace Tree

def label : Tree → Label
  | node l _ => l

/-- The children, in source order. -/
def children : Tree → List Tree
  | node _ ts => ts

def kind (t : Tree) : Kind := t.label.kind

/-- The children that are parts of the construct. -/
def namedChildren (t : Tree) : List Tree := t.children.filter (·.label.counts)

/-- The children of a given kind among those that are parts of the
construct. -/
def namedOfKind (t : Tree) (k : Kind) : List Tree :=
  t.namedChildren.filter (·.kind == k)

/-- The first child in a field. -/
def child? (t : Tree) (f : Field) : Option Tree :=
  t.children.find? (·.label.field == some f)

-- ==================================================================== size

mutual

/-- The number of nodes. -/
def size : Tree → Nat
  | node _ ts => 1 + sizeAll ts

/-- The number of nodes of several trees. -/
def sizeAll : List Tree → Nat
  | [] => 0
  | t :: ts => t.size + sizeAll ts

end

theorem size_eq (t : Tree) : t.size = 1 + sizeAll t.children := by
  cases t with | node l ts => simp [size, children]

theorem sizeAll_append (ts us : List Tree) :
    sizeAll (ts ++ us) = sizeAll ts + sizeAll us := by
  induction ts with
  | nil => simp [sizeAll]
  | cons t ts ih => simp [sizeAll, ih, Nat.add_assoc]

theorem sizeAll_reverse (ts : List Tree) : sizeAll ts.reverse = sizeAll ts := by
  induction ts with
  | nil => rfl
  | cons t ts ih =>
    simp only [List.reverse_cons, sizeAll_append, sizeAll, ih]
    omega

theorem size_le_sizeAll {t : Tree} {ts : List Tree} (h : t ∈ ts) :
    t.size ≤ sizeAll ts := by
  induction ts with
  | nil => cases h
  | cons u ts ih =>
    rcases List.mem_cons.1 h with rfl | h
    · simp [sizeAll]
    · have := ih h
      simp only [sizeAll]
      omega

/-- A child is smaller than its parent. -/
theorem size_lt_of_mem_children {t u : Tree} (h : u ∈ t.children) :
    u.size < t.size := by
  have := size_le_sizeAll h
  rw [size_eq t]
  omega

theorem mem_children_of_mem_namedChildren {t u : Tree} (h : u ∈ t.namedChildren) :
    u ∈ t.children :=
  (List.mem_filter.1 h).1

theorem mem_children_of_child? {t u : Tree} {f : Field} (h : t.child? f = some u) :
    u ∈ t.children :=
  List.mem_of_find?_eq_some h

end Tree

end QueryLint
