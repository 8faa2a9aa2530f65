/-
Cursors: a node together with the way down to it. The analysis looks up
from a node as often as down — to the scopes around an identifier, or
to the call that a call is the receiver of — and a node of a bare tree
does not know its parent. A cursor does: `focus` is the node's subtree
and `path` lists what is around it, innermost first, each `Frame` with
the siblings on either side.

Two cursors into one tree are equal exactly when they stand at the same
node, so nothing here needs node identities.

Walking down keeps `focus` shrinking (`size_focus_lt_of_mem_children`
and its kin); walking up consumes `path`.
-/
import QueryLint.Tree.Basic

namespace QueryLint

/-- One level of the way down: the parent's label and the siblings. -/
structure Frame where
  label : Label
  /-- The siblings before the node, nearest first. -/
  left : List Tree
  /-- The siblings behind the node, nearest first. -/
  right : List Tree
deriving Repr

/-- The parent, with `t` at the place that the frame leaves open. -/
def Frame.plug (f : Frame) (t : Tree) : Tree :=
  .node f.label (f.left.reverse ++ t :: f.right)

/-- A node in its tree. -/
structure Cursor where
  focus : Tree
  /-- The levels above the node, innermost first. -/
  path : List Frame
deriving Repr

/-- The cursor at the root of a tree. -/
def Tree.root (t : Tree) : Cursor := ⟨t, []⟩

namespace Cursor

def label (c : Cursor) : Label := c.focus.label

def kind (c : Cursor) : Kind := c.label.kind

def start (c : Cursor) : Nat := c.label.start

def stop (c : Cursor) : Nat := c.label.stop

/-- Whether an offset lies in the node's byte range. -/
def covers (c : Cursor) (offset : Nat) : Bool :=
  decide (c.start ≤ offset) && decide (offset < c.stop)

-- ==================================================================== down

/-- Cursors at the siblings `after`, behind the siblings `before`. -/
def along (l : Label) (up : List Frame) : (before after : List Tree) → List Cursor
  | _, [] => []
  | before, t :: after =>
    ⟨t, ⟨l, before, after⟩ :: up⟩ :: along l up (t :: before) after

/-- The children, in source order. -/
def children (c : Cursor) : List Cursor :=
  along c.label c.path [] c.focus.children

/-- The children that are parts of the construct. -/
def namedChildren (c : Cursor) : List Cursor :=
  c.children.filter (·.label.counts)

/-- The children of a given kind among those that are parts of the
construct. -/
def namedOfKind (c : Cursor) (k : Kind) : List Cursor :=
  c.namedChildren.filter (·.kind == k)

/-- The first child in a field. -/
def child? (c : Cursor) (f : Field) : Option Cursor :=
  c.children.find? (·.label.field == some f)

@[simp]
theorem map_focus_along (l : Label) (up : List Frame) (before after : List Tree) :
    (along l up before after).map focus = after := by
  induction after generalizing before with
  | nil => rfl
  | cons t after ih => simp [along, ih]

/-- A cursor's children stand at the children of its node. -/
@[simp]
theorem map_focus_children (c : Cursor) :
    c.children.map focus = c.focus.children := by
  simp [children]

/-- A child is smaller than its parent. -/
theorem size_focus_lt_of_mem_children {c d : Cursor} (h : d ∈ c.children) :
    d.focus.size < c.focus.size := by
  apply Tree.size_lt_of_mem_children
  rw [← map_focus_children]
  exact List.mem_map_of_mem h

theorem size_focus_lt_of_mem_namedChildren {c d : Cursor} (h : d ∈ c.namedChildren) :
    d.focus.size < c.focus.size :=
  size_focus_lt_of_mem_children (List.mem_filter.1 h).1

theorem size_focus_lt_of_child? {c d : Cursor} {f : Field} (h : c.child? f = some d) :
    d.focus.size < c.focus.size :=
  size_focus_lt_of_mem_children (List.mem_of_find?_eq_some h)

-- ====================================================================== up

/-- The nodes around `t` along a path, innermost first. -/
def above (t : Tree) : List Frame → List Cursor
  | [] => []
  | f :: up => ⟨f.plug t, up⟩ :: above (f.plug t) up

/-- The nodes around a node, its parent first and the root last. -/
def ancestors (c : Cursor) : List Cursor := above c.focus c.path

/-- The tree that a subtree is in, along a path. -/
def rebuild (t : Tree) : List Frame → Tree
  | [] => t
  | f :: up => rebuild (f.plug t) up

/-- The whole tree. -/
def top (c : Cursor) : Tree := rebuild c.focus c.path

/-- Whether the node is what its parent answers for a field: it carries
the field, and no sibling before it does. -/
def fills (c : Cursor) (f : Field) : Bool :=
  match c.path with
  | [] => false
  | frame :: _ =>
    c.label.field == some f && frame.left.all (·.label.field != some f)

end Cursor

end QueryLint
