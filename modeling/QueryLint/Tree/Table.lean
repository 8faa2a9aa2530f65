/-
Trees from tables. A parser hands over its nodes as rows in document
order, each with the row number of its parent; `ofRows?` puts the tree
together. The rows are taken from the last to the first, so that a row
finds its children finished and waiting.
-/
import QueryLint.Tree.Basic

namespace QueryLint

/-- One node of a table. -/
structure Row where
  label : Label
  /-- The number of the parent's row; the root has none. -/
  parent : Option Nat
deriving Repr

namespace Tree

/-- Row `i` takes the waiting subtrees that name it as their parent, in
order, and then waits for its own. -/
def gather (row : Row × Nat) (waiting : List (Option Nat × Tree)) :
    List (Option Nat × Tree) :=
  let (mine, others) := waiting.partition (·.1 == some row.2)
  (row.1.parent, node row.1.label (mine.map (·.2))) :: others

/-- The tree of a table: the one that waits for no parent. -/
def ofRows? (rows : List Row) : Option Tree :=
  ((rows.zipIdx.foldr gather []).find? (·.1 == none)).map (·.2)

end Tree

end QueryLint
