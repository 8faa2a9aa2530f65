/-
Variable declarators: `name`, or `name = value`. The grammar has spelled
the value in two ways, as a clause of its own or as a bare expression
behind the equals sign, and `Declarator.scan` reads both.

The same reading is wanted of bare trees, where only the name matters,
and of cursors, where the value is needed in its place. `scan` therefore
takes the children in either form, with a function that gives the tree
of one.
-/
import QueryLint.Tree.Cursor

namespace QueryLint

/-- The parts of a declarator. -/
structure Declarator (α : Type) where
  name : Option α
  /-- The value that the variable starts with. -/
  value : Option α
deriving Repr

namespace Declarator

/-- The parts of a declarator, each changed. -/
def map {α : Type} (g : α → α) (d : Declarator α) : Declarator α := ⟨d.name.map g, d.value.map g⟩

/-- What is known of a declarator part of the way through its children. -/
structure Progress (α : Type) where
  parts : Declarator α
  /-- Whether the equals sign has been passed. -/
  behindEquals : Bool

variable {α : Type}

/-- Reads the children of a declarator from left to right. While there
is no name, an identifier is the name. A clause holds the value in its
first part, and behind an equals sign the next part is the value, which
ends the reading. -/
def scan (tree : α → Tree) (inner : α → Option α) (p : Progress α) :
    List α → Declarator α
  | [] => p.parts
  | x :: rest =>
    if p.parts.name.isNone && (tree x).kind == .identifier then
      scan tree inner { p with parts := { p.parts with name := some x } } rest
    else if (tree x).kind == .equalsValueClause then
      scan tree inner { p with parts := { p.parts with value := inner x } } rest
    else if (tree x).kind == .equalsSign then
      scan tree inner { p with behindEquals := true } rest
    else if p.behindEquals && (tree x).label.counts then
      { p.parts with value := some x }
    else scan tree inner p rest

end Declarator

/-- The parts of a declarator at a cursor. -/
def Cursor.declarator (c : Cursor) : Declarator Cursor :=
  Declarator.scan Cursor.focus (·.namedChildren.head?) ⟨⟨c.child? .name, none⟩, false⟩ c.children

/-- The parts of a bare declarator. -/
def Tree.declarator (t : Tree) : Declarator Tree :=
  Declarator.scan id (·.namedChildren.head?) ⟨⟨t.child? .name, none⟩, false⟩ t.children

end QueryLint
