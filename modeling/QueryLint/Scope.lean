/-
What a name means at a place. The nodes around a use are its scopes,
innermost first, and the first of them that binds the name decides. A
scope may bind a name without saying what type it has: the parameter of
`x => …` hides every outer `x`, and is of no known type. Hence the two
levels in `Option Binding`: no binding here means that the search goes
on outward, and a binding of unknown type ends it.

Locals are bound by the statements before the use. A variable is not in
scope in its own initializer, nor the variable of a `foreach` in the
collection that it runs through, so `var x = x.First()` speaks of an
outer `x`.
-/
import QueryLint.Call
import QueryLint.Declaration.Index

namespace QueryLint

/-- What is known of a name in the scope that binds it. -/
inductive Binding where
  /-- Its type as written, or that there is nothing to tell it by. -/
  | typed (type : Option Ty)
  /-- It has the type of an expression, which it starts with. -/
  | typeOf (value : Cursor)
  /-- It runs through the elements of a collection. -/
  | elementOf (collection : Cursor)

/-- A name at a place in the source. -/
structure Use where
  name : String
  offset : Nat

/-- What the types in a document are told from: the declarations of the
whole compilation, and the document's own source. -/
structure Model where
  index : Index
  source : Source

namespace Model

variable (m : Model)

/-- The text of the node at a cursor. -/
def text (c : Cursor) : String := m.source.text c.focus

/-- Whether the name of a node is `name`. -/
def isNamed (c : Cursor) (name : String) : Bool :=
  match c.child? .name with
  | none => false
  | some n => m.text n == name

/-- The type written in a node's type field. -/
def declared? (c : Cursor) : Option Ty := Ty.declared? m.source c.focus

-- ========================================================== kinds of scope

/-- The binding by a list of parameters. -/
def inParameters (parameters : List Cursor) (use : Use) : Option Binding :=
  (parameters.find? (m.isNamed · use.name)).map fun p => .typed (m.declared? p)

/-- The binding by a lambda: of the parameters that it lists, or of the
identifier that stands for them. -/
def inLambda (scope : Cursor) (use : Use) : Option Binding :=
  match scope.lambdaParameters? with
  | some parameters => m.inParameters parameters use
  | none =>
    match scope.child? .parameters with
    | some single => if m.text single = use.name then some (.typed none) else none
    | none => none

/-- The binding by the parameters of a method or the like. -/
def inCallable (scope : Cursor) (use : Use) : Option Binding :=
  match scope.child? .parameters with
  | none => none
  | some list => m.inParameters (list.namedOfKind .parameter) use

/-- Whether a declarator binds the name of a use outside itself. -/
def declares (declarator : Cursor) (use : Use) : Bool :=
  !declarator.covers use.offset &&
    match declarator.declarator.name with
    | none => false
    | some name => m.text name == use.name

/-- The binding by a declaration of variables. -/
def inVariables (declaration : Cursor) (use : Use) : Option Binding :=
  ((declaration.namedOfKind .variableDeclarator).find? (m.declares · use)).map fun d =>
    match m.declared? declaration with
    | some type => .typed (some type)
    | none =>
      match d.declarator.value with
      | some value => .typeOf value
      | none => .typed none

/-- The binding by the declarations of variables directly in a node. -/
def inHead (scope : Cursor) (use : Use) : Option Binding :=
  (scope.namedOfKind .variableDeclaration).findSome? (m.inVariables · use)

/-- The binding by the statements of a block that begin before the use. -/
def inBlock (scope : Cursor) (use : Use) : Option Binding :=
  (scope.namedChildren.takeWhile (decide <| ·.start < use.offset)).findSome? fun statement =>
    if statement.kind = .localDeclaration then m.inHead statement use else none

/-- The binding by a `foreach`, outside its collection. -/
def inForEach (scope : Cursor) (use : Use) : Option Binding :=
  match scope.child? .left with
  | none => none
  | some item =>
    if m.text item ≠ use.name then none
    else
      match scope.child? .right with
      | none => some (.typed (m.declared? scope))
      | some collection =>
        if collection.covers use.offset then none
        else
          match m.declared? scope with
          | some type => some (.typed (some type))
          | none => some (.elementOf collection)

/-- The binding by the members of a type and of its bases. -/
def inType (scope : Cursor) (use : Use) : Option Binding :=
  match scope.child? .name with
  | none => none
  | some name => (m.index.memberType? (m.text name) use.name).map fun t => .typed (some t)

-- ================================================================ the search

/-- What a scope binds a name to, if it does. -/
def binding? (scope : Cursor) (use : Use) : Option Binding :=
  if scope.kind = .lambda then m.inLambda scope use
  else if scope.kind.declaresCallable then m.inCallable scope use
  else if scope.kind = .block then m.inBlock scope use
  else if scope.kind = .forEachStatement then m.inForEach scope use
  else if scope.kind.declaresInHead then m.inHead scope use
  else if scope.kind.declaresType then m.inType scope use
  else none

/-- The meaning of the identifier at a cursor: that of the innermost
scope that has one. -/
def meaning? (c : Cursor) : Option Binding :=
  c.ancestors.findSome? (m.binding? · ⟨m.text c, c.start⟩)

/-- The type whose declaration a node is in: the innermost one, if it
has a name. -/
def enclosing? (c : Cursor) : Option Ty :=
  match c.ancestors.find? (·.kind.declaresType) with
  | none => none
  | some scope => (scope.child? .name).map fun name => .plain (m.text name)

end Model

end QueryLint
