/-
The types of expressions and the targets of calls. There is no compiler
behind this: a type is known if the source writes it somewhere and the
way there leads through names, members, calls and initializers.

The way is a line and never branches. `step` looks at an expression and
either knows its type, or names one other expression whose type has to
be known first and says what is done with it. A resolution follows these
steps to the end and applies what is to be done on the way back. It need
not have an end: two variables of one declaration may be initialised
from each other, `for (var a = b, b = a; ; )`. Steps depend on nothing
but the node, and there are only so many nodes, so a resolution that
takes more steps than the tree has nodes is going in a circle, and that
is the one way in which it fails.
-/
import QueryLint.Operator
import QueryLint.Scope

namespace QueryLint

/-- The ways in which an analysis can break off. -/
inductive AnalysisError where
  /-- A type that is defined by itself, or that it takes more to find out
  than there is room for. -/
  | endlessResolution
  /-- A diagnostic was reported that no analyzer declares. -/
  | undeclaredDiagnostic (id : String)
deriving DecidableEq, Repr

/-- What is done with the type of an expression on the way to that of
another. -/
inductive Wanted where
  /-- The type itself. -/
  | same
  /-- What a collection of that type holds. -/
  | element
  /-- The type of a member; a member access may lack the name. -/
  | member (name : Option String)
  /-- What a call by that name, written at `site`, gives back. -/
  | call (site : Cursor) (name : String)

/-- The next step in resolving an expression. -/
inductive Step where
  /-- The type is known, or known to be unknown. -/
  | done (type : Option Ty)
  /-- The type follows from that of another expression. -/
  | ask (other : Cursor) (wanted : Wanted)

namespace Model

variable (m : Model)

-- =================================================================== calls

/-- The target of a call by `name` on a receiver of type `t`: a method
that the type or one of its bases declares, or else an operator. -/
def target? (site : Cursor) (name : String) (t : Ty) : Option Method :=
  (m.index.method? t.name name).or (Operator.bind? t name site.lambdaArity?)

/-- The target of a call that is not made through a dot: a method of the
type around it. -/
def ownTarget? (site : Cursor) : Option Method :=
  match site.child? .function with
  | none => none
  | some function =>
    if function.kind = .identifier ∨ function.kind = .genericName then
      (m.enclosing? site).bind fun owner =>
        m.index.method? owner.name (m.source.simpleName function.focus)
    else none

-- =================================================================== steps

/-- The step from a binding. -/
def ofBinding : Option Binding → Step
  | none => .done none
  | some (.typed type) => .done type
  | some (.typeOf value) => .ask value .same
  | some (.elementOf collection) => .ask collection .element

/-- The step from a call. -/
def ofCall (c : Cursor) : Step :=
  match c.memberCall? with
  | some (receiver, name) => .ask receiver (.call c (m.source.simpleName name.focus))
  | none => .done ((m.ownTarget? c).bind (·.returns))

/-- The step from a member access. -/
def ofAccess (c : Cursor) : Step :=
  match c.child? .expression with
  | none => .done none
  | some object =>
    .ask object (.member ((c.child? .name).map fun name => m.source.simpleName name.focus))

/-- The step from an expression without parentheses around it. -/
def ofExpression (c : Cursor) : Step :=
  match c.kind with
  | .identifier => ofBinding (m.meaning? c)
  | .this | .thisExpression => .done (m.enclosing? c)
  | .memberAccess => m.ofAccess c
  | .invocation => m.ofCall c
  | .objectCreation | .cast => .done (m.declared? c)
  | _ => .done none

/-- The first step in resolving an expression. -/
def step (c : Cursor) : Step := m.ofExpression c.unwrap

/-- The type that is wanted, from the type that was asked for. -/
def fetch (wanted : Wanted) (type : Option Ty) : Option Ty :=
  type.bind fun t =>
    match wanted with
    | .same => some t
    | .element => some t.element
    | .member name => name.bind (m.index.memberType? t.name)
    | .call site name => (m.target? site name t).bind (·.returns)

-- ============================================================== resolutions

/-- The type of an expression, if it is settled within a number of
steps. -/
def resolveWithin : Nat → Cursor → Except AnalysisError (Option Ty)
  | 0, _ => .error .endlessResolution
  | steps + 1, c =>
    match m.step c with
    | .done type => .ok type
    | .ask other wanted => (resolveWithin steps other).map (m.fetch wanted)

/-- The type of an expression, or none when it is unknown. -/
def resolve (c : Cursor) : Except AnalysisError (Option Ty) :=
  m.resolveWithin c.top.size c

/-- The method that a call calls, or none when it is unknown. -/
def resolveMethod (c : Cursor) : Except AnalysisError (Option Method) :=
  match c.memberCall? with
  | none => .ok (m.ownTarget? c)
  | some (receiver, name) =>
    (m.resolve receiver).map (·.bind (m.target? c (m.source.simpleName name.focus)))

end Model

-- ================================================================ services

/-- What an analyzer may ask about a node. -/
structure Services where
  type : Cursor → Except AnalysisError (Option Ty)
  method : Cursor → Except AnalysisError (Option Method)

/-- The answers from the source. -/
def Model.services (m : Model) : Services := ⟨m.resolve, m.resolveMethod⟩

end QueryLint
