/-
The events of an analysis, in the order in which they arise. Resolving
an expression tells of every call on the way, innermost first, and tells
again whenever the expression is resolved again. Values are computed
elsewhere; the functions here follow the same steps and only watch.
-/
import QueryLint.Event
import QueryLint.Rule.IndexLambda

namespace QueryLint

namespace Model

variable (m : Model)

/-- The position of the first byte of a node. -/
def point (c : Cursor) : Point := m.source.point c.start

/-- The events of finding the target of a call whose receiver has been
resolved: an unknown receiver is told, and so is an operator. -/
def targetEvents (site : Cursor) (name : String) : Option Ty → List Event
  | none => [.unresolvedReceiver name (m.point site)]
  | some t =>
    if (m.index.method? t.name name).isSome then []
    else
      match Operator.find? t.name name with
      | none => []
      | some (family, op) => [.bound t name family.typeName op.name]

/-- The events of putting a type to use. -/
def fetchEvents (wanted : Wanted) (type : Except AnalysisError (Option Ty)) : List Event :=
  match wanted, type with
  | .call site name, .ok type => m.targetEvents site name type
  | _, _ => []

/-- The events of a resolution within a number of steps. -/
def eventsWithin : Nat → Cursor → List Event
  | 0, _ => []
  | steps + 1, c =>
    match m.step c with
    | .done _ => []
    | .ask other wanted =>
      eventsWithin steps other ++ m.fetchEvents wanted (m.resolveWithin steps other)

/-- The events of resolving an expression. -/
def resolveEvents (c : Cursor) : List Event := m.eventsWithin c.top.size c

/-- The events of finding the target of a call. -/
def methodEvents (c : Cursor) : List Event :=
  match c.memberCall? with
  | none => []
  | some (receiver, name) =>
    m.resolveEvents receiver ++
      m.fetchEvents (.call c (m.source.simpleName name.focus)) (m.resolve receiver)

end Model

namespace IndexLambda

/-- The events of looking at one call of a chain. -/
def callEvents (m : Model) (call : Call) : List Event :=
  m.methodEvents call.site ++
    match m.resolveMethod call.site with
    | .ok none => [.unresolvedCall (m.source.simpleName call.name.focus) (m.point call.site)]
    | _ => []

/-- The event of leaving the database, if a query does. -/
def leaveEvents (m : Model) (query : Query) : List Event :=
  match query.links.find? (!onQuery ·) with
  | none => []
  | some link => [.inMemory link.name (m.point link.site)]

/-- The events of looking at a node. The calls of a chain are looked at
from the tail to the source. -/
def events (m : Model) (c : Cursor) : List Event :=
  match m.services.query? m.source c with
  | .ok (some query) =>
    c.chain.calls.reverse.flatMap (callEvents m) ++ m.resolveEvents query.source ++
      match m.resolve query.source with
      | .ok type => if isTable type then leaveEvents m query else []
      | .error _ => []
  | _ => []

end IndexLambda

end QueryLint
