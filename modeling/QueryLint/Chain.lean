/-
Chains of calls: `users.Where(…).OrderBy(…).ToList()`. A chain is found
from its last call, the tail, by going from receiver to receiver down to
the first expression that is no call through a dot, its source. Each
chain has one tail: a call that is not, parentheses apart, the receiver
of another.

Of the calls of a chain, counted from the source, the analysis looks at
those before the first whose target is unknown. From there on nothing
can be said.
-/
import QueryLint.Resolve

namespace QueryLint

namespace Cursor

-- =================================================================== tails

/-- The outermost of the parentheses around `t`, along a path. -/
def outermost (t : Tree) : List Frame → Cursor
  | [] => ⟨t, []⟩
  | f :: up =>
    if f.label.kind = .parenthesized then outermost (f.plug t) up else ⟨t, f :: up⟩

/-- The outermost of the parentheses around a node, or the node itself. -/
def outside (c : Cursor) : Cursor := outermost c.focus c.path

/-- Whether a call is the last of its chain. It is not if, parentheses
apart, it is the object of a member access that a call is made on. -/
def isTail (c : Cursor) : Bool :=
  let outer := c.outside
  match outer.path with
  | access :: call :: _ =>
    !(access.label.kind == .memberAccess && outer.fills .expression
      && call.label.kind == .invocation)
  | _ => true

end Cursor

-- ================================================================== chains

/-- One call of a chain. -/
structure Call where
  site : Cursor
  /-- The node that names the method. -/
  name : Cursor

/-- A chain of calls, whatever they mean. -/
structure Chain where
  /-- The expression that the first call is made on. -/
  source : Cursor
  /-- The calls, from the source to the tail. -/
  calls : List Call

/-- The chain that ends at a node. A node that is no call through a dot
is the source of an empty chain. -/
def Cursor.chain (c : Cursor) : Chain :=
  match _h : c.memberCall? with
  | none => ⟨c, []⟩
  | some (receiver, name) =>
    let inner := receiver.unwrap.chain
    ⟨inner.source, inner.calls ++ [⟨c, name⟩]⟩
termination_by c.focus.size
decreasing_by
  exact Nat.lt_of_le_of_lt (Cursor.size_focus_unwrap_le _)
    (Cursor.size_focus_lt_of_memberCall? ‹_›)

-- ================================================================= queries

/-- A call of a chain whose target is known. -/
structure Link where
  site : Cursor
  /-- The name of the method as the call writes it. -/
  name : String
  target : Method

/-- A chain, as far as its calls are known. -/
structure Query where
  source : Cursor
  links : List Link

/-- The calls before the first unknown one. -/
def knownLinks (links : List (Option Link)) : List Link :=
  (links.takeWhile Option.isSome).filterMap id

/-- A call with its target, if that is known. -/
def Services.link? (services : Services) (src : Source) (call : Call) :
    Except AnalysisError (Option Link) := do
  let target ← services.method call.site
  return target.map fun method => ⟨call.site, src.simpleName call.name.focus, method⟩

/-- The query that ends at a node; none if the node is not the tail of a
chain. -/
def Services.query? (services : Services) (src : Source) (c : Cursor) :
    Except AnalysisError (Option Query) :=
  if c.memberCall?.isSome && c.isTail then do
    let links ← c.chain.calls.mapM (services.link? src)
    return some ⟨c.chain.source, knownLinks links⟩
  else return none

end QueryLint
