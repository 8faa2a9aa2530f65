/-
Analyses with limited room. Resolving an expression is a call that is
still open while the next one is resolved, so a long way to a type needs
many calls open at a time, and the stack that holds them has an end. A
resolution that comes to that end fails like one that goes in a circle:
from inside, the two cannot be told apart.

What is counted are the calls from one expression to the next: a member
access and a call each take two, one that resolves it and one that goes
to what it is made on; a name takes four, since it is looked up scope by
scope and there among variables. What a single call opens for a moment
and closes again before the next is not counted, and neither is what was
open before the analysis began.
-/
import QueryLint.Host

namespace QueryLint

/-- How many calls are open from the resolution of one expression to that
of the next. -/
def Wanted.frames : Wanted → Nat
  | .same | .element => 4
  | .member _ | .call _ _ => 2

theorem Wanted.frames_pos (wanted : Wanted) : 0 < wanted.frames := by
  cases wanted <;> exact Nat.succ_pos _

namespace Model

variable (m : Model)

/-- The type of an expression, resolved in so much room. -/
def resolveOn (room : Nat) (c : Cursor) : Except AnalysisError (Option Ty) :=
  if room = 0 then .error .endlessResolution
  else
    match m.step c with
    | .done type => .ok type
    | .ask other wanted => (resolveOn (room - wanted.frames) other).map (m.fetch wanted)
termination_by room
decreasing_by
  have := wanted.frames_pos
  omega

/-- The method that a call calls, found in so much room. -/
def resolveMethodOn (room : Nat) (c : Cursor) : Except AnalysisError (Option Method) :=
  match c.memberCall? with
  | none => .ok (m.ownTarget? c)
  | some (receiver, name) =>
    (m.resolveOn (room - 1) receiver).map (·.bind (m.target? c (m.source.simpleName name.focus)))

/-- The answers from the source, in so much room. -/
def servicesOn (room : Nat) : Services := ⟨m.resolveOn room, m.resolveMethodOn room⟩

end Model

namespace Host

/-- How many calls may be open at a time. -/
def room : Nat := 1000

variable (host : Host)

/-- What is reported in a document, in so much room. -/
def reportInOn (room : Nat) (index : Index) (doc : Document) :
    Except AnalysisError (List Diagnostic) := do
  let services := (Model.mk index doc.source).servicesOn room
  let found ← doc.tree.visit.mapM (host.reportAt services doc)
  return found.flatten

/-- The diagnostics of a compilation, found in so much room. -/
def analyzeOn (room : Nat) (comp : Compilation) : Except AnalysisError (List Diagnostic) := do
  let found ← comp.documents.mapM (host.reportInOn room comp.index)
  return Diagnostic.sort found.flatten

end Host

end QueryLint
