/-
One activation of the resolver, written as it runs. `step` says at once
whether the type of an expression is known or which other expression it
follows from. Written out, an activation is a number of loops, over the
scopes around a name, the statements of a block, the declarations of a
statement and the variables of a declaration, and somewhere in the middle
of these the type of another expression may be wanted before the loops
can go on. `Inquiry` is a computation of this kind: it may ask for a type
and goes on from there with any answer. It may also ask about nothing,
as for the type of an initializer that is missing, and that counts as a
question like any other.

# Why it asks once

A loop goes on when a lookup finds nothing, so it could ask again. It
does not, since a lookup that asks has found the variable already: all
that is open is its type, and the answer, be it that nothing is known,
is what the lookup ends with (`AsksLast`). Loops keep this
(`asksLast_first`), so an activation asks at most once
(`asksWithin_one_activation`), and unless it asks about nothing `step`
says what it asks (`trim_activation`).
-/
import QueryLint.Proofs.Scope.Offer
import QueryLint.Resolve

namespace QueryLint

-- ================================================================ inquiries

/-- A computation that may ask for the type of an expression and go on
with the answer. -/
inductive Inquiry (α : Type) where
  | answer (a : α)
  /-- Where there is no expression, the answer is that there is no type. -/
  | ask (c : Option Cursor) (next : Option Ty → Inquiry α)

namespace Inquiry

variable {α β : Type}

/-- One computation and then another. -/
protected def bind : Inquiry α → (α → Inquiry β) → Inquiry β
  | answer a, f => f a
  | ask c next, f => ask c fun type => (next type).bind f

instance : Monad Inquiry where
  pure := answer
  bind := Inquiry.bind

/-- The type of an expression. -/
def typeOf (c : Option Cursor) : Inquiry (Option Ty) := ask c answer

/-- Goes through a list until something is found. -/
def first (look : α → Inquiry (Option β)) : List α → Inquiry (Option β)
  | [] => answer none
  | x :: xs => do
    match ← look x with
    | some found => return some found
    | none => first look xs

/-- The outcome, if the types are told by a resolver that may fail. -/
def run {ε : Type} (resolve : Cursor → Except ε (Option Ty)) : Inquiry α → Except ε α
  | answer a => .ok a
  | ask none next => (next none).run resolve
  | ask (some c) next => do
    let type ← resolve c
    (next type).run resolve

-- ======================================================= how often it asks

/-- Asks no more than so many times, whatever the answers are. -/
def AsksWithin : Nat → Inquiry α → Prop
  | _, answer _ => True
  | 0, ask _ _ => False
  | n + 1, ask _ next => ∀ type, AsksWithin n (next type)

/-- A lookup that asks at most once, and in that case finds something
whatever the answer is. -/
def AsksLast : Inquiry (Option α) → Prop
  | answer _ => True
  | ask _ next => ∀ type, ∃ found, next type = answer (some found)

/-- A loop over such lookups is one as well: it goes on only as long as
nothing has been asked. -/
theorem asksLast_first {look : α → Inquiry (Option β)} {xs : List α}
    (h : ∀ x ∈ xs, (look x).AsksLast) : (first look xs).AsksLast := by
  induction xs with
  | nil => trivial
  | cons x xs ih =>
    have hrest := ih fun y hy => h y (List.mem_cons_of_mem x hy)
    have hx := h x List.mem_cons_self
    rw [first]
    cases hlook : look x with
    | answer found =>
      cases found with
      | none => exact hrest
      | some found => trivial
    | ask c next =>
      rw [hlook] at hx
      intro type
      obtain ⟨found, hfound⟩ := hx type
      refine ⟨found, ?_⟩
      show (next type).bind _ = _
      rw [hfound]
      rfl

theorem AsksLast.asksWithin_one {x : Inquiry (Option α)} (h : x.AsksLast) (f : Option α → β) :
    AsksWithin 1 (do return f (← x)) := by
  cases x with
  | answer a => trivial
  | ask c next =>
    intro type
    obtain ⟨found, hfound⟩ := h type
    show AsksWithin 0 ((next type).bind _)
    rw [hfound]
    trivial

-- ========================================================= what it asks about

/-- The same computation without questions about nothing. -/
def trim : Inquiry α → Inquiry α
  | answer a => answer a
  | ask none next => (next none).trim
  | ask (some c) next => ask (some c) fun type => (next type).trim

theorem trim_bind (x : Inquiry α) (f : α → Inquiry β) :
    (x >>= f).trim = x.trim >>= fun a => (f a).trim := by
  induction x with
  | answer a => rfl
  | ask c next ih =>
    cases c with
    | none => exact ih none
    | some c => exact congrArg (ask (some c)) (funext ih)

theorem run_trim {ε : Type} (resolve : Cursor → Except ε (Option Ty)) (x : Inquiry α) :
    x.trim.run resolve = x.run resolve := by
  induction x with
  | answer a => rfl
  | ask c next ih =>
    cases c with
    | none => exact ih none
    | some c =>
      show (resolve c >>= fun type => (next type).trim.run resolve) = _
      rw [funext ih]
      rfl

end Inquiry

-- =============================================================== activations

/-- The type of a name that is written where the name is bound. -/
def Binding.written : Binding → Option Ty
  | typed type => type
  | _ => none

namespace Model

variable (m : Model)

/-- Looks for a variable among those of a declaration. What is found may
lack a type. -/
def lookVariables (declaration : Cursor) (use : Use) : Inquiry (Option (Option Ty)) :=
  Inquiry.first (fun d =>
    if d.covers use.offset then return none
    else
      match d.declarator.name with
      | none => return none
      | some name =>
        if m.text name ≠ use.name then return none
        else
          match m.declared? declaration with
          | some type => return some (some type)
          | none => return some (← Inquiry.typeOf d.declarator.value))
    (declaration.namedOfKind .variableDeclarator)

/-- Looks in the declarations of variables directly in a node. -/
def lookHead (scope : Cursor) (use : Use) : Inquiry (Option (Option Ty)) :=
  Inquiry.first (m.lookVariables · use) (scope.namedOfKind .variableDeclaration)

/-- Looks in the statements of a block that begin before the use. -/
def lookBlock (scope : Cursor) (use : Use) : Inquiry (Option (Option Ty)) :=
  Inquiry.first
    (fun statement =>
      if statement.kind = .localDeclaration then m.lookHead statement use else return none)
    (scope.namedChildren.takeWhile (decide <| ·.start < use.offset))

/-- Looks at the variable of a `foreach`. -/
def lookForEach (scope : Cursor) (use : Use) : Inquiry (Option (Option Ty)) :=
  match scope.child? .left with
  | none => return none
  | some item =>
    if m.text item ≠ use.name then return none
    else if (scope.child? .right).any (·.covers use.offset) then return none
    else
      match m.declared? scope with
      | some type => return some (some type)
      | none => return some ((← Inquiry.typeOf (scope.child? .right)).map Ty.element)

/-- Looks for a name in a scope. Parameters and members are of written
types, so that nothing is asked about them. -/
def lookScope (scope : Cursor) (use : Use) : Inquiry (Option (Option Ty)) :=
  if scope.kind = .lambda then return (m.inLambda scope use).map Binding.written
  else if scope.kind.declaresCallable then return (m.inCallable scope use).map Binding.written
  else if scope.kind = .block then m.lookBlock scope use
  else if scope.kind = .forEachStatement then m.lookForEach scope use
  else if scope.kind.declaresInHead then m.lookHead scope use
  else if scope.kind.declaresType then return (m.inType scope use).map Binding.written
  else return none

/-- The type of a name, from the innermost scope that has it. -/
def lookName (c : Cursor) : Inquiry (Option Ty) := do
  return (← Inquiry.first (m.lookScope · ⟨m.text c, c.start⟩) c.ancestors).join

/-- The type of a member access, from that of its object. -/
def lookAccess (c : Cursor) : Inquiry (Option Ty) := do
  let object ← Inquiry.typeOf (c.child? .expression)
  return object.bind fun type =>
    (c.child? .name).bind fun name =>
      m.index.memberType? type.name (m.source.simpleName name.focus)

/-- The target of a call, from the type of its receiver if there is one. -/
def lookTarget (c : Cursor) : Inquiry (Option Method) :=
  match c.memberCall? with
  | none => return m.ownTarget? c
  | some (receiver, name) => do
    let type ← Inquiry.typeOf (some receiver)
    return type.bind (m.target? c (m.source.simpleName name.focus))

/-- What is done with an expression without parentheses around it. -/
def lookExpression (c : Cursor) : Inquiry (Option Ty) :=
  match c.kind with
  | .identifier => m.lookName c
  | .this | .thisExpression => return m.enclosing? c
  | .memberAccess => m.lookAccess c
  | .invocation => do return (← m.lookTarget c).bind (·.returns)
  | .objectCreation | .cast => return m.declared? c
  | _ => return none

/-- One activation of the resolver: all that it does itself, up to the
types that it asks for. -/
def activation (c : Cursor) : Inquiry (Option Ty) := m.lookExpression c.unwrap

-- ================================================================ the loops

theorem asksLast_lookVariables (declaration : Cursor) (use : Use) :
    (m.lookVariables declaration use).AsksLast := by
  refine Inquiry.asksLast_first fun d _ => ?_
  split
  · trivial
  · split
    · trivial
    · split
      · trivial
      · split
        · trivial
        · exact fun type => ⟨type, rfl⟩

theorem asksLast_lookHead (scope : Cursor) (use : Use) : (m.lookHead scope use).AsksLast :=
  Inquiry.asksLast_first fun declaration _ => m.asksLast_lookVariables declaration use

theorem asksLast_lookBlock (scope : Cursor) (use : Use) : (m.lookBlock scope use).AsksLast := by
  refine Inquiry.asksLast_first fun statement _ => ?_
  split
  · exact m.asksLast_lookHead statement use
  · trivial

theorem asksLast_lookForEach (scope : Cursor) (use : Use) :
    (m.lookForEach scope use).AsksLast := by
  unfold lookForEach
  split
  · trivial
  · split
    · trivial
    · split
      · trivial
      · split
        · trivial
        · exact fun type => ⟨type.map Ty.element, rfl⟩

theorem asksLast_lookScope (scope : Cursor) (use : Use) : (m.lookScope scope use).AsksLast := by
  unfold lookScope
  split
  · trivial
  · split
    · trivial
    · split
      · exact m.asksLast_lookBlock scope use
      · split
        · exact m.asksLast_lookForEach scope use
        · split
          · exact m.asksLast_lookHead scope use
          · split
            · trivial
            · trivial

/-- An activation asks at most once. -/
theorem asksWithin_one_activation (c : Cursor) : (m.activation c).AsksWithin 1 := by
  unfold activation lookExpression
  split
  · exact (Inquiry.asksLast_first fun scope _ => m.asksLast_lookScope scope _).asksWithin_one _
  · trivial
  · trivial
  · exact fun type => trivial
  · unfold lookTarget
    split
    · trivial
    · exact fun type => trivial
  · trivial
  · trivial
  · trivial

-- ================================================================= one step

/-- A lookup with a known outcome, as a computation. -/
def ofBinding? : Option Binding → Inquiry (Option (Option Ty))
  | none => .answer none
  | some (.typed type) => .answer (some type)
  | some (.typeOf value) => .ask (some value) fun type => .answer (some type)
  | some (.elementOf collection) =>
    .ask (some collection) fun type => .answer (some (type.map Ty.element))

/-- Where each lookup has a known outcome, so has a loop. -/
theorem trim_first {α : Type} {look : α → Inquiry (Option (Option Ty))} {g : α → Option Binding}
    {xs : List α} (h : ∀ x ∈ xs, (look x).trim = ofBinding? (g x)) :
    (Inquiry.first look xs).trim = ofBinding? (xs.findSome? g) := by
  induction xs with
  | nil => rfl
  | cons x xs ih =>
    have hrest := ih fun y hy => h y (List.mem_cons_of_mem x hy)
    rw [Inquiry.first, Inquiry.trim_bind, h x List.mem_cons_self, List.findSome?_cons]
    cases g x with
    | none => exact hrest
    | some b =>
      cases b with
      | typed type => rfl
      | typeOf value => rfl
      | elementOf collection => rfl

theorem trim_written {x : Option Binding} (h : ∀ b, x = some b → b.value? = none) :
    (return x.map Binding.written : Inquiry (Option (Option Ty))).trim = ofBinding? x := by
  cases x with
  | none => rfl
  | some b =>
    cases b with
    | typed type => rfl
    | typeOf value => cases h _ rfl
    | elementOf collection => cases h _ rfl

theorem trim_lookVariables (declaration : Cursor) (use : Use) :
    (m.lookVariables declaration use).trim = ofBinding? (m.inVariables declaration use) := by
  unfold inVariables
  rw [List.find?_eq_findSome?_guard, List.map_findSome?]
  refine trim_first fun d _ => ?_
  rw [Function.comp_apply, Option.guard]
  by_cases hcovers : d.covers use.offset = true
  · have hnot : m.declares d use = false := by simp [declares, hcovers]
    rw [if_pos hcovers, hnot]
    rfl
  · rw [if_neg hcovers]
    cases hpart : d.declarator.name with
    | none =>
      have hnot : m.declares d use = false := by simp [declares, hpart]
      rw [hnot]
      rfl
    | some name =>
      by_cases hname : m.text name = use.name
      · have hdeclares : m.declares d use = true := by simp [declares, hpart, hcovers, hname]
        rw [hdeclares]
        simp only [hname, ne_eq, not_true_eq_false, if_false, if_true, Option.map_some]
        cases m.declared? declaration with
        | some type => rfl
        | none =>
          cases d.declarator.value with
          | none => rfl
          | some value => rfl
      · have hnot : m.declares d use = false := by simp [declares, hpart, hname]
        rw [hnot]
        simp only [ne_eq, hname, not_false_eq_true, if_true]
        rfl

theorem trim_lookHead (scope : Cursor) (use : Use) :
    (m.lookHead scope use).trim = ofBinding? (m.inHead scope use) :=
  trim_first fun declaration _ => m.trim_lookVariables declaration use

theorem trim_lookBlock (scope : Cursor) (use : Use) :
    (m.lookBlock scope use).trim = ofBinding? (m.inBlock scope use) := by
  refine trim_first fun statement _ => ?_
  split
  · exact m.trim_lookHead statement use
  · rfl

theorem trim_lookForEach (scope : Cursor) (use : Use) :
    (m.lookForEach scope use).trim = ofBinding? (m.inForEach scope use) := by
  unfold lookForEach inForEach
  cases scope.child? .left with
  | none => rfl
  | some item =>
    simp only
    split
    · rfl
    · cases scope.child? .right with
      | none =>
        cases m.declared? scope with
        | none => rfl
        | some type => rfl
      | some collection =>
        simp only [Option.any_some]
        split
        · rfl
        · cases m.declared? scope with
          | none => rfl
          | some type => rfl

theorem trim_lookScope (scope : Cursor) (use : Use) :
    (m.lookScope scope use).trim = ofBinding? (m.binding? scope use) := by
  unfold lookScope binding?
  split
  · exact trim_written fun b => m.value?_of_inLambda
  · split
    · exact trim_written fun b => m.value?_of_inCallable
    · split
      · exact m.trim_lookBlock scope use
      · split
        · exact m.trim_lookForEach scope use
        · split
          · exact m.trim_lookHead scope use
          · split
            · exact trim_written fun b => m.value?_of_inType
            · rfl

/-- A step, as a computation: it asks once or not at all. -/
def ofStep : Step → Inquiry (Option Ty)
  | .done type => .answer type
  | .ask other wanted => .ask (some other) fun type => .answer (m.fetch wanted type)

theorem trim_lookName (c : Cursor) : (m.lookName c).trim = m.ofStep (ofBinding (m.meaning? c)) := by
  unfold lookName meaning?
  rw [Inquiry.trim_bind, trim_first fun scope _ => m.trim_lookScope scope ⟨m.text c, c.start⟩]
  cases c.ancestors.findSome? (m.binding? · ⟨m.text c, c.start⟩) with
  | none => rfl
  | some b =>
    cases b with
    | typed type => rfl
    | typeOf value =>
      refine congrArg (Inquiry.ask (some value)) (funext fun type => ?_)
      cases type with
      | none => rfl
      | some t => rfl
    | elementOf collection =>
      refine congrArg (Inquiry.ask (some collection)) (funext fun type => ?_)
      cases type with
      | none => rfl
      | some t => rfl

theorem trim_lookAccess (c : Cursor) : (m.lookAccess c).trim = m.ofStep (m.ofAccess c) := by
  unfold lookAccess ofAccess
  cases c.child? .expression with
  | none => rfl
  | some object =>
    refine congrArg (Inquiry.ask (some object)) (funext fun type => ?_)
    cases c.child? .name with
    | none => rfl
    | some name => rfl

theorem trim_lookCall (c : Cursor) :
    Inquiry.trim (do return (← m.lookTarget c).bind (·.returns)) = m.ofStep (m.ofCall c) := by
  unfold lookTarget ofCall
  cases c.memberCall? with
  | none => rfl
  | some parts =>
    obtain ⟨receiver, name⟩ := parts
    refine congrArg (Inquiry.ask (some receiver)) (funext fun type => ?_)
    cases type with
    | none => rfl
    | some t => rfl

/-- Questions about nothing apart, an activation is what `step` says:
either it has its answer, or it asks, of an expression that it finds
before it has asked anything, and then has its answer. -/
theorem trim_activation (c : Cursor) : (m.activation c).trim = m.ofStep (m.step c) := by
  unfold activation step lookExpression ofExpression
  have hname := m.trim_lookName c.unwrap
  have haccess := m.trim_lookAccess c.unwrap
  have hcall := m.trim_lookCall c.unwrap
  generalize c.unwrap.kind = kind
  cases kind with
  | identifier => exact hname
  | memberAccess => exact haccess
  | invocation => exact hcall
  | _ => rfl

/-- With one level more, the resolver is its own activation with one
level less for what is asked. -/
theorem resolveWithin_succ (bound : Nat) (c : Cursor) :
    m.resolveWithin (bound + 1) c = (m.activation c).run (m.resolveWithin bound) := by
  rw [← Inquiry.run_trim, trim_activation, resolveWithin]
  cases m.step c with
  | done type => rfl
  | ask other wanted => rfl

/-- The type of `other` is asked for in an activation at `c`. -/
def Calls (c other : Cursor) : Prop := ∃ next, m.activation c = .ask (some other) next

theorem calls_iff {c other : Cursor} :
    m.Calls c other ↔ ∃ wanted, m.step c = .ask other wanted := by
  have htrim := m.trim_activation c
  constructor
  · intro h
    obtain ⟨next, hnext⟩ := h
    rw [hnext, Inquiry.trim] at htrim
    cases hstep : m.step c with
    | done type =>
      rw [hstep] at htrim
      cases htrim
    | ask node wanted =>
      rw [hstep] at htrim
      obtain ⟨heq, -⟩ := Inquiry.ask.inj htrim
      cases heq
      exact ⟨wanted, rfl⟩
  · intro h
    obtain ⟨wanted, hstep⟩ := h
    rw [hstep] at htrim
    have honce := m.asksWithin_one_activation c
    unfold Calls
    cases hactivation : m.activation c with
    | answer type =>
      rw [hactivation] at htrim
      cases htrim
    | ask asked next =>
      rw [hactivation] at htrim honce
      cases asked with
      | none =>
        -- the question about nothing would be the only one
        have hnone := honce none
        rw [Inquiry.trim] at htrim
        cases hnext : next none with
        | answer type =>
          rw [hnext] at htrim
          cases htrim
        | ask again next' =>
          rw [hnext] at hnone
          cases hnone
      | some node =>
        rw [Inquiry.trim] at htrim
        obtain ⟨heq, -⟩ := Inquiry.ask.inj htrim
        cases heq
        exact ⟨next, rfl⟩

end Model

end QueryLint
