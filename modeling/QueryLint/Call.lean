/-
The shapes of expressions that the analysis reads: parentheses, the
arguments of a call, calls made through a dot, and the parameters of a
lambda. Comments count for nothing here, since every function looks at
named children only or at a child in a field.
-/
import QueryLint.Document

namespace QueryLint

namespace Cursor

-- ============================================================= parentheses

/-- The expression inside any parentheses around it. Parentheses that
hold nothing are themselves the expression. -/
def unwrap (c : Cursor) : Cursor :=
  if c.kind = .parenthesized then
    match _h : c.namedChildren.head? with
    | some inner => inner.unwrap
    | none => c
  else c
termination_by c.focus.size
decreasing_by
  exact size_focus_lt_of_mem_namedChildren (List.mem_of_head? ‹_›)

/-- Unwrapping never grows a node. -/
theorem size_focus_unwrap_le (c : Cursor) : c.unwrap.focus.size ≤ c.focus.size := by
  fun_induction unwrap c with
  | case1 c _ inner h ih =>
    have := size_focus_lt_of_mem_namedChildren (List.mem_of_head? h)
    omega
  | case2 => exact Nat.le_refl _
  | case3 => exact Nat.le_refl _

-- =================================================================== calls

/-- The expression of an argument: its last part that is no name, since
a name and a passing mode may stand before it. -/
def argumentValue? (c : Cursor) : Option Cursor :=
  (c.namedChildren.filter (·.kind != .nameColon)).getLast?

/-- The expressions that a call passes, in order. -/
def arguments (c : Cursor) : List Cursor :=
  match c.child? .arguments with
  | none => []
  | some list => (list.namedOfKind .argument).filterMap argumentValue?

/-- The receiver and the name of a call made through a dot. -/
def memberCall? (c : Cursor) : Option (Cursor × Cursor) :=
  if c.kind = .invocation then
    match c.child? .function with
    | none => none
    | some access =>
      if access.kind = .memberAccess then
        match access.child? .expression, access.child? .name with
        | some receiver, some name => some (receiver, name)
        | _, _ => none
      else none
  else none

/-- The receiver of a call is smaller than the call. -/
theorem size_focus_lt_of_memberCall? {c receiver name : Cursor}
    (h : c.memberCall? = some (receiver, name)) : receiver.focus.size < c.focus.size := by
  unfold memberCall? at h
  split at h
  · split at h
    · cases h
    · rename_i access haccess
      split at h
      · split at h
        · rename_i r n hr _
          cases h
          exact Nat.lt_trans (size_focus_lt_of_child? hr) (size_focus_lt_of_child? haccess)
        · cases h
      · cases h
  · cases h

-- ================================================================= lambdas

/-- The parameters of a lambda that lists them in parentheses; none for
one that has a bare identifier, and for anything else. -/
def lambdaParameters? (c : Cursor) : Option (List Cursor) :=
  if c.kind = .lambda then
    match c.child? .parameters with
    | none => none
    | some list =>
      if list.kind = .parameterList then some (list.namedOfKind .parameter) else none
  else none

/-- How many parameters a lambda has that is the first argument of a
call; none if the first argument is no lambda. -/
def lambdaArity? (c : Cursor) : Option Nat :=
  match c.arguments with
  | [] => none
  | first :: _ =>
    if first.kind = .lambda then some ((first.lambdaParameters?.map List.length).getD 1)
    else none

end Cursor

/-- A name without its type arguments: `Select` for `Select<User, int>`. -/
def Source.simpleName (src : Source) (t : Tree) : String :=
  if t.kind = .genericName then
    src.text ((t.children.find? (·.kind == .identifier)).getD t)
  else src.text t

end QueryLint
