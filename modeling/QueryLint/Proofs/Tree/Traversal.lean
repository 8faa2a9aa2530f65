/-
Going through a tree with a stack. On the stack are nodes that are still
to come. The one on top is taken off, something is done at it, which may
break off, and its children are put on the stack from left to right, so
that the last of them is the next on top (`Traversal.round?`).

What a traversal will come to is told by what is on the stack, with all
below it (`Traversal.outcome`). A round leaves that as it is
(`outcome_of_round?`). So a traversal can end with nothing else
(`outcome_of_ends`), and it does end, after no more rounds than there are
nodes (`exists_ends`). From the root of a tree it comes by the nodes in
visiting order (`ends_root_iff`).
-/
import QueryLint.Proofs.Tree.Position

namespace QueryLint

-- ============================================================ visiting order

namespace Cursor

theorem visitAll_eq (l : Label) (path : List Frame) (before after : List Tree) :
    visitAll l path before after
      = (along l path before after).reverse.flatMap fun d => visitFrom d.path d.focus := by
  induction after generalizing before with
  | nil => rfl
  | cons t after ih =>
    rw [visitAll, along, List.reverse_cons, List.flatMap_append, ih, List.flatMap_singleton]

theorem visitFrom_eq (c : Cursor) :
    visitFrom c.path c.focus
      = c :: c.children.reverse.flatMap fun d => visitFrom d.path d.focus := by
  obtain ⟨⟨l, ts⟩, path⟩ := c
  show visitFrom path (.node l ts) = _
  rw [visitFrom, visitAll_eq]
  rfl

end Cursor

-- ================================================================= the stack

/-- A traversal under way. -/
structure Traversal (σ : Type) where
  /-- The nodes that are to come, the one on top last. -/
  stack : List Cursor
  /-- What has come of the nodes so far. -/
  state : σ

namespace Traversal

/-- The nodes on a stack with all below them, in the order in which they
come up. -/
def pending (stack : List Cursor) : List Cursor :=
  stack.reverse.flatMap fun c => Cursor.visitFrom c.path c.focus

/-- After the node on top its children are on the stack in its place. -/
theorem pending_concat (stack : List Cursor) (c : Cursor) :
    pending (stack ++ [c]) = c :: pending (stack ++ c.children) := by
  unfold pending
  rw [List.reverse_concat, List.flatMap_cons, Cursor.visitFrom_eq, List.reverse_append,
    List.flatMap_append, List.cons_append]

variable {σ ε : Type} (act : σ → Cursor → Except ε σ)

/-- One round. None if the stack is empty. -/
def round? (t : Traversal σ) : Option (Except ε (Traversal σ)) :=
  match t.stack.getLast? with
  | none => none
  | some c => some ((act t.state c).map fun state => ⟨t.stack.dropLast ++ c.children, state⟩)

theorem round?_concat (stack : List Cursor) (c : Cursor) (state : σ) :
    round? act ⟨stack ++ [c], state⟩
      = some ((act state c).map fun state => ⟨stack ++ c.children, state⟩) := by
  unfold round?
  rw [List.getLast?_concat, List.dropLast_concat]

/-- A traversal ends after some rounds, breaking off or not. -/
inductive Ends : Traversal σ → Nat → Except ε σ → Prop
  | empty {t : Traversal σ} (h : t.round? act = none) : Ends t 0 (.ok t.state)
  | broken {t : Traversal σ} {e : ε} (h : t.round? act = some (.error e)) : Ends t 1 (.error e)
  | next {t t' : Traversal σ} {n : Nat} {result : Except ε σ}
      (h : t.round? act = some (.ok t')) (hrest : Ends t' n result) : Ends t (n + 1) result

/-- What a traversal will come to. -/
def outcome (t : Traversal σ) : Except ε σ := (pending t.stack).foldlM act t.state

variable {act}

/-- A round leaves the outcome as it is. -/
theorem outcome_of_round? {t : Traversal σ} {result : Except ε (Traversal σ)}
    (h : t.round? act = some result) : t.outcome act = result.bind (outcome act) := by
  obtain ⟨stack, state⟩ := t
  rcases List.eq_nil_or_concat stack with rfl | ⟨front, c, rfl⟩
  · cases h
  · rw [List.concat_eq_append, round?_concat] at h
    cases h
    rw [List.concat_eq_append, outcome, pending_concat, List.foldlM_cons]
    cases act state c with
    | error e => rfl
    | ok state' => rfl

theorem outcome_of_ends {t : Traversal σ} {n : Nat} {result : Except ε σ}
    (h : Ends act t n result) : result = t.outcome act := by
  induction h with
  | @empty t h =>
    obtain ⟨stack, state⟩ := t
    rcases List.eq_nil_or_concat stack with rfl | ⟨front, c, rfl⟩
    · rfl
    · rw [List.concat_eq_append, round?_concat] at h
      cases h
  | broken h =>
    rw [outcome_of_round? h]
    rfl
  | next h _ ih =>
    rw [outcome_of_round? h]
    exact ih

/-- Every traversal ends, after no more rounds than there are nodes. -/
theorem exists_ends (t : Traversal σ) :
    ∃ n ≤ (pending t.stack).length, Ends act t n (t.outcome act) := by
  obtain ⟨stack, state⟩ := t
  induction hpending : pending stack generalizing stack state with
  | nil =>
    rcases List.eq_nil_or_concat stack with rfl | ⟨front, c, rfl⟩
    · exact ⟨0, Nat.le_refl 0, .empty rfl⟩
    · rw [List.concat_eq_append, pending_concat] at hpending
      cases hpending
  | cons first rest ih =>
    rcases List.eq_nil_or_concat stack with rfl | ⟨front, c, rfl⟩
    · cases hpending
    · rw [List.concat_eq_append] at hpending ⊢
      rw [pending_concat] at hpending
      obtain ⟨rfl, hrest⟩ := List.cons.inj hpending
      have hround := round?_concat act front c state
      rw [outcome_of_round? hround, List.length_cons]
      cases hact : act state c with
      | error e =>
        rw [hact] at hround
        exact ⟨1, Nat.succ_le_succ (Nat.zero_le _), .broken hround⟩
      | ok state' =>
        rw [hact] at hround
        obtain ⟨n, hle, hends⟩ := ih (front ++ c.children) state' hrest
        exact ⟨n + 1, Nat.succ_le_succ hle, .next hround hends⟩

/-- From the root of a tree, what is done at the nodes is done in visiting
order, and breaks off at the first at which it does. -/
theorem ends_root_iff (t : Tree) (state : σ) (result : Except ε σ) :
    (∃ n, Ends act ⟨[t.root], state⟩ n result) ↔ result = t.visit.foldlM act state := by
  have hpending : pending [t.root] = t.visit := List.append_nil _
  constructor
  · intro h
    obtain ⟨n, hends⟩ := h
    rw [outcome_of_ends hends, outcome, hpending]
  · intro h
    have hends : ∃ n ≤ (pending [t.root]).length,
        Ends act ⟨[t.root], state⟩ n (outcome act ⟨[t.root], state⟩) :=
      exists_ends ⟨[t.root], state⟩
    obtain ⟨n, -, hends⟩ := hends
    rw [outcome, hpending, ← h] at hends
    exact ⟨n, hends⟩

end Traversal

end QueryLint
