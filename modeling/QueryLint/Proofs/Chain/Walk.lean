/-
Queries as a walk gathers them. A query lists the calls of its chain from
the source on and keeps those before the first unknown one. The walk that
finds them goes the other way: it starts at the tail, keeps every call
that is known, lets go of all it has kept when it comes to one that is
not, and turns the rest around when it is at the source.

# What a round leaves as it is

In the middle of a walk nobody can say yet which of the kept calls will
stay: each of the calls below may still be unknown. `Gathering.outcome`
says it with hindsight: the calls below, as far as known, and behind them
what is kept already, provided that all below are known. A round changes
none of this (`outcome_of_round?`), so every walk ends at the outcome of
its start, after one round for each call (`ends_outcome`); and at the
start, where nothing is kept, that is the query (`ends_start`).
-/
import Mathlib.Data.List.TakeWhile
import QueryLint.Proofs.Chain.Query

namespace QueryLint

-- ============================================================= longest runs

/-- The longest run at the front of a list of what has a property. -/
structure LongestRun {α : Type} (p : α → Prop) (xs run : List α) : Prop where
  initial : run <+: xs
  holds : ∀ x ∈ run, p x
  longest : ∀ other, other <+: xs → (∀ x ∈ other, p x) → other.length ≤ run.length

/-- There is one longest run, and `takeWhile` gives it. -/
theorem longestRun_iff {α : Type} {p : α → Bool} {xs run : List α} :
    LongestRun (p · = true) xs run ↔ run = xs.takeWhile p := by
  have htake : ∀ x ∈ xs.takeWhile p, p x = true := fun x hx => List.mem_takeWhile_imp hx
  constructor
  · intro h
    have hle := h.longest _ ( List.takeWhile_prefix p) htake
    obtain ⟨rest, rfl⟩ := h.initial
    rw [List.takeWhile_append_of_pos h.holds] at hle ⊢
    rw [List.length_append] at hle
    rw [List.eq_nil_of_length_eq_zero (by omega : (rest.takeWhile p).length = 0),
      List.append_nil]
  · intro h
    subst h
    refine ⟨List.takeWhile_prefix p, htake, ?_⟩
    intro other hother hall
    obtain ⟨rest, rfl⟩ := hother
    rw [List.takeWhile_append_of_pos hall, List.length_append]
    exact Nat.le_add_right _ _

-- =============================================================== the descent

/-- Going down from a node, receiver by receiver and parentheses apart,
one comes by some calls and ends at the first receiver that is none. The
calls are listed from there on, so that the node itself is the last. -/
inductive Descent : Cursor → List Call → Cursor → Prop
  | source {c : Cursor} (h : c.memberCall? = none) : Descent c [] c
  | call {c receiver name source : Cursor} {calls : List Call}
      (h : c.memberCall? = some (receiver, name))
      (hrest : Descent receiver.unwrap calls source) : Descent c (calls ++ [⟨c, name⟩]) source

/-- The chain of a node is what one comes by going down from it. -/
theorem descent_iff {c source : Cursor} {calls : List Call} :
    Descent c calls source ↔ c.chain = ⟨source, calls⟩ := by
  constructor
  · intro h
    induction h with
    | source hnone => exact Cursor.chain_of_memberCall?_eq_none hnone
    | call hcall _ ih => rw [Cursor.chain_of_memberCall? hcall, ih]
  · intro h
    induction c using Cursor.walk_induction generalizing calls with
    | source c hnone =>
      rw [Cursor.chain_of_memberCall?_eq_none hnone] at h
      cases h
      exact .source hnone
    | call c receiver name hcall ih =>
      rw [Cursor.chain_of_memberCall? hcall] at h
      cases h
      exact .call hcall (ih rfl)

theorem Cursor.endsChain_eq_false_iff {c : Cursor} :
    c.endsChain = false ↔ c.memberCall? = none ∨ c.isTail = false := by
  unfold endsChain
  rw [Bool.and_eq_false_iff, Option.isSome_eq_false_iff, Option.isNone_iff_eq_none]

/-- There is no query exactly at the nodes that end no chain. -/
theorem Services.query?_eq_ok_none_iff {services : Services} {src : Source} {c : Cursor} :
    services.query? src c = .ok none ↔ c.endsChain = false := by
  constructor
  · intro h
    rw [← Bool.not_eq_true]
    exact fun hends => query?_ne_ok_none hends h
  · exact query?_of_not_endsChain

-- ================================================================== answers

/-- Services that have an answer to every question. -/
def Services.answering (type : Cursor → Option Ty) (method : Cursor → Option Method) : Services :=
  ⟨fun c => .ok (type c), fun c => .ok (method c)⟩

section

variable (src : Source) (method : Cursor → Option Method)

/-- A call with its target, if there is an answer what that is. -/
def answeredLink (call : Call) : Option Link :=
  (method call.site).map (Services.linkTo src call)

/-- The calls of a chain as far as known, with their targets. -/
def answeredLinks (calls : List Call) : List Link :=
  knownLinks (calls.map (answeredLink src method))

/-- A call is recorded by a link with its place, the name that it writes
and its target. -/
structure Call.RecordedBy (call : Call) (link : Link) : Prop where
  site : link.site = call.site
  name : link.name = src.simpleName call.name.focus
  target : method call.site = some link.target

variable {src method}

theorem query?_answering {type : Cursor → Option Ty} {c : Cursor} (hends : c.endsChain = true) :
    (Services.answering type method).query? src c
      = .ok (some ⟨c.chain.source, answeredLinks src method c.chain.calls⟩) := by
  refine Services.query?_eq_ok_some_iff.2 ⟨hends, c.chain.calls.map (answeredLink src method),
    ?_, rfl⟩
  rw [List.map_map]
  exact List.map_congr_left fun call _ => Services.link?_of_method rfl

/-- The calls that are kept are recorded one by one. -/
theorem forall₂_recordedBy (calls : List Call) :
    List.Forall₂ (Call.RecordedBy src method)
      (calls.takeWhile fun call => (method call.site).isSome) (answeredLinks src method calls) := by
  induction calls with
  | nil => exact .nil
  | cons call calls ih =>
    unfold answeredLinks at ih ⊢
    rw [List.takeWhile_cons, List.map_cons]
    cases htarget : method call.site with
    | none =>
      rw [answeredLink, htarget]
      exact .nil
    | some target =>
      rw [answeredLink, htarget]
      exact .cons ⟨rfl, rfl, htarget⟩ ih

/-- One more call at the end is kept if it and all before it are known. -/
theorem answeredLinks_concat (calls : List Call) (last : Call) :
    answeredLinks src method (calls ++ [last])
      = answeredLinks src method calls
        ++ if calls.all fun call => (method call.site).isSome
          then (answeredLink src method last).toList else [] := by
  unfold answeredLinks
  induction calls with
  | nil =>
    show knownLinks [answeredLink src method last] = (answeredLink src method last).toList
    cases answeredLink src method last with
    | none => rfl
    | some link => rfl
  | cons call calls ih =>
    rw [List.cons_append, List.map_cons, List.map_cons, List.all_cons]
    cases htarget : method call.site with
    | none =>
      rw [answeredLink, htarget]
      rfl
    | some target =>
      rw [answeredLink, htarget, Option.map_some, knownLinks_some_cons, knownLinks_some_cons, ih]
      rfl

end

-- ================================================================= the walk

/-- A walk under way. -/
structure Gathering where
  /-- The node that it has come to. -/
  current : Cursor
  /-- The links that are kept, from the tail on. -/
  kept : List Link

namespace Gathering

variable (src : Source) (method : Cursor → Option Method)

/-- One round: the call at the node is kept if it is known; if not, it is
let go with all that are kept. None at a node that is no call. -/
def round? (g : Gathering) : Option Gathering :=
  match g.current.memberCall? with
  | none => none
  | some (receiver, name) =>
    match method g.current with
    | none => some ⟨receiver.unwrap, []⟩
    | some target =>
      some ⟨receiver.unwrap, g.kept ++ [Services.linkTo src ⟨g.current, name⟩ target]⟩

/-- A walk ends after some rounds, with a query. -/
inductive Ends : Gathering → Nat → Query → Prop
  | over {g : Gathering} (h : g.round? src method = none) : Ends g 0 ⟨g.current, g.kept.reverse⟩
  | next {g g' : Gathering} {n : Nat} {query : Query} (h : g.round? src method = some g')
      (hrest : Ends g' n query) : Ends g (n + 1) query

/-- What a walk will end with. -/
def outcome (g : Gathering) : Query where
  source := g.current.chain.source
  links := answeredLinks src method g.current.chain.calls
    ++ if g.current.chain.calls.all fun call => (method call.site).isSome
      then g.kept.reverse else []

variable {src method}

theorem outcome_of_memberCall?_eq_none {g : Gathering} (h : g.current.memberCall? = none) :
    g.outcome src method = ⟨g.current, g.kept.reverse⟩ := by
  unfold outcome
  rw [Cursor.chain_of_memberCall?_eq_none h]
  rfl

/-- A round leaves the outcome as it is. -/
theorem outcome_of_round? {g g' : Gathering} (h : g.round? src method = some g') :
    g'.outcome src method = g.outcome src method := by
  unfold round? at h
  split at h
  case h_1 => cases h
  case h_2 receiver name hcall =>
    unfold outcome
    rw [Cursor.chain_of_memberCall? hcall, answeredLinks_concat, List.all_append, answeredLink]
    split at h
    case h_1 hnone =>
      -- whether or not all below are known, nothing from here on stays
      cases h
      simp [hnone]
    case h_2 target htarget =>
      -- the call is kept in front of what was, and stays if all below do
      cases h
      simp only [htarget, Option.map_some, Option.toList_some, List.all_cons, List.all_nil,
        Option.isSome_some, Bool.and_true, List.reverse_append, List.reverse_singleton,
        List.append_assoc]
      split
      · rfl
      · rfl

/-- Every walk ends at its outcome, after one round for each call. -/
theorem ends_outcome (c : Cursor) (kept : List Link) :
    Ends src method ⟨c, kept⟩ c.chain.calls.length (outcome src method ⟨c, kept⟩) := by
  induction c using Cursor.walk_induction generalizing kept with
  | source c hnone =>
    have hover : round? src method ⟨c, kept⟩ = none := by
      unfold round?
      rw [hnone]
    rw [outcome_of_memberCall?_eq_none hnone, Cursor.chain_of_memberCall?_eq_none hnone]
    exact .over hover
  | call c receiver name hcall ih =>
    have hround : ∃ kept', round? src method ⟨c, kept⟩ = some ⟨receiver.unwrap, kept'⟩ := by
      unfold round?
      rw [hcall]
      cases method c with
      | none => exact ⟨_, rfl⟩
      | some target => exact ⟨_, rfl⟩
    obtain ⟨kept', hround⟩ := hround
    rw [← outcome_of_round? hround, Cursor.chain_of_memberCall? hcall, List.length_append]
    exact .next hround (ih kept')

/-- At the start nothing is kept, and the walk ends with the query. -/
theorem ends_start (c : Cursor) :
    Ends src method ⟨c, []⟩ c.chain.calls.length
      ⟨c.chain.source, answeredLinks src method c.chain.calls⟩ := by
  have hends : Ends src method ⟨c, []⟩ c.chain.calls.length (outcome src method ⟨c, []⟩) :=
    ends_outcome c []
  unfold outcome at hends
  rwa [List.reverse_nil, ite_self, List.append_nil] at hends

end Gathering

end QueryLint
