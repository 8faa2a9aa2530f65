/-
Queries in terms of their calls. Reading a query asks the services for
the target of every call of the chain, and breaks off if one of the
answers does; `query?_eq_ok_some_iff` says what it comes to when none
does. The calls before the first unknown one are kept, and where no call
is known behind an unknown one these are the known calls altogether
(`knownLinks_map`).
-/
import QueryLint.Proofs.Chain.Partition
import QueryLint.Proofs.Outcome

namespace QueryLint

-- ================================================================= services

namespace Services

variable {services : Services} {src : Source}

/-- A call with a target, as a link. -/
def linkTo (src : Source) (call : Call) (target : Method) : Link :=
  ⟨call.site, src.simpleName call.name.focus, target⟩

theorem link?_of_method {call : Call} {target : Option Method}
    (h : services.method call.site = .ok target) :
    services.link? src call = .ok (target.map (linkTo src call)) := by
  unfold link?
  rw [h]
  rfl

theorem exists_target_of_link? {call : Call} {link : Option Link}
    (h : services.link? src call = .ok link) :
    ∃ target, services.method call.site = .ok target ∧ link = target.map (linkTo src call) := by
  obtain ⟨target, htarget, heq⟩ := bind_eq_ok_iff.1 h
  cases heq
  exact ⟨target, htarget, rfl⟩

theorem query?_of_not_endsChain {c : Cursor} (h : c.endsChain = false) :
    services.query? src c = .ok none := by
  unfold query?
  unfold Cursor.endsChain at h
  rw [h]
  rfl

/-- The query at a tail: the chain's source, and its calls as far as
known. -/
theorem query?_eq_ok_some_iff {c : Cursor} {query : Query} :
    services.query? src c = .ok (some query) ↔
      c.endsChain = true ∧ ∃ links, c.chain.calls.map (services.link? src) = links.map .ok
        ∧ query = ⟨c.chain.source, knownLinks links⟩ := by
  cases hends : c.endsChain with
  | false =>
    rw [query?_of_not_endsChain hends]
    simp
  | true =>
    unfold query?
    unfold Cursor.endsChain at hends
    rw [hends, if_pos rfl]
    rw [bind_eq_ok_iff]
    constructor
    · intro h
      obtain ⟨links, hlinks, heq⟩ := h
      cases heq
      exact ⟨rfl, links, mapM_eq_ok_iff.1 hlinks, rfl⟩
    · intro h
      obtain ⟨-, links, hlinks, rfl⟩ := h
      exact ⟨links, mapM_eq_ok_iff.2 hlinks, rfl⟩

/-- There is a query at every tail. -/
theorem query?_ne_ok_none {c : Cursor} (hends : c.endsChain = true) :
    services.query? src c ≠ .ok none := by
  intro h
  unfold query? at h
  unfold Cursor.endsChain at hends
  rw [hends, if_pos rfl] at h
  obtain ⟨links, -, heq⟩ := bind_eq_ok_iff.1 h
  cases heq

end Services

theorem knownLinks_some_cons (link : Link) (links : List (Option Link)) :
    knownLinks (some link :: links) = link :: knownLinks links :=
  rfl

/-- Where nothing is known behind an unknown call, the calls before the
first unknown one are all that are known. -/
theorem knownLinks_map {calls : List Call} {f : Call → Option Link}
    (h : calls.Pairwise fun earlier later => f earlier = none → f later = none) :
    knownLinks (calls.map f) = calls.filterMap f := by
  unfold knownLinks
  induction calls with
  | nil => rfl
  | cons call calls ih =>
    obtain ⟨hlater, hrest⟩ := List.pairwise_cons.1 h
    rw [List.map_cons, List.takeWhile_cons, List.filterMap_cons]
    cases hcall : f call with
    | none =>
      have hnone : calls.filterMap f = [] :=
        List.filterMap_eq_nil_iff.2 fun later hmem => hlater later hmem hcall
      rw [hnone]
      rfl
    | some link =>
      show link :: ((calls.map f).takeWhile Option.isSome).filterMap id = _
      rw [ih hrest]

end QueryLint
