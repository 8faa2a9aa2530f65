/-
Chains are typed from left to right. The type of a call is asked for at
its end: `resolve` goes from the tail back to the source, through
parentheses, and every prefix of the chain is resolved anew for every
call behind it. What comes out is one fold from the source: `typeAfter`
carries the type along, and each call is bound on the type that the
calls before it have left (`bound?`).

Nothing is known behind an unknown call, since there is no type left to
bind on; so of the calls of a chain, those that a query keeps are the
ones with a known target altogether.
-/
import QueryLint.Proofs.Chain.Query
import QueryLint.Proofs.Resolve.Trail

namespace QueryLint

namespace Model

-- ================================================================= the fold

/-- The target of a call on a receiver whose type is given: a declared
method of that name, or else an operator. -/
def bound? (m : Model) (receiver : Option Ty) (call : Call) : Option Method :=
  match receiver with
  | none => none
  | some type =>
    let name := m.source.simpleName call.name.focus
    match m.index.method? type.name name with
    | some declared => some declared
    | none => Operator.bind? type name call.site.lambdaArity?

/-- The type that some calls in a row leave, given that of what the
first is made on. -/
def typeAfter (m : Model) (source : Option Ty) (calls : List Call) : Option Ty :=
  calls.foldl (fun type call => (m.bound? type call).bind (·.returns)) source

variable {m : Model}

/-- The fold binds as the resolution does. -/
theorem bound?_eq_bind_target? (receiver : Option Ty) (call : Call) :
    m.bound? receiver call
      = receiver.bind (m.target? call.site (m.source.simpleName call.name.focus)) := by
  cases receiver with
  | none => rfl
  | some type =>
    unfold bound? target?
    simp only [Option.bind_some]
    cases m.index.method? type.name (m.source.simpleName call.name.focus) with
    | none => rfl
    | some declared => rfl

theorem typeAfter_append_singleton (source : Option Ty) (calls : List Call) (call : Call) :
    m.typeAfter source (calls ++ [call])
      = (m.bound? (m.typeAfter source calls) call).bind (·.returns) := by
  unfold typeAfter
  rw [List.foldl_append]
  rfl

theorem typeAfter_append (source : Option Ty) (calls calls' : List Call) :
    m.typeAfter source (calls ++ calls') = m.typeAfter (m.typeAfter source calls) calls' := by
  unfold typeAfter
  rw [List.foldl_append]

/-- A type once lost does not come back. -/
theorem typeAfter_none (calls : List Call) : m.typeAfter none calls = none := by
  induction calls with
  | nil => rfl
  | cons call calls ih => exact ih

-- ================================================== resolution is the fold

theorem resolveMethod_of_memberCall? {c receiver name : Cursor} {type : Option Ty}
    (hcall : c.memberCall? = some (receiver, name)) (hreceiver : m.resolve receiver = .ok type) :
    m.resolveMethod c = .ok (m.bound? type ⟨c, name⟩) := by
  unfold resolveMethod
  rw [hcall]
  show (m.resolve receiver).map _ = _
  rw [hreceiver, bound?_eq_bind_target?]
  rfl

theorem resolve_of_memberCall? {c receiver name : Cursor} {type : Option Ty}
    (hcall : c.memberCall? = some (receiver, name)) (hreceiver : m.resolve receiver = .ok type) :
    m.resolve c = .ok ((m.bound? type ⟨c, name⟩).bind (·.returns)) := by
  rw [resolve_of_ask (step_of_memberCall? hcall) hreceiver, bound?_eq_bind_target?]
  cases type with
  | none => rfl
  | some type => rfl

/-- The type at the end of a chain is what the fold leaves. -/
theorem resolve_eq_typeAfter {c : Cursor} {source : Option Ty}
    (hsource : m.resolve c.chain.source = .ok source) :
    m.resolve c = .ok (m.typeAfter source c.chain.calls) := by
  induction c using Cursor.walk_induction with
  | source c hnone =>
    rw [Cursor.chain_of_memberCall?_eq_none hnone] at hsource ⊢
    exact hsource
  | call c receiver name hcall ih =>
    rw [Cursor.chain_of_memberCall? hcall] at hsource ⊢
    have hinner := ih hsource
    rw [resolve_of_memberCall? hcall (resolve_of_unwrap hinner), typeAfter_append_singleton]

/-- Every call of a chain is bound on what the calls before it leave. -/
theorem resolve_of_split {c : Cursor} {source : Option Ty} {before after : List Call}
    {call : Call} (hsource : m.resolve c.chain.source = .ok source)
    (hsplit : c.chain.calls = before ++ call :: after) :
    m.resolveMethod call.site = .ok (m.bound? (m.typeAfter source before) call)
      ∧ m.resolve call.site = .ok (m.typeAfter source (before ++ [call])) := by
  obtain ⟨receiver, hcall, hchain⟩ := Cursor.chain_of_split hsplit
  have hreceiver : m.resolve receiver = .ok (m.typeAfter source before) := by
    apply resolve_of_unwrap
    have hinner : m.resolve receiver.unwrap.chain.source = .ok source := by
      rw [hchain]
      exact hsource
    rw [resolve_eq_typeAfter hinner, hchain]
  refine ⟨resolveMethod_of_memberCall? hcall hreceiver, ?_⟩
  rw [resolve_of_memberCall? hcall hreceiver, typeAfter_append_singleton]

/-- Behind a call that leaves no type, no call has a target. -/
theorem pairwise_calls {c : Cursor} {source : Option Ty}
    (hsource : m.resolve c.chain.source = .ok source) :
    c.chain.calls.Pairwise fun earlier later =>
      m.resolve earlier.site = .ok none → m.resolveMethod later.site = .ok none := by
  suffices general : ∀ before after, c.chain.calls = before ++ after →
      after.Pairwise fun earlier later =>
        m.resolve earlier.site = .ok none → m.resolveMethod later.site = .ok none by
    exact general [] _ rfl
  intro before after
  induction after generalizing before with
  | nil =>
    intro _
    exact .nil
  | cons earlier after ih =>
    intro hsplit
    refine List.pairwise_cons.2 ⟨?_, ih (before ++ [earlier]) (by simpa using hsplit)⟩
    intro later hmem hnone
    obtain ⟨between, behind, rfl⟩ := List.append_of_mem hmem
    have hleft := (resolve_of_split hsource hsplit).2
    rw [hnone, Except.ok.injEq] at hleft
    have hsplit' : c.chain.calls = (before ++ [earlier] ++ between) ++ later :: behind := by
      rw [hsplit]
      simp
    have hlater := (resolve_of_split hsource hsplit').1
    rw [typeAfter_append, ← hleft, typeAfter_none] at hlater
    exact hlater

-- ======================================================= what a query keeps

/-- A call with its target, if it has one. -/
def knownLink? (m : Model) (call : Call) : Option Link :=
  match m.resolveMethod call.site with
  | .ok (some target) => some (Services.linkTo m.source call target)
  | _ => none

theorem knownLink?_of_resolveMethod {call : Call} {target : Option Method}
    (h : m.resolveMethod call.site = .ok target) :
    m.knownLink? call = target.map (Services.linkTo m.source call) := by
  unfold knownLink?
  rw [h]
  cases target with
  | none => rfl
  | some target => rfl

theorem links_eq_map_knownLink? {calls : List Call} {links : List (Option Link)}
    (h : calls.map (m.services.link? m.source) = links.map .ok) :
    links = calls.map m.knownLink? := by
  induction calls generalizing links with
  | nil => exact List.map_eq_nil_iff.1 h.symm
  | cons call calls ih =>
    cases links with
    | nil => cases h
    | cons link links =>
      obtain ⟨hlink, hlinks⟩ := List.cons.inj h
      obtain ⟨target, htarget, heq⟩ := Services.exists_target_of_link? hlink
      rw [List.map_cons, ← ih hlinks, knownLink?_of_resolveMethod htarget, heq]

theorem exists_resolveMethod {c : Cursor} {source : Option Ty}
    (hsource : m.resolve c.chain.source = .ok source) {call : Call}
    (hcall : call ∈ c.chain.calls) : ∃ target, m.resolveMethod call.site = .ok target := by
  obtain ⟨before, after, hsplit⟩ := List.append_of_mem hcall
  exact ⟨_, (resolve_of_split hsource hsplit).1⟩

/-- A call without a target leaves no type. -/
theorem resolve_eq_none_of_knownLink? {c : Cursor} {source : Option Ty}
    (hsource : m.resolve c.chain.source = .ok source) {call : Call}
    (hcall : call ∈ c.chain.calls) (hnone : m.knownLink? call = none) :
    m.resolve call.site = .ok none := by
  obtain ⟨before, after, hsplit⟩ := List.append_of_mem hcall
  obtain ⟨hmethod, htype⟩ := resolve_of_split hsource hsplit
  rw [knownLink?_of_resolveMethod hmethod, Option.map_eq_none_iff] at hnone
  rw [htype, typeAfter_append_singleton, hnone]
  rfl

/-- The query at a tail holds every call that has a target. -/
theorem query?_eq_knownLinks {c : Cursor} {source : Option Ty}
    (hsource : m.resolve c.chain.source = .ok source) (hends : c.endsChain = true) :
    m.services.query? m.source c
      = .ok (some ⟨c.chain.source, c.chain.calls.filterMap m.knownLink?⟩) := by
  have hpairwise : c.chain.calls.Pairwise fun earlier later =>
      m.knownLink? earlier = none → m.knownLink? later = none := by
    refine (pairwise_calls hsource).imp_of_mem ?_
    intro earlier later hearlier _ hlater hnone
    rw [knownLink?_of_resolveMethod
      (hlater (resolve_eq_none_of_knownLink? hsource hearlier hnone))]
    rfl
  refine Services.query?_eq_ok_some_iff.2
    ⟨hends, c.chain.calls.map m.knownLink?, ?_, by rw [knownLinks_map hpairwise]⟩
  rw [List.map_map]
  refine List.map_congr_left fun call hcall => ?_
  obtain ⟨target, htarget⟩ := exists_resolveMethod hsource hcall
  rw [Services.link?_of_method htarget]
  show _ = Except.ok (m.knownLink? call)
  rw [knownLink?_of_resolveMethod htarget]

/-- Whenever the source of a chain can be resolved, so can all its calls,
and the answers are those of one fold from the source: each call is
bound on the type that the calls before it leave. Behind a call without
a target, or whose target returns nothing, no call has a target, and the
query at the tail holds exactly the calls that have one. -/
theorem chain_typed_left_to_right (m : Model) (c : Cursor) (source : Option Ty)
    (hsource : m.resolve c.chain.source = .ok source) :
    (∀ before call after, c.chain.calls = before ++ call :: after →
        m.resolveMethod call.site = .ok (m.bound? (m.typeAfter source before) call)
          ∧ m.resolve call.site = .ok (m.typeAfter source (before ++ [call])))
      ∧ (c.chain.calls.Pairwise fun earlier later =>
          (m.resolveMethod earlier.site = .ok none
            ∨ ∃ target, m.resolveMethod earlier.site = .ok (some target)
                ∧ target.returns = none) →
          m.resolveMethod later.site = .ok none)
      ∧ (c.endsChain = true → m.services.query? m.source c
          = .ok (some ⟨c.chain.source, c.chain.calls.filterMap m.knownLink?⟩)) := by
  refine ⟨fun before call after => resolve_of_split hsource, ?_, query?_eq_knownLinks hsource⟩
  refine (pairwise_calls hsource).imp_of_mem ?_
  intro earlier later hearlier _ hlater hlost
  apply hlater
  obtain ⟨before, after, hsplit⟩ := List.append_of_mem hearlier
  obtain ⟨hmethod, htype⟩ := resolve_of_split hsource hsplit
  rw [typeAfter_append_singleton] at htype
  -- either way the call leaves no type
  rcases hlost with hnone | ⟨target, hsome, hreturns⟩
  · rw [hmethod, Except.ok.injEq] at hnone
    rw [htype, hnone]
    rfl
  · rw [hmethod, Except.ok.injEq] at hsome
    rw [htype, hsome]
    show Except.ok target.returns = _
    rw [hreturns]

end Model

/-- What the types in the sample are told from. -/
def Document.sampleModel : Model := ⟨.ofDocuments [.sample], Document.sample.source⟩

/-- The tail of the chain in the sample. -/
def Document.sampleTail : Cursor := Document.sample.tree.tails.headD Document.sample.tree.root

/-- In the sample the fold starts from a `DbSet`, and the second call is
typed as a query by the target of the first. -/
theorem sample_chain_typed :
    Document.sampleModel.resolve Document.sampleTail.chain.source
        = .ok (some (.mk "DbSet" [.plain "U"]))
      ∧ ∃ first second, Document.sampleTail.chain.calls = [first, second]
          ∧ Document.sampleModel.resolve second.site
            = .ok (some (.mk "IQueryable" [.result])) := by
  have hsource : Document.sampleModel.resolve Document.sampleTail.chain.source
      = .ok (some (.mk "DbSet" [.plain "U"])) := by with_unfolding_all rfl
  have hlength : Document.sampleTail.chain.calls.length = 2 := by decide +kernel
  have hfold : Document.sampleModel.typeAfter (some (.mk "DbSet" [.plain "U"]))
      Document.sampleTail.chain.calls = some (.mk "IQueryable" [.result]) := by
    with_unfolding_all rfl
  obtain ⟨first, second, hcalls⟩ := List.length_eq_two.1 hlength
  have htyped := (Model.chain_typed_left_to_right _ _ _ hsource).1 [first] second [] hcalls
  refine ⟨hsource, first, second, hcalls, ?_⟩
  rw [htyped.2, ← hfold, hcalls]
  rfl

end QueryLint
