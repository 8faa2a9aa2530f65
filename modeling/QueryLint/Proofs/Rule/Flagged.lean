/-
What EFX0001 means, call by call. The rule works chain by chain: it
starts from the tail, gathers the calls down to the source, keeps those
before the first unknown one, and goes along these until one is no
longer made on a query. `Flagged` says of a single call when it is
reported, from the call and what is below it alone, with no mention of
tails, chains or the order of anything. `flags` computes it.
-/
import QueryLint.Proofs.Chain.Partition
import QueryLint.Rule.IndexLambda

namespace QueryLint

open Relation (ReflTransGen)

namespace IndexLambda

-- ======================================================= the specification

/-- A function that takes an index second, or the expression tree of one:
three type arguments or more, and the second is `Int32`. -/
def IsIndexFunction (type : Ty) : Prop :=
  ∃ name first second third rest, second.name = "Int32"
    ∧ (type = .mk name (first :: second :: third :: rest)
      ∨ type = .mk "Expression" [.mk name (first :: second :: third :: rest)])

/-- A call that the rule is about. -/
structure Flagged (m : Model) (site : Cursor) : Prop where
  /-- It calls one of the operators whose lambda may take the index. -/
  operator : ∃ receiver name, site.memberCall? = some (receiver, name)
    ∧ m.source.simpleName name.focus
        ∈ ["Select", "Where", "SelectMany", "SkipWhile", "TakeWhile"]
  /-- Going from receiver to receiver ends at the set of a table. -/
  source : ∃ source type, ReflTransGen Cursor.CallsOn site source
    ∧ source.memberCall? = none ∧ m.resolve source = .ok (some type) ∧ type.name = "DbSet"
  /-- Every call on the way, itself included, is known and made on a
  query. -/
  onQueries : ∀ call, ReflTransGen Cursor.CallsOn site call → call.memberCall?.isSome = true →
    ∃ target, m.resolveMethod call = .ok (some target) ∧ target.receiver.name = "IQueryable"
  /-- What it calls takes the index first thing. -/
  target : ∃ target parameter rest type, m.resolveMethod site = .ok (some target)
    ∧ target.parameters = parameter :: rest ∧ parameter.type = some type
    ∧ IsIndexFunction type
  /-- What it passes first is a lambda that lists two parameters. -/
  lambda : ∃ lambda others first second rest, site.arguments = lambda :: others
    ∧ lambda.lambdaParameters? = some (first :: second :: rest)

/-- The diagnostic for a call: at the second parameter of its lambda, and
naming the method. -/
def diagnosticAt (src : Source) (path : String) (site : Cursor) : Option Diagnostic :=
  site.memberCall?.bind fun (_, name) =>
    (indexParameter? site).map fun parameter =>
      let point := src.point parameter.start
      { rule
        location := ⟨path, point.row, point.column⟩
        args := ["using the second index parameter in " ++ src.simpleName name.focus] }

-- ============================================================ deciding it

/-- Whether a call is known and made on a query. -/
def isOnQuery (m : Model) (site : Cursor) : Bool :=
  match m.resolveMethod site with
  | .ok (some target) => target.receiver.name == "IQueryable"
  | _ => false

/-- Whether what a call calls takes the index, and the call has a
parameter to show for it. -/
def usesIndex (m : Model) (site : Cursor) : Bool :=
  match m.resolveMethod site with
  | .ok (some target) => takesIndex target && (indexParameter? site).isSome
  | _ => false

/-- Whether a call is by one of the operators. -/
def isOperator (m : Model) (site : Cursor) : Bool :=
  match site.memberCall? with
  | some (_, name) => isSensitive (m.source.simpleName name.focus)
  | none => false

/-- Whether an expression is the set of a table. -/
def isTableAt (m : Model) (c : Cursor) : Bool :=
  match m.resolve c with
  | .ok type => isTable type
  | .error _ => false

/-- `Flagged`, to be computed. -/
def flags (m : Model) (site : Cursor) : Bool :=
  isTableAt m site.chain.source && site.chain.sites.all (isOnQuery m) && isOperator m site
    && usesIndex m site

variable {m : Model}

theorem isOnQuery_iff {site : Cursor} :
    isOnQuery m site = true ↔
      ∃ target, m.resolveMethod site = .ok (some target)
        ∧ target.receiver.name = "IQueryable" := by
  unfold isOnQuery
  constructor
  · intro h
    split at h
    · next target htarget => exact ⟨target, htarget, by simpa using h⟩
    · cases h
  · intro h
    obtain ⟨target, htarget, hname⟩ := h
    rw [htarget]
    simpa using hname

theorem isOperator_iff {site : Cursor} :
    isOperator m site = true ↔
      ∃ receiver name, site.memberCall? = some (receiver, name)
        ∧ m.source.simpleName name.focus
            ∈ ["Select", "Where", "SelectMany", "SkipWhile", "TakeWhile"] := by
  unfold isOperator
  constructor
  · intro h
    split at h
    · next receiver name hcall => exact ⟨receiver, name, hcall, List.contains_iff_mem.1 h⟩
    · cases h
  · intro h
    obtain ⟨receiver, name, hcall, hname⟩ := h
    rw [hcall]
    exact List.contains_iff_mem.2 hname

theorem isTableAt_iff {c : Cursor} :
    isTableAt m c = true ↔ ∃ type, m.resolve c = .ok (some type) ∧ type.name = "DbSet" := by
  unfold isTableAt
  constructor
  · intro h
    split at h
    · next type htype =>
      cases type with
      | none => cases h
      | some type => exact ⟨type, htype, by simpa [isTable] using h⟩
    · cases h
  · intro h
    obtain ⟨type, htype, hname⟩ := h
    rw [htype]
    simpa [isTable] using hname

theorem takesIndex_iff_of_args {args : List Ty} :
    FunctionShape.takesIndex ⟨args⟩ = true ↔
      ∃ first second third rest, args = first :: second :: third :: rest
        ∧ second.name = "Int32" := by
  unfold FunctionShape.takesIndex
  constructor
  · intro h
    split at h
    · next first second third rest hargs =>
      exact ⟨first, second, third, rest, hargs, by simpa using h⟩
    · cases h
  · intro h
    obtain ⟨first, second, third, rest, rfl, hname⟩ := h
    simpa using hname

/-- The function that a type describes is the one inside an expression
tree, or else the type itself. -/
theorem ofType?_some (type : Ty) :
    (∃ inner, type = .mk "Expression" [inner]
        ∧ FunctionShape.ofType? (some type)
          = if inner.args.isEmpty then none else some ⟨inner.args⟩)
      ∨ ((∀ inner, type ≠ .mk "Expression" [inner])
        ∧ FunctionShape.ofType? (some type)
          = if type.args.isEmpty then none else some ⟨type.args⟩) := by
  obtain ⟨name, args⟩ := type
  unfold FunctionShape.ofType?
  simp only [Option.bind_some, Ty.name, Ty.args]
  split
  · next inner =>
    exact .inl ⟨inner, rfl, rfl⟩
  · next hne =>
    refine .inr ⟨?_, rfl⟩
    intro inner heq
    cases heq
    exact hne inner rfl rfl

theorem isIndexFunction_iff {type : Ty} :
    IsIndexFunction type ↔
      ∃ f, FunctionShape.ofType? (some type) = some f ∧ f.takesIndex = true := by
  constructor
  · intro h
    obtain ⟨name, first, second, third, rest, hname, heq | heq⟩ := h
    · subst heq
      rcases ofType?_some (.mk name (first :: second :: third :: rest)) with
        ⟨inner, hinner, -⟩ | ⟨-, hshape⟩
      · cases hinner
      · exact ⟨_, hshape, takesIndex_iff_of_args.2 ⟨first, second, third, rest, rfl, hname⟩⟩
    · subst heq
      rcases ofType?_some (.mk "Expression" [.mk name (first :: second :: third :: rest)]) with
        ⟨inner, hinner, hshape⟩ | ⟨hne, -⟩
      · cases hinner
        exact ⟨_, hshape, takesIndex_iff_of_args.2 ⟨first, second, third, rest, rfl, hname⟩⟩
      · exact absurd rfl (hne _)
  · intro h
    obtain ⟨f, hshape, htakes⟩ := h
    obtain ⟨first, second, third, rest, hargs, hname⟩ := takesIndex_iff_of_args.1 htakes
    rcases ofType?_some type with ⟨inner, rfl, hif⟩ | ⟨-, hif⟩
    · rw [hshape] at hif
      obtain ⟨name, args⟩ := inner
      split at hif
      · cases hif
      · cases hif
        refine ⟨name, first, second, third, rest, hname, .inr ?_⟩
        rw [← hargs]
        rfl
    · rw [hshape] at hif
      obtain ⟨name, args⟩ := type
      split at hif
      · cases hif
      · cases hif
        refine ⟨name, first, second, third, rest, hname, .inl ?_⟩
        rw [← hargs]
        rfl

theorem takesIndex_iff {target : Method} :
    takesIndex target = true ↔
      ∃ parameter rest type, target.parameters = parameter :: rest
        ∧ parameter.type = some type ∧ IsIndexFunction type := by
  unfold takesIndex
  constructor
  · intro h
    split at h
    · cases h
    · next parameter rest hparameters =>
      split at h
      · cases h
      · next f hshape =>
        cases htype : parameter.type with
        | none =>
          rw [htype] at hshape
          cases hshape
        | some type =>
          rw [htype] at hshape
          exact ⟨parameter, rest, type, hparameters, htype, isIndexFunction_iff.2 ⟨f, hshape, h⟩⟩
  · intro h
    obtain ⟨parameter, rest, type, hparameters, htype, hindex⟩ := h
    obtain ⟨f, hshape, htakes⟩ := isIndexFunction_iff.1 hindex
    simp only [hparameters, htype, hshape]
    exact htakes

theorem indexParameter?_isSome_iff {site : Cursor} :
    (indexParameter? site).isSome = true ↔
      ∃ lambda others first second rest, site.arguments = lambda :: others
        ∧ lambda.lambdaParameters? = some (first :: second :: rest) := by
  unfold indexParameter?
  constructor
  · intro h
    split at h
    · cases h
    · next lambda others harguments =>
      split at h
      · next first second rest hparameters =>
        exact ⟨lambda, others, first, second, rest, harguments, hparameters⟩
      · cases h
  · intro h
    obtain ⟨lambda, others, first, second, rest, harguments, hparameters⟩ := h
    simp only [harguments, hparameters]
    rfl

theorem usesIndex_iff {site : Cursor} :
    usesIndex m site = true ↔
      ∃ target, m.resolveMethod site = .ok (some target) ∧ takesIndex target = true
        ∧ (indexParameter? site).isSome = true := by
  unfold usesIndex
  constructor
  · intro h
    split at h
    · next target htarget => exact ⟨target, htarget, Bool.and_eq_true_iff.1 h⟩
    · cases h
  · intro h
    obtain ⟨target, htarget, htakes⟩ := h
    rw [htarget]
    exact Bool.and_eq_true_iff.2 htakes

/-- The computed test is the specification. -/
theorem flags_iff {site : Cursor} : flags m site = true ↔ Flagged m site := by
  unfold flags
  rw [Bool.and_eq_true_iff, Bool.and_eq_true_iff, Bool.and_eq_true_iff, List.all_eq_true,
    isTableAt_iff, isOperator_iff, usesIndex_iff]
  constructor
  · intro h
    obtain ⟨⟨⟨⟨type, htype, hname⟩, hqueries⟩, hoperator⟩, target, htarget, htakes, hlambda⟩ := h
    obtain ⟨hreach, hnone⟩ := site.reaches_source
    refine ⟨hoperator, ⟨_, type, hreach, hnone, htype, hname⟩, ?_, ?_, ?_⟩
    · intro call hcall hmember
      exact isOnQuery_iff.1 (hqueries call (Cursor.mem_sites_iff.2 ⟨hcall, hmember⟩))
    · obtain ⟨parameter, rest, type, hparameters⟩ := takesIndex_iff.1 htakes
      exact ⟨target, parameter, rest, type, htarget, hparameters⟩
    · exact indexParameter?_isSome_iff.1 hlambda
  · intro h
    obtain ⟨source, type, hreach, hnone, htype, hname⟩ := h.source
    have hsource : source = site.chain.source :=
      Cursor.eq_source_of_reaches hreach hnone
    subst hsource
    obtain ⟨target, parameter, rest, type', htarget, hparameters⟩ := h.target
    refine ⟨⟨⟨⟨type, htype, hname⟩, ?_⟩, h.operator⟩, target, htarget,
      takesIndex_iff.2 ⟨parameter, rest, type', hparameters⟩,
      indexParameter?_isSome_iff.2 h.lambda⟩
    intro call hcall
    obtain ⟨hreach', hmember⟩ := Cursor.mem_sites_iff.1 hcall
    exact isOnQuery_iff.2 (h.onQueries call hreach' hmember)

instance : DecidablePred (Flagged m) := fun _ => decidable_of_iff _ flags_iff

end IndexLambda

end QueryLint
