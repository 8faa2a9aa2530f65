/-
What is reported on a chain that starts from a table, told from the
source alone: by the names of its calls and by their lambdas, without
types, targets or catalog lookups.

Where the names `DbSet`, `IQueryable` and `IOrderedQueryable` are left to
the framework, no declared method comes between a query and the catalog.
As long as the calls are by operators that leave a query (`chainNames`),
the type stays one of the three (`exists_typeAfter`), every call is made
on a query, and it is reported if and only if it is by one of the five
operators and passes a lambda that lists two parameters. From the first
call by a name that is not among the query operators (`queryNames`)
nothing is reported: whatever its receiver has become, its target is not
declared on `IQueryable`, and there the rule breaks off. Between the two
an operator may give back an element of the query, which may be anything.
-/
import QueryLint.Proofs.Declaration.Ancestry
import QueryLint.Proofs.Operator.Catalog
import QueryLint.Proofs.Rule.Findings

namespace QueryLint

/-- The name of the method that a call is by. -/
def Call.method (src : Source) (call : Call) : String := src.simpleName call.name.focus

-- ============================================================== the lambda

namespace IndexLambda

/-- Whether the first argument of a call is a lambda that lists at least
two parameters. -/
def passesIndex (site : Cursor) : Bool :=
  match site.arguments with
  | [] => false
  | first :: _ =>
    match first.lambdaParameters? with
    | none => false
    | some parameters => decide (2 ≤ parameters.length)

theorem isSome_indexParameter? (site : Cursor) :
    (indexParameter? site).isSome = passesIndex site := by
  unfold indexParameter? passesIndex
  cases site.arguments with
  | nil => rfl
  | cons first others =>
    dsimp only
    match first.lambdaParameters? with
    | none => rfl
    | some [] => rfl
    | some [_] => rfl
    | some (_ :: _ :: _) => simp

end IndexLambda

theorem Cursor.kind_of_lambdaParameters? {c : Cursor} {parameters : List Cursor}
    (h : c.lambdaParameters? = some parameters) : c.kind = .lambda := by
  unfold lambdaParameters? at h
  split at h
  · assumption
  · cases h

/-- A call that passes the index passes a lambda of that many
parameters. -/
theorem IndexLambda.exists_lambdaArity? {site : Cursor} (h : passesIndex site = true) :
    ∃ arity, site.lambdaArity? = some arity ∧ 2 ≤ arity := by
  unfold passesIndex at h
  split at h
  · cases h
  · next first others harguments =>
    split at h
    · cases h
    · next parameters hparameters =>
      refine ⟨parameters.length, ?_, by simpa using h⟩
      unfold Cursor.lambdaArity?
      simp [harguments, Cursor.kind_of_lambdaParameters? hparameters, hparameters]

-- ======================================================= along the operators

namespace Model

/-- The names of the types that a table and the queries on it have. -/
def queryTypes : List String := ["DbSet", "IQueryable", "IOrderedQueryable"]

variable {m : Model} (hfree : ∀ d ∈ m.index.decls, d.name ∉ queryTypes)

include hfree

/-- On a query, a call by one of the query operators is bound to it. -/
theorem bound?_of_mem_queryable {type : Ty} (htype : type.name ∈ queryTypes) {call : Call}
    {op : Operator} (hop : op ∈ Operator.queryable) (hname : op.name = call.method m.source) :
    m.bound? (some type) call
      = some (op.toMethod .queryable type.element call.site.lambdaArity?) := by
  have hdeclared : m.index.method? type.name (call.method m.source) = none := by
    apply Index.method?_eq_none
    intro d hd heq
    exact hfree d hd (heq ▸ htype)
  have hreceiver : type.name ∈ queryableReceivers := by
    have hsub : ∀ name ∈ queryTypes, name ∈ queryableReceivers := by decide
    exact hsub _ htype
  have hbind : Operator.bind? type (call.method m.source) call.site.lambdaArity?
      = some (op.toMethod .queryable type.element call.site.lambdaArity?) := by
    unfold Operator.bind?
    rw [← hname, Operator.find?_of_mem_queryable hreceiver hop]
    rfl
  unfold Call.method at hdeclared hbind
  unfold bound?
  simp only [hdeclared, hbind]

/-- Calls by operators that leave a query leave a query. -/
theorem exists_typeAfter {type : Ty} (htype : type.name ∈ queryTypes) {calls : List Call}
    (h : ∀ call ∈ calls, call.method m.source ∈ Operator.chainNames) :
    ∃ left, m.typeAfter (some type) calls = some left ∧ left.name ∈ queryTypes := by
  induction calls generalizing type with
  | nil => exact ⟨type, rfl, htype⟩
  | cons call calls ih =>
    obtain ⟨op, hop, -, hreturns, hname⟩ :=
      Operator.mem_chainNames_iff.1 (h call List.mem_cons_self)
    have hbound := bound?_of_mem_queryable hfree htype hop hname
    have hstep : m.typeAfter (some type) (call :: calls)
        = m.typeAfter (some (op.returns.type .queryable type.element)) calls := by
      show m.typeAfter ((m.bound? (some type) call).bind (·.returns)) calls = _
      rw [hbound]
      rfl
    rw [hstep]
    apply ih
    · rcases Operator.name_type_of_isSequence hreturns type.element with hq | hq <;>
        simp [queryTypes, hq]
    · intro later hlater
      exact h later (List.mem_cons_of_mem call hlater)

/-- On a chain from a table, a call that only such operators come before
is bound to the query operator of its name. -/
theorem resolveMethod_of_chainNames {c : Cursor} {type : Ty}
    (hsource : m.resolve c.chain.source = .ok (some type)) (htype : type.name ∈ queryTypes)
    {before after : List Call} {call : Call}
    (hsplit : c.chain.calls = before ++ call :: after)
    (hbefore : ∀ x ∈ before, x.method m.source ∈ Operator.chainNames) {op : Operator}
    (hop : op ∈ Operator.queryable) (hname : op.name = call.method m.source) :
    ∃ element, m.resolveMethod call.site
      = .ok (some (op.toMethod .queryable element call.site.lambdaArity?)) := by
  obtain ⟨left, hleft, hquery⟩ := exists_typeAfter hfree htype hbefore
  refine ⟨left.element, ?_⟩
  rw [(resolve_of_split hsource hsplit).1, hleft, bound?_of_mem_queryable hfree hquery hop hname]

end Model

-- ================================================================ the calls

namespace IndexLambda

variable {m : Model}

/-- On a query, a call by one of the operators that the rule is about uses
the index exactly if it passes it. -/
theorem usesIndex_of_resolveMethod {site : Cursor} {op : Operator}
    (hop : op ∈ Operator.queryable) (hsensitive : isSensitive op.name = true) {element : Ty}
    (htarget : m.resolveMethod site
      = .ok (some (op.toMethod .queryable element site.lambdaArity?))) :
    usesIndex m site = passesIndex site := by
  unfold usesIndex
  rw [htarget]
  show (takesIndex _ && (indexParameter? site).isSome) = _
  rw [isSome_indexParameter?]
  cases hpasses : passesIndex site with
  | false => rw [Bool.and_false]
  | true =>
    obtain ⟨arity, harity, hle⟩ := exists_lambdaArity? hpasses
    rw [harity, Operator.takesIndex_toMethod, ← Operator.isSensitive_of_mem_queryable hop,
      hsensitive]
    simpa using hle

section

variable (hfree : ∀ d ∈ m.index.decls, d.name ∉ Model.queryTypes) {c : Cursor} {type : Ty}
  (hsource : m.resolve c.chain.source = .ok (some type))

include hfree hsource

theorem isOnQuery_of_chainNames (htype : type.name ∈ Model.queryTypes)
    {before after : List Call} {call : Call} (hsplit : c.chain.calls = before ++ call :: after)
    (hnames : ∀ x ∈ before ++ [call], x.method m.source ∈ Operator.chainNames) :
    isOnQuery m call.site = true := by
  obtain ⟨op, hop, hreceiver, -, hname⟩ := Operator.mem_chainNames_iff.1 (hnames call (by simp))
  obtain ⟨element, htarget⟩ := Model.resolveMethod_of_chainNames hfree hsource htype hsplit
    (fun x hx => hnames x (by simp [hx])) hop hname
  refine isOnQuery_iff.2 ⟨_, htarget, ?_⟩
  show op.receiver.getD Family.queryable.typeName = "IQueryable"
  rw [hreceiver]
  rfl

/-- As long as only operators that leave a query have been called, a call
is flagged by its name and its lambda. -/
theorem flags_of_chainNames (htable : type.name = "DbSet") {before after : List Call} {call : Call}
    (hsplit : c.chain.calls = before ++ call :: after)
    (hnames : ∀ x ∈ before ++ [call], x.method m.source ∈ Operator.chainNames) :
    flags m call.site = (isSensitive (call.method m.source) && passesIndex call.site) := by
  have htype : type.name ∈ Model.queryTypes := by simp [Model.queryTypes, htable]
  have hon := isOnQuery_of_chainNames hfree hsource htype hsplit hnames
  have hbefore : before.all (isOnQuery m ·.site) = true := by
    rw [List.all_eq_true]
    intro x hx
    obtain ⟨front, back, rfl⟩ := List.append_of_mem hx
    have hsplit' : c.chain.calls = front ++ x :: (back ++ call :: after) := by
      rw [hsplit, List.append_assoc]
      rfl
    apply isOnQuery_of_chainNames hfree hsource htype hsplit'
    intro y hy
    apply hnames
    simp only [List.mem_append, List.mem_cons, List.not_mem_nil, or_false] at hy ⊢
    rcases hy with hy | hy <;> simp [hy]
  have htableAt : isTableAt m c.chain.source = true := isTableAt_iff.2 ⟨type, hsource, htable⟩
  rw [flags_of_split hsplit, htableAt, hbefore, hon]
  show (isSensitive (call.method m.source) && _) = _
  cases hsensitive : isSensitive (call.method m.source) with
  | false => rfl
  | true =>
    obtain ⟨op, hop, -, -, hname⟩ := Operator.mem_chainNames_iff.1 (hnames call (by simp))
    obtain ⟨element, htarget⟩ := Model.resolveMethod_of_chainNames hfree hsource htype hsplit
      (fun x hx => hnames x (by simp [hx])) hop hname
    rw [usesIndex_of_resolveMethod hop (by rw [hname]; exact hsensitive) htarget]

end

-- ================================================================ the chain

/-- A call by an operator that leaves a query. -/
def keepsQuery (src : Source) (call : Call) : Bool :=
  Operator.chainNames.contains (call.method src)

/-- A call by one of the query operators. -/
def byQueryOperator (src : Source) (call : Call) : Bool :=
  Operator.queryNames.contains (call.method src)

/-- A call by one of the operators that the rule is about, with a lambda
that lists the index. -/
def writesIndex (src : Source) (call : Call) : Bool :=
  isSensitive (call.method src) && passesIndex call.site

/-- The calls that keep the query come first among those by query
operators. -/
theorem takeWhile_byQueryOperator (src : Source) (calls : List Call) :
    calls.takeWhile (byQueryOperator src)
      = calls.takeWhile (keepsQuery src)
        ++ (calls.takeWhile (byQueryOperator src)).drop
          (calls.takeWhile (keepsQuery src)).length := by
  refine (List.prefix_iff_eq_append.1 ?_).symm
  induction calls with
  | nil => exact List.prefix_refl _
  | cons call calls ih =>
    cases hkeeps : keepsQuery src call with
    | false =>
      rw [List.takeWhile_cons_of_neg (by simp [hkeeps])]
      exact List.nil_prefix
    | true =>
      have hby : byQueryOperator src call = true := List.contains_iff_mem.2
        (Operator.mem_queryNames_of_mem_chainNames (List.contains_iff_mem.1 hkeeps))
      rw [List.takeWhile_cons_of_pos hkeeps, List.takeWhile_cons_of_pos hby]
      exact (List.prefix_cons_inj call).2 ih

section

variable {comp : Compilation} {src : Source}
  (hfree : ∀ d ∈ comp.index.decls, d.name ∉ Model.queryTypes) {c : Cursor} {type : Ty}
  (hsource : (Model.mk comp.index src).resolve c.chain.source = .ok (some type))

include hfree hsource

theorem filter_flags_keepsQuery (htable : type.name = "DbSet") :
    (c.chain.calls.takeWhile (keepsQuery src)).filter (flags ⟨comp.index, src⟩ ·.site)
      = (c.chain.calls.takeWhile (keepsQuery src)).filter (writesIndex src) := by
  have hnames : ∀ call ∈ c.chain.calls.takeWhile (keepsQuery src),
      call.method src ∈ Operator.chainNames := by
    intro call hcall
    have hkeeps : keepsQuery src call = true := List.mem_takeWhile_imp hcall
    exact List.contains_iff_mem.1 hkeeps
  have hcalls := List.takeWhile_append_dropWhile (p := keepsQuery src) (l := c.chain.calls)
  refine List.filter_congr fun call hcall => ?_
  obtain ⟨before, between, hsplit⟩ := List.append_of_mem hcall
  rw [hsplit] at hnames hcalls
  have hsplit' : c.chain.calls
      = before ++ call :: (between ++ c.chain.calls.dropWhile (keepsQuery src)) := by
    simpa using hcalls.symm
  apply flags_of_chainNames hfree hsource htable hsplit'
  intro x hx
  apply hnames
  simp only [List.mem_append, List.mem_cons, List.not_mem_nil, or_false] at hx ⊢
  rcases hx with hx | hx <;> simp [hx]

/-- A call by another name than those of the query operators is not made
on a query. -/
theorem isOnQuery_eq_false_of_not_mem {before after : List Call} {call : Call}
    (hsplit : c.chain.calls = before ++ call :: after)
    (hname : call.method src ∉ Operator.queryNames) :
    isOnQuery ⟨comp.index, src⟩ call.site = false := by
  rw [Bool.eq_false_iff]
  intro hon
  obtain ⟨target, htarget, hreceiver⟩ := isOnQuery_iff.1 hon
  rw [(Model.resolve_of_split hsource hsplit).1, Except.ok.injEq,
    Model.bound?_eq_bind_target?] at htarget
  obtain ⟨receiver, -, hbound⟩ := Option.bind_eq_some_iff.1 htarget
  rcases Option.or_eq_some_iff.1 hbound with hmethod | ⟨-, hbind⟩
  · -- a declared method, of a type that is none of the three
    obtain ⟨d, hd, hplain⟩ := Index.exists_decl_of_method? hmethod
    rw [hplain] at hreceiver
    have hdname : d.name = "IQueryable" := hreceiver
    exact hfree d hd (by simp [Model.queryTypes, hdname])
  · exact Operator.receiver_ne_of_bind? hname hbind hreceiver

theorem filter_flags_dropWhile :
    (c.chain.calls.dropWhile (byQueryOperator src)).filter (flags ⟨comp.index, src⟩ ·.site)
      = [] := by
  have hcalls := List.takeWhile_append_dropWhile (p := byQueryOperator src) (l := c.chain.calls)
  cases hdrop : c.chain.calls.dropWhile (byQueryOperator src) with
  | nil => rfl
  | cons call after =>
    rw [hdrop] at hcalls
    -- the first call by another name is not made on a query
    have hname : call.method src ∉ Operator.queryNames := by
      have hnot := List.head_dropWhile_not (byQueryOperator src) (l := c.chain.calls)
        (by rw [hdrop]; exact List.cons_ne_nil _ _)
      simp only [hdrop, List.head_cons] at hnot
      intro hmem
      rw [show byQueryOperator src call = true from List.contains_iff_mem.2 hmem] at hnot
      cases hnot
    have hoff := isOnQuery_eq_false_of_not_mem hfree hsource hcalls.symm hname
    refine List.filter_eq_nil_iff.2 fun later hlater => ?_
    rw [flags_eq_false_of_split hcalls.symm hoff hlater]
    exact Bool.false_ne_true

/-- The calls of a chain from a table that are flagged: as long as the
calls keep the query, those that write the index; from the first call
that is not by a query operator on, none. -/
theorem exists_filter_flags (htable : type.name = "DbSet") :
    ∃ later, later.Sublist ((c.chain.calls.takeWhile (byQueryOperator src)).drop
        (c.chain.calls.takeWhile (keepsQuery src)).length)
      ∧ c.chain.calls.filter (flags ⟨comp.index, src⟩ ·.site)
        = (c.chain.calls.takeWhile (keepsQuery src)).filter (writesIndex src) ++ later := by
  refine ⟨_, List.filter_sublist (p := (flags ⟨comp.index, src⟩ ·.site)), ?_⟩
  calc c.chain.calls.filter (flags ⟨comp.index, src⟩ ·.site)
      = (c.chain.calls.takeWhile (byQueryOperator src)
          ++ c.chain.calls.dropWhile (byQueryOperator src)).filter
            (flags ⟨comp.index, src⟩ ·.site) := by rw [List.takeWhile_append_dropWhile]
    _ = (c.chain.calls.takeWhile (byQueryOperator src)).filter
          (flags ⟨comp.index, src⟩ ·.site) := by
        rw [List.filter_append, filter_flags_dropWhile hfree hsource, List.append_nil]
    _ = _ := by
        conv_lhs => rw [takeWhile_byQueryOperator]
        rw [List.filter_append, filter_flags_keepsQuery hfree hsource htable]

end

/-- Where the source of a chain can be resolved, there is a report at its
tail. -/
theorem exists_report (path : String) {c : Cursor} {source : Option Ty}
    (hsource : m.resolve c.chain.source = .ok source) (hends : c.endsChain = true) :
    ∃ ds, report m.services m.source path c = .ok ds := by
  obtain ⟨-, links, hlinks, -⟩ :=
    Services.query?_eq_ok_some_iff.1 (Model.query?_eq_knownLinks hsource hends)
  exact ⟨_, (report_eq_ok_iff hends).2 ⟨links, source, hlinks, hsource, rfl⟩⟩

/-- In a compilation that leaves the names `DbSet`, `IQueryable` and
`IOrderedQueryable` to the framework, for a chain whose source is a
`DbSet`: the analysis of the tail ends, and what it reports is first, of
the calls before the first that does not keep the query, those that
write the index, and then only calls before the first that is not by a
query operator. -/
theorem table_chain_reported_by_names (comp : Compilation) (doc : Document) (c : Cursor)
    (type : Ty)
    (hfree : ∀ d ∈ comp.index.decls, d.name ∉ ["DbSet", "IQueryable", "IOrderedQueryable"])
    (hends : c.endsChain = true)
    (hsource : (Model.mk comp.index doc.source).resolve c.chain.source = .ok (some type))
    (htable : type.name = "DbSet") :
    ∃ (ds : List Diagnostic) (later : List Call),
      Host.default.reportAt (Model.mk comp.index doc.source).services doc c = .ok ds
        ∧ ds.map some
          = ((c.chain.calls.takeWhile (keepsQuery doc.source)).filter (writesIndex doc.source)
              ++ later).map (fun call => diagnosticAt doc.source doc.path call.site)
        ∧ later.Sublist ((c.chain.calls.takeWhile (byQueryOperator doc.source)).drop
            (c.chain.calls.takeWhile (keepsQuery doc.source)).length) := by
  obtain ⟨ds, hreport⟩ := exists_report doc.path hsource hends
  obtain ⟨later, hlater, hflags⟩ := exists_filter_flags hfree hsource htable
  refine ⟨ds, later, ?_, ?_, hlater⟩
  · rw [Host.reportAt_default_of_endsChain _ doc hends]
    exact hreport
  · rw [map_some_report hends hreport, ← hflags]
    unfold Chain.sites
    rw [List.filter_map, List.map_map]
    rfl

/-- In the sample both calls keep the query, and of the two the first
writes the index. -/
theorem sample_table_chain_reported :
    (∀ d ∈ (Compilation.mk [.sample]).index.decls,
        d.name ∉ ["DbSet", "IQueryable", "IOrderedQueryable"])
      ∧ Document.sampleTail.endsChain = true
      ∧ ∃ d : Diagnostic, d.location = ⟨"C.cs", 0, 47⟩
        ∧ Host.default.reportAt Document.sampleModel.services .sample Document.sampleTail
          = .ok [d] := by
  have hfree : ∀ d ∈ (Compilation.mk [.sample]).index.decls,
      d.name ∉ ["DbSet", "IQueryable", "IOrderedQueryable"] := by decide +kernel
  have hends : Document.sampleTail.endsChain = true := by decide +kernel
  obtain ⟨ds, later, hreport, hds, hlater⟩ := table_chain_reported_by_names ⟨[.sample]⟩ .sample
    Document.sampleTail (.mk "DbSet" [.plain "U"]) hfree hends (by with_unfolding_all rfl) rfl
  have hnone : ((Document.sampleTail.chain.calls.takeWhile
      (byQueryOperator Document.sample.source)).drop (Document.sampleTail.chain.calls.takeWhile
        (keepsQuery Document.sample.source)).length).length = 0 := by decide +kernel
  have hfirst : ((Document.sampleTail.chain.calls.takeWhile
      (keepsQuery Document.sample.source)).filter (writesIndex Document.sample.source)).map
        (fun call => diagnosticAt Document.sample.source Document.sample.path call.site)
      = [some ⟨rule, ⟨"C.cs", 0, 47⟩, ["using the second index parameter in Where"]⟩] := by
    decide +kernel
  rw [List.eq_nil_of_length_eq_zero hnone, List.sublist_nil] at hlater
  rw [hlater, List.append_nil, hfirst] at hds
  obtain ⟨d, rfl, hd⟩ := List.map_eq_singleton_iff.1 hds
  exact ⟨hfree, hends, d, by rw [Option.some.inj hd], hreport⟩

end IndexLambda

end QueryLint
