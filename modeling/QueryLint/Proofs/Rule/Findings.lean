/-
EFX0001 reports what it means to: the diagnostics of an analysis are
those of the flagged calls, one for each and no others.

# From chains to calls

Along one chain, what the rule has seen before it comes to a call is
just what is below that call (`Cursor.chain_of_split`), so breaking off
early is the same as asking of every call that all below it are known
and made on queries (`map_some_findings`). Over a whole tree, the chains
of the tails partition the calls (`Tree.perm_sites`), and over a
compilation the host goes through every node of every tree once.
-/
import QueryLint.Proofs.Chain.Typing
import QueryLint.Proofs.Host.Analysis
import QueryLint.Proofs.Rule.Flagged

namespace QueryLint

namespace IndexLambda

variable {m : Model} {path : String}

-- ============================================================ along a chain

/-- Along a chain, a call is flagged if all up to it are made on queries
and it passes its own checks. -/
theorem flags_of_split {c : Cursor} {before after : List Call} {call : Call}
    (hsplit : c.chain.calls = before ++ call :: after) :
    flags m call.site
      = (isTableAt m c.chain.source
          && (before.all (isOnQuery m ·.site) && isOnQuery m call.site)
          && isSensitive (m.source.simpleName call.name.focus) && usesIndex m call.site) := by
  obtain ⟨receiver, hcall, hchain⟩ := Cursor.chain_of_split hsplit
  unfold flags isOperator
  rw [Cursor.chain_of_memberCall? hcall, hchain, hcall]
  unfold Chain.sites
  rw [List.all_map, List.all_append]
  simp only [List.all_cons, List.all_nil, Bool.and_true]
  rfl

/-- Behind a call that is not made on a query, none is flagged. -/
theorem flags_eq_false_of_split {c : Cursor} {before after : List Call} {call : Call}
    (hsplit : c.chain.calls = before ++ call :: after) (hoff : isOnQuery m call.site = false)
    {later : Call} (hlater : later ∈ call :: after) : flags m later.site = false := by
  rcases List.mem_cons.1 hlater with heq | hmem
  · subst heq
    rw [flags_of_split hsplit, hoff]
    simp
  · obtain ⟨between, behind, hafter⟩ := List.append_of_mem hmem
    have hsplit' : c.chain.calls = (before ++ call :: between) ++ later :: behind := by
      rw [hsplit, hafter]
      simp
    have hall : (before ++ call :: between).all (isOnQuery m ·.site) = false := by
      rw [List.all_append, List.all_cons, hoff]
      simp
    rw [flags_of_split hsplit', hall]
    simp

/-- At a call that is unknown or not made on a query, the rule breaks
off. -/
theorem findings_of_not_isOnQuery {source : Cursor} {call : Call} {after : List Call}
    (hoff : isOnQuery m call.site = false) :
    findings m.source path ⟨source, knownLinks ((call :: after).map m.knownLink?)⟩ = [] := by
  rw [List.map_cons]
  cases hlink : m.knownLink? call with
  | none => rfl
  | some link =>
    have hlink' : onQuery link = false := by
      unfold Model.knownLink? at hlink
      unfold isOnQuery at hoff
      split at hlink
      · next target htarget =>
        cases hlink
        rw [htarget] at hoff
        exact hoff
      · cases hlink
    rw [knownLinks_some_cons]
    unfold findings
    rw [List.takeWhile_cons, hlink']
    rfl

theorem findings_cons_of_onQuery {src : Source} {source : Cursor} {link : Link}
    {links : List Link} (h : onQuery link = true) :
    findings src path ⟨source, link :: links⟩
      = (if isSensitive link.name then check? src path link else none).toList
          ++ findings src path ⟨source, links⟩ := by
  unfold findings
  rw [List.takeWhile_cons, if_pos h, List.filter_cons]
  split
  · rw [List.filterMap_cons]
    cases check? src path link with
    | none => rfl
    | some d => rfl
  · rfl

/-- The check of a call with a known target finds the diagnostic of the
call, and this if the call uses the index. -/
theorem check?_linkTo {call : Call} {receiver : Cursor} {target : Method}
    (hcall : call.site.memberCall? = some (receiver, call.name))
    (htarget : m.resolveMethod call.site = .ok (some target)) :
    check? m.source path (Services.linkTo m.source call target)
      = if usesIndex m call.site then diagnosticAt m.source path call.site else none := by
  unfold usesIndex diagnosticAt
  rw [htarget, hcall]
  show (if takesIndex target then (indexParameter? call.site).map _ else none)
    = if takesIndex target && _ then (indexParameter? call.site).map _ else none
  by_cases htakes : takesIndex target = true
  · rw [if_pos htakes, htakes, Bool.true_and]
    cases hparameter : indexParameter? call.site with
    | none => rfl
    | some parameter => rfl
  · rw [if_neg htakes, Bool.eq_false_iff.2 htakes]
    rfl

theorem exists_diagnosticAt_of_flags (path : String) {site : Cursor}
    (h : flags m site = true) :
    ∃ d, diagnosticAt m.source path site = some d := by
  unfold flags at h
  simp only [Bool.and_eq_true] at h
  obtain ⟨⟨-, hoperator⟩, huses⟩ := h
  obtain ⟨receiver, name, hcall, -⟩ := isOperator_iff.1 hoperator
  obtain ⟨-, -, -, hparameter⟩ := usesIndex_iff.1 huses
  obtain ⟨parameter, hparameter⟩ := Option.isSome_iff_exists.1 hparameter
  unfold diagnosticAt
  rw [hcall, hparameter]
  exact ⟨_, rfl⟩

/-- From any place of a chain whose source is a table, as long as all
calls before are made on queries, what is found is what is flagged. -/
theorem map_some_findings {c : Cursor} (htable : isTableAt m c.chain.source = true)
    {before after : List Call} (hsplit : c.chain.calls = before ++ after)
    (hbefore : before.all (isOnQuery m ·.site) = true) :
    (findings m.source path ⟨c.chain.source, knownLinks (after.map m.knownLink?)⟩).map some
      = ((after.map Call.site).filter (flags m)).map (diagnosticAt m.source path) := by
  induction after generalizing before with
  | nil => rfl
  | cons call after ih =>
    cases hon : isOnQuery m call.site with
    | false =>
      -- the rule breaks off here, and nothing from here on is flagged
      have hnone : ((call :: after).map Call.site).filter (flags m) = [] := by
        refine List.filter_eq_nil_iff.2 fun site hsite => ?_
        obtain ⟨later, hlater, rfl⟩ := List.mem_map.1 hsite
        rw [flags_eq_false_of_split hsplit hon hlater]
        exact Bool.false_ne_true
      rw [hnone, findings_of_not_isOnQuery hon]
      rfl
    | true =>
      obtain ⟨target, htarget, hname⟩ := isOnQuery_iff.1 hon
      obtain ⟨receiver, hcall, -⟩ := Cursor.chain_of_split hsplit
      have hquery : onQuery (Services.linkTo m.source call target) = true := by
        unfold onQuery Services.linkTo
        rw [hname]
        rfl
      have hflags : flags m call.site
          = (isSensitive (m.source.simpleName call.name.focus) && usesIndex m call.site) := by
        rw [flags_of_split hsplit, htable, hbefore, hon]
        rfl
      have hfound : (if isSensitive (Services.linkTo m.source call target).name
          then check? m.source path (Services.linkTo m.source call target) else none)
          = if flags m call.site then diagnosticAt m.source path call.site else none := by
        rw [check?_linkTo hcall htarget, hflags]
        show (if isSensitive (m.source.simpleName call.name.focus) then _ else _) = _
        cases isSensitive (m.source.simpleName call.name.focus) with
        | false => rfl
        | true => rfl
      have hbefore' : (before ++ [call]).all (isOnQuery m ·.site) = true := by
        rw [List.all_append, hbefore, List.all_cons, hon]
        rfl
      have hrest := ih (by rw [hsplit, List.append_assoc]; rfl) hbefore'
      rw [List.map_cons, Model.knownLink?_of_resolveMethod htarget]
      show (findings _ _ ⟨_, knownLinks (some (Services.linkTo m.source call target) :: _)⟩).map _
        = _
      rw [knownLinks_some_cons, findings_cons_of_onQuery hquery, hfound, List.map_append, hrest,
        List.map_cons, List.filter_cons]
      cases hflag : flags m call.site with
      | false => rfl
      | true =>
        obtain ⟨d, hd⟩ := exists_diagnosticAt_of_flags path hflag
        rw [if_pos rfl, if_pos rfl, List.map_cons, hd]
        rfl

/-- What is reported at a tail are the flagged calls of its chain. -/
theorem map_some_report {c : Cursor} {ds : List Diagnostic} (hends : c.endsChain = true)
    (h : report m.services m.source path c = .ok ds) :
    ds.map some
      = (c.chain.sites.filter (flags m)).map (diagnosticAt m.source path) := by
  obtain ⟨links, type, hlinks, htype, rfl⟩ := (report_eq_ok_iff hends).1 h
  rw [Model.links_eq_map_knownLink? hlinks]
  have htable : isTableAt m c.chain.source = isTable type := by
    unfold isTableAt
    rw [show m.resolve c.chain.source = .ok type from htype]
  split
  · next hpos => exact map_some_findings (htable.trans hpos) (List.nil_append _).symm List.all_nil
  · next hneg =>
    -- nothing is flagged above a source that is no table
    have hnone : c.chain.sites.filter (flags m) = [] := by
      refine List.filter_eq_nil_iff.2 fun site hsite => ?_
      obtain ⟨call, hcall, rfl⟩ := List.mem_map.1 hsite
      obtain ⟨before, after, hsplit⟩ := List.append_of_mem hcall
      rw [flags_of_split hsplit, htable, Bool.eq_false_iff.2 hneg]
      exact Bool.false_ne_true
    rw [hnone]
    rfl

-- ===================================================== over a compilation

theorem filter_flags_memberCalls (t : Tree) :
    t.memberCalls.filter (flags m) = t.documentOrder.filter (flags m) := by
  unfold Tree.memberCalls
  rw [List.filter_filter]
  refine List.filter_congr fun c _ => ?_
  cases hflags : flags m c with
  | false => rfl
  | true =>
    obtain ⟨receiver, name, hcall, -⟩ := (flags_iff.1 hflags).operator
    rw [hcall]
    rfl

/-- The calls of a document that are reported: along each chain, those
that are flagged. -/
def reportedCalls (index : Index) (doc : Document) : List Cursor :=
  (doc.tree.tails.flatMap (·.chain.sites)).filter (flags ⟨index, doc.source⟩)

/-- What is reported in a document are its reported calls. -/
theorem perm_reportedCalls {index : Index} {doc : Document} {ds : List Diagnostic}
    (h : Host.default.reportIn index doc = .ok ds) :
    (ds.map some).Perm ((reportedCalls index doc).map (diagnosticAt doc.source doc.path)) := by
  obtain ⟨found, hfound, rfl⟩ := Host.reportIn_eq_ok_iff.1 h
  let expected : Cursor → List (Option Diagnostic) := fun c =>
    (c.chain.sites.filter (flags ⟨index, doc.source⟩)).map (diagnosticAt doc.source doc.path)
  have hnodes : (found.flatten.map some).Perm
      (doc.tree.visit.flatMap fun c => if c.endsChain then expected c else []) := by
    refine perm_flatMap_of_answers hfound fun c _ ds hds => .of_eq ?_
    split
    · next hends =>
      rw [Host.reportAt_default_of_endsChain _ doc hends] at hds
      exact map_some_report (m := ⟨index, doc.source⟩) hends hds
    · next hends =>
      rw [Host.reportAt_default_of_not_endsChain _ doc (Bool.eq_false_iff.2 hends)] at hds
      cases hds
      rfl
  calc (found.flatten.map some).Perm
        (doc.tree.visit.flatMap fun c => if c.endsChain then expected c else []) := hnodes
    List.Perm _ (doc.tree.documentOrder.flatMap fun c => if c.endsChain then expected c else []) :=
        doc.tree.visit_perm.flatMap_right _
    _ = doc.tree.tails.flatMap expected := by rw [Tree.flatMap_tails]
    _ = (reportedCalls index doc).map (diagnosticAt doc.source doc.path) := by
        rw [reportedCalls, List.filter_flatMap, List.map_flatMap]

/-- In a tree of the grammar, these are all flagged calls. -/
theorem perm_reportIn {index : Index} {doc : Document} {ds : List Diagnostic}
    (hg : doc.tree.Grammatical) (h : Host.default.reportIn index doc = .ok ds) :
    (ds.map some).Perm ((doc.tree.documentOrder.filter (flags ⟨index, doc.source⟩)).map
      (diagnosticAt doc.source doc.path)) := by
  rw [← filter_flags_memberCalls]
  exact (perm_reportedCalls h).trans (((Tree.perm_sites hg).filter _).map _)

theorem decide_flagged (m : Model) (site : Cursor) : decide (Flagged m site) = flags m site := by
  rw [Bool.eq_iff_iff, decide_eq_true_iff]
  exact flags_iff.symm

/-- The default host, on documents whose trees are of the grammar: when
the analysis ends normally, the diagnostics are, up to their order, those
of the flagged calls of all documents, one for each. -/
theorem flagged_reported_once (comp : Compilation) (ds : List Diagnostic)
    (hg : ∀ doc ∈ comp.documents, doc.tree.Grammatical)
    (h : Host.default.analyze comp = .ok ds) :
    (ds.map some).Perm (comp.documents.flatMap fun doc =>
      (doc.tree.documentOrder.filter (Flagged ⟨comp.index, doc.source⟩ ·)).map
        (diagnosticAt doc.source doc.path)) := by
  obtain ⟨found, hfound, rfl⟩ := Host.analyze_eq_ok_iff.1 h
  have hsort : (Diagnostic.sort found.flatten).Perm found.flatten := List.mergeSort_perm _ _
  refine (hsort.map some).trans (perm_flatMap_of_answers hfound ?_)
  intro doc hdoc ds hds
  simp only [decide_flagged]
  exact perm_reportIn (hg doc hdoc) hds

/-- In the sample one call is flagged, the first, and it is reported. -/
theorem sample_call_reported :
    Document.sample.tree.Grammatical ∧ ∃ d : Diagnostic, d.location = ⟨"C.cs", 0, 47⟩
      ∧ Host.default.analyze ⟨[Document.sample]⟩ = .ok [d]
      ∧ (Document.sample.tree.documentOrder.filter (Flagged Document.sampleModel ·)).map
          (diagnosticAt Document.sample.source Document.sample.path) = [some d] := by
  have hg : Document.sample.tree.Grammatical := by decide +kernel
  have hds : Host.default.analyze ⟨[Document.sample]⟩
      = .ok [⟨rule, ⟨"C.cs", 0, 47⟩, ["using the second index parameter in Where"]⟩] := by
    decide +kernel
  have hperm := flagged_reported_once ⟨[Document.sample]⟩ _ (List.forall_mem_singleton.2 hg) hds
  rw [List.flatMap_singleton] at hperm
  exact ⟨hg, _, rfl, hds, (List.singleton_perm.1 hperm).symm⟩

end IndexLambda

end QueryLint
