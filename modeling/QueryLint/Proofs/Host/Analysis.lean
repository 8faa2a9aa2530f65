/-
An analysis, taken apart. The host goes through documents, nodes and
actions, and breaks off at the first that does; so an analysis that ends
normally has an answer for every node, and what it gives is all these
answers in a row, sorted. For each level there is one statement, from
the whole compilation down to one node (`analyze_eq_ok_iff`,
`reportIn_eq_ok_iff`, `reportAt_default`, `report_eq_ok_iff`), and
nothing above these opens the definitions again.
-/
import QueryLint.Host
import QueryLint.Proofs.Chain.Query

namespace QueryLint

/-- Where each answer is, up to order, what is expected, so are all of
them together. -/
theorem perm_flatMap_of_answers {ε α β γ : Type} {f : α → Except ε (List β)} {g : β → γ}
    {expected : α → List γ} {xs : List α} {found : List (List β)}
    (hfound : xs.map f = found.map .ok)
    (h : ∀ x ∈ xs, ∀ ys, f x = .ok ys → (ys.map g).Perm (expected x)) :
    (found.flatten.map g).Perm (xs.flatMap expected) := by
  induction xs generalizing found with
  | nil =>
    rw [List.map_eq_nil_iff.1 hfound.symm]
    exact .refl _
  | cons x xs ih =>
    cases found with
    | nil => cases hfound
    | cons ys found =>
      obtain ⟨hx, hxs⟩ := List.cons.inj hfound
      rw [List.flatten_cons, List.map_append, List.flatMap_cons]
      exact (h x List.mem_cons_self ys hx).append
        (ih hxs fun z hz => h z (List.mem_cons_of_mem x hz))

theorem flatten_mapM_cons {ε α β : Type} (f : α → Except ε (List β)) (x : α) (xs : List α) :
    ((x :: xs).mapM f).map List.flatten
      = (f x).bind fun ys => ((xs.mapM f).map List.flatten).map (ys ++ ·) := by
  rw [List.mapM_cons]
  cases f x with
  | error e => rfl
  | ok ys =>
    cases xs.mapM f with
    | error e => rfl
    | ok zs => rfl

theorem flatten_mapM_singleton {ε α β : Type} (f : α → Except ε (List β)) (x : α) :
    ([x].mapM f).map List.flatten = f x := by
  rw [flatten_mapM_cons]
  cases f x with
  | error e => rfl
  | ok ys => exact congrArg Except.ok (List.append_nil ys)

theorem flatten_mapM_append {ε α β : Type} (f : α → Except ε (List β)) (xs ys : List α) :
    ((xs ++ ys).mapM f).map List.flatten
      = ((xs.mapM f).map List.flatten).bind fun as =>
          ((ys.mapM f).map List.flatten).map (as ++ ·) := by
  induction xs with
  | nil =>
    cases h : (ys.mapM f).map List.flatten with
    | error e => exact h
    | ok zs => exact h
  | cons x xs ih =>
    rw [List.cons_append, flatten_mapM_cons, flatten_mapM_cons, ih]
    cases f x with
    | error e => rfl
    | ok as =>
      cases (xs.mapM f).map List.flatten with
      | error e => rfl
      | ok bs =>
        cases (ys.mapM f).map List.flatten with
        | error e => rfl
        | ok cs => exact congrArg Except.ok (List.append_assoc as bs cs).symm

/-- Each question may be split into several. -/
theorem flatten_mapM_flatMap {ε α β γ : Type} {f : α → Except ε (List β)}
    {g : γ → Except ε (List β)} {parts : α → List γ} {xs : List α}
    (h : ∀ x ∈ xs, ((parts x).mapM g).map List.flatten = f x) :
    ((xs.flatMap parts).mapM g).map List.flatten = (xs.mapM f).map List.flatten := by
  induction xs with
  | nil => rfl
  | cons x xs ih =>
    rw [List.flatMap_cons, flatten_mapM_append, flatten_mapM_cons, h x List.mem_cons_self,
      ih fun y hy => h y (List.mem_cons_of_mem x hy)]

namespace Host

variable {host : Host}

-- ================================================ compilation and document

/-- An analysis ends normally exactly if that of every document does. -/
theorem analyze_eq_ok_iff {comp : Compilation} {ds : List Diagnostic} :
    host.analyze comp = .ok ds ↔
      ∃ found : List (List Diagnostic),
        comp.documents.map (host.reportIn comp.index) = found.map .ok
          ∧ ds = Diagnostic.sort found.flatten := by
  unfold analyze
  rw [bind_eq_ok_iff]
  constructor
  · intro h
    obtain ⟨found, hfound, heq⟩ := h
    cases heq
    exact ⟨found, mapM_eq_ok_iff.1 hfound, rfl⟩
  · intro h
    obtain ⟨found, hfound, rfl⟩ := h
    exact ⟨found, mapM_eq_ok_iff.2 hfound, rfl⟩

theorem reportIn_eq_map (host : Host) (index : Index) (doc : Document) :
    host.reportIn index doc
      = (doc.tree.visit.mapM (host.reportAt (Model.mk index doc.source).services doc)).map
        List.flatten := by
  unfold reportIn
  show (doc.tree.visit.mapM (host.reportAt (Model.mk index doc.source).services doc) >>= _) = _
  cases doc.tree.visit.mapM (host.reportAt (Model.mk index doc.source).services doc) with
  | error e => rfl
  | ok found => rfl

theorem reportAt_eq_map (host : Host) (services : Services) (doc : Document) (c : Cursor) :
    host.reportAt services doc c
      = ((host.actions c.kind).mapM (host.run services doc c)).map List.flatten := by
  unfold reportAt
  cases (host.actions c.kind).mapM (host.run services doc c) with
  | error e => rfl
  | ok found => rfl

theorem analyze_eq_map (host : Host) (comp : Compilation) :
    host.analyze comp
      = ((comp.documents.mapM (host.reportIn comp.index)).map List.flatten).map
        Diagnostic.sort := by
  unfold analyze
  cases comp.documents.mapM (host.reportIn comp.index) with
  | error e => rfl
  | ok found => rfl

/-- What is reported in a document, if that ends normally. -/
def found (host : Host) (index : Index) (doc : Document) : List Diagnostic :=
  (host.reportIn index doc).toOption.getD []

/-- An analysis that ends normally sorts what is found in the documents,
one after the other. -/
theorem analyze_eq_ok_iff_found {comp : Compilation} {ds : List Diagnostic} :
    host.analyze comp = .ok ds ↔
      (∀ doc ∈ comp.documents, host.reportIn comp.index doc = .ok (host.found comp.index doc))
        ∧ ds = Diagnostic.sort (comp.documents.flatMap (host.found comp.index)) := by
  rw [analyze_eq_ok_iff]
  constructor
  · intro h
    obtain ⟨parts, hparts, rfl⟩ := h
    have hfound : comp.documents.map (host.found comp.index) = parts := by
      have := congrArg (List.map fun answer => answer.toOption.getD []) hparts
      rw [List.map_map, List.map_map] at this
      exact this.trans (List.map_id parts)
    constructor
    · rw [← hfound, List.map_map] at hparts
      exact fun doc hdoc => List.map_inj_left.1 hparts doc hdoc
    · rw [List.flatMap_def, hfound]
  · intro h
    obtain ⟨hall, rfl⟩ := h
    refine ⟨comp.documents.map (host.found comp.index), ?_, by rw [List.flatMap_def]⟩
    rw [List.map_map]
    exact List.map_congr_left hall

theorem reportIn_eq_ok_found {index : Index} {doc : Document}
    (h : (host.reportIn index doc).isOk = true) :
    host.reportIn index doc = .ok (host.found index doc) := by
  unfold found
  cases hreport : host.reportIn index doc with
  | error e =>
    rw [hreport] at h
    cases h
  | ok ds => rfl

theorem reportIn_eq_ok_iff {index : Index} {doc : Document} {ds : List Diagnostic} :
    host.reportIn index doc = .ok ds ↔
      ∃ found : List (List Diagnostic),
        doc.tree.visit.map (host.reportAt (Model.mk index doc.source).services doc)
            = found.map .ok
          ∧ ds = found.flatten := by
  unfold reportIn
  show (_ >>= _) = _ ↔ _
  rw [bind_eq_ok_iff]
  constructor
  · intro h
    obtain ⟨found, hfound, heq⟩ := h
    cases heq
    exact ⟨found, mapM_eq_ok_iff.1 hfound, rfl⟩
  · intro h
    obtain ⟨found, hfound, rfl⟩ := h
    exact ⟨found, mapM_eq_ok_iff.2 hfound, rfl⟩

-- ============================================================= one report

theorem report_of_run {services : Services} {doc : Document} {c : Cursor} {r : Registration}
    {ds : List Diagnostic} (h : host.run services doc c r = .ok ds) :
    r.report services doc c = .ok ds := by
  obtain ⟨found, hfound, haccept⟩ := bind_eq_ok_iff.1 h
  unfold accept at haccept
  split at haccept
  · cases haccept
  · cases haccept
    exact hfound

/-- Whatever is reported in a document, some action reported at some node
of it. -/
theorem exists_report_of_mem_reportIn {index : Index} {doc : Document} {ds : List Diagnostic}
    (h : host.reportIn index doc = .ok ds) {d : Diagnostic} (hd : d ∈ ds) :
    ∃ c ∈ doc.tree.documentOrder, ∃ r ∈ host.registrations, ∃ part : List Diagnostic,
      r.report (Model.mk index doc.source).services doc c = .ok part ∧ d ∈ part := by
  obtain ⟨nodes, hnodes, rfl⟩ := reportIn_eq_ok_iff.1 h
  obtain ⟨atNode, hatNode, hd⟩ := List.mem_flatten.1 hd
  obtain ⟨c, hc, hreport⟩ := exists_question hnodes hatNode
  obtain ⟨found, hfound, heq⟩ := bind_eq_ok_iff.1 hreport
  cases heq
  obtain ⟨part, hpart, hd⟩ := List.mem_flatten.1 hd
  obtain ⟨r, hr, hrun⟩ := exists_question (mapM_eq_ok_iff.1 hfound) hpart
  exact ⟨c, doc.tree.visit_perm.mem_iff.1 hc, r, (List.mem_filter.1 hr).1, part,
    report_of_run hrun, hd⟩

/-- The actions of a host are those of its analyzers. -/
theorem exists_analyzer_of_make {analyzers : List Analyzer} (h : make analyzers = .ok host)
    {r : Registration} (hr : r ∈ host.registrations) :
    ∃ a ∈ analyzers, ∃ rs, a.registrations = some rs ∧ r ∈ rs := by
  obtain ⟨actions, hactions, heq⟩ := bind_eq_ok_iff.1 h
  cases heq
  obtain ⟨rs, hrs, hmem⟩ := List.mem_flatten.1 hr
  obtain ⟨a, ha, hof⟩ := exists_question (mapM_eq_ok_iff.1 hactions) hrs
  refine ⟨a, ha, rs, ?_, hmem⟩
  unfold actionsOf at hof
  split at hof
  · next hsome =>
    cases hof
    exact hsome
  · cases hof

end Host

-- ================================================================ one query

namespace IndexLambda

variable {services : Services} {src : Source} {path : String}

theorem report_of_not_endsChain {c : Cursor} (h : c.endsChain = false) :
    report services src path c = .ok [] := by
  unfold report
  rw [Services.query?_of_not_endsChain h]
  rfl

/-- The report at a tail, when the services have all their answers. -/
theorem report_eq_ok_iff {c : Cursor} {ds : List Diagnostic} (hends : c.endsChain = true) :
    report services src path c = .ok ds ↔
      ∃ links type, c.chain.calls.map (services.link? src) = links.map .ok
        ∧ services.type c.chain.source = .ok type
        ∧ ds = if isTable type then findings src path ⟨c.chain.source, knownLinks links⟩
            else [] := by
  unfold report
  rw [bind_eq_ok_iff]
  constructor
  · intro h
    obtain ⟨query, hquery, hrest⟩ := h
    cases query with
    | none => exact absurd hquery (Services.query?_ne_ok_none hends)
    | some query =>
      obtain ⟨-, links, hlinks, rfl⟩ := Services.query?_eq_ok_some_iff.1 hquery
      obtain ⟨type, htype, heq⟩ := bind_eq_ok_iff.1 hrest
      refine ⟨links, type, hlinks, htype, ?_⟩
      split at heq
      · next htable =>
        cases heq
        rw [if_pos htable]
      · next htable =>
        cases heq
        rw [if_neg htable]
  · intro h
    obtain ⟨links, type, hlinks, htype, rfl⟩ := h
    refine ⟨_, Services.query?_eq_ok_some_iff.2 ⟨hends, links, hlinks, rfl⟩, ?_⟩
    refine bind_eq_ok_iff.2 ⟨type, htype, ?_⟩
    split
    · rfl
    · rfl

/-- What is found is reported under the rule. -/
theorem rule_of_mem_findings {query : Query} {d : Diagnostic}
    (h : d ∈ findings src path query) : d.rule = rule := by
  obtain ⟨link, -, hcheck⟩ := List.mem_filterMap.1 h
  unfold check? at hcheck
  split at hcheck
  · obtain ⟨parameter, -, rfl⟩ := Option.map_eq_some_iff.1 hcheck
    rfl
  · cases hcheck

theorem rule_of_mem_report {c : Cursor} {ds : List Diagnostic}
    (h : report services src path c = .ok ds) {d : Diagnostic} (hd : d ∈ ds) :
    d.rule = rule := by
  cases hends : c.endsChain with
  | false =>
    rw [report_of_not_endsChain hends] at h
    cases h
    cases hd
  | true =>
    obtain ⟨links, type, -, -, rfl⟩ := (report_eq_ok_iff hends).1 h
    split at hd
    · exact rule_of_mem_findings hd
    · cases hd

end IndexLambda

-- ================================================================= one node

namespace Host

variable {host : Host}

/-- A report passes if all its rules are declared. -/
theorem accept_of_supported {ds : List Diagnostic}
    (h : ∀ d ∈ ds, d.rule.id ∈ host.supported) : host.accept ds = .ok ds := by
  unfold accept
  have hnone : ds.find? (!host.supported.contains ·.rule.id) = none := by
    refine List.find?_eq_none.2 fun d hd => ?_
    simpa using h d hd
  rw [hnone]

/-- The default host lets every report of its rule through. -/
theorem accept_default {ds : List Diagnostic} (h : ∀ d ∈ ds, d.rule = IndexLambda.rule) :
    default.accept ds = .ok ds := by
  refine accept_of_supported fun d hd => ?_
  rw [h d hd]
  exact List.mem_singleton_self _

/-- At a node, the default host reports what the rule does at calls, and
nothing elsewhere. -/
theorem reportAt_default (services : Services) (doc : Document) (c : Cursor) :
    default.reportAt services doc c
      = if c.kind = .invocation then IndexLambda.report services doc.source doc.path c
        else .ok [] := by
  unfold reportAt
  by_cases hkind : c.kind = .invocation
  · rw [if_pos hkind, hkind]
    show ([_].mapM (default.run services doc c) >>= _) = _
    rw [List.mapM_cons, List.mapM_nil]
    unfold run
    cases hreport : IndexLambda.report services doc.source doc.path c with
    | error e =>
      show ((((IndexLambda.report services doc.source doc.path c >>= _) >>= _)) >>= _) = _
      rw [hreport]
      rfl
    | ok ds =>
      show ((((IndexLambda.report services doc.source doc.path c >>= default.accept) >>= _))
        >>= _) = _
      rw [hreport]
      show ((default.accept ds >>= _) >>= _) = _
      rw [accept_default fun d hd => IndexLambda.rule_of_mem_report hreport hd]
      show Except.ok [ds].flatten = _
      rw [List.flatten_singleton]
  · have hnone : default.actions c.kind = [] := by
      refine List.filter_eq_nil_iff.2 fun r hr => ?_
      rw [List.mem_singleton.1 hr]
      simpa using Ne.symm hkind
    rw [if_neg hkind, hnone]
    rfl

/-- Only tails have something reported. -/
theorem reportAt_default_of_not_endsChain (services : Services) (doc : Document) {c : Cursor}
    (h : c.endsChain = false) : default.reportAt services doc c = .ok [] := by
  rw [reportAt_default, IndexLambda.report_of_not_endsChain h, ite_self]

theorem reportAt_default_of_endsChain (services : Services) (doc : Document) {c : Cursor}
    (h : c.endsChain = true) :
    default.reportAt services doc c
      = IndexLambda.report services doc.source doc.path c := by
  have hcall : c.memberCall?.isSome = true := by
    unfold Cursor.endsChain at h
    exact (Bool.and_eq_true_iff.1 h).1
  rw [reportAt_default, if_pos (Cursor.kind_of_memberCall? hcall)]

-- ========================================================= ending normally

/-- Where the services answer for all nodes of a tree, there is a report
at each of them. -/
theorem exists_reportAt_default {services : Services} {t : Tree}
    (htype : ∀ c : Cursor, c.top = t → ∃ type, services.type c = .ok type)
    (hmethod : ∀ c : Cursor, c.top = t → ∃ target, services.method c = .ok target)
    (doc : Document) {c : Cursor} (hc : c.top = t) :
    ∃ ds, default.reportAt services doc c = .ok ds := by
  cases hends : c.endsChain with
  | false => exact ⟨[], reportAt_default_of_not_endsChain services doc hends⟩
  | true =>
    obtain ⟨type, hsource⟩ := htype c.chain.source (c.top_source.trans hc)
    have hanswers : ∀ call ∈ c.chain.calls, ∃ link, services.link? doc.source call = .ok link := by
      intro call hcall
      have hsite : call.site ∈ c.chain.sites := List.mem_map_of_mem hcall
      obtain ⟨target, htarget⟩ := hmethod call.site ((Cursor.top_of_mem_sites hsite).trans hc)
      exact ⟨_, Services.link?_of_method htarget⟩
    obtain ⟨links, hlinks⟩ := exists_map_eq_ok hanswers
    rw [reportAt_default_of_endsChain services doc hends]
    exact ⟨_, (IndexLambda.report_eq_ok_iff hends).2 ⟨links, type, hlinks, hsource, rfl⟩⟩

/-- Where all types and targets can be told, the analysis ends normally. -/
theorem exists_analyze_default {comp : Compilation}
    (htype : ∀ doc ∈ comp.documents, ∀ c : Cursor, c.top = doc.tree →
      ∃ type, (Model.mk comp.index doc.source).resolve c = .ok type)
    (hmethod : ∀ doc ∈ comp.documents, ∀ c : Cursor, c.top = doc.tree →
      ∃ target, (Model.mk comp.index doc.source).resolveMethod c = .ok target) :
    ∃ ds, default.analyze comp = .ok ds := by
  have hdocuments : ∀ doc ∈ comp.documents,
      ∃ ds, default.reportIn comp.index doc = .ok ds := by
    intro doc hdoc
    have hnodes : ∀ c ∈ doc.tree.visit,
        ∃ ds, default.reportAt (Model.mk comp.index doc.source).services doc c = .ok ds := by
      intro c hc
      have htop := Tree.mem_documentOrder_iff.1 (doc.tree.visit_perm.mem_iff.1 hc)
      exact exists_reportAt_default (htype doc hdoc) (hmethod doc hdoc) doc htop
    obtain ⟨found, hfound⟩ := exists_map_eq_ok hnodes
    exact ⟨_, reportIn_eq_ok_iff.2 ⟨found, hfound, rfl⟩⟩
  obtain ⟨found, hfound⟩ := exists_map_eq_ok hdocuments
  exact ⟨_, analyze_eq_ok_iff.2 ⟨found, hfound, rfl⟩⟩

end Host

end QueryLint
