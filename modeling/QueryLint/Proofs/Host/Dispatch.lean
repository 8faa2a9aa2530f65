/-
Dispatch is exact. A host goes through documents, nodes and actions, asks
of each report whether its rule is declared, and sorts what is left. To
see that nothing is lost or doubled on the way, take analyzers of which
each has one action, registered for any kinds, that marks every node it
is run on with one diagnostic (`Marking`), such as the markers, which do
so at the node's first byte. Then an analysis gives the marks of all
nodes for all registrations of their kinds, each of them once, sorted by
place.

# The order of marks at one place

Marks come up by document, then as the nodes are visited, and at one node
by registration (`Mark.Before`). They are listed in that order before
they are sorted (`pairwise_marks`), and sorting is stable, so at one
place it is the order of the result.

# Asking once

Each action's report is asked for by itself, but to ask for several
reports one after the other is to ask for all of them in a row
(`flatten_mapM_accept`). So a whole analysis asks once, for all marks as
they come up (`analyze_ofMarkings`).
-/
import QueryLint.Proofs.Diagnostic.Sorting
import QueryLint.Proofs.Host.Analysis
import QueryLint.Proofs.Tree.WellFormed

namespace QueryLint

/-- An analyzer with one action, which reports one diagnostic wherever it
is run. -/
structure Marking where
  /-- The rules that the analyzer declares. -/
  rules : List Rule
  /-- The kinds that the action is registered for, one after the other. -/
  kinds : List Kind
  /-- The id that the action reports under. -/
  id : String
  mark : Services → Document → Cursor → Diagnostic
  events : Model → Document → Cursor → List Event
  id_mark : ∀ services doc c, (mark services doc c).rule.id = id

namespace Marking

/-- The action, registered for a kind. -/
def registration (m : Marking) (kind : Kind) : Registration where
  kind
  report := fun services doc c => .ok [m.mark services doc c]
  events := m.events

def analyzer (m : Marking) : Analyzer where
  rules := m.rules
  registrations := some (m.kinds.map m.registration)

/-- What is registered for which kinds, in the order of registration. -/
def registered (markings : List Marking) : List (Marking × Kind) :=
  markings.flatMap fun m => m.kinds.map (m, ·)

/-- No analyzer declares a rule of the id that is reported under. -/
def Undeclared (m : Marking) (markings : List Marking) : Prop :=
  ∀ other ∈ markings, ∀ rule ∈ other.rules, rule.id ≠ m.id

/-- Some node has a kind that is registered by an analyzer whose id no
analyzer declares. -/
def Stray (markings : List Marking) (docs : List Document) : Prop :=
  ∃ doc ∈ docs, ∃ node ∈ doc.tree.documentOrder, ∃ m ∈ markings,
    node.kind ∈ m.kinds ∧ m.Undeclared markings

theorem mem_registered_iff {markings : List Marking} {m : Marking} {kind : Kind} :
    (m, kind) ∈ registered markings ↔ m ∈ markings ∧ kind ∈ m.kinds := by
  unfold registered
  simp

end Marking

/-- What a marker is as an analyzer of this form. -/
def Marker.marking (marker : Marker) : Marking where
  rules := if marker.declared then [marker.rule] else []
  kinds := marker.kinds
  id := marker.rule.id
  mark := fun _ doc c => marker.mark doc c
  events := fun _ _ _ => []
  id_mark := fun _ _ _ => rfl

theorem Marker.analyzer_marking (marker : Marker) : marker.marking.analyzer = marker.analyzer :=
  rfl

-- ==================================================================== marks

/-- What a registered action reports at a node. -/
structure Mark where
  /-- The place of the document among the documents. -/
  document : Nat
  node : Cursor
  /-- The place of the registration among all of them. -/
  registration : Nat
  diagnostic : Diagnostic

namespace Mark

/-- The mark of a node of one of the documents, for a registration of the
node's kind. -/
def Of (docs : List Document) (markings : List Marking) (m : Mark) : Prop :=
  ∃ doc marking, docs[m.document]? = some doc ∧ m.node ∈ doc.tree.documentOrder
    ∧ (Marking.registered markings)[m.registration]? = some (marking, m.node.kind)
    ∧ m.diagnostic = marking.mark (Model.mk (.ofDocuments docs) doc.source).services doc m.node

/-- The order in which marks come up: by document, then as the nodes are
visited, and at one node by registration. -/
def Before (a b : Mark) : Prop :=
  a.document < b.document
    ∨ (a.document = b.document
      ∧ (a.node.VisitedBefore b.node ∨ (a.node = b.node ∧ a.registration < b.registration)))

theorem not_before_self (m : Mark) : ¬ m.Before m := by
  intro h
  rcases h with hlt | ⟨-, hvisited | ⟨-, hlt⟩⟩
  · exact Nat.lt_irrefl _ hlt
  · exact m.node.not_visitedBefore_self hvisited
  · exact Nat.lt_irrefl _ hlt

/-- The order of a result: by place, and at one place as marks come up. -/
def Precedes (a b : Mark) : Prop :=
  a.diagnostic.location.le b.diagnostic.location = true
    ∧ (a.diagnostic.location = b.diagnostic.location → a.Before b)

end Mark

-- ============================================================== the listing

section Listing

variable (services : Services) (doc : Document) (place : Nat) (markings : List Marking)

/-- The marks of a node, by registration. -/
def Document.marksAt (node : Cursor) : List Mark :=
  ((Marking.registered markings).zipIdx.filter (·.1.2 == node.kind)).map fun entry =>
    ⟨place, node, entry.2, entry.1.1.mark services doc node⟩

/-- The marks in a document, as they come up. -/
def Document.marks : List Mark :=
  doc.tree.visit.flatMap (doc.marksAt services place markings)

/-- The marks in several documents, as they come up. -/
def Marking.marks (docs : List Document) : List Mark :=
  docs.zipIdx.flatMap fun (doc, place) =>
    doc.marks (Model.mk (.ofDocuments docs) doc.source).services place markings

variable {services doc place markings}

theorem Document.mem_marksAt_iff {node : Cursor} {m : Mark} :
    m ∈ doc.marksAt services place markings node ↔
      m.document = place ∧ m.node = node
        ∧ ∃ marking, (Marking.registered markings)[m.registration]? = some (marking, node.kind)
          ∧ m.diagnostic = marking.mark services doc node := by
  unfold marksAt
  simp only [List.mem_map, List.mem_filter, List.mem_zipIdx_iff_getElem?, beq_iff_eq]
  constructor
  · intro h
    obtain ⟨⟨⟨marking, kind⟩, i⟩, ⟨hget, hkind⟩, rfl⟩ := h
    cases hkind
    exact ⟨rfl, rfl, marking, hget, rfl⟩
  · intro h
    obtain ⟨rfl, rfl, marking, hget, hdiagnostic⟩ := h
    refine ⟨⟨⟨marking, m.node.kind⟩, m.registration⟩, ⟨hget, rfl⟩, ?_⟩
    rw [← hdiagnostic]

theorem Document.mem_marks_iff {m : Mark} :
    m ∈ doc.marks services place markings ↔
      m.document = place ∧ m.node ∈ doc.tree.documentOrder
        ∧ ∃ marking, (Marking.registered markings)[m.registration]? = some (marking, m.node.kind)
          ∧ m.diagnostic = marking.mark services doc m.node := by
  unfold marks
  simp only [List.mem_flatMap, mem_marksAt_iff, doc.tree.visit_perm.mem_iff]
  constructor
  · intro h
    obtain ⟨node, hnode, rfl, rfl, hmarking⟩ := h
    exact ⟨rfl, hnode, hmarking⟩
  · intro h
    obtain ⟨rfl, hnode, hmarking⟩ := h
    exact ⟨m.node, hnode, rfl, rfl, hmarking⟩

/-- The marks are all listed. -/
theorem Marking.mem_marks_iff {docs : List Document} {m : Mark} :
    m ∈ marks markings docs ↔ m.Of docs markings := by
  unfold marks Mark.Of
  simp only [List.mem_flatMap, Document.mem_marks_iff, Prod.exists,
    List.mem_zipIdx_iff_getElem?]
  constructor
  · intro h
    obtain ⟨doc, place, hdoc, rfl, hnode, marking, hget, hdiagnostic⟩ := h
    exact ⟨doc, marking, hdoc, hnode, hget, hdiagnostic⟩
  · intro h
    obtain ⟨doc, marking, hdoc, hnode, hget, hdiagnostic⟩ := h
    exact ⟨doc, m.document, hdoc, rfl, hnode, marking, hget, hdiagnostic⟩

/-- Places in a list go up. -/
theorem pairwise_zipIdx {α : Type} (xs : List α) :
    xs.zipIdx.Pairwise fun a b => a.2 < b.2 := by
  rw [List.pairwise_iff_getElem]
  intro i j hi hj hij
  simpa using hij

theorem Document.pairwise_marksAt (node : Cursor) :
    (doc.marksAt services place markings node).Pairwise Mark.Before := by
  unfold marksAt
  refine List.pairwise_map.2 (((pairwise_zipIdx _).filter _).imp ?_)
  intro entry entry' hlt
  exact .inr ⟨rfl, .inr ⟨rfl, hlt⟩⟩

theorem Document.pairwise_marks :
    (doc.marks services place markings).Pairwise Mark.Before := by
  unfold marks
  refine List.pairwise_flatMap.2 ⟨fun node _ => pairwise_marksAt node, ?_⟩
  refine doc.tree.pairwise_visit.imp ?_
  intro node node' hvisited m hm m' hm'
  obtain ⟨hplace, rfl, -⟩ := mem_marksAt_iff.1 hm
  obtain ⟨hplace', rfl, -⟩ := mem_marksAt_iff.1 hm'
  exact .inr ⟨hplace.trans hplace'.symm, .inl hvisited⟩

/-- The marks are listed as they come up. -/
theorem Marking.pairwise_marks (docs : List Document) :
    (marks markings docs).Pairwise Mark.Before := by
  unfold marks
  refine List.pairwise_flatMap.2 ⟨fun _ _ => Document.pairwise_marks, ?_⟩
  refine (pairwise_zipIdx docs).imp ?_
  intro entry entry' hlt m hm m' hm'
  obtain ⟨hplace, -⟩ := Document.mem_marks_iff.1 hm
  obtain ⟨hplace', -⟩ := Document.mem_marks_iff.1 hm'
  exact .inl (by omega)

theorem Marking.nodup_marks (docs : List Document) : (marks markings docs).Nodup := by
  refine (pairwise_marks docs).imp ?_
  rintro a b hbefore rfl
  exact a.not_before_self hbefore

end Listing

-- ============================================================== asking once

namespace Host

variable {host : Host}

theorem accept_append (ds ds' : List Diagnostic) :
    host.accept (ds ++ ds')
      = (host.accept ds).bind fun found => (host.accept ds').map (found ++ ·) := by
  unfold accept
  rw [List.find?_append]
  cases ds.find? (!host.supported.contains ·.rule.id) with
  | some d => rfl
  | none =>
    cases ds'.find? (!host.supported.contains ·.rule.id) with
    | some d => rfl
    | none => rfl

/-- To let reports through one by one is to let all of them through. -/
theorem flatten_mapM_accept {α : Type} (f : α → List Diagnostic) (xs : List α) :
    (xs.mapM fun x => host.accept (f x)).map List.flatten = host.accept (xs.flatMap f) := by
  induction xs with
  | nil => rfl
  | cons x xs ih => rw [flatten_mapM_cons, ih, List.flatMap_cons, accept_append]

theorem exists_accept_eq_error {ds : List Diagnostic} {d : Diagnostic} (hd : d ∈ ds)
    (h : d.rule.id ∉ host.supported) :
    ∃ id, host.accept ds = .error (.undeclaredDiagnostic id) := by
  unfold accept
  have hsome : (ds.find? (!host.supported.contains ·.rule.id)).isSome = true :=
    List.find?_isSome.2 ⟨d, hd, by simpa using h⟩
  obtain ⟨first, hfirst⟩ := Option.isSome_iff_exists.1 hsome
  rw [hfirst]
  exact ⟨first.rule.id, rfl⟩

-- ============================================================= the analysis

/-- The host that is made for markings. -/
def ofMarkings (markings : List Marking) : Host where
  supported := (markings.flatMap Marking.rules).map Rule.id
  registrations := (Marking.registered markings).map fun entry => entry.1.registration entry.2

variable {markings : List Marking}

theorem make_markings (markings : List Marking) :
    make (markings.map Marking.analyzer) = .ok (ofMarkings markings) := by
  have hactions : (markings.map Marking.analyzer).mapM actionsOf
      = .ok (markings.map fun m => m.kinds.map m.registration) := by
    rw [mapM_eq_ok_iff, List.map_map, List.map_map]
    rfl
  have hrules : (markings.map Marking.analyzer).flatMap Analyzer.rules
      = markings.flatMap Marking.rules := List.flatMap_map _ _ _
  have hregistrations : (markings.map fun m => m.kinds.map m.registration).flatten
      = (Marking.registered markings).map fun entry => entry.1.registration entry.2 := by
    unfold Marking.registered
    rw [← List.flatMap_def, List.map_flatMap]
    refine List.flatMap_congr fun m _ => ?_
    rw [List.map_map]
    rfl
  refine bind_eq_ok_iff.2 ⟨_, hactions, ?_⟩
  rw [hrules, hregistrations]
  rfl

theorem mem_supported_iff {id : String} :
    id ∈ (ofMarkings markings).supported ↔ ∃ m ∈ markings, ∃ rule ∈ m.rules, rule.id = id := by
  unfold ofMarkings
  simp only [List.mem_map, List.mem_flatMap]
  constructor
  · intro h
    obtain ⟨rule, ⟨m, hm, hrule⟩, hid⟩ := h
    exact ⟨m, hm, rule, hrule, hid⟩
  · intro h
    obtain ⟨m, hm, rule, hrule, hid⟩ := h
    exact ⟨rule, ⟨m, hm, hrule⟩, hid⟩

/-- At a node, the host asks for the marks of the node. -/
theorem reportAt_ofMarkings (services : Services) (doc : Document) (place : Nat) (c : Cursor) :
    (ofMarkings markings).reportAt services doc c
      = (ofMarkings markings).accept
        ((doc.marksAt services place markings c).map Mark.diagnostic) := by
  have hactions : (ofMarkings markings).actions c.kind
      = ((Marking.registered markings).zipIdx.filter (·.1.2 == c.kind)).map fun entry =>
          entry.1.1.registration entry.1.2 := by
    have hregistrations : (ofMarkings markings).registrations
        = (Marking.registered markings).zipIdx.map fun entry =>
            entry.1.1.registration entry.1.2 := by
      show (Marking.registered markings).map _ = _
      conv_lhs => rw [← List.zipIdx_map_fst 0 (Marking.registered markings), List.map_map]
      rfl
    unfold actions
    rw [hregistrations, List.filter_map]
    rfl
  unfold Document.marksAt
  rw [reportAt_eq_map, hactions, List.mapM_map, List.map_map, List.map_eq_flatMap]
  exact flatten_mapM_accept
    (fun entry : (Marking × Kind) × Nat => [entry.1.1.mark services doc c]) _

theorem reportIn_ofMarkings (index : Index) (doc : Document) (place : Nat) :
    (ofMarkings markings).reportIn index doc
      = (ofMarkings markings).accept
        ((doc.marks (Model.mk index doc.source).services place markings).map
          Mark.diagnostic) := by
  unfold Document.marks
  rw [reportIn_eq_map, List.map_flatMap, ← flatten_mapM_accept]
  congr 2
  funext c
  exact reportAt_ofMarkings _ doc place c

/-- An analysis asks for all marks as they come up, and sorts them. -/
theorem analyze_ofMarkings (docs : List Document) :
    (ofMarkings markings).analyze ⟨docs⟩
      = ((ofMarkings markings).accept ((Marking.marks markings docs).map Mark.diagnostic)).map
        Diagnostic.sort := by
  have hdocuments : docs.mapM ((ofMarkings markings).reportIn (.ofDocuments docs))
      = docs.zipIdx.mapM fun entry => (ofMarkings markings).accept
          ((entry.1.marks (Model.mk (.ofDocuments docs) entry.1.source).services entry.2
            markings).map Mark.diagnostic) := by
    conv_lhs =>
      arg 2
      rw [← List.zipIdx_map_fst 0 docs]
    rw [List.mapM_map]
    congr 1
    funext entry
    exact reportIn_ofMarkings _ entry.1 entry.2
  unfold Marking.marks
  rw [analyze_eq_map, List.map_flatMap, ← flatten_mapM_accept]
  exact congrArg (fun found => (Except.map List.flatten found).map Diagnostic.sort) hdocuments

/-- A node is stray exactly if it has a mark that does not pass. -/
theorem stray_iff {docs : List Document} :
    Marking.Stray markings docs ↔
      ∃ m : Mark, m.Of docs markings ∧ m.diagnostic.rule.id ∉ (ofMarkings markings).supported := by
  have hdeclared : ∀ marking : Marking,
      marking.Undeclared markings ↔ marking.id ∉ (ofMarkings markings).supported := by
    intro marking
    rw [mem_supported_iff]
    unfold Marking.Undeclared
    simp
  constructor
  · intro h
    obtain ⟨doc, hdoc, node, hnode, marking, hmarking, hkind, hundeclared⟩ := h
    obtain ⟨place, hplace⟩ := List.getElem?_of_mem hdoc
    obtain ⟨i, hi⟩ := List.getElem?_of_mem (Marking.mem_registered_iff.2 ⟨hmarking, hkind⟩)
    let services := (Model.mk (.ofDocuments docs) doc.source).services
    refine ⟨⟨place, node, i, marking.mark services doc node⟩,
      ⟨doc, marking, hplace, hnode, hi, rfl⟩, ?_⟩
    rw [marking.id_mark]
    exact (hdeclared marking).1 hundeclared
  · intro h
    obtain ⟨m, ⟨doc, marking, hdoc, hnode, hget, hdiagnostic⟩, hid⟩ := h
    obtain ⟨hmarking, hkind⟩ := Marking.mem_registered_iff.1 (List.mem_of_getElem? hget)
    rw [hdiagnostic, marking.id_mark] at hid
    exact ⟨doc, List.mem_of_getElem? hdoc, m.node, hnode, marking, hmarking, hkind,
      (hdeclared marking).2 hid⟩

theorem exists_analyze_eq_error {docs : List Document} (h : Marking.Stray markings docs) :
    ∃ id, (ofMarkings markings).analyze ⟨docs⟩ = .error (.undeclaredDiagnostic id) := by
  obtain ⟨m, hm, hid⟩ := stray_iff.1 h
  obtain ⟨id, hasked⟩ :=
    exists_accept_eq_error (List.mem_map_of_mem (Marking.mem_marks_iff.2 hm)) hid
  refine ⟨id, ?_⟩
  rw [analyze_ofMarkings, hasked]
  rfl

theorem analyze_of_not_stray {docs : List Document} (h : ¬ Marking.Stray markings docs) :
    (ofMarkings markings).analyze ⟨docs⟩
      = .ok (Diagnostic.sort ((Marking.marks markings docs).map Mark.diagnostic)) := by
  have hall : ∀ d ∈ (Marking.marks markings docs).map Mark.diagnostic,
      d.rule.id ∈ (ofMarkings markings).supported := by
    intro d hd
    obtain ⟨m, hm, rfl⟩ := List.mem_map.1 hd
    by_contra hid
    exact h (stray_iff.2 ⟨m, Marking.mem_marks_iff.1 hm, hid⟩)
  rw [analyze_ofMarkings, accept_of_supported hall]
  rfl

/-- Whatever is registered for whichever kinds, and whatever the
documents: an analysis is broken off exactly if some node is stray.
Otherwise it gives one diagnostic for each node of each document and each
registration of the node's kind, and no others; by place, and at one
place in the order of documents, visiting and registration. -/
theorem dispatch_exact_and_stable (markings : List Marking) (docs : List Document) :
    ∃ host, make (markings.map Marking.analyzer) = .ok host
      ∧ ((∃ id, host.analyze (docs.foldl .add .empty) = .error (.undeclaredDiagnostic id)) ↔
          Marking.Stray markings docs)
      ∧ (¬ Marking.Stray markings docs →
          ∃ marks : List Mark,
            host.analyze (docs.foldl .add .empty) = .ok (marks.map Mark.diagnostic)
              ∧ (∀ m : Mark, m ∈ marks ↔ m.Of docs markings)
              ∧ marks.Nodup ∧ marks.Pairwise Mark.Precedes) := by
  rw [Compilation.foldl_add]
  refine ⟨ofMarkings markings, make_markings markings, ⟨?_, exists_analyze_eq_error⟩, ?_⟩
  · intro herror
    obtain ⟨id, herror⟩ := herror
    by_contra hstray
    rw [analyze_of_not_stray hstray] at herror
    cases herror
  · intro hstray
    let listed := Marking.marks markings docs
    let place := fun m : Mark => m.diagnostic.location
    have hperm := List.mergeSort_perm listed fun a b => (place a).le (place b)
    refine ⟨listed.mergeSort fun a b => (place a).le (place b), ?_, ?_, ?_,
      pairwise_place_of_pairwise place (Marking.pairwise_marks docs)⟩
    · rw [analyze_of_not_stray hstray, Diagnostic.sort_map]
    · intro m
      rw [hperm.mem_iff, Marking.mem_marks_iff]
    · exact hperm.nodup_iff.2 (Marking.nodup_marks docs)

/-- A document that is added twice, a kind that is registered twice, and
a second marker that reports under the rule of the first: eight marks at
one place, in the order of documents, nodes and registrations. -/
theorem ties_dispatched_in_order :
    ∃ (host : Host) (marks : List Mark),
      make [Marker.analyzer ⟨IndexLambda.rule, true,
              [.variableDeclaration, .localDeclaration, .variableDeclaration], [.kind]⟩,
            Marker.analyzer ⟨IndexLambda.rule, false, [.localDeclaration], []⟩] = .ok host
        ∧ host.analyze ([.twoDeclarators, .twoDeclarators].foldl .add .empty)
          = .ok (marks.map Mark.diagnostic)
        ∧ marks.length = 8 ∧ marks.Pairwise Mark.Before := by
  let first : Marker := ⟨IndexLambda.rule, true,
    [.variableDeclaration, .localDeclaration, .variableDeclaration], [.kind]⟩
  let second : Marker := ⟨IndexLambda.rule, false, [.localDeclaration], []⟩
  let markings := [first.marking, second.marking]
  let docs := [Document.twoDeclarators, .twoDeclarators]
  obtain ⟨host, hmake, -, hdispatch⟩ := dispatch_exact_and_stable markings docs
  rw [List.map_cons, List.map_singleton, first.analyzer_marking, second.analyzer_marking] at hmake
  have hdeclared : ¬ Marking.Stray markings docs := by
    intro h
    obtain ⟨-, -, -, -, m, hm, -, hundeclared⟩ := h
    rcases List.mem_pair.1 hm with rfl | rfl
    · exact hundeclared _ List.mem_cons_self _ List.mem_cons_self rfl
    · exact hundeclared _ List.mem_cons_self _ List.mem_cons_self rfl
  obtain ⟨marks, hanalyze, hmarks, hnodup, hprecedes⟩ := hdispatch hdeclared
  -- the marks of the result are those that are listed before they are sorted
  have hperm : marks.Perm (Marking.marks markings docs) := by
    refine (List.perm_ext_iff_of_nodup hnodup (Marking.nodup_marks docs)).2 fun m => ?_
    rw [hmarks, Marking.mem_marks_iff]
  have hplace : ∀ m ∈ Marking.marks markings docs, m.diagnostic.location = ⟨"D.cs", 0, 17⟩ := by
    decide +kernel
  refine ⟨host, marks, hmake, hanalyze, ?_, hprecedes.imp_of_mem ?_⟩
  · rw [hperm.length_eq]
    decide +kernel
  · intro a b ha hb hab
    refine hab.2 ?_
    rw [hplace a (hperm.mem_iff.1 ha), hplace b (hperm.mem_iff.1 hb)]

end Host

end QueryLint
