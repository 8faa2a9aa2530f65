/-
Diagnostics come in the order of the source. They are sorted by line and
column, and a later byte has a later position (`point_before_of_lt`): if
there is a newline between two offsets, the row goes up, and if there is
none, the line starts at the same byte for both and the column goes up.
So positions say as much of two places in one document as offsets do,
which of them comes first and whether they are one place
(`locate_le_iff`), and sorting by position is sorting by offset.

This needs each diagnostic to be at an offset of the document that it is
about. All analyzers there are report where a node of the document
starts (`ReportsAtNodes`); the index lambda rule does so because what it
points at is below a call of the chain that it looks at.
-/
import QueryLint.Proofs.Diagnostic.Sorting
import QueryLint.Proofs.Rule.Mirror

namespace QueryLint

-- =============================================================== positions

/-- A position comes before another: on an earlier row, or on the same
row in an earlier column. -/
def Point.Before (p q : Point) : Prop :=
  p.row < q.row ∨ (p.row = q.row ∧ p.column < q.column)

namespace Source

theorem lineStart_le_length (before : List UInt8) : lineStart before ≤ before.length :=
  Nat.sub_le _ _

/-- Bytes without a newline among them do not begin a line. -/
theorem lineStart_append {before gap : List UInt8} (h : newline ∉ gap) :
    lineStart (before ++ gap) = lineStart before := by
  have hgap : ∀ b ∈ gap.reverse, (b != newline) = true := by
    intro b hb
    rw [bne_iff_ne]
    intro heq
    exact h (heq ▸ List.mem_reverse.1 hb)
  unfold lineStart
  rw [List.reverse_append, List.takeWhile_append_of_pos hgap, List.length_append,
    List.length_append, List.length_reverse]
  omega

variable (src : Source)

theorem length_before_le (offset : Nat) : (src.before offset).length ≤ offset := by
  unfold before
  exact List.length_take_le _ _

/-- What is before a later offset is what is before the earlier one, and
the bytes between. -/
theorem before_eq_append {a b : Nat} (h : a ≤ b) :
    src.before b = src.before a ++ (src.bytes.toList.drop a).take (b - a) := by
  unfold before
  rw [← List.take_add, Nat.add_sub_cancel' h]

/-- A later byte has a later position. -/
theorem point_before_of_lt {a b : Nat} (h : a < b) : (src.point a).Before (src.point b) := by
  have hsplit := src.before_eq_append (Nat.le_of_lt h)
  generalize (src.bytes.toList.drop a).take (b - a) = gap at hsplit
  have hrow : (src.point b).row = (src.point a).row + gap.count newline := by
    show (src.before b).count newline = _
    rw [hsplit, List.count_append]
    rfl
  by_cases hnewline : newline ∈ gap
  · have := List.count_pos_iff.2 hnewline
    exact .inl (by omega)
  · -- both offsets are on one line
    have hcolumn : (src.point b).column = b - lineStart (src.before a) := by
      show b - lineStart (src.before b) = _
      rw [hsplit, lineStart_append hnewline]
    have hstart : lineStart (src.before a) ≤ a :=
      Nat.le_trans (lineStart_le_length _) (src.length_before_le a)
    refine .inr ⟨?_, ?_⟩
    · rw [hrow, List.count_eq_zero_of_not_mem hnewline, Nat.add_zero]
    · rw [hcolumn]
      show a - lineStart (src.before a) < _
      omega

end Source

-- ================================================================== places

namespace Document

variable (doc : Document)

/-- The place of an offset. -/
def locate (offset : Nat) : Location :=
  ⟨doc.path, (doc.source.point offset).row, (doc.source.point offset).column⟩

/-- Places in a document are in the order of their offsets. -/
theorem locate_le_iff {a b : Nat} : (doc.locate a).le (doc.locate b) = true ↔ a ≤ b := by
  have hle : (doc.locate a).le (doc.locate b) = true
      ↔ ¬ (doc.source.point b).Before (doc.source.point a) := by
    rw [Location.le_iff]
    unfold locate Point.Before
    simp only [String.lt_irrefl, false_or, true_and]
    omega
  rw [hle]
  constructor
  · intro h
    by_contra hlt
    exact h (doc.source.point_before_of_lt (Nat.lt_of_not_le hlt))
  · intro h hbefore
    rcases Nat.eq_or_lt_of_le h with rfl | hlt
    · unfold Point.Before at hbefore
      omega
    · have := doc.source.point_before_of_lt hlt
      unfold Point.Before at this hbefore
      omega

/-- Different offsets have different lines or columns. -/
theorem eq_of_locate_eq {a b : Nat} (hline : (doc.locate a).line = (doc.locate b).line)
    (hcol : (doc.locate a).col = (doc.locate b).col) : a = b := by
  have hplace : doc.locate a = doc.locate b := by
    unfold locate at hline hcol ⊢
    dsimp only at hline hcol
    rw [hline, hcol]
  have hrefl : (doc.locate b).le (doc.locate b) = true := doc.locate_le_iff.2 (Nat.le_refl b)
  refine Nat.le_antisymm (doc.locate_le_iff.1 ?_) (doc.locate_le_iff.1 ?_)
  · rw [hplace]
    exact hrefl
  · rw [hplace]
    exact hrefl

end Document

-- ============================================================ where reports are

/-- Every diagnostic that an action reports at a node of a document is
where some node of the document starts. -/
def Registration.ReportsAtNodes (r : Registration) : Prop :=
  ∀ services doc, ∀ c ∈ doc.tree.documentOrder, ∀ ds, r.report services doc c = .ok ds →
    ∀ d ∈ ds, ∃ node ∈ doc.tree.documentOrder, d.location = doc.locate node.start

def Analyzer.ReportsAtNodes (a : Analyzer) : Prop :=
  ∀ rs, a.registrations = some rs → ∀ r ∈ rs, r.ReportsAtNodes

theorem Cursor.top_of_mem_arguments {site value : Cursor} (h : value ∈ site.arguments) :
    value.top = site.top := by
  unfold arguments at h
  split at h
  · cases h
  · next list hlist =>
    obtain ⟨argument, hargument, hvalue⟩ := List.mem_filterMap.1 h
    have hpart := (List.mem_filter.1 (List.mem_of_getLast? hvalue)).1
    rw [top_eq_of_parent? (parent?_of_mem_namedChildren hpart),
      top_eq_of_parent? (parent?_of_mem_namedOfKind hargument),
      top_eq_of_parent? (parent?_of_child? hlist)]

theorem Cursor.top_of_mem_lambdaParameters? {c p : Cursor} {parameters : List Cursor}
    (h : c.lambdaParameters? = some parameters) (hp : p ∈ parameters) : p.top = c.top := by
  unfold lambdaParameters? at h
  split at h
  · split at h
    · cases h
    · next list hlist =>
      split at h
      · cases h
        rw [top_eq_of_parent? (parent?_of_mem_namedOfKind hp),
          top_eq_of_parent? (parent?_of_child? hlist)]
      · cases h
  · cases h

namespace IndexLambda

/-- The index parameter of a call is in the tree of the call. -/
theorem top_of_indexParameter? {site parameter : Cursor}
    (h : indexParameter? site = some parameter) : parameter.top = site.top := by
  unfold indexParameter? at h
  split at h
  · cases h
  · next first rest harguments =>
    split at h
    · next one second more hparameters =>
      cases h
      have hsecond : parameter ∈ one :: parameter :: more :=
        List.mem_cons_of_mem one List.mem_cons_self
      have hfirst : first ∈ site.arguments := harguments ▸ List.mem_cons_self
      rw [Cursor.top_of_mem_lambdaParameters? hparameters hsecond,
        Cursor.top_of_mem_arguments hfirst]
    · cases h

/-- What is reported at the end of a chain is where an index parameter in
the tree starts. -/
theorem exists_parameter_of_mem_report {services : Services} {src : Source} {path : String}
    {c : Cursor} {ds : List Diagnostic} (h : report services src path c = .ok ds)
    {d : Diagnostic} (hd : d ∈ ds) :
    ∃ parameter : Cursor, parameter.top = c.top
      ∧ ∃ name, d = findingAt src path name parameter.start := by
  obtain ⟨query, hquery, hrest⟩ := bind_eq_ok_iff.1 h
  cases query with
  | none =>
    cases hrest
    cases hd
  | some query =>
    obtain ⟨type, -, heq⟩ := bind_eq_ok_iff.1 hrest
    split at heq
    · cases heq
      obtain ⟨link, hlink, hcheck⟩ := List.mem_filterMap.1 hd
      have hmem : link ∈ query.links :=
        (List.takeWhile_sublist _).subset (List.mem_filter.1 hlink).1
      obtain ⟨call, hcall, hsite⟩ := Services.exists_call_of_query? hquery hmem
      rw [check?_eq] at hcheck
      split at hcheck
      · rw [Option.map_map] at hcheck
        obtain ⟨parameter, hparameter, rfl⟩ := Option.map_eq_some_iff.1 hcheck
        refine ⟨parameter, ?_, link.name, rfl⟩
        rw [top_of_indexParameter? hparameter, hsite]
        exact Cursor.top_of_mem_sites (List.mem_map_of_mem hcall)
      · cases hcheck
    · cases heq
      cases hd

end IndexLambda

theorem Analyzer.reportsAtNodes_abstract : Analyzer.abstract.ReportsAtNodes := by
  intro rs h
  cases h

theorem Analyzer.reportsAtNodes_indexLambda : Analyzer.indexLambda.ReportsAtNodes := by
  intro rs h r hr services doc c hc ds hds d hd
  cases h
  rw [List.mem_singleton.1 hr] at hds
  obtain ⟨parameter, htop, name, rfl⟩ := IndexLambda.exists_parameter_of_mem_report hds hd
  rw [Tree.mem_documentOrder_iff.1 hc] at htop
  exact ⟨parameter, Tree.mem_documentOrder_iff.2 htop, rfl⟩

theorem Marker.reportsAtNodes_analyzer (marker : Marker) : marker.analyzer.ReportsAtNodes := by
  intro rs h r hr services doc c hc ds hds d hd
  cases h
  obtain ⟨kind, -, rfl⟩ := List.mem_map.1 hr
  cases hds
  rw [List.mem_singleton.1 hd]
  exact ⟨c, hc, rfl⟩

-- =============================================================== the analysis

namespace Host

variable {host : Host}

/-- What is returned for the path of one document is where the nodes of
that document start. -/
theorem exists_node_of_mem_analyze {comp : Compilation} {ds : List Diagnostic}
    (hnodes : ∀ r ∈ host.registrations, r.ReportsAtNodes) (h : host.analyze comp = .ok ds)
    {doc : Document} (honly : ∀ other ∈ comp.documents, other.path = doc.path → other = doc)
    {d : Diagnostic} (hd : d ∈ ds) (hpath : d.location.path = doc.path) :
    ∃ node ∈ doc.tree.documentOrder, d.location = doc.locate node.start := by
  obtain ⟨hall, rfl⟩ := analyze_eq_ok_iff_found.1 h
  obtain ⟨other, hother, hfound⟩ :=
    List.mem_flatMap.1 ((Diagnostic.sort_perm _).mem_iff.1 hd)
  obtain ⟨c, hc, r, hr, part, hreport, hmem⟩ :=
    exists_report_of_mem_reportIn (hall other hother) hfound
  obtain ⟨node, hnode, hplace⟩ := hnodes r hr _ other c hc part hreport d hmem
  -- the path tells the document
  have hsame : other = doc := by
    apply honly other hother
    rw [← hpath, hplace]
    rfl
  rw [← hsame]
  exact ⟨node, hnode, hplace⟩

theorem pairwise_analyze {comp : Compilation} {ds : List Diagnostic}
    (h : host.analyze comp = .ok ds) :
    ds.Pairwise fun d d' => d.location.le d'.location = true := by
  obtain ⟨-, rfl⟩ := analyze_eq_ok_iff_found.1 h
  exact Diagnostic.pairwise_sort _

end Host

/-- In every source, a later offset has a later position. Hence, if the
analyzers of a host report where nodes start, as all analyzers of this
library do, and a path belongs to one document of a compilation, then the
diagnostics that an analysis returns for that path are in the order of
their offsets, and two of them have the same line and column exactly if
they are at the same offset. -/
theorem report_order_is_source_order :
    (∀ (src : Source) (a b : Nat), a < b → (src.point a).Before (src.point b))
      ∧ (∀ a : Analyzer,
          a = .abstract ∨ a = .indexLambda ∨ (∃ marker : Marker, a = marker.analyzer) →
            a.ReportsAtNodes)
      ∧ ∀ (analyzers : List Analyzer) (host : Host) (comp : Compilation) (ds : List Diagnostic)
          (path : String) (doc : Document),
        Host.make analyzers = .ok host → (∀ a ∈ analyzers, a.ReportsAtNodes) →
        host.analyze comp = .ok ds → comp.documents.filter (·.path == path) = [doc] →
          (∀ d ∈ ds, d.location.path = path →
              ∃ node ∈ doc.tree.documentOrder, d.location = doc.locate node.start)
            ∧ (ds.filter (·.location.path == path)).Pairwise (fun d d' =>
              ∀ a b, d.location = doc.locate a → d'.location = doc.locate b → a ≤ b)
            ∧ ∀ d ∈ ds, ∀ d' ∈ ds, ∀ a b,
              d.location = doc.locate a → d'.location = doc.locate b →
                ((d.location.line = d'.location.line ∧ d.location.col = d'.location.col)
                  ↔ a = b) := by
  refine ⟨fun src a b => src.point_before_of_lt, ?_, ?_⟩
  · intro a h
    rcases h with rfl | rfl | ⟨marker, rfl⟩
    · exact Analyzer.reportsAtNodes_abstract
    · exact Analyzer.reportsAtNodes_indexLambda
    · exact marker.reportsAtNodes_analyzer
  · intro analyzers host comp ds path doc hmake hnodes h hone
    have hpath : doc.path = path := by
      have hdoc : doc ∈ comp.documents.filter (·.path == path) := hone ▸ List.mem_singleton_self doc
      exact beq_iff_eq.1 (List.mem_filter.1 hdoc).2
    have honly : ∀ other ∈ comp.documents, other.path = doc.path → other = doc := by
      intro other hother heq
      have hmem : other ∈ comp.documents.filter (·.path == path) :=
        List.mem_filter.2 ⟨hother, beq_iff_eq.2 (heq.trans hpath)⟩
      rw [hone] at hmem
      exact List.mem_singleton.1 hmem
    have hregistrations : ∀ r ∈ host.registrations, r.ReportsAtNodes := by
      intro r hr
      obtain ⟨a, ha, rs, hrs, hmem⟩ := Host.exists_analyzer_of_make hmake hr
      exact hnodes a ha rs hrs r hmem
    refine ⟨?_, ?_, ?_⟩
    · intro d hd hat
      exact Host.exists_node_of_mem_analyze hregistrations h honly hd (hat.trans hpath.symm)
    · refine ((Host.pairwise_analyze h).filter _).imp ?_
      intro d d' hle a b ha hb
      rw [ha, hb] at hle
      exact doc.locate_le_iff.1 hle
    · intro d _ d' _ a b ha hb
      rw [ha, hb]
      constructor
      · intro hsame
        exact doc.eq_of_locate_eq hsame.1 hsame.2
      · rintro rfl
        exact ⟨rfl, rfl⟩

/-- A document of three lines, the second of them empty. -/
def Document.threeLines : Document where
  path := "L.cs"
  source := .ofText "a\n\nb c"
  tree :=
    named (.other "compilation_unit") none 0 6 [
      named .identifier none 0 1 [],
      named .identifier none 3 4 [],
      named .identifier none 5 6 []]
where
  named := sample.named

/-- Beside another document, its three names are marked once by each of
two markers. The last name is visited first, and the six diagnostics come
in the order of the names. -/
theorem threeLines_in_order :
    ∃ (host : Host) (ds : List Diagnostic),
      Host.make [Marker.analyzer ⟨IndexLambda.rule, true, [.identifier], []⟩, .indexLambda,
          Marker.analyzer ⟨IndexLambda.rule, true, [.identifier], [.text]⟩] = .ok host
        ∧ host.analyze ⟨[.threeLines, .sample]⟩ = .ok ds
        ∧ (ds.filter (·.location.path == "L.cs")).length = 6
        ∧ (ds.filter (·.location.path == "L.cs")).Pairwise fun d d' =>
          ∀ a b, d.location = Document.threeLines.locate a →
            d'.location = Document.threeLines.locate b → a ≤ b := by
  let first : Marker := ⟨IndexLambda.rule, true, [.identifier], []⟩
  let second : Marker := ⟨IndexLambda.rule, true, [.identifier], [.text]⟩
  let docs := [Document.threeLines, Document.sample]
  let index := Index.ofDocuments docs
  obtain ⟨host, hmake⟩ : ∃ host,
      Host.make [first.analyzer, .indexLambda, second.analyzer] = .ok host := ⟨_, rfl⟩
  -- sorting is left out of what is evaluated
  have hok : ∀ doc ∈ docs, (host.reportIn index doc).isOk = true := by
    cases hmake
    decide +kernel
  have hlength : ((docs.flatMap (host.found index)).filter
      (·.location.path == "L.cs")).length = 6 := by
    cases hmake
    decide +kernel
  have hanalyze : host.analyze ⟨docs⟩
      = .ok (Diagnostic.sort (docs.flatMap (host.found index))) :=
    Host.analyze_eq_ok_iff_found.2 ⟨fun doc hdoc => Host.reportIn_eq_ok_found (hok doc hdoc), rfl⟩
  have hnodes : ∀ a ∈ [first.analyzer, Analyzer.indexLambda, second.analyzer],
      a.ReportsAtNodes := by
    intro a ha
    apply report_order_is_source_order.2.1
    simp only [List.mem_cons, List.not_mem_nil, or_false] at ha
    rcases ha with rfl | rfl | rfl
    · exact .inr (.inr ⟨first, rfl⟩)
    · exact .inr (.inl rfl)
    · exact .inr (.inr ⟨second, rfl⟩)
  have horder := report_order_is_source_order.2.2 _ host ⟨docs⟩ _ "L.cs" .threeLines hmake hnodes
    hanalyze rfl
  exact ⟨host, _, hmake, hanalyze,
    ((Diagnostic.sort_perm _).filter _).length_eq.trans hlength, horder.2.1⟩

end QueryLint
