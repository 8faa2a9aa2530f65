/-
Programs that no fixed room is enough for. `Document.longChain n` is an
ordinary program with one statement, a chain of `n` calls on a table.
Each call of the chain is resolved while the call behind it is open, and
takes two calls itself; so the analysis of the program takes more than
twice as much room as the chain is long (`analyzeOn_longChain`), although
there is nothing endless in it.
-/
import QueryLint.Proofs.Declaration.Qualification
import QueryLint.Proofs.Resolve.Termination

namespace QueryLint

-- ============================================================ ordinary nodes

/-- Whether a node of the kind is neither a name nor declares variables. -/
def Kind.isPlain (k : Kind) : Bool :=
  k != .identifier && k != .localDeclaration && k != .variableDeclaration && !k.declaresInHead

namespace Tree

/-- What holds of every subtree holds at every node. -/
theorem forall_documentOrder {P : Tree → Prop} {t : Tree} (h : ∀ s ∈ t.subtrees, P s) :
    ∀ c ∈ t.documentOrder, P c.focus := by
  intro c hc
  apply h
  rw [← map_focus_visitFrom []]
  exact List.mem_map_of_mem (t.visit_perm.mem_iff.2 hc)

theorem forall_mem_subtreesAll {P : Tree → Prop} {ts : List Tree}
    (h : ∀ u ∈ ts, ∀ s ∈ u.subtrees, P s) : ∀ s ∈ subtreesAll ts, P s := by
  induction ts with
  | nil =>
    intro s hs
    cases hs
  | cons t ts ih =>
    obtain ⟨ht, hts⟩ := List.forall_mem_cons.1 h
    rw [subtreesAll]
    exact List.forall_mem_append.2 ⟨ih hts, ht⟩

/-- What holds of a node and of the subtrees of its children holds of all
its subtrees. -/
theorem forall_mem_subtrees_node {P : Tree → Prop} {l : Label} {ts : List Tree}
    (hnode : P (node l ts)) (h : ∀ u ∈ ts, ∀ s ∈ u.subtrees, P s) :
    ∀ s ∈ (node l ts).subtrees, P s := by
  rw [subtrees]
  exact List.forall_mem_cons.2 ⟨hnode, forall_mem_subtreesAll h⟩

/-- A node that fits in with its children and declares one variable at a
time. -/
structure IsOrdinary (t : Tree) : Prop where
  inside : ∀ u ∈ t.children, t.label.start ≤ u.label.start ∧ u.label.stop ≤ t.label.stop
  ordered : t.children.Pairwise fun u v => u.label.stop ≤ v.label.start
  nonempty : t.kind = .identifier → t.label.start < t.label.stop
  declaration : t.kind = .localDeclaration ∨ t.kind.declaresInHead = true →
    (t.namedOfKind .variableDeclaration).length ≤ 1
  declarator : t.kind = .variableDeclaration → (t.namedOfKind .variableDeclarator).length ≤ 1

instance (t : Tree) : Decidable t.IsOrdinary :=
  decidable_of_iff
    ((∀ u ∈ t.children, t.label.start ≤ u.label.start ∧ u.label.stop ≤ t.label.stop)
      ∧ t.children.Pairwise (fun u v => u.label.stop ≤ v.label.start)
      ∧ (t.kind = .identifier → t.label.start < t.label.stop)
      ∧ (t.kind = .localDeclaration ∨ t.kind.declaresInHead = true →
          (t.namedOfKind .variableDeclaration).length ≤ 1)
      ∧ (t.kind = .variableDeclaration → (t.namedOfKind .variableDeclarator).length ≤ 1))
    ⟨fun ⟨h₁, h₂, h₃, h₄, h₅⟩ => ⟨h₁, h₂, h₃, h₄, h₅⟩,
      fun ⟨h₁, h₂, h₃, h₄, h₅⟩ => ⟨h₁, h₂, h₃, h₄, h₅⟩⟩

/-- A tree of ordinary nodes has ranges that fit into each other. -/
theorem ranged_of_isOrdinary {t : Tree} (h : ∀ s ∈ t.subtrees, s.IsOrdinary) : t.Ranged where
  inside c hc d hd := by
    have hmem : d.focus ∈ c.focus.children := by
      rw [← Cursor.map_focus_children]
      exact List.mem_map_of_mem hd
    exact (forall_documentOrder h c hc).inside d.focus hmem
  ordered c hc := by
    have hordered := (forall_documentOrder h c hc).ordered
    rw [← Cursor.map_focus_children, List.pairwise_map] at hordered
    exact hordered
  identifier_nonempty c hc hkind := (forall_documentOrder h c hc).nonempty hkind

/-- And its statements declare one variable at a time. -/
theorem singleVariables_of_isOrdinary {t : Tree} (h : ∀ s ∈ t.subtrees, s.IsOrdinary) :
    t.SingleVariables where
  declaration c hc hkind := by
    have hle := (forall_documentOrder h c hc).declaration hkind
    rwa [Cursor.namedOfKind_focus, List.length_map] at hle
  declarator c hc hkind := by
    have hle := (forall_documentOrder h c hc).declarator hkind
    rwa [Cursor.namedOfKind_focus, List.length_map] at hle

/-- Some siblings follow each other between two offsets. -/
def Fit (stop : Nat) : Nat → List Tree → Prop
  | start, [] => start ≤ stop
  | start, t :: ts =>
    start ≤ t.label.start ∧ t.label.start ≤ t.label.stop ∧ Fit stop t.label.stop ts

theorem Fit.bounds {start stop : Nat} {ts : List Tree} (h : Fit stop start ts) :
    start ≤ stop ∧ ∀ u ∈ ts, start ≤ u.label.start ∧ u.label.stop ≤ stop := by
  induction ts generalizing start with
  | nil => exact ⟨h, List.forall_mem_nil _⟩
  | cons t ts ih =>
    obtain ⟨hstart, hle, hrest⟩ := h
    obtain ⟨hstop, hall⟩ := ih hrest
    refine ⟨by omega, List.forall_mem_cons.2 ⟨⟨hstart, hstop⟩, fun u hu => ?_⟩⟩
    have := hall u hu
    exact ⟨by omega, this.2⟩

theorem Fit.pairwise {start stop : Nat} {ts : List Tree} (h : Fit stop start ts) :
    ts.Pairwise fun u v => u.label.stop ≤ v.label.start := by
  induction ts generalizing start with
  | nil => exact .nil
  | cons t ts ih =>
    obtain ⟨-, -, hrest⟩ := h
    exact .cons (fun u hu => (hrest.bounds.2 u hu).1) (ih hrest)

theorem isOrdinary_of_fit {l : Label} {ts : List Tree} (hkind : l.kind.isPlain = true)
    (h : Fit l.stop l.start ts) : (node l ts).IsOrdinary := by
  simp only [Kind.isPlain, Bool.and_eq_true, bne_iff_ne, Bool.not_eq_true'] at hkind
  obtain ⟨⟨⟨hidentifier, hlocal⟩, hvariable⟩, hhead⟩ := hkind
  refine ⟨h.bounds.2, h.pairwise, fun hkind => absurd hkind hidentifier, ?_,
    fun hkind => absurd hkind hvariable⟩
  rintro (hkind | hkind)
  · exact absurd hkind hlocal
  · exact absurd (hhead.symm.trans hkind) Bool.false_ne_true

theorem isOrdinary_of_mem_node {l : Label} {ts : List Tree} (hkind : l.kind.isPlain = true)
    (hfit : Fit l.stop l.start ts) (h : ∀ u ∈ ts, ∀ s ∈ u.subtrees, s.IsOrdinary) :
    ∀ s ∈ (node l ts).subtrees, s.IsOrdinary :=
  forall_mem_subtrees_node (isOrdinary_of_fit hkind hfit) h

theorem isOrdinary_identifier {field : Option Field} {start stop : Nat} (h : start < stop) :
    ∀ s ∈ (node ⟨.identifier, true, field, start, stop⟩ []).subtrees, s.IsOrdinary :=
  forall_mem_subtrees_node
    ⟨List.forall_mem_nil _, .nil, fun _ => h, fun _ => Nat.zero_le 1, fun _ => Nat.zero_le 1⟩
    (List.forall_mem_nil _)

end Tree

-- =============================================================== long chains

namespace Document

/-- A chain of `n` calls on the name at byte 27, eleven bytes a call. -/
def calls (field : Option Field) : Nat → Tree
  | 0 => sample.named .identifier field 27 28 []
  | n + 1 =>
    sample.named .invocation field 27 (39 + 11 * n) [
      sample.named .memberAccess (some .function) 27 (37 + 11 * n) [
        calls (some .expression) n,
        sample.named .identifier (some .name) (29 + 11 * n) (37 + 11 * n) []],
      sample.named (.other "argument_list") (some .arguments) (37 + 11 * n) (39 + 11 * n) []]

/-- The declaration of a table. -/
def chainTable : Tree :=
  sample.named .fieldDeclaration none 8 18 [
    sample.named .variableDeclaration none 8 17 [
      sample.named .genericName (some .type) 8 16 [
        sample.named .identifier none 8 13 [],
        sample.named .typeArgumentList none 13 16 [
          sample.named .identifier none 14 15 []]],
      sample.named .variableDeclarator none 16 17 [
        sample.named .identifier (some .name) 16 17 []]]]

/-- A document with a chain of `n` calls on a table. -/
def longChain (n : Nat) : Document where
  path := "L.cs"
  source := .ofText ("class C\x7bDbSet<U>a;void m()\x7ba"
    ++ String.join (List.replicate n ".Distinct()") ++ ";\x7d\x7d")
  tree :=
    sample.named (.other "compilation_unit") none 0 (31 + 11 * n) [
      sample.named .classDeclaration none 0 (31 + 11 * n) [
        sample.named .identifier (some .name) 6 7 [],
        sample.named (.other "declaration_list") (some .body) 7 (31 + 11 * n) [
          chainTable,
          sample.named .methodDeclaration none 18 (30 + 11 * n) [
            sample.named .predefinedType (some .returns) 18 22 [],
            sample.named .identifier (some .name) 23 24 [],
            sample.named .parameterList (some .parameters) 24 26 [],
            sample.named .block (some .body) 26 (30 + 11 * n) [
              sample.named (.other "expression_statement") none 27 (29 + 11 * n) [
                calls none n]]]]]]

theorem start_calls (field : Option Field) (n : Nat) : (calls field n).label.start = 27 := by
  cases n with
  | zero => rfl
  | succ n => rfl

theorem stop_calls (field : Option Field) (n : Nat) :
    (calls field n).label.stop = 28 + 11 * n := by
  cases n with
  | zero => rfl
  | succ n => exact show 39 + 11 * n = 28 + 11 * (n + 1) by omega

theorem isOrdinary_of_mem_calls (field : Option Field) (n : Nat) :
    ∀ s ∈ (calls field n).subtrees, s.IsOrdinary := by
  induction n generalizing field with
  | zero => exact Tree.isOrdinary_identifier (by decide)
  | succ n ih =>
    have hstart := start_calls (some .expression) n
    have hstop := stop_calls (some .expression) n
    refine Tree.isOrdinary_of_mem_node rfl ?_
      (List.forall_mem_cons.2 ⟨?_, List.forall_mem_singleton.2 ?_⟩)
    · simp only [Tree.Fit, sample.named, Tree.label]
      omega
    · refine Tree.isOrdinary_of_mem_node rfl ?_
        (List.forall_mem_cons.2 ⟨ih _, List.forall_mem_singleton.2 ?_⟩)
      · simp only [Tree.Fit, sample.named, Tree.label] at hstart hstop ⊢
        omega
      · exact Tree.isOrdinary_identifier (by omega)
    · refine Tree.isOrdinary_of_mem_node rfl ?_ (List.forall_mem_nil _)
      simp only [Tree.Fit]
      omega

theorem isOrdinary_of_mem_longChain (n : Nat) :
    ∀ s ∈ (longChain n).tree.subtrees, s.IsOrdinary := by
  have hstart := start_calls none n
  have hstop := stop_calls none n
  have hstatement : ∀ s ∈ (sample.named (.other "expression_statement") none 27 (29 + 11 * n)
      [calls none n]).subtrees, s.IsOrdinary := by
    refine Tree.isOrdinary_of_mem_node rfl ?_
      (List.forall_mem_singleton.2 (isOrdinary_of_mem_calls none n))
    simp only [Tree.Fit, hstart, hstop]
    omega
  -- the rest holds constants, or holds what is behind them
  refine Tree.isOrdinary_of_mem_node rfl ?_ (List.forall_mem_singleton.2 ?_)
  · simp only [Tree.Fit, sample.named, Tree.label]
    omega
  refine Tree.isOrdinary_of_mem_node rfl ?_
    (List.forall_mem_cons.2 ⟨by decide, List.forall_mem_singleton.2 ?_⟩)
  · simp only [Tree.Fit, sample.named, Tree.label]
    omega
  refine Tree.isOrdinary_of_mem_node rfl ?_
    (List.forall_mem_cons.2 ⟨by decide, List.forall_mem_singleton.2 ?_⟩)
  · simp only [Tree.Fit, sample.named, Tree.label, chainTable]
    omega
  refine Tree.isOrdinary_of_mem_node rfl ?_ ?_
  · simp only [Tree.Fit, sample.named, Tree.label]
    omega
  refine List.forall_mem_cons.2 ⟨by decide, List.forall_mem_cons.2 ⟨by decide,
    List.forall_mem_cons.2 ⟨by decide, List.forall_mem_singleton.2 ?_⟩⟩⟩
  refine Tree.isOrdinary_of_mem_node rfl ?_ (List.forall_mem_singleton.2 hstatement)
  simp only [Tree.Fit, sample.named, Tree.label]
  omega

/-- A long chain is ordinary code. -/
theorem ordinary_longChain (n : Nat) :
    (longChain n).tree.Ranged ∧ (longChain n).tree.SingleVariables :=
  ⟨Tree.ranged_of_isOrdinary (isOrdinary_of_mem_longChain n),
    Tree.singleVariables_of_isOrdinary (isOrdinary_of_mem_longChain n)⟩

end Document

-- ======================================================== room for the chain

/-- The last call of a chain is made on the calls before it. -/
theorem exists_memberCall?_calls (field : Option Field) (n : Nat) (path : List Frame) :
    ∃ path' name, Cursor.memberCall? ⟨Document.calls field (n + 1), path⟩
      = some (⟨Document.calls (some .expression) n, path'⟩, name) := by
  cases n with
  | zero => exact ⟨_, _, rfl⟩
  | succ n => exact ⟨_, _, rfl⟩

namespace Model

variable {m : Model}

/-- The calls of a chain, each open while the ones before it are
resolved. -/
theorem resolveOn_calls {field : Option Field} {n room : Nat} {path : List Frame}
    (h : room ≤ 2 * n) :
    m.resolveOn room ⟨Document.calls field n, path⟩ = .error .endlessResolution := by
  induction n generalizing field room path with
  | zero =>
    rw [Nat.le_zero.1 h]
    exact resolveOn_zero _
  | succ n ih =>
    rcases Nat.eq_zero_or_pos room with rfl | hroom
    · exact resolveOn_zero _
    · obtain ⟨path', name, hcall⟩ := exists_memberCall?_calls field n path
      rw [resolveOn_of_ask hroom (step_of_memberCall? hcall), Wanted.frames, ih (by omega)]
      rfl

theorem resolveMethodOn_calls {field : Option Field} {n room : Nat} {path : List Frame}
    (h : room ≤ 2 * n + 1) :
    m.resolveMethodOn room ⟨Document.calls field (n + 1), path⟩
      = .error .endlessResolution := by
  obtain ⟨path', name, hcall⟩ := exists_memberCall?_calls field n path
  unfold resolveMethodOn
  rw [hcall]
  show (m.resolveOn (room - 1) _).map _ = _
  rw [resolveOn_calls (by omega)]
  rfl

end Model

/-- The last call of a long chain, in its document. -/
def Document.lastCall (n : Nat) : Cursor where
  focus := calls none n
  path :=
    [⟨⟨.other "expression_statement", true, none, 27, 29 + 11 * n⟩, [], []⟩,
     ⟨⟨.block, true, some .body, 26, 30 + 11 * n⟩, [], []⟩,
     ⟨⟨.methodDeclaration, true, none, 18, 30 + 11 * n⟩,
       [sample.named .parameterList (some .parameters) 24 26 [],
        sample.named .identifier (some .name) 23 24 [],
        sample.named .predefinedType (some .returns) 18 22 []], []⟩,
     ⟨⟨.other "declaration_list", true, some .body, 7, 31 + 11 * n⟩, [chainTable], []⟩,
     ⟨⟨.classDeclaration, true, none, 0, 31 + 11 * n⟩,
       [sample.named .identifier (some .name) 6 7 []], []⟩,
     ⟨⟨.other "compilation_unit", true, none, 0, 31 + 11 * n⟩, [], []⟩]

theorem Document.top_lastCall (n : Nat) : (lastCall n).top = (longChain n).tree := rfl

theorem Document.endsChain_lastCall (n : Nat) : (lastCall (n + 1)).endsChain = true := by
  obtain ⟨path', name, hcall⟩ := exists_memberCall?_calls none n (lastCall (n + 1)).path
  have htail : (lastCall (n + 1)).isTail = true := rfl
  unfold Cursor.endsChain
  rw [htail, Bool.and_true, show (lastCall (n + 1)).memberCall? = _ from hcall]
  rfl

/-- A report at the last call of a chain takes the target of that call. -/
theorem IndexLambda.exists_method_of_report {services : Services} {src : Source} {path : String}
    {c : Cursor} {ds : List Diagnostic} (hends : c.endsChain = true)
    (h : report services src path c = .ok ds) : ∃ target, services.method c = .ok target := by
  obtain ⟨links, type, hlinks, -, -⟩ := (report_eq_ok_iff hends).1 h
  obtain ⟨⟨receiver, name⟩, hcall⟩ := Option.isSome_iff_exists.1 (Bool.and_eq_true_iff.1 hends).1
  have hlast : ⟨c, name⟩ ∈ c.chain.calls := by
    rw [Cursor.chain_of_memberCall? hcall]
    exact List.mem_append_right _ (List.mem_singleton_self _)
  obtain ⟨link, -, hlink⟩ := exists_answer hlinks hlast
  obtain ⟨target, htarget, -⟩ := Services.exists_target_of_link? hlink
  exact ⟨target, htarget⟩

namespace Host

theorem exists_analyze_longChain (n : Nat) :
    ∃ ds, default.analyze ⟨[Document.longChain n]⟩ = .ok ds :=
  exists_analyze_of_ranged (List.forall_mem_singleton.2 (Document.ordinary_longChain n))

/-- The analysis of a long chain is cut short wherever there is no room
for two calls for each of its own. -/
theorem analyzeOn_longChain {n room : Nat} (h : room < 2 * n) :
    default.analyzeOn room ⟨[Document.longChain n]⟩ = .error .endlessResolution := by
  cases n with
  | zero => omega
  | succ n =>
    rcases analyzeOn_cutShort room ⟨[Document.longChain (n + 1)]⟩ with heq | hcut
    case inr => exact hcut
    -- an answer would be an answer at the last call, too
    obtain ⟨ds, hds⟩ := exists_analyze_longChain (n + 1)
    rw [hds] at heq
    obtain ⟨found, hfound, -⟩ := bind_eq_ok_iff.1 heq
    obtain ⟨ds, -, hdocument⟩ :=
      exists_answer (mapM_eq_ok_iff.1 hfound) (List.mem_singleton_self _)
    obtain ⟨parts, hparts, -⟩ := bind_eq_ok_iff.1 hdocument
    obtain ⟨part, -, hpart⟩ := exists_answer (mapM_eq_ok_iff.1 hparts)
      ((Tree.visit_perm _).mem_iff.2 (Tree.mem_documentOrder_iff.2 (Document.top_lastCall (n + 1))))
    rw [reportAt_default_of_endsChain _ _ (Document.endsChain_lastCall n)] at hpart
    obtain ⟨target, htarget⟩ :=
      IndexLambda.exists_method_of_report (Document.endsChain_lastCall n) hpart
    -- but there is no room for it
    have hroom : room ≤ 2 * n + 1 := by omega
    cases (Model.resolveMethodOn_calls hroom).symm.trans htarget

/-- No room is enough for all ordinary programs. -/
theorem exists_ordinary_cut_short (room : Nat) :
    ∃ doc : Document, doc.tree.Ranged ∧ doc.tree.SingleVariables
      ∧ (∃ ds, default.analyze ⟨[doc]⟩ = .ok ds)
      ∧ default.analyzeOn room ⟨[doc]⟩ = .error .endlessResolution := by
  obtain ⟨hranged, hsingle⟩ := Document.ordinary_longChain (room + 1)
  exact ⟨Document.longChain (room + 1), hranged, hsingle, exists_analyze_longChain (room + 1),
    analyzeOn_longChain (by omega)⟩

/-- A chain of 501 calls is too long for the room that there is. -/
theorem long_chain_cut_short :
    (Document.longChain 501).tree.Ranged ∧ (Document.longChain 501).tree.SingleVariables
      ∧ (∃ ds, default.analyze ⟨[Document.longChain 501]⟩ = .ok ds)
      ∧ default.analyzeOn Host.room ⟨[Document.longChain 501]⟩ = .error .endlessResolution := by
  obtain ⟨hranged, hsingle⟩ := Document.ordinary_longChain 501
  exact ⟨hranged, hsingle, exists_analyze_longChain 501, analyzeOn_longChain (by decide)⟩

end Host

end QueryLint
