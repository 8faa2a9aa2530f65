/-
Type resolution ends on ordinary code. A name leads to what its variable
is initialized with, elsewhere in the tree, and that leads on; nothing
in the way itself gets smaller. What does is where the name can be
looked up from.

# The measure

After the first name, a resolution is always inside a value that some
scope offers, with no other scope between (`Offers.scope?_value`): it
goes down through objects and receivers, and these open no scope. The
next name it meets is answered either

- by the same scope, from another holder. The value it stands in is
  guarded against uses in itself and is the only one of its holder, so
  the scope has to be a block, and the other holder an earlier statement
  (`place_lt_of_offers`): behind the own statement everything begins too
  late to be seen; or
- by a scope further out.

So the depth of the scope decreases, or it stays and the place of the
holder in it does, or neither changes and the resolution has gone down
in the tree. It is the byte ranges that tell inside from outside and
before from behind, and so they have to fit; and with two variables in
one declaration each may be initialized from the other.
-/
import QueryLint.Proofs.Resolve.Stack

namespace QueryLint

-- ====================================================== one value a holder

theorem eq_of_length_le_one {α : Type} {xs : List α} {a b : α} (h : xs.length ≤ 1)
    (ha : a ∈ xs) (hb : b ∈ xs) : a = b := by
  match xs, h with
  | [x], _ => rw [List.mem_singleton.1 ha, List.mem_singleton.1 hb]

namespace Offers

variable {scope holder holder' guard guard' value value' : Cursor}

/-- Where statements declare one variable each, a holder has one guard,
and a scope other than a block has one altogether. -/
theorem guard_unique (hsingle : scope.top.SingleVariables)
    (h : Offers scope holder guard value) (h' : Offers scope holder' guard' value')
    (hsame : scope.kind = .block → holder = holder') : guard = guard' := by
  -- one declarator in a declaration of the tree
  have hone : ∀ {declaration d d' : Cursor}, declaration.top = scope.top →
      declaration.kind = .variableDeclaration →
      d ∈ declaration.namedOfKind .variableDeclarator →
      d' ∈ declaration.namedOfKind .variableDeclarator → d = d' := by
    intro declaration d d' htop hkind hd hd'
    exact eq_of_length_le_one
      (hsingle.declarator declaration (Tree.mem_documentOrder_iff.2 htop) hkind) hd hd'
  cases h with
  | inBlock hscope hstatement hkind hdeclaration hdeclarator _ =>
    cases h' with
    | inBlock _ _ _ hdeclaration' hdeclarator' _ =>
      have hholder := hsame hscope
      subst hholder
      have htop := Cursor.top_eq_of_parent? (Cursor.parent?_of_mem_namedChildren hstatement)
      have heq := eq_of_length_le_one
        (hsingle.declaration _ (Tree.mem_documentOrder_iff.2 htop) (.inl hkind))
        hdeclaration hdeclaration'
      subst heq
      have htop' := Cursor.top_eq_of_parent? (Cursor.parent?_of_mem_namedOfKind hdeclaration)
      exact hone (htop'.trans htop) (Cursor.kind_of_mem_namedOfKind hdeclaration)
        hdeclarator hdeclarator'
    | inHead hscope' _ _ _ =>
      rw [hscope] at hscope'
      cases hscope'
    | inForEach hscope' _ =>
      rw [hscope] at hscope'
      cases hscope'
  | inHead hscope hdeclaration hdeclarator _ =>
    cases h' with
    | inBlock hscope' _ _ _ _ _ =>
      rw [hscope'] at hscope
      cases hscope
    | inHead _ hdeclaration' hdeclarator' _ =>
      have heq := eq_of_length_le_one
        (hsingle.declaration _ (Tree.mem_documentOrder_iff.2 rfl) (.inr hscope))
        hdeclaration hdeclaration'
      subst heq
      have htop := Cursor.top_eq_of_parent? (Cursor.parent?_of_mem_namedOfKind hdeclaration)
      exact hone htop (Cursor.kind_of_mem_namedOfKind hdeclaration) hdeclarator hdeclarator'
    | inForEach hscope' _ =>
      rw [hscope'] at hscope
      cases hscope
  | inForEach hscope hcollection =>
    cases h' with
    | inBlock hscope' _ _ _ _ _ =>
      rw [hscope] at hscope'
      cases hscope'
    | inHead hscope' _ _ _ =>
      rw [hscope] at hscope'
      cases hscope'
    | inForEach _ hcollection' =>
      exact Option.some.inj (hcollection.symm.trans hcollection')

/-- What is at or below the guard is at or below the holder. -/
theorem holder_mem_of_guard_mem (h : Offers scope holder guard value) {c : Cursor}
    (hc : guard = c ∨ guard ∈ c.ancestors) : holder = c ∨ holder ∈ c.ancestors := by
  rcases h.holder_mem with rfl | hholder
  · exact hc
  · rcases hc with rfl | hc
    · exact .inr hholder
    · exact .inr (Cursor.mem_ancestors_trans hholder hc)

/-- A name inside a guard that the same scope answers is answered from
an earlier statement of a block. -/
theorem place_lt_of_offers (hranged : scope.top.Ranged)
    (hsingle : scope.top.SingleVariables) (h : Offers scope holder guard value)
    {c : Cursor} (hkind : c.kind = .identifier) (htop : c.top = scope.top)
    (hc : guard = c ∨ guard ∈ c.ancestors) (h' : Offers scope holder' guard' value')
    (hcovers : guard'.covers c.start = false)
    (hstart : scope.kind = .block → holder'.start < c.start) :
    holder'.place < holder.place := by
  rw [← htop] at hranged
  have hnonempty := hranged.identifier_nonempty c c.mem_documentOrder_top hkind
  have hencloses : ∀ a, a = c ∨ a ∈ c.ancestors → a.start ≤ c.start ∧ c.stop ≤ a.stop := by
    intro a ha
    rcases ha with rfl | ha
    · exact ⟨Nat.le_refl _, Nat.le_refl _⟩
    · exact hranged.enclosed ha
  -- the name is inside its own guard, so that is not the one that answers
  have hne : guard ≠ guard' := by
    intro heq
    obtain ⟨hle, hlt⟩ := hencloses guard hc
    subst heq
    unfold Cursor.covers at hcovers
    simp only [Bool.and_eq_false_iff, decide_eq_false_iff_not] at hcovers
    omega
  have hblock : scope.kind = .block := by
    apply Classical.byContradiction
    intro hother
    exact hne (guard_unique hsingle h h' fun hb => absurd hb hother)
  have hmem := Cursor.mem_children_iff.2 h.parent?_holder
  have hmem' := Cursor.mem_children_iff.2 h'.parent?_holder
  rcases Nat.lt_trichotomy holder'.place holder.place with hlt | heq | hgt
  · exact hlt
  · exact absurd
      (guard_unique hsingle h h' fun _ => (Cursor.eq_of_place_eq hmem' hmem heq).symm) hne
  · -- a later statement begins behind the one that the name is in
    have hnode : scope ∈ c.top.documentOrder := Tree.mem_documentOrder_iff.2 htop.symm
    have hbehind := Cursor.rel_of_place_lt (hranged.ordered scope hnode) hmem hmem' hgt
    obtain ⟨-, hstop⟩ := hencloses holder (h.holder_mem_of_guard_mem hc)
    have := hstart hblock
    omega

end Offers

namespace Model

variable {m : Model}

-- ===================================================== down to the next name

/-- Going down from a node through what opens no scope, a resolution ends
if it does at each name that it can come to. -/
theorem exists_resolve_of_identifiers {P : Cursor → Prop}
    (hdown : ∀ c d : Cursor, c.kind.opensScope = false → d.parent? = some c → P c → P d)
    (hname : ∀ c : Cursor, P c → c.kind = .identifier → ∀ b value, m.meaning? c = some b →
      b.value? = some value → ∃ type, m.resolve value = .ok type)
    {c : Cursor} (hc : P c) : ∃ type, m.resolve c = .ok type := by
  induction hsize : c.focus.size using Nat.strongRecOn generalizing c with
  | ind n ih =>
    cases hstep : m.step c with
    | done type => exact ⟨type, resolve_of_done hstep⟩
    | ask other wanted =>
      have hinside : P c.unwrap := by
        refine Cursor.unwrap_induction (P := P) ?_ hc
        intro p d hkind hparent hp
        exact hdown p d (by rw [hkind]; rfl) hparent hp
      have hle := c.size_focus_unwrap_le
      suffices hother : ∃ type, m.resolve other = .ok type by
        obtain ⟨type, htype⟩ := hother
        exact ⟨_, resolve_of_ask hstep htype⟩
      rcases step_cases hstep with ⟨hkind, b, hb, hvalue⟩ | ⟨hkind, hobject⟩ | ⟨name, hcall⟩
      · exact hname c.unwrap hinside hkind b other hb hvalue
      · have hlt := Cursor.size_focus_lt_of_child? hobject
        have hP := hdown c.unwrap other (by rw [hkind]; rfl) (Cursor.parent?_of_child? hobject)
          hinside
        exact ih _ (by omega) hP rfl
      · have hlt := Cursor.size_focus_lt_of_memberCall? hcall
        obtain ⟨hkind, access, haccess, hmember, hreceiver, -⟩ :=
          Cursor.memberCall?_eq_some_iff.1 hcall
        have hPaccess := hdown c.unwrap access (by rw [hkind]; rfl)
          (Cursor.parent?_of_child? haccess) hinside
        have hP := hdown access other (by rw [hmember]; rfl)
          (Cursor.parent?_of_child? hreceiver) hPaccess
        exact ih _ (by omega) hP rfl

-- ============================================================ from value to value

/-- The resolution of a value that a scope offers ends. -/
theorem exists_resolve_of_offers {scope holder guard value : Cursor}
    (hranged : scope.top.Ranged) (hsingle : scope.top.SingleVariables)
    (h : Offers scope holder guard value) : ∃ type, m.resolve value = .ok type := by
  -- outer induction on the depth of the scope, inner on the place of the holder
  induction hdepth : scope.path.length using Nat.strongRecOn
    generalizing scope holder guard value with
  | ind depth ihDepth =>
    induction hplace : holder.place using Nat.strongRecOn
      generalizing holder guard value with
    | ind place ihPlace =>
      refine exists_resolve_of_identifiers
        (P := fun c => c.scope? = some scope ∧ (guard = c ∨ guard ∈ c.ancestors)) ?_ ?_
        ⟨h.scope?_value, h.guard_mem⟩
      · intro c d hopens hparent hc
        obtain ⟨hscope, hguard⟩ := hc
        refine ⟨(Cursor.scope?_of_not_opensScope hparent hopens).trans hscope, .inr ?_⟩
        rw [Cursor.ancestors_of_parent? hparent]
        rcases hguard with rfl | hguard
        · exact List.mem_cons_self
        · exact List.mem_cons_of_mem _ hguard
      · intro c hc hkind b value' hb hvalue
        obtain ⟨hscope, hguard⟩ := hc
        obtain ⟨scope', hmem, hopens, holder', guard', hoffers, hcovers, hstart⟩ :=
          exists_offers_of_meaning? hb hvalue
        have hin : scope ∈ c.ancestors := List.mem_of_find?_eq_some hscope
        rcases Cursor.eq_or_mem_ancestors_of_scope? hscope hmem hopens with rfl | hout
        · have hlt := h.place_lt_of_offers hranged hsingle hkind
            (Cursor.top_eq_of_mem_ancestors hin).symm hguard hoffers hcovers hstart
          exact ihPlace _ (hplace ▸ hlt) hoffers rfl
        · have htop := Cursor.top_eq_of_mem_ancestors hout
          exact ihDepth _ (hdepth ▸ Cursor.length_path_lt_of_mem_ancestors hout)
            (by rw [htop]; exact hranged) (by rw [htop]; exact hsingle) hoffers rfl

/-- The resolution of any node ends. -/
theorem exists_resolve {c : Cursor} (hranged : c.top.Ranged)
    (hsingle : c.top.SingleVariables) : ∃ type, m.resolve c = .ok type := by
  refine exists_resolve_of_identifiers (P := fun d => d.top = c.top) ?_ ?_ rfl
  · intro p d _ hparent htop
    exact (Cursor.top_eq_of_parent? hparent).trans htop
  · intro d htop _ b value hb hvalue
    obtain ⟨scope, hmem, -, holder, guard, hoffers, -, -⟩ := exists_offers_of_meaning? hb hvalue
    have hscope := (Cursor.top_eq_of_mem_ancestors hmem).trans htop
    exact exists_resolve_of_offers (by rw [hscope]; exact hranged)
      (by rw [hscope]; exact hsingle) hoffers

/-- The target of any call is found, or found to be unknown. -/
theorem exists_resolveMethod_of_ranged {c : Cursor} (hranged : c.top.Ranged)
    (hsingle : c.top.SingleVariables) : ∃ target, m.resolveMethod c = .ok target := by
  unfold resolveMethod
  split
  · exact ⟨_, rfl⟩
  · next receiver name hcall =>
    have htop := Cursor.top_eq_of_memberCall? hcall
    obtain ⟨type, htype⟩ := exists_resolve (m := m) (c := receiver)
      (by rw [htop]; exact hranged) (by rw [htop]; exact hsingle)
    rw [htype]
    exact ⟨_, rfl⟩

end Model

/-- So the analysis ends normally, too. -/
theorem Host.exists_analyze_of_ranged {comp : Compilation}
    (h : ∀ doc ∈ comp.documents, doc.tree.Ranged ∧ doc.tree.SingleVariables) :
    ∃ ds, default.analyze comp = .ok ds := by
  apply exists_analyze_default
  · intro doc hdoc c htop
    obtain ⟨hranged, hsingle⟩ := h doc hdoc
    rw [← htop] at hranged hsingle
    exact Model.exists_resolve hranged hsingle
  · intro doc hdoc c htop
    obtain ⟨hranged, hsingle⟩ := h doc hdoc
    rw [← htop] at hranged hsingle
    exact Model.exists_resolveMethod_of_ranged hranged hsingle

/-- On ordinary code every resolution ends: in a tree whose ranges fit
and whose statements declare one variable each, the type of every node
and the target of every call is found or found to be unknown, whatever
the index. So the analysis of such documents ends normally, if there is
no limit to the calls that may be open at a time. Under a limit it comes
to the same or is cut short, and it is not cut short where the limit
allows for four calls for each node of a document. -/
theorem resolution_ends_on_ordinary_code (m : Model) (t : Tree) (comp : Compilation)
    (hranged : t.Ranged) (hsingle : t.SingleVariables)
    (hdocuments : ∀ doc ∈ comp.documents, doc.tree.Ranged ∧ doc.tree.SingleVariables) :
    (∀ c ∈ t.documentOrder,
        (∃ type, m.resolve c = .ok type) ∧ (∃ target, m.resolveMethod c = .ok target))
      ∧ ∃ ds, Host.default.analyze comp = .ok ds
        ∧ (∀ room, Host.default.analyzeOn room comp = .ok ds
          ∨ Host.default.analyzeOn room comp = .error .endlessResolution)
        ∧ ∀ room, (∀ doc ∈ comp.documents, 4 * doc.tree.size < room) →
          Host.default.analyzeOn room comp = .ok ds := by
  constructor
  · intro c hc
    have htop := Tree.mem_documentOrder_iff.1 hc
    subst htop
    exact ⟨Model.exists_resolve hranged hsingle,
      Model.exists_resolveMethod_of_ranged hranged hsingle⟩
  · obtain ⟨ds, hds⟩ := Host.exists_analyze_of_ranged hdocuments
    refine ⟨ds, hds, ?_, ?_⟩
    · intro room
      rw [← hds]
      exact Host.analyzeOn_cutShort room comp
    · intro room hroom
      rw [← hds]
      refine Host.analyzeOn_eq_analyze ?_ hroom
      intro doc hdoc c htop
      obtain ⟨hranged, hsingle⟩ := hdocuments doc hdoc
      rw [← htop] at hranged hsingle
      exact Model.exists_resolve hranged hsingle

/-- The analysis of the sample ends, with a variable on the way, and there
is room for it. -/
theorem sample_analysis_ends :
    Document.sample.tree.Ranged ∧ Document.sample.tree.SingleVariables
      ∧ (∀ c ∈ Document.sample.tree.documentOrder,
          ∃ type, (Model.mk ⟨[]⟩ Document.sample.source).resolve c = .ok type)
      ∧ 4 * Document.sample.tree.size < Host.room
      ∧ ∃ ds, Host.default.analyze ⟨[Document.sample]⟩ = .ok ds
        ∧ Host.default.analyzeOn Host.room ⟨[Document.sample]⟩ = .ok ds := by
  have hranged : Document.sample.tree.Ranged := by decide +kernel
  have hsingle : Document.sample.tree.SingleVariables := by decide +kernel
  have hroom : 4 * Document.sample.tree.size < Host.room := by decide +kernel
  obtain ⟨hresolve, ds, hds, -, henough⟩ := resolution_ends_on_ordinary_code
    (Model.mk ⟨[]⟩ Document.sample.source) Document.sample.tree ⟨[Document.sample]⟩ hranged hsingle
    (List.forall_mem_singleton.2 ⟨hranged, hsingle⟩)
  refine ⟨hranged, hsingle, ?_, hroom, ds, hds, ?_⟩
  · intro c hc
    exact (hresolve c hc).1
  · exact henough Host.room (List.forall_mem_singleton.2 hroom)

end QueryLint
