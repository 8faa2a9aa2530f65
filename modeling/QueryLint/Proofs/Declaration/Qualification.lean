/-
Qualified names in declarations. Here it matters what the names are made
of: in a program, a qualified name ends in a name and has no declarations
in it (`Tree.IsPlain`), and then a document declares the same whether its
types are written in full or not (`declarations_of_shortens`).

Declarations look for their parts by kind and by field. A name that has
been cut is a name still, and no part is looked for by being one; so
where parts are looked for by kind, none that is cut comes up, before or
after (`ShortensBelow.namedWhere`). In the fields that hold types, what
is there denotes what it did.
-/
import QueryLint.Declaration.Index
import QueryLint.Proofs.Ty.Qualification

namespace QueryLint

/-- The kinds of names. -/
def Kind.isName : Kind → Bool
  | identifier | genericName | qualifiedName | aliasQualifiedName => true
  | _ => false

theorem Kind.isName_of_qualifies {k : Kind} (h : k.qualifies = true) : k.isName = true := by
  unfold qualifies at h
  split at h
  · rfl
  · rfl
  · cases h

theorem Kind.beq_eq_false_of_isName {k name : Kind} (hk : k.isName = false)
    (hname : name.isName = true) : (name == k) = false := by
  refine beq_eq_false_iff_ne.2 ?_
  rintro rfl
  rw [hk] at hname
  cases hname

/-- A declaration of a type has no types for children. -/
theorem Kind.writesType_of_declaresType {k : Kind} (h : k.declaresType = true) (l : Label) :
    k.writesType l = false := by
  revert h
  cases k <;> simp [declaresType, writesType]

namespace Tree

-- ================================================================ subtrees

mutual

/-- A tree and all trees in it, in visiting order. -/
def subtrees : Tree → List Tree
  | node l ts => node l ts :: subtreesAll ts

/-- The trees in some siblings, in visiting order. -/
def subtreesAll : List Tree → List Tree
  | [] => []
  | t :: ts => subtreesAll ts ++ subtrees t

end

mutual

theorem map_focus_visitFrom (path : List Frame) (t : Tree) :
    (Cursor.visitFrom path t).map Cursor.focus = t.subtrees := by
  cases t with
  | node l ts => rw [Cursor.visitFrom, List.map_cons, map_focus_visitAll, subtrees]

theorem map_focus_visitAll (l : Label) (path : List Frame) (before after : List Tree) :
    (Cursor.visitAll l path before after).map Cursor.focus = subtreesAll after := by
  cases after with
  | nil => rfl
  | cons t after =>
    rw [Cursor.visitAll, List.map_append, map_focus_visitAll, map_focus_visitFrom, subtreesAll]

end

theorem mem_subtrees_of_mem_children {t u s : Tree} (hu : u ∈ t.children)
    (hs : s ∈ u.subtrees) : s ∈ t.subtrees := by
  obtain ⟨l, ts⟩ := t
  rw [subtrees]
  refine List.mem_cons_of_mem _ ?_
  have hall : ∀ us : List Tree, u ∈ us → s ∈ subtreesAll us := by
    intro us hmem
    induction us with
    | nil => cases hmem
    | cons v us ih =>
      rw [subtreesAll]
      rcases List.mem_cons.1 hmem with rfl | hmem
      · exact List.mem_append_right _ hs
      · exact List.mem_append_left _ (ih hmem)
  exact hall ts hu

-- ============================================================ plain names

/-- A qualified name as programs have it: what it ends with is a name, and
it declares nothing. -/
structure IsPlain (t : Tree) : Prop where
  name : ∀ u ∈ t.child? .name, u.kind.isName = true
  declares : ∀ s ∈ t.subtrees, s.kind.declaresType = false

instance (t : Tree) : Decidable t.IsPlain :=
  decidable_of_iff ((∀ u ∈ t.child? .name, u.kind.isName = true)
      ∧ ∀ s ∈ t.subtrees, s.kind.declaresType = false)
    ⟨fun ⟨h₁, h₂⟩ => ⟨h₁, h₂⟩, fun ⟨h₁, h₂⟩ => ⟨h₁, h₂⟩⟩

/-- What is cut is a name, before and after. -/
theorem Shortens.below_or_isName {t t' : Tree} (h : Shortens IsPlain t t') :
    ShortensBelow IsPlain t t' ∨ (t.kind.isName = true ∧ t'.kind.isName = true) := by
  match h with
  | .inside h => exact .inl h
  | .name hplain hkind hname _ hu =>
    refine .inr ⟨Kind.isName_of_qualifies hkind, ?_⟩
    rw [kind_inField]
    rcases hu.below_or_isName with hbelow | ⟨-, hisName⟩
    · rw [hbelow.kind_eq]
      exact hplain.name _ hname
    · exact hisName

theorem ShortensChild.below_or_isName {k : Kind} {t t' : Tree} (h : ShortensChild IsPlain k t t') :
    ShortensBelow IsPlain t t' ∨ (t.kind.isName = true ∧ t'.kind.isName = true) :=
  h.shortens.below_or_isName

/-- Two rows of nodes side by side, where each node keeps its label or is
a name before and after. Of kinds that are no names, there are the same
in both. -/
theorem forall₂_filter_named {α : Type} (tree : α → Tree) {R S : α → α → Prop}
    {xs ys : List α} (h : List.Forall₂ R xs ys)
    (hR : ∀ x y, R x y → (S x y ∧ (tree y).label = (tree x).label)
      ∨ ((tree x).kind.isName = true ∧ (tree y).kind.isName = true))
    {p : Kind → Bool} (hp : ∀ k, k.isName = true → p k = false) :
    List.Forall₂ (fun x y => p (tree x).kind = true ∧ S x y)
      ((xs.filter fun x => (tree x).label.counts).filter fun x => p (tree x).kind)
      ((ys.filter fun y => (tree y).label.counts).filter fun y => p (tree y).kind) := by
  rw [List.filter_filter, List.filter_filter]
  refine forall₂_filter h ?_ ?_
  · intro x y hxy
    rcases hR x y hxy with ⟨-, hlabel⟩ | ⟨hname, hname'⟩
    · unfold kind
      rw [hlabel]
    · rw [hp _ hname, hp _ hname', Bool.false_and, Bool.false_and]
  · intro x y hxy hpass
    have hkind := (Bool.and_eq_true_iff.1 hpass).1
    rcases hR x y hxy with ⟨hS, -⟩ | ⟨hname, -⟩
    · exact ⟨hkind, hS⟩
    · rw [hp _ hname] at hkind
      cases hkind

namespace ShortensBelow

variable {t t' : Tree}

/-- Among the children of a node, those of kinds that are no names stay
where they are. -/
theorem namedWhere (h : ShortensBelow IsPlain t t') {p : Kind → Bool}
    (hp : ∀ k, k.isName = true → p k = false) :
    List.Forall₂ (fun u u' => p u.kind = true ∧ ShortensBelow IsPlain u u')
      (t.namedChildren.filter (p ·.kind)) (t'.namedChildren.filter (p ·.kind)) := by
  refine forall₂_filter_named id h.children ?_ hp
  intro u u' hu
  exact hu.2.below_or_isName.imp_left fun hbelow => ⟨hbelow, hbelow.label_eq⟩

theorem namedOfKind (h : ShortensBelow IsPlain t t') {k : Kind} (hk : k.isName = false) :
    List.Forall₂ (fun u u' => u.kind = k ∧ ShortensBelow IsPlain u u')
      (t.namedOfKind k) (t'.namedOfKind k) := by
  refine (h.namedWhere fun _ => Kind.beq_eq_false_of_isName hk).imp ?_
  intro u u' hu
  exact ⟨beq_iff_eq.1 hu.1, hu.2⟩

end ShortensBelow

end Tree

-- ============================================================= declarators

/-- Reading two declarators side by side whose children have the same
labels. -/
theorem Declarator.rel_scan {α : Type} {tree : α → Tree} {inner : α → Option α}
    {R : α → α → Prop} (hlabel : ∀ x y, R x y → (tree y).label = (tree x).label)
    (hinner : ∀ x y, R x y → (tree x).kind = .equalsValueClause →
      Option.Rel R (inner x) (inner y))
    {xs ys : List α} (h : List.Forall₂ R xs ys) {p q : Progress α}
    (hname : Option.Rel R p.parts.name q.parts.name)
    (hvalue : Option.Rel R p.parts.value q.parts.value)
    (hbehind : q.behindEquals = p.behindEquals) :
    Option.Rel R (scan tree inner p xs).name (scan tree inner q ys).name
      ∧ Option.Rel R (scan tree inner p xs).value (scan tree inner q ys).value := by
  induction h generalizing p q with
  | nil => exact ⟨hname, hvalue⟩
  | @cons x y xs ys hxy _ ih =>
    have hkind : (tree y).kind = (tree x).kind := by
      unfold Tree.kind
      rw [hlabel x y hxy]
    have hnone : q.parts.name.isNone = p.parts.name.isNone := by
      rw [← Option.not_isSome, ← Option.not_isSome, isSome_eq_of_rel hname]
    rw [scan, scan, hkind, hlabel x y hxy, hbehind, hnone]
    split
    · exact ih (.some hxy) hvalue rfl
    split
    · next hclause => exact ih hname (hinner x y hxy (beq_iff_eq.1 hclause)) rfl
    split
    · exact ih hname hvalue rfl
    split
    · exact ⟨hname, .some hxy⟩
    · exact ih hname hvalue hbehind

namespace Tree

theorem rel_name_of_shortensBelow {may : Tree → Prop} {t t' : Tree}
    (h : ShortensBelow may t t') (hkind : t.kind = .variableDeclarator) :
    Option.Rel (ShortensBelow may) t.declarator.name t'.declarator.name := by
  have hplace : ∀ l, t.kind.writesType l = false := fun l => by rw [hkind]; rfl
  have hchildren : List.Forall₂ (ShortensBelow may) t.children t'.children :=
    (h.children_below hplace).imp fun _ _ hu => hu.2
  refine (Declarator.rel_scan (p := ⟨⟨t.child? .name, none⟩, false⟩)
    (q := ⟨⟨t'.child? .name, none⟩, false⟩) (fun u u' hu => hu.label_eq) ?_ hchildren
    (h.child?_below fun l _ => hplace l) .none rfl).1
  intro u u' hu hclause
  have hplace' : ∀ l, u.kind.writesType l = false := fun l => by
    rw [show u.kind = _ from hclause]
    rfl
  refine rel_head? ((hu.namedChildren ?_).imp fun v v' hv => hv.2.below (hplace' v.label))
  intro v _ hwrites
  rw [hplace'] at hwrites
  cases hwrites

end Tree

-- ============================================================ declarations

open QueryLint.Tree (IsPlain Shortens ShortensBelow ShortensAll)

theorem Parameter.ofList_of_shortensBelow (src : Source) {list list' : Tree}
    (h : ShortensBelow IsPlain list list') : ofList src list' = ofList src list := by
  refine (map_eq_of_forall₂ (h.namedOfKind rfl) fun p p' hp => ?_).symm
  have hname := map_eq_of_rel (hp.2.child?_below (f := .name) fun l hl => by
      rw [hp.1]
      simp [Kind.writesType, hl])
    fun n n' hn => (src.text_eq_of_label_eq hn.label_eq).symm
  rw [hname, Ty.declared?_of_shortensBelow src hp.2]

namespace TypeDecl

variable (src : Source)

theorem basesOf_of_shortensBelow {decl decl' : Tree} (h : ShortensBelow IsPlain decl decl')
    (hdecl : decl.kind.declaresType = true) : basesOf src decl' = basesOf src decl := by
  have hlists := h.childrenOfKind (Kind.writesType_of_declaresType hdecl) .baseList
  refine (flatMap_eq_of_forall₂ hlists fun list list' hlist => ?_).symm
  obtain ⟨-, hkind, hbelow⟩ := hlist
  have hcounts : ∀ u ∈ list.children,
      list.kind.writesType u.label = true → u.label.counts = true := by
    intro u _ hwrites
    rw [hkind] at hwrites
    exact hwrites
  rw [filterMap_eq_of_forall₂ (hbelow.namedChildren hcounts) fun u u' hu =>
    (Ty.ofTree?_of_shortens src hu.2.shortens).symm]

theorem variablesOf_of_shortensBelow {decl decl' : Tree} (h : ShortensBelow IsPlain decl decl') :
    variablesOf src decl' = variablesOf src decl := by
  unfold variablesOf
  rw [Ty.declared?_of_shortensBelow src h]
  cases Ty.declared? src decl with
  | none => rfl
  | some type =>
    simp only [List.map_filterMap]
    refine (filterMap_eq_of_forall₂ (h.namedOfKind rfl) fun d d' hd => ?_).symm
    refine map_eq_of_rel (Tree.rel_name_of_shortensBelow hd.2 hd.1) fun n n' hn => ?_
    rw [src.text_eq_of_label_eq hn.label_eq]

theorem membersOf_of_shortensBelow {member member' : Tree}
    (h : ShortensBelow IsPlain member member') :
    membersOf src member' = membersOf src member := by
  unfold membersOf
  rw [h.kind_eq]
  split
  · exact (flatMap_eq_of_forall₂ (h.namedOfKind rfl) fun d d' hd =>
      (variablesOf_of_shortensBelow src hd.2).symm).symm
  · next hkind =>
    have hname := h.child?_below (f := .name) fun l hl => by
      rw [hkind]
      simp [Kind.writesType, hl]
    rw [Ty.declared?_of_shortensBelow src h]
    generalize member.child? .name = name at hname ⊢
    generalize member'.child? .name = name' at hname ⊢
    cases hname with
    | none => rfl
    | some hn =>
      cases Ty.declared? src member with
      | none => rfl
      | some type =>
        show [(_, type)] = [(_, type)]
        rw [src.text_eq_of_label_eq hn.label_eq]
  · rfl

theorem methodOf?_of_shortensBelow (owner : String) {member member' : Tree}
    (h : ShortensBelow IsPlain member member') :
    methodOf? src owner member' = methodOf? src owner member := by
  unfold methodOf?
  rw [h.kind_eq]
  split
  · next hkind =>
    have hplace : ∀ f : Field, f ≠ .type → f ≠ .returns →
        ∀ l : Label, l.field = some f → member.kind.writesType l = false := by
      intro f htype hreturns l hl
      rw [hkind]
      simp [Kind.writesType, hl, htype, hreturns]
    have hparameters := map_eq_of_rel
      (h.child?_below (hplace .parameters (by decide) (by decide))) fun list list' hlist =>
        (Parameter.ofList_of_shortensBelow src hlist).symm
    have hreturns := bind_eq_of_rel (rel_or (h.child? .returns) (h.child? .type)) fun u u' hu =>
      (Ty.ofTree?_of_shortens src hu.2.shortens).symm
    rw [← hparameters, ← hreturns]
    refine (map_eq_of_rel (h.child?_below (hplace .name (by decide) (by decide)))
      fun n n' hn => ?_).symm
    rw [src.text_eq_of_label_eq hn.label_eq]
  · rfl

/-- The kinds of members that a type declaration is read for. -/
def isMember : Kind → Bool
  | .fieldDeclaration | .propertyDeclaration | .methodDeclaration => true
  | _ => false

theorem flatMap_membersOf (ts : List Tree) :
    ts.flatMap (membersOf src) = (ts.filter (isMember ·.kind)).flatMap (membersOf src) := by
  induction ts with
  | nil => rfl
  | cons t ts ih =>
    rw [List.flatMap_cons, ih, List.filter_cons]
    split
    · rfl
    · next hmember =>
      have hnone : membersOf src t = [] := by
        unfold membersOf
        split
        · next hkind => simp [hkind, isMember] at hmember
        · next hkind => simp [hkind, isMember] at hmember
        · rfl
      rw [hnone, List.nil_append]

theorem filterMap_methodOf? (owner : String) (ts : List Tree) :
    ts.filterMap (methodOf? src owner)
      = (ts.filter (isMember ·.kind)).filterMap (methodOf? src owner) := by
  rw [List.filterMap_filter]
  congr 1
  funext t
  split
  · rfl
  · next hmember =>
    unfold methodOf?
    split
    · next hkind => simp [hkind, isMember] at hmember
    · rfl

/-- The members in the body of a declaration. -/
theorem body_of_shortensBelow {decl decl' : Tree} (h : ShortensBelow IsPlain decl decl')
    (hdecl : decl.kind.declaresType = true) :
    List.Forall₂ (ShortensBelow IsPlain) ((bodyOf decl).filter (isMember ·.kind))
      ((bodyOf decl').filter (isMember ·.kind)) := by
  have hbody := h.child?_below (f := .body) fun l _ => Kind.writesType_of_declaresType hdecl l
  unfold bodyOf
  generalize decl.child? .body = body at hbody ⊢
  generalize decl'.child? .body = body' at hbody ⊢
  cases hbody with
  | none => exact .nil
  | some hb =>
    refine (hb.namedWhere ?_).imp fun u u' hu => hu.2
    intro k hk
    revert hk
    cases k <;> simp [Kind.isName, isMember]

/-- A declaration of a type says the same. -/
theorem ofTree?_of_shortensBelow {decl decl' : Tree} (h : ShortensBelow IsPlain decl decl') :
    ofTree? src decl' = ofTree? src decl := by
  unfold ofTree?
  rw [h.kind_eq]
  split
  · next hdecl =>
    have hbody := body_of_shortensBelow h hdecl
    have hmembers : (bodyOf decl').flatMap (membersOf src)
        = (bodyOf decl).flatMap (membersOf src) := by
      rw [flatMap_membersOf, flatMap_membersOf src (bodyOf decl)]
      exact (flatMap_eq_of_forall₂ hbody fun u u' hu =>
        (membersOf_of_shortensBelow src hu).symm).symm
    have hmethods : ∀ owner, (bodyOf decl').filterMap (methodOf? src owner)
        = (bodyOf decl).filterMap (methodOf? src owner) := by
      intro owner
      rw [filterMap_methodOf?, filterMap_methodOf? src owner (bodyOf decl)]
      exact (filterMap_eq_of_forall₂ hbody fun u u' hu =>
        (methodOf?_of_shortensBelow src owner hu).symm).symm
    have hname := h.child?_below (f := .name) fun l _ => Kind.writesType_of_declaresType hdecl l
    rw [basesOf_of_shortensBelow src h hdecl, hmembers]
    simp only [hmethods]
    refine (map_eq_of_rel hname fun n n' hn => ?_).symm
    rw [src.text_eq_of_label_eq hn.label_eq]
  · rfl

theorem ofTree?_eq_none_of_kind {decl : Tree} (h : decl.kind.declaresType = false) :
    ofTree? src decl = none := by
  unfold ofTree?
  rw [h]
  rfl

-- ============================================================= whole trees

/-- All declarations in a tree, in visiting order. -/
def allOf (t : Tree) : List TypeDecl := t.subtrees.filterMap (ofTree? src)

theorem allOf_node (l : Label) (ts : List Tree) :
    allOf src (.node l ts)
      = (ofTree? src (.node l ts)).toList ++ (Tree.subtreesAll ts).filterMap (ofTree? src) := by
  unfold allOf
  rw [Tree.subtrees, List.filterMap_cons]
  cases ofTree? src (.node l ts) with
  | none => rfl
  | some d => rfl

theorem filterMap_subtreesAll (t : Tree) (ts : List Tree) :
    (Tree.subtreesAll (t :: ts)).filterMap (ofTree? src)
      = (Tree.subtreesAll ts).filterMap (ofTree? src) ++ allOf src t := by
  rw [Tree.subtreesAll, List.filterMap_append]
  rfl

theorem allOf_inField (t : Tree) (f : Option Field) : allOf src (t.inField f) = allOf src t := by
  obtain ⟨l, ts⟩ := t
  exact (allOf_node src _ ts).trans (allOf_node src l ts).symm

/-- A name that is cut declares nothing. -/
theorem allOf_eq_nil {t s : Tree} (h : t.IsPlain) (hs : ∀ r ∈ s.subtrees, r ∈ t.subtrees) :
    allOf src s = [] := by
  refine List.filterMap_eq_nil_iff.2 fun r hr => ?_
  exact ofTree?_eq_none_of_kind src (h.declares r (hs r hr))

mutual

theorem allOf_of_shortens {t t' : Tree} (h : Shortens IsPlain t t') :
    allOf src t' = allOf src t := by
  match h with
  | .inside h => exact allOf_of_shortensBelow h
  | .name (t := t) (u := u) hplain _ hname _ hu =>
    have hmem : ∀ r ∈ u.subtrees, r ∈ t.subtrees := fun r hr =>
      Tree.mem_subtrees_of_mem_children (Tree.mem_children_of_child? hname) hr
    rw [allOf_inField, allOf_of_shortens hu, allOf_eq_nil src hplain hmem,
      allOf_eq_nil src hplain fun r hr => hr]

theorem allOf_of_shortensBelow {t t' : Tree} (h : ShortensBelow IsPlain t t') :
    allOf src t' = allOf src t := by
  have hdecl := ofTree?_of_shortensBelow src h
  match h with
  | .node hall => rw [allOf_node, allOf_node, hdecl, filterMap_of_shortensAll hall]

theorem filterMap_of_shortensAll {k : Kind} {ts ts' : List Tree}
    (h : ShortensAll IsPlain k ts ts') :
    (Tree.subtreesAll ts').filterMap (ofTree? src)
      = (Tree.subtreesAll ts).filterMap (ofTree? src) := by
  match h with
  | .nil => rfl
  | .inside ht hts =>
    rw [filterMap_subtreesAll, filterMap_subtreesAll, filterMap_of_shortensAll hts,
      allOf_of_shortensBelow ht]
  | .type _ ht hts =>
    rw [filterMap_subtreesAll, filterMap_subtreesAll, filterMap_of_shortensAll hts,
      allOf_of_shortens ht]

end

end TypeDecl

theorem Document.declarations_eq_allOf (doc : Document) :
    doc.declarations = TypeDecl.allOf doc.source doc.tree := by
  unfold declarations TypeDecl.allOf
  rw [← Tree.map_focus_visitFrom [] doc.tree, List.filterMap_map]
  rfl

/-- The documents of a compilation, with types written shorter in some of
them. -/
def Document.Shortens (doc doc' : Document) : Prop :=
  doc'.path = doc.path ∧ doc'.source = doc.source ∧ ShortensBelow IsPlain doc.tree doc'.tree

theorem Document.declarations_of_shortens {doc doc' : Document} (h : doc.Shortens doc') :
    doc'.declarations = doc.declarations := by
  obtain ⟨-, hsource, htree⟩ := h
  rw [declarations_eq_allOf, declarations_eq_allOf, hsource]
  exact TypeDecl.allOf_of_shortensBelow doc.source htree

theorem Index.ofDocuments_of_shortens {docs docs' : List Document}
    (h : List.Forall₂ Document.Shortens docs docs') : ofDocuments docs' = ofDocuments docs := by
  unfold ofDocuments
  rw [flatMap_eq_of_forall₂ h fun doc doc' hdoc => (Document.declarations_of_shortens hdoc).symm]

end QueryLint
