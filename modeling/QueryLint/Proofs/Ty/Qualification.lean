/-
Qualified names in written types. `Tree.Shortens` says that one tree is
another one with some of its qualified names cut down to the names that
they end with; each of these takes the place of the whole and the field
that it had. This may happen wherever a type is written
(`Kind.writesType`), so a name inside a name, inside a type argument,
below an array or a nullable type may be cut as well.

What carries the proofs is that the children of a node stay in their
places: each keeps its field and still counts if it did
(`Shortens.field_eq`, `Shortens.counts`). A written type finds its parts
by field, by kind, as the first or as the last that counts, and all of
these find the same place again. So a written type denotes what it did
(`ofTree?_of_shortens`).

# What can be missing

Below the outermost level nothing can. Of a qualified name only the last
part is read (`Ty.simple?`), and what is left is left open, or has a name
and arguments, one for each part that it should have, whether the part
says what it is or not (`args_of_ofTree?`, `ofTree?_eq_none_iff`).
-/
import QueryLint.Proofs.SideBySide
import QueryLint.Ty.Written

namespace QueryLint

-- ============================================================== shortening

/-- Names behind a namespace, a type or an alias. -/
def Kind.qualifies : Kind → Bool
  | qualifiedName | aliasQualifiedName => true
  | _ => false

/-- Whether a node of this kind has a type written in the place of a child
with this label. -/
def Kind.writesType (k : Kind) (child : Label) : Bool :=
  match k with
  -- inside a written type
  | typeArgumentList | nullableType => child.counts
  | arrayType => child.field == some .type
  | qualifiedName | aliasQualifiedName => child.field == some .name || child.counts
  -- in declarations and expressions
  | baseList => child.counts
  | methodDeclaration => child.field == some .returns || child.field == some .type
  | propertyDeclaration | variableDeclaration | parameter | forEachStatement
  | objectCreation | cast => child.field == some .type
  | _ => false

namespace Tree

/-- The same node in another field. -/
def inField (t : Tree) (f : Option Field) : Tree := .node { t.label with field := f } t.children

@[simp]
theorem kind_inField (t : Tree) (f : Option Field) : (t.inField f).kind = t.kind := rfl

-- `may` says which qualified names may be cut.
variable (may : Tree → Prop)

mutual

/-- In the place of the written type `t` there is now `t'`: the same node,
or what has become of the name that a qualified name ends with. -/
inductive Shortens : Tree → Tree → Prop
  | inside {t t' : Tree} (h : ShortensBelow t t') : Shortens t t'
  | name {t u u' : Tree} (hmay : may t) (hkind : t.kind.qualifies = true)
      (hname : t.child? .name = some u) (hcounts : u.label.counts = true)
      (hu : Shortens u u') : Shortens t (u'.inField t.label.field)

/-- The node is the same, and what is written below it may be shorter. -/
inductive ShortensBelow : Tree → Tree → Prop
  | node {l : Label} {ts ts' : List Tree} (h : ShortensAll l.kind ts ts') :
      ShortensBelow (.node l ts) (.node l ts')

/-- The children of a node of kind `k`, one by one. -/
inductive ShortensAll : Kind → List Tree → List Tree → Prop
  | nil {k : Kind} : ShortensAll k [] []
  | inside {k : Kind} {t t' : Tree} {ts ts' : List Tree} (ht : ShortensBelow t t')
      (hts : ShortensAll k ts ts') : ShortensAll k (t :: ts) (t' :: ts')
  | type {k : Kind} {t t' : Tree} {ts ts' : List Tree}
      (hplace : k.writesType t.label = true) (ht : Shortens t t')
      (hts : ShortensAll k ts ts') : ShortensAll k (t :: ts) (t' :: ts')

end

/-- What has become of a child of a node of kind `k`. -/
def ShortensChild (k : Kind) (t t' : Tree) : Prop :=
  ShortensBelow may t t' ∨ (k.writesType t.label = true ∧ Shortens may t t')

variable {may}

theorem ShortensAll.forall₂ {k : Kind} {ts ts' : List Tree} (h : ShortensAll may k ts ts') :
    List.Forall₂ (ShortensChild may k) ts ts' := by
  induction ts generalizing ts' with
  | nil =>
    cases h
    exact .nil
  | cons t ts ih =>
    cases h with
    | inside ht hts => exact .cons (.inl ht) (ih hts)
    | type hplace ht hts => exact .cons (.inr ⟨hplace, ht⟩) (ih hts)

theorem ShortensAll.of_forall₂ {k : Kind} {ts ts' : List Tree}
    (h : List.Forall₂ (ShortensChild may k) ts ts') : ShortensAll may k ts ts' := by
  induction h with
  | nil => exact .nil
  | cons ht _ ih =>
    rcases ht with ht | ⟨hplace, ht⟩
    · exact .inside ht ih
    · exact .type hplace ht ih

mutual

/-- Nothing has to be cut. -/
theorem ShortensBelow.refl (t : Tree) : ShortensBelow may t t := by
  cases t with
  | node l ts => exact .node (ShortensAll.refl l.kind ts)

theorem ShortensAll.refl (k : Kind) (ts : List Tree) : ShortensAll may k ts ts := by
  cases ts with
  | nil => exact .nil
  | cons t ts => exact .inside (.refl t) (.refl k ts)

end

theorem ShortensBelow.label_eq {t t' : Tree} (h : ShortensBelow may t t') :
    t'.label = t.label := by
  cases h
  rfl

theorem ShortensBelow.kind_eq {t t' : Tree} (h : ShortensBelow may t t') : t'.kind = t.kind := by
  unfold kind
  rw [h.label_eq]

theorem Shortens.field_eq {t t' : Tree} (h : Shortens may t t') :
    t'.label.field = t.label.field := by
  cases h with
  | inside h => rw [h.label_eq]
  | name => rfl

/-- Only qualified names are cut. -/
theorem Shortens.below_of_kind {t t' : Tree} (h : Shortens may t t')
    (hkind : t.kind.qualifies = false) : ShortensBelow may t t' := by
  cases h with
  | inside h => exact h
  | name _ hkind' =>
    rw [hkind] at hkind'
    cases hkind'

/-- Cutting a name does not make it vanish. -/
theorem Shortens.counts {t t' : Tree} (h : Shortens may t t') (ht : t.label.counts = true) :
    t'.label.counts = true := by
  match h with
  | .inside h =>
    rw [h.label_eq]
    exact ht
  | .name _ _ _ hcounts hu => exact hu.counts hcounts

-- ================================================================ children

namespace ShortensChild

variable {k : Kind} {t t' : Tree}

theorem shortens (h : ShortensChild may k t t') : Shortens may t t' := by
  rcases h with h | ⟨-, h⟩
  · exact .inside h
  · exact h

theorem field_eq (h : ShortensChild may k t t') : t'.label.field = t.label.field :=
  h.shortens.field_eq

/-- Where only nodes that count are taken for types, none comes to count. -/
theorem counts_eq (h : ShortensChild may k t t')
    (hplace : k.writesType t.label = true → t.label.counts = true) :
    t'.label.counts = t.label.counts := by
  rcases h with h | ⟨htype, h⟩
  · rw [h.label_eq]
  · rw [hplace htype, h.counts (hplace htype)]

/-- Where no type is written, a node stays. -/
theorem below (h : ShortensChild may k t t') (hplace : k.writesType t.label = false) :
    ShortensBelow may t t' := by
  rcases h with h | ⟨htype, -⟩
  · exact h
  · rw [hplace] at htype
    cases htype

end ShortensChild

namespace ShortensBelow

variable {t t' : Tree}

theorem children (h : ShortensBelow may t t') :
    List.Forall₂ (fun u u' => u ∈ t.children ∧ ShortensChild may t.kind u u')
      t.children t'.children := by
  cases h with
  | node h => exact forall₂_mem h.forall₂

/-- The child in a field is where it was. -/
theorem child? (h : ShortensBelow may t t') (f : Field) :
    Option.Rel (fun u u' => u ∈ t.children ∧ ShortensChild may t.kind u u')
      (t.child? f) (t'.child? f) := by
  refine rel_find? h.children ?_ (fun u u' hu _ => hu)
  intro u u' hu
  rw [hu.2.field_eq]

/-- In a field that holds no type, the child stays. -/
theorem child?_below (h : ShortensBelow may t t') {f : Field}
    (hplace : ∀ l : Label, l.field = some f → t.kind.writesType l = false) :
    Option.Rel (ShortensBelow may) (t.child? f) (t'.child? f) := by
  refine rel_find? h.children ?_ ?_
  · intro u u' hu
    rw [hu.2.field_eq]
  · intro u u' hu hf
    exact hu.2.below (hplace u.label (beq_iff_eq.1 hf))

/-- The children that count are where they were, if only such are taken
for types. -/
theorem namedChildren (h : ShortensBelow may t t')
    (hplace : ∀ u ∈ t.children, t.kind.writesType u.label = true → u.label.counts = true) :
    List.Forall₂ (fun u u' => u ∈ t.children ∧ ShortensChild may t.kind u u')
      t.namedChildren t'.namedChildren := by
  refine forall₂_filter h.children ?_ (fun u u' hu _ => hu)
  intro u u' hu
  exact (hu.2.counts_eq (hplace u hu.1)).symm

/-- Below a node that has no types for children, all children stay. -/
theorem children_below (h : ShortensBelow may t t') (hplace : ∀ l, t.kind.writesType l = false) :
    List.Forall₂ (fun u u' => u ∈ t.children ∧ ShortensBelow may u u')
      t.children t'.children :=
  h.children.imp fun u _ hu => ⟨hu.1, hu.2.below (hplace u.label)⟩

/-- And so do those of a kind among them. -/
theorem childrenOfKind (h : ShortensBelow may t t') (hplace : ∀ l, t.kind.writesType l = false)
    (k : Kind) :
    List.Forall₂ (fun u u' => u ∈ t.children ∧ u.kind = k ∧ ShortensBelow may u u')
      (t.children.filter (·.kind == k)) (t'.children.filter (·.kind == k)) := by
  refine forall₂_filter (h.children_below hplace) ?_ ?_
  · intro u u' hu
    rw [hu.2.kind_eq]
  · intro u u' hu hk
    exact ⟨hu.1, beq_iff_eq.1 hk, hu.2⟩

theorem lastOfKind? (h : ShortensBelow may t t') (hplace : ∀ l, t.kind.writesType l = false)
    (k : Kind) :
    Option.Rel (fun u u' => u ∈ t.children ∧ u.kind = k ∧ ShortensBelow may u u')
      (Ty.lastOfKind? k t.children) (Ty.lastOfKind? k t'.children) :=
  rel_getLast? (h.childrenOfKind hplace k)

end ShortensBelow

end Tree

-- =================================================================== types

theorem Source.text_eq_of_label_eq {t t' : Tree} (src : Source) (h : t'.label = t.label) :
    src.text t' = src.text t := by
  unfold text
  rw [h]

namespace Ty

open QueryLint.Tree (Shortens ShortensBelow ShortensChild)

variable {may : Tree → Prop} (src : Source)

/-- The field of a written type does not matter. -/
theorem ofTree?_inField (t : Tree) (f : Option Field) :
    ofTree? src (t.inField f) = ofTree? src t := by
  rw [ofTree?_eq, ofTree?_eq src t]
  rfl

theorem ofTree?_of_qualifies {t : Tree} (h : t.kind.qualifies = true) :
    ofTree? src t = (simplePart? t).bind (ofTree? src) := by
  rw [ofTree?_eq]
  unfold Kind.qualifies at h
  split at h
  · next hkind => rw [hkind]
  · next hkind => rw [hkind]
  · cases h

/-- A qualified name denotes what its name does. -/
theorem ofTree?_of_name {t u : Tree} (hkind : t.kind.qualifies = true)
    (hname : t.child? .name = some u) : ofTree? src t = ofTree? src u := by
  rw [ofTree?_of_qualifies src hkind]
  unfold simplePart?
  rw [hname]
  rfl

section Level

-- One level of a written type, where all below denotes what it did.
variable {src} {t t' : Tree} (h : ShortensBelow may t t')
  (ih : ∀ u u' : Tree, u.size < t.size → Shortens may u u' → ofTree? src u' = ofTree? src u)

include ih in
theorem ofTree?_eq_of_child {u u' : Tree}
    (hu : u ∈ t.children ∧ ShortensChild may t.kind u u') : ofTree? src u = ofTree? src u' :=
  (ih u u' (Tree.size_lt_of_mem_children hu.1) hu.2.shortens).symm

include h ih

theorem simplePart?_of_shortensBelow (hkind : t.kind.qualifies = true) :
    (simplePart? t).bind (ofTree? src) = (simplePart? t').bind (ofTree? src) := by
  have hplace : ∀ l, t.kind.writesType l = (l.field == some .name || l.counts) := by
    intro l
    unfold Kind.qualifies at hkind
    split at hkind
    · next heq => rw [heq]; rfl
    · next heq => rw [heq]; rfl
    · cases hkind
  have hname := h.child? .name
  unfold simplePart?
  generalize hx : t.child? .name = x at hname
  generalize t'.child? .name = x' at hname
  cases hname with
  | some hu => exact ofTree?_eq_of_child ih hu
  | none =>
    -- nothing is in the field of the name, so whatever is cut counts
    have hcounts : ∀ u ∈ t.children,
        t.kind.writesType u.label = true → u.label.counts = true := by
      intro u hu hwrites
      have hfield : ¬ (u.label.field == some .name) = true := List.find?_eq_none.1 hx u hu
      rw [hplace, Bool.or_eq_true] at hwrites
      exact hwrites.resolve_left hfield
    exact bind_eq_of_rel (rel_getLast? (h.namedChildren hcounts)) fun _ _ =>
      ofTree?_eq_of_child ih

theorem nullable_of_shortensBelow (hkind : t.kind = .nullableType) :
    (t.namedChildren.head?.map fun u => mk "Nullable" [(ofTree? src u).getD object])
      = t'.namedChildren.head?.map fun u => mk "Nullable" [(ofTree? src u).getD object] := by
  have hcounts : ∀ u ∈ t.children,
      t.kind.writesType u.label = true → u.label.counts = true := by
    intro u _ hwrites
    rw [hkind] at hwrites
    exact hwrites
  refine map_eq_of_rel (rel_head? (h.namedChildren hcounts)) fun u u' hu => ?_
  rw [ofTree?_eq_of_child ih hu]

theorem arguments_of_shortensBelow (hkind : t.kind = .genericName) :
    ((lastOfKind? .typeArgumentList t.children).map fun list =>
        list.namedChildren.map fun u => (ofTree? src u).getD object)
      = (lastOfKind? .typeArgumentList t'.children).map fun list =>
        list.namedChildren.map fun u => (ofTree? src u).getD object := by
  have hplace : ∀ l, t.kind.writesType l = false := fun l => by rw [hkind]; rfl
  refine map_eq_of_rel (h.lastOfKind? hplace .typeArgumentList) fun list list' hlist => ?_
  obtain ⟨hmem, hlistKind, hbelow⟩ := hlist
  have hcounts : ∀ u ∈ list.children,
      list.kind.writesType u.label = true → u.label.counts = true := by
    intro u _ hwrites
    rw [hlistKind] at hwrites
    exact hwrites
  refine map_eq_of_forall₂ (hbelow.namedChildren hcounts) fun u u' hu => ?_
  have hlt : u.size < t.size :=
    Nat.lt_trans (Tree.size_lt_of_mem_children hu.1) (Tree.size_lt_of_mem_children hmem)
  rw [ih u u' hlt hu.2.shortens]

theorem ofTree?_of_shortensBelow : ofTree? src t' = ofTree? src t := by
  have htext : src.text t' = src.text t := src.text_eq_of_label_eq h.label_eq
  rw [ofTree?_eq, ofTree?_eq src t, h.kind_eq, htext]
  split
  · rfl
  · rfl
  · rfl
  · next hgeneric =>
    have hplace : ∀ l, t.kind.writesType l = false := fun l => by rw [hgeneric]; rfl
    have hname := map_eq_of_rel (h.lastOfKind? hplace .identifier) fun u u' hu =>
      (src.text_eq_of_label_eq hu.2.2.label_eq).symm
    rw [hname, arguments_of_shortensBelow h ih hgeneric]
  · next hqualified => exact (simplePart?_of_shortensBelow h ih (by rw [hqualified]; rfl)).symm
  · next hqualified => exact (simplePart?_of_shortensBelow h ih (by rw [hqualified]; rfl)).symm
  · next hnullable => exact (nullable_of_shortensBelow h ih hnullable).symm
  · rw [bind_eq_of_rel (h.child? .type) fun _ _ => ofTree?_eq_of_child ih]
  · rfl
  · rfl

end Level

/-- A written type denotes what it did. -/
theorem ofTree?_of_shortens {t t' : Tree} (h : Shortens may t t') :
    ofTree? src t' = ofTree? src t := by
  match h with
  | .inside h =>
    exact ofTree?_of_shortensBelow h fun u u' _ hu => ofTree?_of_shortens hu
  | .name _ hkind hname _ hu =>
    rw [ofTree?_inField, ofTree?_of_shortens hu, ofTree?_of_name src hkind hname]
termination_by t.size
decreasing_by
  · assumption
  · exact Tree.size_lt_of_mem_children (Tree.mem_children_of_child? hname)

theorem declared?_of_shortensBelow {t t' : Tree} (h : ShortensBelow may t t') :
    declared? src t' = declared? src t :=
  (bind_eq_of_rel (h.child? .type) fun _ _ hu =>
    (ofTree?_of_shortens src hu.2.shortens).symm).symm

-- ========================================================= what is missing

/-- The part of a written type that is left when all qualification is
taken off; none where it ends in a name without parts. -/
def simple? (t : Tree) : Option Tree :=
  if t.kind.qualifies then
    match _h : simplePart? t with
    | none => none
    | some u => simple? u
  else some t
termination_by t.size
decreasing_by exact Tree.size_lt_of_mem_children (mem_children_of_simplePart? ‹_›)

/-- The parts of an unqualified type that its type arguments are read
from; a part may be absent. -/
def parts (t : Tree) : List (Option Tree) :=
  match t.kind with
  | .genericName =>
    (((lastOfKind? .typeArgumentList t.children).map Tree.namedChildren).getD []).map some
  | .nullableType => [t.namedChildren.head?]
  | .arrayType => [t.child? .type]
  | _ => []

/-- The type argument that is read from a part: `Object` where the part is
absent or leaves its type open. -/
def argument (part : Option Tree) : Ty := (part.bind (ofTree? src)).getD object

/-- Whether an unqualified type is left open: it is `var`, or says that
something may be null but not what. -/
def leavesOpen (t : Tree) : Bool :=
  t.kind == .implicitType || (t.kind == .identifier && src.text t == "var")
    || (t.kind == .nullableType && t.namedChildren.isEmpty)

theorem qualifies_of_simple? {t s : Tree} (h : simple? t = some s) :
    s.kind.qualifies = false := by
  fun_induction simple? t with
  | case1 => cases h
  | case2 t _ u _ ih => exact ih h
  | case3 t hkind =>
    cases h
    exact Bool.eq_false_iff.2 hkind

/-- Only the simple part of a type counts. -/
theorem ofTree?_eq_simple? (t : Tree) : ofTree? src t = (simple? t).bind (ofTree? src) := by
  fun_induction simple? t with
  | case1 t hkind hnone =>
    rw [ofTree?_of_qualifies src hkind, hnone, Option.bind_none]
  | case2 t hkind u hsome ih =>
    rw [ofTree?_of_qualifies src hkind, hsome]
    exact ih
  | case3 => rfl

theorem ofTree?_of_leavesOpen {s : Tree} (h : leavesOpen src s = true) : ofTree? src s = none := by
  unfold leavesOpen at h
  simp only [Bool.or_eq_true, Bool.and_eq_true, beq_iff_eq, List.isEmpty_iff] at h
  rw [ofTree?_eq]
  rcases h with (hkind | ⟨hkind, hvar⟩) | ⟨hkind, hnone⟩
  · rw [hkind]
  · rw [hkind]
    exact if_pos hvar
  · rw [hkind, hnone]
    rfl

/-- An unqualified type that is not left open has all its arguments. -/
theorem exists_name_of_not_leavesOpen {s : Tree} (hqualified : s.kind.qualifies = false)
    (hopen : leavesOpen src s = false) :
    ∃ name, ofTree? src s = some (mk name ((parts s).map (argument src))) := by
  unfold leavesOpen at hopen
  simp only [Bool.or_eq_false_iff, Bool.and_eq_false_iff, beq_eq_false_iff_ne] at hopen
  obtain ⟨⟨himplicit, hvar⟩, hnullable⟩ := hopen
  rw [ofTree?_eq]
  unfold parts
  split
  · next hkind => exact absurd hkind himplicit
  · next hkind =>
    rw [hkind]
    exact ⟨_, rfl⟩
  · next hkind =>
    rw [hkind]
    exact ⟨_, if_neg (hvar.resolve_left (not_not_intro hkind))⟩
  · next hkind =>
    rw [hkind]
    refine ⟨_, congrArg (fun args => some (mk _ args)) ?_⟩
    cases lastOfKind? .typeArgumentList s.children with
    | none => rfl
    | some list => exact (List.map_map (f := some) (g := argument src)).symm
  · next hkind =>
    rw [hkind] at hqualified
    cases hqualified
  · next hkind =>
    rw [hkind] at hqualified
    cases hqualified
  · next hkind =>
    rw [hkind]
    cases hparts : s.namedChildren with
    | nil =>
      rw [hparts] at hnullable
      cases hnullable.resolve_left (not_not_intro hkind)
    | cons u us => exact ⟨_, rfl⟩
  · next hkind =>
    rw [hkind]
    exact ⟨_, rfl⟩
  · next hkind =>
    rw [hkind]
    exact ⟨_, rfl⟩
  · -- of the other kinds none has arguments
    split
    case h_4 => exact ⟨_, rfl⟩
    all_goals contradiction

/-- The arguments of a written type are those of its parts, one for each,
and `Object` for a part that is absent or left open. -/
theorem args_of_ofTree? {t : Tree} {ty : Ty} (h : ofTree? src t = some ty) :
    ∃ s, simple? t = some s ∧ ty.args = (parts s).map (argument src) := by
  rw [ofTree?_eq_simple?] at h
  obtain ⟨s, hs, hty⟩ := Option.bind_eq_some_iff.1 h
  refine ⟨s, hs, ?_⟩
  cases hopen : leavesOpen src s with
  | true =>
    rw [ofTree?_of_leavesOpen src hopen] at hty
    cases hty
  | false =>
    obtain ⟨name, hname⟩ := exists_name_of_not_leavesOpen src (qualifies_of_simple? hs) hopen
    rw [hname] at hty
    cases hty
    rfl

/-- A written type has no answer exactly if it is left open at the
outermost level. -/
theorem ofTree?_eq_none_iff {t : Tree} :
    ofTree? src t = none ↔ ∀ s, simple? t = some s → leavesOpen src s = true := by
  rw [ofTree?_eq_simple?, Option.bind_eq_none_iff]
  constructor
  · intro h s hs
    by_contra hopen
    obtain ⟨name, hname⟩ := exists_name_of_not_leavesOpen src (qualifies_of_simple? hs)
      (Bool.eq_false_iff.2 hopen)
    rw [h s hs] at hname
    cases hname
  · intro h s hs
    exact ofTree?_of_leavesOpen src (h s hs)

end Ty

end QueryLint
