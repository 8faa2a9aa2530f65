/-
Qualified names and what a name means. A node that is no part of a cut
name is still there, with the same label, and the nodes around it are
still around it (`Cursor.Shortens`). The expressions and declarations
that a scope is read for are of that sort: they are found by kind, and no
name is among them, or in fields that hold no types.

So a scope binds a name to what it bound it to. Where that is a type as
written, it is the same type; where it is the type of another expression,
that expression is still there (`Binding.Shortens`).
-/
import QueryLint.Proofs.Chain.Partition
import QueryLint.Proofs.Declaration.Qualification

namespace QueryLint

open QueryLint.Tree (IsPlain ShortensBelow ShortensChild)

-- ================================================================= cursors

/-- One level of the way down to a node that is still there. -/
structure Frame.Shortens (f f' : Frame) : Prop where
  label : f'.label = f.label
  left : List.Forall₂ (ShortensChild IsPlain f.label.kind) f.left f'.left
  right : List.Forall₂ (ShortensChild IsPlain f.label.kind) f.right f'.right

theorem Frame.Shortens.plug {f f' : Frame} {t t' : Tree} (hf : f.Shortens f')
    (ht : ShortensBelow IsPlain t t') : ShortensBelow IsPlain (f.plug t) (f'.plug t') := by
  unfold Frame.plug
  rw [hf.label]
  refine .node (.of_forall₂ ?_)
  exact List.rel_append (List.rel_reverse hf.left) (.cons (.inl ht) hf.right)

namespace Cursor

/-- The node at `c` is still there, and it is at `c'`. -/
structure Shortens (c c' : Cursor) : Prop where
  focus : ShortensBelow IsPlain c.focus c'.focus
  path : List.Forall₂ Frame.Shortens c.path c'.path

/-- The node at `c`, a child of a node of kind `k`, or what has become of
it, is at `c'`. -/
structure ShortensIn (k : Kind) (c c' : Cursor) : Prop where
  focus : ShortensChild IsPlain k c.focus c'.focus
  path : List.Forall₂ Frame.Shortens c.path c'.path

theorem ShortensIn.shortens {k : Kind} {c c' : Cursor} (h : ShortensIn k c c')
    (hplace : k.writesType c.label = false) : c.Shortens c' :=
  ⟨h.focus.below hplace, h.path⟩

namespace Shortens

variable {c c' : Cursor} (h : c.Shortens c')

include h

theorem label_eq : c'.label = c.label := h.focus.label_eq

theorem kind_eq : c'.kind = c.kind := h.focus.kind_eq

theorem start_eq : c'.start = c.start := by
  unfold start
  rw [h.label_eq]

theorem covers_eq (offset : Nat) : c'.covers offset = c.covers offset := by
  unfold covers start stop
  rw [h.label_eq]

/-- The nodes around it are still there. -/
theorem ancestors : List.Forall₂ Shortens c.ancestors c'.ancestors := by
  obtain ⟨t, path⟩ := c
  obtain ⟨t', path'⟩ := c'
  obtain ⟨ht, hpath⟩ := h
  unfold Cursor.ancestors
  dsimp only at ht hpath ⊢
  induction hpath generalizing t t' with
  | nil => exact .nil
  | cons hf hup ih => exact .cons ⟨hf.plug ht, hup⟩ (ih _ _ (hf.plug ht))

end Shortens

theorem along_of_shortens {l : Label} {up up' : List Frame}
    (hup : List.Forall₂ Frame.Shortens up up') {before before' after after' : List Tree}
    (hbefore : List.Forall₂ (ShortensChild IsPlain l.kind) before before')
    (hafter : List.Forall₂ (ShortensChild IsPlain l.kind) after after') :
    List.Forall₂ (ShortensIn l.kind) (along l up before after) (along l up' before' after') := by
  induction hafter generalizing before before' with
  | nil => exact .nil
  | cons ht hafter ih =>
    exact .cons ⟨ht, .cons ⟨rfl, hbefore, hafter⟩ hup⟩ (ih (.cons ht hbefore))

/-- Parentheses that hold nothing are themselves the expression. -/
theorem unwrap_of_head?_eq_none {c : Cursor} (h : c.namedChildren.head? = none) :
    c.unwrap = c := by
  unfold unwrap
  split
  · split
    · next heq =>
      rw [h] at heq
      cases heq
    · rfl
  · rfl

namespace Shortens

variable {c c' : Cursor} (h : c.Shortens c')

include h

-- ================================================================ children

theorem childrenIn : List.Forall₂ (ShortensIn c.kind) c.children c'.children := by
  unfold Cursor.children
  rw [h.label_eq]
  exact along_of_shortens h.path .nil (h.focus.children.imp fun _ _ hu => hu.2)

/-- Below a node that has no types for children, all children are still
there. -/
theorem children (hplace : ∀ l, c.kind.writesType l = false) :
    List.Forall₂ Shortens c.children c'.children :=
  h.childrenIn.imp fun d _ hd => hd.shortens (hplace d.label)

theorem namedChildren (hplace : ∀ l, c.kind.writesType l = false) :
    List.Forall₂ Shortens c.namedChildren c'.namedChildren := by
  refine forall₂_filter (h.children hplace) ?_ fun d d' hd _ => hd
  intro d d' hd
  rw [hd.label_eq]

theorem child? {f : Field} (hplace : ∀ l : Label, l.field = some f → c.kind.writesType l = false) :
    Option.Rel Shortens (c.child? f) (c'.child? f) := by
  refine rel_find? h.childrenIn ?_ ?_
  · intro d d' hd
    show (d.label.field == some f) = (d'.focus.label.field == some f)
    rw [hd.focus.field_eq]
    rfl
  · intro d d' hd hf
    exact hd.shortens (hplace d.label (beq_iff_eq.1 hf))

/-- The name of a type declaration. -/
theorem name (hkind : c.kind.declaresType = true) :
    Option.Rel Shortens (c.child? .name) (c'.child? .name) :=
  h.child? fun l _ => Kind.writesType_of_declaresType hkind l

/-- Nodes that are found by a kind other than a name's are still there. -/
theorem namedOfKind {k : Kind} (hk : k.isName = false) :
    List.Forall₂ (fun d d' => d.kind = k ∧ d.Shortens d') (c.namedOfKind k)
      (c'.namedOfKind k) := by
  refine (Tree.forall₂_filter_named Cursor.focus h.childrenIn ?_
    fun _ => Kind.beq_eq_false_of_isName hk).imp fun d d' hd => ⟨beq_iff_eq.1 hd.1, hd.2⟩
  intro d d' hd
  exact hd.focus.below_or_isName.imp_left fun hbelow => ⟨⟨hbelow, hd.path⟩, hbelow.label_eq⟩

-- ============================================================= expressions

/-- The expression in parentheses. -/
theorem unwrap : c.unwrap.Shortens c'.unwrap := by
  fun_induction Cursor.unwrap c generalizing c' with
  | case1 c hkind inner hinner ih =>
    have hhead := rel_head? (h.namedChildren fun l => by rw [hkind]; rfl)
    rw [hinner] at hhead
    generalize hinner' : c'.namedChildren.head? = x at hhead
    cases hhead with
    | some hi =>
      rw [unwrap_of_head? (h.kind_eq.trans hkind) hinner']
      exact ih hi
  | case2 c hkind hnone =>
    have hhead := rel_head? (h.namedChildren fun l => by rw [hkind]; rfl)
    rw [hnone] at hhead
    generalize hnone' : c'.namedChildren.head? = x at hhead
    cases hhead with
    | none =>
      rw [unwrap_of_head?_eq_none hnone']
      exact h
  | case3 c hkind =>
    rw [unwrap_of_kind_ne fun hkind' => hkind (h.kind_eq.symm.trans hkind')]
    exact h

theorem argumentValue? (hkind : c.kind = .argument) :
    Option.Rel Shortens c.argumentValue? c'.argumentValue? := by
  refine rel_getLast? (forall₂_filter (h.namedChildren fun l => by rw [hkind]; rfl) ?_ ?_)
  · intro d d' hd
    rw [hd.kind_eq]
  · intro d d' hd _
    exact hd

theorem arguments (hkind : c.kind = .invocation) :
    List.Forall₂ Shortens c.arguments c'.arguments := by
  have hlist := h.child? (f := .arguments) fun l _ => by rw [hkind]; rfl
  unfold Cursor.arguments
  generalize c.child? .arguments = list at hlist ⊢
  generalize c'.child? .arguments = list' at hlist ⊢
  cases hlist with
  | none => exact .nil
  | some hl =>
    exact List.rel_filterMap (fun d d' hd => hd.2.argumentValue? hd.1) (hl.namedOfKind rfl)

/-- The receiver and the name of a call. -/
theorem memberCall? :
    Option.Rel (fun parts parts' => parts.1.Shortens parts'.1 ∧ parts.2.Shortens parts'.2)
      c.memberCall? c'.memberCall? := by
  unfold Cursor.memberCall?
  rw [h.kind_eq]
  split
  · next hkind =>
    have haccess := h.child? (f := .function) fun l _ => by rw [hkind]; rfl
    generalize c.child? .function = access at haccess ⊢
    generalize c'.child? .function = access' at haccess ⊢
    cases haccess with
    | none => exact .none
    | @some access access' ha =>
      simp only [ha.kind_eq]
      split
      · next hkind' =>
        have hplace : ∀ f : Field, ∀ l : Label, l.field = some f →
            access.kind.writesType l = false := fun f l _ => by rw [hkind']; rfl
        have hreceiver := ha.child? (hplace .expression)
        have hname := ha.child? (hplace .name)
        generalize access.child? .expression = receiver at hreceiver ⊢
        generalize access'.child? .expression = receiver' at hreceiver ⊢
        generalize access.child? .name = name at hname ⊢
        generalize access'.child? .name = name' at hname ⊢
        cases hreceiver with
        | none => exact .none
        | some hr =>
          cases hname with
          | none => exact .none
          | some hn => exact .some ⟨hr, hn⟩
      · exact .none
  · exact .none

theorem lambdaParameters? :
    Option.Rel (List.Forall₂ fun d d' => d.kind = .parameter ∧ d.Shortens d')
      c.lambdaParameters? c'.lambdaParameters? := by
  unfold Cursor.lambdaParameters?
  rw [h.kind_eq]
  split
  · next hkind =>
    have hlist := h.child? (f := .parameters) fun l _ => by rw [hkind]; rfl
    generalize c.child? .parameters = list at hlist ⊢
    generalize c'.child? .parameters = list' at hlist ⊢
    cases hlist with
    | none => exact .none
    | some hl =>
      simp only [hl.kind_eq]
      split
      · exact .some (hl.namedOfKind rfl)
      · exact .none
  · exact .none

theorem lambdaArity?_eq (hkind : c.kind = .invocation) : c'.lambdaArity? = c.lambdaArity? := by
  have harguments := h.arguments hkind
  unfold Cursor.lambdaArity?
  generalize c.arguments = args at harguments ⊢
  generalize c'.arguments = args' at harguments ⊢
  cases harguments with
  | nil => rfl
  | cons hfirst _ =>
    simp only [hfirst.kind_eq]
    rw [map_eq_of_rel hfirst.lambdaParameters? fun _ _ hparameters => hparameters.length_eq]

theorem simpleName_eq (src : Source) : src.simpleName c'.focus = src.simpleName c.focus := by
  have htext := src.text_eq_of_label_eq h.label_eq
  unfold Source.simpleName
  rw [show c'.focus.kind = c.focus.kind from h.kind_eq, htext]
  split
  · next hkind =>
    have hplace : ∀ l, c.focus.kind.writesType l = false := fun l => by rw [hkind]; rfl
    have hfind := rel_head? (h.focus.childrenOfKind hplace .identifier)
    rw [List.head?_filter, List.head?_filter] at hfind
    generalize c.focus.children.find? (·.kind == .identifier) = x at hfind ⊢
    generalize c'.focus.children.find? (·.kind == .identifier) = x' at hfind ⊢
    cases hfind with
    | none => exact htext
    | some hu => exact src.text_eq_of_label_eq hu.2.2.label_eq
  · rfl

theorem declarator (hkind : c.kind = .variableDeclarator) :
    Option.Rel Shortens c.declarator.name c'.declarator.name
      ∧ Option.Rel Shortens c.declarator.value c'.declarator.value := by
  have hplace : ∀ l, c.kind.writesType l = false := fun l => by rw [hkind]; rfl
  refine Declarator.rel_scan (fun d d' hd => hd.label_eq) ?_ (h.children hplace)
    (h.child? fun l _ => hplace l) .none rfl
  intro d d' hd hclause
  exact rel_head? (hd.namedChildren fun l => by rw [show d.kind = _ from hclause]; rfl)

end Shortens

-- ========================================================== what is there

/-- Whether a node is no qualified name, nor in one. -/
def OutsideNames (c : Cursor) : Prop := ∀ a ∈ c :: c.ancestors, a.kind.qualifies = false

/-- A node that is no part of a qualified name is still there. -/
theorem exists_shortens {t t' : Tree} (h : ShortensBelow IsPlain t t') {c : Cursor}
    (htop : c.top = t) (hnames : c.OutsideNames) : ∃ c', c.Shortens c' ∧ c'.top = t' := by
  obtain ⟨u, path⟩ := c
  -- down from the root, along the path
  induction path generalizing u with
  | nil =>
    cases htop
    exact ⟨t'.root, ⟨h, .nil⟩, rfl⟩
  | cons f up ih =>
    obtain ⟨p', hp, htop'⟩ := ih (f.plug u) htop fun a ha => hnames a (List.mem_cons_of_mem _ ha)
    have hmem : (⟨u, f :: up⟩ : Cursor) ∈ (⟨f.plug u, up⟩ : Cursor).children :=
      mem_children_iff.2 rfl
    obtain ⟨c', hc', hin⟩ := exists_mem_of_forall₂ hp.childrenIn hmem
    have hkind : u.kind.qualifies = false := hnames _ List.mem_cons_self
    refine ⟨c', ⟨hin.focus.shortens.below_of_kind hkind, hin.path⟩, ?_⟩
    rw [top_eq_of_parent? (mem_children_iff.1 hc'), htop']

end Cursor

-- ================================================================== scopes

/-- What a name is bound to is the same, or still there. -/
inductive Binding.Shortens : Binding → Binding → Prop
  | typed (type : Option Ty) : Shortens (.typed type) (.typed type)
  | typeOf {value value' : Cursor} (h : value.Shortens value') :
      Shortens (.typeOf value) (.typeOf value')
  | elementOf {collection collection' : Cursor} (h : collection.Shortens collection') :
      Shortens (.elementOf collection) (.elementOf collection')

namespace Model

variable (m : Model) {c c' : Cursor}

theorem text_of_shortens (h : c.Shortens c') : m.text c' = m.text c :=
  m.source.text_eq_of_label_eq h.label_eq

theorem declared?_of_shortens (h : c.Shortens c') : m.declared? c' = m.declared? c :=
  Ty.declared?_of_shortensBelow m.source h.focus

theorem isNamed_of_shortens (h : c.Shortens c') (hkind : c.kind = .parameter) (name : String) :
    m.isNamed c' name = m.isNamed c name := by
  have hname := h.child? (f := .name) fun l hl => by
    rw [hkind]
    simp [Kind.writesType, hl]
  unfold isNamed
  generalize c.child? .name = n at hname ⊢
  generalize c'.child? .name = n' at hname ⊢
  cases hname with
  | none => rfl
  | some hn =>
    show (m.text _ == name) = (m.text _ == name)
    rw [m.text_of_shortens hn]

theorem inParameters_of_shortens {parameters parameters' : List Cursor}
    (h : List.Forall₂ (fun p p' => p.kind = .parameter ∧ p.Shortens p') parameters parameters')
    (use : Use) :
    Option.Rel Binding.Shortens (m.inParameters parameters use)
      (m.inParameters parameters' use) := by
  refine rel_map (rel_find? h ?_ fun p p' hp _ => hp) ?_
  · intro p p' hp
    rw [m.isNamed_of_shortens hp.2 hp.1]
  · intro p p' hp
    rw [m.declared?_of_shortens hp.2]
    exact .typed _

theorem inLambda_of_shortens (h : c.Shortens c') (hkind : c.kind = .lambda) (use : Use) :
    Option.Rel Binding.Shortens (m.inLambda c use) (m.inLambda c' use) := by
  have hparameters := h.lambdaParameters?
  have hsingle := h.child? (f := .parameters) fun l _ => by rw [hkind]; rfl
  unfold inLambda
  generalize c.lambdaParameters? = parameters at hparameters ⊢
  generalize c'.lambdaParameters? = parameters' at hparameters ⊢
  cases hparameters with
  | some hp => exact m.inParameters_of_shortens hp use
  | none =>
    generalize c.child? .parameters = single at hsingle ⊢
    generalize c'.child? .parameters = single' at hsingle ⊢
    cases hsingle with
    | none => exact .none
    | some hs =>
      simp only [m.text_of_shortens hs]
      split
      · exact .some (.typed none)
      · exact .none

theorem inCallable_of_shortens (h : c.Shortens c') (hkind : c.kind.declaresCallable = true)
    (use : Use) : Option.Rel Binding.Shortens (m.inCallable c use) (m.inCallable c' use) := by
  have hlist := h.child? (f := .parameters) fun l hl => by
    revert hkind
    cases c.kind <;> simp [Kind.declaresCallable, Kind.writesType, hl]
  unfold inCallable
  generalize c.child? .parameters = list at hlist ⊢
  generalize c'.child? .parameters = list' at hlist ⊢
  cases hlist with
  | none => exact .none
  | some hl => exact m.inParameters_of_shortens (hl.namedOfKind rfl) use

theorem declares_of_shortens (h : c.Shortens c') (hkind : c.kind = .variableDeclarator)
    (use : Use) : m.declares c' use = m.declares c use := by
  have hname := (h.declarator hkind).1
  unfold declares
  rw [h.covers_eq]
  generalize c.declarator.name = name at hname ⊢
  generalize c'.declarator.name = name' at hname ⊢
  cases hname with
  | none => rfl
  | some hn => simp only [m.text_of_shortens hn]

theorem inVariables_of_shortens (h : c.Shortens c') (use : Use) :
    Option.Rel Binding.Shortens (m.inVariables c use) (m.inVariables c' use) := by
  have hfind := rel_find? (h.namedOfKind (k := .variableDeclarator) rfl)
    (fun d d' hd => (m.declares_of_shortens hd.2 hd.1 use).symm) fun d d' hd _ => hd
  refine rel_map hfind fun d d' hd => ?_
  rw [m.declared?_of_shortens h]
  cases m.declared? c with
  | some type => exact .typed _
  | none =>
    have hvalue := (hd.2.declarator hd.1).2
    generalize d.declarator.value = value at hvalue ⊢
    generalize d'.declarator.value = value' at hvalue ⊢
    cases hvalue with
    | none => exact .typed none
    | some hv => exact .typeOf hv

theorem inHead_of_shortens (h : c.Shortens c') (use : Use) :
    Option.Rel Binding.Shortens (m.inHead c use) (m.inHead c' use) :=
  rel_findSome? (h.namedOfKind rfl) fun _ _ hd => m.inVariables_of_shortens hd.2 use

theorem inBlock_of_shortens (h : c.Shortens c') (hkind : c.kind = .block) (use : Use) :
    Option.Rel Binding.Shortens (m.inBlock c use) (m.inBlock c' use) := by
  have hstatements := forall₂_takeWhile (p := fun d => decide (d.start < use.offset))
    (q := fun d => decide (d.start < use.offset))
    (h.namedChildren fun l => by rw [hkind]; rfl) fun d d' hd => by rw [hd.start_eq]
  refine rel_findSome? hstatements fun d d' hd => ?_
  rw [hd.kind_eq]
  split
  · exact m.inHead_of_shortens hd use
  · exact .none

theorem inForEach_of_shortens (h : c.Shortens c') (hkind : c.kind = .forEachStatement)
    (use : Use) : Option.Rel Binding.Shortens (m.inForEach c use) (m.inForEach c' use) := by
  have hplace : ∀ f : Field, f ≠ .type → ∀ l : Label, l.field = some f →
      c.kind.writesType l = false := by
    intro f hf l hl
    rw [hkind]
    simp [Kind.writesType, hl, hf]
  have hleft := h.child? (hplace .left (by decide))
  have hright := h.child? (hplace .right (by decide))
  unfold inForEach
  rw [m.declared?_of_shortens h]
  generalize c.child? .left = item at hleft ⊢
  generalize c'.child? .left = item' at hleft ⊢
  cases hleft with
  | none => exact .none
  | some hi =>
    simp only [m.text_of_shortens hi]
    split
    · exact .none
    generalize c.child? .right = collection at hright ⊢
    generalize c'.child? .right = collection' at hright ⊢
    cases hright with
    | none => exact .some (.typed _)
    | some hcollection =>
      simp only [hcollection.covers_eq]
      split
      · exact .none
      cases m.declared? c with
      | none => exact .some (.elementOf hcollection)
      | some type => exact .some (.typed _)

theorem inType_of_shortens (h : c.Shortens c') (hkind : c.kind.declaresType = true) (use : Use) :
    Option.Rel Binding.Shortens (m.inType c use) (m.inType c' use) := by
  have hname := h.name hkind
  unfold inType
  generalize c.child? .name = name at hname ⊢
  generalize c'.child? .name = name' at hname ⊢
  cases hname with
  | none => exact .none
  | @some name name' hn =>
    simp only [m.text_of_shortens hn]
    cases m.index.memberType? (m.text name) use.name with
    | none => exact .none
    | some type => exact .some (.typed _)

/-- A scope binds names as it did. -/
theorem binding?_of_shortens (h : c.Shortens c') (use : Use) :
    Option.Rel Binding.Shortens (m.binding? c use) (m.binding? c' use) := by
  unfold binding?
  rw [h.kind_eq]
  split
  · next hkind => exact m.inLambda_of_shortens h hkind use
  split
  · next hkind => exact m.inCallable_of_shortens h hkind use
  split
  · next hkind => exact m.inBlock_of_shortens h hkind use
  split
  · next hkind => exact m.inForEach_of_shortens h hkind use
  split
  · exact m.inHead_of_shortens h use
  split
  · next hkind => exact m.inType_of_shortens h hkind use
  · exact .none

/-- A name means what it meant. -/
theorem meaning?_of_shortens (h : c.Shortens c') :
    Option.Rel Binding.Shortens (m.meaning? c) (m.meaning? c') := by
  unfold meaning?
  rw [m.text_of_shortens h, h.start_eq]
  exact rel_findSome? h.ancestors fun scope scope' hscope => m.binding?_of_shortens hscope _

theorem enclosing?_of_shortens (h : c.Shortens c') : m.enclosing? c' = m.enclosing? c := by
  have hfind := rel_find? (p := (·.kind.declaresType)) (q := (·.kind.declaresType)) h.ancestors
    (fun scope scope' hscope => by rw [hscope.kind_eq])
    fun scope scope' hscope hkind => And.intro hkind hscope
  unfold enclosing?
  generalize c.ancestors.find? (·.kind.declaresType) = x at hfind ⊢
  generalize c'.ancestors.find? (·.kind.declaresType) = x' at hfind ⊢
  cases hfind with
  | none => rfl
  | some hscope =>
    refine (map_eq_of_rel (hscope.2.name hscope.1) fun n n' hn => ?_).symm
    rw [m.text_of_shortens hn]

end Model

end QueryLint
