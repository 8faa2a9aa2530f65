/-
Trees without their comments. Deleting some nodes of a tree is `erase`;
what is deleted here are loose comments, which hold nothing and fill no
field of their parent. To compare a tree with what is left of it, both
are compared with the tree that has no comments at all.

# Remarks

Taking a comment out of a comment may leave one that is loose in its
turn, so what `strip` takes out are the remarks: subtrees that consist of
comments without a field and nothing else. Deleting loose comments then
does not change what `strip` gives (`strip_erase`).

# What stripping keeps

Every way of looking at a tree that asks for more than a remark offers
goes through `strip`: the children that count, the child in a field and,
from a node that is no remark itself, the nodes around it. So each
reading has one equation here, and what is built from these readings is
compared without going back to the tree.
-/
import QueryLint.Proofs.Tree.Position

namespace QueryLint

-- ================================================================= remarks

/-- Whether a label is that of a comment that fills no field. -/
def Label.isRemark (l : Label) : Bool := l.kind == .comment && l.field == none

theorem Label.kind_of_isRemark {l : Label} (h : l.isRemark = true) : l.kind = .comment := by
  unfold isRemark at h
  simp only [Bool.and_eq_true, beq_iff_eq] at h
  exact h.1

theorem Label.field_of_isRemark {l : Label} (h : l.isRemark = true) : l.field = none := by
  unfold isRemark at h
  simp only [Bool.and_eq_true, beq_iff_eq] at h
  exact h.2

/-- A property of labels that remarks do not have. -/
def Label.Skips (p : Label → Bool) : Prop := ∀ l : Label, l.isRemark = true → p l = false

theorem Label.skips_counts : Skips counts := by
  intro l h
  simp [counts, kind_of_isRemark h]

theorem Label.skips_field (f : Field) : Skips (·.field == some f) := by
  intro l h
  simp [field_of_isRemark h]

theorem Label.skips_kind {k : Kind} (hk : k ≠ .comment) : Skips (·.kind == k) := by
  intro l h
  simpa [kind_of_isRemark h] using Ne.symm hk

namespace Tree

mutual

/-- Whether a tree holds nothing but comments, none of them in a field. -/
def isRemark : Tree → Bool
  | node l ts => l.isRemark && areRemarks ts

def areRemarks : List Tree → Bool
  | [] => true
  | t :: ts => t.isRemark && areRemarks ts

end

mutual

/-- The tree without the remarks below its root. -/
def strip : Tree → Tree
  | node l ts => node l (stripAll ts)

/-- Several trees without the remarks among them and in them. -/
def stripAll : List Tree → List Tree
  | [] => []
  | t :: ts => if t.isRemark then stripAll ts else t.strip :: stripAll ts

end

theorem label_of_isRemark {t : Tree} (h : t.isRemark = true) : t.label.isRemark = true := by
  cases t with
  | node l ts =>
    rw [isRemark, Bool.and_eq_true] at h
    exact h.1

theorem areRemarks_append (ts us : List Tree) :
    areRemarks (ts ++ us) = (areRemarks ts && areRemarks us) := by
  induction ts with
  | nil => rfl
  | cons t ts ih => simp only [List.cons_append, areRemarks, ih, Bool.and_assoc]

@[simp]
theorem label_strip (t : Tree) : t.strip.label = t.label := by
  cases t with
  | node l ts => rfl

@[simp]
theorem kind_strip (t : Tree) : t.strip.kind = t.kind := by
  unfold kind
  rw [label_strip]

theorem children_strip (t : Tree) : t.strip.children = stripAll t.children := by
  cases t with
  | node l ts => rfl

theorem stripAll_of_isRemark {t : Tree} (ts : List Tree) (h : t.isRemark = true) :
    stripAll (t :: ts) = stripAll ts := by
  rw [stripAll, if_pos h]

theorem stripAll_of_not_isRemark {t : Tree} (ts : List Tree) (h : t.isRemark = false) :
    stripAll (t :: ts) = t.strip :: stripAll ts := by
  rw [stripAll, h]
  rfl

theorem stripAll_eq (ts : List Tree) : stripAll ts = (ts.filter (!·.isRemark)).map strip := by
  induction ts with
  | nil => rfl
  | cons t ts ih =>
    rw [List.filter_cons]
    cases h : t.isRemark with
    | true =>
      rw [stripAll_of_isRemark _ h, ih]
      rfl
    | false =>
      rw [stripAll_of_not_isRemark _ h, ih]
      rfl

theorem stripAll_append (ts us : List Tree) :
    stripAll (ts ++ us) = stripAll ts ++ stripAll us := by
  simp only [stripAll_eq, List.filter_append, List.map_append]

theorem stripAll_reverse (ts : List Tree) : stripAll ts.reverse = (stripAll ts).reverse := by
  simp only [stripAll_eq, List.filter_reverse, List.map_reverse]

end Tree

-- ============================================================ looking down

/-- A filter that passes over remarks does not notice that they are gone. -/
theorem filter_map_of_skips {α : Type} {label : α → Label} {strip : α → α} {gone : α → Bool}
    (hlabel : ∀ x, label (strip x) = label x)
    (hgone : ∀ x, gone x = true → (label x).isRemark = true) {p : Label → Bool}
    (hp : Label.Skips p) (xs : List α) :
    ((xs.filter (!gone ·)).map strip).filter (fun x => p (label x))
      = (xs.filter fun x => p (label x)).map strip := by
  rw [List.filter_map, List.filter_filter]
  refine congrArg (List.map strip) (List.filter_congr fun x _ => ?_)
  rw [Function.comp_apply, hlabel]
  cases hx : gone x with
  | true => rw [hp _ (hgone x hx), Bool.false_and]
  | false => rw [Bool.not_false, Bool.and_true]

namespace Tree

theorem filter_stripAll {p : Label → Bool} (hp : Label.Skips p) (ts : List Tree) :
    (stripAll ts).filter (p ·.label) = (ts.filter (p ·.label)).map strip := by
  rw [stripAll_eq]
  exact filter_map_of_skips label_strip (fun _ => label_of_isRemark) hp ts

theorem find?_stripAll {p : Label → Bool} (hp : Label.Skips p) (ts : List Tree) :
    (stripAll ts).find? (p ·.label) = (ts.find? (p ·.label)).map strip := by
  rw [← List.head?_filter, ← List.head?_filter, filter_stripAll hp, List.head?_map]

@[simp]
theorem namedChildren_strip (t : Tree) : t.strip.namedChildren = t.namedChildren.map strip := by
  unfold namedChildren
  rw [children_strip]
  exact filter_stripAll Label.skips_counts _

@[simp]
theorem namedOfKind_strip (t : Tree) (k : Kind) :
    t.strip.namedOfKind k = (t.namedOfKind k).map strip := by
  unfold namedOfKind
  rw [namedChildren_strip, List.filter_map]
  congr 2
  funext u
  simp

@[simp]
theorem child?_strip (t : Tree) (f : Field) : t.strip.child? f = (t.child? f).map strip := by
  unfold child?
  rw [children_strip]
  exact find?_stripAll (Label.skips_field f) _

end Tree

def Frame.strip (f : Frame) : Frame := ⟨f.label, Tree.stripAll f.left, Tree.stripAll f.right⟩

theorem Frame.plug_strip (f : Frame) {t : Tree} (h : t.isRemark = false) :
    f.strip.plug t.strip = (f.plug t).strip := by
  unfold plug strip
  rw [Tree.strip, Tree.stripAll_append, Tree.stripAll_reverse, Tree.stripAll_of_not_isRemark _ h]

/-- What holds more than comments makes its parent do so. -/
theorem Frame.not_isRemark_plug (f : Frame) {t : Tree} (h : t.isRemark = false) :
    (f.plug t).isRemark = false := by
  unfold plug
  rw [Tree.isRemark, Tree.areRemarks_append, Tree.areRemarks, h, Bool.false_and, Bool.and_false,
    Bool.and_false]

namespace Cursor

/-- The node in the tree without remarks. -/
def strip (c : Cursor) : Cursor := ⟨c.focus.strip, c.path.map Frame.strip⟩

/-- Whether stripping takes the node out; the root always stays. -/
def isRemark (c : Cursor) : Bool := !c.path.isEmpty && c.focus.isRemark

theorem label_of_isRemark {c : Cursor} (h : c.isRemark = true) : c.label.isRemark = true := by
  unfold isRemark at h
  exact Tree.label_of_isRemark (Bool.and_eq_true_iff.1 h).2

@[simp]
theorem label_strip (c : Cursor) : c.strip.label = c.label := Tree.label_strip c.focus

@[simp]
theorem kind_strip (c : Cursor) : c.strip.kind = c.kind := by
  unfold kind
  rw [label_strip]

@[simp]
theorem start_strip (c : Cursor) : c.strip.start = c.start := by
  unfold start
  rw [label_strip]

@[simp]
theorem covers_strip (c : Cursor) (offset : Nat) : c.strip.covers offset = c.covers offset := by
  unfold covers start stop
  rw [label_strip]

theorem along_strip (l : Label) (up : List Frame) (before after : List Tree) :
    along l (up.map Frame.strip) (Tree.stripAll before) (Tree.stripAll after)
      = ((along l up before after).filter (!·.isRemark)).map strip := by
  induction after generalizing before with
  | nil => rfl
  | cons t after ih =>
    have hremark : isRemark ⟨t, ⟨l, before, after⟩ :: up⟩ = t.isRemark := rfl
    have hrest := ih (t :: before)
    rw [along, List.filter_cons, hremark]
    cases h : t.isRemark with
    | true =>
      rw [Tree.stripAll_of_isRemark _ h] at hrest ⊢
      exact hrest
    | false =>
      rw [Tree.stripAll_of_not_isRemark _ h] at hrest ⊢
      rw [along, hrest]
      rfl

theorem children_strip (c : Cursor) :
    c.strip.children = (c.children.filter (!·.isRemark)).map strip := by
  unfold children
  rw [label_strip]
  show along _ (c.path.map Frame.strip) (Tree.stripAll []) c.focus.strip.children = _
  rw [Tree.children_strip, along_strip]

theorem filter_children_strip {p : Label → Bool} (hp : Label.Skips p) (c : Cursor) :
    c.strip.children.filter (p ·.label) = (c.children.filter (p ·.label)).map strip := by
  rw [children_strip]
  exact filter_map_of_skips label_strip (fun _ => label_of_isRemark) hp c.children

@[simp]
theorem namedChildren_strip (c : Cursor) :
    c.strip.namedChildren = c.namedChildren.map strip :=
  filter_children_strip Label.skips_counts c

@[simp]
theorem namedOfKind_strip (c : Cursor) (k : Kind) :
    c.strip.namedOfKind k = (c.namedOfKind k).map strip := by
  unfold namedOfKind
  rw [namedChildren_strip, List.filter_map]
  congr 2
  funext d
  simp

@[simp]
theorem child?_strip (c : Cursor) (f : Field) : c.strip.child? f = (c.child? f).map strip := by
  unfold child?
  rw [← List.head?_filter, ← List.head?_filter, ← List.head?_map]
  exact congrArg List.head? (filter_children_strip (Label.skips_field f) c)

-- ============================================================== looking up

/-- What a reading that passes over remarks arrives at is no remark. -/
theorem not_isRemark_of_skips {p : Label → Bool} (hp : Label.Skips p) {c : Cursor}
    (hc : p c.label = true) : c.isRemark = false := by
  cases h : c.isRemark with
  | false => rfl
  | true =>
    rw [hp _ (label_of_isRemark h)] at hc
    cases hc

theorem not_isRemark_of_focus {c : Cursor} (h : c.focus.isRemark = false) :
    c.isRemark = false := by
  unfold isRemark
  rw [h, Bool.and_false]

theorem not_isRemark_of_mem_namedChildren {c d : Cursor} (h : d ∈ c.namedChildren) :
    d.isRemark = false :=
  not_isRemark_of_skips Label.skips_counts (List.mem_filter.1 h).2

theorem not_isRemark_of_child? {c d : Cursor} {f : Field} (h : c.child? f = some d) :
    d.isRemark = false := by
  have hfield := List.find?_some h
  exact not_isRemark_of_skips (Label.skips_field f) hfield

theorem above_strip {t : Tree} {path : List Frame} (h : isRemark ⟨t, path⟩ = false) :
    above t.strip (path.map Frame.strip) = (above t path).map strip := by
  induction path generalizing t with
  | nil => rfl
  | cons f up ih =>
    have ht : t.isRemark = false := h
    have hparent : isRemark ⟨f.plug t, up⟩ = false :=
      not_isRemark_of_focus (f.not_isRemark_plug ht)
    rw [List.map_cons, above, above, List.map_cons, f.plug_strip ht, ih hparent]
    rfl

theorem ancestors_strip {c : Cursor} (h : c.isRemark = false) :
    c.strip.ancestors = c.ancestors.map strip :=
  above_strip h

@[simp]
theorem fills_strip (c : Cursor) (f : Field) : c.strip.fills f = c.fills f := by
  obtain ⟨t, path⟩ := c
  cases path with
  | nil => rfl
  | cons frame up =>
    have hleft : (Tree.stripAll frame.left).all (·.label.field != some f)
        = frame.left.all (·.label.field != some f) := by
      rw [Tree.stripAll_eq, List.all_map, List.all_filter]
      congr 1
      funext t
      cases h : t.isRemark with
      | true =>
        rw [Label.field_of_isRemark (Tree.label_of_isRemark h)]
        rfl
      | false =>
        rw [Function.comp_apply, Tree.label_strip]
        rfl
    show ((label (strip _)).field == some f && (Tree.stripAll frame.left).all _) = _
    rw [label_strip, hleft]
    rfl

-- ================================================================ visiting

mutual

theorem isRemark_of_mem_visitFrom {f : Frame} {up : List Frame} {t : Tree}
    (ht : t.isRemark = true) {c : Cursor} (hc : c ∈ visitFrom (f :: up) t) :
    c.isRemark = true := by
  cases t with
  | node l ts =>
    rw [visitFrom] at hc
    rcases List.mem_cons.1 hc with rfl | hc
    · exact ht
    · rw [Tree.isRemark, Bool.and_eq_true] at ht
      exact isRemark_of_mem_visitAll ht.2 hc

theorem isRemark_of_mem_visitAll {l : Label} {path : List Frame} {before after : List Tree}
    (hts : Tree.areRemarks after = true) {c : Cursor} (hc : c ∈ visitAll l path before after) :
    c.isRemark = true := by
  cases after with
  | nil => cases hc
  | cons t after =>
    rw [Tree.areRemarks, Bool.and_eq_true] at hts
    rw [visitAll] at hc
    rcases List.mem_append.1 hc with hc | hc
    · exact isRemark_of_mem_visitAll hts.2 hc
    · exact isRemark_of_mem_visitFrom hts.1 hc

end

mutual

theorem visitFrom_strip {path : List Frame} {t : Tree} (h : isRemark ⟨t, path⟩ = false) :
    visitFrom (path.map Frame.strip) t.strip
      = ((visitFrom path t).filter (!·.isRemark)).map strip := by
  cases t with
  | node l ts =>
    rw [Tree.strip, visitFrom, visitFrom, List.filter_cons, h]
    have hrest := visitAll_strip l path [] ts
    rw [Tree.stripAll] at hrest
    rw [hrest]
    rfl

theorem visitAll_strip (l : Label) (path : List Frame) (before after : List Tree) :
    visitAll l (path.map Frame.strip) (Tree.stripAll before) (Tree.stripAll after)
      = ((visitAll l path before after).filter (!·.isRemark)).map strip := by
  cases after with
  | nil => rfl
  | cons t after =>
    have hrest := visitAll_strip l path (t :: before) after
    rw [visitAll, List.filter_append, List.map_append, ← hrest]
    cases h : t.isRemark with
    | true =>
      have hnone : (visitFrom (⟨l, before, after⟩ :: path) t).filter (!·.isRemark) = [] := by
        refine List.filter_eq_nil_iff.2 fun c hc => ?_
        simp [isRemark_of_mem_visitFrom h hc]
      rw [Tree.stripAll_of_isRemark _ h, Tree.stripAll_of_isRemark _ h, hnone, List.map_nil,
        List.append_nil]
    | false =>
      have hfirst : isRemark ⟨t, ⟨l, before, after⟩ :: path⟩ = false := h
      rw [Tree.stripAll_of_not_isRemark _ h, Tree.stripAll_of_not_isRemark _ h, visitAll,
        ← visitFrom_strip hfirst]
      rfl

end

end Cursor

/-- Stripping takes the remarks out of the visit and changes nothing in
its order. -/
theorem Tree.visit_strip (t : Tree) :
    t.strip.visit = (t.visit.filter (!·.isRemark)).map Cursor.strip := by
  have hroot : t.root.isRemark = false := rfl
  exact Cursor.visitFrom_strip hroot

-- ================================================================ deleting

namespace Tree

mutual

/-- What is left of `t`, which stands at `path`, without the nodes below
it that are to go. A node goes with all that is in it. -/
def eraseFrom (gone : Cursor → Bool) (path : List Frame) : Tree → Tree
  | node l ts => node l (eraseAll gone l path [] ts)

/-- What is left of the siblings `after`. -/
def eraseAll (gone : Cursor → Bool) (l : Label) (path : List Frame) :
    (before after : List Tree) → List Tree
  | _, [] => []
  | before, t :: after =>
    if gone ⟨t, ⟨l, before, after⟩ :: path⟩ then eraseAll gone l path (t :: before) after
    else eraseFrom gone (⟨l, before, after⟩ :: path) t :: eraseAll gone l path (t :: before) after

end

/-- The tree without some of the nodes below its root. -/
def erase (t : Tree) (gone : Cursor → Bool) : Tree := eraseFrom gone [] t

end Tree

/-- Whether a node is a comment that can go: it is not the root, fills no
field and holds nothing. -/
def Cursor.isLooseComment (c : Cursor) : Bool :=
  !c.path.isEmpty && c.label.isRemark && c.focus.children.isEmpty

theorem Cursor.exists_of_isLooseComment {c : Cursor} (h : c.isLooseComment = true) :
    ∃ l, l.isRemark = true ∧ c.focus = .node l [] := by
  obtain ⟨⟨l, ts⟩, path⟩ := c
  unfold isLooseComment at h
  simp only [Bool.and_eq_true, List.isEmpty_iff] at h
  obtain ⟨⟨-, hlabel⟩, hts⟩ := h
  exact ⟨l, hlabel, congrArg (Tree.node l) hts⟩

theorem Cursor.isRemark_of_isLooseComment {c : Cursor} (h : c.isLooseComment = true) :
    c.focus.isRemark = true := by
  obtain ⟨l, hlabel, hfocus⟩ := exists_of_isLooseComment h
  rw [hfocus, Tree.isRemark, hlabel]
  rfl

/-- A loose comment is all that there is of its subtree. -/
theorem Cursor.inOrder_of_isLooseComment {c : Cursor} (h : c.isLooseComment = true) :
    inOrder c.path c.focus = [c] := by
  obtain ⟨l, -, hfocus⟩ := exists_of_isLooseComment h
  obtain ⟨t, path⟩ := c
  cases hfocus
  rfl

namespace Tree

variable {gone : Cursor → Bool}

mutual

theorem labels_eraseFrom (hgone : ∀ c, gone c = true → c.isLooseComment = true)
    (path : List Frame) (t : Tree) (h : gone ⟨t, path⟩ = false) (path' : List Frame) :
    (Cursor.inOrder path' (eraseFrom gone path t)).map Cursor.label
      = ((Cursor.inOrder path t).filter (!gone ·)).map Cursor.label := by
  cases t with
  | node l ts =>
    rw [eraseFrom, Cursor.inOrder, Cursor.inOrder, List.filter_cons, h, List.map_cons,
      labels_eraseAll hgone l path [] ts]
    rfl

theorem labels_eraseAll (hgone : ∀ c, gone c = true → c.isLooseComment = true)
    (l : Label) (path : List Frame) (before after : List Tree) (l' : Label)
    (path' : List Frame) (before' : List Tree) :
    (Cursor.inOrderAll l' path' before' (eraseAll gone l path before after)).map Cursor.label
      = ((Cursor.inOrderAll l path before after).filter (!gone ·)).map Cursor.label := by
  cases after with
  | nil => rfl
  | cons t after =>
    rw [eraseAll, Cursor.inOrderAll, List.filter_append, List.map_append]
    cases h : gone ⟨t, ⟨l, before, after⟩ :: path⟩ with
    | true =>
      have hone : Cursor.inOrder (⟨l, before, after⟩ :: path) t
          = [⟨t, ⟨l, before, after⟩ :: path⟩] :=
        Cursor.inOrder_of_isLooseComment (hgone _ h)
      rw [hone, List.filter_singleton, h, if_pos rfl,
        labels_eraseAll hgone l path (t :: before) after]
      rfl
    | false =>
      rw [if_neg Bool.false_ne_true, Cursor.inOrderAll, List.map_append,
        labels_eraseFrom hgone _ t h, labels_eraseAll hgone l path (t :: before) after]

end

/-- Deleting loose comments takes them out of the document order and
leaves the other nodes as they are. -/
theorem labels_erase (hgone : ∀ c, gone c = true → c.isLooseComment = true) (t : Tree) :
    (t.erase gone).documentOrder.map Cursor.label
      = (t.documentOrder.filter (!gone ·)).map Cursor.label := by
  have hroot : gone t.root = false := by
    cases h : gone t.root with
    | false => rfl
    | true => cases hgone _ h
  exact labels_eraseFrom hgone [] t hroot []

mutual

/-- It makes no remark and spoils none. -/
theorem isRemark_eraseFrom (hgone : ∀ c, gone c = true → c.isLooseComment = true)
    (path : List Frame) (t : Tree) : (eraseFrom gone path t).isRemark = t.isRemark := by
  cases t with
  | node l ts => rw [eraseFrom, isRemark, isRemark, areRemarks_eraseAll hgone]

theorem areRemarks_eraseAll (hgone : ∀ c, gone c = true → c.isLooseComment = true)
    (l : Label) (path : List Frame) (before after : List Tree) :
    areRemarks (eraseAll gone l path before after) = areRemarks after := by
  cases after with
  | nil => rfl
  | cons t after =>
    rw [eraseAll, areRemarks]
    split
    · next h =>
      have ht : t.isRemark = true := Cursor.isRemark_of_isLooseComment (hgone _ h)
      rw [areRemarks_eraseAll hgone, ht, Bool.true_and]
    · rw [areRemarks, isRemark_eraseFrom hgone, areRemarks_eraseAll hgone]

end

mutual

theorem strip_eraseFrom (hgone : ∀ c, gone c = true → c.isLooseComment = true)
    (path : List Frame) (t : Tree) : (eraseFrom gone path t).strip = t.strip := by
  cases t with
  | node l ts => rw [eraseFrom, strip, strip, stripAll_eraseAll hgone]

theorem stripAll_eraseAll (hgone : ∀ c, gone c = true → c.isLooseComment = true)
    (l : Label) (path : List Frame) (before after : List Tree) :
    stripAll (eraseAll gone l path before after) = stripAll after := by
  cases after with
  | nil => rfl
  | cons t after =>
    rw [eraseAll]
    split
    · next h =>
      have ht : t.isRemark = true := Cursor.isRemark_of_isLooseComment (hgone _ h)
      rw [stripAll_eraseAll hgone, stripAll_of_isRemark _ ht]
    · rw [stripAll, stripAll, isRemark_eraseFrom hgone, strip_eraseFrom hgone,
        stripAll_eraseAll hgone]

end

/-- Loose comments make no difference once the tree is stripped. -/
theorem strip_erase (hgone : ∀ c, gone c = true → c.isLooseComment = true) (t : Tree) :
    (t.erase gone).strip = t.strip :=
  strip_eraseFrom hgone [] t

end Tree

end QueryLint
