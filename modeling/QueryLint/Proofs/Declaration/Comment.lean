/-
Comments in declarations. What a declaration says is read off its tree:
written types, names, declarators, parameter lists and bases. Each of
these readings gives the same on the stripped tree, and so a document
declares the same with and without its comments (`declarations_strip`).

Most readings only ask for children that count or for fields, and the
equations of these carry over. Three go through all children: the last
identifier of a generic name, the base lists of a type, and the scan of a
declarator, which passes over what is neither a name nor an equals sign
nor, behind that, a part that counts.
-/
import QueryLint.Declaration.Index
import QueryLint.Proofs.Tree.Comment

namespace QueryLint

@[simp]
theorem Source.text_strip (src : Source) (t : Tree) : src.text t.strip = src.text t := by
  unfold text
  rw [Tree.label_strip]

-- =========================================================== written types

namespace Ty

theorem lastOfKind?_strip {k : Kind} (hk : k ≠ .comment) (ts : List Tree) :
    lastOfKind? k (Tree.stripAll ts) = (lastOfKind? k ts).map Tree.strip := by
  unfold lastOfKind?
  have hfilter := Tree.filter_stripAll (Label.skips_kind hk) ts
  rw [← List.getLast?_map]
  exact congrArg List.getLast? hfilter

theorem simplePart?_strip (t : Tree) : simplePart? t.strip = (simplePart? t).map Tree.strip := by
  unfold simplePart?
  rw [Tree.child?_strip, Tree.namedChildren_strip, List.getLast?_map, Option.map_or]

variable (src : Source)

@[simp]
theorem ofTree?_strip (t : Tree) : ofTree? src t.strip = ofTree? src t := by
  have hpart : ∀ u ∈ t.children, ofTree? src u.strip = ofTree? src u := by
    intro u hu
    have := Tree.size_lt_of_mem_children hu
    exact ofTree?_strip u
  have hname : (lastOfKind? .identifier t.strip.children).map src.text
      = (lastOfKind? .identifier t.children).map src.text := by
    rw [Tree.children_strip, lastOfKind?_strip (by decide), Option.map_map]
    exact Option.map_congr fun u _ => src.text_strip u
  have hargs : ((lastOfKind? .typeArgumentList t.strip.children).map fun list =>
        list.namedChildren.map fun u => (ofTree? src u).getD object)
      = (lastOfKind? .typeArgumentList t.children).map fun list =>
        list.namedChildren.map fun u => (ofTree? src u).getD object := by
    rw [Tree.children_strip, lastOfKind?_strip (by decide), Option.map_map]
    refine Option.map_congr fun list hlist => ?_
    rw [Function.comp_apply, Tree.namedChildren_strip, List.map_map]
    refine List.map_congr_left fun u hu => ?_
    have := Tree.size_lt_of_mem_children (mem_of_lastOfKind? hlist)
    have := Tree.size_lt_of_mem_children (Tree.mem_children_of_mem_namedChildren hu)
    rw [Function.comp_apply, ofTree?_strip u]
  have hsimple : (simplePart? t.strip).bind (ofTree? src) = (simplePart? t).bind (ofTree? src) := by
    rw [simplePart?_strip, Option.bind_map]
    exact Option.bind_congr fun u hu => hpart u (mem_children_of_simplePart? hu)
  have hnullable : (t.strip.namedChildren.head?.map fun u =>
        mk "Nullable" [(ofTree? src u).getD object])
      = t.namedChildren.head?.map fun u => mk "Nullable" [(ofTree? src u).getD object] := by
    rw [Tree.namedChildren_strip, List.head?_map, Option.map_map]
    refine Option.map_congr fun u hu => ?_
    rw [Function.comp_apply,
      hpart u (Tree.mem_children_of_mem_namedChildren (List.mem_of_head? hu))]
  have htype : (t.strip.child? .type).bind (ofTree? src) = (t.child? .type).bind (ofTree? src) := by
    rw [Tree.child?_strip, Option.bind_map]
    exact Option.bind_congr fun u hu => hpart u (Tree.mem_children_of_child? hu)
  rw [ofTree?_eq, ofTree?_eq src t, Tree.kind_strip, Source.text_strip, hname, hargs, hsimple,
    hnullable, htype]
termination_by t.size

@[simp]
theorem declared?_strip (t : Tree) : declared? src t.strip = declared? src t := by
  unfold declared?
  rw [Tree.child?_strip, Option.bind_map]
  exact Option.bind_congr fun u _ => ofTree?_strip src u

end Ty

@[simp]
theorem Parameter.ofList_strip (src : Source) (list : Tree) :
    ofList src list.strip = ofList src list := by
  unfold ofList
  simp [Function.comp_def]

-- ============================================================= declarators

namespace Declarator

variable {α : Type}

/-- A remark tells nothing about a declarator. -/
theorem scan_of_isRemark {tree : α → Tree} {inner : α → Option α} {p : Progress α} {x : α}
    (rest : List α) (h : (tree x).label.isRemark = true) :
    scan tree inner p (x :: rest) = scan tree inner p rest := by
  have hkind : (tree x).kind = .comment := Label.kind_of_isRemark h
  have hcounts : (tree x).label.counts = false := Label.skips_counts _ h
  rw [scan, hkind, hcounts, Bool.and_false]
  simp

/-- Reading a declarator that has lost its remarks. What the reading
takes for the tree of a child, and for the inside of a clause, has to go
with the change. -/
theorem scan_filter_map {tree : α → Tree} {inner : α → Option α} {g : α → α} {gone : α → Bool}
    (hlabel : ∀ x, (tree (g x)).label = (tree x).label)
    (hinner : ∀ x, inner (g x) = (inner x).map g)
    (hgone : ∀ x, gone x = true → (tree x).label.isRemark = true) (p : Progress α)
    (xs : List α) :
    scan tree inner ⟨p.parts.map g, p.behindEquals⟩ ((xs.filter (!gone ·)).map g)
      = (scan tree inner p xs).map g := by
  induction xs generalizing p with
  | nil => rfl
  | cons x rest ih =>
    cases hx : gone x with
    | true =>
      rw [scan_of_isRemark rest (hgone x hx), ← ih p, List.filter_cons, hx]
      rfl
    | false =>
      have hkind : (tree (g x)).kind = (tree x).kind := congrArg Label.kind (hlabel x)
      have hname : (p.parts.map g).name.isNone = p.parts.name.isNone := Option.isNone_map
      rw [List.filter_cons, hx]
      show scan tree inner _ (g x :: (rest.filter _).map g) = _
      rw [scan, scan, hkind, hlabel, hname]
      split
      · -- the name
        exact ih ⟨⟨some x, p.parts.value⟩, p.behindEquals⟩
      split
      · -- a clause
        rw [hinner]
        exact ih ⟨⟨p.parts.name, inner x⟩, p.behindEquals⟩
      split
      · -- the equals sign
        exact ih ⟨p.parts, true⟩
      split
      · -- the value itself
        rfl
      · exact ih p

end Declarator

@[simp]
theorem Cursor.declarator_strip (c : Cursor) :
    c.strip.declarator = c.declarator.map Cursor.strip := by
  unfold declarator
  rw [child?_strip, children_strip]
  exact Declarator.scan_filter_map label_strip
    (fun d => by rw [namedChildren_strip, List.head?_map]) (fun d => label_of_isRemark)
    ⟨⟨c.child? .name, none⟩, false⟩ c.children

@[simp]
theorem Tree.declarator_strip (t : Tree) : t.strip.declarator = t.declarator.map strip := by
  unfold declarator
  rw [child?_strip, children_strip, stripAll_eq]
  exact Declarator.scan_filter_map label_strip
    (fun u => by rw [namedChildren_strip, List.head?_map]) (fun u => label_of_isRemark)
    ⟨⟨t.child? .name, none⟩, false⟩ t.children

-- ====================================================== type declarations

namespace TypeDecl

variable (src : Source)

theorem basesOf_strip (decl : Tree) : basesOf src decl.strip = basesOf src decl := by
  unfold basesOf
  have hlists : decl.strip.children.filter (·.kind == .baseList)
      = (decl.children.filter (·.kind == .baseList)).map Tree.strip := by
    rw [Tree.children_strip]
    exact Tree.filter_stripAll (Label.skips_kind (by decide)) decl.children
  rw [hlists, List.flatMap_map]
  simp [List.filterMap_map]

theorem variablesOf_strip (decl : Tree) : variablesOf src decl.strip = variablesOf src decl := by
  have hnames : ((decl.strip.namedOfKind .variableDeclarator).filterMap (·.declarator.name)).map
        src.text
      = ((decl.namedOfKind .variableDeclarator).filterMap (·.declarator.name)).map src.text := by
    simp [List.filterMap_map, List.map_filterMap, Function.comp_def, Declarator.map]
  unfold variablesOf
  rw [Ty.declared?_strip]
  cases Ty.declared? src decl with
  | none => rfl
  | some type =>
    have hpairs := congrArg (List.map fun name => (name, type)) hnames
    rw [List.map_map, List.map_map] at hpairs
    exact hpairs

theorem membersOf_strip (member : Tree) : membersOf src member.strip = membersOf src member := by
  unfold membersOf
  rw [Tree.kind_strip, Tree.namedOfKind_strip, List.flatMap_map, Ty.declared?_strip,
    Tree.child?_strip]
  simp only [variablesOf_strip]
  split
  · rfl
  · cases Ty.declared? src member with
    | none => rfl
    | some type =>
      cases member.child? .name with
      | none => rfl
      | some name => simp
  · rfl

theorem methodOf?_strip (owner : String) (member : Tree) :
    methodOf? src owner member.strip = methodOf? src owner member := by
  have hreturns : ((member.strip.child? .returns).or (member.strip.child? .type)).bind
        (Ty.ofTree? src)
      = ((member.child? .returns).or (member.child? .type)).bind (Ty.ofTree? src) := by
    rw [Tree.child?_strip, Tree.child?_strip, ← Option.map_or, Option.bind_map]
    exact Option.bind_congr fun u _ => Ty.ofTree?_strip src u
  unfold methodOf?
  rw [hreturns]
  simp [Function.comp_def]

theorem bodyOf_strip (decl : Tree) : bodyOf decl.strip = (bodyOf decl).map Tree.strip := by
  unfold bodyOf
  rw [Tree.child?_strip]
  cases decl.child? .body with
  | none => rfl
  | some body => exact body.namedChildren_strip

theorem ofTree?_strip (decl : Tree) : ofTree? src decl.strip = ofTree? src decl := by
  unfold ofTree?
  simp [basesOf_strip, bodyOf_strip, membersOf_strip, methodOf?_strip, List.flatMap_map,
    List.filterMap_map, Function.comp_def]

theorem ofTree?_of_isRemark {decl : Tree} (h : decl.label.isRemark = true) :
    ofTree? src decl = none := by
  have hkind : decl.kind = .comment := Label.kind_of_isRemark h
  unfold ofTree?
  rw [hkind]
  rfl

end TypeDecl

-- =============================================================== documents

/-- The document without remarks; the text and all positions stay. -/
def Document.strip (doc : Document) : Document := { doc with tree := doc.tree.strip }

/-- Comments declare nothing, and change nothing of what is declared. -/
theorem Document.declarations_strip (doc : Document) :
    doc.strip.declarations = doc.declarations := by
  show doc.tree.strip.visit.filterMap _ = doc.tree.visit.filterMap _
  rw [Tree.visit_strip, List.filterMap_map, List.filterMap_filter]
  refine List.filterMap_congr fun c _ => ?_
  cases h : c.isRemark with
  | true => exact (TypeDecl.ofTree?_of_isRemark doc.source (Cursor.label_of_isRemark h)).symm
  | false => exact TypeDecl.ofTree?_strip doc.source c.focus

end QueryLint
