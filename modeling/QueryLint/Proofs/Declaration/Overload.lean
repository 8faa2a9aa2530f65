/-
Which overload of a method counts. An index keeps one method of a name
for each type, the first that it comes by. It comes by the documents in
the order in which they are added and, in one body, by the members as
they are written; but the declarations of a type in one document come up
in visiting order, an outer one before what is in it and a later one
before an earlier one. `Overload.Before` is that order, and
`first_overload_in_visiting_order` says that its first is what is kept.

Where each document has all its overloads of a name in one body, this is
the order of the source. Where it has them in several, it is not: of two
parts of a class, the overload in the second hides the one in the first
(`earlier_overload_hidden`).
-/
import QueryLint.Proofs.Declaration.Contents

namespace QueryLint

/-- One of the methods of a name that a type has. -/
structure Overload where
  /-- The place of the document among the documents. -/
  document : Nat
  /-- The declaration of the type. -/
  owner : Cursor
  /-- The declaration of the method, in the body of the type's. -/
  member : Cursor
  method : Method

namespace Overload

/-- A method called `name` that a declaration of `type` has. -/
def Of (docs : List Document) (type name : String) (o : Overload) : Prop :=
  ∃ doc, docs[o.document]? = some doc ∧ o.owner ∈ doc.declaring type
    ∧ doc.DeclaresMethod type o.owner o.member o.method ∧ o.method.name = name

/-- The order of the source: by document, and then by the place of the
method in the document. -/
def SourceBefore (a b : Overload) : Prop :=
  a.document < b.document ∨ (a.document = b.document ∧ a.member.index < b.member.index)

/-- The order in which methods come up: by document, then as the types
around them are visited, and in one body by place. -/
def Before (a b : Overload) : Prop :=
  a.document < b.document
    ∨ (a.document = b.document
      ∧ (a.owner.VisitedBefore b.owner
        ∨ (a.owner = b.owner ∧ a.member.index < b.member.index)))

/-- In one body, the two orders are the same. -/
theorem Before.sourceBefore {a b : Overload} (h : a.Before b)
    (howner : a.document = b.document → a.owner = b.owner) : a.SourceBefore b := by
  rcases h with hlt | ⟨hdocument, hvisited | ⟨-, hindex⟩⟩
  · exact .inl hlt
  · rw [howner hdocument] at hvisited
    exact absurd hvisited (Cursor.not_visitedBefore_self _)
  · exact .inr ⟨hdocument, hindex⟩

end Overload

-- =============================================================== the listing

/-- The methods that a document declares for a type, as they come up. -/
def Document.overloads (doc : Document) (place : Nat) (type : String) : List Overload :=
  (doc.tree.visit.filter (doc.declares type)).flatMap fun owner =>
    owner.inBody.filterMap fun member =>
      (TypeDecl.methodOf? doc.source type member.focus).map fun method =>
        ⟨place, owner, member, method⟩

/-- The methods that several documents declare for a type, as they come
up. -/
def Index.overloads (docs : List Document) (type : String) : List Overload :=
  docs.zipIdx.flatMap fun (doc, place) => doc.overloads place type

theorem Document.mem_overloads_iff {doc : Document} {place : Nat} {type : String} {o : Overload} :
    o ∈ doc.overloads place type ↔
      o.document = place ∧ o.owner ∈ doc.declaring type
        ∧ doc.DeclaresMethod type o.owner o.member o.method := by
  unfold overloads declaring
  simp only [List.mem_flatMap, List.mem_filterMap, List.mem_filter, doc.tree.visit_perm.mem_iff]
  constructor
  · intro h
    obtain ⟨owner, howner, member, hmember, h⟩ := h
    obtain ⟨method, hmethod, rfl⟩ := Option.map_eq_some_iff.1 h
    exact ⟨rfl, howner, (TypeDecl.methodOf?_focus_eq_some_iff doc owner hmember).1 hmethod⟩
  · intro h
    obtain ⟨rfl, howner, hmethod⟩ := h
    refine ⟨o.owner, howner, o.member, hmethod.member_mem, ?_⟩
    rw [(TypeDecl.methodOf?_focus_eq_some_iff doc o.owner hmethod.member_mem).2 hmethod]
    rfl

namespace Index

variable {docs : List Document} {type name : String}

theorem mem_overloads_iff {o : Overload} :
    o ∈ overloads docs type ∧ o.method.name = name ↔ o.Of docs type name := by
  unfold overloads Overload.Of
  simp only [List.mem_flatMap, Document.mem_overloads_iff, Prod.exists,
    List.mem_zipIdx_iff_getElem?]
  constructor
  · intro h
    obtain ⟨⟨doc, place, hdoc, rfl, howner, hmethod⟩, hname⟩ := h
    exact ⟨doc, hdoc, howner, hmethod, hname⟩
  · intro h
    obtain ⟨doc, hdoc, howner, hmethod, hname⟩ := h
    exact ⟨⟨doc, o.document, hdoc, rfl, howner, hmethod⟩, hname⟩

/-- The listing holds the methods that are joined for the type, in the
same order. -/
theorem methods_eq_overloads {d : TypeDecl} (h : joined? (ofDocuments docs).decls type = some d) :
    d.methods = (overloads docs type).map Overload.method := by
  have hmethods : ∀ (doc : Document) (place : Nat),
      (doc.overloads place type).map Overload.method
        = (doc.declarations.filter (·.name == type)).flatMap TypeDecl.methods := by
    intro doc place
    unfold Document.overloads
    rw [doc.filter_declarations, List.map_flatMap, List.flatMap_map]
    refine List.flatMap_congr fun owner _ => ?_
    rw [List.map_filterMap]
    refine List.filterMap_congr fun member _ => ?_
    rw [Option.map_map]
    exact Option.map_id'
  have hall : (overloads docs type).map Overload.method
      = (docs.zipIdx.map Prod.fst).flatMap fun doc =>
          (doc.declarations.filter (·.name == type)).flatMap TypeDecl.methods := by
    unfold overloads
    rw [List.map_flatMap, List.flatMap_map]
    exact List.flatMap_congr fun p _ => hmethods p.1 p.2
  rw [methods_of_joined? h, hall, List.zipIdx_map_fst, ofDocuments, List.filter_flatMap,
    List.flatMap_assoc]

end Index

-- ================================================================ the order

theorem Cursor.pairwise_inBody (decl : Cursor) :
    decl.inBody.Pairwise (·.index < ·.index) := by
  unfold inBody
  cases decl.child? .body with
  | none => exact .nil
  | some body => exact body.pairwise_children.filter _

/-- A document lists its overloads in their order. -/
theorem Document.pairwise_overloads (doc : Document) (place : Nat) (type : String) :
    (doc.overloads place type).Pairwise Overload.Before := by
  unfold overloads
  refine List.pairwise_flatMap.2 ⟨?_, ?_⟩
  · intro owner _
    refine owner.pairwise_inBody.filterMap _ ?_
    intro member member' hlt o ho o' ho'
    obtain ⟨method, -, rfl⟩ := Option.map_eq_some_iff.1 ho
    obtain ⟨method', -, rfl⟩ := Option.map_eq_some_iff.1 ho'
    exact .inr ⟨rfl, .inr ⟨rfl, hlt⟩⟩
  · refine (doc.tree.pairwise_visit.filter _).imp ?_
    intro owner owner' hvisited o ho o' ho'
    obtain ⟨member, -, h⟩ := List.mem_filterMap.1 ho
    obtain ⟨member', -, h'⟩ := List.mem_filterMap.1 ho'
    obtain ⟨method, -, rfl⟩ := Option.map_eq_some_iff.1 h
    obtain ⟨method', -, rfl⟩ := Option.map_eq_some_iff.1 h'
    exact .inr ⟨rfl, .inl hvisited⟩

/-- So do several. -/
theorem Index.pairwise_overloads (docs : List Document) (type : String) :
    (overloads docs type).Pairwise Overload.Before := by
  unfold overloads
  refine List.pairwise_flatMap.2 ⟨fun p _ => p.1.pairwise_overloads p.2 type, ?_⟩
  rw [List.pairwise_iff_getElem]
  intro i j hi hj hij o ho o' ho'
  obtain ⟨hplace, -⟩ := Document.mem_overloads_iff.1 ho
  obtain ⟨hplace', -⟩ := Document.mem_overloads_iff.1 ho'
  simp only [List.get_eq_getElem, List.getElem_zipIdx] at hplace hplace'
  exact .inl (by omega)

/-- In a list that goes by a relation, what is found is related to all
else that could be. -/
theorem eq_or_rel_of_find? {α : Type} {R : α → α → Prop} {p : α → Bool} {xs : List α} {x y : α}
    (hR : xs.Pairwise R) (hx : xs.find? p = some x) (hy : y ∈ xs) (hp : p y = true) :
    y = x ∨ R x y := by
  obtain ⟨-, before, after, rfl, hbefore⟩ := List.find?_eq_some_iff_append.1 hx
  obtain ⟨-, hafter, -⟩ := List.pairwise_append.1 hR
  rcases List.mem_append.1 hy with hy | hy
  · have := hbefore y hy
    simp [hp] at this
  · rcases List.mem_cons.1 hy with rfl | hy
    · exact .inl rfl
    · exact .inr ((List.pairwise_cons.1 hafter).1 y hy)

/-- The method that an index keeps under a name is the first of the
overloads as they come up; and where no document has overloads of the
name in two declarations of the type, it is the first of the source. -/
theorem first_overload_in_visiting_order (docs : List Document) (type name : String)
    (d : TypeDecl)
    (hjoined : Index.joined? (docs.foldl Compilation.add .empty).index.decls type = some d) :
    ((d.method? name).isSome = true ↔ ∃ o : Overload, o.Of docs type name)
      ∧ ∀ method, d.method? name = some method →
        ∃ first : Overload, first.Of docs type name ∧ first.method = method
          ∧ (∀ o : Overload, o.Of docs type name → o = first ∨ first.Before o)
          ∧ ((∀ o o' : Overload, o.Of docs type name → o'.Of docs type name →
              o.document = o'.document → o.owner = o'.owner) →
            ∀ o : Overload, o.Of docs type name → o = first ∨ first.SourceBefore o) := by
  rw [Compilation.foldl_add] at hjoined
  have hlookup : d.method? name
      = ((Index.overloads docs type).find? (·.method.name == name)).map Overload.method := by
    rw [TypeDecl.method?, Index.methods_eq_overloads hjoined, List.find?_map]
    rfl
  refine ⟨?_, ?_⟩
  · rw [hlookup, Option.isSome_map, List.find?_isSome]
    simp only [beq_iff_eq, Index.mem_overloads_iff]
  · intro method hmethod
    rw [hlookup] at hmethod
    obtain ⟨first, hfirst, rfl⟩ := Option.map_eq_some_iff.1 hmethod
    have hof : first.Of docs type name := Index.mem_overloads_iff.1
      ⟨List.mem_of_find?_eq_some hfirst, by simpa using List.find?_some hfirst⟩
    have hbefore : ∀ o : Overload, o.Of docs type name → o = first ∨ first.Before o := by
      intro o ho
      obtain ⟨hmem, hname⟩ := Index.mem_overloads_iff.2 ho
      exact eq_or_rel_of_find? (Index.pairwise_overloads docs type) hfirst hmem
        (beq_iff_eq.2 hname)
    refine ⟨first, hof, rfl, hbefore, ?_⟩
    intro hsame o ho
    rcases hbefore o ho with heq | hlt
    · exact .inl heq
    · exact .inr (hlt.sourceBefore (hsame first o hof ho))

/-- What is kept of two parts of a class, each with an overload. -/
theorem partials_keep_later_overload :
    ∃ (d : TypeDecl) (first : Overload),
      Index.joined? ([Document.partials].foldl Compilation.add .empty).index.decls "P" = some d
        ∧ first.Of [.partials] "P" "m" ∧ d.method? "m" = some first.method
        ∧ first.method.parameters.length = 1
        ∧ ∀ o : Overload, o.Of [.partials] "P" "m" → o = first ∨ first.Before o := by
  have hkept : ((Index.joined? ([Document.partials].foldl Compilation.add .empty).index.decls
      "P").bind (·.method? "m")).map (·.parameters.length) = some 1 := by decide +kernel
  obtain ⟨method, hmethod, hlength⟩ := Option.map_eq_some_iff.1 hkept
  obtain ⟨d, hd, hmethod⟩ := Option.bind_eq_some_iff.1 hmethod
  obtain ⟨first, hof, rfl, hbefore, -⟩ :=
    (first_overload_in_visiting_order [.partials] "P" "m" d hd).2 method hmethod
  exact ⟨d, first, hd, hof, hmethod, hlength, hbefore⟩

/-- The overload in the first part of a class is the first of the source,
and it is not what is kept. -/
theorem earlier_overload_hidden :
    ∃ (d : TypeDecl) (method : Method),
      Index.joined? ([Document.partials].foldl Compilation.add .empty).index.decls "P" = some d
        ∧ d.method? "m" = some method
        ∧ ¬ ∃ first : Overload, first.Of [.partials] "P" "m" ∧ first.method = method
          ∧ ∀ o : Overload, o.Of [.partials] "P" "m" → o = first ∨ first.SourceBefore o := by
  have hkept : ((Index.joined? ([Document.partials].foldl Compilation.add .empty).index.decls
      "P").bind (·.method? "m")).map (·.parameters.length) = some 1 := by decide +kernel
  obtain ⟨method, hmethod, hlength⟩ := Option.map_eq_some_iff.1 hkept
  obtain ⟨d, hd, hmethod⟩ := Option.bind_eq_some_iff.1 hmethod
  refine ⟨d, method, hd, hmethod, ?_⟩
  rintro ⟨first, hof, rfl, hfirst⟩
  -- of the two, the one with a parameter stands behind the other
  have hlater : ∀ o ∈ Index.overloads [.partials] "P", o.method.parameters.length = 1 →
      30 < o.member.index := by decide +kernel
  have hearlier : ∃ o ∈ Index.overloads [.partials] "P", o.method.name = "m"
      ∧ o.document = 0 ∧ o.member.index < 30 ∧ o.method.parameters.length = 0 := by
    decide +kernel
  obtain ⟨o, ho, hname, hdocument, hindex, hnone⟩ := hearlier
  have hbehind := hlater first (Index.mem_overloads_iff.2 hof).1 hlength
  rcases hfirst o (Index.mem_overloads_iff.1 ⟨ho, hname⟩) with rfl | hlt | ⟨-, hlt⟩
  · omega
  · omega
  · omega

end QueryLint
