/-
What an index holds, told from the trees. A document is searched for
nodes that declare a type; each of them is read for bases, members and
methods; and what several declarations of one name say is joined. Here
the same is said node by node, without searching or joining: which nodes
declare a type (`declaring`), and what such a node declares
(`DeclaresMember`, `DeclaresMethod`).

`TypeDecl.Records` compares the two. Nothing is lost and nothing
invented: a type, a member or a method is found exactly if some node
declares it, and what is found is what one of these nodes says. The order
of the documents shows only where two nodes declare the same name
differently (`TypeDecl.Alike`).
-/
import QueryLint.Host
import QueryLint.Proofs.Declaration.Ancestry
import QueryLint.Proofs.Tree.WellFormed

namespace QueryLint

/-- The declarations in the body of a type declaration. -/
def Cursor.inBody (decl : Cursor) : List Cursor :=
  ((decl.child? .body).map Cursor.namedChildren).getD []

namespace Document

variable (doc : Document)

-- ======================================================= what a node declares

/-- Whether a node declares the type called `type`. -/
def declares (type : String) (c : Cursor) : Bool :=
  c.kind.declaresType && (c.child? .name).any (doc.text · == type)

/-- The nodes that declare the type called `type`, in document order. -/
def declaring (type : String) : List Cursor := doc.tree.documentOrder.filter (doc.declares type)

/-- The names of the bases that a declaration lists, as far as their
types are known. -/
def baseNames (decl : Cursor) : List String :=
  (decl.children.filter (·.kind == .baseList)).flatMap fun list =>
    list.namedChildren.filterMap fun base => (Ty.ofTree? doc.source base.focus).map Ty.name

/-- A declaration has a field or property of a given name and type. -/
inductive DeclaresMember (decl : Cursor) (name : String) (type : Ty) : Prop
  | property {member label : Cursor} (hmember : member ∈ decl.inBody)
      (hkind : member.kind = .propertyDeclaration)
      (htype : Ty.declared? doc.source member.focus = some type)
      (hlabel : member.child? .name = some label) (hname : doc.text label = name)
  | field {member declaration declarator label : Cursor} (hmember : member ∈ decl.inBody)
      (hkind : member.kind = .fieldDeclaration)
      (hdeclaration : declaration ∈ member.namedOfKind .variableDeclaration)
      (htype : Ty.declared? doc.source declaration.focus = some type)
      (hdeclarator : declarator ∈ declaration.namedOfKind .variableDeclarator)
      (hlabel : declarator.declarator.name = some label) (hname : doc.text label = name)

/-- A declaration of the type `owner` has a method, which `member`
declares. -/
structure DeclaresMethod (owner : String) (decl member : Cursor) (method : Method) : Prop where
  member_mem : member ∈ decl.inBody
  kind : member.kind = .methodDeclaration
  name : ∃ label, member.child? .name = some label ∧ method.name = doc.text label
  receiver : method.receiver = .plain owner
  parameters : method.parameters
    = ((member.child? .parameters).map (Parameter.ofList doc.source ·.focus)).getD []
  returns : method.returns
    = ((member.child? .returns).or (member.child? .type)).bind (Ty.ofTree? doc.source ·.focus)

end Document

-- ========================================================= reading the node

/-- The parts of a bare declarator are those of its cursor. -/
theorem Declarator.scan_focus (p : Progress Cursor) (xs : List Cursor) :
    scan id (·.namedChildren.head?)
        ⟨⟨p.parts.name.map Cursor.focus, p.parts.value.map Cursor.focus⟩, p.behindEquals⟩
        (xs.map Cursor.focus)
      = ⟨(scan Cursor.focus (·.namedChildren.head?) p xs).name.map Cursor.focus,
          (scan Cursor.focus (·.namedChildren.head?) p xs).value.map Cursor.focus⟩ := by
  induction xs generalizing p with
  | nil => rfl
  | cons x rest ih =>
    rw [List.map_cons, scan, scan]
    simp only [id, Option.isNone_map, Cursor.namedChildren_focus, List.head?_map]
    split
    · exact ih ⟨⟨some x, p.parts.value⟩, p.behindEquals⟩
    split
    · exact ih ⟨⟨p.parts.name, x.namedChildren.head?⟩, p.behindEquals⟩
    split
    · exact ih ⟨p.parts, true⟩
    split
    · rfl
    · exact ih p

theorem Cursor.declarator_focus (c : Cursor) :
    c.focus.declarator
      = ⟨c.declarator.name.map focus, c.declarator.value.map focus⟩ := by
  unfold Tree.declarator declarator
  rw [child?_focus, ← map_focus_children]
  exact Declarator.scan_focus ⟨⟨c.child? .name, none⟩, false⟩ c.children

theorem Cursor.mem_inBody_iff {decl member : Cursor} :
    member ∈ decl.inBody ↔
      ∃ body, decl.child? .body = some body ∧ member ∈ body.namedChildren := by
  unfold inBody
  cases decl.child? .body with
  | none => simp
  | some body => simp

namespace TypeDecl

variable (doc : Document) (decl : Cursor)

theorem bodyOf_focus : bodyOf decl.focus = decl.inBody.map Cursor.focus := by
  unfold bodyOf Cursor.inBody
  rw [Cursor.child?_focus]
  cases decl.child? .body with
  | none => rfl
  | some body => exact body.namedChildren_focus

theorem basesOf_focus : basesOf doc.source decl.focus = doc.baseNames decl := by
  unfold basesOf Document.baseNames
  rw [← Cursor.map_focus_children, List.filter_map, List.flatMap_map]
  refine List.flatMap_congr fun list _ => ?_
  rw [Cursor.namedChildren_focus, List.filterMap_map, List.map_filterMap]
  rfl

theorem mem_variablesOf_iff {declaration : Cursor} {name : String} {type : Ty} :
    (name, type) ∈ variablesOf doc.source declaration.focus ↔
      Ty.declared? doc.source declaration.focus = some type
        ∧ ∃ declarator ∈ declaration.namedOfKind .variableDeclarator, ∃ label,
          declarator.declarator.name = some label ∧ doc.text label = name := by
  unfold variablesOf
  cases Ty.declared? doc.source declaration.focus with
  | none => simp
  | some written =>
    constructor
    · intro h
      obtain ⟨t, ht, heq⟩ := List.mem_map.1 h
      obtain ⟨d, hd, hname⟩ := List.mem_filterMap.1 ht
      rw [Cursor.namedOfKind_focus] at hd
      obtain ⟨declarator, hdeclarator, rfl⟩ := List.mem_map.1 hd
      rw [Cursor.declarator_focus] at hname
      obtain ⟨label, hlabel, rfl⟩ := Option.map_eq_some_iff.1 hname
      cases heq
      exact ⟨rfl, declarator, hdeclarator, label, hlabel, rfl⟩
    · intro h
      obtain ⟨heq, declarator, hdeclarator, label, hlabel, rfl⟩ := h
      cases heq
      refine List.mem_map.2 ⟨label.focus, List.mem_filterMap.2 ⟨declarator.focus, ?_, ?_⟩, rfl⟩
      · rw [Cursor.namedOfKind_focus]
        exact List.mem_map_of_mem hdeclarator
      · rw [Cursor.declarator_focus, hlabel]
        rfl

/-- The members that are read off a declaration are those that it
declares. -/
theorem mem_members_iff {name : String} {type : Ty} :
    (name, type) ∈ decl.inBody.flatMap (membersOf doc.source ·.focus) ↔
      doc.DeclaresMember decl name type := by
  rw [List.mem_flatMap]
  constructor
  · intro h
    obtain ⟨member, hmember, h⟩ := h
    unfold membersOf at h
    split at h
    · next hkind =>
      obtain ⟨t, ht, h⟩ := List.mem_flatMap.1 h
      rw [Cursor.namedOfKind_focus] at ht
      obtain ⟨declaration, hdeclaration, rfl⟩ := List.mem_map.1 ht
      obtain ⟨htype, declarator, hdeclarator, label, hlabel, hname⟩ :=
        (mem_variablesOf_iff doc).1 h
      exact .field hmember hkind hdeclaration htype hdeclarator hlabel hname
    · next hkind =>
      split at h
      · next written t htype ht =>
        cases List.mem_singleton.1 h
        rw [Cursor.child?_focus] at ht
        obtain ⟨label, hlabel, rfl⟩ := Option.map_eq_some_iff.1 ht
        exact .property hmember hkind htype hlabel rfl
      · cases h
    · cases h
  · intro h
    cases h with
    | @property member label hmember hkind htype hlabel hname =>
      refine ⟨member, hmember, ?_⟩
      have hkind' : member.focus.kind = .propertyDeclaration := hkind
      unfold membersOf
      rw [hkind', htype, Cursor.child?_focus, hlabel, ← hname]
      exact List.mem_singleton_self _
    | @field member declaration declarator label hmember hkind hdeclaration htype hdeclarator
        hlabel hname =>
      refine ⟨member, hmember, ?_⟩
      have hkind' : member.focus.kind = .fieldDeclaration := hkind
      unfold membersOf
      rw [hkind']
      refine List.mem_flatMap.2 ⟨declaration.focus, ?_, ?_⟩
      · rw [Cursor.namedOfKind_focus]
        exact List.mem_map_of_mem hdeclaration
      · exact (mem_variablesOf_iff doc).2
          ⟨htype, declarator, hdeclarator, label, hlabel, hname⟩

theorem methodOf?_focus (owner : String) (member : Cursor) :
    methodOf? doc.source owner member.focus
      = if member.kind = .methodDeclaration then
          (member.child? .name).map fun label =>
            { name := doc.text label
              receiver := .plain owner
              parameters :=
                ((member.child? .parameters).map (Parameter.ofList doc.source ·.focus)).getD []
              returns := ((member.child? .returns).or (member.child? .type)).bind
                (Ty.ofTree? doc.source ·.focus) }
        else none := by
  unfold methodOf?
  simp only [Cursor.child?_focus, ← Option.map_or, Option.bind_map, Option.map_map]
  rfl

/-- What a member declares as a method. -/
theorem methodOf?_focus_eq_some_iff {owner : String} {member : Cursor} {method : Method}
    (hmember : member ∈ decl.inBody) :
    methodOf? doc.source owner member.focus = some method ↔
      doc.DeclaresMethod owner decl member method := by
  rw [methodOf?_focus]
  constructor
  · intro h
    split at h
    case isFalse => cases h
    case isTrue hkind =>
      obtain ⟨label, hlabel, rfl⟩ := Option.map_eq_some_iff.1 h
      exact ⟨hmember, hkind, ⟨label, hlabel, rfl⟩, rfl, rfl, rfl⟩
  · intro h
    obtain ⟨-, hkind, ⟨label, hlabel, hname⟩, hreceiver, hparameters, hreturns⟩ := h
    rw [if_pos hkind, hlabel, Option.map_some, ← hname, ← hreceiver, ← hparameters, ← hreturns]

theorem mem_methods_iff {owner : String} {method : Method} :
    method ∈ decl.inBody.filterMap (methodOf? doc.source owner ·.focus) ↔
      ∃ member, doc.DeclaresMethod owner decl member method := by
  rw [List.mem_filterMap]
  constructor
  · intro h
    obtain ⟨member, hmember, hmethod⟩ := h
    exact ⟨member, (methodOf?_focus_eq_some_iff doc decl hmember).1 hmethod⟩
  · intro h
    obtain ⟨member, h⟩ := h
    exact ⟨member, h.member_mem, (methodOf?_focus_eq_some_iff doc decl h.member_mem).2 h⟩

end TypeDecl

-- ====================================================== reading a document

namespace Document

variable (doc : Document) (type : String)

/-- What a declaration of `type` says of it. -/
def reading (decl : Cursor) : TypeDecl where
  name := type
  bases := doc.baseNames decl
  members := decl.inBody.flatMap (TypeDecl.membersOf doc.source ·.focus)
  methods := decl.inBody.filterMap (TypeDecl.methodOf? doc.source type ·.focus)

/-- Of one node, what is read is kept for a type name if the node declares
that type. -/
theorem filter_ofTree?_focus (decl : Cursor) :
    (TypeDecl.ofTree? doc.source decl.focus).filter (·.name == type)
      = if doc.declares type decl then some (doc.reading type decl) else none := by
  unfold TypeDecl.ofTree? declares
  have hkind : decl.focus.kind = decl.kind := rfl
  rw [hkind, TypeDecl.basesOf_focus, TypeDecl.bodyOf_focus, Cursor.child?_focus]
  cases decl.kind.declaresType with
  | false => rfl
  | true =>
    cases decl.child? .name with
    | none => rfl
    | some label =>
      by_cases hname : doc.source.text label.focus = type
      · subst hname
        simp [reading, text, List.flatMap_map, List.filterMap_map]
      · simp [text, hname]

theorem filter_declarations :
    doc.declarations.filter (·.name == type)
      = (doc.tree.visit.filter (doc.declares type)).map (doc.reading type) := by
  unfold declarations
  rw [List.filter_filterMap, ← List.filterMap_eq_map, List.filterMap_filter]
  refine List.filterMap_congr fun decl _ => ?_
  exact doc.filter_ofTree?_focus type decl

end Document

-- ============================================================ the whole index

namespace Index

/-- Some declaration of `type` declares a field or property. -/
def DeclaredMember (docs : List Document) (type name : String) (t : Ty) : Prop :=
  ∃ doc ∈ docs, ∃ decl ∈ doc.declaring type, doc.DeclaresMember decl name t

/-- Some declaration of `type` declares a method. -/
def DeclaredMethod (docs : List Document) (type name : String) (method : Method) : Prop :=
  ∃ doc ∈ docs, ∃ decl ∈ doc.declaring type, ∃ member,
    doc.DeclaresMethod type decl member method ∧ method.name = name

end Index

namespace TypeDecl

/-- What is said of a type is what the nodes that declare it say. -/
structure Records (docs : List Document) (type : String) (d : TypeDecl) : Prop where
  name : d.name = type
  bases : d.bases.Perm (docs.flatMap fun doc => (doc.declaring type).flatMap doc.baseNames)
  members : ∀ name, (d.member? name).isSome = true ↔ ∃ t, Index.DeclaredMember docs type name t
  memberType : ∀ name t, d.member? name = some t → Index.DeclaredMember docs type name t
  methods : ∀ name, (d.method? name).isSome = true ↔
    ∃ method, Index.DeclaredMethod docs type name method
  method : ∀ name method, d.method? name = some method →
    Index.DeclaredMethod docs type name method

/-- Two accounts of a type differ only in the order of the bases and
where its declarations disagree. -/
structure Alike (docs : List Document) (type : String) (d d' : TypeDecl) : Prop where
  name : d.name = d'.name
  bases : d.bases.Perm d'.bases
  members : ∀ name, (d.member? name).isSome = (d'.member? name).isSome
  methods : ∀ name, (d.method? name).isSome = (d'.method? name).isSome
  memberType : ∀ name, (∀ t t', Index.DeclaredMember docs type name t →
    Index.DeclaredMember docs type name t' → t = t') → d.member? name = d'.member? name
  method : ∀ name, (∀ m m', Index.DeclaredMethod docs type name m →
    Index.DeclaredMethod docs type name m' → m = m') → d.method? name = d'.method? name

theorem mem_of_member? {d : TypeDecl} {name : String} {t : Ty} (h : d.member? name = some t) :
    (name, t) ∈ d.members := by
  obtain ⟨⟨found, t'⟩, hfind, rfl⟩ := Option.map_eq_some_iff.1 h
  have hname : found = name := by simpa using List.find?_some hfind
  rw [← hname]
  exact List.mem_reverse.1 (List.mem_of_find?_eq_some hfind)

theorem isSome_member?_iff {d : TypeDecl} {name : String} :
    (d.member? name).isSome = true ↔ ∃ t, (name, t) ∈ d.members := by
  simp [member?]

theorem isSome_method?_iff {d : TypeDecl} {name : String} :
    (d.method? name).isSome = true ↔ ∃ method ∈ d.methods, method.name = name := by
  simp [method?]

end TypeDecl

namespace Index

theorem isSome_joined?_iff {decls : List TypeDecl} {type : String} :
    (joined? decls type).isSome = true ↔ decls.filter (·.name == type) ≠ [] := by
  unfold joined?
  split
  · next hnil => simp [hnil]
  · next hne => simpa using hne

/-- The declarations that are joined for a type are those of all nodes
that declare it. -/
theorem perm_filter_decls (docs : List Document) (type : String) :
    ((ofDocuments docs).decls.filter (·.name == type)).Perm
      (docs.flatMap fun doc => (doc.declaring type).map (doc.reading type)) := by
  unfold ofDocuments
  rw [List.filter_flatMap]
  refine List.Perm.flatMap_left docs fun doc _ => ?_
  rw [doc.filter_declarations]
  exact (doc.tree.visit_perm.filter _).map _

theorem mem_filter_decls_iff {docs : List Document} {type : String} {d : TypeDecl} :
    d ∈ (ofDocuments docs).decls.filter (·.name == type) ↔
      ∃ doc ∈ docs, ∃ decl ∈ doc.declaring type, doc.reading type decl = d := by
  rw [(perm_filter_decls docs type).mem_iff]
  simp only [List.mem_flatMap, List.mem_map]

theorem isSome_joined?_ofDocuments_iff {docs : List Document} {type : String} :
    (joined? (ofDocuments docs).decls type).isSome = true ↔
      ∃ doc ∈ docs, ∃ decl, decl ∈ doc.declaring type := by
  rw [isSome_joined?_iff]
  constructor
  · intro h
    obtain ⟨d, hd⟩ := List.exists_mem_of_ne_nil _ h
    obtain ⟨doc, hdoc, decl, hdecl, -⟩ := mem_filter_decls_iff.1 hd
    exact ⟨doc, hdoc, decl, hdecl⟩
  · intro h
    obtain ⟨doc, hdoc, decl, hdecl⟩ := h
    exact List.ne_nil_of_mem (mem_filter_decls_iff.2 ⟨doc, hdoc, decl, hdecl, rfl⟩)

section

variable {docs : List Document} {type : String} {d : TypeDecl}
  (h : joined? (ofDocuments docs).decls type = some d)

include h

theorem mem_members_of_joined?_iff {name : String} {t : Ty} :
    (name, t) ∈ d.members ↔ DeclaredMember docs type name t := by
  rw [eq_of_joined? h, List.mem_flatMap]
  constructor
  · intro hmem
    obtain ⟨said, hsaid, hmem⟩ := hmem
    obtain ⟨doc, hdoc, decl, hdecl, rfl⟩ := mem_filter_decls_iff.1 hsaid
    exact ⟨doc, hdoc, decl, hdecl, (TypeDecl.mem_members_iff doc decl).1 hmem⟩
  · intro hmem
    obtain ⟨doc, hdoc, decl, hdecl, hmem⟩ := hmem
    exact ⟨doc.reading type decl, mem_filter_decls_iff.2 ⟨doc, hdoc, decl, hdecl, rfl⟩,
      (TypeDecl.mem_members_iff doc decl).2 hmem⟩

theorem mem_methods_of_joined?_iff {name : String} {method : Method} :
    method ∈ d.methods ∧ method.name = name ↔ DeclaredMethod docs type name method := by
  rw [eq_of_joined? h, List.mem_flatMap]
  constructor
  · intro hmem
    obtain ⟨⟨said, hsaid, hmem⟩, hname⟩ := hmem
    obtain ⟨doc, hdoc, decl, hdecl, rfl⟩ := mem_filter_decls_iff.1 hsaid
    obtain ⟨member, hmember⟩ := (TypeDecl.mem_methods_iff doc decl).1 hmem
    exact ⟨doc, hdoc, decl, hdecl, member, hmember, hname⟩
  · intro hmem
    obtain ⟨doc, hdoc, decl, hdecl, member, hmember, hname⟩ := hmem
    exact ⟨⟨doc.reading type decl, mem_filter_decls_iff.2 ⟨doc, hdoc, decl, hdecl, rfl⟩,
      (TypeDecl.mem_methods_iff doc decl).2 ⟨member, hmember⟩⟩, hname⟩

theorem records_of_joined? : d.Records docs type where
  name := by rw [eq_of_joined? h]
  bases := by
    rw [eq_of_joined? h]
    have hperm := (perm_filter_decls docs type).flatMap_right TypeDecl.bases
    rw [List.flatMap_assoc] at hperm
    simp only [List.flatMap_map] at hperm
    exact hperm
  members := by
    intro name
    rw [TypeDecl.isSome_member?_iff]
    exact exists_congr fun t => mem_members_of_joined?_iff h
  memberType := by
    intro name t hmember
    exact (mem_members_of_joined?_iff h).1 (TypeDecl.mem_of_member? hmember)
  methods := by
    intro name
    rw [TypeDecl.isSome_method?_iff]
    exact exists_congr fun method => mem_methods_of_joined?_iff h
  method := by
    intro name method hmethod
    have hname : method.name = name := by simpa using List.find?_some hmethod
    exact (mem_methods_of_joined?_iff h).1 ⟨List.mem_of_find?_eq_some hmethod, hname⟩

end

-- ================================================================ reordering

section

variable {docs docs' : List Document} (hperm : docs.Perm docs') {type name : String}

include hperm

theorem DeclaredMember.perm_iff {t : Ty} :
    DeclaredMember docs type name t ↔ DeclaredMember docs' type name t := by
  unfold DeclaredMember
  simp only [hperm.mem_iff]

theorem DeclaredMethod.perm_iff {method : Method} :
    DeclaredMethod docs type name method ↔ DeclaredMethod docs' type name method := by
  unfold DeclaredMethod
  simp only [hperm.mem_iff]

end

end Index

/-- Two lookups that are answered together, each with something of which
there is only one, are answered alike. -/
theorem eq_of_isSome_eq {α : Type} {x y : Option α} {P : α → Prop} (hsome : x.isSome = y.isSome)
    (hx : ∀ a, x = some a → P a) (hy : ∀ a, y = some a → P a)
    (hunique : ∀ a b, P a → P b → a = b) : x = y := by
  cases x with
  | none =>
    cases y with
    | none => rfl
    | some b => cases hsome
  | some a =>
    cases y with
    | none => cases hsome
    | some b => rw [hunique a b (hx a rfl) (hy b rfl)]

/-- Documents in another order give another account of the same. -/
theorem TypeDecl.Records.alike {docs docs' : List Document} (hperm : docs.Perm docs')
    {type : String} {d d' : TypeDecl} (h : d.Records docs type) (h' : d'.Records docs' type) :
    d.Alike docs type d' := by
  have hmembers : ∀ name, (d.member? name).isSome = (d'.member? name).isSome := by
    intro name
    rw [Bool.eq_iff_iff, h.members, h'.members]
    exact exists_congr fun t => Index.DeclaredMember.perm_iff hperm
  have hmethods : ∀ name, (d.method? name).isSome = (d'.method? name).isSome := by
    intro name
    rw [Bool.eq_iff_iff, h.methods, h'.methods]
    exact exists_congr fun method => Index.DeclaredMethod.perm_iff hperm
  refine ⟨h.name.trans h'.name.symm, ?_, hmembers, hmethods, ?_, ?_⟩
  · exact h.bases.trans ((hperm.flatMap_right _).trans h'.bases.symm)
  · intro name hunique
    refine eq_of_isSome_eq (hmembers name) (h.memberType name) ?_ hunique
    intro t ht
    exact (Index.DeclaredMember.perm_iff hperm).2 (h'.memberType name t ht)
  · intro name hunique
    refine eq_of_isSome_eq (hmethods name) (h.method name) ?_ hunique
    intro method hmethod
    exact (Index.DeclaredMethod.perm_iff hperm).2 (h'.method name method hmethod)

/-- The index of documents that are added one by one holds a type exactly
if some node of them declares it, and says of it what these nodes say.
Adding the documents in another order gives the same types, the same
members and methods and, up to their order, the same bases; the types of
members and the methods stay the same wherever they are declared in only
one way. -/
theorem index_records_declarations (docs : List Document) :
    (∀ type, (Index.joined? (docs.foldl Compilation.add .empty).index.decls type).isSome = true ↔
        ∃ doc ∈ docs, ∃ decl, decl ∈ doc.declaring type)
      ∧ (∀ type d, Index.joined? (docs.foldl Compilation.add .empty).index.decls type = some d →
        d.Records docs type)
      ∧ ∀ docs', docs.Perm docs' → ∀ type,
        Option.Rel (TypeDecl.Alike docs type)
          (Index.joined? (docs.foldl Compilation.add .empty).index.decls type)
          (Index.joined? (docs'.foldl Compilation.add .empty).index.decls type) := by
  rw [Compilation.foldl_add]
  refine ⟨fun type => Index.isSome_joined?_ofDocuments_iff, fun type d => Index.records_of_joined?,
    ?_⟩
  intro docs' hperm type
  rw [Compilation.foldl_add]
  have hsome : (Index.joined? (Index.ofDocuments docs).decls type).isSome
      = (Index.joined? (Index.ofDocuments docs').decls type).isSome := by
    rw [Bool.eq_iff_iff, Index.isSome_joined?_ofDocuments_iff,
      Index.isSome_joined?_ofDocuments_iff]
    simp only [hperm.mem_iff]
  show Option.Rel _ (Index.joined? (Index.ofDocuments docs).decls type)
    (Index.joined? (Index.ofDocuments docs').decls type)
  cases h : Index.joined? (Index.ofDocuments docs).decls type with
  | none =>
    rw [h] at hsome
    have h' := Option.not_isSome_iff_eq_none.1 (Bool.eq_false_iff.1 hsome.symm)
    rw [h']
    exact .none
  | some d =>
    rw [h] at hsome
    obtain ⟨d', h'⟩ := Option.isSome_iff_exists.1 hsome.symm
    rw [h']
    exact .some ((Index.records_of_joined? h).alike hperm (Index.records_of_joined? h'))

/-- A document that declares one type in two places, each with a base and
an overload of one method. -/
def Document.partials : Document where
  path := "P.cs"
  source := .ofText ("partial class P:A\x7bvoid m()\x7b\x7dX x;\x7d" ++
    "partial class P:B\x7bvoid m(int a)\x7b\x7d\x7d")
  tree :=
    named (.other "compilation_unit") none 0 67 [
      named .classDeclaration none 0 33 [
        named (.other "modifier") none 0 7 [
          token "partial" 0 7],
        token "class" 8 13,
        named .identifier (some .name) 14 15 [],
        named .baseList none 15 17 [
          token ":" 15 16,
          named .identifier none 16 17 []],
        named (.other "declaration_list") (some .body) 17 33 [
          token "\x7b" 17 18,
          named .methodDeclaration none 18 28 [
            named .predefinedType (some .returns) 18 22 [],
            named .identifier (some .name) 23 24 [],
            named .parameterList (some .parameters) 24 26 [
              token "(" 24 25,
              token ")" 25 26],
            named .block (some .body) 26 28 [
              token "\x7b" 26 27,
              token "\x7d" 27 28]],
          named .fieldDeclaration none 28 32 [
            named .variableDeclaration none 28 31 [
              named .identifier (some .type) 28 29 [],
              named .variableDeclarator none 30 31 [
                named .identifier (some .name) 30 31 []]],
            token ";" 31 32],
          token "\x7d" 32 33]],
      named .classDeclaration none 33 67 [
        named (.other "modifier") none 33 40 [
          token "partial" 33 40],
        token "class" 41 46,
        named .identifier (some .name) 47 48 [],
        named .baseList none 48 50 [
          token ":" 48 49,
          named .identifier none 49 50 []],
        named (.other "declaration_list") (some .body) 50 67 [
          token "\x7b" 50 51,
          named .methodDeclaration none 51 66 [
            named .predefinedType (some .returns) 51 55 [],
            named .identifier (some .name) 56 57 [],
            named .parameterList (some .parameters) 57 64 [
              token "(" 57 58,
              named .parameter none 58 63 [
                named .predefinedType (some .type) 58 61 [],
                named .identifier (some .name) 62 63 []],
              token ")" 63 64],
            named .block (some .body) 64 66 [
              token "\x7b" 64 65,
              token "\x7d" 65 66]],
          token "\x7d" 66 67]]]
where
  named := sample.named
  token := twoDeclarators.token

/-- Both declarations are recorded, and adding another document first
does not change what is there. -/
theorem sample_declarations_recorded :
    ∃ d d' : TypeDecl,
      Index.joined? ([Document.partials, .sample].foldl Compilation.add .empty).index.decls "P"
          = some d
        ∧ Index.joined? ([Document.sample, .partials].foldl Compilation.add .empty).index.decls "P"
          = some d'
        ∧ d.bases.Perm ["A", "B"] ∧ d'.bases.Perm ["A", "B"]
        ∧ (d.method? "m").isSome = true ∧ (d'.method? "m").isSome = true := by
  obtain ⟨htypes, hrecords, hreordered⟩ := index_records_declarations [.partials, .sample]
  have hnodes : Document.partials.declaring "P" ≠ [] := by
    intro hnil
    have hlength : (Document.partials.declaring "P").length = 2 := by decide +kernel
    rw [hnil] at hlength
    cases hlength
  obtain ⟨decl, hdecl⟩ := List.exists_mem_of_ne_nil _ hnodes
  obtain ⟨d, hd⟩ := Option.isSome_iff_exists.1
    ((htypes "P").2 ⟨.partials, List.mem_cons_self, decl, hdecl⟩)
  have hbases : d.bases.Perm ["A", "B"] := (hrecords "P" d hd).bases.trans (by decide +kernel)
  have hmethod : (d.method? "m").isSome = true := by
    have hfound : ((Index.joined? ([Document.partials, .sample].foldl Compilation.add
        .empty).index.decls "P").bind (·.method? "m")).isSome = true := by decide +kernel
    rw [hd] at hfound
    exact hfound
  have hother := hreordered [.sample, .partials] (.swap _ _ _) "P"
  rw [hd] at hother
  generalize hd' : Index.joined? ([Document.sample, .partials].foldl Compilation.add
    .empty).index.decls "P" = found at hother
  cases hother with
  | @some _ d' halike =>
    exact ⟨d, d', hd, rfl, hbases, halike.bases.symm.trans hbases, hmethod,
      (halike.methods "m").symm.trans hmethod⟩

end QueryLint
