/-
Methods that the program declares itself are never reported. EFX0001 is
about the operators on queries, and a class may well declare a `Where` of
its own: a call of that is no query, whatever its lambda takes.

An index files every method under its own name and with the type that
declares it as its receiver (`Index.WellNamed`), after each document that
is added. So what a lookup in the index gives is made on a declared type,
and where no type is called `IQueryable` it is not made on a query
(`isOnQuery_of_declares`). A reported call is made on a query, and what
it calls is therefore bound in the catalog: there is no declared method
in its way (`calls_operator_of_isOnQuery`).
-/
import QueryLint.Proofs.Declaration.Contents
import QueryLint.Proofs.Operator.Catalog
import QueryLint.Proofs.Rule.Findings

namespace QueryLint

open Relation (ReflTransGen)

-- ============================================================== the index

namespace Index

/-- Every type is filed under its name, and every method of it under its
own, as a method of that type. -/
structure WellNamed (index : Index) : Prop where
  type : ∀ type d, joined? index.decls type = some d → d.name = type
  method : ∀ type d, joined? index.decls type = some d → ∀ name method,
    d.method? name = some method → method.name = name ∧ method.receiver = .plain type

theorem wellNamed_empty : Compilation.empty.index.WellNamed where
  type := by
    intro type d h
    cases h
  method := by
    intro type d h
    cases h

theorem receiver_of_mem_declarations {doc : Document} {d : TypeDecl}
    (hd : d ∈ doc.declarations) {method : Method} (hmethod : method ∈ d.methods) :
    method.receiver = .plain d.name := by
  obtain ⟨c, -, hc⟩ := List.mem_filterMap.1 hd
  exact TypeDecl.receiver_of_ofTree? hc hmethod

/-- What is looked up in declarations that are joined from two lists is
looked up in the first, and then in the second. -/
theorem method?_of_joined?_append {decls decls' : List TypeDecl} {type name : String}
    {d : TypeDecl} {method : Method} (hd : joined? (decls ++ decls') type = some d)
    (hmethod : d.method? name = some method) :
    (∃ d', joined? decls type = some d' ∧ d'.method? name = some method)
      ∨ ∃ d' ∈ decls', d'.name = type ∧ method ∈ d'.methods := by
  unfold TypeDecl.method? at hmethod
  rw [methods_of_joined? hd, List.filter_append, List.flatMap_append, List.find?_append] at hmethod
  rcases Option.or_eq_some_iff.1 hmethod with hfirst | ⟨-, hsecond⟩
  · have hne : decls.filter (·.name == type) ≠ [] := by
      intro hnil
      rw [hnil] at hfirst
      cases hfirst
    obtain ⟨d', hd'⟩ := Option.isSome_iff_exists.1 (isSome_joined?_iff.2 hne)
    refine .inl ⟨d', hd', ?_⟩
    rw [TypeDecl.method?, methods_of_joined? hd']
    exact hfirst
  · obtain ⟨d', hd', hmem⟩ := List.mem_flatMap.1 (List.mem_of_find?_eq_some hsecond)
    obtain ⟨hd', hname⟩ := List.mem_filter.1 hd'
    exact .inr ⟨d', hd', beq_iff_eq.1 hname, hmem⟩

/-- Adding a document keeps the names in order. -/
theorem WellNamed.add {comp : Compilation} (h : comp.index.WellNamed) (doc : Document) :
    (comp.add doc).index.WellNamed := by
  have hdecls : (comp.add doc).index.decls = comp.index.decls ++ doc.declarations := by
    show (comp.documents ++ [doc]).flatMap Document.declarations = _
    rw [List.flatMap_append, List.flatMap_singleton]
    rfl
  constructor
  · intro type d hd
    exact name_of_joined? hd
  · intro type d hd name method hmethod
    have hname : method.name = name := by simpa using List.find?_some hmethod
    refine ⟨hname, ?_⟩
    rw [hdecls] at hd
    rcases method?_of_joined?_append hd hmethod with
      ⟨d', hd', hmethod'⟩ | ⟨d', hd', htype, hmem⟩
    · exact (h.method type d' hd' name method hmethod').2
    · rw [receiver_of_mem_declarations hd' hmem, htype]

/-- So do any number of documents, in any order. -/
theorem WellNamed.foldl_add {comp : Compilation} (h : comp.index.WellNamed)
    (docs : List Document) : (docs.foldl Compilation.add comp).index.WellNamed := by
  induction docs generalizing comp with
  | nil => exact h
  | cons doc docs ih => exact ih (h.add doc)

variable {index : Index}

/-- A method that some declared type has. -/
def Declares (index : Index) (method : Method) : Prop :=
  ∃ type d, joined? index.decls type = some d ∧ ∃ name, d.method? name = some method

/-- What is found in a type or its bases is declared. -/
theorem declares_of_method? {type name : String} {method : Method}
    (h : index.method? type name = some method) : index.Declares method := by
  obtain ⟨d, hd, hmethod⟩ := List.exists_of_findSome?_eq_some h
  exact ⟨d.name, d, joined?_of_mem_reach hd, name, hmethod⟩

/-- Where nothing is found, no type of the hierarchy has the method. -/
theorem method?_eq_none_of_extends {type base name : String} {d : TypeDecl}
    (h : index.method? type name = none) (hway : ReflTransGen (Extends index.decls) type base)
    (hd : joined? index.decls base = some d) : d.method? name = none := by
  have hmem : d ∈ index.ancestry type :=
    mem_reach_of_extends (List.mem_singleton_self type) hway hd
  exact List.findSome?_eq_none_iff.1 h d hmem

end Index

-- =============================================================== one call

/-- The receiver of a call through a dot whose target is known has a known
type, on which the target is bound. -/
theorem Model.exists_type_of_resolveMethod {m : Model} {site receiver name : Cursor}
    {target : Method} (hcall : site.memberCall? = some (receiver, name))
    (htarget : m.resolveMethod site = .ok (some target)) :
    ∃ type, m.resolve receiver = .ok (some type)
      ∧ m.target? site (m.source.simpleName name.focus) type = some target := by
  unfold resolveMethod at htarget
  rw [hcall] at htarget
  dsimp only at htarget
  cases hresolve : m.resolve receiver with
  | error e =>
    rw [hresolve] at htarget
    cases htarget
  | ok type? =>
    rw [hresolve] at htarget
    obtain ⟨type, rfl, hbound⟩ := Option.bind_eq_some_iff.1 (Except.ok.inj htarget)
    exact ⟨type, rfl, hbound⟩

namespace IndexLambda

/-- A call of an operator on queries, on a receiver that is a query and
has no declared method of that name. -/
structure CallsOperator (m : Model) (site receiver name : Cursor) (type : Ty)
    (op : Operator) : Prop where
  call : site.memberCall? = some (receiver, name)
  receiver : m.resolve receiver = .ok (some type)
  queryable : type.name ∈ queryableReceivers
  undeclared : ∀ base d, ReflTransGen (Index.Extends m.index.decls) type.name base →
    Index.joined? m.index.decls base = some d →
      d.method? (m.source.simpleName name.focus) = none
  operator : op ∈ Operator.queryable
  bound : Operator.bind? type (m.source.simpleName name.focus) site.lambdaArity?
    = some (op.toMethod .queryable type.element site.lambdaArity?)
  target : m.resolveMethod site
    = .ok (some (op.toMethod .queryable type.element site.lambdaArity?))

variable {m : Model} (hnames : m.index.WellNamed)
  (hfree : Index.joined? m.index.decls "IQueryable" = none)

include hnames hfree

/-- A declared method is not made on a query. -/
theorem receiver_ne_of_declares {method : Method} (h : m.index.Declares method) :
    method.receiver.name ≠ "IQueryable" := by
  obtain ⟨type, d, hd, name, hmethod⟩ := h
  have hreceiver := (hnames.method type d hd name method hmethod).2
  intro heq
  rw [hreceiver] at heq
  have htype : type = "IQueryable" := heq
  rw [htype, hfree] at hd
  cases hd

theorem isOnQuery_of_declares {site : Cursor} {method : Method}
    (htarget : m.resolveMethod site = .ok (some method)) (h : m.index.Declares method) :
    isOnQuery m site = false := by
  unfold isOnQuery
  rw [htarget]
  exact beq_eq_false_iff_ne.2 (receiver_ne_of_declares hnames hfree h)

/-- A call through a dot that is made on a query is a call of an
operator. -/
theorem calls_operator_of_isOnQuery {site receiver name : Cursor}
    (hcall : site.memberCall? = some (receiver, name)) (h : isOnQuery m site = true) :
    ∃ type op, CallsOperator m site receiver name type op := by
  obtain ⟨target, htarget, hreceiver⟩ := isOnQuery_iff.1 h
  obtain ⟨type, htype, hbound⟩ := Model.exists_type_of_resolveMethod hcall htarget
  rcases Option.or_eq_some_iff.1 hbound with hdeclared | ⟨hnone, hbind⟩
  · exact absurd hreceiver
      (receiver_ne_of_declares hnames hfree (Index.declares_of_method? hdeclared))
  · obtain ⟨⟨family, op⟩, hfind, rfl⟩ := Option.map_eq_some_iff.1 hbind
    cases Operator.family_of_find? hfind hreceiver
    exact ⟨type, op, hcall, htype, Operator.mem_queryableReceivers_of_find? hfind,
      fun base d hway hd => Index.method?_eq_none_of_extends hnone hway hd,
      (Operator.mem_of_find? hfind).1, hbind, htarget⟩

end IndexLambda

-- ========================================================== a compilation

namespace IndexLambda

theorem mem_reportedCalls {index : Index} {doc : Document} {site : Cursor}
    (h : site ∈ reportedCalls index doc) :
    site.top = doc.tree ∧ flags ⟨index, doc.source⟩ site = true := by
  obtain ⟨hsites, hflags⟩ := List.mem_filter.1 h
  obtain ⟨tail, htail, hsite⟩ := List.mem_flatMap.1 hsites
  have htop := Tree.mem_documentOrder_iff.1 (List.mem_filter.1 htail).1
  exact ⟨(Cursor.top_of_mem_sites hsite).trans htop, hflags⟩

theorem isOnQuery_of_mem_reportedCalls {index : Index} {doc : Document} {site : Cursor}
    (h : site ∈ reportedCalls index doc) :
    ∃ receiver name, site.memberCall? = some (receiver, name)
      ∧ isOnQuery ⟨index, doc.source⟩ site = true := by
  have hflagged := flags_iff.1 (mem_reportedCalls h).2
  obtain ⟨receiver, name, hcall, -⟩ := hflagged.operator
  exact ⟨receiver, name, hcall,
    isOnQuery_iff.2 (hflagged.onQueries site .refl (by rw [hcall]; rfl))⟩

/-- Where no type is called `IQueryable`, the calls that the default host
reports are calls of operators on queries, with no declared method of
the name in the hierarchy of the receiver's type. A call of a declared
method is not reported, and neither is any behind it in a chain. -/
theorem declared_methods_not_reported (docs : List Document) (comp : Compilation)
    (ds : List Diagnostic) (hbuilt : docs.foldl Compilation.add .empty = comp)
    (hfree : ∀ doc ∈ docs, doc.declaring "IQueryable" = [])
    (h : Host.default.analyze comp = .ok ds) :
    comp.index.WellNamed
      ∧ (ds.map some).Perm (docs.flatMap fun doc =>
          (reportedCalls comp.index doc).map (diagnosticAt doc.source doc.path))
      ∧ ∀ doc ∈ docs,
        (∀ site ∈ reportedCalls comp.index doc, site.top = doc.tree
            ∧ ∃ receiver name type op,
              CallsOperator ⟨comp.index, doc.source⟩ site receiver name type op)
          ∧ ∀ site method,
            (Model.mk comp.index doc.source).resolveMethod site = .ok (some method) →
            comp.index.Declares method →
              site ∉ reportedCalls comp.index doc
                ∧ ∀ (c : Cursor) (before after : List Call) (call : Call),
                  c.chain.calls = before ++ call :: after → call.site = site →
                    ∀ later ∈ after, later.site ∉ reportedCalls comp.index doc := by
  have hnames : comp.index.WellNamed := hbuilt ▸ Index.wellNamed_empty.foldl_add docs
  rw [Compilation.foldl_add] at hbuilt
  subst hbuilt
  have hdecls : Index.joined? (Index.ofDocuments docs).decls "IQueryable" = none := by
    rw [← Option.not_isSome_iff_eq_none]
    intro hsome
    obtain ⟨doc, hdoc, decl, hdecl⟩ := Index.isSome_joined?_ofDocuments_iff.1 hsome
    rw [hfree doc hdoc] at hdecl
    cases hdecl
  refine ⟨hnames, ?_, ?_⟩
  · obtain ⟨found, hfound, rfl⟩ := Host.analyze_eq_ok_iff.1 h
    have hsort : (Diagnostic.sort found.flatten).Perm found.flatten := List.mergeSort_perm _ _
    exact (hsort.map some).trans
      (perm_flatMap_of_answers hfound fun doc _ ds hds => perm_reportedCalls hds)
  · intro doc _
    refine ⟨?_, ?_⟩
    · intro site hsite
      obtain ⟨receiver, name, hcall, hon⟩ := isOnQuery_of_mem_reportedCalls hsite
      exact ⟨(mem_reportedCalls hsite).1, receiver, name,
        calls_operator_of_isOnQuery hnames hdecls hcall hon⟩
    · intro site method htarget hdeclares
      have hoff := isOnQuery_of_declares hnames hdecls htarget hdeclares
      refine ⟨?_, ?_⟩
      · intro hsite
        obtain ⟨-, -, -, hon⟩ := isOnQuery_of_mem_reportedCalls hsite
        rw [hoff] at hon
        cases hon
      · rintro c before after call hsplit rfl later hlater hreported
        have hflags := (mem_reportedCalls hreported).2
        rw [flags_eq_false_of_split hsplit hoff (List.mem_cons_of_mem _ hlater)] at hflags
        cases hflags

/-- The call that is reported in the sample is a `Where` on a table. -/
theorem sample_reports_operator :
    ∃ (d : Diagnostic) (site receiver name : Cursor) (type : Ty) (op : Operator),
      Host.default.analyze ⟨[Document.sample]⟩ = .ok [d]
        ∧ reportedCalls (Index.ofDocuments [.sample]) .sample = [site]
        ∧ diagnosticAt Document.sample.source Document.sample.path site = some d
        ∧ CallsOperator Document.sampleModel site receiver name type op
        ∧ ∀ method, Document.sampleModel.resolveMethod site = .ok (some method) →
          ¬ Document.sampleModel.index.Declares method := by
  have hfree : ∀ doc ∈ [Document.sample], doc.declaring "IQueryable" = [] := by
    intro doc hdoc
    rw [List.mem_singleton.1 hdoc]
    exact List.eq_nil_of_length_eq_zero (by decide +kernel)
  have hds : Host.default.analyze ⟨[Document.sample]⟩
      = .ok [⟨rule, ⟨"C.cs", 0, 47⟩, ["using the second index parameter in Where"]⟩] := by
    decide +kernel
  obtain ⟨-, hperm, hcalls⟩ := declared_methods_not_reported [.sample] ⟨[.sample]⟩ _ rfl hfree hds
  rw [List.flatMap_singleton] at hperm
  obtain ⟨site, hreported, hsite⟩ := List.map_eq_singleton_iff.1 (List.singleton_perm.1 hperm).symm
  obtain ⟨hoperators, hdeclared⟩ := hcalls .sample (List.mem_singleton_self _)
  have hmem : site ∈ reportedCalls (Index.ofDocuments [.sample]) .sample :=
    hreported ▸ List.mem_singleton_self _
  obtain ⟨-, receiver, name, type, op, hcalls⟩ := hoperators site hmem
  exact ⟨_, site, receiver, name, type, op, hds, hreported, hsite, hcalls,
    fun method htarget hdeclares => (hdeclared site method htarget hdeclares).1 hmem⟩

end IndexLambda

end QueryLint
