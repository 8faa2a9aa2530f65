/-
The declarations of a whole compilation. An index lists what its
documents declare, in the order of the documents and, inside one, in
visiting order. Several declarations of one name declare one type
between them.

Members and methods are looked up in a type and then in its bases,
bases of bases and so on, nearest first: `ancestry` takes type names
from a queue and puts the bases of each behind what is already waiting.
A declaration that has been taken is no longer available, so that bases
in a circle, repeated bases and bases that nobody declares all do no
harm. The search ends because a base that is put into the queue leaves
what is available at the same time: names waiting and bases still to
come are together one fewer at each step.
-/
import QueryLint.Declaration.TypeDecl

namespace QueryLint

/-- Everything that a document declares, in visiting order. -/
def Document.declarations (doc : Document) : List TypeDecl :=
  doc.tree.visit.filterMap fun c => TypeDecl.ofTree? doc.source c.focus

/-- The declarations of a compilation. -/
structure Index where
  decls : List TypeDecl

namespace Index

/-- The index of several documents. -/
def ofDocuments (docs : List Document) : Index := ⟨docs.flatMap Document.declarations⟩

/-- What `decls` say between them of the type called `name`. -/
def joined? (decls : List TypeDecl) (name : String) : Option TypeDecl :=
  match decls.filter (·.name == name) with
  | [] => none
  | same =>
    some
      { name
        bases := same.flatMap TypeDecl.bases
        members := same.flatMap TypeDecl.members
        methods := same.flatMap TypeDecl.methods }

/-- The declarations of all types but one. -/
def without (decls : List TypeDecl) (name : String) : List TypeDecl :=
  decls.filter (·.name != name)

/-- The bases that a joined type has are those of its declarations. -/
theorem bases_of_joined? {decls : List TypeDecl} {name : String} {d : TypeDecl}
    (h : joined? decls name = some d) :
    d.bases = (decls.filter (·.name == name)).flatMap TypeDecl.bases := by
  unfold joined? at h
  split at h
  · cases h
  · cases h
    rfl

/-- How many bases are listed in all. -/
def edges (decls : List TypeDecl) : Nat := (decls.flatMap TypeDecl.bases).length

/-- Leaving out a type leaves out the bases that it lists. -/
theorem edges_without (decls : List TypeDecl) (name : String) :
    edges (without decls name)
      + ((decls.filter (·.name == name)).flatMap TypeDecl.bases).length = edges decls := by
  induction decls with
  | nil => rfl
  | cons d decls ih =>
    unfold edges without at ih ⊢
    by_cases h : d.name = name
    · simp only [List.filter_cons, h, bne_self_eq_false, beq_self_eq_true, if_true,
        List.flatMap_cons, List.length_append]
      rw [← ih]
      simp only [Bool.false_eq_true, if_false]
      omega
    · simp only [List.filter_cons, bne_iff_ne, ne_eq, h, not_false_eq_true, beq_iff_eq,
        if_true, if_false, List.flatMap_cons, List.length_append]
      omega

/-- The types to be found from a queue of names, in the order in which
the names come up. -/
def reach (available : List TypeDecl) : List String → List TypeDecl
  | [] => []
  | name :: queue =>
    match _h : joined? available name with
    | none => reach available queue
    | some d => d :: reach (without available name) (queue ++ d.bases)
termination_by queue => queue.length + edges available
decreasing_by
  · simp
  · have := edges_without available name
    have := congrArg List.length (bases_of_joined? ‹_›)
    simp only [List.length_append, List.length_cons]
    omega

variable (index : Index)

/-- A type, its bases, their bases and so on, as far as declared. -/
def ancestry (name : String) : List TypeDecl := reach index.decls [name]

/-- The type of a field or property of a type or of one of its bases. -/
def memberType? (type name : String) : Option Ty :=
  (index.ancestry type).findSome? (·.member? name)

/-- The method of a type or of one of its bases. -/
def method? (type name : String) : Option Method :=
  (index.ancestry type).findSome? (·.method? name)

-- ================================================================= listing

/-- Names without repetition, by code point. -/
def sortedNames (names : List String) : List String :=
  names.eraseDups.mergeSort fun a b => decide (a ≤ b)

/-- The declared types, by name. -/
def types : List TypeDecl :=
  (sortedNames (index.decls.map TypeDecl.name)).filterMap (joined? index.decls)

end Index

namespace TypeDecl

/-- The fields and properties with their types, by name. -/
def memberList (d : TypeDecl) : List (String × Ty) :=
  (Index.sortedNames (d.members.map (·.1))).filterMap fun name =>
    (d.member? name).map (name, ·)

/-- The methods that count, by name. -/
def methodList (d : TypeDecl) : List Method :=
  (Index.sortedNames (d.methods.map (·.name))).filterMap d.method?

end TypeDecl

end QueryLint
