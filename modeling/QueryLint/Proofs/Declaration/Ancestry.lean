/-
What a search through base types depends on, and what it finds. Looking
a name up asks nothing of the declarations but, for each type name, which
of them have it and in which order; so two lists that agree on that for
every name (`SameTypes`) answer every lookup alike (`SameTypes.agrees`).
Of the way in which declarations of different types are mixed nothing
can be seen.

What is found is something that a declaration says: a method that a
lookup gives is one of a declaration of the index, and of an index made
from documents each method carries the name of the type that declares
it (`exists_decl_of_method?`). A search comes by every declared type that
can be reached from where it starts by going from a type to one of its
bases (`mem_reach_of_extends`).
-/
import Mathlib.Logic.Relation
import QueryLint.Declaration.Index

namespace QueryLint

open Relation (ReflTransGen)

namespace Index

-- ========================================================== joined types

theorem joined?_eq_none {decls : List TypeDecl} {name : String}
    (h : ∀ d ∈ decls, d.name ≠ name) : joined? decls name = none := by
  have hnone : decls.filter (·.name == name) = [] :=
    List.filter_eq_nil_iff.2 fun d hd => by simpa using h d hd
  unfold joined?
  rw [hnone]

/-- What is joined for a type, part by part. -/
theorem eq_of_joined? {decls : List TypeDecl} {type : String} {d : TypeDecl}
    (h : joined? decls type = some d) :
    d = { name := type
          bases := (decls.filter (·.name == type)).flatMap TypeDecl.bases
          members := (decls.filter (·.name == type)).flatMap TypeDecl.members
          methods := (decls.filter (·.name == type)).flatMap TypeDecl.methods } := by
  unfold joined? at h
  split at h
  · cases h
  · cases h
    rfl

theorem methods_of_joined? {decls : List TypeDecl} {type : String} {d : TypeDecl}
    (h : joined? decls type = some d) :
    d.methods = (decls.filter (·.name == type)).flatMap TypeDecl.methods := by
  rw [eq_of_joined? h]

/-- What a joined type says, one of its declarations says. -/
theorem exists_decl_of_joined? {decls : List TypeDecl} {name : String} {d : TypeDecl}
    (h : joined? decls name = some d) {method : Method} (hmethod : method ∈ d.methods) :
    ∃ decl ∈ decls, method ∈ decl.methods := by
  rw [methods_of_joined? h] at hmethod
  obtain ⟨decl, hdecl, hmem⟩ := List.mem_flatMap.1 hmethod
  exact ⟨decl, (List.mem_filter.1 hdecl).1, hmem⟩

-- ============================================================ what is found

theorem exists_decl_of_mem_reach {available : List TypeDecl} {queue : List String}
    {d : TypeDecl} (hd : d ∈ reach available queue) {method : Method}
    (hmethod : method ∈ d.methods) : ∃ decl ∈ available, method ∈ decl.methods := by
  fun_induction reach available queue with
  | case1 => cases hd
  | case2 available name queue hnone ih => exact ih hd
  | case3 available name queue found hfound ih =>
    rcases List.mem_cons.1 hd with rfl | hd
    · exact exists_decl_of_joined? hfound hmethod
    · obtain ⟨decl, hdecl, hmem⟩ := ih hd
      exact ⟨decl, (List.mem_filter.1 hdecl).1, hmem⟩

/-- A type that nobody declares has no method. -/
theorem method?_eq_none {index : Index} {type : String}
    (h : ∀ d ∈ index.decls, d.name ≠ type) (name : String) : index.method? type name = none := by
  unfold method? ancestry
  rw [reach, joined?_eq_none h, reach]
  rfl

end Index

theorem TypeDecl.receiver_of_ofTree? {src : Source} {t : Tree} {d : TypeDecl}
    (h : TypeDecl.ofTree? src t = some d) {method : Method} (hmethod : method ∈ d.methods) :
    method.receiver = .plain d.name := by
  unfold TypeDecl.ofTree? at h
  split at h
  case isFalse => cases h
  case isTrue =>
    obtain ⟨name, -, rfl⟩ := Option.map_eq_some_iff.1 h
    obtain ⟨member, -, hmember⟩ := List.mem_filterMap.1 hmethod
    unfold TypeDecl.methodOf? at hmember
    split at hmember
    case isFalse => cases hmember
    case isTrue =>
      obtain ⟨-, -, rfl⟩ := Option.map_eq_some_iff.1 hmember
      rfl

/-- In an index of documents, a method that is found carries the name of
a declared type. -/
theorem Index.exists_decl_of_method? {docs : List Document} {type name : String}
    {method : Method} (h : (Index.ofDocuments docs).method? type name = some method) :
    ∃ d ∈ (Index.ofDocuments docs).decls, method.receiver = .plain d.name := by
  obtain ⟨found, hfound, hmethod⟩ := List.exists_of_findSome?_eq_some h
  obtain ⟨decl, hdecl, hmem⟩ :=
    exists_decl_of_mem_reach hfound (List.mem_of_find?_eq_some hmethod)
  obtain ⟨doc, -, hdoc⟩ := List.mem_flatMap.1 hdecl
  obtain ⟨c, -, hc⟩ := List.mem_filterMap.1 hdoc
  exact ⟨decl, hdecl, TypeDecl.receiver_of_ofTree? hc hmem⟩

-- ============================================================== the same types

namespace Index

/-- Two lists of declarations say the same of every type. -/
def SameTypes (decls decls' : List TypeDecl) : Prop :=
  ∀ name, decls.filter (·.name == name) = decls'.filter (·.name == name)

theorem filter_without (decls : List TypeDecl) (gone name : String) :
    (without decls gone).filter (·.name == name)
      = if name = gone then [] else decls.filter (·.name == name) := by
  unfold without
  rw [List.filter_filter]
  split
  · next heq =>
    subst heq
    simp
  · next hne =>
    refine List.filter_congr fun d _ => ?_
    by_cases hd : d.name = name
    · simp [hd, hne]
    · simp [hd]

theorem joined?_without {decls : List TypeDecl} {gone name : String} (hne : name ≠ gone) :
    joined? (without decls gone) name = joined? decls name := by
  unfold joined?
  rw [filter_without, if_neg hne]

theorem joined?_without_self (decls : List TypeDecl) (gone : String) :
    joined? (without decls gone) gone = none := by
  unfold joined?
  rw [filter_without, if_pos rfl]

theorem SameTypes.without {decls decls' : List TypeDecl} (h : SameTypes decls decls')
    (name : String) : SameTypes (without decls name) (without decls' name) := by
  intro other
  rw [filter_without, filter_without, h other]

theorem SameTypes.joined? {decls decls' : List TypeDecl} (h : SameTypes decls decls')
    (name : String) : joined? decls name = joined? decls' name := by
  unfold Index.joined?
  rw [h name]

/-- Searches in lists that say the same find the same. -/
theorem SameTypes.reach {decls decls' : List TypeDecl} (h : SameTypes decls decls')
    (queue : List String) : reach decls queue = reach decls' queue := by
  fun_induction Index.reach decls queue generalizing decls' with
  | case1 => rw [Index.reach]
  | case2 decls name queue hnone ih =>
    rw [Index.reach]
    split
    · exact ih h
    · next d hsome =>
      rw [← h.joined?, hnone] at hsome
      cases hsome
  | case3 decls name queue d hsome ih =>
    rw [Index.reach]
    split
    · next hnone =>
      rw [← h.joined?, hsome] at hnone
      cases hnone
    · next d' hsome' =>
      rw [← h.joined?, hsome] at hsome'
      cases hsome'
      rw [ih (h.without name)]

/-- Two indexes answer every lookup alike. -/
structure Agrees (index index' : Index) : Prop where
  memberType? : index.memberType? = index'.memberType?
  method? : index.method? = index'.method?

theorem SameTypes.agrees {index index' : Index} (h : SameTypes index.decls index'.decls) :
    index.Agrees index' := by
  constructor
  · funext type name
    unfold memberType? ancestry
    rw [h.reach]
  · funext type name
    unfold method? ancestry
    rw [h.reach]

-- =========================================================== what is reached

theorem name_of_joined? {decls : List TypeDecl} {type : String} {d : TypeDecl}
    (h : joined? decls type = some d) : d.name = type := by
  rw [eq_of_joined? h]

/-- What a search comes by is what is declared under its name. -/
theorem joined?_of_mem_reach {available : List TypeDecl} {queue : List String} {d : TypeDecl}
    (h : d ∈ reach available queue) : joined? available d.name = some d := by
  fun_induction reach available queue with
  | case1 => cases h
  | case2 available name queue hnone ih => exact ih h
  | case3 available name queue found hfound ih =>
    rcases List.mem_cons.1 h with rfl | h
    · rw [name_of_joined? hfound, hfound]
    · have hrest := ih h
      by_cases hname : d.name = name
      · rw [hname, joined?_without_self] at hrest
        cases hrest
      · rwa [joined?_without hname] at hrest

/-- A declared type has a base. -/
def Extends (decls : List TypeDecl) (type base : String) : Prop :=
  ∃ d, joined? decls type = some d ∧ base ∈ d.bases

/-- A way along the bases that comes by a type goes on from one of its
bases, and from the last time on without it. -/
theorem extends_without {decls : List TypeDecl} {start type : String}
    (h : ReflTransGen (Extends decls) start type) (gone : String) :
    ReflTransGen (Extends (without decls gone)) start type
      ∨ ∃ base, Extends decls gone base
        ∧ ReflTransGen (Extends (without decls gone)) base type := by
  induction h with
  | refl => exact .inl .refl
  | @tail middle type _ hstep ih =>
    by_cases hmiddle : middle = gone
    · subst hmiddle
      exact .inr ⟨type, hstep, .refl⟩
    · obtain ⟨d, hd, hbase⟩ := hstep
      have hstep' : Extends (without decls gone) middle type :=
        ⟨d, (joined?_without hmiddle).trans hd, hbase⟩
      rcases ih with hway | ⟨base, hgone, hway⟩
      · exact .inl (hway.tail hstep')
      · exact .inr ⟨base, hgone, hway.tail hstep'⟩

/-- A search comes by every declared type that the names in the queue
lead to. -/
theorem mem_reach_of_extends {available : List TypeDecl} {queue : List String}
    {start type : String} {d : TypeDecl} (hstart : start ∈ queue)
    (hway : ReflTransGen (Extends available) start type)
    (hd : joined? available type = some d) : d ∈ reach available queue := by
  fun_induction reach available queue generalizing start with
  | case1 => cases hstart
  | case2 available name queue hnone ih =>
    rcases List.mem_cons.1 hstart with rfl | hstart
    · -- a name that nobody declares leads nowhere
      rcases ReflTransGen.cases_head hway with rfl | ⟨base, ⟨other, hother, -⟩, -⟩
      · rw [hd] at hnone
        cases hnone
      · rw [hother] at hnone
        cases hnone
    · exact ih hstart hway hd
  | case3 available name queue found hfound ih =>
    by_cases htype : type = name
    · subst htype
      rw [hfound] at hd
      cases hd
      exact List.mem_cons_self
    · have hd' : joined? (without available name) type = some d :=
        (joined?_without htype).trans hd
      refine List.mem_cons_of_mem _ ?_
      rcases extends_without hway name with hrest | ⟨base, ⟨other, hother, hbase⟩, hrest⟩
      · rcases List.mem_cons.1 hstart with rfl | hstart
        · -- the way starts at the type that is taken, so it ends there
          rcases ReflTransGen.cases_head hrest with rfl | ⟨base, ⟨other, hother, -⟩, -⟩
          · exact absurd rfl htype
          · rw [joined?_without_self] at hother
            cases hother
        · exact ih (List.mem_append_left _ hstart) hrest hd'
      · rw [hfound] at hother
        cases hother
        exact ih (List.mem_append_right _ hbase) hrest hd'

end Index

end QueryLint
