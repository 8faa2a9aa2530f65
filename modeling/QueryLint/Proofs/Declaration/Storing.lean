/-
Declarations put away one by one. There is a table of types by name, and
each type has a list of bases and tables of members and methods. A node
that declares a type is looked up by its name, and put there first if it
is new; its bases go behind those that are there, a member takes the
place of one of its name, and a method is left out if there is one of its
name (`enter`).

Compared with this the index is a list, and what it says of a type is
joined when it is asked for. The two say the same. What a table has of a
type is what the declarations say between them (`stored?`), and each step
adds what it adds to a declaration: one base, one member or one method,
then all of a body, then one node (`enter_stored?`). So it is at the end
of a document, gone through with a stack (`takes_stored?_iff`), and of a
compilation (`fills_iff`).
-/
import Mathlib.Logic.Function.Basic
import QueryLint.Declaration.Index
import QueryLint.Proofs.Tree.Traversal

namespace QueryLint

-- ==================================================================== a type

namespace TypeDecl

/-- A declaration and behind it another. -/
def append (d d' : TypeDecl) : TypeDecl where
  name := d.name
  bases := d.bases ++ d'.bases
  members := d.members ++ d'.members
  methods := d.methods ++ d'.methods

theorem member?_append (d d' : TypeDecl) (name : String) :
    (d.append d').member? name = (d'.member? name).or (d.member? name) := by
  unfold member? append
  rw [List.reverse_append, List.find?_append, Option.map_or]

theorem method?_append (d d' : TypeDecl) (name : String) :
    (d.append d').method? name = (d.method? name).or (d'.method? name) :=
  List.find?_append

end TypeDecl

/-- What is stored of a type. -/
@[ext]
structure Stored where
  bases : List String
  members : String → Option Ty
  methods : String → Option Method

namespace Stored

/-- A type of which nothing is stored. -/
def blank : Stored := ⟨[], fun _ => none, fun _ => none⟩

def addBase (s : Stored) (name : String) : Stored := { s with bases := s.bases ++ [name] }

/-- A member takes the place of one of its name. -/
def addMember (s : Stored) (m : String × Ty) : Stored :=
  { s with members := Function.update s.members m.1 (some m.2) }

/-- A method is left out if there is one of its name. -/
def addMethod (s : Stored) (m : Method) : Stored :=
  if (s.methods m.name).isSome then s
  else { s with methods := Function.update s.methods m.name (some m) }

/-- A declaration in the body of the type `owner` is read. -/
def addFromBody (src : Source) (owner : String) (s : Stored) (member : Tree) : Stored :=
  (TypeDecl.methodOf? src owner member).toList.foldl addMethod
    ((TypeDecl.membersOf src member).foldl addMember s)

/-- What there was, and behind it what a declaration says. -/
def join (s : Stored) (d : TypeDecl) : Stored where
  bases := s.bases ++ d.bases
  members name := (d.member? name).or (s.members name)
  methods name := (s.methods name).or (d.method? name)

theorem join_append (s : Stored) (d d' : TypeDecl) :
    s.join (d.append d') = (s.join d).join d' := by
  refine Stored.ext ?_ (funext fun name => ?_) (funext fun name => ?_)
  · exact (List.append_assoc s.bases d.bases d'.bases).symm
  · show ((d.append d').member? name).or _ = _
    rw [d.member?_append, Option.or_assoc]
    rfl
  · show (s.methods name).or ((d.append d').method? name) = _
    rw [d.method?_append, ← Option.or_assoc]
    rfl

/-- A declaration that says nothing adds nothing. -/
theorem join_nothing (s : Stored) (name : String) : s.join ⟨name, [], [], []⟩ = s := by
  refine Stored.ext ?_ (funext fun _ => ?_) (funext fun _ => ?_)
  · exact List.append_nil _
  · rfl
  · exact Option.or_none

/-- All that is stored of a type from declarations that come to `d`. -/
def ofDecl (d : TypeDecl) : Stored := ⟨d.bases, d.member?, d.method?⟩

theorem blank_join (d : TypeDecl) : blank.join d = ofDecl d :=
  Stored.ext rfl (funext fun _ => Option.or_none) rfl

theorem ofDecl_join (d d' : TypeDecl) : (ofDecl d).join d' = ofDecl (d.append d') := by
  rw [← blank_join, ← join_append, blank_join]

variable (owner : String)

theorem addMember_eq (s : Stored) (m : String × Ty) :
    s.addMember m = s.join ⟨owner, [], [m], []⟩ := by
  refine Stored.ext ?_ (funext fun name => ?_) (funext fun _ => ?_)
  · exact (List.append_nil _).symm
  · show Function.update s.members m.1 (some m.2) name
      = (([m].find? (·.1 == name)).map (·.2)).or (s.members name)
    by_cases hname : m.1 = name
    · simp [hname]
    · simp [hname, Ne.symm hname]
  · exact Option.or_none.symm

theorem addMethod_eq (s : Stored) (m : Method) : s.addMethod m = s.join ⟨owner, [], [], [m]⟩ := by
  unfold addMethod
  cases hfirst : s.methods m.name with
  | some first =>
    refine Stored.ext (List.append_nil _).symm rfl (funext fun name => ?_)
    show s.methods name = (s.methods name).or ([m].find? (·.name == name))
    by_cases hname : m.name = name
    · simp [← hname, hfirst]
    · simp [hname]
  | none =>
    refine Stored.ext (List.append_nil _).symm rfl (funext fun name => ?_)
    show Function.update s.methods m.name (some m) name
      = (s.methods name).or ([m].find? (·.name == name))
    by_cases hname : m.name = name
    · simp [← hname, hfirst]
    · simp [hname, Ne.symm hname]

/-- If each step adds what a list of one thing declares, all steps
together add what the whole list declares. -/
theorem foldl_eq_join {α : Type} {step : Stored → α → Stored} (said : List α → TypeDecl)
    (hnil : said [] = ⟨owner, [], [], []⟩)
    (hcons : ∀ x xs, said (x :: xs) = (said [x]).append (said xs))
    (hstep : ∀ s x, step s x = s.join (said [x])) (xs : List α) (s : Stored) :
    xs.foldl step s = s.join (said xs) := by
  induction xs generalizing s with
  | nil => rw [hnil, join_nothing]; rfl
  | cons x xs ih => rw [List.foldl_cons, ih, hstep, ← join_append, ← hcons]

theorem foldl_addBase (names : List String) (s : Stored) :
    names.foldl addBase s = s.join ⟨owner, names, [], []⟩ := by
  have hstep : ∀ (s : Stored) name, s.addBase name = s.join ⟨owner, [name], [], []⟩ :=
    fun _ _ => Stored.ext rfl rfl (funext fun _ => Option.or_none.symm)
  exact foldl_eq_join owner (fun names => ⟨owner, names, [], []⟩) rfl (fun _ _ => rfl) hstep names s

theorem foldl_addMember (ms : List (String × Ty)) (s : Stored) :
    ms.foldl addMember s = s.join ⟨owner, [], ms, []⟩ :=
  foldl_eq_join owner (fun ms => ⟨owner, [], ms, []⟩) rfl (fun _ _ => rfl) (addMember_eq owner) ms s

theorem foldl_addMethod (ms : List Method) (s : Stored) :
    ms.foldl addMethod s = s.join ⟨owner, [], [], ms⟩ :=
  foldl_eq_join owner (fun ms => ⟨owner, [], [], ms⟩) rfl (fun _ _ => rfl) (addMethod_eq owner) ms s

/-- A body adds the members and the methods that it declares, although it
is read for both at once. -/
theorem foldl_addFromBody (src : Source) (body : List Tree) (s : Stored) :
    body.foldl (addFromBody src owner) s
      = s.join ⟨owner, [], body.flatMap (TypeDecl.membersOf src),
          body.filterMap (TypeDecl.methodOf? src owner)⟩ := by
  simp only [List.filterMap_eq_flatMap_toList]
  refine foldl_eq_join owner (fun body => ⟨owner, [], body.flatMap (TypeDecl.membersOf src),
    body.flatMap fun member => (TypeDecl.methodOf? src owner member).toList⟩) rfl ?_ ?_ body s
  · intro member body
    simp only [TypeDecl.append, List.flatMap_cons, List.flatMap_nil, List.append_nil]
  · intro s member
    rw [addFromBody, foldl_addMethod owner, foldl_addMember owner, ← join_append,
      List.flatMap_singleton, List.flatMap_singleton, TypeDecl.append]
    simp only [List.append_nil, List.nil_append]

end Stored

-- ================================================================= the table

namespace Index

/-- What is stored of a type if the index has these declarations. -/
def stored? (decls : List TypeDecl) (name : String) : Option Stored :=
  (joined? decls name).map Stored.ofDecl

/-- A node is come by: if it declares a type and names it, what it says is
put with what there is of the type. -/
def enter (src : Source) (table : String → Option Stored) (c : Cursor) : String → Option Stored :=
  if c.kind.declaresType then
    match c.focus.child? .name with
    | none => table
    | some label =>
      let name := src.text label
      let s := (TypeDecl.basesOf src c.focus).foldl Stored.addBase ((table name).getD .blank)
      Function.update table name
        (some ((TypeDecl.bodyOf c.focus).foldl (Stored.addFromBody src name) s))
  else table

/-- Of a node a table takes what the node declares. -/
theorem enter_eq (src : Source) (table : String → Option Stored) (c : Cursor) :
    enter src table c
      = match TypeDecl.ofTree? src c.focus with
        | none => table
        | some d => Function.update table d.name (some (((table d.name).getD .blank).join d)) := by
  unfold enter TypeDecl.ofTree?
  show (if c.focus.kind.declaresType = true then _ else _) = _
  split
  · cases c.focus.child? .name with
    | none => rfl
    | some label =>
      dsimp only [Option.map_some]
      rw [Stored.foldl_addFromBody, Stored.foldl_addBase (src.text label), ← Stored.join_append]
      simp only [TypeDecl.append, List.append_nil, List.nil_append]
  · rfl

theorem joined?_concat_of_ne (decls : List TypeDecl) {d : TypeDecl} {name : String}
    (h : d.name ≠ name) : joined? (decls ++ [d]) name = joined? decls name := by
  have hnone : [d].filter (·.name == name) = [] :=
    List.filter_cons_of_neg (by simpa using h)
  unfold joined?
  rw [List.filter_append, hnone, List.append_nil]

/-- One declaration more is joined behind the others of its name. -/
theorem joined?_concat_self (decls : List TypeDecl) (d : TypeDecl) :
    joined? (decls ++ [d]) d.name
      = some (((joined? decls d.name).map (·.append d)).getD d) := by
  have hself : [d].filter (·.name == d.name) = [d] :=
    List.filter_cons_of_pos (beq_self_eq_true d.name)
  unfold joined?
  rw [List.filter_append, hself]
  cases decls.filter (·.name == d.name) with
  | nil => simp
  | cons first rest => simp [TypeDecl.append]

theorem stored?_concat (decls : List TypeDecl) (d : TypeDecl) :
    stored? (decls ++ [d])
      = Function.update (stored? decls) d.name
          (some (((stored? decls d.name).getD .blank).join d)) := by
  funext name
  by_cases hname : d.name = name
  · subst hname
    rw [Function.update_self, stored?, stored?, joined?_concat_self]
    cases joined? decls d.name with
    | none => exact congrArg some (Stored.blank_join d).symm
    | some before => exact congrArg some (Stored.ofDecl_join before d).symm
  · rw [Function.update_of_ne (Ne.symm hname), stored?, stored?, joined?_concat_of_ne decls hname]

/-- A node more is what it declares more. -/
theorem enter_stored? (src : Source) (decls : List TypeDecl) (c : Cursor) :
    enter src (stored? decls) c = stored? (decls ++ (TypeDecl.ofTree? src c.focus).toList) := by
  rw [enter_eq]
  cases TypeDecl.ofTree? src c.focus with
  | none => rw [Option.toList_none, List.append_nil]
  | some d => exact (stored?_concat decls d).symm

theorem foldl_enter (src : Source) (decls : List TypeDecl) (cs : List Cursor) :
    cs.foldl (enter src) (stored? decls)
      = stored? (decls ++ cs.filterMap fun c => TypeDecl.ofTree? src c.focus) := by
  induction cs generalizing decls with
  | nil => rw [List.filterMap_nil, List.append_nil]; rfl
  | cons c cs ih =>
    rw [List.foldl_cons, enter_stored?, ih, List.append_assoc,
      List.filterMap_eq_flatMap_toList, List.filterMap_eq_flatMap_toList, List.flatMap_cons]

-- ================================================================= documents

/-- A document is gone through with a stack, and what was stored before
becomes what is stored after. -/
def Takes (doc : Document) (before after : String → Option Stored) : Prop :=
  ∃ n, Traversal.Ends (ε := Empty) (fun table c => .ok (enter doc.source table c))
    ⟨[doc.tree.root], before⟩ n (.ok after)

/-- A document more is what it declares more. -/
theorem takes_stored?_iff (doc : Document) (decls : List TypeDecl)
    (after : String → Option Stored) :
    Takes doc (stored? decls) after ↔ after = stored? (decls ++ doc.declarations) := by
  have hfold : ∀ (cs : List Cursor) (table : String → Option Stored),
      cs.foldlM (fun table c => (.ok (enter doc.source table c) : Except Empty _)) table
        = .ok (cs.foldl (enter doc.source) table) := by
    intro cs
    induction cs with
    | nil => intro table; rfl
    | cons c cs ih => intro table; exact ih _
  rw [Takes, Traversal.ends_root_iff, hfold, foldl_enter, Except.ok.injEq]
  rfl

/-- Documents are taken in one after the other. -/
inductive Fills : List Document → (before after : String → Option Stored) → Prop
  | nil (table : String → Option Stored) : Fills [] table table
  | cons {doc : Document} {docs : List Document} {before middle after : String → Option Stored}
      (hdoc : Takes doc before middle) (hdocs : Fills docs middle after) :
      Fills (doc :: docs) before after

theorem fills_stored?_iff (docs : List Document) (decls : List TypeDecl)
    (after : String → Option Stored) :
    Fills docs (stored? decls) after
      ↔ after = stored? (decls ++ docs.flatMap Document.declarations) := by
  induction docs generalizing decls with
  | nil =>
    rw [List.flatMap_nil, List.append_nil]
    constructor
    · intro h
      cases h
      rfl
    · intro h
      rw [h]
      exact .nil _
  | cons doc docs ih =>
    rw [List.flatMap_cons, ← List.append_assoc, ← ih]
    constructor
    · intro h
      cases h with
      | cons hdoc hdocs =>
        rw [(takes_stored?_iff doc decls _).1 hdoc] at hdocs
        exact hdocs
    · intro h
      exact .cons ((takes_stored?_iff doc decls _).2 rfl) h

/-- After all documents the table has what the index says. -/
theorem fills_iff (docs : List Document) (after : String → Option Stored) :
    Fills docs (fun _ => none) after ↔ after = stored? (ofDocuments docs).decls :=
  fills_stored?_iff docs [] after

end Index

end QueryLint
