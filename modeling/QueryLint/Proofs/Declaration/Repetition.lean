/-
Repetition does no harm. An index only ever grows: a file that is added
twice says everything twice, and each part of a class may list the same
bases again. Nothing of that can be seen in a lookup.

# Repeated bases

A queue is used up generation by generation, and what a generation finds
depends on the names in it by their first occurrences alone
(`generation_eq_filterMap`). The bases that it puts into the queue for
the next generation are those of the types found, one list after the
other; and of lists one after the other, the first occurrences depend on
those of the lists (`eraseDups_append_congr`). So two indexes whose lists
of bases have the same first occurrences are searched in step, generation
by generation (`forall₂_reach`), whatever repetitions flood the queues.

# Repeated files

What a file says of a type the second time stands behind what it says the
first time. The last declaration of a member is then the last again, the
first of a method is still the first, and no base comes up first the
second time (`restates_of_add_twice`).
-/
import Mathlib.Data.List.Forall2
import QueryLint.Proofs.Declaration.Generations

namespace QueryLint

-- ======================================================== first occurrences

/-- Leaving elements out keeps the order of the first occurrences of the
others. -/
theorem eraseDups_filter {α : Type} [BEq α] [LawfulBEq α] (p : α → Bool) (xs : List α) :
    (xs.filter p).eraseDups = xs.eraseDups.filter p := by
  match xs with
  | [] => rfl
  | x :: xs =>
    have hrest := eraseDups_filter p (xs.filter fun y => !y == x)
    rw [List.eraseDups_cons, List.filter_cons, List.filter_cons, ← hrest, List.filter_filter]
    cases hp : p x with
    | true =>
      rw [if_pos rfl, if_pos rfl, List.eraseDups_cons, List.filter_filter]
      simp only [Bool.and_comm]
    | false =>
      rw [if_neg Bool.false_ne_true, if_neg Bool.false_ne_true]
      -- what passes is not the element that is left out here
      congr 1
      refine List.filter_congr fun y _ => ?_
      by_cases hy : y = x
      · simp [hy, hp]
      · simp [hy]
termination_by xs.length
decreasing_by exact Nat.lt_succ_of_le (List.length_filter_le _ _)

theorem mem_iff_of_eraseDups_eq {xs ys : List String} (h : xs.eraseDups = ys.eraseDups)
    (x : String) : x ∈ xs ↔ x ∈ ys := by
  rw [← List.mem_eraseDups, h, List.mem_eraseDups]

/-- The first occurrences in two lists, one after the other, depend on
those in each. -/
theorem eraseDups_append_congr {xs xs' ys ys' : List String}
    (hxs : xs.eraseDups = xs'.eraseDups) (hys : ys.eraseDups = ys'.eraseDups) :
    (xs ++ ys).eraseDups = (xs' ++ ys').eraseDups := by
  have hgone : ys.removeAll xs = ys.removeAll xs' := by
    refine List.filter_congr fun y _ => ?_
    rw [Bool.eq_iff_iff]
    simp only [Bool.not_eq_true', List.elem_eq_mem, decide_eq_false_iff_not,
      mem_iff_of_eraseDups_eq hxs y]
  rw [List.eraseDups_append, List.eraseDups_append, hxs, hgone, List.removeAll, List.removeAll,
    eraseDups_filter, eraseDups_filter, hys]

/-- A list behind another adds nothing by what the other has already. -/
theorem eraseDups_append_removeAll (xs ys : List String) :
    (xs ++ ys.removeAll xs).eraseDups = (xs ++ ys).eraseDups := by
  rw [List.eraseDups_append, List.eraseDups_append, List.removeAll, List.removeAll,
    List.filter_filter]
  simp only [Bool.and_self]

theorem eraseDups_append_of_subset {xs ys : List String} (h : ∀ y ∈ ys, y ∈ xs) :
    (xs ++ ys).eraseDups = xs.eraseDups := by
  have hnone : ys.removeAll xs = [] :=
    List.filter_eq_nil_iff.2 fun y hy => by simp [h y hy]
  rw [List.eraseDups_append, hnone, List.eraseDups_nil, List.append_nil]

-- ============================================================ the same bases

namespace TypeDecl

/-- Two accounts of a type list its bases in the same order, if each base
counts where it comes up first. -/
structure SameBases (d d' : TypeDecl) : Prop where
  name : d.name = d'.name
  bases : d.bases.eraseDups = d'.bases.eraseDups

/-- They also say the same of its members and methods. -/
structure Restates (d d' : TypeDecl) : Prop extends SameBases d d' where
  member : ∀ name, d.member? name = d'.member? name
  method : ∀ name, d.method? name = d'.method? name

theorem Restates.refl (d : TypeDecl) : d.Restates d :=
  ⟨⟨rfl, rfl⟩, fun _ => rfl, fun _ => rfl⟩

end TypeDecl

theorem rel_of_isSome_eq {α : Type} {R : α → α → Prop} {x y : Option α}
    (hsome : x.isSome = y.isSome) (h : ∀ a b, x = some a → y = some b → R a b) :
    Option.Rel R x y := by
  cases x with
  | none =>
    cases y with
    | none => exact .none
    | some b => cases hsome
  | some a =>
    cases y with
    | none => cases hsome
    | some b => exact .some (h a b rfl rfl)

namespace Index

/-- Of every type, two lists of declarations say related things. -/
def Corresponds (R : TypeDecl → TypeDecl → Prop) (decls decls' : List TypeDecl) : Prop :=
  ∀ type, Option.Rel R (joined? decls type) (joined? decls' type)

theorem Corresponds.sameBases {decls decls' : List TypeDecl}
    (h : Corresponds TypeDecl.Restates decls decls') :
    Corresponds TypeDecl.SameBases decls decls' := by
  intro type
  have htype := h type
  generalize joined? decls type = x at htype ⊢
  generalize joined? decls' type = y at htype ⊢
  cases htype with
  | none => exact .none
  | some hd => exact .some hd.toSameBases

-- =================================================================== in step

/-- A generation goes by the first occurrences of its names. -/
theorem generation_eq_filterMap (available : List TypeDecl) (names : List String) :
    generation available names = names.eraseDups.filterMap (joined? available) := by
  induction names generalizing available with
  | nil => rfl
  | cons name names ih =>
    have hwithout : joined? (without available name)
        = fun other => if (!other == name) then joined? available other else none := by
      funext other
      by_cases heq : other = name
      · subst heq
        simp [joined?_without_self]
      · simp [joined?_without heq, heq]
    have hrest : generation (without available name) names
        = (names.filter fun other => !other == name).eraseDups.filterMap (joined? available) := by
      rw [ih, hwithout, eraseDups_filter, List.filterMap_filter]
    rw [List.eraseDups_cons, List.filterMap_cons, ← hrest]
    cases hd : joined? available name with
    | none => rw [generation_cons_of_none hd, without_of_joined?_eq_none hd]
    | some d => rw [generation_cons_of_some hd]

theorem forall₂_generation {R : TypeDecl → TypeDecl → Prop} {decls decls' : List TypeDecl}
    (h : Corresponds R decls decls') {names names' : List String}
    (hnames : names.eraseDups = names'.eraseDups) :
    List.Forall₂ R (generation decls names) (generation decls' names') := by
  have hself : List.Forall₂ Eq names'.eraseDups names'.eraseDups := List.forall₂_refl _
  rw [generation_eq_filterMap, generation_eq_filterMap, hnames]
  refine List.rel_filterMap ?_ hself
  intro type type' heq
  rw [heq]
  exact h type'

theorem Corresponds.beyond {R : TypeDecl → TypeDecl → Prop} {decls decls' : List TypeDecl}
    (h : Corresponds R decls decls') {names names' : List String}
    (hnames : names.eraseDups = names'.eraseDups) :
    Corresponds R (beyond decls names) (beyond decls' names') := by
  intro type
  rw [joined?_beyond, joined?_beyond]
  simp only [mem_iff_of_eraseDups_eq hnames type]
  split
  · exact .none
  · exact h type

section

variable {R : TypeDecl → TypeDecl → Prop} (hR : ∀ d d', R d d' → d.SameBases d')

include hR

theorem eraseDups_bases {ds ds' : List TypeDecl} (h : List.Forall₂ R ds ds') :
    (ds.flatMap TypeDecl.bases).eraseDups = (ds'.flatMap TypeDecl.bases).eraseDups := by
  induction h with
  | nil => rfl
  | cons hd _ ih => exact eraseDups_append_congr (hR _ _ hd).bases ih

/-- Searches from the same names, repetitions apart, in declarations that
correspond find types that correspond, in the same order. -/
theorem forall₂_reach {decls decls' : List TypeDecl} (h : Corresponds R decls decls')
    {names names' : List String} (hnames : names.eraseDups = names'.eraseDups) :
    List.Forall₂ R (reach decls names) (reach decls' names') := by
  induction decls, names using generations.induct generalizing decls' names' with
  | case1 decls names hnil =>
    have hstep := forall₂_generation h hnames
    rw [hnil] at hstep
    rw [reach_eq_generation decls, reach_eq_generation decls', hnil,
      List.forall₂_nil_left_iff.1 hstep, List.flatMap_nil, reach, reach]
    exact .nil
  | case2 decls names d ds hcons ih =>
    have hstep := forall₂_generation h hnames
    have hbases := eraseDups_bases hR hstep
    rw [reach_eq_generation decls, reach_eq_generation decls']
    refine List.rel_append hstep ?_
    rw [hcons] at hbases ⊢
    exact ih (h.beyond hnames) hbases

end

-- =================================================================== lookups

theorem findSome?_eq_of_forall₂ {α β : Type} {S : α → α → Prop} {ask : α → Option β}
    (hask : ∀ a b, S a b → ask a = ask b) {xs ys : List α} (h : List.Forall₂ S xs ys) :
    xs.findSome? ask = ys.findSome? ask := by
  induction h with
  | nil => rfl
  | cons hab _ ih => rw [List.findSome?_cons, List.findSome?_cons, hask _ _ hab, ih]

/-- The same bases are searched in the same order. -/
theorem Corresponds.map_name_ancestry {index index' : Index}
    (h : Corresponds TypeDecl.SameBases index.decls index'.decls) (type : String) :
    (index.ancestry type).map TypeDecl.name = (index'.ancestry type).map TypeDecl.name := by
  have hstep : List.Forall₂ TypeDecl.SameBases (index.ancestry type) (index'.ancestry type) :=
    forall₂_reach (fun _ _ hd => hd) h rfl
  rw [← List.forall₂_eq_eq_eq, List.forall₂_map_left_iff, List.forall₂_map_right_iff]
  exact hstep.imp fun _ _ hd => hd.name

/-- Where the types found say the same as well, so does every lookup. -/
theorem Corresponds.agrees {index index' : Index}
    (h : Corresponds TypeDecl.Restates index.decls index'.decls) : index.Agrees index' := by
  have hstep : ∀ type, List.Forall₂ TypeDecl.Restates (index.ancestry type)
      (index'.ancestry type) :=
    fun type => forall₂_reach (fun _ _ hd => hd.toSameBases) h rfl
  constructor
  · funext type name
    exact findSome?_eq_of_forall₂ (fun _ _ hd => hd.member name) (hstep type)
  · funext type name
    exact findSome?_eq_of_forall₂ (fun _ _ hd => hd.method name) (hstep type)

-- =========================================================== restated bases

/-- Where a declaration is replaced by another of the same type, with
another list of bases, all that matters is what becomes of the bases of
that type. -/
theorem corresponds_replace {before after : List TypeDecl} {d : TypeDecl} {bases : List String}
    (h : ((before.filter (·.name == d.name)).flatMap TypeDecl.bases ++ d.bases).eraseDups
      = ((before.filter (·.name == d.name)).flatMap TypeDecl.bases ++ bases).eraseDups) :
    Corresponds TypeDecl.Restates (before ++ d :: after)
      (before ++ { d with bases } :: after) := by
  intro type
  by_cases htype : d.name = type
  · subst htype
    refine rel_of_isSome_eq ?_ ?_
    · rw [Bool.eq_iff_iff, isSome_joined?_iff, isSome_joined?_iff]
      simp
    · intro e e' he he'
      rw [eq_of_joined? he, eq_of_joined? he']
      refine ⟨⟨rfl, ?_⟩, fun name => ?_, fun name => ?_⟩
      · simp only [List.filter_append, List.filter_cons, beq_self_eq_true, if_true,
          List.flatMap_append, List.flatMap_cons]
        rw [← List.append_assoc, ← List.append_assoc]
        exact eraseDups_append_congr h rfl
      · simp [TypeDecl.member?]
      · simp [TypeDecl.method?]
  · have hsame : joined? (before ++ d :: after) type
        = joined? (before ++ { d with bases } :: after) type := by
      unfold joined?
      simp [List.filter_append, htype]
    rw [hsame]
    refine rel_of_isSome_eq rfl fun e e' he he' => ?_
    rw [Option.some.inj (he.symm.trans he')]
    exact .refl e'

-- ============================================================ repeated files

/-- An index with what one more document declares. -/
def add (index : Index) (doc : Document) : Index := ⟨index.decls ++ doc.declarations⟩

theorem index_add (comp : Compilation) (doc : Document) :
    (comp.add doc).index = comp.index.add doc := by
  unfold Compilation.index Compilation.add ofDocuments add
  rw [List.flatMap_append, List.flatMap_singleton]

/-- Declarations that are made again right away say nothing new. -/
theorem restates_of_add_twice (decls again : List TypeDecl) :
    Corresponds TypeDecl.Restates (decls ++ again ++ again) (decls ++ again) := by
  intro type
  refine rel_of_isSome_eq ?_ ?_
  · rw [Bool.eq_iff_iff, isSome_joined?_iff, isSome_joined?_iff]
    simp only [List.filter_append, ne_eq, List.append_eq_nil_iff, and_assoc, and_self]
  · intro d d' hd hd'
    rw [eq_of_joined? hd, eq_of_joined? hd']
    refine ⟨⟨rfl, ?_⟩, fun name => ?_, fun name => ?_⟩
    · simp only [List.filter_append, List.flatMap_append]
      refine eraseDups_append_of_subset fun base hbase => ?_
      exact List.mem_append_right _ hbase
    · -- the last of a member is in the second round, and in the first as well
      simp only [TypeDecl.member?, List.filter_append, List.flatMap_append, List.reverse_append,
        List.find?_append]
      rw [← Option.or_assoc, Option.or_self]
    · -- the first of a method is never in the second round only
      simp only [TypeDecl.method?, List.filter_append, List.flatMap_append, List.find?_append]
      rw [Option.or_assoc, Option.or_self]

/-- Repetition cannot be seen in a lookup. Where two indexes list the bases
of every type in the same order, each base counted where it comes up
first, a search comes by the same types in the same order; and if the
types have the same members and methods as well, every lookup gives the
same. So a declaration may as well leave out the bases that earlier
declarations of its type have listed; and adding a document twice in a
row is adding it once. -/
theorem repetition_not_seen :
    (∀ index index' : Index, Corresponds TypeDecl.SameBases index.decls index'.decls →
        ∀ type, (index.ancestry type).map TypeDecl.name
          = (index'.ancestry type).map TypeDecl.name)
      ∧ (∀ index index' : Index, Corresponds TypeDecl.Restates index.decls index'.decls →
        index.Agrees index')
      ∧ (∀ (before after : List TypeDecl) (d : TypeDecl),
        Agrees ⟨before ++ d :: after⟩
          ⟨before ++
            { d with
              bases := d.bases.removeAll
                ((before.filter (·.name == d.name)).flatMap TypeDecl.bases) } :: after⟩)
      ∧ (∀ (index : Index) (doc : Document), ((index.add doc).add doc).Agrees (index.add doc))
      ∧ ∀ (comp : Compilation) (doc : Document),
        ((comp.add doc).add doc).index.Agrees (comp.add doc).index := by
  have htwice : ∀ (index : Index) (doc : Document),
      ((index.add doc).add doc).Agrees (index.add doc) :=
    fun index doc => (restates_of_add_twice index.decls doc.declarations).agrees
  refine ⟨fun index index' h type => h.map_name_ancestry type, fun index index' h => h.agrees, ?_,
    htwice, ?_⟩
  · intro before after d
    refine Corresponds.agrees (corresponds_replace ?_)
    exact (eraseDups_append_removeAll _ _).symm
  · intro comp doc
    rw [index_add, index_add]
    exact htwice comp.index doc

/-- The tangled types with the one repetition among their bases left out. -/
def untwisted : Index where
  decls := [
    ⟨"A", ["B", "C", "A", "Missing"], [], []⟩,
    ⟨"B", ["D", "A"], [], []⟩,
    ⟨"C", ["B", "C"], [("m", .plain "X")], []⟩,
    ⟨"D", ["A"], [("m", .plain "Y")], []⟩]

/-- Leaving out a repeated base changes neither the search nor the lookup,
and neither does a document that is added again and lists all its bases
twice. -/
theorem tangled_repetition_not_seen :
    (tangled.ancestry "A").map TypeDecl.name = (untwisted.ancestry "A").map TypeDecl.name
      ∧ tangled.memberType? "A" "m" = untwisted.memberType? "A" "m"
      ∧ (joined? (((ofDocuments []).add .partials).add .partials).decls "P").map TypeDecl.bases
        = some ["B", "A", "B", "A"]
      ∧ (((ofDocuments []).add .partials).add .partials).memberType? "P" "x"
        = some (.plain "X") := by
  have hsame : Corresponds TypeDecl.Restates tangled.decls untwisted.decls := by
    let before : List TypeDecl := [⟨"A", ["B", "C", "A", "Missing"], [], []⟩]
    let twisted : TypeDecl := ⟨"B", ["D", "A", "D"], [], []⟩
    have hbases : ((before.filter (·.name == twisted.name)).flatMap TypeDecl.bases
          ++ twisted.bases).eraseDups
        = ((before.filter (·.name == twisted.name)).flatMap TypeDecl.bases
          ++ ["D", "A"]).eraseDups := by decide
    exact corresponds_replace hbases
  obtain ⟨hsearch, hlookup, -, htwice, -⟩ := repetition_not_seen
  refine ⟨hsearch _ _ hsame.sameBases "A", congrFun₂ (hlookup _ _ hsame).memberType? "A" "m",
    by decide +kernel, ?_⟩
  rw [(htwice (ofDocuments []) .partials).memberType?]
  with_unfolding_all rfl

end Index

end QueryLint
