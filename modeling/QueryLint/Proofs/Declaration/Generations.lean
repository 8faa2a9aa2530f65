/-
The search through base types, generation by generation. The search is
one queue: a name is taken from the front, and the bases of what it
stands for go to the back. Seen in bulk, a list of names is used up
before anything that it puts into the queue comes up (`reach_append`),
so the types are found in generations: what the names stand for, then
what the bases listed there stand for, and so on, each type in the first
generation that it is in (`flatten_generations`).

# Distances

`Climbs decls names n base` says that `base` is reached from one of the
names by going from a type to one of its bases `n` times. A way from the
names to a type behind them leaves the first generation for good at some
point, and from there it is a way among the rest (`climbs_cases`); so
the generation of a type is the length of the shortest way to it
(`mem_generations_iff`), and a search that goes by generation finds
nearer types first (`pairwise_reach`).

# The end of the search

`Search` is the same search with a set of names that have been taken in
place of declarations that are left out. In each round a name leaves the
queue, and what enters it is listed by a declaration that has not been
used yet: so there are no more rounds than names and listed bases
(`Search.exists_ends`), whatever circles the bases make.
-/
import QueryLint.Proofs.Declaration.Contents

namespace QueryLint

open Relation (ReflTransGen)

namespace Index

-- ======================================================== leaving names out

/-- The declarations of the types that have none of the names. -/
def beyond (decls : List TypeDecl) (names : List String) : List TypeDecl :=
  decls.filter fun d => !names.contains d.name

theorem beyond_nil (decls : List TypeDecl) : beyond decls [] = decls := by
  unfold beyond
  simp

theorem beyond_without (decls : List TypeDecl) (name : String) (names : List String) :
    beyond (without decls name) names = beyond decls (name :: names) := by
  unfold beyond without
  rw [List.filter_filter]
  refine List.filter_congr fun d _ => ?_
  rw [List.contains_cons, Bool.not_or, Bool.and_comm]
  rfl

theorem without_beyond (decls : List TypeDecl) (name : String) (names : List String) :
    without (beyond decls names) name = beyond decls (name :: names) := by
  unfold beyond without
  rw [List.filter_filter]
  refine List.filter_congr fun d _ => ?_
  rw [List.contains_cons, Bool.not_or]
  rfl

theorem joined?_beyond (decls : List TypeDecl) (names : List String) (name : String) :
    joined? (beyond decls names) name = if name ∈ names then none else joined? decls name := by
  induction names generalizing decls with
  | nil => rw [beyond_nil, if_neg List.not_mem_nil]
  | cons gone names ih =>
    rw [← beyond_without, ih]
    by_cases hgone : name = gone
    · subst hgone
      rw [joined?_without_self, if_pos List.mem_cons_self, ite_self]
    · rw [joined?_without hgone]
      simp only [List.mem_cons, hgone, false_or]

/-- A type that nobody declares is not left out. -/
theorem without_of_joined?_eq_none {decls : List TypeDecl} {name : String}
    (h : joined? decls name = none) : without decls name = decls := by
  unfold without
  have hnone : decls.filter (·.name == name) = [] := by
    by_cases hnil : decls.filter (·.name == name) = []
    · exact hnil
    · have hsome := isSome_joined?_iff.2 hnil
      rw [h] at hsome
      cases hsome
  refine List.filter_eq_self.2 fun d hd => ?_
  simpa using List.filter_eq_nil_iff.1 hnone d hd

theorem extends_of_beyond {decls : List TypeDecl} {names : List String} {type base : String}
    (h : Extends (beyond decls names) type base) : Extends decls type base := by
  obtain ⟨d, hd, hbase⟩ := h
  rw [joined?_beyond] at hd
  split at hd
  · cases hd
  · exact ⟨d, hd, hbase⟩

-- ============================================================ one generation

/-- What some names stand for, each type at the first of its names. -/
def generation (available : List TypeDecl) : List String → List TypeDecl
  | [] => []
  | name :: names =>
    match joined? available name with
    | none => generation available names
    | some d => d :: generation (without available name) names

theorem generation_cons_of_none {available : List TypeDecl} {name : String}
    {names : List String} (h : joined? available name = none) :
    generation available (name :: names) = generation available names := by
  rw [generation, h]

theorem generation_cons_of_some {available : List TypeDecl} {name : String}
    {names : List String} {d : TypeDecl} (h : joined? available name = some d) :
    generation available (name :: names) = d :: generation (without available name) names := by
  rw [generation, h]

theorem mem_generation_iff {available : List TypeDecl} {names : List String} {d : TypeDecl} :
    d ∈ generation available names ↔ joined? available d.name = some d ∧ d.name ∈ names := by
  induction names generalizing available with
  | nil => simp [generation]
  | cons name names ih =>
    by_cases hname : d.name = name
    · subst hname
      cases hd : joined? available d.name with
      | none => simp [generation_cons_of_none hd, ih, hd]
      | some found =>
        rw [generation_cons_of_some hd, List.mem_cons, ih, joined?_without_self]
        simp [eq_comm]
    · cases hfound : joined? available name with
      | none => simp [generation_cons_of_none hfound, ih, hname]
      | some found =>
        have hne : d ≠ found := by
          intro heq
          exact hname (by rw [heq, name_of_joined? hfound])
        rw [generation_cons_of_some hfound, List.mem_cons, ih, joined?_without hname]
        simp [hne, hname]

/-- The bases that a generation lists are those of its names. -/
theorem mem_bases_generation_iff {available : List TypeDecl} {names : List String}
    {base : String} :
    base ∈ (generation available names).flatMap TypeDecl.bases ↔
      ∃ name ∈ names, Extends available name base := by
  rw [List.mem_flatMap]
  constructor
  · intro h
    obtain ⟨d, hd, hbase⟩ := h
    obtain ⟨hjoined, hname⟩ := mem_generation_iff.1 hd
    exact ⟨d.name, hname, d, hjoined, hbase⟩
  · intro h
    obtain ⟨name, hname, d, hd, hbase⟩ := h
    have heq := name_of_joined? hd
    subst heq
    exact ⟨d, mem_generation_iff.2 ⟨hd, hname⟩, hbase⟩

-- ================================================================ the queue

theorem reach_cons_of_none {available : List TypeDecl} {name : String} {queue : List String}
    (h : joined? available name = none) :
    reach available (name :: queue) = reach available queue := by
  rw [reach]
  split
  · rfl
  · next d hd =>
    rw [h] at hd
    cases hd

theorem reach_cons_of_some {available : List TypeDecl} {name : String} {queue : List String}
    {d : TypeDecl} (h : joined? available name = some d) :
    reach available (name :: queue) = d :: reach (without available name) (queue ++ d.bases) := by
  rw [reach]
  split
  · next hnone =>
    rw [h] at hnone
    cases hnone
  · next found hfound =>
    rw [h] at hfound
    cases hfound
    rfl

/-- What is in front of a queue is used up first, and the bases that it
lists are put behind the queue. -/
theorem reach_append (available : List TypeDecl) (names queue : List String) :
    reach available (names ++ queue)
      = generation available names
        ++ reach (beyond available names)
            (queue ++ (generation available names).flatMap TypeDecl.bases) := by
  induction names generalizing available queue with
  | nil => simp [generation, beyond_nil]
  | cons name names ih =>
    rw [List.cons_append, ← beyond_without]
    cases hd : joined? available name with
    | none =>
      rw [reach_cons_of_none hd, generation_cons_of_none hd, without_of_joined?_eq_none hd, ih]
    | some d =>
      rw [reach_cons_of_some hd, generation_cons_of_some hd, List.append_assoc, ih,
        List.flatMap_cons, List.append_assoc, List.cons_append]

/-- A search from some names finds these, and then searches from their
bases. -/
theorem reach_eq_generation (available : List TypeDecl) (names : List String) :
    reach available names
      = generation available names
        ++ reach (beyond available names)
            ((generation available names).flatMap TypeDecl.bases) := by
  have h := reach_append available names []
  rwa [List.append_nil, List.nil_append] at h

/-- No type is found twice. -/
theorem nodup_reach (available : List TypeDecl) (queue : List String) :
    ((reach available queue).map TypeDecl.name).Nodup := by
  fun_induction reach available queue with
  | case1 => exact List.nodup_nil
  | case2 available name queue hnone ih => exact ih
  | case3 available name queue d hd ih =>
    rw [List.map_cons]
    refine List.nodup_cons.2 ⟨?_, ih⟩
    intro h
    obtain ⟨found, hfound, hname⟩ := List.mem_map.1 h
    have hleft := joined?_of_mem_reach hfound
    rw [hname, name_of_joined? hd, joined?_without_self] at hleft
    cases hleft

-- =============================================================== generations

/-- The generations from some names on: what the names stand for, what
the bases listed there stand for, and so on. -/
def generations (available : List TypeDecl) (names : List String) : List (List TypeDecl) :=
  match _h : generation available names with
  | [] => []
  | d :: ds =>
    (d :: ds) :: generations (beyond available names) ((d :: ds).flatMap TypeDecl.bases)
termination_by available.length
decreasing_by
  obtain ⟨hjoined, hname⟩ := mem_generation_iff.1 (_h ▸ List.mem_cons_self (a := d) (l := ds))
  have hsome : (joined? available d.name).isSome = true := by
    rw [hjoined]
    rfl
  obtain ⟨decl, hdecl⟩ := List.exists_mem_of_ne_nil _ (isSome_joined?_iff.1 hsome)
  obtain ⟨hmem, heq⟩ := List.mem_filter.1 hdecl
  exact List.length_filter_lt_length_iff_exists.2 ⟨decl, hmem, by simp [eq_of_beq heq, hname]⟩

/-- A search finds type after type, generation after generation. -/
theorem flatten_generations (available : List TypeDecl) (names : List String) :
    (generations available names).flatten = reach available names := by
  fun_induction generations available names with
  | case1 available names hnil =>
    rw [reach_eq_generation, hnil, List.flatMap_nil, reach]
    rfl
  | case2 available names d ds hcons ih =>
    rw [reach_eq_generation, hcons, List.flatten_cons, ih]

-- ================================================================= distances

/-- `base` is reached from one of the names by going from a type to one
of its bases so many times. -/
inductive Climbs (decls : List TypeDecl) (names : List String) : Nat → String → Prop
  | start {name : String} (hname : name ∈ names) : Climbs decls names 0 name
  | up {n : Nat} {type base : String} (hway : Climbs decls names n type)
      (hbase : Extends decls type base) : Climbs decls names (n + 1) base

/-- How far `base` is from the names: the length of the shortest way. -/
structure IsDistance (decls : List TypeDecl) (names : List String) (base : String) (n : Nat) :
    Prop where
  climbs : Climbs decls names n base
  least : ∀ k, Climbs decls names k base → n ≤ k

variable {decls : List TypeDecl} {names : List String} {base : String}

theorem IsDistance.unique {m n : Nat} (hm : IsDistance decls names base m)
    (hn : IsDistance decls names base n) : m = n :=
  Nat.le_antisymm (hm.least n hn.climbs) (hn.least m hm.climbs)

theorem climbs_zero_iff : Climbs decls names 0 base ↔ base ∈ names := by
  constructor
  · intro h
    cases h with
    | start hname => exact hname
  · exact .start

theorem not_climbs_nil {n : Nat} : ¬ Climbs decls [] n base := by
  intro h
  induction h with
  | start hname => cases hname
  | up _ _ ih => exact ih

theorem isDistance_zero_iff : IsDistance decls names base 0 ↔ base ∈ names := by
  constructor
  · intro h
    exact climbs_zero_iff.1 h.climbs
  · intro h
    exact ⟨.start h, fun k _ => Nat.zero_le k⟩

theorem exists_climbs_iff {type : String} :
    (∃ n, Climbs decls [type] n base) ↔ ReflTransGen (Extends decls) type base := by
  constructor
  · intro h
    obtain ⟨n, h⟩ := h
    induction h with
    | start hname =>
      rw [List.mem_singleton.1 hname]
    | up _ hbase ih => exact ih.tail hbase
  · intro h
    induction h with
    | refl => exact ⟨0, .start (List.mem_singleton_self type)⟩
    | tail _ hbase ih =>
      obtain ⟨n, hway⟩ := ih
      exact ⟨n + 1, .up hway hbase⟩

/-- What can be reached is at some distance. -/
theorem exists_isDistance {n : Nat} (h : Climbs decls names n base) :
    ∃ k, IsDistance decls names base k := by
  induction n using Nat.strongRecOn with
  | ind n ih =>
    by_cases hleast : ∀ k, Climbs decls names k base → n ≤ k
    · exact ⟨n, h, hleast⟩
    · obtain ⟨k, hk⟩ := Classical.not_forall.1 hleast
      obtain ⟨hway, hlt⟩ := Classical.not_imp.1 hk
      exact ih k (Nat.lt_of_not_le hlt) hway

/-- A way has not left the names yet, or goes on from a base of one of
them and never comes back. -/
theorem climbs_cases {n : Nat} (h : Climbs decls names n base) :
    (n = 0 ∧ base ∈ names)
      ∨ ∃ m, m + 1 ≤ n
        ∧ Climbs (beyond decls names) ((generation decls names).flatMap TypeDecl.bases) m
            base := by
  induction h with
  | start hname => exact .inl ⟨rfl, hname⟩
  | @up n type base hway hbase ih =>
    by_cases hname : type ∈ names
    · exact .inr ⟨0, by omega, .start (mem_bases_generation_iff.2 ⟨type, hname, hbase⟩)⟩
    · rcases ih with ⟨-, hmem⟩ | ⟨m, hle, hrest⟩
      · exact absurd hmem hname
      · obtain ⟨d, hd, hmem⟩ := hbase
        have hbeyond : Extends (beyond decls names) type base :=
          ⟨d, by rw [joined?_beyond, if_neg hname, hd], hmem⟩
        exact .inr ⟨m + 1, by omega, .up hrest hbeyond⟩

/-- Behind the names, a way is one step longer than from their bases. -/
theorem climbs_succ {n : Nat}
    (h : Climbs (beyond decls names) ((generation decls names).flatMap TypeDecl.bases) n base) :
    Climbs decls names (n + 1) base := by
  induction h with
  | start hmem =>
    obtain ⟨name, hname, hbase⟩ := mem_bases_generation_iff.1 hmem
    exact .up (.start hname) hbase
  | up _ hbase ih => exact .up ih (extends_of_beyond hbase)

/-- Among the types behind the names, distances are one more than from
their bases. -/
theorem isDistance_succ_iff {n : Nat} (hname : base ∉ names) :
    IsDistance decls names base (n + 1) ↔
      IsDistance (beyond decls names) ((generation decls names).flatMap TypeDecl.bases) base
        n := by
  have hback : ∀ k, Climbs decls names k base → ∃ m, m + 1 ≤ k
      ∧ Climbs (beyond decls names) ((generation decls names).flatMap TypeDecl.bases) m base := by
    intro k hk
    rcases climbs_cases hk with ⟨-, hmem⟩ | hrest
    · exact absurd hmem hname
    · exact hrest
  constructor
  · intro h
    obtain ⟨m, hle, hrest⟩ := hback (n + 1) h.climbs
    have hge := h.least (m + 1) (climbs_succ hrest)
    obtain rfl : m = n := by omega
    refine ⟨hrest, fun k hk => ?_⟩
    have := h.least (k + 1) (climbs_succ hk)
    omega
  · intro h
    refine ⟨climbs_succ h.climbs, fun k hk => ?_⟩
    obtain ⟨m, hle, hrest⟩ := hback k hk
    have := h.least m hrest
    omega

/-- Each generation holds the declared types at its distance. -/
theorem mem_generations_iff {available : List TypeDecl} {names : List String} {n : Nat}
    {d : TypeDecl} :
    (∃ types, (generations available names)[n]? = some types ∧ d ∈ types) ↔
      joined? available d.name = some d ∧ IsDistance available names d.name n := by
  fun_induction generations available names generalizing n with
  | case1 available names hnil =>
    constructor
    · intro h
      obtain ⟨types, htypes, -⟩ := h
      cases htypes
    · intro h
      obtain ⟨hjoined, hdistance⟩ := h
      -- with nothing declared under the names, no way leads from them
      rcases climbs_cases hdistance.climbs with ⟨-, hname⟩ | ⟨m, -, hrest⟩
      · have hmem := mem_generation_iff.2 ⟨hjoined, hname⟩
        rw [hnil] at hmem
        cases hmem
      · rw [hnil] at hrest
        exact absurd hrest not_climbs_nil
  | case2 available names first rest hcons ih =>
    rw [← hcons] at ih ⊢
    cases n with
    | zero =>
      rw [List.getElem?_cons_zero]
      simp only [Option.some.injEq, exists_eq_left']
      rw [mem_generation_iff, isDistance_zero_iff]
    | succ n =>
      rw [List.getElem?_cons_succ, ih, joined?_beyond]
      by_cases hname : d.name ∈ names
      · rw [if_pos hname]
        constructor
        · intro h
          cases h.1
        · intro h
          have := h.2.least 0 (.start hname)
          omega
      · rw [if_neg hname, isDistance_succ_iff hname]

-- =========================================================== what is found

/-- What a search finds are the declared types that can be reached. -/
theorem mem_reach_iff {available : List TypeDecl} {names : List String} {d : TypeDecl} :
    d ∈ reach available names ↔
      joined? available d.name = some d ∧ ∃ n, IsDistance available names d.name n := by
  rw [← flatten_generations, List.mem_flatten]
  constructor
  · intro h
    obtain ⟨types, htypes, hd⟩ := h
    obtain ⟨n, hn⟩ := List.mem_iff_getElem?.1 htypes
    obtain ⟨hjoined, hdistance⟩ := mem_generations_iff.1 ⟨types, hn, hd⟩
    exact ⟨hjoined, n, hdistance⟩
  · intro h
    obtain ⟨hjoined, n, hdistance⟩ := h
    obtain ⟨types, hn, hd⟩ := mem_generations_iff.2 ⟨hjoined, hdistance⟩
    exact ⟨types, List.mem_of_getElem? hn, hd⟩

/-- Nearer types are found before those farther away. -/
theorem pairwise_reach (available : List TypeDecl) (names : List String) :
    (reach available names).Pairwise fun a b =>
      ∀ m n, IsDistance available names a.name m → IsDistance available names b.name n →
        m ≤ n := by
  have hdistance : ∀ {k : Nat} {types : List TypeDecl} {d : TypeDecl} {n : Nat},
      (generations available names)[k]? = some types → d ∈ types →
        IsDistance available names d.name n → n = k := by
    intro k types d n hk hd hn
    exact hn.unique (mem_generations_iff.1 ⟨types, hk, hd⟩).2
  rw [← flatten_generations]
  refine List.pairwise_flatten.2 ⟨?_, ?_⟩
  · intro types htypes
    obtain ⟨k, hk⟩ := List.mem_iff_getElem?.1 htypes
    refine List.pairwise_of_forall_mem_list ?_
    intro a ha b hb m n hm hn
    exact Nat.le_of_eq ((hdistance hk ha hm).trans (hdistance hk hb hn).symm)
  · rw [List.pairwise_iff_getElem]
    intro i j hi hj hij a ha b hb m n hm hn
    rw [hdistance (List.getElem?_eq_getElem hi) ha hm,
      hdistance (List.getElem?_eq_getElem hj) hb hn]
    omega

-- ============================================================== the rounds

/-- A search that is under way. -/
structure Search where
  /-- The names that have been taken from the queue. -/
  taken : List String
  queue : List String
  found : List TypeDecl

namespace Search

/-- One round: the name in front is taken from the queue and, the first
time, what it stands for is found. None if the queue is empty. -/
def round? (decls : List TypeDecl) (s : Search) : Option Search :=
  match s.queue with
  | [] => none
  | name :: queue =>
    if name ∈ s.taken then some { s with queue }
    else
      match joined? decls name with
      | none => some { s with taken := name :: s.taken, queue }
      | some d => some ⟨name :: s.taken, queue ++ d.bases, s.found ++ [d]⟩

/-- A search is over after so many rounds, having found these types. -/
inductive Ends (decls : List TypeDecl) : Search → Nat → List TypeDecl → Prop
  | over {s : Search} (h : s.round? decls = none) : Ends decls s 0 s.found
  | next {s s' : Search} {n : Nat} {found : List TypeDecl} (h : s.round? decls = some s')
      (hrest : Ends decls s' n found) : Ends decls s (n + 1) found

/-- Every search comes to its end, after no more rounds than there are
names in the queue and bases listed by what has not been taken. -/
theorem exists_ends (decls : List TypeDecl) (taken queue : List String) (found : List TypeDecl) :
    ∃ n ≤ queue.length + edges (beyond decls taken),
      Ends decls ⟨taken, queue, found⟩ n (found ++ reach (beyond decls taken) queue) := by
  induction hsize : queue.length + edges (beyond decls taken) using Nat.strongRecOn
    generalizing taken queue found with
  | ind size ih =>
    cases queue with
    | nil =>
      rw [reach, List.append_nil]
      exact ⟨0, Nat.zero_le _, .over rfl⟩
    | cons name queue =>
      rw [List.length_cons] at hsize
      by_cases hname : name ∈ taken
      · have hgone : joined? (beyond decls taken) name = none := by
          rw [joined?_beyond, if_pos hname]
        obtain ⟨n, hle, hends⟩ := ih _ (by omega) taken queue found rfl
        rw [reach_cons_of_none hgone]
        exact ⟨n + 1, by omega, .next (if_pos hname) hends⟩
      · have hjoined : joined? (beyond decls taken) name = joined? decls name := by
          rw [joined?_beyond, if_neg hname]
        cases hd : joined? decls name with
        | none =>
          rw [hd] at hjoined
          have hsame : beyond decls (name :: taken) = beyond decls taken := by
            rw [← without_beyond, without_of_joined?_eq_none hjoined]
          obtain ⟨n, hle, hends⟩ := ih _ (by rw [hsame]; omega) (name :: taken) queue found rfl
          rw [hsame] at hle hends
          rw [reach_cons_of_none hjoined]
          refine ⟨n + 1, by omega, .next ?_ hends⟩
          simp [round?, hname, hd]
        | some d =>
          rw [hd] at hjoined
          -- the bases that are put into the queue are no longer to come
          have hedges := edges_without (beyond decls taken) name
          rw [← bases_of_joined? hjoined, without_beyond] at hedges
          obtain ⟨n, hle, hends⟩ := ih _ (by rw [List.length_append]; omega) (name :: taken)
            (queue ++ d.bases) (found ++ [d]) rfl
          rw [List.length_append] at hle
          rw [reach_cons_of_some hjoined, without_beyond, List.append_cons]
          refine ⟨n + 1, by omega, .next ?_ hends⟩
          simp [round?, hname, hd]

end Search

-- ================================================================== lookups

variable (index : Index)

/-- A declared type at a distance from a type: so many steps from a type
to one of its bases lead to it, and no fewer. -/
structure AncestorAt (type : String) (n : Nat) (d : TypeDecl) : Prop where
  declared : joined? index.decls d.name = some d
  distance : IsDistance index.decls [type] d.name n

/-- An answer that a type and its bases give: none if none of those that
can be reached has one, and otherwise that of one which is as near as
any that has one. -/
structure AnsweredNearest {α : Type} (type : String) (ask : TypeDecl → Option α)
    (answer : Option α) : Prop where
  none_iff : answer = none ↔ ∀ d, joined? index.decls d.name = some d →
    ReflTransGen (Extends index.decls) type d.name → ask d = none
  nearest : ∀ a, answer = some a → ∃ n d, index.AncestorAt type n d ∧ ask d = some a
    ∧ ∀ m e, index.AncestorAt type m e → (ask e).isSome = true → n ≤ m

variable {index}

theorem mem_ancestry_iff {type : String} {d : TypeDecl} :
    d ∈ index.ancestry type ↔
      joined? index.decls d.name = some d ∧ ReflTransGen (Extends index.decls) type d.name := by
  unfold ancestry
  rw [mem_reach_iff, ← exists_climbs_iff]
  refine and_congr_right fun _ => ?_
  constructor
  · intro h
    obtain ⟨n, hn⟩ := h
    exact ⟨n, hn.climbs⟩
  · intro h
    obtain ⟨n, hn⟩ := h
    exact exists_isDistance hn

theorem mem_ancestry_iff_ancestorAt {type : String} {d : TypeDecl} :
    d ∈ index.ancestry type ↔ ∃ n, index.AncestorAt type n d := by
  unfold ancestry
  rw [mem_reach_iff]
  constructor
  · intro h
    obtain ⟨hjoined, n, hdistance⟩ := h
    exact ⟨n, hjoined, hdistance⟩
  · intro h
    obtain ⟨n, hjoined, hdistance⟩ := h
    exact ⟨hjoined, n, hdistance⟩

/-- The first answer along the ancestry is the nearest. -/
theorem answeredNearest_findSome? {α : Type} (type : String) (ask : TypeDecl → Option α) :
    index.AnsweredNearest type ask ((index.ancestry type).findSome? ask) := by
  constructor
  · rw [List.findSome?_eq_none_iff]
    simp only [mem_ancestry_iff, and_imp]
  · intro a ha
    obtain ⟨before, d, after, hsplit, hd, hbefore⟩ := List.findSome?_eq_some_iff.1 ha
    have hmem : d ∈ index.ancestry type := by
      rw [hsplit]
      exact List.mem_append_right _ List.mem_cons_self
    obtain ⟨n, hn⟩ := mem_ancestry_iff_ancestorAt.1 hmem
    refine ⟨n, d, hn, hd, ?_⟩
    intro m e he hsome
    have hsorted : (index.ancestry type).Pairwise _ := pairwise_reach index.decls [type]
    have hother := mem_ancestry_iff_ancestorAt.2 ⟨m, he⟩
    rw [hsplit] at hsorted hother
    rcases List.mem_append.1 hother with hfront | hrest
    · rw [hbefore e hfront] at hsome
      cases hsome
    · rcases List.mem_cons.1 hrest with rfl | hbehind
      · exact Nat.le_of_eq (hn.distance.unique he.distance)
      · obtain ⟨-, hafter, -⟩ := List.pairwise_append.1 hsorted
        exact (List.pairwise_cons.1 hafter).1 e hbehind n m hn.distance he.distance

/-- The search through the bases of a type, whatever its bases are. It
comes to an end after no more rounds than one for the type and one for
each base that is listed; it finds exactly the declared types that can be
reached from the type, each once, and nearer ones first. So a member or
method is found if any of them has it, and then in one that is as near
as any that has it. -/
theorem ancestry_complete_nearest_first (index : Index) (type : String) :
    (∃ n ≤ 1 + edges index.decls,
        Search.Ends index.decls ⟨[], [type], []⟩ n (index.ancestry type))
      ∧ (∀ d, d ∈ index.ancestry type ↔
        joined? index.decls d.name = some d ∧ ReflTransGen (Extends index.decls) type d.name)
      ∧ ((index.ancestry type).map TypeDecl.name).Nodup
      ∧ (index.ancestry type).Pairwise (fun a b => ∀ m n, index.AncestorAt type m a →
        index.AncestorAt type n b → m ≤ n)
      ∧ ∀ name, index.AnsweredNearest type (·.member? name) (index.memberType? type name)
        ∧ index.AnsweredNearest type (·.method? name) (index.method? type name) := by
  refine ⟨?_, fun d => mem_ancestry_iff, nodup_reach _ _, ?_, fun name => ⟨?_, ?_⟩⟩
  · have hends := Search.exists_ends index.decls [] [type] []
    rwa [beyond_nil, List.nil_append] at hends
  · refine (pairwise_reach index.decls [type]).imp ?_
    intro a b hle m n hm hn
    exact hle m n hm.distance hn.distance
  · exact answeredNearest_findSome? type _
  · exact answeredNearest_findSome? type _

/-- Four types with bases in circles, some listed twice and one declared
nowhere. -/
def tangled : Index where
  decls := [
    ⟨"A", ["B", "C", "A", "Missing"], [], []⟩,
    ⟨"B", ["D", "A", "D"], [], []⟩,
    ⟨"C", ["B", "C"], [("m", .plain "X")], []⟩,
    ⟨"D", ["A"], [("m", .plain "Y")], []⟩]

/-- Of the two types that have the member, the search from the first type
answers from one that is as near as the other. -/
theorem tangled_answered_nearest :
    (tangled.ancestry "A").map TypeDecl.name = ["A", "B", "C", "D"]
      ∧ tangled.memberType? "A" "m" = some (.plain "X")
      ∧ ∃ n d, tangled.AncestorAt "A" n d ∧ d.member? "m" = some (.plain "X")
        ∧ ∀ m e, tangled.AncestorAt "A" m e → (e.member? "m").isSome = true → n ≤ m := by
  have hnames : (tangled.ancestry "A").map TypeDecl.name = ["A", "B", "C", "D"] := by
    decide +kernel
  have hfound : tangled.memberType? "A" "m" = some (.plain "X") := by with_unfolding_all rfl
  obtain ⟨-, -, -, -, hlookup⟩ := ancestry_complete_nearest_first tangled "A"
  exact ⟨hnames, hfound, (hlookup "m").1.nearest _ hfound⟩

end Index

end QueryLint
