/-
The order in which the bases of a type are searched. Of two bases, one
could be followed all the way up before the other is looked at
(`depthFirst`, `depthFirst_visit`): the search does not do so. It goes by
generation, all bases of a type before any of their bases
(`ancestry_by_generations`).

The two orders part only where some type has two bases that are declared.
With one such base at most there is a single line of types to go along,
and names that nobody declares, however many are listed, hold up neither
search (`reach_eq_depthFirst`). With two of them, a member that both
branches have may be answered from the wrong one: an interface hides what
a class inherits (`member_of_later_base_found`).
-/
import QueryLint.Proofs.Declaration.Generations

namespace QueryLint

namespace Index

-- ============================================================== depth first

/-- The types to be found from some names, each followed by all that its
bases lead to before the next name comes up. -/
def depthFirst (available : List TypeDecl) : List String → List TypeDecl
  | [] => []
  | name :: names =>
    match _h : joined? available name with
    | none => depthFirst available names
    | some d => d :: depthFirst (without available name) (d.bases ++ names)
termination_by names => names.length + edges available
decreasing_by
  · simp
  · have := edges_without available name
    have := congrArg List.length (bases_of_joined? ‹_›)
    simp only [List.length_append, List.length_cons]
    omega

theorem depthFirst_cons_of_some {available : List TypeDecl} {name : String}
    {names : List String} {d : TypeDecl} (h : joined? available name = some d) :
    depthFirst available (name :: names)
      = d :: depthFirst (without available name) (d.bases ++ names) := by
  rw [depthFirst]
  split
  · next hnone =>
    rw [h] at hnone
    cases hnone
  · next found hfound =>
    rw [h] at hfound
    cases hfound
    rfl

/-- All that the first names lead to comes before what is left for the
others. -/
theorem depthFirst_append (available : List TypeDecl) (names others : List String) :
    depthFirst available (names ++ others)
      = depthFirst available names
        ++ depthFirst (beyond available ((depthFirst available names).map TypeDecl.name))
            others := by
  fun_induction depthFirst available names with
  | case1 available => rw [List.nil_append, List.nil_append, List.map_nil, beyond_nil]
  | case2 available name names hnone ih =>
    rw [List.cons_append, ← ih, depthFirst]
    split
    · rfl
    · next d hd =>
      rw [hnone] at hd
      cases hd
  | case3 available name names d hd ih =>
    rw [List.cons_append, depthFirst_cons_of_some hd, ← List.append_assoc, ih, List.map_cons,
      name_of_joined? hd, ← beyond_without, List.cons_append]

/-- Depth first: a type, its bases with all their bases, and then the
other names, without what has been found. -/
theorem depthFirst_visit {available : List TypeDecl} {name : String} {names : List String}
    {d : TypeDecl} (h : joined? available name = some d) :
    depthFirst available (name :: names)
      = d :: (depthFirst (without available name) d.bases
        ++ depthFirst (beyond (without available name)
            ((depthFirst (without available name) d.bases).map TypeDecl.name)) names) := by
  rw [depthFirst_cons_of_some h, depthFirst_append]

-- ============================================================= a single line

/-- Of the names at most one is declared, however often it is listed. -/
def AtMostOneDeclared (decls : List TypeDecl) (names : List String) : Prop :=
  ∀ a ∈ names, ∀ b ∈ names, (joined? decls a).isSome = true →
    (joined? decls b).isSome = true → a = b

instance (decls : List TypeDecl) (names : List String) :
    Decidable (AtMostOneDeclared decls names) :=
  inferInstanceAs (Decidable (∀ a ∈ names, ∀ b ∈ names, _))

theorem AtMostOneDeclared.without {decls : List TypeDecl} {names : List String}
    (h : AtMostOneDeclared decls names) (name : String) :
    AtMostOneDeclared (without decls name) names := by
  have hdeclared : ∀ a, (joined? (Index.without decls name) a).isSome = true →
      (joined? decls a).isSome = true := by
    intro a ha
    by_cases heq : a = name
    · rw [heq, joined?_without_self] at ha
      cases ha
    · rwa [joined?_without heq] at ha
  intro a ha b hb hda hdb
  exact h a ha b hb (hdeclared a hda) (hdeclared b hdb)

/-- Names that nobody declares, in front of a queue, come to nothing. -/
theorem reach_undeclared_append {available : List TypeDecl} {names : List String}
    (h : ∀ name ∈ names, joined? available name = none) (queue : List String) :
    reach available (names ++ queue) = reach available queue := by
  induction names with
  | nil => rfl
  | cons name names ih =>
    rw [List.cons_append, reach_cons_of_none (h name List.mem_cons_self)]
    exact ih fun other hother => h other (List.mem_cons_of_mem _ hother)

/-- Nor do they behind it. -/
theorem reach_append_undeclared {available : List TypeDecl} {names : List String}
    (h : ∀ name ∈ names, joined? available name = none) (queue : List String) :
    reach available (queue ++ names) = reach available queue := by
  have hbeyond : ∀ name ∈ names, joined? (beyond available queue) name = none := by
    intro name hname
    rw [joined?_beyond, h name hname, ite_self]
  rw [reach_append, reach_undeclared_append hbeyond, ← reach_eq_generation]

/-- Where at each type at most one base goes on, the search is depth
first. -/
theorem reach_eq_depthFirst {available : List TypeDecl} {names : List String}
    (hnames : AtMostOneDeclared available names)
    (hbases : ∀ d ∈ reach available names, AtMostOneDeclared available d.bases) :
    reach available names = depthFirst available names := by
  fun_induction depthFirst available names with
  | case1 => rw [reach]
  | case2 available name names hnone ih =>
    rw [reach_cons_of_none hnone] at hbases ⊢
    exact ih (fun a ha b hb => hnames a (List.mem_cons_of_mem _ ha) b (List.mem_cons_of_mem _ hb))
      hbases
  | case3 available name names d hd ih =>
    -- every other name is this one again, or declared nowhere
    have hothers : ∀ other ∈ names, joined? (without available name) other = none := by
      intro other hother
      by_cases heq : other = name
      · rw [heq, joined?_without_self]
      · rw [joined?_without heq]
        cases hfound : joined? available other with
        | none => rfl
        | some found =>
          exact absurd (hnames other (List.mem_cons_of_mem _ hother) name List.mem_cons_self
            (by rw [hfound]; rfl) (by rw [hd]; rfl)) heq
    have hswap : reach (without available name) (names ++ d.bases)
        = reach (without available name) (d.bases ++ names) := by
      rw [reach_undeclared_append hothers, reach_append_undeclared hothers]
    rw [reach_cons_of_some hd, hswap] at hbases
    rw [reach_cons_of_some hd, hswap, ih ?_ ?_]
    · intro a ha b hb hda hdb
      have hmem : ∀ {c : String}, c ∈ d.bases ++ names →
          (joined? (without available name) c).isSome = true → c ∈ d.bases := by
        intro c hc hdc
        rcases List.mem_append.1 hc with hc | hc
        · exact hc
        · rw [hothers c hc] at hdc
          cases hdc
      exact (hbases d List.mem_cons_self).without name a (hmem ha hda) b (hmem hb hdb) hda hdb
    · intro e he
      exact (hbases e (List.mem_cons_of_mem _ he)).without name

/-- The search for what a type inherits takes the types in generations,
the bases of one in the order of the types that list them. Where no type
that it comes by lists two declared bases, this is the depth-first order,
and what is found is what comes first depth first. -/
theorem ancestry_by_generations (index : Index) (type : String) :
    index.ancestry type = (generations index.decls [type]).flatten
      ∧ ((∀ d ∈ index.ancestry type, AtMostOneDeclared index.decls d.bases) →
        index.ancestry type = depthFirst index.decls [type]
          ∧ ∀ name,
            index.memberType? type name
                = (depthFirst index.decls [type]).findSome? (·.member? name)
              ∧ index.method? type name
                = (depthFirst index.decls [type]).findSome? (·.method? name)) := by
  refine ⟨(flatten_generations _ _).symm, ?_⟩
  intro hbases
  have hone : AtMostOneDeclared index.decls [type] := by
    intro a ha b hb _ _
    rw [List.mem_singleton.1 ha, List.mem_singleton.1 hb]
  have horder : index.ancestry type = depthFirst index.decls [type] :=
    reach_eq_depthFirst hone hbases
  refine ⟨horder, fun name => ⟨?_, ?_⟩⟩
  · rw [memberType?, horder]
  · rw [method?, horder]

end Index

/-- A class with a base class and an interface. The base class inherits a
field that the interface has a property of the same name as. -/
def Document.twoBases : Document where
  path := "B.cs"
  source := .ofText ("class A:B,I\x7b\x7dclass B:D\x7b\x7d" ++
    "interface I\x7bX m=>null;\x7dclass D\x7bY m;\x7d")
  tree :=
    named (.other "compilation_unit") none 0 60 [
      named .classDeclaration none 0 13 [
        token "class" 0 5,
        named .identifier (some .name) 6 7 [],
        named .baseList none 7 11 [
          token ":" 7 8,
          named .identifier none 8 9 [],
          token "," 9 10,
          named .identifier none 10 11 []],
        named (.other "declaration_list") (some .body) 11 13 [
          token "\x7b" 11 12,
          token "\x7d" 12 13]],
      named .classDeclaration none 13 24 [
        token "class" 13 18,
        named .identifier (some .name) 19 20 [],
        named .baseList none 20 22 [
          token ":" 20 21,
          named .identifier none 21 22 []],
        named (.other "declaration_list") (some .body) 22 24 [
          token "\x7b" 22 23,
          token "\x7d" 23 24]],
      named .interfaceDeclaration none 24 47 [
        token "interface" 24 33,
        named .identifier (some .name) 34 35 [],
        named (.other "declaration_list") (some .body) 35 47 [
          token "\x7b" 35 36,
          named .propertyDeclaration none 36 46 [
            named .identifier (some .type) 36 37 [],
            named .identifier (some .name) 38 39 [],
            named (.other "arrow_expression_clause") (some (.other "value")) 39 45 [
              token "=>" 39 41,
              named (.other "null_literal") none 41 45 []],
            token ";" 45 46],
          token "\x7d" 46 47]],
      named .classDeclaration none 47 60 [
        token "class" 47 52,
        named .identifier (some .name) 53 54 [],
        named (.other "declaration_list") (some .body) 54 60 [
          token "\x7b" 54 55,
          named .fieldDeclaration none 55 59 [
            named .variableDeclaration none 55 58 [
              named .identifier (some .type) 55 56 [],
              named .variableDeclarator none 57 58 [
                named .identifier (some .name) 57 58 []]],
            token ";" 58 59],
          token "\x7d" 59 60]]]
where
  named := sample.named
  token := twoDeclarators.token

namespace Index

/-- From the base class there is a single line to go along. -/
theorem two_bases_single_line :
    ((ofDocuments [.twoBases]).ancestry "B").map TypeDecl.name = ["B", "D"]
      ∧ (ofDocuments [.twoBases]).ancestry "B"
        = depthFirst (ofDocuments [.twoBases]).decls ["B"] := by
  have hnames : ((ofDocuments [.twoBases]).ancestry "B").map TypeDecl.name = ["B", "D"] := by
    decide +kernel
  have hbases : ∀ d ∈ (ofDocuments [.twoBases]).ancestry "B",
      AtMostOneDeclared (ofDocuments [.twoBases]).decls d.bases := by decide +kernel
  exact ⟨hnames, ((ancestry_by_generations (ofDocuments [.twoBases]) "B").2 hbases).1⟩

/-- The field that the class inherits comes first depth first, and what
is found is the property of the interface. -/
theorem member_of_later_base_found :
    (depthFirst (ofDocuments [.twoBases]).decls ["A"]).map TypeDecl.name = ["A", "B", "D", "I"]
      ∧ ((ofDocuments [.twoBases]).ancestry "A").map TypeDecl.name = ["A", "B", "I", "D"]
      ∧ (depthFirst (ofDocuments [.twoBases]).decls ["A"]).findSome? (·.member? "m")
        = some (.plain "Y")
      ∧ (ofDocuments [.twoBases]).memberType? "A" "m" = some (.plain "X")
      ∧ ¬ ∀ (index : Index) (type : String),
        index.ancestry type = depthFirst index.decls [type] := by
  have hdepth : (depthFirst (ofDocuments [.twoBases]).decls ["A"]).map TypeDecl.name
      = ["A", "B", "D", "I"] := by decide +kernel
  have hnames : ((ofDocuments [.twoBases]).ancestry "A").map TypeDecl.name
      = ["A", "B", "I", "D"] := by decide +kernel
  refine ⟨hdepth, hnames, by with_unfolding_all rfl, by with_unfolding_all rfl, ?_⟩
  intro h
  rw [h, hdepth] at hnames
  exact absurd hnames (by decide)

end Index

end QueryLint
