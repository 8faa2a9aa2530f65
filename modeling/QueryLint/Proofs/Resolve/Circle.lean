/-
Resolutions that do not end. An activation calls the resolver once at
most, and what on is told by its node alone; so from a node on, the calls
make one line. Either the line comes to a node that is known outright,
and then it has passed no node twice and is no longer than the tree is
large (`Settles.length_trail_le`), or it can be followed for ever. There
are only so many nodes, so that a line without end comes back to one of
them (`IsLine.exists_revisit`), and from there on it repeats itself: that is a
circle, and nothing but a circle makes a resolution fail
(`resolve_eq_error_iff`). More levels than the tree has nodes are of no
use either way.
-/
import QueryLint.Proofs.Resolve.Activation
import QueryLint.Proofs.Resolve.Trail
import QueryLint.Proofs.Scope.Visible

namespace QueryLint

open Relation (ReflTransGen TransGen)

namespace Model

variable {m : Model}

-- ============================================================== the next call

theorem top_of_calls {c other : Cursor} (h : m.Calls c other) : other.top = c.top := by
  obtain ⟨wanted, hstep⟩ := m.calls_iff.1 h
  exact top_of_step hstep

/-- What is asked on the way settles by a shorter trail. -/
theorem Settles.of_calls {c other : Cursor} {type : Option Ty} {trail : List Cursor}
    (h : m.Settles c type trail) (hcalls : m.Calls c other) :
    ∃ type' trail', m.Settles other type' trail' ∧ trail'.length < trail.length := by
  obtain ⟨wanted, hstep⟩ := m.calls_iff.1 hcalls
  cases h with
  | done hdone =>
    rw [hstep] at hdone
    cases hdone
  | ask hask hother =>
    rw [hstep] at hask
    cases hask
    exact ⟨_, _, hother, Nat.lt_succ_self _⟩

theorem Settles.of_transGen {c d : Cursor} {type : Option Ty} {trail : List Cursor}
    (h : m.Settles c type trail) (hway : TransGen m.Calls c d) :
    ∃ type' trail', m.Settles d type' trail' ∧ trail'.length < trail.length := by
  induction hway with
  | single hcalls => exact h.of_calls hcalls
  | tail _ hcalls ih =>
    obtain ⟨type', trail', hsettles, hlt⟩ := ih
    obtain ⟨type'', trail'', hsettles', hlt'⟩ := hsettles.of_calls hcalls
    exact ⟨type'', trail'', hsettles', Nat.lt_trans hlt' hlt⟩

/-- A resolution that has an end is on no circle. -/
theorem Settles.not_transGen {c : Cursor} {type : Option Ty} {trail : List Cursor}
    (h : m.Settles c type trail) : ¬ TransGen m.Calls c c := by
  intro hcircle
  obtain ⟨type', trail', hsettles, hlt⟩ := h.of_transGen hcircle
  obtain ⟨-, heq⟩ := hsettles.unique h
  rw [heq] at hlt
  exact Nat.lt_irrefl _ hlt

-- ============================================================ without an end

/-- The node that an activation calls the resolver on; the node itself if
it calls it on none. -/
def following (m : Model) (c : Cursor) : Cursor :=
  match m.step c with
  | .done _ => c
  | .ask other _ => other

/-- A resolution without an end goes on, and to one without an end. -/
theorem calls_following {c : Cursor} (h : ∀ type trail, ¬ m.Settles c type trail) :
    m.Calls c (m.following c) ∧ ∀ type trail, ¬ m.Settles (m.following c) type trail := by
  unfold following
  cases hstep : m.step c with
  | done type => exact absurd (.done hstep) (h type [c])
  | ask other wanted =>
    refine ⟨m.calls_iff.2 ⟨wanted, hstep⟩, ?_⟩
    intro type trail hsettles
    exact h _ _ (.ask hstep hsettles)

/-- A line of calls that goes on for ever. -/
def IsLine (m : Model) (line : Nat → Cursor) : Prop := ∀ i, m.Calls (line i) (line (i + 1))

/-- The line of calls from a node, which stays where no call is made. -/
def lineFrom (m : Model) (c : Cursor) : Nat → Cursor
  | 0 => c
  | i + 1 => m.following (lineFrom m c i)

theorem isLine_lineFrom {c : Cursor} (h : ∀ type trail, ¬ m.Settles c type trail) :
    m.IsLine (m.lineFrom c) := by
  have hnever : ∀ i type trail, ¬ m.Settles (m.lineFrom c i) type trail := by
    intro i
    induction i with
    | zero => exact h
    | succ i ih => exact (calls_following ih).2
  intro i
  exact (calls_following (hnever i)).1

/-- A line stays in its tree, and so it comes back to a node. -/
theorem IsLine.exists_revisit {line : Nat → Cursor} (h : m.IsLine line) :
    ∃ i j, i < j ∧ j ≤ (line 0).top.size ∧ line i = line j := by
  have htop : ∀ i, (line i).top = (line 0).top := by
    intro i
    induction i with
    | zero => rfl
    | succ i ih => rw [top_of_calls (h i), ih]
  refine Classical.byContradiction fun hnone => ?_
  -- one node more than the tree has, all distinct
  have hnodup : ((List.range ((line 0).top.size + 1)).map line).Nodup := by
    refine List.pairwise_map.2 (List.pairwise_lt_range.imp_of_mem ?_)
    intro i j _ hj hij heq
    exact hnone ⟨i, j, hij, Nat.lt_succ_iff.1 (List.mem_range.1 hj), heq⟩
  have hle := Tree.length_le_size_of_nodup (t := (line 0).top) hnodup fun d hd => by
    obtain ⟨i, -, rfl⟩ := List.mem_map.1 hd
    exact htop i
  rw [List.length_map, List.length_range] at hle
  omega

theorem IsLine.transGen {line : Nat → Cursor} (h : m.IsLine line) {i j : Nat} (hij : i < j) :
    TransGen m.Calls (line i) (line j) := by
  induction hij with
  | refl => exact .single (h i)
  | step _ ih => exact ih.tail (h _)

/-- The line of calls from a node can be followed for ever, and within as
many calls as the tree has nodes it is back at a node. -/
def Circles (m : Model) (c : Cursor) : Prop :=
  ∃ line, line 0 = c ∧ m.IsLine line ∧ ∃ i j, i < j ∧ j ≤ c.top.size ∧ line i = line j

theorem circles_of_not_settles {c : Cursor} (h : ∀ type trail, ¬ m.Settles c type trail) :
    m.Circles c :=
  ⟨m.lineFrom c, rfl, isLine_lineFrom h, (isLine_lineFrom h).exists_revisit⟩

/-- A node that circles leads to one that leads to itself. -/
theorem Circles.exists_transGen {c : Cursor} (h : m.Circles c) :
    ∃ d, ReflTransGen m.Calls c d ∧ TransGen m.Calls d d := by
  obtain ⟨line, rfl, hline, i, j, hij, -, heq⟩ := h
  refine ⟨line i, ?_, ?_⟩
  · rcases Nat.eq_zero_or_pos i with rfl | hpos
    · exact .refl
    · exact (hline.transGen hpos).to_reflTransGen
  · have hback := hline.transGen hij
    rwa [← heq] at hback

/-- Nothing that has an end leads to a circle. -/
theorem Settles.not_exists_transGen {c : Cursor} {type : Option Ty} {trail : List Cursor}
    (h : m.Settles c type trail) : ¬ ∃ d, ReflTransGen m.Calls c d ∧ TransGen m.Calls d d := by
  intro hcircle
  obtain ⟨d, hway, hback⟩ := hcircle
  rcases Relation.reflTransGen_iff_eq_or_transGen.1 hway with rfl | hway
  · exact h.not_transGen hback
  · obtain ⟨type', trail', hsettles, -⟩ := h.of_transGen hway
    exact hsettles.not_transGen hback

-- ================================================================ the bound

/-- A resolution fails exactly on a circle. -/
theorem resolve_eq_error_iff {c : Cursor} :
    m.resolve c = .error .endlessResolution ↔
      ∃ d, ReflTransGen m.Calls c d ∧ TransGen m.Calls d d := by
  constructor
  · intro h
    refine (circles_of_not_settles fun type trail hsettles => ?_).exists_transGen
    rw [resolve_eq_ok_iff.2 ⟨trail, hsettles⟩] at h
    cases h
  · intro h
    cases hresolve : m.resolve c with
    | ok type =>
      obtain ⟨trail, hsettles⟩ := resolve_eq_ok_iff.1 hresolve
      exact absurd h hsettles.not_exists_transGen
    | error e => rw [eq_of_resolveWithin_error hresolve]

theorem resolveWithin_of_not_settles {c : Cursor}
    (h : ∀ type trail, ¬ m.Settles c type trail) (bound : Nat) :
    m.resolveWithin bound c = .error .endlessResolution := by
  cases hresolve : m.resolveWithin bound c with
  | ok type =>
    obtain ⟨trail, hsettles, -⟩ := exists_settles_of_resolveWithin hresolve
    exact absurd hsettles (h type trail)
  | error e => rw [eq_of_resolveWithin_error hresolve]

/-- How deep a resolution goes. One activation of the resolver asks for
at most one type, of a node that it finds before it has any answer, and
with a bound on the depth it is run with one level less for that node.
So a resolution either ends within as many levels as the tree has nodes,
or it comes back to a node and never ends; at the bound that `resolve`
sets it fails exactly on a circle, and no larger bound changes anything. -/
theorem resolution_ends_or_circles (m : Model) (c : Cursor) :
    (m.activation c).AsksWithin 1
      ∧ (∀ bound, m.resolveWithin (bound + 1) c = (m.activation c).run (m.resolveWithin bound))
      ∧ (((∃ type, ∃ depth ≤ c.top.size, ∀ bound, depth ≤ bound →
              m.resolveWithin bound c = .ok type) ∧ ¬ m.Circles c)
        ∨ (m.Circles c ∧ ∀ bound, m.resolveWithin bound c = .error .endlessResolution))
      ∧ (m.resolve c = .error .endlessResolution ↔
        ∃ d, ReflTransGen m.Calls c d ∧ TransGen m.Calls d d)
      ∧ ∀ bound, c.top.size ≤ bound → m.resolveWithin bound c = m.resolve c := by
  have hdichotomy : (∃ type trail, m.Settles c type trail)
      ∨ ∀ type trail, ¬ m.Settles c type trail := by
    by_cases h : ∃ type trail, m.Settles c type trail
    · exact .inl h
    · exact .inr fun type trail hsettles => h ⟨type, trail, hsettles⟩
  refine ⟨m.asksWithin_one_activation c, fun bound => m.resolveWithin_succ bound c, ?_,
    resolve_eq_error_iff, ?_⟩
  · rcases hdichotomy with ⟨type, trail, hsettles⟩ | hnever
    · refine .inl ⟨⟨type, trail.length, hsettles.length_trail_le, ?_⟩, ?_⟩
      · intro bound hle
        exact hsettles.resolveWithin hle
      · intro hcircles
        exact hsettles.not_exists_transGen hcircles.exists_transGen
    · exact .inr ⟨circles_of_not_settles hnever, resolveWithin_of_not_settles hnever⟩
  · intro bound hle
    rcases hdichotomy with ⟨type, trail, hsettles⟩ | hnever
    · rw [resolve_eq_ok_iff.2 ⟨trail, hsettles⟩]
      exact hsettles.resolveWithin (Nat.le_trans hsettles.length_trail_le hle)
    · rw [resolve, resolveWithin_of_not_settles hnever, resolveWithin_of_not_settles hnever]

end Model

/-- A document with two variables that are initialized from each other. -/
def Document.eachFromOther : Document where
  path := "L.cs"
  source := .ofText "class L\x7bvoid m()\x7bvar a=b,b=a;\x7d\x7d"
  tree :=
    named (.other "compilation_unit") none 0 31 [
      named .classDeclaration none 0 31 [
        token "class" 0 5,
        named .identifier (some .name) 6 7 [],
        named (.other "declaration_list") (some .body) 7 31 [
          token "\x7b" 7 8,
          named .methodDeclaration none 8 30 [
            named .predefinedType (some .returns) 8 12 [],
            named .identifier (some .name) 13 14 [],
            named .parameterList (some .parameters) 14 16 [token "(" 14 15, token ")" 15 16],
            named .block (some .body) 16 30 [
              token "\x7b" 16 17,
              named .localDeclaration none 17 29 [
                named .variableDeclaration none 17 28 [
                  named .implicitType (some .type) 17 20 [token "var" 17 20],
                  named .variableDeclarator none 21 24 [
                    named .identifier (some .name) 21 22 [],
                    token "=" 22 23,
                    named .identifier none 23 24 []],
                  token "," 24 25,
                  named .variableDeclarator none 25 28 [
                    named .identifier (some .name) 25 26 [],
                    token "=" 26 27,
                    named .identifier none 27 28 []]],
                token ";" 28 29],
              token "\x7d" 29 30]],
          token "\x7d" 30 31]]]
where
  named := sample.named
  token := twoDeclarators.token

/-- Two variables that are initialized from each other make a circle, and
no depth is enough for them. -/
theorem each_from_other_circles :
    ∃ m c, m = Model.mk (.ofDocuments [.eachFromOther]) Document.eachFromOther.source
      ∧ c = Document.eachFromOther.tree.nodeAt 21 ∧ c.start = 23
      ∧ m.Circles c ∧ ∀ bound, m.resolveWithin bound c = .error .endlessResolution := by
  let m : Model := ⟨.ofDocuments [.eachFromOther], Document.eachFromOther.source⟩
  let c := Document.eachFromOther.tree.nodeAt 21
  have hstart : c.start = 23 := by decide +kernel
  have hfails : (m.resolve c).isOk = false := by decide +kernel
  refine ⟨m, c, rfl, rfl, hstart, ?_⟩
  obtain ⟨-, -, hends | hcircles, -, -⟩ := Model.resolution_ends_or_circles m c
  · obtain ⟨⟨type, depth, hdepth, hok⟩, -⟩ := hends
    rw [Model.resolve, hok _ hdepth] at hfails
    cases hfails
  · exact hcircles

end QueryLint
