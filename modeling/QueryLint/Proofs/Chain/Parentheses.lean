/-
Parentheses and chains. A call keeps its arguments, its receiver may be
in parentheses now, and what is called stays as it is. The walk from
receiver to receiver unwraps them and comes by the moved calls
(`chain_moved`). Whether a call is the last of its chain is told from the
outermost of the parentheses around it, so those that were put there make
no difference (`isTail_moved`).
-/
import QueryLint.Proofs.Chain.Partition
import QueryLint.Proofs.Declaration.Parentheses

namespace QueryLint

namespace Cursor

variable {here : Cursor → Bool}

-- =================================================================== tails

theorem outside_of_parent?_eq_none {c : Cursor} (h : c.parent? = none) : c.outside = c := by
  obtain ⟨t, path⟩ := c
  cases path with
  | nil => rfl
  | cons f up => cases h

theorem outside_moved (c : Cursor) : (c.moved here).outside = (c.wrapped here).outside := by
  cases h : here c with
  | false => rw [moved_of_not_here h]
  | true => exact outside_of_parenthesized (parent?_moved_of_here h) (kind_wrapped_of_here h)

/-- The outermost parentheses are what stands where they were. -/
theorem outside_wrapped (c : Cursor) : (c.wrapped here).outside = c.outside.wrapped here := by
  obtain ⟨t, path⟩ := c
  induction path generalizing t with
  | nil =>
    have hroot : parent? ⟨t, []⟩ = none := rfl
    rw [outside_of_parent?_eq_none (parent?_wrapped_of_eq_none hroot),
      outside_of_parent?_eq_none hroot]
  | cons f up ih =>
    have hparent : parent? ⟨t, f :: up⟩ = some ⟨f.plug t, up⟩ := rfl
    have hparent' : (wrapped here ⟨t, f :: up⟩).parent? = some (moved here ⟨f.plug t, up⟩) :=
      parent?_wrapped hparent
    by_cases hkind : kind ⟨f.plug t, up⟩ = .parenthesized
    · rw [outside_of_parenthesized hparent hkind,
        outside_of_parenthesized hparent' ((kind_moved _).trans hkind), outside_moved, ih]
    · rw [outside_of_not_parenthesized hparent hkind,
        outside_of_not_parenthesized hparent' (by rw [kind_moved]; exact hkind)]

theorem place_wrapped {c p : Cursor} (h : c.parent? = some p) :
    (c.wrapped here).place = c.place := by
  have hplace : (p.moved here).children[c.place]? = some (c.wrapped here) :=
    (getElem?_children_moved_of_focus h p.focus_moved).1
  exact (place_of_getElem?_along hplace).trans (Nat.zero_add _)

/-- What stands in the place of a node fills the field that it did. -/
theorem fills_wrapped {c p : Cursor} (h : c.parent? = some p) (f : Field) :
    (c.wrapped here).fills f = c.fills f := by
  rw [Bool.eq_iff_iff]
  constructor
  · intro hfills
    have hchild := child?_eq_some_iff.2 ⟨parent?_wrapped h, hfills⟩
    rw [child?_moved] at hchild
    obtain ⟨d, hd, hwrapped⟩ := Option.map_eq_some_iff.1 hchild
    obtain ⟨hparent, hfills'⟩ := child?_eq_some_iff.1 hd
    -- siblings stand at different places, before and after
    have hplace : d.place = c.place := by
      have hsame := congrArg place hwrapped
      rwa [place_wrapped hparent, place_wrapped h] at hsame
    rwa [← eq_of_place_eq (mem_children_iff.2 hparent) (mem_children_iff.2 h) hplace]
  · intro hfills
    have hchild := child?_eq_some_iff.2 ⟨h, hfills⟩
    have hchild' : (p.moved here).child? f = some (c.wrapped here) := by
      rw [child?_moved, hchild]
      rfl
    exact (child?_eq_some_iff.1 hchild').2

end Cursor

namespace Insertion

variable (s : Insertion)

/-- A call stays the last of its chain, or stays another. -/
theorem isTail_moved (c : Cursor) : (c.moved s.here).isTail = c.isTail := by
  have houtside : (c.moved s.here).outside = c.outside.wrapped s.here := by
    rw [Cursor.outside_moved, Cursor.outside_wrapped]
  have hiff : (c.moved s.here).isTail = false ↔ c.isTail = false := by
    rw [Cursor.isTail_eq_false_iff, Cursor.isTail_eq_false_iff, houtside]
    constructor
    · intro h
      obtain ⟨access', call', hparent, haccess, hfills, hparent', hcall⟩ := h
      obtain ⟨access, hp, rfl⟩ := Cursor.exists_parent?_of_wrapped hparent
      obtain ⟨call, hp', rfl⟩ :=
        Cursor.exists_parent?_of_moved hparent' (by rw [hcall]; exact Kind.noConfusion)
      rw [Cursor.kind_moved] at haccess hcall
      rw [Cursor.fills_wrapped hp] at hfills
      exact ⟨access, call, hp, haccess, hfills, hp', hcall⟩
    · intro h
      obtain ⟨access, call, hparent, haccess, hfills, hparent', hcall⟩ := h
      have hhere : s.here access = false := not_here_of_parent? hparent' (by rw [hcall]; rfl)
      refine ⟨access.moved s.here, call.moved s.here, Cursor.parent?_wrapped hparent,
        ?_, ?_, ?_, ?_⟩
      · rw [Cursor.kind_moved, haccess]
      · rw [Cursor.fills_wrapped hparent, hfills]
      · rw [Cursor.moved_of_not_here hhere]
        exact Cursor.parent?_wrapped hparent'
      · rw [Cursor.kind_moved, hcall]
  cases htail : c.isTail with
  | false => exact hiff.2 htail
  | true =>
    cases hmoved : (c.moved s.here).isTail with
    | true => rfl
    | false =>
      rw [hiff.1 hmoved] at htail
      cases htail

-- =================================================================== calls

@[simp]
theorem simpleName_moved (src : Source) (c : Cursor) :
    src.simpleName (c.moved s.here).focus = src.simpleName c.focus := by
  have hkind : (c.moved s.here).focus.kind = c.focus.kind := c.kind_moved
  unfold Source.simpleName
  rw [hkind]
  split
  · next hgeneric =>
    have hplain : c.kind.holdsOperand = false := by
      rw [show c.kind = _ from hgeneric]
      rfl
    have hfind : (c.moved s.here).focus.children.find? (·.kind == .identifier)
        = ((c.children.find? (·.kind == .identifier)).map (Cursor.moved s.here)).map
          Cursor.focus := by
      rw [← Cursor.map_focus_children, children_moved hplain, List.find?_map, List.find?_map]
      simp only [Function.comp_def]
      show ((c.children.find? fun d => (d.moved s.here).kind == .identifier).map _).map _ = _
      simp only [Cursor.kind_moved]
    have hfind' : c.focus.children.find? (·.kind == .identifier)
        = (c.children.find? (·.kind == .identifier)).map Cursor.focus := by
      rw [← Cursor.map_focus_children, List.find?_map]
      rfl
    rw [hfind, hfind']
    cases c.children.find? (·.kind == .identifier) with
    | none => exact s.text_moved src c
    | some d => exact s.text_moved src d
  · exact s.text_moved src c

theorem argumentValue?_moved {c : Cursor} (hc : c.kind = .argument) :
    (c.moved s.here).argumentValue? = c.argumentValue?.map (Cursor.moved s.here) := by
  unfold Cursor.argumentValue?
  rw [namedChildren_moved (by rw [hc]; rfl), List.filter_map, List.getLast?_map]
  simp only [Function.comp_def, Cursor.kind_moved]

theorem arguments_moved {c : Cursor} (hc : c.kind = .invocation) :
    (c.moved s.here).arguments = c.arguments.map (Cursor.moved s.here) := by
  unfold Cursor.arguments
  rw [child?_moved (by rw [hc]; rfl)]
  cases hlist : c.child? .arguments with
  | none => rfl
  | some list =>
    have hnone : ∀ d ∈ list.children, s.here d = true → d.kind ≠ .argument := by
      intro d hd hhere hkind
      exact (s.takes d hhere).loose (.argument hc hlist (Cursor.mem_children_iff.1 hd) hkind)
    show ((list.moved s.here).namedOfKind .argument).filterMap _ = _
    rw [Cursor.namedOfKind_moved s.counts (by decide) hnone, List.filterMap_map,
      List.map_filterMap]
    refine List.filterMap_congr fun d hd => ?_
    exact s.argumentValue?_moved (Cursor.kind_of_mem_namedOfKind hd)

/-- The receiver of a call is what stands where it was. -/
theorem memberCall?_moved (c : Cursor) :
    (c.moved s.here).memberCall?
      = c.memberCall?.map fun parts => (parts.1.wrapped s.here, parts.2.moved s.here) := by
  unfold Cursor.memberCall?
  rw [Cursor.kind_moved]
  split
  · next hkind =>
    rw [child?_moved (by rw [hkind]; rfl)]
    cases c.child? .function with
    | none => rfl
    | some access =>
      simp only [Option.map_some, Cursor.kind_moved, Cursor.child?_moved]
      split
      · next haccess =>
        cases access.child? .expression with
        | none => rfl
        | some receiver =>
          cases hname : access.child? .name with
          | none => rfl
          | some name =>
            have hhere : s.here name = false :=
              not_here_of_field hname (.inl haccess) (by decide) (by decide)
            simp only [Option.map_some, wrapped_eq_moved hhere]
      · rfl
  · rfl

theorem lambdaParameters?_moved (c : Cursor) :
    (c.moved s.here).lambdaParameters?
      = c.lambdaParameters?.map (List.map (Cursor.moved s.here)) := by
  unfold Cursor.lambdaParameters?
  rw [Cursor.kind_moved]
  split
  · next hkind =>
    rw [child?_moved (by rw [hkind]; rfl)]
    cases c.child? .parameters with
    | none => rfl
    | some list =>
      simp only [Option.map_some, Cursor.kind_moved]
      split
      · next hlist => rw [namedOfKind_moved (by decide) (by rw [hlist]; rfl), Option.map_some]
      · rfl
  · rfl

theorem lambdaArity?_moved {c : Cursor} (hc : c.kind = .invocation) :
    (c.moved s.here).lambdaArity? = c.lambdaArity? := by
  unfold Cursor.lambdaArity?
  rw [s.arguments_moved hc]
  cases c.arguments with
  | nil => rfl
  | cons first rest =>
    simp only [List.map_cons, Cursor.kind_moved, lambdaParameters?_moved, Option.map_map,
      Function.comp_def, List.length_map]

end Insertion

-- ================================================================== chains

def Call.moved (here : Cursor → Bool) (call : Call) : Call :=
  ⟨call.site.moved here, call.name.moved here⟩

def Chain.moved (here : Cursor → Bool) (chain : Chain) : Chain :=
  ⟨chain.source.moved here, chain.calls.map (Call.moved here)⟩

namespace Insertion

variable (s : Insertion)

/-- The chain of a call is the same, in the new tree. -/
theorem chain_moved (c : Cursor) : (c.moved s.here).chain = c.chain.moved s.here := by
  induction c using Cursor.walk_induction with
  | source c hnone =>
    have hnone' : (c.moved s.here).memberCall? = none := by
      rw [s.memberCall?_moved, hnone]
      rfl
    rw [Cursor.chain_of_memberCall?_eq_none hnone, Cursor.chain_of_memberCall?_eq_none hnone']
    rfl
  | call c receiver name hcall ih =>
    have hcall' : (c.moved s.here).memberCall?
        = some (receiver.wrapped s.here, name.moved s.here) := by
      rw [s.memberCall?_moved, hcall]
      rfl
    rw [Cursor.chain_of_memberCall? hcall, Cursor.chain_of_memberCall? hcall',
      Cursor.unwrap_wrapped s.counts, Cursor.unwrap_moved s.counts, ih]
    unfold Chain.moved
    rw [List.map_append]
    rfl

theorem endsChain_moved (c : Cursor) : (c.moved s.here).endsChain = c.endsChain := by
  unfold Cursor.endsChain
  rw [s.memberCall?_moved, Option.isSome_map, s.isTail_moved]

end Insertion

end QueryLint
