/-
Parentheses and resolution. A scope binds a name to the same thing when
some of its nodes are in parentheses, up to the place that the binding
sends the search on to: that is now what stands where it was
(`binding?_moved`). Parentheses bind nothing, and so a name means what it
meant. A step from a node, or from the parentheses around it, leads to
where the old step led (`stepsAlike_of_becameOf`), and hence every
expression keeps its type, every call its target, and what had no end has
none.
-/
import QueryLint.Proofs.Chain.Parentheses
import QueryLint.Proofs.Resolve.Trail

namespace QueryLint

def Binding.wrapped (here : Cursor → Bool) : Binding → Binding
  | .typed type => .typed type
  | .typeOf value => .typeOf (value.wrapped here)
  | .elementOf collection => .elementOf (collection.wrapped here)

theorem Cursor.kind_of_mem_lambdaParameters? {c p : Cursor} {parameters : List Cursor}
    (h : c.lambdaParameters? = some parameters) (hp : p ∈ parameters) : p.kind = .parameter := by
  unfold lambdaParameters? at h
  split at h
  · split at h
    · cases h
    · split at h
      · cases h
        exact kind_of_mem_namedOfKind hp
      · cases h
  · cases h

namespace Model

variable (m : Model) (s : Insertion)

-- ================================================================== scopes

@[simp]
theorem text_moved (c : Cursor) : m.text (c.moved s.here) = m.text c := s.text_moved m.source c

@[simp]
theorem text_wrapped (c : Cursor) : m.text (c.wrapped s.here) = m.text c :=
  s.text_wrapped m.source c

theorem declared?_moved {c : Cursor} (hc : c.kind.holdsOperand = false) :
    m.declared? (c.moved s.here) = m.declared? c :=
  s.declared?_moved m.source hc

@[simp]
theorem isNamed_moved (c : Cursor) (name : String) :
    m.isNamed (c.moved s.here) name = m.isNamed c name := by
  unfold isNamed
  rw [Cursor.child?_moved]
  cases c.child? .name with
  | none => rfl
  | some n => simp

theorem inParameters_moved {parameters : List Cursor}
    (h : ∀ p ∈ parameters, p.kind = .parameter) (use : Use) :
    m.inParameters (parameters.map (Cursor.moved s.here)) use
      = (m.inParameters parameters use).map (Binding.wrapped s.here) := by
  unfold inParameters
  rw [List.find?_map, Option.map_map, Option.map_map]
  simp only [Function.comp_def, isNamed_moved]
  refine Option.map_congr fun p hp => ?_
  have hplain : p.kind.holdsOperand = false := by
    rw [h p (List.mem_of_find?_eq_some hp)]
    rfl
  rw [m.declared?_moved s hplain]
  rfl

theorem inLambda_moved (scope : Cursor) (use : Use) :
    m.inLambda (scope.moved s.here) use
      = (m.inLambda scope use).map (Binding.wrapped s.here) := by
  unfold inLambda
  rw [s.lambdaParameters?_moved, Cursor.child?_moved]
  cases hparameters : scope.lambdaParameters? with
  | some parameters =>
    exact m.inParameters_moved s
      (fun p hp => Cursor.kind_of_mem_lambdaParameters? hparameters hp) use
  | none =>
    cases scope.child? .parameters with
    | none => rfl
    | some single =>
      simp only [Option.map_none, Option.map_some, text_wrapped]
      split
      · rfl
      · rfl

theorem inCallable_moved {scope : Cursor} (hscope : scope.kind.declaresCallable = true)
    (use : Use) :
    m.inCallable (scope.moved s.here) use
      = (m.inCallable scope use).map (Binding.wrapped s.here) := by
  have hplain : scope.kind.holdsOperand = false := by
    revert hscope
    cases scope.kind <;> simp [Kind.declaresCallable, Kind.holdsOperand]
  unfold inCallable
  rw [Insertion.child?_moved hplain]
  cases hlist : scope.child? .parameters with
  | none => rfl
  | some list =>
    have hnone : ∀ d ∈ list.children, s.here d = true → d.kind ≠ .parameter := by
      intro d hd hhere hkind
      exact (s.takes d hhere).loose
        (.parameter hscope hlist (Cursor.mem_children_iff.1 hd) hkind)
    show m.inParameters ((list.moved s.here).namedOfKind .parameter) use = _
    rw [Cursor.namedOfKind_moved s.counts (by decide) hnone]
    exact m.inParameters_moved s (fun p hp => Cursor.kind_of_mem_namedOfKind hp) use

theorem declares_moved {declarator : Cursor} (h : declarator.kind = .variableDeclarator)
    (use : Use) : m.declares (declarator.moved s.here) use = m.declares declarator use := by
  unfold declares
  rw [Cursor.covers_moved, s.declarator_moved h]
  cases hname : declarator.declarator.name with
  | none => simp [Declarator.map, hname]
  | some name => simp [Declarator.map, hname]

theorem inVariables_moved {declaration : Cursor} (h : declaration.kind = .variableDeclaration)
    (use : Use) :
    m.inVariables (declaration.moved s.here) use
      = (m.inVariables declaration use).map (Binding.wrapped s.here) := by
  have hplain : declaration.kind.holdsOperand = false := by rw [h]; rfl
  have hdeclares : ∀ d ∈ declaration.namedOfKind .variableDeclarator,
      m.declares (d.moved s.here) use = m.declares d use := by
    intro d hd
    exact m.declares_moved s (Cursor.kind_of_mem_namedOfKind hd) use
  have hfind : ((declaration.moved s.here).namedOfKind .variableDeclarator).find?
        (m.declares · use)
      = ((declaration.namedOfKind .variableDeclarator).find? (m.declares · use)).map
        (Cursor.moved s.here) := by
    rw [Insertion.namedOfKind_moved (by decide) hplain, List.find?_map, ← List.head?_filter,
      ← List.head?_filter]
    exact congrArg (fun ds => ds.head?.map (Cursor.moved s.here)) (List.filter_congr hdeclares)
  unfold inVariables
  rw [hfind, Option.map_map, Option.map_map, m.declared?_moved s hplain]
  refine Option.map_congr fun d hd => ?_
  have hkind := Cursor.kind_of_mem_namedOfKind (List.mem_of_find?_eq_some hd)
  simp only [Function.comp_apply]
  cases m.declared? declaration with
  | some type => rfl
  | none =>
    rw [s.declarator_moved hkind]
    cases hvalue : d.declarator.value with
    | none => simp [Declarator.map, hvalue, Binding.wrapped]
    | some value => simp [Declarator.map, hvalue, Binding.wrapped]

theorem inHead_moved {scope : Cursor} (hscope : scope.kind.holdsOperand = false) (use : Use) :
    m.inHead (scope.moved s.here) use = (m.inHead scope use).map (Binding.wrapped s.here) := by
  unfold inHead
  rw [Insertion.namedOfKind_moved (by decide) hscope, List.findSome?_map, List.map_findSome?,
    ← List.head?_filterMap, ← List.head?_filterMap]
  refine congrArg List.head? (List.filterMap_congr fun declaration hdeclaration => ?_)
  exact m.inVariables_moved s (Cursor.kind_of_mem_namedOfKind hdeclaration) use

theorem inBlock_moved {scope : Cursor} (hscope : scope.kind = .block) (use : Use) :
    m.inBlock (scope.moved s.here) use = (m.inBlock scope use).map (Binding.wrapped s.here) := by
  have hplain : scope.kind.holdsOperand = false := by rw [hscope]; rfl
  unfold inBlock
  rw [Insertion.namedChildren_moved hplain, List.takeWhile_map, List.findSome?_map,
    List.map_findSome?]
  simp only [Function.comp_def, Cursor.start_moved, Cursor.kind_moved]
  congr 1
  funext statement
  split
  · next hkind => exact m.inHead_moved s (by rw [hkind]; rfl) use
  · rfl

theorem inForEach_moved {scope : Cursor} (hscope : scope.kind = .forEachStatement) (use : Use) :
    m.inForEach (scope.moved s.here) use
      = (m.inForEach scope use).map (Binding.wrapped s.here) := by
  have hdeclared : m.declared? (scope.moved s.here) = m.declared? scope := by
    refine s.declared?_moved_of_child? m.source fun d hd => ?_
    exact Insertion.not_here_of_field hd (.inr hscope) (by decide) (by decide)
  unfold inForEach
  rw [Cursor.child?_moved, Cursor.child?_moved, hdeclared]
  cases scope.child? .left with
  | none => rfl
  | some item =>
    simp only [Option.map_some, text_wrapped]
    split
    · rfl
    cases scope.child? .right with
    | none => rfl
    | some collection =>
      simp only [Option.map_some, Cursor.covers_wrapped]
      split
      · rfl
      cases m.declared? scope with
      | none => rfl
      | some type => rfl

theorem inType_moved (scope : Cursor) (use : Use) :
    m.inType (scope.moved s.here) use = (m.inType scope use).map (Binding.wrapped s.here) := by
  unfold inType
  rw [Cursor.child?_moved]
  cases scope.child? .name with
  | none => rfl
  | some name =>
    simp only [Option.map_some, text_wrapped, Option.map_map]
    rfl

/-- A scope binds names as it did. -/
theorem binding?_moved (scope : Cursor) (use : Use) :
    m.binding? (scope.moved s.here) use
      = (m.binding? scope use).map (Binding.wrapped s.here) := by
  unfold binding?
  rw [Cursor.kind_moved]
  split
  · exact m.inLambda_moved s scope use
  split
  · next hkind => exact m.inCallable_moved s hkind use
  split
  · next hkind => exact m.inBlock_moved s hkind use
  split
  · next hkind => exact m.inForEach_moved s hkind use
  split
  · next hkind =>
    refine m.inHead_moved s ?_ use
    revert hkind
    cases scope.kind <;> simp [Kind.declaresInHead, Kind.holdsOperand]
  split
  · exact m.inType_moved s scope use
  · rfl

theorem binding?_of_parenthesized {scope : Cursor} (h : scope.kind = .parenthesized) (use : Use) :
    m.binding? scope use = none := by
  unfold binding?
  rw [h]
  rfl

theorem meaning?_moved (c : Cursor) :
    m.meaning? (c.moved s.here) = (m.meaning? c).map (Binding.wrapped s.here) := by
  unfold meaning?
  rw [text_moved, Cursor.start_moved]
  exact Cursor.findSome?_ancestors_moved (fun scope => m.binding?_moved s scope _)
    (fun scope hscope => m.binding?_of_parenthesized hscope _) c

theorem enclosing?_moved (c : Cursor) : m.enclosing? (c.moved s.here) = m.enclosing? c := by
  unfold enclosing?
  rw [Cursor.find?_ancestors_moved (p := Kind.declaresType) rfl]
  cases c.ancestors.find? (·.kind.declaresType) with
  | none => rfl
  | some scope =>
    simp only [Option.map_some, Cursor.child?_moved, Option.map_map, Function.comp_def,
      text_wrapped]

-- =================================================================== steps

theorem target?_moved {site : Cursor} (h : site.kind = .invocation) :
    m.target? (site.moved s.here) = m.target? site := by
  funext name type
  unfold target?
  rw [s.lambdaArity?_moved h]

theorem ownTarget?_moved {site : Cursor} (h : site.kind = .invocation) :
    m.ownTarget? (site.moved s.here) = m.ownTarget? site := by
  unfold ownTarget?
  rw [Insertion.child?_moved (by rw [h]; rfl), m.enclosing?_moved s]
  cases site.child? .function with
  | none => rfl
  | some function => simp only [Option.map_some, Cursor.kind_moved, Insertion.simpleName_moved]

/-- What a node of the old tree has become, with its parentheses or
without. -/
def BecameOf (s : Insertion) (c d : Cursor) : Prop := d = c.wrapped s.here ∨ d = c.moved s.here

theorem stepsAlike_ofBinding (b : Option Binding) :
    m.StepsAlike (BecameOf s) (ofBinding b) (ofBinding (b.map (Binding.wrapped s.here))) := by
  cases b with
  | none => exact .done none
  | some b =>
    cases b with
    | typed type => exact .done type
    | typeOf value => exact .ask (.inl rfl) rfl
    | elementOf collection => exact .ask (.inl rfl) rfl

theorem stepsAlike_ofCall {c : Cursor} (hc : c.kind = .invocation) :
    m.StepsAlike (BecameOf s) (m.ofCall c) (m.ofCall (c.moved s.here)) := by
  unfold ofCall
  rw [s.memberCall?_moved, m.ownTarget?_moved s hc]
  cases c.memberCall? with
  | none => exact .done _
  | some parts =>
    obtain ⟨receiver, name⟩ := parts
    refine .ask (.inl rfl) ?_
    funext type
    unfold fetch
    simp only [m.target?_moved s hc, Insertion.simpleName_moved]

theorem stepsAlike_ofAccess {c : Cursor} (hc : c.kind = .memberAccess) :
    m.StepsAlike (BecameOf s) (m.ofAccess c) (m.ofAccess (c.moved s.here)) := by
  have hname : ((c.moved s.here).child? .name).map (fun name => m.source.simpleName name.focus)
      = (c.child? .name).map fun name => m.source.simpleName name.focus := by
    rw [Cursor.child?_moved, Option.map_map]
    refine Option.map_congr fun name hname => ?_
    have hhere : s.here name = false :=
      Insertion.not_here_of_field hname (.inl hc) (by decide) (by decide)
    simp only [Function.comp_apply, Insertion.wrapped_eq_moved hhere, Insertion.simpleName_moved]
  unfold ofAccess
  rw [hname, Cursor.child?_moved]
  cases c.child? .expression with
  | none => exact .done none
  | some object => exact .ask (.inl rfl) rfl

theorem stepsAlike_ofExpression (c : Cursor) :
    m.StepsAlike (BecameOf s) (m.ofExpression c) (m.ofExpression (c.moved s.here)) := by
  unfold ofExpression
  rw [Cursor.kind_moved]
  split
  · rw [m.meaning?_moved s]
    exact m.stepsAlike_ofBinding s _
  · rw [m.enclosing?_moved s]
    exact .done _
  · rw [m.enclosing?_moved s]
    exact .done _
  · next hkind => exact m.stepsAlike_ofAccess s hkind
  · next hkind => exact m.stepsAlike_ofCall s hkind
  · next hkind =>
    rw [m.declared?_moved s (by rw [hkind]; rfl)]
    exact .done _
  · next hkind =>
    rw [m.declared?_moved s (by rw [hkind]; rfl)]
    exact .done _
  · exact .done none

/-- From what a node has become, a step leads to what the old step led
to has become. -/
theorem stepsAlike_of_becameOf {c d : Cursor} (h : BecameOf s c d) :
    m.StepsAlike (BecameOf s) (m.step c) (m.step d) := by
  have hunwrap : d.unwrap = c.unwrap.moved s.here := by
    rcases h with rfl | rfl
    · rw [Cursor.unwrap_wrapped s.counts, Cursor.unwrap_moved s.counts]
    · exact Cursor.unwrap_moved s.counts c
  unfold step
  rw [hunwrap]
  exact m.stepsAlike_ofExpression s c.unwrap

theorem resolve_wrapped (c : Cursor) : m.resolve (c.wrapped s.here) = m.resolve c :=
  (resolve_eq_of_alike (fun _ _ => m.stepsAlike_of_becameOf s) (.inl rfl)).symm

theorem resolve_moved (c : Cursor) : m.resolve (c.moved s.here) = m.resolve c :=
  (resolve_eq_of_alike (fun _ _ => m.stepsAlike_of_becameOf s) (.inr rfl)).symm

theorem resolveMethod_moved {c : Cursor} (hc : c.kind = .invocation) :
    m.resolveMethod (c.moved s.here) = m.resolveMethod c := by
  unfold resolveMethod
  rw [s.memberCall?_moved, m.ownTarget?_moved s hc]
  cases c.memberCall? with
  | none => rfl
  | some parts =>
    obtain ⟨receiver, name⟩ := parts
    simp only [Option.map_some, m.resolve_wrapped s, m.target?_moved s hc,
      Insertion.simpleName_moved]

end Model

end QueryLint
