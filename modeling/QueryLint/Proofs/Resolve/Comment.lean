/-
Comments and resolution. A scope binds a name to the same thing with and
without comments, up to the place that the binding sends the search on
to (`binding?_strip`); the scopes around a node are the same; so from a
node that is no remark each step goes with `strip` (`step_strip`), and no
step leads to a remark (`not_isRemark_of_step`).

Resolutions therefore run side by side, and the two come to the same
(`resolve_eq_of_alike`). Their bounds differ, since comments count
towards the size of a tree. That is why the two are compared by their
trails and not by the number of steps that they are allowed.
-/
import QueryLint.Proofs.Chain.Comment
import QueryLint.Proofs.Resolve.Trail

namespace QueryLint

def Binding.strip : Binding → Binding
  | .typed type => .typed type
  | .typeOf value => .typeOf value.strip
  | .elementOf collection => .elementOf collection.strip

def Wanted.strip : Wanted → Wanted
  | .same => .same
  | .element => .element
  | .member name => .member name
  | .call site name => .call site.strip name

def Step.strip : Step → Step
  | .done type => .done type
  | .ask other wanted => .ask other.strip wanted.strip

namespace Model

variable (m : Model)

-- ================================================================== scopes

@[simp]
theorem text_strip (c : Cursor) : m.text c.strip = m.text c := m.source.text_strip c.focus

@[simp]
theorem declared?_strip (c : Cursor) : m.declared? c.strip = m.declared? c :=
  Ty.declared?_strip m.source c.focus

@[simp]
theorem isNamed_strip (c : Cursor) (name : String) :
    m.isNamed c.strip name = m.isNamed c name := by
  unfold isNamed
  rw [Cursor.child?_strip]
  cases c.child? .name with
  | none => rfl
  | some n => simp

theorem inParameters_strip (parameters : List Cursor) (use : Use) :
    m.inParameters (parameters.map Cursor.strip) use
      = (m.inParameters parameters use).map Binding.strip := by
  unfold inParameters
  rw [List.find?_map, Option.map_map, Option.map_map]
  simp only [Function.comp_def, isNamed_strip, declared?_strip, Binding.strip]

theorem inLambda_strip (scope : Cursor) (use : Use) :
    m.inLambda scope.strip use = (m.inLambda scope use).map Binding.strip := by
  unfold inLambda
  rw [Cursor.lambdaParameters?_strip, Cursor.child?_strip]
  cases scope.lambdaParameters? with
  | some parameters => exact m.inParameters_strip parameters use
  | none =>
    cases scope.child? .parameters with
    | none => rfl
    | some single =>
      simp only [Option.map_none, Option.map_some, text_strip]
      split
      · rfl
      · rfl

theorem inCallable_strip (scope : Cursor) (use : Use) :
    m.inCallable scope.strip use = (m.inCallable scope use).map Binding.strip := by
  unfold inCallable
  rw [Cursor.child?_strip]
  cases scope.child? .parameters with
  | none => rfl
  | some list =>
    show m.inParameters (list.strip.namedOfKind .parameter) use = _
    rw [Cursor.namedOfKind_strip, m.inParameters_strip]

theorem declares_strip (declarator : Cursor) (use : Use) :
    m.declares declarator.strip use = m.declares declarator use := by
  unfold declares
  rw [Cursor.covers_strip, Cursor.declarator_strip]
  cases h : declarator.declarator.name with
  | none => simp [Declarator.map, h]
  | some name => simp [Declarator.map, h]

theorem inVariables_strip (declaration : Cursor) (use : Use) :
    m.inVariables declaration.strip use
      = (m.inVariables declaration use).map Binding.strip := by
  unfold inVariables
  rw [Cursor.namedOfKind_strip, List.find?_map, Option.map_map, Option.map_map, declared?_strip]
  simp only [Function.comp_def, declares_strip]
  refine Option.map_congr fun d _ => ?_
  cases m.declared? declaration with
  | some type => rfl
  | none =>
    rw [Cursor.declarator_strip]
    cases h : d.declarator.value with
    | none => simp [Declarator.map, h, Binding.strip]
    | some value => simp [Declarator.map, h, Binding.strip]

theorem inHead_strip (scope : Cursor) (use : Use) :
    m.inHead scope.strip use = (m.inHead scope use).map Binding.strip := by
  unfold inHead
  rw [Cursor.namedOfKind_strip, List.findSome?_map, List.map_findSome?]
  congr 1
  funext declaration
  exact m.inVariables_strip declaration use

theorem inBlock_strip (scope : Cursor) (use : Use) :
    m.inBlock scope.strip use = (m.inBlock scope use).map Binding.strip := by
  unfold inBlock
  rw [Cursor.namedChildren_strip, List.takeWhile_map, List.findSome?_map, List.map_findSome?]
  simp only [Function.comp_def, Cursor.start_strip, Cursor.kind_strip, inHead_strip]
  congr 1
  funext statement
  split
  · rfl
  · rfl

theorem inForEach_strip (scope : Cursor) (use : Use) :
    m.inForEach scope.strip use = (m.inForEach scope use).map Binding.strip := by
  unfold inForEach
  rw [Cursor.child?_strip, Cursor.child?_strip, declared?_strip]
  cases scope.child? .left with
  | none => rfl
  | some item =>
    simp only [Option.map_some, text_strip]
    split
    · rfl
    cases scope.child? .right with
    | none => rfl
    | some collection =>
      simp only [Option.map_some, Cursor.covers_strip]
      split
      · rfl
      cases m.declared? scope with
      | none => rfl
      | some type => rfl

theorem inType_strip (scope : Cursor) (use : Use) :
    m.inType scope.strip use = (m.inType scope use).map Binding.strip := by
  unfold inType
  rw [Cursor.child?_strip]
  cases scope.child? .name with
  | none => rfl
  | some name =>
    simp only [Option.map_some, text_strip, Option.map_map]
    rfl

/-- A scope binds names as it does with comments in it. -/
theorem binding?_strip (scope : Cursor) (use : Use) :
    m.binding? scope.strip use = (m.binding? scope use).map Binding.strip := by
  unfold binding?
  rw [Cursor.kind_strip, inLambda_strip, inCallable_strip, inBlock_strip, inForEach_strip,
    inHead_strip, inType_strip]
  simp only [apply_ite (Option.map Binding.strip), Option.map_none]

theorem meaning?_strip {c : Cursor} (h : c.isRemark = false) :
    m.meaning? c.strip = (m.meaning? c).map Binding.strip := by
  unfold meaning?
  rw [Cursor.ancestors_strip h, List.findSome?_map, List.map_findSome?, text_strip,
    Cursor.start_strip]
  congr 1
  funext scope
  exact m.binding?_strip scope _

theorem enclosing?_strip {c : Cursor} (h : c.isRemark = false) :
    m.enclosing? c.strip = m.enclosing? c := by
  unfold enclosing?
  rw [Cursor.ancestors_strip h, List.find?_map]
  simp only [Function.comp_def, Cursor.kind_strip]
  cases c.ancestors.find? (·.kind.declaresType) with
  | none => rfl
  | some scope =>
    simp only [Option.map_some, Cursor.child?_strip, Option.map_map, Function.comp_def,
      text_strip]

-- =================================================================== steps

theorem target?_strip (site : Cursor) : m.target? site.strip = m.target? site := by
  funext name type
  unfold target?
  rw [Cursor.lambdaArity?_strip]

theorem ownTarget?_strip {site : Cursor} (h : site.isRemark = false) :
    m.ownTarget? site.strip = m.ownTarget? site := by
  unfold ownTarget?
  rw [Cursor.child?_strip, m.enclosing?_strip h]
  cases site.child? .function with
  | none => rfl
  | some function =>
    simp only [Option.map_some, Cursor.kind_strip]
    show (if _ then (m.enclosing? site).bind fun owner =>
      m.index.method? owner.name (m.source.simpleName function.focus.strip) else none) = _
    rw [Source.simpleName_strip]

theorem ofBinding_strip (b : Option Binding) :
    ofBinding (b.map Binding.strip) = (ofBinding b).strip := by
  cases b with
  | none => rfl
  | some b =>
    cases b with
    | typed type => rfl
    | typeOf value => rfl
    | elementOf collection => rfl

theorem ofCall_strip {c : Cursor} (h : c.isRemark = false) :
    m.ofCall c.strip = (m.ofCall c).strip := by
  unfold ofCall
  rw [Cursor.memberCall?_strip, m.ownTarget?_strip h]
  cases c.memberCall? with
  | none => rfl
  | some parts =>
    obtain ⟨receiver, name⟩ := parts
    show Step.ask receiver.strip (.call c.strip (m.source.simpleName name.focus.strip)) = _
    rw [Source.simpleName_strip]
    rfl

theorem ofAccess_strip (c : Cursor) : m.ofAccess c.strip = (m.ofAccess c).strip := by
  unfold ofAccess
  rw [Cursor.child?_strip, Cursor.child?_strip, Option.map_map]
  cases c.child? .expression with
  | none => rfl
  | some object =>
    show Step.ask object.strip (.member ((c.child? .name).map fun name =>
      m.source.simpleName name.focus.strip)) = _
    simp only [Source.simpleName_strip]
    rfl

theorem ofExpression_strip {c : Cursor} (h : c.isRemark = false) :
    m.ofExpression c.strip = (m.ofExpression c).strip := by
  unfold ofExpression
  rw [Cursor.kind_strip, m.meaning?_strip h, ofBinding_strip, m.enclosing?_strip h,
    m.ofAccess_strip, m.ofCall_strip h, declared?_strip]
  split <;> rfl

theorem step_strip {c : Cursor} (h : c.isRemark = false) :
    m.step c.strip = (m.step c).strip := by
  unfold step
  rw [Cursor.unwrap_strip, m.ofExpression_strip (Cursor.not_isRemark_unwrap h)]

theorem fetch_strip (wanted : Wanted) (type : Option Ty) :
    m.fetch wanted.strip type = m.fetch wanted type := by
  unfold fetch
  cases wanted with
  | same => rfl
  | element => rfl
  | member name => rfl
  | call site name => simp only [Wanted.strip, target?_strip]

end Model

-- ============================================================= resolutions

/-- A variable never starts with a comment. -/
theorem Cursor.not_isRemark_of_value {c v : Cursor} (h : c.declarator.value = some v) :
    v.isRemark = false := by
  rcases Declarator.value_of_scan h with hv | ⟨-, hcounts⟩ | ⟨clause, -, -, hinner⟩
  · cases hv
  · exact not_isRemark_of_skips Label.skips_counts hcounts
  · exact not_isRemark_of_mem_namedChildren (List.mem_of_head? hinner)

theorem Offers.not_isRemark {scope holder guard value : Cursor}
    (h : Offers scope holder guard value) : value.isRemark = false := by
  cases h with
  | inBlock _ _ _ _ _ hvalue => exact Cursor.not_isRemark_of_value hvalue
  | inHead _ _ _ hvalue => exact Cursor.not_isRemark_of_value hvalue
  | inForEach _ hcollection => exact Cursor.not_isRemark_of_child? hcollection

namespace Model

variable {m : Model}

/-- No step leads to a remark. -/
theorem not_isRemark_of_step {c other : Cursor} {wanted : Wanted}
    (h : m.step c = .ask other wanted) : other.isRemark = false := by
  rcases step_cases h with ⟨-, b, hb, hvalue⟩ | ⟨-, hobject⟩ | ⟨name, hcall⟩
  · obtain ⟨scope, -, -, holder, guard, hoffers, -, -⟩ := exists_offers_of_meaning? hb hvalue
    exact hoffers.not_isRemark
  · exact Cursor.not_isRemark_of_child? hobject
  · exact (Cursor.not_isRemark_of_memberCall? hcall).2

theorem resolve_strip {c : Cursor} (hc : c.isRemark = false) :
    m.resolve c.strip = m.resolve c := by
  have halike : ∀ a b : Cursor, (a.isRemark = false ∧ b = a.strip) →
      m.StepsAlike (fun a b => a.isRemark = false ∧ b = a.strip) (m.step a) (m.step b) := by
    rintro a b ⟨ha, rfl⟩
    rw [m.step_strip ha]
    cases hstep : m.step a with
    | done type => exact .done type
    | ask other wanted =>
      exact .ask ⟨not_isRemark_of_step hstep, rfl⟩
        (funext fun type => (m.fetch_strip wanted type).symm)
  exact (resolve_eq_of_alike halike ⟨hc, rfl⟩).symm

theorem resolveMethod_strip {c : Cursor} (hc : c.isRemark = false) :
    m.resolveMethod c.strip = m.resolveMethod c := by
  unfold resolveMethod
  rw [Cursor.memberCall?_strip, m.ownTarget?_strip hc]
  cases hcall : c.memberCall? with
  | none => rfl
  | some parts =>
    obtain ⟨receiver, name⟩ := parts
    show (m.resolve receiver.strip).map (·.bind
      (m.target? c.strip (m.source.simpleName name.focus.strip))) = _
    rw [resolve_strip (Cursor.not_isRemark_of_memberCall? hcall).2, Source.simpleName_strip,
      target?_strip]

end Model

end QueryLint
