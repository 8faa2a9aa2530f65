/-
Facts about the catalog that no single entry shows. The tables are
closed, so these are checked entry by entry, each once; what is bound to
a name follows from the names being distinct (`find?_of_mem_queryable`,
`mem_of_find?`), and nothing else looks at the tables again.
-/
import Mathlib.Data.List.Nodup
import QueryLint.Rule.IndexLambda

namespace QueryLint

namespace Operator

-- ================================================================ the tables

theorem nodup_names (family : Family) : (family.operators.map Operator.name).Nodup := by
  cases family <;> decide +kernel

/-- An operator on queries that says what it is declared on is not
declared on `IQueryable`. -/
theorem receiver_ne_of_mem_queryable {op : Operator} (h : op ∈ queryable) :
    op.receiver ≠ some "IQueryable" := by
  have hall : ∀ op ∈ queryable, op.receiver ≠ some "IQueryable" := by decide +kernel
  exact hall op h

theorem receiver_of_mem_enumerable {op : Operator} (h : op ∈ enumerable) :
    op.receiver.getD Family.enumerable.typeName ≠ "IQueryable" := by
  have hall : ∀ op ∈ enumerable,
      op.receiver.getD Family.enumerable.typeName ≠ "IQueryable" := by decide +kernel
  exact hall op h

/-- The operators that the rule is about are those with an overload for
the index, and these take a lambda. -/
theorem isSensitive_of_mem_queryable {op : Operator} (h : op ∈ queryable) :
    IndexLambda.isSensitive op.name = (op.takesLambda && op.indexed) := by
  have hall : ∀ op ∈ queryable,
      IndexLambda.isSensitive op.name = (op.takesLambda && op.indexed) := by decide +kernel
  exact hall op h

-- =================================================================== finding

theorem operator?_eq_some_iff {family : Family} {name : String} {op : Operator} :
    family.operator? name = some op ↔ op ∈ family.operators ∧ op.name = name := by
  constructor
  · intro h
    exact ⟨List.mem_of_find?_eq_some h, by simpa using List.find?_some h⟩
  · intro h
    obtain ⟨hmem, rfl⟩ := h
    unfold Family.operator?
    cases hfind : family.operators.find? (·.name == op.name) with
    | none => simpa using List.find?_eq_none.1 hfind op hmem
    | some other =>
      have hname : other.name = op.name := by simpa using List.find?_some hfind
      rw [List.inj_on_of_nodup_map (nodup_names family) (List.mem_of_find?_eq_some hfind) hmem
        hname]

/-- On a query, a name of the query operators is bound to its operator. -/
theorem find?_of_mem_queryable {receiver : String} (hreceiver : receiver ∈ queryableReceivers)
    {op : Operator} (hop : op ∈ queryable) :
    find? receiver op.name = some (.queryable, op) := by
  have hoperator : Family.queryable.operator? op.name = some op :=
    operator?_eq_some_iff.2 ⟨hop, rfl⟩
  simp [find?, hreceiver, hoperator]

/-- Whatever is bound is an operator of that name in its family. -/
theorem mem_of_find? {receiver name : String} {family : Family} {op : Operator}
    (h : find? receiver name = some (family, op)) : op ∈ family.operators ∧ op.name = name := by
  have hsource : family.operator? name = some op := by
    unfold find? at h
    rcases Option.or_eq_some_iff.1 h with h | ⟨-, h⟩
    · obtain ⟨found, hfound, heq⟩ := Option.map_eq_some_iff.1 h
      cases heq
      split at hfound
      · exact hfound
      · cases hfound
    · obtain ⟨found, hfound, heq⟩ := Option.map_eq_some_iff.1 h
      cases heq
      split at hfound
      · exact hfound
      · cases hfound
  exact operator?_eq_some_iff.1 hsource

/-- What is bound as an operator on queries is called on a query. -/
theorem mem_queryableReceivers_of_find? {receiver name : String} {op : Operator}
    (h : find? receiver name = some (.queryable, op)) : receiver ∈ queryableReceivers := by
  unfold find? at h
  rcases Option.or_eq_some_iff.1 h with h | ⟨-, h⟩
  · obtain ⟨found, hfound, -⟩ := Option.map_eq_some_iff.1 h
    split at hfound
    · next hreceiver => exact List.contains_iff_mem.1 hreceiver
    · cases hfound
  · obtain ⟨found, -, heq⟩ := Option.map_eq_some_iff.1 h
    cases heq

/-- What is bound to a method on `IQueryable` is an operator on
queries. -/
theorem family_of_find? {receiver name : String} {family : Family} {op : Operator}
    (h : find? receiver name = some (family, op))
    (hreceiver : op.receiver.getD family.typeName = "IQueryable") : family = .queryable := by
  cases family with
  | queryable => rfl
  | enumerable => exact absurd hreceiver (receiver_of_mem_enumerable (mem_of_find? h).1)

-- ==================================================================== names

/-- The names of the operators on queries that are declared on
`IQueryable` itself. -/
def queryNames : List String := (queryable.filter (·.receiver.isNone)).map Operator.name

/-- Whether a shape is a sequence of the operator's own family. -/
def isSequence : Shape → Bool
  | .same | .ordered | .projected => true
  | _ => false

/-- Those of them that leave a query. -/
def chainNames : List String :=
  (queryable.filter fun op => op.receiver.isNone && isSequence op.returns).map Operator.name

theorem mem_queryNames_iff {name : String} :
    name ∈ queryNames ↔ ∃ op ∈ queryable, op.receiver = none ∧ op.name = name := by
  simp [queryNames, and_assoc]

theorem mem_chainNames_iff {name : String} :
    name ∈ chainNames ↔
      ∃ op ∈ queryable, op.receiver = none ∧ isSequence op.returns = true ∧ op.name = name := by
  simp [chainNames, and_assoc]

theorem mem_queryNames_of_mem_chainNames {name : String} (h : name ∈ chainNames) :
    name ∈ queryNames := by
  obtain ⟨op, hop, hreceiver, -, hname⟩ := mem_chainNames_iff.1 h
  exact mem_queryNames_iff.2 ⟨op, hop, hreceiver, hname⟩

/-- Only a name of the query operators is bound to a method on
`IQueryable`. -/
theorem receiver_ne_of_bind? {type : Ty} {name : String} {arity? : Option Nat}
    {target : Method} (hname : name ∉ queryNames) (h : bind? type name arity? = some target) :
    target.receiver.name ≠ "IQueryable" := by
  obtain ⟨⟨family, op⟩, hfind, rfl⟩ := Option.map_eq_some_iff.1 h
  obtain ⟨hop, hopname⟩ := mem_of_find? hfind
  show op.receiver.getD family.typeName ≠ "IQueryable"
  cases family with
  | enumerable => exact receiver_of_mem_enumerable hop
  | queryable =>
    cases hreceiver : op.receiver with
    | none => exact absurd (mem_queryNames_iff.2 ⟨op, hop, hreceiver, hopname⟩) hname
    | some other =>
      intro heq
      apply receiver_ne_of_mem_queryable hop
      rw [hreceiver]
      exact congrArg some heq

/-- What a sequence is called in the family of queries. -/
theorem name_type_of_isSequence {shape : Shape} (h : isSequence shape = true) (element : Ty) :
    (shape.type .queryable element).name = "IQueryable"
      ∨ (shape.type .queryable element).name = "IOrderedQueryable" := by
  cases shape with
  | same => exact .inl rfl
  | ordered => exact .inr rfl
  | projected => exact .inl rfl
  | element | list | array | enumerable | queryable | fixed => cases h

/-- An operator on queries takes the index exactly if it has the overload
and is given a lambda of two parameters. -/
theorem takesIndex_toMethod (op : Operator) (element : Ty) (arity : Nat) :
    IndexLambda.takesIndex (op.toMethod .queryable element (some arity))
      = (op.takesLambda && op.indexed && decide (2 ≤ arity)) := by
  unfold IndexLambda.takesIndex toMethod lambdaParameter functionType
  cases op.takesLambda with
  | false => rfl
  | true =>
    cases op.indexed with
    | false => rfl
    | true =>
      by_cases harity : 2 ≤ arity
      · simp [harity]
        rfl
      · simp [harity]
        rfl

end Operator

end QueryLint
