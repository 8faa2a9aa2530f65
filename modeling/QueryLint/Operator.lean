/-
The catalog of query operators, and how a call is bound to one. A method
that no class declares may still be an operator: an extension method on
queries, whose calls become part of an SQL statement, or on sequences in
memory. Binding prefers the query operators on a receiver that is a
query, and falls back on the sequence operators, which every query and
every collection has.

What an operator gives back is a `Shape` over the element type of its
receiver. An operator may take a lambda as its first argument, and some
have a second overload whose lambda takes the position of the element as
well; the number of the lambda's parameters chooses between the two.
-/
import QueryLint.Ty

namespace QueryLint

-- ================================================================ families

/-- The two families of operators. -/
inductive Family where
  /-- On queries: `IQueryable<T>`. -/
  | queryable
  /-- On sequences in memory: `IEnumerable<T>`. -/
  | enumerable
deriving DecidableEq, Repr

namespace Family

/-- The type that the operators of a family are declared on. -/
def typeName : Family → String
  | queryable => "IQueryable"
  | enumerable => "IEnumerable"

/-- What a family calls a sequence in a chosen order. -/
def orderedName : Family → String
  | queryable => "IOrderedQueryable"
  | enumerable => "IOrderedEnumerable"

end Family

/-- The types that are queries. -/
def queryableReceivers : List String :=
  ["DbSet", "IDbSet", "DbQuery", "IQueryable", "IOrderedQueryable", "ObjectSet",
   "ObjectQuery", "IIncludableQueryable"]

/-- The types that are sequences but no queries. -/
def enumerableReceivers : List String :=
  ["IEnumerable", "IOrderedEnumerable", "IGrouping", "ILookup", "Lookup", "List",
   "IList", "ICollection", "IReadOnlyList", "IReadOnlyCollection", "Collection",
   "ReadOnlyCollection", "ObservableCollection", "HashSet", "ISet", "SortedSet",
   "LinkedList", "Queue", "Stack", "Array", "ImmutableArray", "ImmutableList"]

-- =============================================================== operators

/-- What an operator gives back, from elements of type `T`. -/
inductive Shape where
  /-- The family's sequence of `T`. -/
  | same
  /-- The family's ordered sequence of `T`. -/
  | ordered
  /-- The family's sequence of what a lambda makes of the elements. -/
  | projected
  /-- A single `T`. -/
  | element
  /-- A list of `T`. -/
  | list
  /-- An array of `T`. -/
  | array
  /-- A sequence in memory, whatever the receiver was. -/
  | enumerable
  /-- A query, whatever the receiver was. -/
  | queryable
  /-- A type that does not depend on `T`. -/
  | fixed (name : String)
deriving DecidableEq, Repr

/-- The type of a given shape, in a family and over an element type. -/
def Shape.type (family : Family) (element : Ty) : Shape → Ty
  | same => .mk family.typeName [element]
  | ordered => .mk family.orderedName [element]
  | projected => .mk family.typeName [.result]
  | .element => element
  | list => .mk "List" [element]
  | array => .mk "Array" [element]
  | enumerable => .mk Family.enumerable.typeName [element]
  | queryable => .mk Family.queryable.typeName [element]
  | fixed name => .plain name

/-- An operator of a family. -/
structure Operator where
  name : String
  returns : Shape
  /-- Whether its first argument may be a lambda. -/
  takesLambda : Bool
  /-- Whether it has an overload whose lambda also takes the index. -/
  indexed : Bool
  /-- The type that it is declared on, where that is not the family's. -/
  receiver : Option String
deriving Repr

namespace Operator

/-- An operator that takes no lambda. -/
def bare (name : String) (returns : Shape) : Operator := ⟨name, returns, false, false, none⟩

/-- An operator whose lambda takes an element. -/
def withLambda (name : String) (returns : Shape) : Operator :=
  ⟨name, returns, true, false, none⟩

/-- An operator whose lambda takes an element and, if it has a second
parameter, the index. -/
def withIndex (name : String) (returns : Shape) : Operator :=
  ⟨name, returns, true, true, none⟩

/-- The same operator, declared on another type than its family's. -/
def on (op : Operator) (type : String) : Operator := { op with receiver := some type }

/-- The operators that both families have. -/
def common : List Operator :=
  [withIndex "Where" .same,
   withIndex "Select" .projected,
   withIndex "SelectMany" .projected,
   withIndex "SkipWhile" .same,
   withIndex "TakeWhile" .same,
   withLambda "OrderBy" .ordered,
   withLambda "OrderByDescending" .ordered,
   withLambda "GroupBy" .projected,
   bare "Join" .projected,
   bare "GroupJoin" .projected,
   bare "Skip" .same,
   bare "Take" .same,
   bare "Distinct" .same,
   bare "Reverse" .same,
   bare "Concat" .same,
   bare "Union" .same,
   bare "Intersect" .same,
   bare "Except" .same,
   bare "DefaultIfEmpty" .same,
   bare "Cast" .projected,
   bare "OfType" .projected,
   withLambda "First" .element,
   withLambda "FirstOrDefault" .element,
   withLambda "Single" .element,
   withLambda "SingleOrDefault" .element,
   withLambda "Last" .element,
   withLambda "LastOrDefault" .element,
   bare "ElementAt" .element,
   bare "ElementAtOrDefault" .element,
   withLambda "Any" (.fixed "Boolean"),
   withLambda "All" (.fixed "Boolean"),
   bare "Contains" (.fixed "Boolean"),
   withLambda "Count" (.fixed "Int32"),
   withLambda "LongCount" (.fixed "Int64"),
   withLambda "Sum" (.fixed "TResult"),
   withLambda "Average" (.fixed "TResult"),
   withLambda "Min" (.fixed "TResult"),
   withLambda "Max" (.fixed "TResult")]

/-- The operators on queries. -/
def queryable : List Operator :=
  common ++
  [(withLambda "ThenBy" .ordered).on "IOrderedQueryable",
   (withLambda "ThenByDescending" .ordered).on "IOrderedQueryable",
   (bare "AsQueryable" .queryable).on "IEnumerable",
   bare "Include" .same,
   bare "AsNoTracking" .same,
   bare "AsTracking" .same]

/-- The operators on sequences in memory. -/
def enumerable : List Operator :=
  common ++
  [(withLambda "ThenBy" .ordered).on "IOrderedEnumerable",
   (withLambda "ThenByDescending" .ordered).on "IOrderedEnumerable",
   bare "AsEnumerable" .enumerable,
   bare "ToList" .list,
   bare "ToArray" .array,
   withLambda "ToDictionary" (.fixed "Dictionary"),
   withLambda "ToLookup" (.fixed "ILookup")]

end Operator

/-- The operators of a family. -/
def Family.operators : Family → List Operator
  | .queryable => Operator.queryable
  | .enumerable => Operator.enumerable

/-- The operator of a given name in a family. -/
def Family.operator? (family : Family) (name : String) : Option Operator :=
  family.operators.find? (·.name == name)

-- ================================================================= binding

namespace Operator

/-- The operator that a call by `name` on a type called `receiver` means,
with its family. -/
def find? (receiver name : String) : Option (Family × Operator) :=
  let query := queryableReceivers.contains receiver
  let onQueries := if query then Family.queryable.operator? name else none
  let inMemory :=
    if query || enumerableReceivers.contains receiver then Family.enumerable.operator? name
    else none
  (onQueries.map (Family.queryable, ·)).or (inMemory.map (Family.enumerable, ·))

/-- The type of the function that an operator's lambda is, for a lambda
of `arity` parameters over elements of a given type. -/
def functionType (op : Operator) (element : Ty) (arity : Nat) : Ty :=
  if op.indexed && decide (2 ≤ arity) then
    .mk "Func" [element, .plain "Int32", .result]
  else .mk "Func" [element, .result]

/-- The parameter that takes the lambda. Operators on queries take it as
an expression tree, so that it can become SQL. -/
def lambdaParameter (op : Operator) (family : Family) (element : Ty) (arity : Nat) :
    Parameter :=
  let function := op.functionType element arity
  match family with
  | .queryable => ⟨"selector", some (.mk "Expression" [function])⟩
  | .enumerable => ⟨"selector", some function⟩

/-- An operator as the target of a call on elements of a given type;
`arity?` is that of a lambda in the first argument. -/
def toMethod (op : Operator) (family : Family) (element : Ty) (arity? : Option Nat) :
    Method :=
  { name := op.name
    receiver := .mk (op.receiver.getD family.typeName) [element]
    parameters :=
      match arity? with
      | some arity => if op.takesLambda then [op.lambdaParameter family element arity] else []
      | none => []
    returns := some (op.returns.type family element) }

/-- The operator that a call on a receiver of a given type means, as the
target of the call. -/
def bind? (receiver : Ty) (name : String) (arity? : Option Nat) : Option Method :=
  (find? receiver.name name).map fun (family, op) =>
    op.toMethod family receiver.element arity?

end Operator

end QueryLint
