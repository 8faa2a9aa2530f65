/-
Once in memory, always in memory. A receiver that is no query may still
hold queries, as a `List<IQueryable<T>>` does, and an operator that picks
an element hands them out. So what the operators keep is a fact about
whole types: `Ty.InMemory` says that no type of queries occurs in a type
at any depth.

On such a receiver only the operators on sequences are bound. Each of
them is declared on a sequence, takes its lambda as a plain function and
gives back a type of the same kind (`inMemory_of_bind?`); and so do any
number of calls in a row, each made on what the one before it gives back
(`calls_in_memory_stay_there`).
-/
import QueryLint.Proofs.Operator.Catalog

namespace QueryLint

-- ========================================================== types in memory

namespace Ty

mutual

/-- The names that occur in a type, at any depth. -/
def names : Ty → List String
  | mk name args => name :: namesAll args

/-- The names that occur in several types. -/
def namesAll : List Ty → List String
  | [] => []
  | t :: ts => names t ++ namesAll ts

end

/-- A type in which no type of queries occurs. -/
def InMemory (t : Ty) : Prop := ∀ name ∈ t.names, name ∉ queryableReceivers

instance (t : Ty) : Decidable t.InMemory :=
  inferInstanceAs (Decidable (∀ name ∈ t.names, name ∉ queryableReceivers))

theorem mem_namesAll_iff {ts : List Ty} {name : String} :
    name ∈ namesAll ts ↔ ∃ t ∈ ts, name ∈ t.names := by
  induction ts with
  | nil => simp [namesAll]
  | cons t ts ih => simp [namesAll, ih]

theorem inMemory_mk_iff {name : String} {args : List Ty} :
    (mk name args).InMemory ↔ name ∉ queryableReceivers ∧ ∀ arg ∈ args, arg.InMemory := by
  unfold InMemory
  rw [names, List.forall_mem_cons]
  refine and_congr_right fun _ => ?_
  constructor
  · intro h arg harg other hother
    exact h other (mem_namesAll_iff.2 ⟨arg, harg, hother⟩)
  · intro h other hother
    obtain ⟨arg, harg, hother⟩ := mem_namesAll_iff.1 hother
    exact h arg harg other hother

/-- What a collection in memory holds is in memory. -/
theorem InMemory.element {t : Ty} (h : t.InMemory) : t.element.InMemory := by
  obtain ⟨name, args⟩ := t
  cases args with
  | nil =>
    show object.InMemory
    decide
  | cons first rest => exact (inMemory_mk_iff.1 h).2 first List.mem_cons_self

theorem InMemory.name_not_mem {t : Ty} (h : t.InMemory) : t.name ∉ queryableReceivers := by
  obtain ⟨name, args⟩ := t
  exact (inMemory_mk_iff.1 h).1

end Ty

-- ===================================================== operators in memory

/-- Whether a shape leads back to queries by nothing but its elements. -/
def Shape.staysInMemory : Shape → Bool
  | queryable => false
  | fixed name => !queryableReceivers.contains name
  | _ => true

theorem Shape.inMemory_type {shape : Shape} (h : shape.staysInMemory = true) {element : Ty}
    (helement : element.InMemory) : (shape.type .enumerable element).InMemory := by
  have hone : ∀ name, name ∉ queryableReceivers → (Ty.mk name [element]).InMemory :=
    fun name hname => Ty.inMemory_mk_iff.2 ⟨hname, List.forall_mem_singleton.2 helement⟩
  cases shape with
  | same => exact hone "IEnumerable" (by decide)
  | ordered => exact hone "IOrderedEnumerable" (by decide)
  | projected =>
    show (Ty.mk "IEnumerable" [.result]).InMemory
    decide
  | element => exact helement
  | list => exact hone "List" (by decide)
  | array => exact hone "Array" (by decide)
  | enumerable => exact hone "IEnumerable" (by decide)
  | queryable => cases h
  | fixed name =>
    have hname : name ∉ queryableReceivers := by simpa [staysInMemory] using h
    exact Ty.inMemory_mk_iff.2 ⟨hname, List.forall_mem_nil _⟩

/-- A method on a sequence in memory: it takes functions, and no
expression trees, and what it returns is in memory. -/
structure Method.InMemory (method : Method) : Prop where
  receiver : method.receiver.name = "IEnumerable" ∨ method.receiver.name = "IOrderedEnumerable"
  parameters : ∀ p ∈ method.parameters, ∃ args, p.type = some (.mk "Func" args)
  returns : ∃ type, method.returns = some type ∧ type.InMemory

namespace Operator

/-- What the table of the operators on sequences has in all its rows. -/
theorem row_of_mem_enumerable {op : Operator} (h : op ∈ enumerable) :
    op.returns.staysInMemory = true
      ∧ (op.receiver.getD Family.enumerable.typeName = "IEnumerable"
        ∨ op.receiver.getD Family.enumerable.typeName = "IOrderedEnumerable") := by
  have hall : ∀ op ∈ enumerable, op.returns.staysInMemory = true
      ∧ (op.receiver.getD Family.enumerable.typeName = "IEnumerable"
        ∨ op.receiver.getD Family.enumerable.typeName = "IOrderedEnumerable") := by
    decide +kernel
  exact hall op h

theorem name_functionType (op : Operator) (element : Ty) (arity : Nat) :
    ∃ args, op.functionType element arity = .mk "Func" args := by
  unfold functionType
  split
  · exact ⟨_, rfl⟩
  · exact ⟨_, rfl⟩

/-- In memory, an operator takes its lambda as a function. -/
theorem type_of_mem_parameters {op : Operator} {element : Ty} {arity? : Option Nat}
    {p : Parameter} (hp : p ∈ (op.toMethod .enumerable element arity?).parameters) :
    ∃ args, p.type = some (.mk "Func" args) := by
  cases arity? with
  | none => cases hp
  | some arity =>
    change p ∈ if op.takesLambda then [op.lambdaParameter .enumerable element arity] else [] at hp
    split at hp
    · rw [List.mem_singleton.1 hp]
      obtain ⟨args, hargs⟩ := op.name_functionType element arity
      exact ⟨args, congrArg some hargs⟩
    · cases hp

/-- A call on a receiver in memory is bound to a method in memory. -/
theorem inMemory_of_bind? {receiver : Ty} (hreceiver : receiver.InMemory) {name : String}
    {arity? : Option Nat} {target : Method} (h : bind? receiver name arity? = some target) :
    target.InMemory := by
  obtain ⟨⟨family, op⟩, hfind, rfl⟩ := Option.map_eq_some_iff.1 h
  cases family with
  | queryable => exact absurd (mem_queryableReceivers_of_find? hfind) hreceiver.name_not_mem
  | enumerable =>
    obtain ⟨hreturns, hthis⟩ := row_of_mem_enumerable (mem_of_find? hfind).1
    exact ⟨hthis, fun _ => type_of_mem_parameters, _, rfl,
      Shape.inMemory_type hreturns hreceiver.element⟩

-- ============================================================ calls in a row

/-- The targets of some calls in a row, each given by its name and by the
arity of its lambda and made on what the one before it returns, up to the
first that cannot be bound. -/
def targets (receiver : Ty) : List (String × Option Nat) → List Method
  | [] => []
  | (name, arity?) :: calls =>
    match bind? receiver name arity? with
    | none => []
    | some target =>
      target ::
        match target.returns with
        | none => []
        | some type => targets type calls

/-- However many calls are made in a row on a type in which no type of
queries occurs, and whichever they are: as long as they can be bound, they
are bound to methods on sequences in memory, which take plain functions
and return types of the same kind. -/
theorem calls_in_memory_stay_there (receiver : Ty) (calls : List (String × Option Nat))
    (hreceiver : receiver.InMemory) : ∀ target ∈ targets receiver calls, target.InMemory := by
  induction calls generalizing receiver with
  | nil =>
    intro target htarget
    cases htarget
  | cons call calls ih =>
    obtain ⟨name, arity?⟩ := call
    intro target htarget
    rw [targets] at htarget
    split at htarget
    · cases htarget
    · next first hfirst =>
      have hstep := inMemory_of_bind? hreceiver hfirst
      rcases List.mem_cons.1 htarget with rfl | hrest
      · exact hstep
      · obtain ⟨type, hreturns, htype⟩ := hstep.returns
        rw [hreturns] at hrest
        exact ih type htype target hrest

/-- A list of groups: its first group is taken, and two more calls are
bound behind that, all in memory; `AsQueryable` is not. -/
theorem list_of_groups_in_memory :
    (Ty.mk "List" [.mk "IGrouping" [.plain "String", .plain "U"]]).InMemory
      ∧ ∃ first select lookup : Method,
        targets (.mk "List" [.mk "IGrouping" [.plain "String", .plain "U"]])
            [("First", none), ("Select", some 2), ("ToLookup", some 1), ("AsQueryable", none)]
          = [first, select, lookup]
        ∧ first.InMemory ∧ select.InMemory ∧ lookup.InMemory := by
  have hmemory : (Ty.mk "List" [.mk "IGrouping" [.plain "String", .plain "U"]]).InMemory := by
    decide
  have hall := calls_in_memory_stay_there _
    [("First", none), ("Select", some 2), ("ToLookup", some 1), ("AsQueryable", none)] hmemory
  have hlength : (targets (.mk "List" [.mk "IGrouping" [.plain "String", .plain "U"]])
      [("First", none), ("Select", some 2), ("ToLookup", some 1), ("AsQueryable", none)]).length
        = 3 := by decide +kernel
  obtain ⟨first, select, lookup, heq⟩ := List.length_eq_three.1 hlength
  rw [heq] at hall
  exact ⟨hmemory, first, select, lookup, heq, hall first (by simp), hall select (by simp),
    hall lookup (by simp)⟩

end Operator

end QueryLint
