/-
EFX0001: lambdas that take the index of the element in a query that
Entity Framework turns into SQL. `users.Where((u, i) => i < 5)` compiles
and, on a `DbSet`, throws when it runs.

The rule looks at queries whose source is a `DbSet`, call by call from
the source, as long as calls are still made on queries: once one is
made on a sequence in memory, so are all behind it, and there the index
is harmless. Whether a call takes the index is told twice over, by the
type of the parameter that its target takes the lambda as, and by the
lambda having a second parameter to point at.
-/
import QueryLint.Chain
import QueryLint.Diagnostic

namespace QueryLint

-- ========================================================== function types

/-- A function type: its parameters and, last, what it returns. -/
structure FunctionShape where
  args : List Ty

namespace FunctionShape

def parameterTypes (f : FunctionShape) : List Ty := f.args.dropLast

def returnType (f : FunctionShape) : Option Ty := f.args.getLast?

/-- The function that a type describes, as a delegate or as the
expression tree of one; none for a type without arguments. -/
def ofType? (t : Option Ty) : Option FunctionShape :=
  t.bind fun t =>
    let function :=
      match t.name, t.args with
      | "Expression", [f] => f
      | _, _ => t
    if function.args.isEmpty then none else some ⟨function.args⟩

/-- Whether the second parameter is an index. A function of one
parameter may well return an `Int32`, so a third argument has to follow. -/
def takesIndex (f : FunctionShape) : Bool :=
  match f.args with
  | _ :: second :: _ :: _ => second.name == "Int32"
  | _ => false

end FunctionShape

namespace IndexLambda

-- ================================================================ the rule

/-- The rule that the findings are reported under. -/
def rule : Rule where
  id := "EFX0001"
  title := "Unsupported LINQ expression"
  messageFormat :=
    "This version of Entity Framework does not support \x7b0\x7d, " ++
    "this expression may throw an exception at runtime."
  category := "LINQ"
  severity := "warning"

/-- The operators whose lambda may take the index. -/
def operators : List String := ["Select", "Where", "SelectMany", "SkipWhile", "TakeWhile"]

/-- Whether an operator's lambda may take the index. -/
def isSensitive (name : String) : Bool := operators.contains name

-- =============================================================== one call

/-- The second parameter of the lambda that a call passes first. -/
def indexParameter? (site : Cursor) : Option Cursor :=
  match site.arguments with
  | [] => none
  | first :: _ =>
    match first.lambdaParameters? with
    | some (_ :: second :: _) => some second
    | _ => none

/-- Whether the target of a call takes the index. -/
def takesIndex (target : Method) : Bool :=
  match target.parameters with
  | [] => false
  | first :: _ =>
    match FunctionShape.ofType? first.type with
    | none => false
    | some function => function.takesIndex

/-- The finding at a call: at the index parameter, if there is one and
the target takes it. -/
def check? (src : Source) (path : String) (link : Link) : Option Diagnostic :=
  if takesIndex link.target then
    (indexParameter? link.site).map fun parameter =>
      let point := src.point parameter.start
      { rule
        location := ⟨path, point.row, point.column⟩
        args := ["using the second index parameter in " ++ link.name] }
  else none

-- ============================================================== one query

/-- Whether a type is the set of a table. -/
def isTable (t : Option Ty) : Bool :=
  match t with
  | none => false
  | some t => t.name == "DbSet"

/-- Whether a call is made on a query. -/
def onQuery (link : Link) : Bool := link.target.receiver.name == "IQueryable"

/-- The findings in a query whose source is a table. -/
def findings (src : Source) (path : String) (query : Query) : List Diagnostic :=
  ((query.links.takeWhile onQuery).filter (isSensitive ·.name)).filterMap (check? src path)

/-- The findings at a node: those of the query that ends there. -/
def report (services : Services) (src : Source) (path : String) (c : Cursor) :
    Except AnalysisError (List Diagnostic) := do
  match ← services.query? src c with
  | none => return []
  | some query =>
    if isTable (← services.type query.source) then return findings src path query
    else return []

end IndexLambda

end QueryLint
