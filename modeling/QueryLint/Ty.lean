/-
Types by simple name. Namespaces play no part in the analysis: a type is
its unqualified name and its type arguments, and two types are the same
when these are.
-/
namespace QueryLint

/-- A type: `DbSet<User>` is the name `DbSet` with the argument `User`. -/
inductive Ty where
  | mk (name : String) (args : List Ty)
deriving Repr

namespace Ty

def name : Ty → String
  | mk n _ => n

/-- The type arguments. -/
def args : Ty → List Ty
  | mk _ as => as

/-- The type of a name that takes no arguments. -/
def plain (name : String) : Ty := mk name []

/-- What stands for a type argument that cannot be told. -/
def object : Ty := plain "Object"

/-- What stands for the type that a lambda produces. -/
def result : Ty := plain "TResult"

/-- What a collection holds: `User` for `DbSet<User>`, and `Object` for a
type without arguments. -/
def element (t : Ty) : Ty := t.args.headD object

mutual

/-- The way a type is written: `Name<A, B>`. -/
def render : Ty → String
  | mk n [] => n
  | mk n (a :: as) => n ++ "<" ++ render a ++ renderRest as ++ ">"

/-- The type arguments behind the first. -/
def renderRest : List Ty → String
  | [] => ""
  | a :: as => ", " ++ render a ++ renderRest as

end

end Ty

/-- A parameter; its type is unknown where the source leaves it out. -/
structure Parameter where
  name : String
  type : Option Ty
deriving Repr

/-- A method as the target of a call. -/
structure Method where
  name : String
  /-- The type that the call is made on, as the method declares it. -/
  receiver : Ty
  parameters : List Parameter
  returns : Option Ty
deriving Repr

end QueryLint
