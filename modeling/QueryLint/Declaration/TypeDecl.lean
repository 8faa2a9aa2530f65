/-
Type declarations: the name of a class, struct, interface or record,
the names of its bases, and the types of its fields, properties and
methods, all as written. Members that leave their type to be inferred
are left out, and so are bases that are no types.

A `TypeDecl` keeps repetitions, in source order. A member declared twice
has the type of the later declaration; of several methods of a name the
first one counts. So the declarations of one type from several places
are joined by putting their lists one behind the other.
-/
import QueryLint.Declaration.Variable
import QueryLint.Ty.Written

namespace QueryLint

/-- What one or several declarations say of a type. -/
structure TypeDecl where
  name : String
  /-- The names of the bases. -/
  bases : List String
  /-- Fields and properties with their types. -/
  members : List (String × Ty)
  methods : List Method
deriving Repr

namespace TypeDecl

-- ================================================================= reading

variable (src : Source)

/-- The names of the bases that a declaration lists. -/
def basesOf (decl : Tree) : List String :=
  (decl.children.filter (·.kind == .baseList)).flatMap fun list =>
    (list.namedChildren.filterMap (Ty.ofTree? src)).map Ty.name

/-- The variables that a declaration of variables introduces, if their
type is written. -/
def variablesOf (decl : Tree) : List (String × Ty) :=
  match Ty.declared? src decl with
  | none => []
  | some type =>
    ((decl.namedOfKind .variableDeclarator).filterMap (·.declarator.name)).map
      fun name => (src.text name, type)

/-- The fields or the property that a member declaration introduces. -/
def membersOf (member : Tree) : List (String × Ty) :=
  match member.kind with
  | .fieldDeclaration => (member.namedOfKind .variableDeclaration).flatMap (variablesOf src)
  | .propertyDeclaration =>
    match Ty.declared? src member, member.child? .name with
    | some type, some name => [(src.text name, type)]
    | _, _ => []
  | _ => []

/-- The method that a member declaration introduces into the type `owner`. -/
def methodOf? (owner : String) (member : Tree) : Option Method :=
  if member.kind = .methodDeclaration then
    (member.child? .name).map fun name =>
      { name := src.text name
        receiver := Ty.plain owner
        parameters := ((member.child? .parameters).map (Parameter.ofList src)).getD []
        returns := ((member.child? .returns).or (member.child? .type)).bind (Ty.ofTree? src) }
  else none

/-- The declarations in the body of a type declaration. -/
def bodyOf (decl : Tree) : List Tree :=
  ((decl.child? .body).map Tree.namedChildren).getD []

/-- What a node declares, if it declares a type and names it. -/
def ofTree? (decl : Tree) : Option TypeDecl :=
  if decl.kind.declaresType then
    (decl.child? .name).map fun name =>
      { name := src.text name
        bases := basesOf src decl
        members := (bodyOf decl).flatMap (membersOf src)
        methods := (bodyOf decl).filterMap (methodOf? src (src.text name)) }
  else none

-- ================================================================== asking

/-- The type of a field or property: the last declaration counts. -/
def member? (d : TypeDecl) (name : String) : Option Ty :=
  (d.members.reverse.find? (·.1 == name)).map (·.2)

/-- The method of a name: the first declaration counts. -/
def method? (d : TypeDecl) (name : String) : Option Method :=
  d.methods.find? (·.name == name)

end TypeDecl

end QueryLint
