/-
What a syntax node says of itself: its kind in the C# grammar, whether
it is named there (as opposed to a bare token such as a bracket), the
field it fills in its parent, and its byte range in the source.

The grammar has several hundred kinds and the analysis distinguishes
fewer than fifty, so `Kind` has a constructor for each of those and
`other` for the rest. `Kind.ofName` never builds an `other` that spells
a known kind, and `name_ofName` says that no name is lost on the way.
-/
namespace QueryLint

-- =================================================================== kinds

/-- The kind of a syntax node. -/
inductive Kind where
  | comment
  -- expressions
  | identifier
  | genericName
  | this
  | thisExpression
  | parenthesized
  | memberAccess
  | invocation
  | objectCreation
  | cast
  | lambda
  -- arguments and parameters
  | argument
  | nameColon
  | parameterList
  | parameter
  -- types
  | implicitType
  | predefinedType
  | qualifiedName
  | aliasQualifiedName
  | nullableType
  | arrayType
  | tupleType
  | typeArgumentList
  -- variables
  | variableDeclaration
  | variableDeclarator
  | equalsValueClause
  | equalsSign
  -- type declarations and their members
  | classDeclaration
  | structDeclaration
  | interfaceDeclaration
  | recordDeclaration
  | recordStructDeclaration
  | baseList
  | fieldDeclaration
  | propertyDeclaration
  | methodDeclaration
  | constructorDeclaration
  | operatorDeclaration
  | conversionOperatorDeclaration
  | localFunction
  -- statements
  | block
  | localDeclaration
  | forEachStatement
  | forStatement
  | usingStatement
  | fixedStatement
  /-- A kind that the analysis does not tell from other such kinds. -/
  | other (name : String)
deriving DecidableEq, Repr

namespace Kind

/-- The grammar's name of a kind. -/
def name : Kind → String
  | comment => "comment"
  | identifier => "identifier"
  | genericName => "generic_name"
  | this => "this"
  | thisExpression => "this_expression"
  | parenthesized => "parenthesized_expression"
  | memberAccess => "member_access_expression"
  | invocation => "invocation_expression"
  | objectCreation => "object_creation_expression"
  | cast => "cast_expression"
  | lambda => "lambda_expression"
  | argument => "argument"
  | nameColon => "name_colon"
  | parameterList => "parameter_list"
  | parameter => "parameter"
  | implicitType => "implicit_type"
  | predefinedType => "predefined_type"
  | qualifiedName => "qualified_name"
  | aliasQualifiedName => "alias_qualified_name"
  | nullableType => "nullable_type"
  | arrayType => "array_type"
  | tupleType => "tuple_type"
  | typeArgumentList => "type_argument_list"
  | variableDeclaration => "variable_declaration"
  | variableDeclarator => "variable_declarator"
  | equalsValueClause => "equals_value_clause"
  | equalsSign => "="
  | classDeclaration => "class_declaration"
  | structDeclaration => "struct_declaration"
  | interfaceDeclaration => "interface_declaration"
  | recordDeclaration => "record_declaration"
  | recordStructDeclaration => "record_struct_declaration"
  | baseList => "base_list"
  | fieldDeclaration => "field_declaration"
  | propertyDeclaration => "property_declaration"
  | methodDeclaration => "method_declaration"
  | constructorDeclaration => "constructor_declaration"
  | operatorDeclaration => "operator_declaration"
  | conversionOperatorDeclaration => "conversion_operator_declaration"
  | localFunction => "local_function_statement"
  | block => "block"
  | localDeclaration => "local_declaration_statement"
  | forEachStatement => "foreach_statement"
  | forStatement => "for_statement"
  | usingStatement => "using_statement"
  | fixedStatement => "fixed_statement"
  | other name => name

/-- Every kind that has a constructor of its own. -/
def known : List Kind :=
  [comment, identifier, genericName, this, thisExpression, parenthesized,
   memberAccess, invocation, objectCreation, cast, lambda, argument,
   nameColon, parameterList, parameter, implicitType, predefinedType,
   qualifiedName, aliasQualifiedName, nullableType, arrayType, tupleType,
   typeArgumentList, variableDeclaration, variableDeclarator,
   equalsValueClause, equalsSign, classDeclaration, structDeclaration,
   interfaceDeclaration, recordDeclaration, recordStructDeclaration,
   baseList, fieldDeclaration, propertyDeclaration, methodDeclaration,
   constructorDeclaration, operatorDeclaration,
   conversionOperatorDeclaration, localFunction, block, localDeclaration,
   forEachStatement, forStatement, usingStatement, fixedStatement]

/-- The kind of a given name. -/
def ofName (s : String) : Kind := (known.find? (·.name == s)).getD (other s)

@[simp]
theorem name_ofName (s : String) : (ofName s).name = s := by
  unfold ofName
  cases h : known.find? (·.name == s) with
  | none => rfl
  | some k => simpa using List.find?_some h

/-- The declarations that introduce a type with members. -/
def declaresType : Kind → Bool
  | classDeclaration | structDeclaration | interfaceDeclaration
  | recordDeclaration | recordStructDeclaration => true
  | _ => false

/-- The declarations whose parameters are in scope in their body; a
lambda has rules of its own and is none of them. -/
def declaresCallable : Kind → Bool
  | methodDeclaration | constructorDeclaration | localFunction
  | operatorDeclaration | conversionOperatorDeclaration => true
  | _ => false

/-- The statements that may declare variables in their head. -/
def declaresInHead : Kind → Bool
  | forStatement | usingStatement | fixedStatement => true
  | _ => false

end Kind

-- ================================================================== fields

/-- The field of its parent that a node fills. -/
inductive Field where
  | name
  | type
  | returns
  | body
  | parameters
  | arguments
  | function
  | expression
  | left
  | right
  /-- A field that the analysis never asks for. -/
  | other (name : String)
deriving DecidableEq, Repr

/-- The field of a given name. -/
def Field.ofName : String → Field
  | "name" => name
  | "type" => type
  | "returns" => returns
  | "body" => body
  | "parameters" => parameters
  | "arguments" => arguments
  | "function" => function
  | "expression" => expression
  | "left" => left
  | "right" => right
  | s => other s

-- ================================================================== labels

/-- What a node says of itself, its children apart. -/
structure Label where
  /-- Its kind in the grammar. -/
  kind : Kind
  /-- Whether the grammar names it; brackets and keywords are unnamed. -/
  named : Bool
  /-- The field that it fills in its parent, if any. -/
  field : Option Field
  /-- The offset of its first byte in the source. -/
  start : Nat
  /-- The offset just behind its last byte. -/
  stop : Nat
deriving DecidableEq, Repr

/-- Whether a node stands for a part of the construct it is in: comments
may appear anywhere and never do, and neither do bare tokens. -/
def Label.counts (l : Label) : Bool := l.named && l.kind != .comment

end QueryLint
