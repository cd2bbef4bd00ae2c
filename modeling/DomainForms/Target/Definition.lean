import DomainForms.Target.Expr

/-!
# Type definitions

What is generated for a declaration: a type with its base types, members and annotations, and the
groups of types that a whole document gives.

* `TypeDefinition`: one generated type, with look-ups for each sort of member.
* `Output`: all generated types, grouped by namespace.
* `Output.add`: a type put into the group of its own namespace.
-/

namespace DomainForms

/-- The kinds of generated types. -/
inductive TypeKind where
  /-- A reference type. -/
  | classType
  /-- A value type. -/
  | structType
  /-- An enumeration. -/
  | enumType
  /-- A list of operations without bodies. -/
  | interfaceType
deriving DecidableEq, Repr

/-- The word for a kind of type. -/
def TypeKind.keyword : TypeKind → String
  | classType => "class"
  | structType => "struct"
  | enumType => "enum"
  | interfaceType => "interface"

/-- Who can see a type or a member. -/
inductive Visibility where
  /-- Everyone. -/
  | everyone
  /-- The type itself only. -/
  | ownType
deriving DecidableEq, Repr

/-- Metadata of a type or a member. -/
structure Annotation where
  /-- The name. -/
  name : String
  /-- The arguments, in order. -/
  arguments : List (String × String)
deriving DecidableEq, Repr

/-- The value of a named argument. -/
def Annotation.argument? (a : Annotation) (key : String) : Option String :=
  (a.arguments.find? (·.1 == key)).map Prod.snd

/-- A type that another one inherits. -/
structure BaseType where
  /-- The full name. -/
  name : String
  /-- The type arguments. -/
  typeArguments : List String
deriving DecidableEq, Repr

/-- The wording of a base type. -/
def BaseType.text (b : BaseType) : String :=
  if b.typeArguments.isEmpty then b.name
  else b.name ++ "<" ++ Text.separated ", " b.typeArguments ++ ">"

/-! ## Members -/

/-- A parameter of a member. -/
structure Parameter where
  /-- The name. -/
  name : String
  /-- The type. -/
  type : TypeRef
deriving DecidableEq, Repr

/-- The storage of a property. -/
structure Field where
  /-- The name. -/
  name : String
  /-- The type. -/
  type : TypeRef
  /-- Who can see it. -/
  visibility : Visibility
  /-- Whether only the constructor stores into it. -/
  isReadonly : Bool
  /-- The metadata. -/
  annotations : List Annotation
deriving DecidableEq, Repr

/-- What makes an instance. -/
structure Constructor where
  /-- Who can call it. -/
  visibility : Visibility
  /-- The parameters, in order. -/
  parameters : List Parameter
  /-- The body. -/
  body : List Stmt

/-- What reads a property. -/
structure Accessor where
  /-- The name of the property. -/
  name : String
  /-- The type. -/
  type : TypeRef
  /-- Who can read it. -/
  visibility : Visibility
  /-- What is read. -/
  getter : Expr
deriving DecidableEq, Repr

/-- The operators that a type declares. -/
inductive OperatorKind where
  /-- Equality. -/
  | equality
  /-- Inequality. -/
  | inequality
deriving DecidableEq, Repr

/-- The symbol of an operator. -/
def OperatorKind.symbol : OperatorKind → String
  | equality => "=="
  | inequality => "!="

/-- An operator of a type. -/
structure Operator where
  /-- Which operator it is. -/
  kind : OperatorKind
  /-- The operands. -/
  parameters : List Parameter
  /-- The type of the result. -/
  resultType : TypeRef
  /-- The body. -/
  body : List Stmt

/-- How a method relates to an inherited one. -/
inductive MethodModifier where
  /-- It stands on its own. -/
  | plain
  /-- It takes the place of an inherited one. -/
  | override
  /-- It has no body. -/
  | abstract
deriving DecidableEq, Repr

/-- A method. -/
structure Method where
  /-- The name. -/
  name : String
  /-- Who can call it. -/
  visibility : Visibility
  /-- How it relates to an inherited one. -/
  modifier : MethodModifier
  /-- The parameters, in order. -/
  parameters : List Parameter
  /-- The type of the result, if there is one. -/
  resultType : Option TypeRef
  /-- The body, if there is one. -/
  body : Option (List Stmt)

/-- A value of an enumeration. -/
structure EnumValue where
  /-- The name. -/
  name : String
  /-- The metadata. -/
  annotations : List Annotation
deriving DecidableEq, Repr

/-- A member of a type. -/
inductive Member where
  /-- Storage. -/
  | field (f : Field)
  /-- A constructor. -/
  | constructor (c : Constructor)
  /-- A readable property. -/
  | accessor (a : Accessor)
  /-- An operator. -/
  | operator (o : Operator)
  /-- A method. -/
  | method (m : Method)
  /-- A value of an enumeration. -/
  | enumValue (v : EnumValue)

/-! ## Types -/

/-- A generated type. -/
structure TypeDefinition where
  /-- What sort of type it is. -/
  kind : TypeKind
  /-- The simple name. -/
  name : String
  /-- The namespace around it. -/
  scope : String
  /-- Who can see it. -/
  visibility : Visibility
  /-- Whether nothing can inherit it. -/
  isSealed : Bool
  /-- Whether it can be continued elsewhere. -/
  isPartial : Bool
  /-- What it inherits, in order. -/
  baseTypes : List BaseType
  /-- The members, in order. -/
  members : List Member
  /-- The metadata. -/
  annotations : List Annotation

namespace TypeDefinition

/-- The name with the namespace in front. -/
def fullName (t : TypeDefinition) : String :=
  if t.scope.isEmpty then t.name else t.scope ++ "." ++ t.name

/-- A reference to the type. -/
def typeRef (t : TypeDefinition) : TypeRef := .ofName t.fullName

/-- The fields, in order. -/
def fields (t : TypeDefinition) : List Field :=
  t.members.filterMap fun
    | .field f => some f
    | _ => none

/-- The readable properties, in order. -/
def accessors (t : TypeDefinition) : List Accessor :=
  t.members.filterMap fun
    | .accessor a => some a
    | _ => none

/-- The first constructor. -/
def constructor? (t : TypeDefinition) : Option Constructor :=
  t.members.findSome? fun
    | .constructor c => some c
    | _ => none

/-- The methods with a name, in order. -/
def methods (t : TypeDefinition) (name : String) : List Method :=
  t.members.filterMap fun
    | .method m => if m.name = name then some m else none
    | _ => none

/-- Whether a method has exactly one parameter, of the given type. -/
def takesOnly (type : TypeRef) (m : Method) : Bool :=
  match m.parameters with
  | [parameter] => parameter.type = type
  | _ => false

/-- The first method with a name whose one parameter has the given type. -/
def methodWithParameter? (t : TypeDefinition) (name : String) (type : TypeRef) : Option Method :=
  (t.methods name).find? (takesOnly type)

/-- The first operator of a kind. -/
def operator? (t : TypeDefinition) (kind : OperatorKind) : Option Operator :=
  t.members.findSome? fun
    | .operator o => if o.kind = kind then some o else none
    | _ => none

/-- The values of an enumeration, in order. -/
def enumValues (t : TypeDefinition) : List EnumValue :=
  t.members.filterMap fun
    | .enumValue v => some v
    | _ => none

/-- The first annotation with a name. -/
def annotation? (t : TypeDefinition) (name : String) : Option Annotation :=
  t.annotations.find? (·.name == name)

end TypeDefinition

/-! ## Output -/

/-- The types of one namespace. -/
structure Group where
  /-- The name of the namespace. -/
  name : String
  /-- The types, in the order of their declarations. -/
  types : List TypeDefinition

/-- Everything that a document gives. -/
structure Output where
  /-- The namespaces, in order. -/
  groups : List Group

namespace Output

/-- All types, group by group. -/
def types (o : Output) : List TypeDefinition := o.groups.flatMap Group.types

/-- The first type with a full name. -/
def findType? (o : Output) (fullName : String) : Option TypeDefinition :=
  o.types.find? (·.fullName == fullName)

/-- The first group with a name. -/
def group? (o : Output) (name : String) : Option Group := o.groups.find? (·.name == name)

/-- The output with a group of the given name, which is added at the end if there is none. -/
def opened (o : Output) (name : String) : Output :=
  if o.groups.any (·.name == name) then o else ⟨o.groups ++ [⟨name, []⟩]⟩

/-- The output with a type added to the group of its namespace. -/
def add (o : Output) (t : TypeDefinition) : Output :=
  ⟨(o.opened t.scope).groups.map fun g =>
    if g.name = t.scope then { g with types := g.types ++ [t] } else g⟩

/-- The text before the first dot of a namespace name. -/
def rootOf (name : String) : String := String.ofList (name.toList.takeWhile (· ≠ '.'))

/-- The distinct roots of the namespaces, in order. -/
def roots (o : Output) : List String :=
  o.groups.foldl
    (fun found g =>
      let root := rootOf g.name
      if root.isEmpty || found.contains root then found else found ++ [root])
    []

end Output

end DomainForms
