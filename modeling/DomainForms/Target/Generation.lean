import DomainForms.Model
import DomainForms.Target.Equality
import DomainForms.Text.LowerCase

/-!
# Generating types

Every record becomes a type with value semantics: a field, a constructor parameter and an accessor
for each property, two operators, two equality methods and a hash code.  The kinds of records differ
in whether they are value types, whether they can be inherited, whether they carry serialisation
metadata, and which base types the conventions give them.  An enumeration becomes its values, and a
service becomes an interface followed by the types of its commands.

* `Model.recordType`, `enumerationType`, `Model.serviceTypes`: what a declaration becomes.
* `Model.types`: the types of the whole document, in the order of the declarations.
* `Model.generate`: the same types, grouped by namespace.
-/

namespace DomainForms

/-! ## Names -/

/-- The name of the constructor parameter of a property. -/
def parameterName (property : String) : String := Text.lowerFirst property

/-- The name of the field of a property. -/
def fieldName (property : String) : String := "_" ++ parameterName property

/-- The full name of the type that every object is an instance of. -/
def objectTypeName : String := "System.Object"

/-- The name of the equality methods. -/
def equalsName : String := "Equals"

/-- The name of the hash code method. -/
def hashCodeName : String := "GetHashCode"

/-- The first item whose name occurs before it. -/
def firstRepeated? {α : Type} (name : α → String) : List String → List α → Option α
  | _, [] => none
  | seen, item :: rest =>
    if seen.contains (name item) then some item else firstRepeated? name (name item :: seen) rest

/-! ## Records -/

namespace RecordKind

/-- Whether records of this kind are value types. -/
def isValueType : RecordKind → Bool
  | valueType => true
  | _ => false

/-- Whether nothing can inherit records of this kind. -/
def isSealed : RecordKind → Bool
  | domainEvent => true
  | dto => true
  | _ => false

/-- Whether records of this kind carry serialisation metadata. -/
def isSerializable : RecordKind → Bool
  | valueType => false
  | _ => true

/-- The base types that conventions give to records of this kind. -/
def conventionBases (conventions : Conventions) : RecordKind → List QualifiedName
  | command => conventions.commandBases
  | domainEvent => conventions.domainEventBases
  | _ => []

end RecordKind

namespace Slot

/-- The field of a slot, which is the `index`-th of its type. -/
def toField (serializable : Bool) (index : Nat) (s : Slot) : Field :=
  { name := s.field
    type := s.type
    visibility := .ownType
    isReadonly := true
    annotations :=
      if serializable then [⟨"DataMember", [("Order", toString (index + 1))]⟩] else [] }

/-- The constructor parameter of a slot. -/
def toParameter (s : Slot) : Parameter := ⟨parameterName s.property, s.type⟩

/-- The statement that stores the constructor parameter of a slot. -/
def store (s : Slot) : Stmt :=
  .assign (.selfMember s.field) (.ident (parameterName s.property))

/-- The accessor of a slot. -/
def toAccessor (s : Slot) : Accessor :=
  ⟨s.property, s.type, .everyone, .selfMember s.field⟩

end Slot

/-- The constructor that stores every parameter in its field. -/
def constructorOf (slots : List Slot) : Constructor :=
  ⟨.everyone, slots.map Slot.toParameter, slots.map Slot.store⟩

/-- The type of truth values. -/
def boolType : TypeRef := .simple .bool

/-- An operator of a type. -/
def operatorOf (kind : OperatorKind) (isValueType : Bool) (self : TypeRef) : Operator :=
  ⟨kind, [⟨leftName, self⟩, ⟨rightName, self⟩], boolType, operatorBody kind isValueType self⟩

/-- The equality with another instance of a type, given its body. -/
def typedEqualsOf (self : TypeRef) (body : List Stmt) : Method :=
  ⟨equalsName, .everyone, .plain, [⟨otherName, self⟩], some boolType, some body⟩

/-- The equality with any object. -/
def objectEqualsOf (self : TypeRef) : Method :=
  ⟨equalsName, .everyone, .override, [⟨objectName, .ofName objectTypeName⟩], some boolType,
    some (objectEqualsBody self)⟩

/-- The hash code. -/
def hashCodeOf (slots : List Slot) : Method :=
  ⟨hashCodeName, .everyone, .override, [], some (.simple .int), some (hashCodeBody slots)⟩

/-- The members of a type with value semantics, in order. -/
def recordMembers (kind : RecordKind) (fullName : String) (slots : List Slot) :
    Except Error (List Member) := do
  let self := TypeRef.ofName fullName
  let equality ← typedEqualsBody fullName kind.isValueType slots
  return slots.mapIdx (fun index s => .field (s.toField kind.isSerializable index))
    ++ .constructor (constructorOf slots)
    :: slots.map (fun s => .accessor s.toAccessor)
    ++ [.operator (operatorOf .equality kind.isValueType self),
      .operator (operatorOf .inequality kind.isValueType self),
      .method (typedEqualsOf self equality),
      .method (objectEqualsOf self),
      .method (hashCodeOf slots)]

namespace Model

/-- A property as it is stored, with its open parts filled in and its type resolved. -/
def slot (m : Model) (scope : QualifiedName) (p : Property) : Except Error Slot := do
  let name := p.name.getD m.settings.defaultPropertyName
  let resolved ← m.resolve scope (p.type.getD .default)
  return ⟨name, fieldName name, resolved.type, resolved.isValueType⟩

/-- The type of a record. -/
def recordType (m : Model) (scope : QualifiedName) (kind : RecordKind) (r : Record) :
    Except Error TypeDefinition := do
  let fullName := scope.qualify r.name
  let path := QualifiedName.parse fullName
  let slots ← r.properties.mapM (m.slot scope)
  match firstRepeated? Slot.field [] slots with
  | some repeated => .error (.of (.duplicateMember fullName repeated.property))
  | none =>
    let members ← recordMembers kind fullName slots
    let bases := kind.conventionBases m.conventions
    return {
      kind := if kind.isValueType then .structType else .classType
      name := path.simpleName
      scope := path.parent.fullName
      visibility := .everyone
      isSealed := kind.isSealed
      isPartial := true
      baseTypes := bases.map (⟨·.fullName, []⟩) ++ [⟨"IEquatable", [fullName]⟩]
      members
      annotations := if kind.isSerializable then [⟨"DataContract", []⟩] else [] }

end Model

/-! ## Enumerations and services -/

/-- The type of an enumeration. -/
def enumerationType (scope : QualifiedName) (e : Enumeration) : Except Error TypeDefinition :=
  let fullName := scope.qualify e.name
  let path := QualifiedName.parse fullName
  match firstRepeated? id [] e.values with
  | some repeated => .error (.of (.duplicateMember fullName repeated))
  | none =>
    .ok {
      kind := .enumType
      name := path.simpleName
      scope := path.parent.fullName
      visibility := .everyone
      isSealed := false
      isPartial := false
      baseTypes := []
      members := e.values.map fun value =>
        .enumValue ⟨value, [⟨"EnumMember", [("Value", value)]⟩]⟩
      annotations := [⟨"DataContract", [("Name", path.simpleName)]⟩] }

/-- The operation of a service for one of its commands. -/
def operationOf (settings : Settings) (scope : QualifiedName) (command : Record) : Method :=
  ⟨settings.serviceOperationName, .everyone, .abstract,
    [⟨"command", .ofName (scope.qualify command.name)⟩], none, none⟩

/-- The interface of a service. -/
def interfaceType (settings : Settings) (scope : QualifiedName) (s : Service) : TypeDefinition :=
  let path := QualifiedName.parse (scope.qualify s.name)
  { kind := .interfaceType
    name := settings.serviceInterfacePrefix ++ path.simpleName
    scope := path.parent.fullName
    visibility := .everyone
    isSealed := false
    isPartial := true
    baseTypes := []
    members := s.commands.map fun command => .method (operationOf settings scope command)
    annotations := [] }

namespace Model

/-- The interface of a service and the types of its commands. -/
def serviceTypes (m : Model) (scope : QualifiedName) (s : Service) :
    Except Error (List TypeDefinition) := do
  let commands ← s.commands.mapM (m.recordType scope .command)
  return interfaceType m.settings scope s :: commands

/-! ## Documents -/

/-- The types of a declaration, seen from a namespace. -/
def declarationTypes (m : Model) (scope : QualifiedName) :
    Declaration → Except Error (List TypeDefinition)
  | .record kind body => return [← m.recordType scope kind body]
  | .enumeration body => return [← enumerationType scope body]
  | .service body => m.serviceTypes scope body

/-- The types of a declaration of the document; an error tells which declaration it is. -/
def placedTypes (m : Model) (scope : Namespace) (d : Declaration) :
    Except Error (List TypeDefinition) :=
  match m.declarationTypes scope.name d with
  | .ok types => .ok types
  | .error e => .error (e.inDeclaration (d.frame scope.name) d.span.line d.span.column)

/-- The types of the whole document, in the order of the declarations. -/
def types (m : Model) : Except Error (List TypeDefinition) := do
  let lists ← m.document.declarations.mapM fun (scope, d) => m.placedTypes scope d
  return lists.flatten

/-- The output with a group for every namespace of the document. -/
def emptyGroups (m : Model) : Output :=
  (m.document.namespaces.map fun scope => scope.name.fullName).foldl Output.opened ⟨[]⟩

/-- The types of the whole document, grouped by namespace.  A type whose namespace the document
never opens gets a group behind the others. -/
def generate (m : Model) : Except Error Output := do
  return (← m.types).foldl Output.add m.emptyGroups

end Model

/-- The comparison that equality makes for a property of the given type. -/
def comparisonFor (owner property : String) (type : TypeRef) (isValueType : Bool) :
    Except Error Expr :=
  Slot.comparison owner ⟨property, fieldName property, type, isValueType⟩

end DomainForms
