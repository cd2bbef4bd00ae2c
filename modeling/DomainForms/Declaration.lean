import DomainForms.TypeRef

/-!
# Declarations

A declaration introduces a type.  Value types, commands, domain events and data-transfer objects are
records: a name with a list of properties.  An enumeration lists its values, and an application
service holds the commands that it handles.

* `Declaration.kind`, `Declaration.name`, `Declaration.span`: what a declaration is.
* `Declaration.properties`, `Declaration.nestedCommands`: what it declares inside.
-/

namespace DomainForms

/-- A property of a record.  Only the shorthand form of a value type leaves its name or type open. -/
structure Property where
  /-- The name, if it is written. -/
  name : Option String
  /-- The type, if it is written. -/
  type : Option TypeRef
  /-- Where the property stands. -/
  span : Span
deriving DecidableEq, Repr

/-- A name with properties. -/
structure Record where
  /-- The declared name. -/
  name : String
  /-- The properties, in order. -/
  properties : List Property
  /-- Where the record stands. -/
  span : Span
deriving DecidableEq, Repr

/-- A name with symbolic values. -/
structure Enumeration where
  /-- The declared name. -/
  name : String
  /-- The values, in order. -/
  values : List String
  /-- Where the enumeration stands. -/
  span : Span
deriving DecidableEq, Repr

/-- A name with the commands that a service handles. -/
structure Service where
  /-- The declared name. -/
  name : String
  /-- The commands, in order. -/
  commands : List Record
  /-- Where the service stands. -/
  span : Span
deriving DecidableEq, Repr

/-- The kinds of records. -/
inductive RecordKind where
  /-- A value without identity. -/
  | valueType
  /-- A request to do something. -/
  | command
  /-- A notice that something happened. -/
  | domainEvent
  /-- An object that only carries data. -/
  | dto
deriving DecidableEq, Repr

/-- The kinds of declarations. -/
inductive Declaration.Kind where
  /-- A record of some kind. -/
  | record (kind : RecordKind)
  /-- An enumeration. -/
  | enumeration
  /-- An application service. -/
  | service
deriving DecidableEq, Repr

namespace Declaration.Kind

/-- Every kind of declaration. -/
def all : List Kind :=
  [record .valueType, record .command, record .domainEvent, record .dto, enumeration, service]

/-- The word that introduces a declaration. -/
def keyword : Kind → String
  | record .valueType => "defvaluetype"
  | record .command => "defcommand"
  | record .domainEvent => "defdomainevent"
  | record .dto => "defdto"
  | enumeration => "defenum"
  | service => "defapplicationservice"

/-- The kind of declaration that a word introduces. -/
def ofKeyword? (word : String) : Option Kind := all.find? fun kind => kind.keyword == word

/-- Whether the declared types are value types. -/
def isValueType : Kind → Bool
  | record .valueType => true
  | enumeration => true
  | _ => false

end Declaration.Kind

/-- A declaration of a type. -/
inductive Declaration where
  /-- A record of some kind. -/
  | record (kind : RecordKind) (body : Record)
  /-- An enumeration. -/
  | enumeration (body : Enumeration)
  /-- An application service. -/
  | service (body : Service)
deriving DecidableEq, Repr

namespace Declaration

/-- The kind of a declaration. -/
def kind : Declaration → Kind
  | record kind _ => .record kind
  | enumeration _ => .enumeration
  | service _ => .service

/-- The declared name. -/
def name : Declaration → String
  | record _ body => body.name
  | enumeration body => body.name
  | service body => body.name

/-- Where a declaration stands. -/
def span : Declaration → Span
  | record _ body => body.span
  | enumeration body => body.span
  | service body => body.span

/-- The properties of a record; other declarations have none. -/
def properties : Declaration → List Property
  | record _ body => body.properties
  | _ => []

/-- The commands inside a service; other declarations have none. -/
def nestedCommands : Declaration → List Record
  | service body => body.commands
  | _ => []

end Declaration

end DomainForms
