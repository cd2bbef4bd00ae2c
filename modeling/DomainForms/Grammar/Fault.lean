import DomainForms.Error
import DomainForms.Token

/-!
# Faults of the grammar

A source that is not in the language has a first token that cannot stand where it does.  The fault
records the production that was being read, what is wrong, and the tokens from the offending one on.

* `Grammar.Fault.toError`: the error that reports a fault, with its place in the source.
-/

namespace DomainForms.Grammar

/-- The productions that a fault names. -/
inductive Production where
  /-- A whole source. -/
  | document
  /-- The conventions form. -/
  | conventions
  /-- One group of the conventions. -/
  | conventionGroup
  /-- A namespace form. -/
  | scope
  /-- Any declaration. -/
  | declaration
  /-- A value type. -/
  | valueType
  /-- A command. -/
  | command
  /-- A domain event. -/
  | domainEvent
  /-- A data-transfer object. -/
  | dto
  /-- An enumeration. -/
  | enumeration
  /-- An application service. -/
  | service
  /-- The properties of a record. -/
  | propertyList
  /-- A type reference. -/
  | typeRef
  /-- The brackets behind an element type. -/
  | arrayRank
  /-- The name of a base type. -/
  | qualifiedName
deriving DecidableEq, Repr

/-- What a diagnostic calls a production. -/
def Production.name : Production → String
  | document => "compilation unit"
  | conventions => "conventions declaration"
  | conventionGroup => "convention group"
  | scope => "namespace"
  | declaration => "type declaration"
  | valueType => "value type declaration"
  | command => "command declaration"
  | domainEvent => "domain event declaration"
  | dto => "dto declaration"
  | enumeration => "enum declaration"
  | service => "application service declaration"
  | propertyList => "property list"
  | typeRef => "type reference"
  | arrayRank => "array rank specifier"
  | qualifiedName => "qualified name"

/-- What is wrong with a token. -/
inductive Cause where
  /-- Another token was expected. -/
  | unexpected (expected : String) (found : Token.Kind)
  /-- Conventions that do not stand first, or stand twice. -/
  | misplacedConventions
  /-- A group of conventions that was given before. -/
  | repeatedGroup (group : String)
  /-- A reserved word in place of a name. -/
  | reservedName (word : String)
  /-- A reserved word in place of a type. -/
  | reservedType (word : String)
  /-- A dotted name where a simple one belongs. -/
  | dottedName (name : String)
  /-- A service without commands. -/
  | emptyService
  /-- Brackets behind an array. -/
  | nestedArray
  /-- A comma between brackets. -/
  | multiDimensionalArray
  /-- A second question mark. -/
  | nestedNullable
  /-- A question mark behind a type that is not primitive. -/
  | notNullable
deriving DecidableEq, Repr

/-- The wording of a cause. -/
def Cause.message : Cause → String
  | unexpected _ (.fault cause) => cause.message
  | unexpected expected (.ident name) => "expected " ++ expected ++ ", found '" ++ name ++ "'"
  | unexpected expected (.keyword name) => "expected " ++ expected ++ ", found ':" ++ name ++ "'"
  | unexpected expected found => "expected " ++ expected ++ ", found " ++ found.name
  | misplacedConventions => "defconventions must be the first form and may appear only once"
  | repeatedGroup group => "convention group ':" ++ group ++ "' specified more than once"
  | reservedName word => "reserved word '" ++ word ++ "' cannot be used as a name"
  | reservedType word => "reserved word '" ++ word ++ "' cannot be used as a type"
  | dottedName name => "'" ++ name ++ "' must be a simple identifier"
  | emptyService => "an application service requires at least one defcommand"
  | nestedArray => "arrays of arrays are not supported"
  | multiDimensionalArray => "multi-dimensional arrays are not supported"
  | nestedNullable => "nullable types cannot be nested"
  | notNullable => "'?' applies only to primitive value types"

/-- The first token that cannot stand where it does. -/
structure Fault where
  /-- The production that was being read. -/
  production : Production
  /-- What is wrong. -/
  cause : Cause
  /-- The tokens that were not read, the offending one first. -/
  rest : List Token
deriving DecidableEq, Repr

/-- Where the offending token stands. -/
def Fault.span (f : Fault) : Span := (f.rest.head?.map Token.span).getD .none

/-- The error that reports a fault of a source. -/
def Fault.toError (f : Fault) (source : String) : Error :=
  .of (.parse f.production.name f.cause.message f.span.start f.span.line f.span.column
    (f.span.lineText source))

end DomainForms.Grammar
