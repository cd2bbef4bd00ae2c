import DomainForms.Document

/-!
# Known types

Before any name is resolved, the declarations of a document are walked once to collect the full name
of every declared type and whether it is a value type.  A service is followed by the commands inside
it.  Nothing is checked here: a full name that is declared twice is collected twice.

* `Document.knownTypes`: the declared types in the order of the document.
-/

namespace DomainForms

/-- A declared type. -/
structure KnownType where
  /-- The full name. -/
  fullName : String
  /-- Whether the type is a value type. -/
  isValueType : Bool
deriving DecidableEq, Repr

/-- The wording of a known type. -/
def KnownType.text (t : KnownType) : String :=
  t.fullName ++ (if t.isValueType then " (value)" else " (reference)")

/-- The types that a declaration introduces in a namespace. -/
def Declaration.knownTypes (scope : QualifiedName) (d : Declaration) : List KnownType :=
  ⟨scope.qualify d.name, d.kind.isValueType⟩ ::
    d.nestedCommands.map fun command => ⟨scope.qualify command.name, false⟩

/-- The types that a document declares, in order. -/
def Document.knownTypes (d : Document) : List KnownType :=
  d.declarations.flatMap fun (scope, declaration) => declaration.knownTypes scope.name

end DomainForms
