import DomainForms.Conventions
import DomainForms.Declaration

/-!
# Documents

A document is what one source declares: conventions, if it starts with them, and namespaces with
their declarations in the order of the source.

* `Document.declarations`: every declaration with the namespace around it.
* `Document.find?`: the first namespace with a given name.
-/

namespace DomainForms

/-- A namespace and what it declares. -/
structure Namespace where
  /-- The name. -/
  name : QualifiedName
  /-- The declarations, in order. -/
  declarations : List Declaration
  /-- Where the namespace stands. -/
  span : Span
deriving DecidableEq, Repr

/-- What one source declares. -/
structure Document where
  /-- The conventions in front, if there are any. -/
  conventions : Option Conventions
  /-- The namespaces, in order. -/
  namespaces : List Namespace
deriving DecidableEq, Repr

namespace Document

/-- Every declaration with the namespace around it, in order. -/
def declarations (d : Document) : List (Namespace × Declaration) :=
  d.namespaces.flatMap fun scope => scope.declarations.map (scope, ·)

/-- The first namespace with a given dotted name. -/
def find? (d : Document) (name : String) : Option Namespace :=
  d.namespaces.find? fun scope => scope.name.fullName == name

end Document

end DomainForms
