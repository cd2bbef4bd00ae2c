import DomainForms.Document

/-!
# Defaults

A shorthand value type leaves the name of its property open, and sometimes the type.  Filling in
replaces every open name by a given one and every open type by the integer type, and changes nothing
else.

* `Document.withDefaults`: the document with nothing left open.
-/

namespace DomainForms

/-- A property with its open parts filled in. -/
def Property.withDefaults (name : String) (p : Property) : Property :=
  { p with
    name := some (p.name.getD name)
    type := some (p.type.getD .default) }

/-- A record with the open parts of its properties filled in. -/
def Record.withDefaults (name : String) (r : Record) : Record :=
  { r with properties := r.properties.map (Property.withDefaults name) }

/-- A declaration with all open parts filled in. -/
def Declaration.withDefaults (name : String) : Declaration → Declaration
  | .record kind body => .record kind (body.withDefaults name)
  | .enumeration body => .enumeration body
  | .service body =>
    .service { body with commands := body.commands.map (Record.withDefaults name) }

/-- A namespace with all open parts filled in. -/
def Namespace.withDefaults (name : String) (n : Namespace) : Namespace :=
  { n with declarations := n.declarations.map (Declaration.withDefaults name) }

/-- A document with all open parts filled in. -/
def Document.withDefaults (name : String) (d : Document) : Document :=
  { d with namespaces := d.namespaces.map (Namespace.withDefaults name) }

end DomainForms
