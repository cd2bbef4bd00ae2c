import DomainForms.Name
import DomainForms.Primitive

/-!
# System types

Some types are known without being declared: the primitive types, the string type, and a few types
of the system namespace.  Their names may be written with or without that namespace.

* `systemValueType?`: whether a name is a system type, and of which sort.
-/

namespace DomainForms

/-- System types that are reference types. -/
def systemReferenceTypes : List String :=
  ["Object", "Uri", "Version", "Exception", "Type", "Array", "Delegate", "Text.StringBuilder",
    "Text.Encoding", "Globalization.CultureInfo"]

/-- System types that are value types without being primitive. -/
def systemValueTypes : List String := ["IntPtr", "UIntPtr", "Half", "DateOnly", "TimeOnly"]

/-- Whether a system type is a value type; nothing if the name is no system type. -/
def systemValueType? (name : QualifiedName) : Option Bool :=
  let full := name.fullName
  let bare := withoutSystemScope full
  if (Primitive.ofName? full).isSome then some true
  else if isStringName full then some false
  else if systemValueTypes.contains bare then some true
  else if systemReferenceTypes.contains bare then some false
  else none

end DomainForms
