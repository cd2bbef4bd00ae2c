import DomainForms.Error
import DomainForms.KnownType
import DomainForms.NameMap

/-!
# The table of known types

The declared types by their full names.  A table is a value: adding a type gives another table and
leaves the first one as it was.

* `KnownTypes.insert`, `KnownTypes.get?`, `KnownTypes.toList`: the operations on a table.
* `KnownTypes.ofList`: the table of collected types, which refuses a full name that repeats unless
  that is allowed.
-/

namespace DomainForms

/-- Declared types by full name. -/
structure KnownTypes where
  /-- The types, each under its own full name. -/
  entries : NameMap KnownType
deriving DecidableEq, Repr

namespace KnownTypes

/-- The table without types. -/
def empty : KnownTypes := ⟨[]⟩

/-- The table with a type added, or replaced where its name is known already. -/
def insert (table : KnownTypes) (type : KnownType) : KnownTypes :=
  ⟨table.entries.insert type.fullName type⟩

/-- The type with a full name. -/
def get? (table : KnownTypes) (fullName : String) : Option KnownType :=
  table.entries.find? fullName

/-- Whether a full name is declared. -/
def contains (table : KnownTypes) (fullName : String) : Bool := (table.get? fullName).isSome

/-- The number of types. -/
def size (table : KnownTypes) : Nat := table.entries.length

/-- Whether there are no types. -/
def isEmpty (table : KnownTypes) : Bool := table.entries.isEmpty

/-- The types, in increasing order of their full names. -/
def toList (table : KnownTypes) : List KnownType := table.entries.map Prod.snd

/-- A table with more types added one after the other.  Unless duplicates are allowed, a full name
that the table knows already is refused. -/
def extend (allowDuplicates : Bool) : KnownTypes → List KnownType → Except Error KnownTypes
  | table, [] => .ok table
  | table, type :: rest =>
    if !allowDuplicates && table.contains type.fullName then
      .error (.of (.duplicateType type.fullName))
    else
      extend allowDuplicates (table.insert type) rest

/-- The table of collected types. -/
def ofList (types : List KnownType) (allowDuplicates : Bool) : Except Error KnownTypes :=
  extend allowDuplicates empty types

end KnownTypes

end DomainForms
