import DomainForms.Text.Dotted

/-!
# Qualified names

A name of a namespace or of a type is a path of segments, written with dots between them.  Two names
are equal when their segments are.

* `QualifiedName.parse`, `QualifiedName.fullName`: from and to the dotted text.
* `QualifiedName.qualify`: the full name of a type that a namespace declares.
-/

namespace DomainForms

/-- A path of name segments. -/
structure QualifiedName where
  /-- The segments, outermost first. -/
  segments : List String
deriving DecidableEq, Repr

namespace QualifiedName

/-- The name that a dotted text spells.  Empty segments do not count. -/
def parse (text : String) : QualifiedName :=
  ⟨((Text.segments text.toList).filter fun segment => !segment.isEmpty).map String.ofList⟩

/-- The dotted text of a name. -/
def fullName (name : QualifiedName) : String := Text.join name.segments

/-- The first segment, empty for the empty name. -/
def root (name : QualifiedName) : String := name.segments.head?.getD ""

/-- The last segment, empty for the empty name. -/
def simpleName (name : QualifiedName) : String := name.segments.getLast?.getD ""

/-- The name without its last segment. -/
def parent (name : QualifiedName) : QualifiedName := ⟨name.segments.dropLast⟩

/-- Whether a name has more than one segment. -/
def isQualified (name : QualifiedName) : Bool := 1 < name.segments.length

/-- Whether a name has no segment. -/
def isEmpty (name : QualifiedName) : Bool := name.segments.isEmpty

/-- The full name of what a namespace declares as `declared`.  A dotted name is complete as it
stands. -/
def qualify (scope : QualifiedName) (declared : String) : String :=
  if Text.isDotted declared || scope.isEmpty then declared else scope.fullName ++ "." ++ declared

/-- Names are ordered by their segments, and segments by code points. -/
instance : Ord QualifiedName where
  compare a b := compare a.segments b.segments

end QualifiedName

end DomainForms
