import DomainForms.Name
import DomainForms.Primitive
import DomainForms.Token

/-!
# Type references

The type of a property: a primitive type, the string type, a primitive that may be null, an array,
or a type that is known by name only.

* `TypeRef.kinds`: the canonical spelling as tokens.
* `TypeRef.text`: the canonical spelling as text.
* `TypeRef.singleDimensionElement?`: the element type of an array that can be compared item by item.
-/

namespace DomainForms

/-- One pair of array brackets. -/
structure Rank where
  /-- The number of dimensions, one more than the commas between the brackets. -/
  dimensions : Nat
deriving DecidableEq, Repr

namespace Rank

/-- The brackets of an array with one dimension. -/
def single : Rank := ⟨1⟩

/-- The brackets of an array with a given number of dimensions, which starts at one. -/
def ofDimensions? (dimensions : Nat) : Option Rank :=
  if dimensions = 0 then none else some ⟨dimensions⟩

/-- The tokens of the brackets. -/
def kinds (r : Rank) : List Token.Kind :=
  .lbracket :: List.replicate (r.dimensions - 1) .comma ++ [.rbracket]

/-- The text of the brackets. -/
def text (r : Rank) : String := String.join (r.kinds.map Token.Kind.text)

end Rank

/-- A reference to a type. -/
inductive TypeRef where
  /-- A primitive value type. -/
  | simple (type : Primitive)
  /-- The string type. -/
  | string
  /-- A primitive value type or null. -/
  | nullable (type : Primitive)
  /-- An array, with its brackets from the outside in. -/
  | array (element : TypeRef) (ranks : List Rank)
  /-- A type known by name. -/
  | named (name : QualifiedName)
deriving DecidableEq, Repr

namespace TypeRef

/-- The type of a property that leaves its type open. -/
def default : TypeRef := .simple .int

/-- The array with one pair of brackets and one dimension. -/
def arrayOf (element : TypeRef) : TypeRef := .array element [.single]

/-- The type that a dotted text names. -/
def ofName (text : String) : TypeRef := .named (.parse text)

/-- Whether a type is an array. -/
def isArray : TypeRef → Bool
  | array .. => true
  | _ => false

/-- Whether a type is a value type, where its form alone decides. -/
def intrinsicValueType? : TypeRef → Option Bool
  | simple _ => some true
  | nullable _ => some true
  | string => some false
  | array .. => some false
  | named _ => none

/-- The element type of an array with exactly one pair of brackets and one dimension. -/
def singleDimensionElement? : TypeRef → Option TypeRef
  | array element [rank] => if rank.dimensions = 1 then some element else none
  | _ => none

/-- The text of an array's brackets, empty for other types. -/
def rankSignature : TypeRef → String
  | array _ ranks => String.join (ranks.map Rank.text)
  | _ => ""

/-- The canonical spelling of a type as tokens. -/
def kinds : TypeRef → List Token.Kind
  | simple p => [.ident p.canonicalName]
  | string => [.ident "string"]
  | nullable p => [.ident p.canonicalName, .question]
  | array element ranks => element.kinds ++ ranks.flatMap Rank.kinds
  | named name => [.ident name.fullName]

/-- The canonical spelling of a type as text. -/
def text (t : TypeRef) : String := String.join (t.kinds.map Token.Kind.text)

end TypeRef

end DomainForms
