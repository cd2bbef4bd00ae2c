import DomainForms.Error
import DomainForms.Target.Definition

/-!
# Bodies of equality and hashing

A type with value semantics is compared slot by slot, where a slot is a property as it is stored.
How two slots are compared depends on their type alone: primitives, strings and nullable primitives
as values, named types by structure, arrays by length and items.  The hash code is the sum over the
slots of value types.

* `Slot.comparison`: the comparison of one slot, or the array shape that has none.
* `typedEqualsBody`, `objectEqualsBody`, `operatorBody`, `hashCodeBody`: the generated bodies.
-/

namespace DomainForms

/-- A property as it is stored. -/
structure Slot where
  /-- The name of the property. -/
  property : String
  /-- The name of its field. -/
  field : String
  /-- The type, with names resolved. -/
  type : TypeRef
  /-- Whether the type is a value type. -/
  isValueType : Bool
deriving DecidableEq, Repr

/-- The parameter of equality with another instance of the type. -/
def otherName : String := "other"

/-- The parameter of equality with any object. -/
def objectName : String := "obj"

/-- The left operand of an operator. -/
def leftName : String := "left"

/-- The right operand of an operator. -/
def rightName : String := "right"

/-- How the items of an array are compared; an array of arrays has no comparison. -/
def elementComparison? : TypeRef → Option ElementComparison
  | .simple _ => some .value
  | .string => some .value
  | .nullable _ => some .value
  | .named _ => some .nullSafe
  | .array .. => none

/-- Two arrays are both null, or both are there with equal lengths and equal items. -/
def arrayComparison (left right : Expr) (element : ElementComparison) : Expr :=
  let bothNull := Expr.both (.isNull left) (.isNull right)
  let lengths := Expr.binary .eq (.length left) (.length right)
  let items := Expr.elementwiseEquals left right element
  let bothThere :=
    Expr.both (.both (.both (.negate (.isNull left)) (.negate (.isNull right))) lengths) items
  Expr.either bothNull bothThere

/-- The comparison of a slot of this instance with the same slot of the other one. -/
def Slot.comparison (owner : String) (s : Slot) : Except Error Expr :=
  let left := Expr.selfMember s.field
  let right := Expr.member (.ident otherName) s.field
  match s.type with
  | .simple _ => .ok (.binary .eq left right)
  | .string => .ok (.binary .eq left right)
  | .nullable _ => .ok (.binary .eq left right)
  | .named _ => .ok (.nullSafeEquals left right)
  | .array .. =>
    match s.type.singleDimensionElement?.bind elementComparison? with
    | some element => .ok (arrayComparison left right element)
    | none => .error (.of (.unsupportedArrayShape owner s.property s.type.text))

/-- The conjunction of a start and the comparisons of all slots. -/
def conjunction (owner : String) : Expr → List Slot → Except Error Expr
  | start, [] => .ok start
  | start, slot :: rest => do
    conjunction owner (.both start (← slot.comparison owner)) rest

/-- What equality with another instance starts from: a value is always there, a reference has to
be. -/
def equalityStart (isValueType : Bool) : Expr :=
  if isValueType then .bool true else .negate (.isNull (.ident otherName))

/-- The body of equality with another instance of the type. -/
def typedEqualsBody (owner : String) (isValueType : Bool) (slots : List Slot) :
    Except Error (List Stmt) :=
  return [.ret (← conjunction owner (equalityStart isValueType) slots)]

/-- The body of equality with any object: an instance of the type is compared as one, and nothing
else is equal. -/
def objectEqualsBody (self : TypeRef) : List Stmt :=
  let object := Expr.ident objectName
  [.branch (.isNull object) [.ret (.bool false)] [],
    .ret (.both (.isType object self) (.invokeEquals .self (.cast object self) self))]

/-- An answer of equality as the answer of an operator. -/
def OperatorKind.apply : OperatorKind → Expr → Expr
  | equality, e => e
  | inequality, e => .negate e

/-- The body of an operator.  A reference that is null is equal to null only. -/
def operatorBody (kind : OperatorKind) (isValueType : Bool) (self : TypeRef) : List Stmt :=
  let left := Expr.ident leftName
  let right := Expr.ident rightName
  let delegate := Stmt.ret (kind.apply (.invokeEquals left right self))
  if isValueType then [delegate]
  else [.branch (.isNull left) [.ret (kind.apply (.isNull right))] [], delegate]

/-- The sum of expressions, from the left; zero if there are none. -/
def sumOf : List Expr → Expr
  | [] => .int 0
  | first :: rest => rest.foldl (.binary .add) first

/-- The body of the hash code: the sum over the slots of value types. -/
def hashCodeBody (slots : List Slot) : List Stmt :=
  [.ret (sumOf ((slots.filter Slot.isValueType).map fun s => .hashCode (.selfMember s.field)))]

end DomainForms
