import DomainForms.Binary64
import DomainForms.Text.Describe

/-!
# Values

What generated code works on.  An instance of a generated type carries the name of its type, its
fields in increasing order of their names, and an identity: two instances with the same contents are
still two instances, and a value taken from a variable keeps its identity.

* `Value.describe`: how diagnostics show a value.
* `Value.size`: the number of values in a value, itself included.
* `Value.identityBound`: a number above every identity in a value.
-/

namespace DomainForms

/-- A value. -/
inductive Value where
  /-- The null reference. -/
  | null
  /-- A truth value. -/
  | bool (value : Bool)
  /-- An integer. -/
  | int (value : Int64)
  /-- A floating-point number. -/
  | float (value : Binary64)
  /-- A text. -/
  | str (value : String)
  /-- An array.  Memory has room for fewer than `2 ^ 63` items, so their number is an integer. -/
  | array (items : List Value)
  /-- An instance of a generated type. -/
  | object (identity : Nat) (typeName : String) (fields : List (String × Value))
  /-- A value of an enumeration. -/
  | enumValue (typeName value : String)

namespace Value

open Text (quote)
open Text.Describe

mutual

/-- The description of a value. -/
def describe : Value → String
  | null => "Null"
  | bool value => apply "Bool" [toString value]
  | int value => apply "Int" [toString value.toInt]
  | float value => apply "Float" [value.describe]
  | str value => apply "Str" [quote value]
  | array items => apply "Array" [list (describeItems items)]
  | object _ typeName fields =>
    apply "Object"
      [record "Instance" [("type_name", quote typeName), ("fields", table (describeFields fields))]]
  | enumValue typeName value =>
    record "Enum" [("type_name", quote typeName), ("value", quote value)]

/-- The descriptions of values. -/
def describeItems : List Value → List String
  | [] => []
  | item :: rest => item.describe :: describeItems rest

/-- The descriptions of fields. -/
def describeFields : List (String × Value) → List (String × String)
  | [] => []
  | (name, value) :: rest => (quote name, value.describe) :: describeFields rest

end

mutual

/-- The number of values in a value, itself included. -/
def size : Value → Nat
  | array items => sizeItems items + 1
  | object _ _ fields => sizeFields fields + 1
  | _ => 1

/-- The number of values in a list of values. -/
def sizeItems : List Value → Nat
  | [] => 0
  | item :: rest => item.size + sizeItems rest

/-- The number of values in fields. -/
def sizeFields : List (String × Value) → Nat
  | [] => 0
  | (_, value) :: rest => value.size + sizeFields rest

end

mutual

/-- A number above every identity in a value. -/
def identityBound : Value → Nat
  | array items => identityBoundItems items
  | object identity _ fields => max (identity + 1) (identityBoundFields fields)
  | _ => 0

/-- A number above every identity in a list of values. -/
def identityBoundItems : List Value → Nat
  | [] => 0
  | item :: rest => max item.identityBound (identityBoundItems rest)

/-- A number above every identity in fields. -/
def identityBoundFields : List (String × Value) → Nat
  | [] => 0
  | (_, value) :: rest => max value.identityBound (identityBoundFields rest)

end

/-- Whether a value is the null reference. -/
def isNull : Value → Bool
  | null => true
  | _ => false

end Value

end DomainForms
