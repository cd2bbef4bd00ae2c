import DomainForms.Error
import DomainForms.Eval.Value
import DomainForms.Target.Definition
import DomainForms.Target.Describe

/-!
# Faults of evaluation

Why generated code, or a request to run it, has no result.

* `Fault.message`: the wording of a fault.
* `Fault.toError`: the error that reports a fault.
-/

namespace DomainForms

/-- Why an evaluation has no result. -/
inductive Fault where
  /-- A value is no truth value. -/
  | notBool (found : Value)
  /-- A value is no integer. -/
  | notInt (found : Value)
  /-- A type that was not generated. -/
  | unknownType (typeName : String)
  /-- A type that has no instances. -/
  | notInstantiable (typeName : String)
  /-- A type without a constructor. -/
  | noConstructor (typeName : String)
  /-- A constructor called with a wrong number of arguments. -/
  | wrongArity (typeName : String) (expected given : Nat)
  /-- A value that an enumeration does not have. -/
  | noEnumValue (typeName value : String)
  /-- A member of something that is no instance. -/
  | unreadable (name : String) (target : Value)
  /-- A member that a type does not have. -/
  | noMember (typeName name : String)
  /-- Equality within a type, asked of something that is no instance. -/
  | noInstanceReceiver
  /-- The hash code of an array. -/
  | arrayHash
  /-- A type without a hash code. -/
  | noHashCode (typeName : String)
  /-- An operator that a type does not have. -/
  | noOperator (typeName : String) (kind : OperatorKind)
  /-- An operator whose body ends without a value. -/
  | operatorWithoutResult
  /-- A method without a body. -/
  | abstractMethod (name : String)
  /-- Equality asked of the null reference. -/
  | equalsOnNull
  /-- An equality method that a type does not have. -/
  | noEquals (typeName : String) (parameter : TypeRef)
  /-- A name that stands for nothing. -/
  | unbound (name : String)
  /-- The length of something that is no array. -/
  | lengthOf (found : Value)
  /-- A comparison of items that are not in two arrays. -/
  | notTwoArrays
  /-- A value taken as an instance of another type. -/
  | invalidCast (found : Value) (type : TypeRef)
  /-- A store into something that is no member. -/
  | notAssignable (target : Expr)
  /-- A store into a member of another instance. -/
  | foreignField
  /-- A store outside of an instance. -/
  | noInstance
  /-- An array compared as a value. -/
  | arrayEquality
  /-- More calls inside each other than the evaluator follows. -/
  | tooDeep

namespace Fault

/-- The wording of a fault. -/
def message : Fault → String
  | notBool found => "expected bool, found " ++ found.describe
  | notInt found => "expected integer, found " ++ found.describe
  | unknownType typeName => "unknown type " ++ typeName
  | notInstantiable typeName => typeName ++ " is not instantiable"
  | noConstructor typeName => typeName ++ " has no constructor"
  | wrongArity typeName expected given =>
    typeName ++ " takes " ++ toString expected ++ " arguments, got " ++ toString given
  | noEnumValue typeName value => typeName ++ " has no value " ++ value
  | unreadable name target => "cannot read " ++ name ++ " of " ++ target.describe
  | noMember typeName name => typeName ++ " has no member " ++ name
  | noInstanceReceiver => "typed equality needs an instance receiver"
  | arrayHash => "arrays have no structural hash"
  | noHashCode typeName => typeName ++ " has no GetHashCode"
  | noOperator typeName kind => typeName ++ " has no operator " ++ kind.symbol
  | operatorWithoutResult => "operator returned nothing"
  | abstractMethod name => name ++ " is abstract"
  | equalsOnNull => "Equals called on null"
  | noEquals typeName parameter => typeName ++ " has no Equals(" ++ parameter.text ++ ")"
  | unbound name => "unbound identifier " ++ name
  | lengthOf found => "length of " ++ found.describe
  | notTwoArrays => "element-wise equality needs two arrays"
  | invalidCast found type => "invalid cast of " ++ found.describe ++ " to " ++ type.text
  | notAssignable target => "cannot assign to " ++ target.describe
  | foreignField => "only fields of this can be assigned"
  | noInstance => "assignment outside an instance"
  | arrayEquality => "arrays have no direct value equality"
  | tooDeep => "calls are nested too deeply"

/-- The error that reports a fault. -/
def toError (f : Fault) : Error := .of (.evaluation f.message)

end Fault

end DomainForms
