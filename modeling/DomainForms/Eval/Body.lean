import DomainForms.Eval.Fault
import DomainForms.NameMap
import DomainForms.Target.Generation

/-!
# Running bodies

A body runs in a frame, which holds the instance that the member belongs to and the arguments.
Expressions change nothing; a store replaces the instance of the frame by a new one, with a new
identity.  Where a body calls a member of another value, the answer comes from `Calls`, so that
running a body is recursion on the body alone.

* `Expr.eval`: the value of an expression.
* `Stmt.exec`, `Stmt.execAll`: the effect of statements on a frame, and the value they end with.
* `Value.directlyEquals`, `Value.isInstanceOf`: equality and types of values, as bodies see them.
-/

namespace DomainForms

/-! ## Values as bodies see them -/

namespace Value

/-- The truth value that a value is. -/
def asBool : Value → Except Fault Bool
  | bool value => .ok value
  | found => .error (.notBool found)

/-- The integer that a value is. -/
def asInt : Value → Except Fault Int64
  | int value => .ok value
  | found => .error (.notInt found)

/-- Equality without a look inside: instances are equal when they are the same one, and arrays have
no such equality. -/
def directlyEquals : Value → Value → Except Fault Bool
  | array _, _ => .error .arrayEquality
  | _, array _ => .error .arrayEquality
  | null, null => .ok true
  | bool a, bool b => .ok (a == b)
  | int a, int b => .ok (a == b)
  | float a, float b => .ok (a.equal b)
  | str a, str b => .ok (a == b)
  | object a _ _, object b _ _ => .ok (a == b)
  | enumValue s a, enumValue t b => .ok (s == t && a == b)
  | _, _ => .ok false

/-- Whether floating-point numbers are values of a primitive type. -/
def isFloating : Primitive → Bool
  | .float => true
  | .double => true
  | .decimal => true
  | _ => false

/-- Whether a value belongs to a primitive type. -/
def fitsPrimitive : Value → Primitive → Bool
  | bool _, p => p = .bool
  | float _, p => isFloating p
  | int _, p => p ≠ .bool && !isFloating p
  | _, _ => false

/-- Whether a value belongs to a named type.  Everything but null is an object. -/
def fitsName (name : String) : Value → Bool
  | null => false
  | object _ typeName _ => name = objectTypeName || typeName = name
  | enumValue typeName _ => name = objectTypeName || typeName = name
  | _ => name = objectTypeName

/-- Whether a value is an instance of a type. -/
def isInstanceOf (v : Value) : TypeRef → Bool
  | .named name => v.fitsName name.fullName
  | .simple p => v.fitsPrimitive p
  | .nullable p => v.fitsPrimitive p
  | .string => match v with
    | str _ => true
    | _ => false
  | .array .. => match v with
    | array _ => true
    | _ => false

/-- The hash code of a text. -/
def textHash (text : String) : Int64 :=
  text.toList.foldl (fun hash c => hash * 31 + Int64.ofNat c.toNat) 17

end Value

/-! ## Frames -/

/-- What a body can see. -/
structure Frame where
  /-- The instance that the member belongs to. -/
  self : Value
  /-- The arguments by the names of their parameters. -/
  locals : NameMap Value

namespace Frame

/-- The frame of a member with parameters, called with arguments.  Arguments without a parameter do
not count, nor do parameters without an argument. -/
def of (self : Value) (parameters : List Parameter) (arguments : List Value) : Frame :=
  ⟨self, .ofList ((parameters.map Parameter.name).zip arguments)⟩

/-- An identity that no instance in the frame has. -/
def freshIdentity (f : Frame) : Nat :=
  max f.self.identityBound (Value.identityBoundFields f.locals)

/-- The frame after a store. -/
def assign (f : Frame) (target : Expr) (value : Value) : Except Fault Frame :=
  match target with
  | .member .self field =>
    match f.self with
    | .object _ typeName fields =>
      .ok { f with self := .object f.freshIdentity typeName (NameMap.insert field value fields) }
    | _ => .error .noInstance
  | .member _ _ => .error .foreignField
  | other => .error (.notAssignable other)

end Frame

/-! ## Calls -/

/-- The answers to the calls that a body makes. -/
structure Calls where
  /-- A member of a value. -/
  read : Value → String → Except Fault Value
  /-- The equality method of a value whose parameter has the given type. -/
  equals : Value → Value → TypeRef → Except Fault Bool
  /-- The hash code of a value. -/
  hash : Value → Except Fault Int64

namespace Calls

/-- Equality by structure, where null equals null only. -/
def nullSafeEquals (calls : Calls) (left right : Value) : Except Fault Bool :=
  match left, right with
  | .null, .null => .ok true
  | .null, _ => .ok false
  | _, .null => .ok false
  | .object _ typeName _, _ => calls.equals left right (.ofName typeName)
  | _, _ => left.directlyEquals right

/-- Whether the items of two lists are equal one by one.  The first difference decides. -/
def pairwise (equals : Value → Value → Except Fault Bool) :
    List Value → List Value → Except Fault Bool
  | [], _ => .ok true
  | _, [] => .ok true
  | left :: lefts, right :: rights => do
    if ← equals left right then pairwise equals lefts rights else return false

/-- Whether two lists have the same length and equal items. -/
def itemsEqual (calls : Calls) (element : ElementComparison) (lefts rights : List Value) :
    Except Fault Bool :=
  if lefts.length ≠ rights.length then .ok false
  else
    match element with
    | .value => pairwise Value.directlyEquals lefts rights
    | .nullSafe => pairwise calls.nullSafeEquals lefts rights

end Calls

/-! ## Expressions -/

namespace Expr

/-- The value of an expression in a frame.  An array has fewer than `2 ^ 63` items, so that its length
never has to be cut to an integer, and there is no fault for an array that is too long. -/
def eval (calls : Calls) (frame : Frame) : Expr → Except Fault Value
  | bool value => .ok (.bool value)
  | int value => .ok (.int value)
  | null => .ok .null
  | self => .ok frame.self
  | ident name =>
    match frame.locals.find? name with
    | some value => .ok value
    | none => .error (.unbound name)
  | member target name => do
    calls.read (← target.eval calls frame) name
  | not inner => do
    return .bool !(← (← inner.eval calls frame).asBool)
  | binary .and left right => do
    if ← (← left.eval calls frame).asBool then
      return .bool (← (← right.eval calls frame).asBool)
    else
      return .bool false
  | binary .or left right => do
    if ← (← left.eval calls frame).asBool then
      return .bool true
    else
      return .bool (← (← right.eval calls frame).asBool)
  | binary .eq left right => do
    let l ← left.eval calls frame
    let r ← right.eval calls frame
    return .bool (← l.directlyEquals r)
  | binary .ne left right => do
    let l ← left.eval calls frame
    let r ← right.eval calls frame
    return .bool !(← l.directlyEquals r)
  | binary .add left right => do
    let l ← (← left.eval calls frame).asInt
    let r ← (← right.eval calls frame).asInt
    return .int (l + r)
  | isNull inner => do
    return .bool (← inner.eval calls frame).isNull
  | nullSafeEquals left right => do
    let l ← left.eval calls frame
    let r ← right.eval calls frame
    return .bool (← calls.nullSafeEquals l r)
  | invokeEquals target argument parameter => do
    let t ← target.eval calls frame
    let a ← argument.eval calls frame
    return .bool (← calls.equals t a parameter)
  | hashCode inner => do
    return .int (← calls.hash (← inner.eval calls frame))
  | length inner => do
    match ← inner.eval calls frame with
    | .array items => return .int (Int64.ofNat items.length)
    | found => .error (.lengthOf found)
  | elementwiseEquals left right element => do
    let l ← left.eval calls frame
    let r ← right.eval calls frame
    match l, r with
    | .array lefts, .array rights => return .bool (← calls.itemsEqual element lefts rights)
    | _, _ => .error .notTwoArrays
  | isType inner type => do
    return .bool ((← inner.eval calls frame).isInstanceOf type)
  | cast inner type => do
    let v ← inner.eval calls frame
    if v.isNull || v.isInstanceOf type then return v else .error (.invalidCast v type)

end Expr

/-! ## Statements -/

namespace Stmt

mutual

/-- The frame after a statement, and the value that it ends the body with, if it does. -/
def exec (calls : Calls) : Frame → Stmt → Except Fault (Frame × Option Value)
  | frame, ret value => do
    return (frame, some (← value.eval calls frame))
  | frame, assign target value => do
    let v ← value.eval calls frame
    return (← frame.assign target v, none)
  | frame, branch condition yes no => do
    if ← (← condition.eval calls frame).asBool then
      execAll calls frame yes
    else
      execAll calls frame no

/-- The frame after statements in a row, up to the one that ends the body. -/
def execAll (calls : Calls) : Frame → List Stmt → Except Fault (Frame × Option Value)
  | frame, [] => .ok (frame, none)
  | frame, first :: rest => do
    match ← exec calls frame first with
    | (after, some value) => return (after, some value)
    | (after, none) => execAll calls after rest

end

end Stmt

end DomainForms
