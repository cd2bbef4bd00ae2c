import DomainForms.Eval.Body

/-!
# Evaluating generated types

An evaluator knows the types of an output by their full names and runs their members: it makes
instances, reads properties, compares and hashes.

A body may call members of other values, whose bodies call further ones.  `callsAt` answers calls up
to a given depth.  Generated bodies only call down into the parts of their arguments, so the size of
the arguments and the number of members bound the depth that they need.  Other bodies may call back
into the same instance, counting down on an argument for instance, so `depth` adds `extraDepth`
calls to that bound.

* `Evaluator.construct`, `Evaluator.enumValue`, `Evaluator.get`: making values and reading them.
* `Evaluator.equalsTyped`, `Evaluator.equalsObject`, `Evaluator.operator`, `Evaluator.hash`:
  comparing and hashing.
-/

namespace DomainForms

/-- The types of an output by full name. -/
structure Evaluator where
  /-- The types; of several with one full name the last one counts. -/
  types : NameMap TypeDefinition

namespace Evaluator

/-- The evaluator of an output. -/
def of (o : Output) : Evaluator := ⟨.ofList (o.types.map fun t => (t.fullName, t))⟩

/-- The type with a full name. -/
def lookup (e : Evaluator) (typeName : String) : Except Fault TypeDefinition :=
  match e.types.find? typeName with
  | some type => .ok type
  | none => .error (.unknownType typeName)

/-! ## Members of values -/

/-- The value that a method ends with; null if it ends without one. -/
def invoke (calls : Calls) (m : Method) (self : Value) (arguments : List Value) :
    Except Fault Value :=
  match m.body with
  | none => .error (.abstractMethod m.name)
  | some body => do
    let (_, result) ← Stmt.execAll calls (.of self m.parameters arguments) body
    return result.getD .null

/-- A field or a property of a value. -/
def readWith (e : Evaluator) (calls : Calls) (target : Value) (name : String) :
    Except Fault Value :=
  match target with
  | .object _ typeName fields =>
    match NameMap.find? name fields with
    | some value => .ok value
    | none => do
      let type ← e.lookup typeName
      match type.accessors.find? (·.name == name) with
      | some accessor => accessor.getter.eval calls (.of target [] [])
      | none => .error (.noMember typeName name)
  | _ => .error (.unreadable name target)

/-- The answer of the equality method of a value whose parameter has the given type.  Values that
are no instances are compared directly. -/
def equalsWith (e : Evaluator) (calls : Calls) (target argument : Value) (parameter : TypeRef) :
    Except Fault Bool :=
  match target with
  | .null => .error .equalsOnNull
  | .object _ typeName _ => do
    let type ← e.lookup typeName
    match type.methodWithParameter? equalsName parameter with
    | some method => (← invoke calls method target [argument]).asBool
    | none => .error (.noEquals typeName parameter)
  | _ => target.directlyEquals argument

/-- The hash code of a value. -/
def hashWith (e : Evaluator) (calls : Calls) (v : Value) : Except Fault Int64 :=
  match v with
  | .null => .ok 0
  | .bool value => .ok (if value then 1 else 0)
  | .int value => .ok value
  | .float value => .ok value.bits.toInt64
  | .str value => .ok (Value.textHash value)
  | .enumValue _ value => .ok (Value.textHash value)
  | .array _ => .error .arrayHash
  | .object _ typeName _ => do
    let type ← e.lookup typeName
    match (type.methods hashCodeName).head? with
    | some method => (← invoke calls method v []).asInt
    | none => .error (.noHashCode typeName)

/-- Answers to calls that are nested at most so deep. -/
def callsAt (e : Evaluator) : Nat → Calls
  | 0 =>
    { read := fun _ _ => .error .tooDeep
      equals := fun _ _ _ => .error .tooDeep
      hash := fun _ => .error .tooDeep }
  | depth + 1 =>
    { read := fun target name => e.readWith (e.callsAt depth) target name
      equals := fun target argument parameter =>
        e.equalsWith (e.callsAt depth) target argument parameter
      hash := fun v => e.hashWith (e.callsAt depth) v }

/-- The number of members of all types. -/
def memberCount (e : Evaluator) : Nat :=
  e.types.foldl (fun count (_, type) => count + type.members.length) 0

/-- The calls inside each other that are allowed beyond those that generated code can need. -/
def extraDepth : Nat := 1000000

/-- The depth of calls on the given values.  The first summand is one that generated code never
reaches; the second leaves room for bodies that call back into the same instance. -/
def depth (e : Evaluator) (arguments : List Value) : Nat :=
  (e.memberCount + 2) * (Value.sizeItems arguments + 2) + extraDepth

/-- Answers to calls on the given values. -/
def callsFor (e : Evaluator) (arguments : List Value) : Calls := e.callsAt (e.depth arguments)

/-! ## Requests -/

/-- Whether a kind of type has instances. -/
def isInstantiable : TypeKind → Bool
  | .classType => true
  | .structType => true
  | _ => false

/-- A new instance of a type, made by its constructor.  The instance starts with the given identity,
which no other instance has, and every store gives it a later one. -/
def construct (e : Evaluator) (identity : Nat) (typeName : String) (arguments : List Value) :
    Except Fault Value := do
  let type ← e.lookup typeName
  if !isInstantiable type.kind then
    .error (.notInstantiable typeName)
  else
    match type.constructor? with
    | none => .error (.noConstructor typeName)
    | some constructor =>
      if constructor.parameters.length ≠ arguments.length then
        .error (.wrongArity typeName constructor.parameters.length arguments.length)
      else
        let start := Frame.of (.object identity typeName []) constructor.parameters arguments
        let (final, _) ← Stmt.execAll (e.callsFor arguments) start constructor.body
        return final.self

/-- A value of an enumeration. -/
def enumValue (e : Evaluator) (typeName value : String) : Except Fault Value := do
  let type ← e.lookup typeName
  if type.kind = .enumType && type.enumValues.any (·.name == value) then
    return .enumValue typeName value
  else
    .error (.noEnumValue typeName value)

/-- A property or a field of an instance. -/
def get (e : Evaluator) (target : Value) (name : String) : Except Fault Value :=
  e.readWith (e.callsFor [target]) target name

/-- The equality of an instance with another one of its type. -/
def equalsTyped (e : Evaluator) (left right : Value) : Except Fault Bool :=
  match left with
  | .object _ typeName _ => e.equalsWith (e.callsFor [left, right]) left right (.ofName typeName)
  | _ => .error .noInstanceReceiver

/-- The equality of a value with any object. -/
def equalsObject (e : Evaluator) (left right : Value) : Except Fault Bool :=
  e.equalsWith (e.callsFor [left, right]) left right (.ofName objectTypeName)

/-- An operator that a type declares. -/
def operator (e : Evaluator) (typeName : String) (kind : OperatorKind) (left right : Value) :
    Except Fault Bool := do
  let type ← e.lookup typeName
  match type.operator? kind with
  | none => .error (.noOperator typeName kind)
  | some operator =>
    let frame := Frame.of .null operator.parameters [left, right]
    let (_, result) ← Stmt.execAll (e.callsFor [left, right]) frame operator.body
    match result with
    | some value => value.asBool
    | none => .error .operatorWithoutResult

/-- The hash code of a value. -/
def hash (e : Evaluator) (v : Value) : Except Fault Int64 :=
  e.hashWith (e.callsFor [v]) v

end Evaluator

end DomainForms
