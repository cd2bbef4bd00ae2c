import DomainForms.Grammar.Parser
import DomainForms.TypeRef

/-!
# Reading type references

A type is a name, a primitive with a question mark, or a type in parentheses, each with at most one
pair of empty brackets behind it.  Opening parentheses are counted first; the type inside is read,
and then as many closing ones are taken, each of which may have brackets behind it.

* `TypeRef.reader`: the parser of a type reference.
* `TypeRef.parse`: a source that is one type reference.
* `TypeRef.skip?`: the tokens behind what has the shape of a type, found without reading it.
-/

namespace DomainForms.TypeRef

open Grammar Grammar.Parser

/-- The number of parentheses that open in front, and the tokens behind them. -/
def openings : List Token → Nat × List Token
  | [] => (0, [])
  | token :: rest =>
    if token.kind = .lparen then
      let (depth, inner) := openings rest
      (depth + 1, inner)
    else
      (0, token :: rest)

/-- Brackets behind a type, if there are any.  An array takes no more of them. -/
def arraySuffix (base : TypeRef) : Parser TypeRef := do
  if (← peek) ≠ .lbracket then
    return base
  else if base.isArray then
    fail .arrayRank .nestedArray
  else
    let _ ← advance
    match ← peek with
    | .rbracket =>
      let _ ← advance
      if (← peek) = .lbracket then
        fail .arrayRank .nestedArray
      else
        return .arrayOf base
    | .comma => fail .arrayRank .multiDimensionalArray
    | _ => unexpected .arrayRank "']'"

/-- The type that a name spells: a primitive type, the string type, or a type known by name. -/
def ofWritten (name : String) : TypeRef :=
  match Primitive.ofName? name with
  | some p => .simple p
  | none => if isStringName name then .string else .ofName name

/-- A question mark behind a type, if there is one.  Only a primitive type takes it, and only
once. -/
def nullableSuffix (base : TypeRef) : Parser TypeRef := do
  if (← peek) ≠ .question then
    return base
  else
    match base with
    | .simple p =>
      let _ ← advance
      if (← peek) = .question then
        fail .typeRef .nestedNullable
      else
        return .nullable p
    | _ => fail .typeRef .notNullable

/-- A type without parentheses and brackets. -/
def baseType : Parser TypeRef := do
  match ← peek with
  | .ident name =>
    if isReserved name then
      fail .typeRef (.reservedType name)
    else
      let _ ← advance
      nullableSuffix (ofWritten name)
  | _ => unexpected .typeRef "a type"

/-- Closing parentheses, each with the brackets behind it. -/
def closings : Nat → TypeRef → Parser TypeRef
  | 0, type => return type
  | depth + 1, type => do
    let _ ← expect .rparen .typeRef
    closings depth (← arraySuffix type)

/-- The parser of a type reference. -/
def reader : Parser TypeRef := fun tokens =>
  let (depth, inner) := openings tokens
  (do closings depth (← arraySuffix (← baseType))) inner

/-- A source that is one type reference. -/
def parse (source : String) : Except Error TypeRef :=
  (do
    let type ← reader
    endOfInput .typeRef
    return type : Parser TypeRef).run source

/-! ## The shape of a type -/

/-- The tokens behind a pair of empty brackets, which may be absent; nothing if an opening bracket
is not closed at once. -/
def skipBrackets? : List Token → Option (List Token)
  | [] => some []
  | token :: rest =>
    if token.kind = .lbracket then
      match rest with
      | close :: behind => if close.kind = .rbracket then some behind else none
      | [] => none
    else
      some (token :: rest)

/-- The tokens behind closing parentheses, each with the brackets behind it. -/
def skipClosings? : Nat → List Token → Option (List Token)
  | 0, tokens => some tokens
  | _ + 1, [] => none
  | depth + 1, token :: rest =>
    if token.kind = .rparen then (skipBrackets? rest).bind (skipClosings? depth) else none

/-- The tokens without a question mark in front. -/
def skipQuestion : List Token → List Token
  | [] => []
  | token :: rest => if token.kind = .question then rest else token :: rest

/-- The tokens behind what has the shape of a type. -/
def skip? (tokens : List Token) : Option (List Token) :=
  match openings tokens with
  | (depth, ⟨.ident _, _⟩ :: rest) =>
    (skipBrackets? (skipQuestion rest)).bind (skipClosings? depth)
  | _ => none

end DomainForms.TypeRef
