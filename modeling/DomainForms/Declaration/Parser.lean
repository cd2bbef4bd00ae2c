import DomainForms.Declaration
import DomainForms.TypeRef.Parser

/-!
# Reading declarations

Every declaration is a form in parentheses that starts with the word of its kind.  A value type has
two forms: a list of properties, or just a type, which may itself stand in parentheses.  What comes
after the name decides between them: a parenthesis that wraps nothing but the shape of a type starts
the shorthand form, any other one starts a list.

* `Declaration.reader`: the parser of a declaration.
* `Declaration.parse`: a source that is one declaration.
* `Declaration.wrapsType`: how the two forms of a value type are told apart.
-/

namespace DomainForms.Declaration

open Grammar Grammar.Parser

/-! ## Properties -/

/-- A type, a name, and where the two stand. -/
def property : Parser Property := do
  let start ← here
  let type ← TypeRef.reader
  let (name, nameSpan) ← simpleName .propertyList
  return ⟨some name, some type, start.through nameSpan⟩

/-- A comma and a property behind it. -/
def nextProperty : Parser Property := do
  let _ ← advance
  property

/-- The properties of a record in parentheses, with commas between them. -/
def propertyList : Parser (List Property) := do
  let _ ← expect .lparen .propertyList
  if (← peek) = .rparen then
    let _ ← advance
    return []
  else
    let first ← property
    let others ← many (· = .comma) nextProperty
    if (← peek) = .rparen then
      let _ ← advance
      return first :: others
    else
      unexpected .propertyList "',' or ')'"

/-! ## Records -/

/-- The production that reads a kind of record. -/
def production : RecordKind → Production
  | .valueType => .valueType
  | .command => .command
  | .domainEvent => .domainEvent
  | .dto => .dto

/-- The rest of a record behind the word of its kind: a name and possibly a list of properties. -/
def recordBody (start : Span) (production : Production) : Parser Record := do
  let (name, _) ← qualifiedName production
  let properties ← if (← peek) = .lparen then propertyList else pure []
  let close ← expect .rparen production
  return ⟨name, properties, start.through close⟩

/-- Whether the tokens behind an opening parenthesis are the shape of a type and the closing
parenthesis. -/
def wrapsType (tokens : List Token) : Bool :=
  match TypeRef.skip? tokens with
  | some rest => front rest = .rparen
  | none => false

/-- The one property of a value type that is written as just a type. -/
def shorthand : Parser (List Property) := do
  let start ← here
  let type ← TypeRef.reader
  return [⟨none, some type, start⟩]

/-- The properties of a value type, in whichever form they are written. -/
def valueProperties (nameSpan : Span) : Parser (List Property) := fun tokens =>
  match front tokens with
  | .rparen => .ok ([⟨none, none, nameSpan⟩], tokens)
  | .lparen => if wrapsType tokens.tail then shorthand tokens else propertyList tokens
  | _ => shorthand tokens

/-- The rest of a value type behind its word. -/
def valueTypeBody (start : Span) : Parser Record := do
  let (name, nameSpan) ← qualifiedName .valueType
  let properties ← valueProperties nameSpan
  let close ← expect .rparen .valueType
  return ⟨name, properties, start.through close⟩

/-! ## Enumerations and services -/

/-- The rest of an enumeration behind its word: a name and values in brackets. -/
def enumerationBody (start : Span) : Parser Enumeration := do
  let (name, _) ← qualifiedName .enumeration
  let _ ← expect .lbracket .enumeration
  let values ← manyUntil .rbracket (Prod.fst <$> simpleName .enumeration)
  let close ← expect .rparen .enumeration
  return ⟨name, values, start.through close⟩

/-- A command inside a service. -/
def nestedCommand : Parser Record := do
  let start ← advance
  let _ ← expectWord "defcommand" .command
  recordBody start .command

/-- The rest of a service behind its word: a name and at least one command. -/
def serviceBody (start : Span) : Parser Service := do
  let (name, _) ← qualifiedName .service
  let commands ← many (· = .lparen) nestedCommand
  if commands.isEmpty then
    fail .service .emptyService
  else
    let close ← expect .rparen .service
    return ⟨name, commands, start.through close⟩

/-! ## Declarations -/

/-- The rest of a declaration behind the word of its kind. -/
def body (start : Span) : Kind → Parser Declaration
  | .record .valueType => .record .valueType <$> valueTypeBody start
  | .record kind => .record kind <$> recordBody start (production kind)
  | .enumeration => .enumeration <$> enumerationBody start
  | .service => .service <$> serviceBody start

/-- The kind of declaration that a token introduces. -/
def introduces? : Token.Kind → Option Kind
  | .ident word => Kind.ofKeyword? word
  | _ => none

/-- The parser of a declaration. -/
def reader : Parser Declaration := do
  let start ← expect .lparen .declaration
  match introduces? (← peek) with
  | some kind =>
    let _ ← advance
    body start kind
  | none => unexpected .declaration "a declaration symbol"

/-- A source that is one declaration. -/
def parse (source : String) : Except Error Declaration :=
  (do
    let declaration ← reader
    endOfInput .declaration
    return declaration : Parser Declaration).run source

end DomainForms.Declaration
