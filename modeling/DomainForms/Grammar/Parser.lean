import DomainForms.Grammar.Fault
import DomainForms.Token.Lexer

/-!
# Parsers

A parser takes a list of tokens and gives a result with the tokens that are left, or the first
fault.  The token in front decides what to read; nothing is ever taken back.

The steps below read one token each.  `many` reads items as long as the token in front starts one;
every item takes a token, so the number of tokens bounds the number of items.

* `Parser.bind_eq_ok`, `Parser.bind_eq_error`: what it means that two parsers in a row succeed or
  fail.
-/

namespace DomainForms.Grammar

/-- The words that name nothing. -/
def reservedWords : List String :=
  ["namespace", "defvaluetype", "defcommand", "defdomainevent", "defdto", "defenum",
    "defapplicationservice", "defconventions", "inherit", "abstract", "class", "enum", "false",
    "interface", "new", "null", "object", "private", "public", "sealed", "struct", "true", "void"]

/-- Whether a word names nothing. -/
def isReserved (word : String) : Bool := reservedWords.contains word

/-- A parser with results of type `α`. -/
def Parser (α : Type) : Type := List Token → Except Fault (α × List Token)

namespace Parser

variable {α β : Type}

/-- One parser, then another on the tokens that are left. -/
def bind (p : Parser α) (next : α → Parser β) : Parser β := fun tokens =>
  match p tokens with
  | .ok (a, rest) => next a rest
  | .error fault => .error fault

instance : Monad Parser where
  pure a := fun tokens => .ok (a, tokens)
  bind := bind

/-- Two parsers in a row succeed when the second one does on what the first one leaves. -/
theorem bind_eq_ok {p : Parser α} {next : α → Parser β} {tokens rest : List Token} {b : β} :
    (p >>= next) tokens = .ok (b, rest) ↔
      ∃ a middle, p tokens = .ok (a, middle) ∧ next a middle = .ok (b, rest) := by
  show bind p next tokens = _ ↔ _
  unfold bind
  cases h : p tokens with
  | ok r =>
    obtain ⟨a, middle⟩ := r
    simp [and_assoc]
  | error f => simp

/-- Two parsers in a row fail where the first one of them that fails does. -/
theorem bind_eq_error {p : Parser α} {next : α → Parser β} {tokens : List Token} {fault : Fault} :
    (p >>= next) tokens = .error fault ↔
      p tokens = .error fault ∨
        ∃ a middle, p tokens = .ok (a, middle) ∧ next a middle = .error fault := by
  show bind p next tokens = _ ↔ _
  unfold bind
  cases h : p tokens with
  | ok r =>
    obtain ⟨a, middle⟩ := r
    simp [and_assoc]
  | error f => simp

/-! ## The token in front -/

/-- What the token in front is; behind the last token there is the end of the source. -/
def front : List Token → Token.Kind
  | [] => .eof
  | token :: _ => token.kind

/-- Looks at the token in front. -/
def peek : Parser Token.Kind := fun tokens => .ok (front tokens, tokens)

/-- Where the token in front stands. -/
def here : Parser Span := fun tokens => .ok ((tokens.head?.map Token.span).getD .none, tokens)

/-- Takes the token in front and tells where it stands. -/
def advance : Parser Span := fun tokens =>
  .ok ((tokens.head?.map Token.span).getD .none, tokens.tail)

/-- Refuses the token in front. -/
def fail (production : Production) (cause : Cause) : Parser α := fun tokens =>
  .error ⟨production, cause, tokens⟩

/-- Refuses the token in front because another was expected. -/
def unexpected (production : Production) (expected : String) : Parser α := fun tokens =>
  .error ⟨production, .unexpected expected (front tokens), tokens⟩

/-! ## One token -/

/-- Takes a given mark. -/
def expect (kind : Token.Kind) (production : Production) : Parser Span := do
  if (← peek) = kind then advance else unexpected production kind.name

/-- Takes a given word. -/
def expectWord (word : String) (production : Production) : Parser Span := do
  if (← peek) = .ident word then advance else unexpected production ("'" ++ word ++ "'")

/-- Takes a name, possibly dotted, that is not reserved. -/
def qualifiedName (production : Production) : Parser (String × Span) := do
  match ← peek with
  | .ident name =>
    if isReserved name then
      fail production (.reservedName name)
    else
      return (name, ← advance)
  | _ => unexpected production "a name"

/-- Takes a name without dots. -/
def simpleName (production : Production) : Parser (String × Span) := do
  match ← peek with
  | .ident name =>
    if Text.isDotted name then
      fail production (.dottedName name)
    else
      return (name, ← advance)
  | _ => unexpected production "an identifier"

/-- Accepts the end of the source only. -/
def endOfInput (production : Production) : Parser Unit := do
  if (← peek) = .eof then return () else unexpected production "end of input"

/-! ## Many items -/

/-- At most `fuel` items, as long as the token in front starts one. -/
def atMost (starts : Token.Kind → Bool) (item : Parser α) : Nat → Parser (List α)
  | 0 => return []
  | fuel + 1 => do
    if starts (← peek) then
      let first ← item
      let others ← atMost starts item fuel
      return first :: others
    else
      return []

/-- Items as long as the token in front starts one.  An item takes at least one token. -/
def many (starts : Token.Kind → Bool) (item : Parser α) : Parser (List α) := fun tokens =>
  atMost starts item (tokens.length + 1) tokens

/-- Items up to a closing mark, which is taken as well. -/
def manyUntil (close : Token.Kind) (item : Parser α) : Parser (List α) := do
  let items ← many (· ≠ close) item
  let _ ← advance
  return items

/-- The result of a parser on a source, or the error that reports its fault. -/
def run (p : Parser α) (source : String) : Except Error α :=
  match p (Token.significant source) with
  | .ok (a, _) => .ok a
  | .error fault => .error (fault.toError source)

end Parser

end DomainForms.Grammar
