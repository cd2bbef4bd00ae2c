import DomainForms.Declaration.Parser
import DomainForms.Document

/-!
# Reading documents

A document is a sequence of forms in parentheses.  Conventions may stand first and only there; all
other forms are namespaces.

* `Document.reader`: the parser of a whole source.
* `Document.parse`: the document of a source, or the error of its first fault.
-/

namespace DomainForms.Document

open Grammar Grammar.Parser

/-! ## Conventions -/

/-- The base types of one group, in its braces. -/
def inheritBlock : Parser (List QualifiedName) := do
  let _ ← expect .lbrace .conventionGroup
  let _ ← expectWord "inherit" .conventionGroup
  let _ ← expect .lbracket .conventionGroup
  let names ← manyUntil .rbracket (Prod.fst <$> qualifiedName .qualifiedName)
  let _ ← expect .rbrace .conventionGroup
  return names.map QualifiedName.parse

/-- The groups of conventions, at most `fuel` of them, on top of those that were given before. -/
def groups : Nat → Conventions → Parser Conventions
  | 0, given => return given
  | fuel + 1, given => do
    match ← peek with
    | .keyword "domainevents" =>
      if given.domainEvents.isSome then
        fail .conventionGroup (.repeatedGroup "domainevents")
      else
        let _ ← advance
        let bases ← inheritBlock
        groups fuel { given with domainEvents := some bases }
    | .keyword "commands" =>
      if given.commands.isSome then
        fail .conventionGroup (.repeatedGroup "commands")
      else
        let _ ← advance
        let bases ← inheritBlock
        groups fuel { given with commands := some bases }
    | .keyword _ => unexpected .conventionGroup "':domainevents' or ':commands'"
    | _ => return given

/-- The conventions form behind its opening parenthesis.  There are two groups, so a third keyword
is always refused. -/
def conventionsBody (start : Span) : Parser Conventions := do
  let _ ← expectWord "defconventions" .conventions
  let given ← groups 3 .empty
  let close ← expect .rparen .conventions
  return { given with span := start.through close }

/-! ## Namespaces -/

/-- A namespace behind its opening parenthesis. -/
def namespaceBody (start : Span) : Parser Namespace := do
  let _ ← expectWord "namespace" .scope
  let (name, _) ← qualifiedName .scope
  let declarations ← many (· = .lparen) Declaration.reader
  let close ← expect .rparen .scope
  return ⟨.parse name, declarations, start.through close⟩

/-- A form that is not the first one: a namespace. -/
def laterForm : Parser Namespace := do
  let start ← advance
  match ← peek with
  | .ident "defconventions" => fail .document .misplacedConventions
  | .ident "namespace" => namespaceBody start
  | _ => unexpected .scope "'namespace'"

/-! ## Documents -/

/-- Whether the tokens start with the conventions form. -/
def startsWithConventions (tokens : List Token) : Bool :=
  front tokens = .lparen && front tokens.tail = .ident "defconventions"

/-- The conventions in front, if there are any. -/
def leadingConventions : Parser (Option Conventions) := fun tokens =>
  if startsWithConventions tokens then
    (do
      let start ← advance
      some <$> conventionsBody start : Parser (Option Conventions)) tokens
  else
    .ok (none, tokens)

/-- The parser of a whole source. -/
def reader : Parser Document := do
  let conventions ← leadingConventions
  let namespaces ← many (· = .lparen) laterForm
  endOfInput .document
  return ⟨conventions, namespaces⟩

/-- The document of a source. -/
def parse (source : String) : Except Error Document := reader.run source

end DomainForms.Document
