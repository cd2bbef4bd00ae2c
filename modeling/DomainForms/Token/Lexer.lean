import DomainForms.Text.Blank
import DomainForms.Text.Dotted
import DomainForms.Text.Letter
import DomainForms.Text.Number
import DomainForms.Token

/-!
# Reading tokens

White space separates tokens.  A token is the longest text of its class: a mark is one character, a
comment runs up to the end of its line, a keyword is a colon with the keyword characters behind it,
and an identifier runs as far as identifier characters and dots do.  Every segment of a dotted name
has to be an identifier of its own.

* `Token.lexeme`: the token at the front of a text, with the text that it takes and what is left.
* `Token.tokenize`: all tokens of a source, the end of the source last.

The loop ends because every token takes at least one character: its fuel is the number of characters
that are left.
-/

namespace DomainForms.Token

open Text

/-- Whether a character starts an identifier. -/
def isNameStart (c : Char) : Bool := isLetter c || c == '_'

/-- Whether a character continues a dotted name. -/
def isNameChar (c : Char) : Bool := isNameStart c || c.isDigit || c == '.'

/-- Whether a character belongs to the name of a keyword. -/
def isKeywordChar (c : Char) : Bool := isLetter c || isNumber c || c == '_' || c == '-'

/-- Whether a segment of a dotted name starts as an identifier does. -/
def isSegment : List Char → Bool
  | [] => false
  | c :: _ => isNameStart c

/-- The mark that a character is. -/
def mark? (c : Char) : Option Kind :=
  if c = '(' then some .lparen
  else if c = ')' then some .rparen
  else if c = '[' then some .lbracket
  else if c = ']' then some .rbracket
  else if c = '\x7b' then some .lbrace
  else if c = '\x7d' then some .rbrace
  else if c = ',' then some .comma
  else if c = '?' then some .question
  else none

/-- The token that a text of identifier characters and dots is. -/
def nameKind (text : List Char) : Kind :=
  if (segments text).all isSegment then
    .ident (String.ofList text)
  else
    .fault (.malformedName (String.ofList text))

/-- The token that a colon and the keyword characters behind it are. -/
def keywordKind (name : List Char) : Kind :=
  if name.isEmpty then .fault .emptyKeyword else .keyword (String.ofList name)

/-- A token at the front of a text. -/
structure Lexeme where
  /-- What the token is. -/
  kind : Kind
  /-- The characters that it takes. -/
  text : List Char
  /-- The characters that are left. -/
  rest : List Char

/-- The token that starts with the character `c`, which is not blank, and goes on in `cs`. -/
def lexeme (c : Char) (cs : List Char) : Lexeme :=
  match mark? c with
  | some kind => ⟨kind, [c], cs⟩
  | none =>
    if c = ';' then
      let text := c :: cs.takeWhile (· ≠ '\n')
      ⟨.comment (String.ofList text), text, cs.dropWhile (· ≠ '\n')⟩
    else if c = ':' then
      let name := cs.takeWhile isKeywordChar
      ⟨keywordKind name, c :: name, cs.dropWhile isKeywordChar⟩
    else if isNameStart c then
      let text := c :: cs.takeWhile isNameChar
      ⟨nameKind text, text, cs.dropWhile isNameChar⟩
    else
      ⟨.fault (.unexpected c), [c], cs⟩

/-- The tokens of a text that starts at a position, at most `fuel` of them before the end. -/
def scan : Nat → Position → List Char → List Token
  | 0, p, _ => [⟨.eof, .between p p⟩]
  | fuel + 1, p, text =>
    let here := p.after (text.takeWhile isBlank)
    match text.dropWhile isBlank with
    | [] => [⟨.eof, .between here here⟩]
    | c :: cs =>
      let l := lexeme c cs
      let next := here.after l.text
      ⟨l.kind, .between here next⟩ :: scan fuel next l.rest

/-- The tokens of a source, comments included, with the end of the source last. -/
def tokenize (source : String) : List Token :=
  scan (source.toList.length + 1) .start source.toList

/-- The tokens of a source that the grammar reads. -/
def significant (source : String) : List Token :=
  (tokenize source).filter fun t => !t.kind.isTrivia

end DomainForms.Token
