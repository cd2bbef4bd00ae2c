import DomainForms.Span

/-!
# Tokens

The words and marks that a source consists of.  White space is none of them; comments are, but they
are trivia, which the grammar passes over.  What cannot be read as a token becomes one that carries
the fault, so that a source always has a list of tokens, and the grammar reports the fault when it
reaches it.

* `Token.Kind.name`: what a diagnostic calls a token.
* `Token.Kind.text`: how a token is written.
-/

namespace DomainForms

/-- A stretch of source that is no token. -/
inductive LexicalFault where
  /-- A colon without a name behind it. -/
  | emptyKeyword
  /-- A dotted name with a segment that is no identifier. -/
  | malformedName (text : String)
  /-- A character that starts no token. -/
  | unexpected (c : Char)
deriving DecidableEq, Repr

/-- The wording of a lexical fault. -/
def LexicalFault.message : LexicalFault → String
  | emptyKeyword => "expected keyword name after ':'"
  | malformedName text => "malformed qualified name: " ++ text
  | unexpected c => "unexpected character: " ++ String.ofList [c]

/-- What a token is, with the text that it carries. -/
inductive Token.Kind where
  /-- An opening parenthesis. -/
  | lparen
  /-- A closing parenthesis. -/
  | rparen
  /-- An opening bracket. -/
  | lbracket
  /-- A closing bracket. -/
  | rbracket
  /-- An opening brace. -/
  | lbrace
  /-- A closing brace. -/
  | rbrace
  /-- A comma. -/
  | comma
  /-- A question mark. -/
  | question
  /-- An identifier, possibly dotted. -/
  | ident (name : String)
  /-- A keyword, without its colon. -/
  | keyword (name : String)
  /-- A comment, with its semicolon. -/
  | comment (text : String)
  /-- The end of the source. -/
  | eof
  /-- Something that is no token. -/
  | fault (cause : LexicalFault)
deriving DecidableEq, Repr

namespace Token.Kind

/-- Whether the grammar passes over a token. -/
def isTrivia : Kind → Bool
  | comment _ => true
  | _ => false

/-- What a diagnostic calls a token. -/
def name : Kind → String
  | lparen => "'('"
  | rparen => "')'"
  | lbracket => "'['"
  | rbracket => "']'"
  | lbrace => "'\x7b'"
  | rbrace => "'\x7d'"
  | comma => "','"
  | question => "'?'"
  | ident _ => "identifier"
  | keyword _ => "keyword"
  | comment _ => "comment"
  | eof => "end of input"
  | fault _ => "error"

/-- How a token is written. -/
def text : Kind → String
  | lparen => "("
  | rparen => ")"
  | lbracket => "["
  | rbracket => "]"
  | lbrace => "\x7b"
  | rbrace => "\x7d"
  | comma => ","
  | question => "?"
  | ident name => name
  | keyword name => ":" ++ name
  | comment text => text
  | eof => ""
  | fault .emptyKeyword => ":"
  | fault (.malformedName text) => text
  | fault (.unexpected c) => String.ofList [c]

end Token.Kind

/-- A token and where it stands. -/
structure Token where
  /-- What the token is. -/
  kind : Token.Kind
  /-- Where it stands. -/
  span : Span
deriving DecidableEq, Repr

end DomainForms
