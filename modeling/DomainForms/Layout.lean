import DomainForms.Token

/-!
# Layouts

A printed text is a row of tokens with the white space that stands before each of them.  Keeping the
two apart says at once what a text means, its tokens, and how it looks, its gaps.

* `Layout.text`: the printed text.
* `Layout.kinds`: the tokens of the printed text.
-/

namespace DomainForms

/-- A token and the white space before it. -/
structure Piece where
  /-- The white space. -/
  gap : String
  /-- The token. -/
  kind : Token.Kind
deriving DecidableEq, Repr

/-- How a piece is written. -/
def Piece.text (p : Piece) : String := p.gap ++ p.kind.text

/-- A row of tokens and gaps. -/
abbrev Layout := List Piece

namespace Layout

/-- The printed text of a layout. -/
def text (l : Layout) : String := String.join (l.map Piece.text)

/-- The tokens of a layout. -/
def kinds (l : Layout) : List Token.Kind := l.map Piece.kind

/-- Tokens without white space between them, and a gap before the first. -/
def tight (gap : String) : List Token.Kind → Layout
  | [] => []
  | first :: rest => ⟨gap, first⟩ :: rest.map (⟨"", ·⟩)

/-- Words with one space between neighbours. -/
def words : List String → Layout
  | [] => []
  | first :: rest => ⟨"", .ident first⟩ :: rest.map fun word => ⟨" ", .ident word⟩

end Layout

end DomainForms
