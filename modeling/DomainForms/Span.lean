import DomainForms.Text.Bytes

/-!
# Places in a source

A position is a byte offset together with its line and column, both counted from one; a column
counts characters.  A span is the stretch of source from one position up to a byte offset.

* `Position.after`: the position behind a text that starts at a given position.
* `Span.through`: the span from the start of one span to the end of another.
* `Span.text`, `Span.lineText`: what a span covers, and the line that it starts in.
-/

namespace DomainForms

/-- A position in a source. -/
structure Position where
  /-- Bytes before the position. -/
  offset : Nat
  /-- Line, counted from one. -/
  line : Nat
  /-- Column, counted in characters from one. -/
  column : Nat
deriving DecidableEq, Repr

namespace Position

/-- The position before the first character. -/
def start : Position := ⟨0, 1, 1⟩

/-- The position behind one character.  Only a line feed ends a line. -/
def advance (p : Position) (c : Char) : Position :=
  if c = '\n' then
    ⟨p.offset + c.utf8Size, p.line + 1, 1⟩
  else
    ⟨p.offset + c.utf8Size, p.line, p.column + 1⟩

/-- The position behind a text. -/
def after (p : Position) (text : List Char) : Position := text.foldl advance p

end Position

/-- A stretch of source. -/
structure Span where
  /-- Byte offset of the start. -/
  start : Nat
  /-- Byte offset behind the last byte. -/
  stop : Nat
  /-- Line of the start, counted from one. -/
  line : Nat
  /-- Column of the start, counted in characters from one. -/
  column : Nat
deriving DecidableEq, Repr, Inhabited

namespace Span

/-- The span of a tree that was not read from a source. -/
def none : Span := ⟨0, 0, 0, 0⟩

/-- The empty span at an offset. -/
def point (offset line column : Nat) : Span := ⟨offset, offset, line, column⟩

/-- The span from one position to another. -/
def between (first last : Position) : Span := ⟨first.offset, last.offset, first.line, first.column⟩

/-- The span from the start of one span to the end of the other, never shorter than the first. -/
def through (first last : Span) : Span := { first with stop := max last.stop first.stop }

/-- The number of bytes covered. -/
def size (s : Span) : Nat := s.stop - s.start

/-- Whether the span starts where it stops. -/
def isEmpty (s : Span) : Bool := s.start == s.stop

/-- The text that a span covers in a source; empty if the source has no such stretch. -/
def text (s : Span) (source : String) : String :=
  if s.stop < s.start then
    ""
  else
    let covered := (Text.dropBytes? source.toList s.start).bind (Text.takeBytes? · s.size)
    String.ofList (covered.getD [])

/-- The source line that a span starts in. -/
def lineText (s : Span) (source : String) : String :=
  String.ofList (Text.lineAt source.toList s.start)

end Span

end DomainForms
