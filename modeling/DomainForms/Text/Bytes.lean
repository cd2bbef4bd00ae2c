/-!
# Byte offsets into a text

Offsets count the bytes of the UTF-8 form, while a text is worked on as a list of characters.  An
offset inside a character, or beyond the end, belongs to no character.

* `takeBytes?`, `dropBytes?`: the parts of a text before and behind an offset.
* `lineAt`: the line around an offset.
-/

namespace DomainForms.Text

/-- The part of a text before a byte offset. -/
def takeBytes? : List Char → Nat → Option (List Char)
  | _, 0 => some []
  | [], _ + 1 => none
  | c :: rest, n + 1 =>
    if c.utf8Size ≤ n + 1 then (takeBytes? rest (n + 1 - c.utf8Size)).map (c :: ·) else none

/-- The part of a text behind a byte offset. -/
def dropBytes? : List Char → Nat → Option (List Char)
  | text, 0 => some text
  | [], _ + 1 => none
  | c :: rest, n + 1 =>
    if c.utf8Size ≤ n + 1 then dropBytes? rest (n + 1 - c.utf8Size) else none

/-- The line that holds a byte offset, without its line break.  An offset beyond the end lies in the
last line. -/
def lineAt (text : List Char) (offset : Nat) : List Char :=
  let before := (takeBytes? text offset).getD text
  let behind := (dropBytes? text offset).getD []
  (before.reverse.takeWhile (· ≠ '\n')).reverse ++ behind.takeWhile (· ≠ '\n')

end DomainForms.Text
