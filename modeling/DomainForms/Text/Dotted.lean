/-!
# Dotted text

A qualified name is written as segments with dots between them.  `segments` cuts a text at every
dot, so that the text is its segments joined again; `join` puts the dots back.

* `segments`: the pieces between the dots, empty ones included.
* `join`: the pieces with a dot between neighbours.
* `isDotted`: whether a text holds a dot at all.
-/

namespace DomainForms.Text

/-- The pieces of a text between its dots.  There is always at least one, and a piece is empty where
a dot stands at an end or beside another dot. -/
def segments : List Char → List (List Char)
  | [] => [[]]
  | c :: rest =>
    if c = '.' then
      [] :: segments rest
    else
      match segments rest with
      | [] => [[c]]
      | first :: others => (c :: first) :: others

/-- Texts with a separator between neighbours. -/
def separated (separator : String) : List String → String
  | [] => ""
  | [only] => only
  | first :: second :: rest => first ++ separator ++ separated separator (second :: rest)

/-- The pieces with a dot between neighbours. -/
def join (pieces : List String) : String := separated "." pieces

/-- Whether a text holds a dot. -/
def isDotted (text : String) : Bool := text.toList.contains '.'

end DomainForms.Text
