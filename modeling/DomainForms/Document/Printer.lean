import DomainForms.Document
import DomainForms.Layout

/-!
# Printing documents

Every document has one canonical layout.  Forms stand apart by an empty line, declarations start on
a line of their own, and a record is written on one line.  A value type whose only property has no
name is printed in its shorthand form; elsewhere an open name or type is printed as its default.

* `Document.print`: the canonical text of a document.
* `Declaration.print`: the canonical text of one declaration.
-/

namespace DomainForms

/-- What a canonical text can be told. -/
structure PrintStyle where
  /-- Spaces for each level of indentation. -/
  indentWidth : Nat
  /-- Name printed for a property that leaves its name open. -/
  defaultPropertyName : String
deriving DecidableEq, Repr

namespace PrintStyle

/-- Two spaces for each level, and the standard name. -/
def standard : PrintStyle := ⟨2, "Value"⟩

/-- The gap before a new line at a level of indentation. -/
def newLine (style : PrintStyle) (depth : Nat) : String :=
  String.ofList ('\n' :: List.replicate (depth * style.indentWidth) ' ')

end PrintStyle

/-! ## Properties -/

namespace Property

/-- The type and the name of a property, with a gap before the type. -/
def layout (style : PrintStyle) (gap : String) (p : Property) : Layout :=
  Layout.tight gap (p.type.getD .default).kinds
    ++ [⟨" ", .ident (p.name.getD style.defaultPropertyName)⟩]

/-- A list of properties in parentheses. -/
def layoutList (style : PrintStyle) : List Property → Layout
  | [] => [⟨" ", .lparen⟩, ⟨"", .rparen⟩]
  | first :: rest =>
    ⟨" ", .lparen⟩ :: first.layout style ""
      ++ rest.flatMap (fun p => ⟨"", .comma⟩ :: p.layout style " ")
      ++ [⟨"", .rparen⟩]

end Property

/-! ## Declarations -/

namespace Declaration

/-- What stands behind the name of a value type. -/
def layoutValue (style : PrintStyle) : List Property → Layout
  | [⟨none, none, _⟩] => []
  | [⟨none, some type, _⟩] => Layout.tight " " type.kinds
  | properties => Property.layoutList style properties

/-- What stands behind the name of a command: an empty list is left out. -/
def layoutCommand (style : PrintStyle) (properties : List Property) : Layout :=
  if properties.isEmpty then [] else Property.layoutList style properties

/-- The opening parenthesis, the word and the name of a form. -/
def layoutHead (gap word name : String) : Layout :=
  [⟨gap, .lparen⟩, ⟨"", .ident word⟩, ⟨" ", .ident name⟩]

/-- A command inside a service, on a line of its own. -/
def layoutNested (style : PrintStyle) (depth : Nat) (command : Record) : Layout :=
  layoutHead (style.newLine depth) "defcommand" command.name
    ++ layoutCommand style command.properties ++ [⟨"", .rparen⟩]

/-- What stands between the name of a declaration and its closing parenthesis. -/
def layoutBody (style : PrintStyle) (depth : Nat) : Declaration → Layout
  | record .valueType body => layoutValue style body.properties
  | record .command body => layoutCommand style body.properties
  | record _ body => Property.layoutList style body.properties
  | enumeration body => ⟨" ", .lbracket⟩ :: Layout.words body.values ++ [⟨"", .rbracket⟩]
  | service body => body.commands.flatMap (layoutNested style (depth + 1))

/-- The layout of a declaration at a level of indentation, with a gap before it. -/
def layout (style : PrintStyle) (gap : String) (depth : Nat) (d : Declaration) : Layout :=
  layoutHead gap d.kind.keyword d.name ++ layoutBody style depth d ++ [⟨"", .rparen⟩]

/-- The canonical text of one declaration. -/
def print (d : Declaration) : String := Layout.text (d.layout .standard "" 0)

end Declaration

/-! ## Forms -/

namespace Conventions

/-- One group of conventions, on a line of its own. -/
def layoutGroup (style : PrintStyle) (group : String) : Option (List QualifiedName) → Layout
  | none => []
  | some bases =>
    [⟨style.newLine 1, .keyword group⟩, ⟨" ", .lbrace⟩, ⟨" ", .ident "inherit"⟩, ⟨" ", .lbracket⟩]
      ++ Layout.words (bases.map QualifiedName.fullName) ++ [⟨"", .rbracket⟩, ⟨" ", .rbrace⟩]

/-- The conventions form. -/
def layout (style : PrintStyle) (gap : String) (c : Conventions) : Layout :=
  [⟨gap, .lparen⟩, ⟨"", .ident "defconventions"⟩]
    ++ layoutGroup style "domainevents" c.domainEvents
    ++ layoutGroup style "commands" c.commands ++ [⟨"", .rparen⟩]

end Conventions

namespace Namespace

/-- The namespace form. -/
def layout (style : PrintStyle) (gap : String) (n : Namespace) : Layout :=
  Declaration.layoutHead gap "namespace" n.name.fullName
    ++ n.declarations.flatMap (Declaration.layout style (style.newLine 1) 1) ++ [⟨"", .rparen⟩]

end Namespace

namespace Document

/-- The gap before a form that is not the first one. -/
def formGap : String := "\n\n"

/-- The forms of a document, and the line break behind the last one. -/
def layout (style : PrintStyle) (d : Document) : Layout :=
  match d.conventions, d.namespaces with
  | none, [] => [⟨"", .eof⟩]
  | none, first :: rest =>
    first.layout style "" ++ rest.flatMap (Namespace.layout style formGap) ++ [⟨"\n", .eof⟩]
  | some conventions, namespaces =>
    conventions.layout style "" ++ namespaces.flatMap (Namespace.layout style formGap)
      ++ [⟨"\n", .eof⟩]

/-- The canonical text of a document. -/
def print (style : PrintStyle) (d : Document) : String := Layout.text (d.layout style)

end Document

end DomainForms
