import DomainForms.Document
import DomainForms.Grammar.Parser

/-!
# The grammar

The language as a set of rules, with no word about how it is read.  A phrase is a row of tokens
together with the tree that it stands for; a tree here carries no places, because the rules know
tokens only by what they are.

* `Grammar.Repeated`: any number of phrases in a row.
* `Grammar.TypeForm`, `Grammar.ListForm`, `Grammar.DeclarationForm`, `Grammar.NamespaceForm`: the
  rules of the language, from the inside out.
* `Grammar.DocumentForm`: the rule of a whole source.
* `Document.unplaced`: a tree without its places.
-/

namespace DomainForms

/-! ## Trees without places -/

/-- A property without its place. -/
def Property.unplaced (p : Property) : Property := { p with span := .none }

/-- A record without its places. -/
def Record.unplaced (r : Record) : Record :=
  ⟨r.name, r.properties.map Property.unplaced, .none⟩

/-- An enumeration without its place. -/
def Enumeration.unplaced (e : Enumeration) : Enumeration := { e with span := .none }

/-- A service without its places. -/
def Service.unplaced (s : Service) : Service :=
  ⟨s.name, s.commands.map Record.unplaced, .none⟩

/-- A declaration without its places. -/
def Declaration.unplaced : Declaration → Declaration
  | record kind body => record kind body.unplaced
  | enumeration body => enumeration body.unplaced
  | service body => service body.unplaced

/-- Conventions without their place. -/
def Conventions.unplaced (c : Conventions) : Conventions := { c with span := .none }

/-- A namespace without its places. -/
def Namespace.unplaced (n : Namespace) : Namespace :=
  ⟨n.name, n.declarations.map Declaration.unplaced, .none⟩

/-- A document without its places. -/
def Document.unplaced (d : Document) : Document :=
  ⟨d.conventions.map Conventions.unplaced, d.namespaces.map Namespace.unplaced⟩

namespace Grammar

/-- A rule of the grammar: which rows of tokens stand for which trees. -/
abbrev Rule (α : Type) : Type := List Token.Kind → α → Prop

/-- Any number of phrases of one rule in a row. -/
inductive Repeated {α : Type} (item : Rule α) : Rule (List α)
  | nil : Repeated item [] []
  | cons {kinds more : List Token.Kind} {a : α} {rest : List α} :
      item kinds a → Repeated item more rest → Repeated item (kinds ++ more) (a :: rest)

/-! ## Names -/

/-- A name: any identifier that is not reserved. -/
inductive NameForm : Rule String
  | mk {name : String} : isReserved name = false → NameForm [.ident name] name

/-- A simple name: an identifier without a dot. -/
inductive SimpleForm : Rule String
  | mk {name : String} : Text.isDotted name = false → SimpleForm [.ident name] name

/-! ## Types -/

/-- The two symbols of a type: a base, and a base that may have brackets behind it. -/
inductive TypeSymbol where
  | base
  | type
deriving DecidableEq, Repr

/-- The rules of a type.  A base is a primitive with or without a question mark, the string type, any
other name, or a type in parentheses; only a base that is no array takes brackets. -/
inductive TypeForm : TypeSymbol → Rule TypeRef
  | primitive {name : String} {p : Primitive} :
      Primitive.ofName? name = some p → TypeForm .base [.ident name] (.simple p)
  | nullable {name : String} {p : Primitive} :
      Primitive.ofName? name = some p → TypeForm .base [.ident name, .question] (.nullable p)
  | string {name : String} :
      isStringName name = true → TypeForm .base [.ident name] .string
  | named {name : String} :
      isReserved name = false → Primitive.ofName? name = none → isStringName name = false →
      TypeForm .base [.ident name] (.ofName name)
  | parens {kinds : List Token.Kind} {t : TypeRef} :
      TypeForm .type kinds t → TypeForm .base (.lparen :: kinds ++ [.rparen]) t
  | plain {kinds : List Token.Kind} {t : TypeRef} :
      TypeForm .base kinds t → TypeForm .type kinds t
  | array {kinds : List Token.Kind} {t : TypeRef} :
      TypeForm .base kinds t → t.isArray = false →
      TypeForm .type (kinds ++ [.lbracket, .rbracket]) (.arrayOf t)

/-! ## Properties -/

/-- A property: a type and a simple name. -/
inductive PropertyForm : Rule Property
  | mk {kinds more : List Token.Kind} {t : TypeRef} {name : String} :
      TypeForm .type kinds t → SimpleForm more name →
      PropertyForm (kinds ++ more) ⟨some name, some t, .none⟩

/-- A comma and a property. -/
inductive NextPropertyForm : Rule Property
  | mk {kinds : List Token.Kind} {p : Property} :
      PropertyForm kinds p → NextPropertyForm (.comma :: kinds) p

/-- A list of properties in parentheses, with commas between them. -/
inductive ListForm : Rule (List Property)
  | empty : ListForm [.lparen, .rparen] []
  | cons {kinds more : List Token.Kind} {p : Property} {rest : List Property} :
      PropertyForm kinds p → Repeated NextPropertyForm more rest →
      ListForm (.lparen :: (kinds ++ (more ++ [.rparen]))) (p :: rest)

/-! ## Declarations -/

/-- What stands behind the word of a command, a domain event or a data-transfer object. -/
inductive RecordRest : Rule Record
  | bare {kinds : List Token.Kind} {name : String} :
      NameForm kinds name → RecordRest (kinds ++ [.rparen]) ⟨name, [], .none⟩
  | listed {kinds more : List Token.Kind} {name : String} {properties : List Property} :
      NameForm kinds name → ListForm more properties →
      RecordRest (kinds ++ (more ++ [.rparen])) ⟨name, properties, .none⟩

/-- What stands behind the word of a value type: nothing, a type or a list follows the name. -/
inductive ValueRest : Rule Record
  | bare {kinds : List Token.Kind} {name : String} :
      NameForm kinds name → ValueRest (kinds ++ [.rparen]) ⟨name, [⟨none, none, .none⟩], .none⟩
  | typed {kinds more : List Token.Kind} {name : String} {t : TypeRef} :
      NameForm kinds name → TypeForm .type more t →
      ValueRest (kinds ++ (more ++ [.rparen])) ⟨name, [⟨none, some t, .none⟩], .none⟩
  | listed {kinds more : List Token.Kind} {name : String} {properties : List Property} :
      NameForm kinds name → ListForm more properties →
      ValueRest (kinds ++ (more ++ [.rparen])) ⟨name, properties, .none⟩

/-- What stands behind the word of an enumeration: a name and simple names in brackets. -/
inductive EnumerationRest : Rule Enumeration
  | mk {kinds more : List Token.Kind} {name : String} {values : List String} :
      NameForm kinds name → Repeated SimpleForm more values →
      EnumerationRest (kinds ++ .lbracket :: (more ++ [.rbracket, .rparen])) ⟨name, values, .none⟩

/-- A command inside a service. -/
inductive CommandForm : Rule Record
  | mk {kinds : List Token.Kind} {command : Record} :
      RecordRest kinds command → CommandForm (.lparen :: .ident "defcommand" :: kinds) command

/-- What stands behind the word of a service: a name and at least one command. -/
inductive ServiceRest : Rule Service
  | mk {kinds more : List Token.Kind} {name : String} {commands : List Record} :
      NameForm kinds name → Repeated CommandForm more commands → commands ≠ [] →
      ServiceRest (kinds ++ (more ++ [.rparen])) ⟨name, commands, .none⟩

/-- A declaration of any kind. -/
inductive DeclarationForm : Rule Declaration
  | valueType {kinds : List Token.Kind} {body : Record} :
      ValueRest kinds body →
      DeclarationForm (.lparen :: .ident "defvaluetype" :: kinds) (.record .valueType body)
  | command {kinds : List Token.Kind} {body : Record} :
      RecordRest kinds body →
      DeclarationForm (.lparen :: .ident "defcommand" :: kinds) (.record .command body)
  | domainEvent {kinds : List Token.Kind} {body : Record} :
      RecordRest kinds body →
      DeclarationForm (.lparen :: .ident "defdomainevent" :: kinds) (.record .domainEvent body)
  | dto {kinds : List Token.Kind} {body : Record} :
      RecordRest kinds body →
      DeclarationForm (.lparen :: .ident "defdto" :: kinds) (.record .dto body)
  | enumeration {kinds : List Token.Kind} {body : Enumeration} :
      EnumerationRest kinds body →
      DeclarationForm (.lparen :: .ident "defenum" :: kinds) (.enumeration body)
  | service {kinds : List Token.Kind} {body : Service} :
      ServiceRest kinds body →
      DeclarationForm (.lparen :: .ident "defapplicationservice" :: kinds) (.service body)

/-! ## Forms of a source -/

/-- The names of base types in their braces. -/
inductive BasesForm : Rule (List QualifiedName)
  | mk {kinds : List Token.Kind} {names : List String} :
      Repeated NameForm kinds names →
      BasesForm (.lbrace :: .ident "inherit" :: .lbracket :: (kinds ++ [.rbracket, .rbrace]))
        (names.map QualifiedName.parse)

/-- A group of conventions: its word and its base types. -/
inductive GroupForm : Rule (String × List QualifiedName)
  | mk {kinds : List Token.Kind} {word : String} {bases : List QualifiedName} :
      word = "domainevents" ∨ word = "commands" → BasesForm kinds bases →
      GroupForm (.keyword word :: kinds) (word, bases)

/-- The conventions: groups in any order, no word twice. -/
inductive ConventionsForm : Rule Conventions
  | mk {kinds : List Token.Kind} {groups : List (String × List QualifiedName)} :
      Repeated GroupForm kinds groups → (groups.map Prod.fst).Nodup →
      ConventionsForm (.lparen :: .ident "defconventions" :: (kinds ++ [.rparen]))
        ⟨groups.lookup "domainevents", groups.lookup "commands", .none⟩

/-- A namespace with its declarations. -/
inductive NamespaceForm : Rule Namespace
  | mk {kinds more : List Token.Kind} {name : String} {declarations : List Declaration} :
      NameForm kinds name → Repeated DeclarationForm more declarations →
      NamespaceForm (.lparen :: .ident "namespace" :: (kinds ++ (more ++ [.rparen])))
        ⟨.parse name, declarations, .none⟩

/-- A whole source: namespaces, and conventions in front of them or not. -/
inductive DocumentForm : Rule Document
  | bare {kinds : List Token.Kind} {namespaces : List Namespace} :
      Repeated NamespaceForm kinds namespaces → DocumentForm kinds ⟨none, namespaces⟩
  | conventional {kinds more : List Token.Kind} {conventions : Conventions}
      {namespaces : List Namespace} :
      ConventionsForm kinds conventions → Repeated NamespaceForm more namespaces →
      DocumentForm (kinds ++ more) ⟨some conventions, namespaces⟩

end Grammar

end DomainForms
