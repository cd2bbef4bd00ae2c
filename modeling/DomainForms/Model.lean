import DomainForms.KnownType.Table
import DomainForms.Settings
import DomainForms.SystemType

/-!
# The model of a document

A model ties a document to its effective conventions and its table of known types, and resolves the
names that the document mentions.  A name is looked up among the declared types first, from the
namespace around it outwards; then among the system types.  What is still unknown is an error under
strict settings and a reference type otherwise.

* `Model.resolve`: a type reference seen from a namespace.
* `Model.validate`: every type that the document mentions can be resolved.
* `candidates`: the full names that a written name may stand for.
-/

namespace DomainForms

/-- How a type was classified. -/
inductive Origin where
  /-- By its form alone. -/
  | intrinsic
  /-- As a type of the document. -/
  | declared
  /-- As a system type. -/
  | system
  /-- Not at all: it is taken for a reference type. -/
  | assumed
deriving DecidableEq, Repr

/-- A type reference after resolution. -/
structure Resolved where
  /-- The type, with the full name of a declared type in place of the written one. -/
  type : TypeRef
  /-- Whether the type is a value type. -/
  isValueType : Bool
  /-- How the type was classified. -/
  origin : Origin
deriving DecidableEq, Repr

/-- The full names that a written name may stand for inside a namespace, innermost first. -/
def candidates (scope : QualifiedName) (written : String) : List String :=
  (List.range (scope.segments.length + 1)).reverse.map fun depth =>
    if depth = 0 then written else Text.join (scope.segments.take depth) ++ "." ++ written

/-- A document with everything that resolution needs. -/
structure Model where
  /-- The document. -/
  document : Document
  /-- The settings. -/
  settings : Settings
  /-- The effective conventions. -/
  conventions : Conventions
  /-- The table of known types, or why there is none. -/
  knownTypes : Except Error KnownTypes

namespace Model

/-- The model of a document, whose conventions are laid over the given ones. -/
def of (base : Conventions) (settings : Settings) (document : Document) : Model :=
  { document
    settings
    conventions := base.override document.conventions
    knownTypes := KnownTypes.ofList document.knownTypes settings.allowDuplicateTypes }

/-- A name seen from a namespace. -/
def resolveName (m : Model) (scope name : QualifiedName) : Except Error Resolved := do
  let table ← m.knownTypes
  let written := name.fullName
  match (candidates scope written).findSome? table.get? with
  | some known => return ⟨.ofName known.fullName, known.isValueType, .declared⟩
  | none =>
    match systemValueType? name with
    | some isValueType => return ⟨.named name, isValueType, .system⟩
    | none =>
      if m.settings.strictTypeResolution then
        .error (.of (.unresolvedType written scope.fullName))
      else
        return ⟨.named name, false, .assumed⟩

/-- A type reference seen from a namespace. -/
def resolve (m : Model) (scope : QualifiedName) : TypeRef → Except Error Resolved
  | .simple p => .ok ⟨.simple p, true, .intrinsic⟩
  | .nullable p => .ok ⟨.nullable p, true, .intrinsic⟩
  | .string => .ok ⟨.string, false, .intrinsic⟩
  | .array element ranks => do
    let inner ← m.resolve scope element
    return ⟨.array inner.type ranks, false, .intrinsic⟩
  | .named name => m.resolveName scope name

/-- Whether a type seen from a namespace is a value type. -/
def isValueType (m : Model) (scope : QualifiedName) (type : TypeRef) : Except Error Bool :=
  return (← m.resolve scope type).isValueType

end Model

/-- What a declaration is called in the context of an error. -/
def Declaration.frame (scope : QualifiedName) (d : Declaration) : String :=
  d.kind.keyword ++ " " ++ scope.qualify d.name

/-- The properties of a declaration and of the commands inside it. -/
def Declaration.allProperties (d : Declaration) : List Property :=
  d.properties ++ d.nestedCommands.flatMap Record.properties

namespace Model

/-- The type of a property can be resolved, if it is written. -/
def validateProperty (m : Model) (scope : QualifiedName) (d : Declaration) (p : Property) :
    Except Error Unit :=
  match p.type with
  | none => .ok ()
  | some type =>
    match m.resolve scope type with
    | .ok _ => .ok ()
    | .error e => .error (e.inDeclaration (d.frame scope) p.span.line p.span.column)

/-- There is a table, and every type that the document mentions can be resolved. -/
def validate (m : Model) : Except Error Unit := do
  let _ ← m.knownTypes
  m.document.declarations.forM fun (scope, d) =>
    d.allProperties.forM (m.validateProperty scope.name d)

end Model

end DomainForms
