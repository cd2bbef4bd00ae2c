import DomainForms.Model

/-!
# Asking a model

A model is asked one thing after another.  The first question that needs the table of known types
builds it, and the session keeps it for the questions that follow.  A table that cannot be built is
not kept, so every question that needs it fails in the same way.

* `Session`: a question under way.
* `Model.ask`: the answer to one question, and what the session keeps after it.
* `Model.askAll`: the answers to questions asked one after the other.
* `Model.answer`: the answer to a question asked outside of any session.
-/

namespace DomainForms

/-- A question under way.  It may fail, and the session keeps the table of known types, if it was
built, in either case. -/
abbrev Session := ExceptT Error (StateM (Option KnownTypes))

/-- What a model may be asked. -/
inductive Question where
  /-- What a type stands for, seen from a namespace. -/
  | type (scope : QualifiedName) (type : TypeRef)
  /-- Whether a type, seen from a namespace, is a value type. -/
  | isValueType (scope : QualifiedName) (type : TypeRef)
  /-- Which types are known. -/
  | knownTypes
  /-- Whether every type that the document mentions can be resolved. -/
  | validity
deriving DecidableEq, Repr

/-- What a model answers if nothing fails. -/
inductive Answer where
  | type (resolved : Resolved)
  | isValueType (isValueType : Bool)
  | knownTypes (table : KnownTypes)
  | valid
deriving DecidableEq, Repr

namespace Model

variable (m : Model)

/-- The answer to a question asked outside of any session. -/
def answer : Question → Except Error Answer
  | .type scope type => .type <$> m.resolve scope type
  | .isValueType scope type => .isValueType <$> m.isValueType scope type
  | .knownTypes => .knownTypes <$> m.knownTypes
  | .validity => (fun _ => .valid) <$> m.validate

/-! ## Questions in a session -/

/-- The table that the session has kept, or else a new one, which it keeps from then on. -/
def askTable : Session KnownTypes := do
  match ← get with
  | some table => return table
  | none =>
    let table ← ofExcept m.knownTypes
    set (some table)
    return table

/-- The model with a given table. -/
def withTable (table : KnownTypes) : Model := { m with knownTypes := .ok table }

/-- A type reference seen from a namespace.  Only a name needs the table. -/
def askType (scope : QualifiedName) : TypeRef → Session Resolved
  | .named name => do
    let table ← m.askTable
    ofExcept ((m.withTable table).resolveName scope name)
  | .array element ranks => do
    let inner ← askType scope element
    return ⟨.array inner.type ranks, false, .intrinsic⟩
  | type => ofExcept (m.resolve scope type)

/-- Whether a type seen from a namespace is a value type. -/
def askValueType (scope : QualifiedName) (type : TypeRef) : Session Bool :=
  return (← m.askType scope type).isValueType

/-- The type of a property can be resolved, if it is written. -/
def askProperty (scope : QualifiedName) (d : Declaration) (p : Property) : Session Unit :=
  match p.type with
  | none => return
  | some type =>
    tryCatch (discard (m.askType scope type)) fun e =>
      throw (e.inDeclaration (d.frame scope) p.span.line p.span.column)

/-- There is a table, and every type that the document mentions can be resolved. -/
def askValidity : Session Unit := do
  let _ ← m.askTable
  m.document.declarations.forM fun (scope, d) =>
    d.allProperties.forM (m.askProperty scope.name d)

/-- One question. -/
def ask : Question → Session Answer
  | .type scope type => .type <$> m.askType scope type
  | .isValueType scope type => .isValueType <$> m.askValueType scope type
  | .knownTypes => .knownTypes <$> m.askTable
  | .validity => (fun _ => .valid) <$> m.askValidity

/-- One question after the other.  A failure does not end the session. -/
def askAll (questions : List Question) : StateM (Option KnownTypes) (List (Except Error Answer)) :=
  questions.mapM fun question => (m.ask question).run

end Model

end DomainForms
