/-!
# Errors

Every failure of reading, resolving, generating or evaluating is one error: a cause, and sometimes
the place in the input that was being worked on.

* `Error.Cause.message`: the wording of a cause.
* `Error.inDeclaration`, `Error.inSource`: an error with more said about its place.
* `Error.Context.text`: the wording of a place.
-/

namespace DomainForms

namespace Error

/-- What went wrong. -/
inductive Cause where
  /-- The source is not in the language. -/
  | parse (production message : String) (offset line column : Nat) (lineText : String)
  /-- An array type that cannot be compared item by item. -/
  | unsupportedArrayShape (owner property shape : String)
  /-- A full name that is declared twice. -/
  | duplicateType (name : String)
  /-- A name that is neither declared nor a system type. -/
  | unresolvedType (name scope : String)
  /-- A body of generated code that cannot be run. -/
  | evaluation (text : String)
  /-- A member name that occurs twice in one type. -/
  | duplicateMember (owner member : String)
deriving DecidableEq, Repr

/-- The wording of a cause. -/
def Cause.message : Cause → String
  | parse production message offset line column _ =>
    "parse error at " ++ toString line ++ ":" ++ toString column ++ " (offset " ++ toString offset
      ++ "): expected " ++ production ++ ": " ++ message
  | unsupportedArrayShape owner property shape =>
    "unsupported array shape " ++ shape ++ " on " ++ owner ++ "." ++ property
      ++ ": only single-rank, one-dimensional arrays support equality"
  | duplicateType name => "duplicate type declaration: " ++ name
  | unresolvedType name scope => "unresolved type " ++ name ++ " in namespace " ++ scope
  | evaluation text => "evaluation error: " ++ text
  | duplicateMember owner member => "duplicate member " ++ member ++ " on " ++ owner

/-- The place that was being worked on. -/
structure Context where
  /-- Name of the source. -/
  source : Option String
  /-- Line in the source. -/
  line : Option Nat
  /-- Column in the source. -/
  column : Option Nat
  /-- The declarations around the place, innermost first. -/
  frames : List String
deriving DecidableEq, Repr

namespace Context

/-- The place of which nothing is known. -/
def empty : Context := ⟨none, none, none, []⟩

/-- The source and the place in it, where they are known. -/
def locationText (c : Context) : String :=
  match c.source, c.line, c.column with
  | some source, some line, some column =>
    "at " ++ source ++ ":" ++ toString line ++ ":" ++ toString column
  | some source, _, _ => "at " ++ source
  | none, _, _ => ""

/-- The wording of a place. -/
def text (c : Context) : String :=
  c.locationText ++
    if c.frames.isEmpty then ""
    else "\n" ++ String.join (c.frames.map fun frame => "  in " ++ frame ++ "\n")

end Context

end Error

/-- A failure. -/
structure Error where
  /-- What went wrong. -/
  cause : Error.Cause
  /-- The place that was being worked on, if it is known. -/
  context : Option Error.Context
deriving DecidableEq, Repr

namespace Error

/-- An error of which only the cause is known. -/
def of (cause : Cause) : Error := ⟨cause, none⟩

/-- The wording of an error. -/
def message (e : Error) : String := e.cause.message

/-- An error seen from the declaration around it.  A place that is already known is kept, as it is
the inner one. -/
def inDeclaration (e : Error) (frame : String) (line column : Nat) : Error :=
  let context := e.context.getD .empty
  let framed := { context with frames := context.frames ++ [frame] }
  match context.line with
  | some _ => { e with context := some framed }
  | none => { e with context := some { framed with line := some line, column := some column } }

/-- An error with the name of the source that it came from. -/
def inSource (e : Error) (source : String) : Error :=
  { e with context := some { e.context.getD .empty with source := some source } }

/-- The production that failed, for a source that is not in the language. -/
def production? (e : Error) : Option String :=
  match e.cause with
  | .parse production .. => some production
  | _ => none

/-- The byte offset of the failure, for a source that is not in the language. -/
def offset? (e : Error) : Option Nat :=
  match e.cause with
  | .parse _ _ offset .. => some offset
  | _ => none

/-- Whether the source is not in the language. -/
def isParseError (e : Error) : Bool := e.production?.isSome

end Error

end DomainForms
