import DomainForms.Document.Defaults
import DomainForms.Document.Parser
import DomainForms.Target.Generation

/-!
# Compiling

From a source to its generated types: read the document, fill in what it leaves open, check that all
names can be resolved, and generate.  The first error ends the compilation.

* `Compiler.compile`: the output of a source.
* `Compiler.compileDocument`: the output of a document that was read already.
-/

namespace DomainForms

/-- What a compilation starts from. -/
structure Compiler where
  /-- The settings. -/
  settings : Settings
  /-- The conventions that those of the source are laid over. -/
  conventions : Conventions
  /-- What errors call the source, if it has a name. -/
  sourceName : Option String

namespace Compiler

/-- The compiler with standard settings, no conventions and no name for the source. -/
def standard : Compiler := ⟨.standard, .empty, none⟩

/-- The model of a document with nothing left open. -/
def model (c : Compiler) (document : Document) : Model :=
  .of c.conventions c.settings (document.withDefaults c.settings.defaultPropertyName)

/-- The output of a document. -/
def compileDocument (c : Compiler) (document : Document) : Except Error Output := do
  let m := c.model document
  m.validate
  m.generate

/-- An error with the name of the source, if it has one. -/
def locate (c : Compiler) (e : Error) : Error :=
  match c.sourceName with
  | some name => e.inSource name
  | none => e

/-- The output of a source. -/
def compile (c : Compiler) (source : String) : Except Error Output :=
  match Document.parse source >>= c.compileDocument with
  | .ok output => .ok output
  | .error e => .error (c.locate e)

end Compiler

end DomainForms
