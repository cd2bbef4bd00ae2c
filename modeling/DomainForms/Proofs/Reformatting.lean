import DomainForms.Proofs.Diagnosis
import DomainForms.Proofs.Document.Printer

/-!
# Reformatting

After reading, places serve errors alone: neither the table of known types, nor resolution, nor
generation looks at one, and an error takes its line and column from the property or the declaration
that it came up in.  So documents that differ in places only have the same answer up to lines and
columns.  A printed document is read as such a document, and a source can be replaced by its printed
form.

* `Error.Alike`: two errors differ at most in line and column.
* `SameAnswer`: two steps have the same result, or errors that are alike.
* `Compiler.compileDocument_unplaced`: a compilation makes no other use of places.
* `Compiler.compile_print`: a source and its printed form have the same answer.
-/

namespace DomainForms

open Outcome

/-! ## Answers up to places -/

/-- Two errors that differ at most in the line and the column. -/
structure Error.Alike (e e' : Error) : Prop where
  cause_eq : e.cause = e'.cause
  source_eq : e.context.map Context.source = e'.context.map Context.source
  frames_eq : e.context.map Context.frames = e'.context.map Context.frames

namespace Error

theorem Alike.refl (e : Error) : e.Alike e := ⟨rfl, rfl, rfl⟩

theorem Alike.symm {e e' : Error} (h : e.Alike e') : e'.Alike e :=
  ⟨h.cause_eq.symm, h.source_eq.symm, h.frames_eq.symm⟩

theorem Alike.trans {e e' e'' : Error} (h : e.Alike e') (h' : e'.Alike e'') : e.Alike e'' :=
  ⟨h.cause_eq.trans h'.cause_eq, h.source_eq.trans h'.source_eq, h.frames_eq.trans h'.frames_eq⟩

theorem alike_inDeclaration (e : Error) (frame : String) (line column line' column' : Nat) :
    (e.inDeclaration frame line column).Alike (e.inDeclaration frame line' column') := by
  obtain ⟨cause, context⟩ := e
  cases context with
  | none => exact ⟨rfl, rfl, rfl⟩
  | some context =>
    obtain ⟨source, known, column, frames⟩ := context
    cases known with
    | none => exact ⟨rfl, rfl, rfl⟩
    | some known => exact ⟨rfl, rfl, rfl⟩

theorem Alike.inSource {e e' : Error} (h : e.Alike e') (name : String) :
    (e.inSource name).Alike (e'.inSource name) := by
  have hgetD : ∀ context : Option Context,
      (context.getD .empty).frames = (context.map Context.frames).getD [] := by
    intro context
    cases context <;> rfl
  have hframes : (e.context.getD .empty).frames = (e'.context.getD .empty).frames := by
    rw [hgetD, hgetD, h.frames_eq]
  exact ⟨h.cause_eq, rfl, congrArg some hframes⟩

end Error

/-- Two steps that both succeed with the same result, or both fail with errors that are alike. -/
inductive SameAnswer {α : Type} : Except Error α → Except Error α → Prop
  | ok (a : α) : SameAnswer (.ok a) (.ok a)
  | error {e e' : Error} : e.Alike e' → SameAnswer (.error e) (.error e')

namespace SameAnswer

variable {α β : Type}

theorem refl (step : Except Error α) : SameAnswer step step := by
  cases step with
  | ok a => exact .ok a
  | error e => exact .error (.refl e)

theorem symm {step step' : Except Error α} (h : SameAnswer step step') : SameAnswer step' step := by
  cases h with
  | ok a => exact .ok a
  | error h => exact .error h.symm

theorem trans {first second third : Except Error α} (h : SameAnswer first second)
    (h' : SameAnswer second third) : SameAnswer first third := by
  cases h with
  | ok a => exact h'
  | error h =>
    cases h' with
    | error h' => exact .error (h.trans h')

theorem bind {step step' : Except Error α} {next next' : α → Except Error β}
    (h : SameAnswer step step') (hnext : ∀ a, SameAnswer (next a) (next' a)) :
    SameAnswer (step >>= next) (step' >>= next') := by
  cases h with
  | ok a => exact hnext a
  | error h => exact .error h

theorem forM {check check' : α → Except Error Unit} (h : ∀ a, SameAnswer (check a) (check' a))
    (items : List α) : SameAnswer (items.forM check) (items.forM check') := by
  induction items with
  | nil => exact .ok ()
  | cons first rest ih => exact (h first).bind fun _ => ih

theorem mapM {step step' : α → Except Error β} (h : ∀ a, SameAnswer (step a) (step' a))
    (items : List α) : SameAnswer (items.mapM step) (items.mapM step') := by
  induction items with
  | nil => exact .ok []
  | cons first rest ih =>
    rw [List.mapM_cons, List.mapM_cons]
    exact (h first).bind fun _ => ih.bind fun _ => .refl _

end SameAnswer

/-! ## Documents without places -/

theorem Declaration.frame_unplaced (scope : QualifiedName) (d : Declaration) :
    d.unplaced.frame scope = d.frame scope := by
  cases d <;> rfl

theorem Declaration.allProperties_unplaced (d : Declaration) :
    d.unplaced.allProperties = d.allProperties.map Property.unplaced := by
  cases d with
  | record kind body => simp [allProperties, properties, nestedCommands, unplaced, Record.unplaced]
  | enumeration body => rfl
  | service body => simp [allProperties, properties, nestedCommands, unplaced, Service.unplaced,
      Record.unplaced, List.flatMap_map, List.map_flatMap]

theorem Document.declarations_unplaced (d : Document) :
    d.unplaced.declarations = d.declarations.map fun (scope, declaration) =>
      (scope.unplaced, declaration.unplaced) := by
  simp only [declarations, unplaced, List.flatMap_map, List.map_flatMap, List.map_map,
    Namespace.unplaced, Function.comp_def]

/-- A property of a document without its places. -/
def Site.unplaced (s : Site) : Site := ⟨s.scope, s.declaration.unplaced, s.property.unplaced⟩

theorem Document.sites_unplaced (d : Document) : d.unplaced.sites = d.sites.map Site.unplaced := by
  simp only [sites, declarations_unplaced, List.flatMap_map, List.map_flatMap,
    Declaration.allProperties_unplaced, List.map_map, Function.comp_def]
  rfl

/-! ## Compilations -/

namespace Compiler

variable {c : Compiler} {d : Document}

theorem settings_unplaced : (c.model d.unplaced).settings = (c.model d).settings := rfl

theorem knownTypes_unplaced : (c.model d.unplaced).knownTypes = (c.model d).knownTypes := by
  rw [knownTypes_model, knownTypes_model, d.knownTypes_unplaced]

theorem sameAnswer_validateProperty (s : Site) :
    SameAnswer
      ((c.model d.unplaced).validateProperty s.scope s.declaration.unplaced s.property.unplaced)
      ((c.model d).validateProperty s.scope s.declaration s.property) := by
  have hresolve : ∀ type, (c.model d.unplaced).resolve s.scope type
      = (c.model d).resolve s.scope type := Model.resolve_congr settings_unplaced knownTypes_unplaced s.scope
  have htype : s.property.unplaced.type = s.property.type := rfl
  simp only [Model.validateProperty, htype, hresolve, Declaration.frame_unplaced]
  cases s.property.type with
  | none => exact .ok ()
  | some type =>
    dsimp only
    cases (c.model d).resolve s.scope type with
    | ok r => exact .ok ()
    | error e => exact .error (e.alike_inDeclaration ..)

theorem sameAnswer_placedTypes (scope : Namespace) (declaration : Declaration) :
    SameAnswer ((c.model d.unplaced).placedTypes scope.unplaced declaration.unplaced)
      ((c.model d).placedTypes scope declaration) := by
  have hbases : ∀ kind : RecordKind, kind.conventionBases (c.model d.unplaced).conventions
      = kind.conventionBases (c.model d).conventions := by
    refine Conventions.bases_override ?_
    show (d.conventions.map Conventions.unplaced).map Conventions.unplaced = _
    rw [Option.map_map]
    rfl
  have htypes : (c.model d.unplaced).declarationTypes scope.name declaration.unplaced
      = (c.model d).declarationTypes scope.name declaration := by
    rw [Model.declarationTypes_congr settings_unplaced knownTypes_unplaced hbases,
      Model.declarationTypes_unplaced]
  have hname : scope.unplaced.name = scope.name := rfl
  rw [Model.placedTypes, Model.placedTypes, hname, htypes, Declaration.frame_unplaced]
  cases (c.model d).declarationTypes scope.name declaration with
  | ok types => exact .ok types
  | error e => exact .error (e.alike_inDeclaration ..)

theorem emptyGroups_unplaced : (c.model d.unplaced).emptyGroups = (c.model d).emptyGroups := by
  simp only [Model.emptyGroups, model, Model.of, Document.withDefaults, Document.unplaced,
    List.map_map]
  rfl

/-- **A compilation uses places for errors alone.** -/
theorem compileDocument_unplaced (c : Compiler) (d : Document) :
    SameAnswer (c.compileDocument d.unplaced) (c.compileDocument d) := by
  have hvalidate : SameAnswer (c.model d.unplaced).validate (c.model d).validate := by
    rw [validate_model, validate_model, knownTypes_unplaced, d.sites_unplaced, List.forM_eq_forM,
      List.forM_map]
    exact (SameAnswer.refl _).bind fun _ => .forM sameAnswer_validateProperty _
  have htypes : SameAnswer (c.model d.unplaced).types (c.model d).types := by
    rw [types_model, types_model, d.declarations_unplaced, List.mapM_map]
    refine SameAnswer.bind ?_ fun _ => .refl _
    exact .mapM (fun entry : Namespace × Declaration => sameAnswer_placedTypes entry.1 entry.2) _
  rw [compileDocument, compileDocument]
  refine hvalidate.bind fun _ => ?_
  rw [Model.generate, Model.generate, emptyGroups_unplaced]
  exact htypes.bind fun _ => .refl _

theorem sameAnswer_compile {source other : String} {d d' : Document}
    (hsource : Document.parse source = .ok d) (hother : Document.parse other = .ok d')
    (htree : d'.unplaced = d.unplaced) : SameAnswer (c.compile source) (c.compile other) := by
  have hanswer : SameAnswer (c.compileDocument d) (c.compileDocument d') := by
    have hboth := (compileDocument_unplaced c d').symm
    rw [htree] at hboth
    exact (hboth.trans (compileDocument_unplaced c d)).symm
  unfold compile
  rw [hsource, hother, ok_bind, ok_bind]
  generalize c.compileDocument d = step, c.compileDocument d' = step' at hanswer
  cases hanswer with
  | ok o => exact .ok o
  | error h =>
    refine .error ?_
    unfold locate
    cases c.sourceName with
    | none => exact h
    | some name => exact h.inSource name

/-- **Reformatting a source does not change what it compiles to**: the source and what is printed for
its document, in any style, both give the same output, or both fail with errors that differ at most
in line and column. -/
theorem compile_print (c : Compiler) {source : String} {d : Document}
    (h : Document.parse source = .ok d) (style : PrintStyle) :
    SameAnswer (c.compile source) (c.compile (d.print style)) := by
  obtain ⟨d', hprint, htree⟩ := Document.exists_parse_print h style
  exact sameAnswer_compile h hprint htree

end Compiler

/-! ### A till -/

namespace Till

/-- A source on one line, with a type that nothing declares. -/
def source : String := "(namespace Till(defcommand Pay(string[] coins,Purse purse)))"

/-- A compiler that refuses unknown names and knows what the source is called. -/
def strictCompiler : Compiler := ⟨.strict, .empty, some "till.lisp"⟩

theorem refused_alike :
    ∃ d e e', Document.parse source = .ok d ∧ strictCompiler.compile source = .error e ∧
      strictCompiler.compile (d.print ⟨3, "It"⟩) = .error e' ∧ e.Alike e' ∧
      e.cause = .unresolvedType "Purse" "Till" := by
  have hread : (Document.parse source).toOption.isSome = true := by decide +kernel
  have hrefused : error? (strictCompiler.compile source) = some
      ⟨.unresolvedType "Purse" "Till",
        some ⟨some "till.lisp", some 1, some 47, ["defcommand Till.Pay"]⟩⟩ := by
    decide +kernel
  have hparse := eq_ok_get hread
  have hcompile := error?_eq_some.1 hrefused
  have hsame := Compiler.compile_print strictCompiler hparse ⟨3, "It"⟩
  rw [hcompile] at hsame
  generalize hprinted : strictCompiler.compile _ = answer at hsame
  cases hsame with
  | error halike => exact ⟨_, _, _, hparse, hcompile, hprinted, halike, rfl⟩

end Till

end DomainForms
