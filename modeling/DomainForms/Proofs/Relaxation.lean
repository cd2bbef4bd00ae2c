import DomainForms.Proofs.Target.Transfer

/-!
# Relaxed settings

Settings decide twice whether a document is refused: for a full name that repeats, and for a name
that nothing declares.  They decide nothing else about types.  So settings that refuse less, and give
the same names, give every document that compiled before the output that it had.

* `Settings.Relaxes`: settings that refuse less.
* `Compiler.knownTypes_of_relaxes`, `Compiler.follows_of_relaxes`: the same table and the same answers
  of resolution.
* `Compiler.compileDocument_of_relaxes`: **relaxing the settings changes no output.**
-/

namespace DomainForms

/-- The second settings refuse nothing that the first ones accept, and give the same names. -/
structure Settings.Relaxes (s t : Settings) : Prop extends s.SameNames t where
  /-- Unknown names are refused as before, or no longer. -/
  strict : t.strictTypeResolution = false ∨ t.strictTypeResolution = s.strictTypeResolution
  /-- Full names may repeat as before, or always. -/
  duplicates : t.allowDuplicateTypes = true ∨ t.allowDuplicateTypes = s.allowDuplicateTypes

namespace Compiler

variable {c c' : Compiler} (hsettings : c.settings.Relaxes c'.settings) {d : Document}

include hsettings

theorem knownTypes_of_relaxes {table : KnownTypes} (h : (c.model d).knownTypes = .ok table) :
    (c'.model d).knownTypes = .ok table := by
  rw [knownTypes_model] at h ⊢
  obtain ⟨hnodup, hfold⟩ := KnownTypes.ofList_eq_ok.1 h
  refine KnownTypes.ofList_eq_ok.2 ⟨fun hrefused => hnodup ?_, hfold⟩
  rcases hsettings.duplicates with hallowed | hsame
  · rw [hallowed] at hrefused
    cases hrefused
  · rw [← hsame]
    exact hrefused

theorem follows_of_relaxes {table : KnownTypes} (h : (c.model d).knownTypes = .ok table)
    (scope : QualifiedName) (type : TypeRef) :
    (c.model d).Follows (c'.model d) scope type := by
  have hstrict : c'.settings.strictTypeResolution = true → c.settings.strictTypeResolution = true := by
    intro hrefused
    rcases hsettings.strict with hlax | hsame
    · rw [hlax] at hrefused
      cases hrefused
    · rw [← hsame]
      exact hrefused
  exact Model.follows_of_names fun name _ => Model.follows_of_table h
    (knownTypes_of_relaxes hsettings h) (fun _ _ => rfl) hstrict

/-- **Relaxing the settings changes no output.**  A document that compiles under some settings
compiles to the same output under settings that refuse less, name members alike, and start from the
same conventions. -/
theorem compileDocument_of_relaxes (hconventions : c'.conventions = c.conventions) {o : Output}
    (h : c.compileDocument d = .ok o) : c'.compileDocument d = .ok o := by
  obtain ⟨⟨table, htable⟩, hgenerate⟩ := compileDocument_eq_ok.1 h
  obtain ⟨types, htypes, rfl⟩ := Model.generate_eq_ok.1 hgenerate
  obtain ⟨lists, hlists, hflat⟩ := types_eq_ok_written.1 htypes
  have hbases : ∀ kind : RecordKind, kind.conventionBases (c'.model d).conventions
      = kind.conventionBases (c.model d).conventions := by
    intro kind
    show kind.conventionBases (c'.conventions.override _) = _
    rw [hconventions]
    rfl
  have hlists' := Model.forall₂_of_follows (n := c'.model d) hsettings.toSameNames hbases
    (fun scope _ _ _ _ type _ => follows_of_relaxes hsettings htable scope.name type) hlists
  have htypes' : (c'.model d).types = .ok types := types_eq_ok_written.2 ⟨lists, hlists', hflat⟩
  refine compileDocument_eq_ok.2 ⟨⟨table, knownTypes_of_relaxes hsettings htable⟩, ?_⟩
  exact Model.generate_eq_ok.2 ⟨types, htypes', by rw [scopeNames_model, scopeNames_model]⟩

end Compiler

/-! ### A pharmacy -/

namespace Pharmacy

/-- A command in a service, with a property of a declared type and an array of a system type. -/
def dispensing : Declaration :=
  .service ⟨"Counter", [⟨"Dispense", [⟨some "Dose", some (.named ⟨["Dose"]⟩), .none⟩,
    ⟨some "Leaflets", some (.arrayOf (.named ⟨["Uri"]⟩)), .none⟩], .none⟩], .none⟩

def dose : Declaration := .record .valueType ⟨"Dose", [⟨none, some (.simple .decimal), .none⟩], .none⟩

/-- A document that knows all its names. -/
def document : Document := ⟨none, [⟨⟨["Pharmacy"]⟩, [dispensing, dose], .none⟩]⟩

def strictCompiler : Compiler := ⟨.strict, .empty, none⟩

def lenientCompiler : Compiler := ⟨.lenient, .empty, none⟩

theorem compile_leniently :
    strictCompiler.settings.Relaxes lenientCompiler.settings ∧
      lenientCompiler.conventions = strictCompiler.conventions ∧
      ∃ o, strictCompiler.compileDocument document = .ok o ∧
        lenientCompiler.compileDocument document = .ok o := by
  have hrelaxes : strictCompiler.settings.Relaxes lenientCompiler.settings :=
    ⟨⟨rfl, rfl, rfl⟩, Or.inl rfl, Or.inl rfl⟩
  have hcompiles : (strictCompiler.compileDocument document).toOption.isSome = true := by
    decide +kernel
  have ho := Outcome.eq_ok_get hcompiles
  exact ⟨hrelaxes, rfl, _, ho, Compiler.compileDocument_of_relaxes hrelaxes rfl ho⟩

end Pharmacy

end DomainForms
