import DomainForms.Proofs.Resolution
import DomainForms.Proofs.Target.Record

/-!
# Successful compilations

A compilation checks first that every written type can be resolved, and resolves all of them again
when it generates.  So it succeeds exactly if there is a table of known types and generation
succeeds: the check in between decides which error is reported, but not whether there is one.

* `Model.validate_eq_ok`: what the check asks for.
* `Model.resolvesAll_of_generate`: generation asks for the same.
* `Compiler.compileDocument_eq_ok`: when a document compiles, and to what.
-/

namespace DomainForms

namespace Model

variable {m : Model}

/-- Every type that a document writes down can be resolved where it stands. -/
def ResolvesAll (m : Model) : Prop :=
  ∀ scope d, (scope, d) ∈ m.document.declarations → ∀ p ∈ d.allProperties, ∀ type,
    p.type = some type → ∃ r, m.resolve scope.name type = .ok r

theorem validateProperty_eq_ok {scope : QualifiedName} {d : Declaration} {p : Property} :
    m.validateProperty scope d p = .ok () ↔
      ∀ type, p.type = some type → ∃ r, m.resolve scope type = .ok r := by
  rw [validateProperty]
  cases p.type with
  | none => simp
  | some type => cases hr : m.resolve scope type <;> simp [hr]

/-- **What the check asks for**: a table, and a resolution for every written type. -/
theorem validate_eq_ok :
    m.validate = .ok () ↔ (∃ table, m.knownTypes = .ok table) ∧ m.ResolvesAll := by
  rw [validate, Outcome.bind_eq_ok, exists_and_right, Outcome.forM_eq_ok]
  refine and_congr_right fun _ => ?_
  simp only [ResolvesAll, Prod.forall, Outcome.forM_eq_ok, validateProperty_eq_ok]

/-! ## Generation resolves everything -/

theorem exists_resolve_of_recordType {scope : QualifiedName} {kind : RecordKind} {r : Record}
    {t : TypeDefinition} (h : m.recordType scope kind r = .ok t) {p : Property}
    (hp : p ∈ r.properties) :
    ∃ resolved, m.resolve scope (p.type.getD .default) = .ok resolved := by
  obtain ⟨slots, hslots, -⟩ := isRecord_of_recordType h
  obtain ⟨s, -, hs⟩ := Outcome.exists_of_mem_forall₂ (Outcome.mapM_eq_ok.mp hslots) hp
  obtain ⟨-, resolved, hr, -⟩ := slot_eq_ok hs
  exact ⟨resolved, hr⟩

theorem exists_resolve_of_declarationTypes {scope : QualifiedName} {d : Declaration}
    {types : List TypeDefinition} (h : m.declarationTypes scope d = .ok types) {p : Property}
    (hp : p ∈ d.allProperties) :
    ∃ resolved, m.resolve scope (p.type.getD .default) = .ok resolved := by
  cases d with
  | record kind body =>
    obtain ⟨t, ht, -⟩ := Outcome.bind_eq_ok.mp h
    have hall : (Declaration.record kind body).allProperties = body.properties := List.append_nil _
    rw [hall] at hp
    exact exists_resolve_of_recordType ht hp
  | enumeration body => cases hp
  | service body =>
    obtain ⟨commands, hcommands, -⟩ := Outcome.bind_eq_ok.mp h
    obtain ⟨r, hr, hp⟩ := List.mem_flatMap.mp hp
    obtain ⟨t, -, ht⟩ := Outcome.exists_of_mem_forall₂ (Outcome.mapM_eq_ok.mp hcommands) hr
    exact exists_resolve_of_recordType ht hp

/-- **Generation resolves every type that the document writes down.** -/
theorem resolvesAll_of_generate {o : Output} (h : m.generate = .ok o) : m.ResolvesAll := by
  obtain ⟨types, htypes, -⟩ := generate_eq_ok.mp h
  obtain ⟨lists, hlists, -⟩ := types_eq_ok.mp htypes
  intro scope d hd p hp type htype
  obtain ⟨list, -, hlist⟩ := Outcome.exists_of_mem_forall₂ hlists hd
  obtain ⟨resolved, hr⟩ := exists_resolve_of_declarationTypes hlist hp
  rw [htype] at hr
  exact ⟨resolved, hr⟩

end Model

namespace Compiler

variable {c : Compiler}

/-- **When a document compiles**, and to what: there is a table of known types, and generation
succeeds. -/
theorem compileDocument_eq_ok {d : Document} {o : Output} :
    c.compileDocument d = .ok o ↔
      (∃ table, (c.model d).knownTypes = .ok table) ∧ (c.model d).generate = .ok o := by
  rw [compileDocument, Outcome.bind_eq_ok]
  constructor
  · rintro ⟨_, hvalid, hgen⟩
    exact ⟨(Model.validate_eq_ok.mp hvalid).1, hgen⟩
  · rintro ⟨htable, hgen⟩
    exact ⟨(), Model.validate_eq_ok.mpr ⟨htable, Model.resolvesAll_of_generate hgen⟩, hgen⟩

theorem compile_eq_ok_iff {source : String} {o : Output} :
    c.compile source = .ok o ↔
      ∃ d, Document.parse source = .ok d ∧ c.compileDocument d = .ok o := by
  refine Iff.trans ?_ Outcome.bind_eq_ok
  unfold compile
  cases Document.parse source >>= c.compileDocument with
  | ok output => exact Iff.rfl
  | error e =>
    constructor
    · intro h
      cases h
    · intro h
      cases h

theorem compileDocument_of_compile {source : String} {d : Document} {o : Output}
    (hparse : Document.parse source = .ok d) (h : c.compile source = .ok o) :
    c.compileDocument d = .ok o := by
  obtain ⟨d', hparse', h⟩ := compile_eq_ok_iff.mp h
  rw [hparse] at hparse'
  cases hparse'
  exact h

theorem knownTypes_model (c : Compiler) (d : Document) :
    (c.model d).knownTypes = KnownTypes.ofList d.knownTypes c.settings.allowDuplicateTypes := by
  rw [← Document.knownTypes_withDefaults c.settings.defaultPropertyName d]
  rfl

theorem scopeNames_model (c : Compiler) (d : Document) :
    (c.model d).document.scopeNames = d.scopeNames := by
  show List.map _ (List.map _ d.namespaces) = _
  rw [List.map_map]
  rfl

theorem nodup_knownTypes (hdup : c.settings.allowDuplicateTypes = false) {d : Document} {o : Output}
    (h : c.compileDocument d = .ok o) : (d.knownTypes.map KnownType.fullName).Nodup := by
  obtain ⟨⟨table, htable⟩, -⟩ := compileDocument_eq_ok.mp h
  rw [knownTypes_model] at htable
  exact (KnownTypes.ofList_eq_ok.mp htable).1 hdup

end Compiler

end DomainForms
