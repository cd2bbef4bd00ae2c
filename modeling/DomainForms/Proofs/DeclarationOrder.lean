import DomainForms.Proofs.Compilation
import Mathlib.Data.List.Perm.Basic

/-!
# The order of declarations

What a declaration becomes depends on the declaration, the namespace around it, the settings, the
conventions and the table of known types, but on nothing else of the document: neither on where it
stands nor on what was generated before it.  Since the table does not depend on the order of the
declarations either, they may be written in any order, and in any division into namespace forms.

* `Document.content`: the declarations with their namespaces, which is all that matters.
* `Model.declarationTypes_congr`: what the types of a declaration depend on.
* `Compiler.types_eq_ok`: the types of a document follow from its content.
* `Compiler.compileDocument_order_irrelevant`: rearranged content compiles to the same types.
-/

namespace DomainForms

/-- Every declaration with the name of the namespace around it, in order and without places. -/
def Document.content (d : Document) : List (QualifiedName × Declaration) :=
  d.declarations.map fun (scope, declaration) => (scope.name, declaration.unplaced)

theorem Document.knownTypes_content (d : Document) :
    d.knownTypes = d.content.flatMap fun (scope, declaration) => declaration.knownTypes scope := by
  rw [content, List.flatMap_map, knownTypes]
  simp only [Declaration.knownTypes_unplaced]

namespace Model

variable {m n : Model}

/-! ## What a declaration becomes -/

theorem resolve_congr (hs : m.settings = n.settings) (ht : m.knownTypes = n.knownTypes)
    (scope : QualifiedName) : ∀ type : TypeRef, m.resolve scope type = n.resolve scope type := by
  intro type
  induction type with
  | simple p => rfl
  | nullable p => rfl
  | string => rfl
  | named name => rw [resolve, resolve, resolveName, resolveName, hs, ht]
  | array element ranks ih => rw [resolve, resolve, ih]

/-- A record type depends on the properties only through their slots. -/
theorem recordType_congr (hslot : m.slot = n.slot)
    (hbases : ∀ kind : RecordKind,
      kind.conventionBases m.conventions = kind.conventionBases n.conventions)
    (scope : QualifiedName) (kind : RecordKind) {r s : Record} (hname : r.name = s.name)
    (hprops : r.properties.mapM (n.slot scope) = s.properties.mapM (n.slot scope)) :
    m.recordType scope kind r = n.recordType scope kind s := by
  rw [recordType, recordType, hslot, hbases, hname, hprops]

/-- **What the types of a declaration depend on**: the settings, the table and the base types of the
conventions. -/
theorem declarationTypes_congr (hs : m.settings = n.settings) (ht : m.knownTypes = n.knownTypes)
    (hbases : ∀ kind : RecordKind,
      kind.conventionBases m.conventions = kind.conventionBases n.conventions)
    (scope : QualifiedName) (d : Declaration) :
    m.declarationTypes scope d = n.declarationTypes scope d := by
  have hslot : m.slot = n.slot := by
    funext scope p
    rw [slot, slot, hs, resolve_congr hs ht]
  have hrecord : ∀ kind, m.recordType scope kind = n.recordType scope kind := by
    intro kind
    funext r
    exact recordType_congr hslot hbases scope kind rfl rfl
  cases d with
  | record kind body => rw [declarationTypes, declarationTypes, hrecord]
  | enumeration body => rfl
  | service body => rw [declarationTypes, declarationTypes, serviceTypes, serviceTypes, hs, hrecord]

/-! ## Places and defaults do not matter -/

theorem recordType_of_slots {scope : QualifiedName} {f : Property → Property}
    (hf : ∀ p, m.slot scope (f p) = m.slot scope p) (kind : RecordKind) {r s : Record}
    (hname : s.name = r.name) (hprops : s.properties = r.properties.map f) :
    m.recordType scope kind s = m.recordType scope kind r := by
  refine recordType_congr rfl (fun _ => rfl) scope kind hname ?_
  rw [hprops, List.mapM_map, show m.slot scope ∘ f = m.slot scope from funext hf]

theorem serviceTypes_of_commands {scope : QualifiedName} {f : Record → Record}
    (hf : ∀ r, m.recordType scope .command (f r) = m.recordType scope .command r)
    (hfname : ∀ r, (f r).name = r.name) {s u : Service} (hname : u.name = s.name)
    (hcommands : u.commands = s.commands.map f) :
    m.serviceTypes scope u = m.serviceTypes scope s := by
  have hinterface : interfaceType m.settings scope u = interfaceType m.settings scope s := by
    simp [interfaceType, operationOf, hname, hcommands, hfname]
  rw [serviceTypes, serviceTypes, hinterface, hcommands, List.mapM_map,
    show m.recordType scope .command ∘ f = m.recordType scope .command from funext hf]

/-- **What a declaration becomes does not depend on where it stands.** -/
theorem declarationTypes_unplaced (scope : QualifiedName) (d : Declaration) :
    m.declarationTypes scope d.unplaced = m.declarationTypes scope d := by
  have hslot : ∀ p : Property, m.slot scope p.unplaced = m.slot scope p := fun _ => rfl
  have hrecord : ∀ kind (r : Record),
      m.recordType scope kind r.unplaced = m.recordType scope kind r :=
    fun kind _ => recordType_of_slots hslot kind rfl rfl
  cases d with
  | record kind body => rw [Declaration.unplaced, declarationTypes, declarationTypes, hrecord]
  | enumeration body => rfl
  | service body => exact serviceTypes_of_commands (hrecord .command) (fun _ => rfl) rfl rfl

/-- **What a declaration becomes does not depend on whether its open parts were filled in.** -/
theorem declarationTypes_withDefaults (scope : QualifiedName) (d : Declaration) :
    m.declarationTypes scope (d.withDefaults m.settings.defaultPropertyName)
      = m.declarationTypes scope d := by
  have hslot : ∀ p : Property,
      m.slot scope (p.withDefaults m.settings.defaultPropertyName) = m.slot scope p := fun _ => rfl
  have hrecord : ∀ kind (r : Record),
      m.recordType scope kind (r.withDefaults m.settings.defaultPropertyName)
        = m.recordType scope kind r := fun kind _ => recordType_of_slots hslot kind rfl rfl
  cases d with
  | record kind body => rw [Declaration.withDefaults, declarationTypes, declarationTypes, hrecord]
  | enumeration body => rfl
  | service body => exact serviceTypes_of_commands (hrecord .command) (fun _ => rfl) rfl rfl

end Model

/-! ## What a document becomes -/

theorem Conventions.bases_override {base : Conventions} {given other : Option Conventions}
    (h : given.map Conventions.unplaced = other.map Conventions.unplaced) (kind : RecordKind) :
    kind.conventionBases (base.override given) = kind.conventionBases (base.override other) := by
  have hnone : ∀ {c : Option Conventions}, kind.conventionBases (base.override c)
      = kind.conventionBases (base.override (c.map Conventions.unplaced)) := by
    intro c
    cases c <;> rfl
  rw [hnone, h, ← hnone]

namespace Compiler

variable {c : Compiler}

/-- **The types of a document follow from its content**: they are those of its declarations, one
after the other. -/
theorem types_eq_ok {d : Document} {types : List TypeDefinition} :
    (c.model d).types = .ok types ↔ ∃ lists, List.Forall₂ (fun (scope, declaration) list =>
      (c.model d).declarationTypes scope declaration = .ok list) d.content lists ∧
        lists.flatten = types := by
  have hdeclarations : (c.model d).document.declarations = d.declarations.map
      fun (scope, declaration) => (scope.withDefaults (c.model d).settings.defaultPropertyName,
        declaration.withDefaults (c.model d).settings.defaultPropertyName) :=
    d.declarations_withDefaults c.settings.defaultPropertyName
  rw [Model.types_eq_ok, hdeclarations, Document.content]
  simp only [List.forall₂_map_left_iff, Model.declarationTypes_withDefaults,
    Model.declarationTypes_unplaced]
  rfl

theorem types_eq_ok_written {c : Compiler} {d : Document} {types : List TypeDefinition} :
    (c.model d).types = .ok types ↔ ∃ lists, List.Forall₂ (fun (scope, declaration) list =>
      (c.model d).declarationTypes scope.name declaration = .ok list) d.declarations lists ∧
        lists.flatten = types := by
  rw [types_eq_ok, Document.content]
  simp only [List.forall₂_map_left_iff, Model.declarationTypes_unplaced]

theorem exists_compileDocument_of_perm (hdup : c.settings.allowDuplicateTypes = false)
    {d e : Document}
    (hconventions : d.conventions.map Conventions.unplaced = e.conventions.map Conventions.unplaced)
    (hperm : d.content.Perm e.content) {o : Output} (h : c.compileDocument d = .ok o) :
    ∃ o', c.compileDocument e = .ok o' ∧ o.types.Perm o'.types := by
  obtain ⟨⟨table, htable⟩, hgen⟩ := compileDocument_eq_ok.mp h
  -- the table is the same for both documents, and so is what each declaration becomes
  have hknown : (c.model e).knownTypes = .ok table := by
    rw [knownTypes_model, hdup, Document.knownTypes_content] at htable ⊢
    exact KnownTypes.ofList_of_perm (hperm.flatMap_right _) htable
  have hsame : ∀ scope declaration, (c.model d).declarationTypes scope declaration
      = (c.model e).declarationTypes scope declaration :=
    Model.declarationTypes_congr rfl (htable.trans hknown.symm)
      (Conventions.bases_override hconventions)
  obtain ⟨types, htypes, htypesPerm⟩ := Model.perm_types_of_generate hgen
  obtain ⟨lists, hlists, rfl⟩ := types_eq_ok.mp htypes
  obtain ⟨lists', hlists', hlistsPerm⟩ := List.perm_comp_forall₂ hperm.symm hlists
  have htypes' : (c.model e).types = .ok lists'.flatten := by
    refine types_eq_ok.mpr ⟨lists', ?_, rfl⟩
    simpa only [hsame] using hlists'
  have hgen' := Model.generate_eq_ok.mpr ⟨_, htypes', rfl⟩
  obtain ⟨_, htypes'', hperm'⟩ := Model.perm_types_of_generate hgen'
  cases htypes'.symm.trans htypes''
  refine ⟨_, compileDocument_eq_ok.mpr ⟨⟨table, hknown⟩, hgen'⟩, ?_⟩
  exact htypesPerm.trans (hlistsPerm.flatten.symm.trans hperm'.symm)

/-- **The order of declarations does not matter.**  Where duplicates are refused, two documents with
the same conventions and the same declarations in the same namespaces, in whatever order and
division into namespace forms, both compile or both fail, and if they compile it is to the same
types. -/
theorem compileDocument_order_irrelevant (hdup : c.settings.allowDuplicateTypes = false)
    {d e : Document}
    (hconventions : d.conventions.map Conventions.unplaced = e.conventions.map Conventions.unplaced)
    (hperm : d.content.Perm e.content) :
    ((∃ o, c.compileDocument d = .ok o) ↔ ∃ o, c.compileDocument e = .ok o) ∧
      ∀ o o', c.compileDocument d = .ok o → c.compileDocument e = .ok o' →
        o.types.Perm o'.types := by
  refine ⟨⟨?_, ?_⟩, ?_⟩
  · rintro ⟨o, h⟩
    obtain ⟨o', h', -⟩ := exists_compileDocument_of_perm hdup hconventions hperm h
    exact ⟨o', h'⟩
  · rintro ⟨o, h⟩
    obtain ⟨o', h', -⟩ := exists_compileDocument_of_perm hdup hconventions.symm hperm.symm h
    exact ⟨o', h'⟩
  · intro o o' h h'
    obtain ⟨o'', h'', htypes⟩ := exists_compileDocument_of_perm hdup hconventions hperm h
    cases h'.symm.trans h''
    exact htypes

end Compiler

/-! ### A rearranged depot -/

namespace Depot

/-- A command with a key, which is of a declared type. -/
def shipping : Declaration :=
  .record .command ⟨"Ship", [⟨some "Key", some (.named ⟨["Key"]⟩), .none⟩], .none⟩

/-- A value type for keys. -/
def key : Declaration := .record .valueType ⟨"Key", [⟨none, some .string, .none⟩], .none⟩

/-- A base type for all commands. -/
def conventions : Conventions := ⟨none, some [⟨["Message"]⟩], .none⟩

/-- A document that uses the type of keys before it declares it. -/
def document : Document := ⟨some conventions, [⟨⟨["Depot"]⟩, [shipping, key], .none⟩]⟩

/-- The same declarations the other way round, each in a namespace form of its own. -/
def rearranged : Document :=
  ⟨some conventions, [⟨⟨["Depot"]⟩, [key], .none⟩, ⟨⟨["Depot"]⟩, [shipping], .none⟩]⟩

theorem compile_rearranged :
    Compiler.standard.settings.allowDuplicateTypes = false ∧
      document.conventions.map Conventions.unplaced
        = rearranged.conventions.map Conventions.unplaced ∧
      document.content.Perm rearranged.content ∧
      ∃ o o', Compiler.standard.compileDocument document = .ok o ∧
        Compiler.standard.compileDocument rearranged = .ok o' ∧ o.types.Perm o'.types := by
  have hperm : document.content.Perm rearranged.content := List.Perm.swap _ _ []
  have hcompiles : (Compiler.standard.compileDocument document).toOption.isSome = true := by
    decide +kernel
  have ho := Outcome.eq_ok_get hcompiles
  obtain ⟨hiff, htypes⟩ := Compiler.compileDocument_order_irrelevant (c := .standard) rfl
    (d := document) (e := rearranged) rfl hperm
  obtain ⟨o', ho'⟩ := hiff.1 ⟨_, ho⟩
  exact ⟨rfl, rfl, hperm, _, o', ho, ho', htypes _ o' ho ho'⟩

end Depot

end DomainForms
