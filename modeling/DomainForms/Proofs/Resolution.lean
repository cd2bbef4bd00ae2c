import DomainForms.Compiler
import DomainForms.Proofs.Document.Names
import DomainForms.Proofs.KnownType.Table
import DomainForms.Proofs.Outcome

/-!
# Resolution is stable

A type that was resolved somewhere in a document stands for itself: seen from no namespace at all,
it resolves to itself again, with the same classification.  A declared type does because it was
replaced by its full name, and any other type because its written name is declared nowhere around
it.  So whether a field is of a value type can be read off the type of the field alone.

* `Model.resolve_resolved`: **resolution is stable.**
* `Model.isValue`: whether a resolved type is a value type.
-/

namespace DomainForms

open Text (IsPath)

/-! ## Names -/

theorem written_mem_candidates (scope : QualifiedName) (written : String) :
    written ∈ candidates scope written := by
  rw [candidates, List.mem_map]
  exact ⟨0, by simp, if_pos rfl⟩

theorem candidates_root (written : String) : candidates ⟨[]⟩ written = [written] := rfl

namespace Model

/-- Every type in the table of a model stands under its own full name, which is a path. -/
def KnowsPaths (m : Model) : Prop :=
  ∀ {table : KnownTypes}, m.knownTypes = .ok table → ∀ {name : String} {known : KnownType},
    table.get? name = some known → known.fullName = name ∧ IsPath name

variable {m : Model}

/-- **What a name resolves to**: the innermost declared type that it may stand for, else a system
type, else an assumed reference type unless the settings are strict. -/
theorem resolveName_eq_ok {scope name : QualifiedName} {r : Resolved} :
    m.resolveName scope name = .ok r ↔ ∃ table, m.knownTypes = .ok table ∧
      ((∃ known, (candidates scope name.fullName).findSome? table.get? = some known ∧
        r = ⟨.ofName known.fullName, known.isValueType, .declared⟩) ∨
      (candidates scope name.fullName).findSome? table.get? = none ∧
        ((∃ isValueType, systemValueType? name = some isValueType ∧
          r = ⟨.named name, isValueType, .system⟩) ∨
        systemValueType? name = none ∧ m.settings.strictTypeResolution = false ∧
          r = ⟨.named name, false, .assumed⟩)) := by
  unfold resolveName
  rw [Outcome.bind_eq_ok]
  refine exists_congr fun table => and_congr_right fun _ => ?_
  dsimp only
  cases (candidates scope name.fullName).findSome? table.get? with
  | some known =>
    constructor
    · intro h
      cases h
      exact Or.inl ⟨known, rfl, rfl⟩
    · rintro (⟨_, ⟨⟩, rfl⟩ | ⟨⟨⟩, -⟩)
      rfl
  | none =>
    cases systemValueType? name with
    | some isValueType =>
      constructor
      · intro h
        cases h
        exact Or.inr ⟨rfl, Or.inl ⟨isValueType, rfl, rfl⟩⟩
      · rintro (⟨_, ⟨⟩, -⟩ | ⟨-, ⟨_, ⟨⟩, rfl⟩ | ⟨⟨⟩, -⟩⟩)
        rfl
    | none => cases m.settings.strictTypeResolution <;> simp [eq_comm]

theorem resolve_resolvedName (hm : m.KnowsPaths) {scope name : QualifiedName} {r : Resolved}
    (h : m.resolveName scope name = .ok r) : m.resolve ⟨[]⟩ r.type = .ok r := by
  obtain ⟨table, htable, ⟨known, hfind, rfl⟩ | ⟨hfind, hother⟩⟩ := resolveName_eq_ok.1 h
  · obtain ⟨candidate, -, hget⟩ := List.exists_of_findSome?_eq_some hfind
    obtain ⟨rfl, hpath⟩ := hm htable hget
    refine resolveName_eq_ok.2 ⟨table, htable, Or.inl ⟨known, ?_, rfl⟩⟩
    rw [QualifiedName.fullName_parse hpath, candidates_root, List.findSome?_singleton, hget]
  · -- no candidate is declared, and the only one without a namespace is among them
    have hroot : (candidates ⟨[]⟩ name.fullName).findSome? table.get? = none := by
      rw [candidates_root, List.findSome?_singleton]
      exact List.findSome?_eq_none_iff.1 hfind _ (written_mem_candidates scope _)
    have hnamed : r.type = .named name := by
      rcases hother with ⟨isValueType, -, rfl⟩ | ⟨-, -, rfl⟩
      · rfl
      · rfl
    rw [hnamed]
    exact resolveName_eq_ok.2 ⟨table, htable, Or.inr ⟨hroot, hother⟩⟩

/-- **Resolution is stable**: a type that was resolved resolves to itself. -/
theorem resolve_resolved (hm : m.KnowsPaths) {scope : QualifiedName} :
    ∀ {type : TypeRef} {r : Resolved}, m.resolve scope type = .ok r →
      m.resolve ⟨[]⟩ r.type = .ok r := by
  intro type
  induction type with
  | simple p => intro r h; cases h; rfl
  | nullable p => intro r h; cases h; rfl
  | string => intro r h; cases h; rfl
  | named name => intro r h; exact resolve_resolvedName hm h
  | array element ranks ih =>
    intro r h
    rw [resolve] at h
    obtain ⟨inner, hinner, h⟩ := Outcome.bind_eq_ok.1 h
    cases h
    rw [resolve, ih hinner]
    rfl

/-- Whether a type that was resolved is a value type. -/
def isValue (m : Model) (type : TypeRef) : Bool :=
  match m.isValueType ⟨[]⟩ type with
  | .ok isValueType => isValueType
  | .error _ => false

theorem isValue_resolved (hm : m.KnowsPaths) {scope : QualifiedName} {type : TypeRef} {r : Resolved}
    (h : m.resolve scope type = .ok r) : m.isValue r.type = r.isValueType := by
  rw [isValue, isValueType, resolve_resolved hm h]
  rfl

theorem isArray_of_isValue {type : TypeRef} (h : m.isValue type = true) : type.isArray = false := by
  cases type with
  | array element ranks =>
    rw [isValue, isValueType, resolve] at h
    cases hr : m.resolve ⟨[]⟩ element with
    | error e => rw [hr] at h; cases h
    | ok inner => rw [hr] at h; cases h
  | _ => rfl

end Model

theorem Compiler.knowsPaths_model (c : Compiler) {source : String} {d : Document}
    (h : Document.parse source = .ok d) : (c.model d).KnowsPaths := by
  intro table htable name known hget
  obtain ⟨hm, rfl⟩ := KnownTypes.mem_of_get?_ofList htable hget
  rw [Document.knownTypes_withDefaults] at hm
  exact ⟨rfl, Document.isPath_of_mem_knownTypes h hm⟩

end DomainForms
