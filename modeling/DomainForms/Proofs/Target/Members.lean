import DomainForms.Proofs.Target.Record

/-!
# What generated types can run

A record type runs its constructor, its accessors, its operators and its three methods, all of which
follow from its slots.  Every other type of an output runs nothing: an enumeration has neither
accessors nor methods, and the methods of an interface have no bodies.

* `TypeDefinition.IsRecord.accessors_eq`, `TypeDefinition.IsRecord.constructor?_eq`,
  `TypeDefinition.IsRecord.operator?_eq`: the members of a record type that are looked up.
* `TypeDefinition.IsRecord.objectEquals`: the equality method for any object.
* `TypeDefinition.IsGenerated`: a record type whose fields are named after its properties.
* `TypeDefinition.Inert`: a type with nothing to run.
* `Model.generated_or_inert`: **every type of an output is one or the other.**
-/

namespace DomainForms

/-! ## Members of record types -/

namespace TypeDefinition.IsRecord

variable {t : TypeDefinition} {kind : RecordKind} {slots : List Slot}

theorem accessors_eq (h : t.IsRecord kind slots) : t.accessors = slots.map Slot.toAccessor := by
  obtain ⟨owner, body, -, hmembers⟩ := h.members_eq
  rw [accessors, hmembers]
  simp [List.filterMap_append, List.filterMap_map, List.mapIdx_eq_zipIdx_map]

theorem constructor?_eq (h : t.IsRecord kind slots) :
    t.constructor? = some (constructorOf slots) := by
  obtain ⟨owner, body, -, hmembers⟩ := h.members_eq
  rw [constructor?, ← List.head?_filterMap, hmembers]
  simp [List.filterMap_append, List.filterMap_map, List.mapIdx_eq_zipIdx_map]

theorem operator?_eq (h : t.IsRecord kind slots) (op : OperatorKind) :
    t.operator? op = some (operatorOf op kind.isValueType t.typeRef) := by
  obtain ⟨owner, body, -, hmembers⟩ := h.members_eq
  rw [operator?, ← List.head?_filterMap, hmembers]
  cases op <;>
    simp [List.filterMap_append, List.filterMap_map, List.mapIdx_eq_zipIdx_map, operatorOf]

/-- **The equality method for any object** of a type that is not the type of all objects. -/
theorem objectEquals (h : t.IsRecord kind slots) (hne : t.typeRef ≠ .ofName objectTypeName) :
    t.methodWithParameter? equalsName (.ofName objectTypeName) = some (objectEqualsOf t.typeRef) := by
  obtain ⟨owner, body, -, hmethods⟩ := h.methods_eq equalsName
  have hother : equalsName ≠ hashCodeName := by decide
  rw [methodWithParameter?, hmethods]
  simp [typedEqualsOf, objectEqualsOf, hashCodeOf, takesOnly, hne, hother.symm]

end TypeDefinition.IsRecord

/-! ## All types of an output -/

namespace TypeDefinition

/-- A record type whose fields are named after its properties, and whose full name is spelled as it
is read. -/
structure IsGenerated (t : TypeDefinition) (kind : RecordKind) (slots : List Slot) : Prop extends
    t.IsRecord kind slots where
  /-- Each field is named after its property. -/
  field_eq : ∀ s ∈ slots, s.field = fieldName s.property
  /-- Reading the full name and writing it again changes nothing. -/
  path : (QualifiedName.parse t.fullName).fullName = t.fullName

/-- A type with nothing to run. -/
structure Inert (t : TypeDefinition) : Prop where
  /-- It has no instances. -/
  kind : Evaluator.isInstantiable t.kind = false
  /-- No property can be read. -/
  accessors : t.accessors = []
  /-- No method has a body. -/
  methods : ∀ name, ∀ m ∈ t.methods name, m.body = none

theorem IsGenerated.typeRef_ne {t : TypeDefinition} {kind : RecordKind} {slots : List Slot}
    (h : t.IsGenerated kind slots) (hne : t.fullName ≠ objectTypeName) :
    t.typeRef ≠ .ofName objectTypeName := by
  intro he
  have hparse : QualifiedName.parse t.fullName = QualifiedName.parse objectTypeName :=
    TypeRef.named.inj he
  have hobject : (QualifiedName.parse objectTypeName).fullName = objectTypeName := by decide
  rw [← h.path, hparse, hobject] at hne
  exact hne rfl

end TypeDefinition

namespace Model

variable {m : Model}

theorem isGenerated_of_recordType {scope : QualifiedName} {kind : RecordKind} {r : Record}
    {t : TypeDefinition} (h : m.recordType scope kind r = .ok t) :
    ∃ slots, r.properties.mapM (m.slot scope) = .ok slots ∧ t.IsGenerated kind slots := by
  obtain ⟨slots, hslots, hrec⟩ := isRecord_of_recordType h
  obtain ⟨-, hname, hscope, -⟩ := recordType_eq_ok h
  refine ⟨slots, hslots, hrec, fun s hs => ?_, ?_⟩
  · obtain ⟨p, -, hp⟩ := Outcome.exists_of_mem_mapM hslots hs
    exact (slot_eq_ok hp).1
  · rw [TypeDefinition.fullName_of_path (QualifiedName.parse_proper _) hname hscope,
      QualifiedName.parse_fullName_parse]

theorem inert_of_enumerationType {scope : QualifiedName} {e : Enumeration} {t : TypeDefinition}
    (h : enumerationType scope e = .ok t) : t.Inert := by
  obtain ⟨hkind, -, -, hmembers⟩ := enumerationType_eq_ok h
  refine ⟨by rw [hkind]; rfl, ?_, fun name method hm => ?_⟩
  · rw [TypeDefinition.accessors, List.filterMap_eq_nil_iff]
    intro member hm
    obtain ⟨value, rfl⟩ := hmembers member hm
    rfl
  · obtain ⟨member, hm, he⟩ := List.mem_filterMap.1 hm
    obtain ⟨value, rfl⟩ := hmembers member hm
    cases he

theorem inert_interfaceType (settings : Settings) (scope : QualifiedName) (s : Service) :
    (interfaceType settings scope s).Inert := by
  refine ⟨rfl, ?_, fun name method hm => ?_⟩
  · rw [TypeDefinition.accessors, List.filterMap_eq_nil_iff]
    intro member hm
    obtain ⟨command, -, rfl⟩ := List.mem_map.1 hm
    rfl
  · obtain ⟨member, hm, he⟩ := List.mem_filterMap.1 hm
    obtain ⟨command, -, rfl⟩ := List.mem_map.1 hm
    simp only [Option.ite_none_right_eq_some, Option.some.injEq] at he
    rw [← he.2]
    rfl

/-- **Every type of an output is a record type, or has nothing to run.** -/
theorem generated_or_inert {o : Output} (h : m.generate = .ok o) :
    ∀ t ∈ o.types, (∃ kind slots, t.IsGenerated kind slots) ∨ t.Inert := by
  refine forall_of_generate ?_ ?_ ?_ h
  · intro scope kind r t ht
    obtain ⟨slots, -, hgen⟩ := isGenerated_of_recordType ht
    exact Or.inl ⟨kind, slots, hgen⟩
  · intro scope e t ht
    exact Or.inr (inert_of_enumerationType ht)
  · intro scope s
    exact Or.inr (inert_interfaceType m.settings scope s)

end Model

end DomainForms
