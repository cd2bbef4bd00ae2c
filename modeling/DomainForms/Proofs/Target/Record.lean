import DomainForms.Eval.Evaluator
import DomainForms.Compiler
import DomainForms.Proofs.NameMap
import DomainForms.Proofs.Outcome
import DomainForms.Proofs.QualifiedName
import DomainForms.Proofs.Target.Groups

/-!
# Generated record types

Every class and every struct of an output was generated for a record.  Its members follow from the
slots of the record alone: a field for each slot, one equality method that takes the type itself,
and one hash code.

* `TypeDefinition.IsRecord`: a type was generated for a record with the given slots.
* `Model.isRecord_of_recordType`: what is generated for a record is such a type.
* `Model.exists_record`: all instantiable types of an output are such types.
* `TypeDefinition.IsRecord.typedEquals`, `TypeDefinition.IsRecord.hashCode`: the methods that
  equality and hashing run.
-/

namespace DomainForms

/-- A type that was generated for a record of some kind, stored in `slots`. -/
structure TypeDefinition.IsRecord (t : TypeDefinition) (kind : RecordKind) (slots : List Slot) :
    Prop where
  /-- A value type is a struct, any other record is a class. -/
  kind_eq : t.kind = if kind.isValueType then .structType else .classType
  /-- No two slots are stored in one field. -/
  nodup : (slots.map Slot.field).Nodup
  /-- The members are those of a record under the full name of the type. -/
  members : ∃ owner, TypeRef.ofName owner = t.typeRef ∧ recordMembers kind owner slots = .ok t.members

/-! ## What is generated for a record -/

theorem firstRepeated?_eq_none {α : Type} {name : α → String} : ∀ {items : List α} {seen : List String},
    firstRepeated? name seen items = none →
      (items.map name).Nodup ∧ ∀ item ∈ items, name item ∉ seen := by
  intro items
  induction items with
  | nil => intro seen _; simp
  | cons first rest ih =>
    intro seen h
    rw [firstRepeated?] at h
    split at h
    · cases h
    · rename_i hseen
      obtain ⟨hnd, hnew⟩ := ih h
      have hfirst : name first ∉ seen := by simpa using hseen
      refine ⟨?_, ?_⟩
      · rw [List.map_cons, List.nodup_cons]
        refine ⟨?_, hnd⟩
        intro hm
        obtain ⟨item, hitem, he⟩ := List.mem_map.mp hm
        exact hnew item hitem (by rw [he]; exact List.mem_cons_self)
      · intro item hm
        rcases List.mem_cons.mp hm with rfl | hm
        · exact hfirst
        · exact fun hin => hnew item hm (List.mem_cons_of_mem _ hin)

theorem TypeDefinition.fullName_of_path {t : TypeDefinition} {path : QualifiedName}
    (hp : path.Proper) (hname : t.name = path.simpleName) (hscope : t.scope = path.parent.fullName) :
    t.fullName = path.fullName := by
  rw [TypeDefinition.fullName, hname, hscope]
  exact QualifiedName.parent_simpleName hp

namespace Model

variable {m : Model}

/-- What it takes to generate a record, and what is generated. -/
theorem recordType_eq_ok {scope : QualifiedName} {kind : RecordKind} {r : Record}
    {t : TypeDefinition} (h : m.recordType scope kind r = .ok t) :
    t.kind = (if kind.isValueType then .structType else .classType) ∧
      t.name = (QualifiedName.parse (scope.qualify r.name)).simpleName ∧
      t.scope = (QualifiedName.parse (scope.qualify r.name)).parent.fullName ∧
      ∃ slots, r.properties.mapM (m.slot scope) = .ok slots ∧
        firstRepeated? Slot.field [] slots = none ∧
        recordMembers kind (scope.qualify r.name) slots = .ok t.members := by
  rw [recordType] at h
  obtain ⟨slots, hslots, h⟩ := Outcome.bind_eq_ok.mp h
  cases hrep : firstRepeated? Slot.field [] slots with
  | some repeated => rw [hrep] at h; cases h
  | none =>
    rw [hrep] at h
    obtain ⟨members, hmem, h⟩ := Outcome.bind_eq_ok.mp h
    have ht := (Except.ok.inj h).symm
    refine ⟨by rw [ht], by rw [ht], by rw [ht], slots, hslots, hrep, ?_⟩
    rw [ht]
    exact hmem

/-- **A record becomes a record type**, over the slots of its properties. -/
theorem isRecord_of_recordType {scope : QualifiedName} {kind : RecordKind} {r : Record}
    {t : TypeDefinition} (h : m.recordType scope kind r = .ok t) :
    ∃ slots, r.properties.mapM (m.slot scope) = .ok slots ∧ t.IsRecord kind slots := by
  obtain ⟨hkind, hname, hscope, slots, hslots, hrep, hmembers⟩ := recordType_eq_ok h
  refine ⟨slots, hslots, hkind, (firstRepeated?_eq_none hrep).1, scope.qualify r.name, ?_, hmembers⟩
  rw [TypeDefinition.typeRef,
    TypeDefinition.fullName_of_path (QualifiedName.parse_proper _) hname hscope, TypeRef.ofName,
    TypeRef.ofName, QualifiedName.parse_fullName_parse]

/-- What is generated for an enumeration: a type of enumeration values. -/
theorem enumerationType_eq_ok {scope : QualifiedName} {e : Enumeration} {t : TypeDefinition}
    (h : enumerationType scope e = .ok t) :
    t.kind = .enumType ∧
      t.name = (QualifiedName.parse (scope.qualify e.name)).simpleName ∧
      t.scope = (QualifiedName.parse (scope.qualify e.name)).parent.fullName ∧
      ∀ member ∈ t.members, ∃ value, member = .enumValue value := by
  rw [enumerationType] at h
  split at h
  · cases h
  · have ht := (Except.ok.inj h).symm
    refine ⟨by rw [ht], by rw [ht], by rw [ht], fun member hm => ?_⟩
    rw [ht] at hm
    obtain ⟨value, -, rfl⟩ := List.mem_map.1 hm
    exact ⟨_, rfl⟩

theorem slot_eq_ok {scope : QualifiedName} {p : Property} {s : Slot} (h : m.slot scope p = .ok s) :
    s.field = fieldName s.property ∧ ∃ resolved, m.resolve scope (p.type.getD .default) = .ok resolved ∧
      s.type = resolved.type ∧ s.isValueType = resolved.isValueType := by
  rw [slot] at h
  obtain ⟨resolved, hr, h⟩ := Outcome.bind_eq_ok.mp h
  cases h
  exact ⟨rfl, resolved, hr, rfl, rfl⟩

/-! ## The types of an output -/

section

variable {P : TypeDefinition → Prop}
  (hrecord : ∀ scope kind r t, m.recordType scope kind r = .ok t → P t)
  (henumeration : ∀ scope e t, enumerationType scope e = .ok t → P t)
  (hinterface : ∀ scope s, P (interfaceType m.settings scope s))

include hrecord henumeration hinterface

theorem forall_of_declarationTypes {scope : QualifiedName} {d : Declaration}
    {types : List TypeDefinition} (h : m.declarationTypes scope d = .ok types) :
    ∀ t ∈ types, P t := by
  intro t ht
  cases d with
  | record kind body =>
    obtain ⟨t', ht', h⟩ := Outcome.bind_eq_ok.mp h
    cases h
    rw [List.mem_singleton.mp ht]
    exact hrecord scope kind body t' ht'
  | enumeration body =>
    obtain ⟨t', ht', h⟩ := Outcome.bind_eq_ok.mp h
    cases h
    rw [List.mem_singleton.mp ht]
    exact henumeration scope body t' ht'
  | service body =>
    obtain ⟨commands, hcommands, h⟩ := Outcome.bind_eq_ok.mp h
    cases h
    rcases List.mem_cons.mp ht with rfl | hm
    · exact hinterface scope body
    · obtain ⟨r, -, hr⟩ := Outcome.exists_of_mem_mapM hcommands hm
      exact hrecord scope .command r t hr

/-- **What holds of records, enumerations and interfaces holds of all types of an output.** -/
theorem forall_of_generate {o : Output} (h : m.generate = .ok o) : ∀ t ∈ o.types, P t := by
  intro t ht
  obtain ⟨types, htypes, hperm⟩ := perm_types_of_generate h
  obtain ⟨lists, hlists, rfl⟩ := types_eq_ok.mp htypes
  obtain ⟨list, hlist, ht⟩ := List.mem_flatten.mp (hperm.mem_iff.1 ht)
  obtain ⟨⟨scope, d⟩, -, hd⟩ := Outcome.exists_of_mem_forall₂ hlists.flip hlist
  exact forall_of_declarationTypes hrecord henumeration hinterface hd t ht

end

/-- **Every instantiable type of an output is a record type.** -/
theorem exists_record {o : Output} (h : m.generate = .ok o) {t : TypeDefinition} (ht : t ∈ o.types)
    (hk : Evaluator.isInstantiable t.kind = true) :
    ∃ scope kind slots, (∀ s ∈ slots, ∃ p, m.slot scope p = .ok s) ∧ t.IsRecord kind slots := by
  refine forall_of_generate (P := fun t => Evaluator.isInstantiable t.kind = true →
    ∃ scope kind slots, (∀ s ∈ slots, ∃ p, m.slot scope p = .ok s) ∧ t.IsRecord kind slots)
    ?_ ?_ ?_ h t ht hk
  · intro scope kind r t hr _
    obtain ⟨slots, hslots, hrec⟩ := isRecord_of_recordType hr
    refine ⟨scope, kind, slots, ?_, hrec⟩
    intro s hs
    obtain ⟨p, -, hp⟩ := Outcome.exists_of_mem_mapM hslots hs
    exact ⟨p, hp⟩
  · intro scope e t ht hk
    rw [(enumerationType_eq_ok ht).1] at hk
    cases hk
  · intro scope s hk
    cases hk

end Model

theorem Compiler.compile_eq_ok {c : Compiler} {source : String} {o : Output}
    (h : c.compile source = .ok o) :
    ∃ document, Document.parse source = .ok document ∧ (c.model document).generate = .ok o := by
  unfold compile at h
  split at h
  · rename_i heq
    cases h
    obtain ⟨document, hparse, h⟩ := Outcome.bind_eq_ok.mp heq
    obtain ⟨_, -, hgen⟩ := Outcome.bind_eq_ok.mp h
    exact ⟨document, hparse, hgen⟩
  · cases h

/-! ## The members of a record type -/

namespace TypeDefinition

/-- The types of the fields by their names. -/
def fieldTypes (t : TypeDefinition) : NameMap TypeRef :=
  .ofList (t.fields.map fun f => (f.name, f.type))

namespace IsRecord

variable {t : TypeDefinition} {kind : RecordKind} {slots : List Slot}

theorem members_eq (h : t.IsRecord kind slots) :
    ∃ owner body, typedEqualsBody owner kind.isValueType slots = .ok body ∧
      t.members = slots.mapIdx (fun index s => .field (s.toField kind.isSerializable index))
        ++ .constructor (constructorOf slots)
        :: slots.map (fun s => .accessor s.toAccessor)
        ++ [.operator (operatorOf .equality kind.isValueType t.typeRef),
          .operator (operatorOf .inequality kind.isValueType t.typeRef),
          .method (typedEqualsOf t.typeRef body),
          .method (objectEqualsOf t.typeRef),
          .method (hashCodeOf slots)] := by
  obtain ⟨owner, hself, hmem⟩ := h.members
  rw [recordMembers] at hmem
  obtain ⟨body, hbody, hmem⟩ := Outcome.bind_eq_ok.mp hmem
  refine ⟨owner, body, hbody, ?_⟩
  rw [← hself]
  exact (Except.ok.inj hmem).symm

/-- **The fields of a record type are those of its slots.** -/
theorem fields_eq (h : t.IsRecord kind slots) :
    t.fields = slots.mapIdx (fun index s => s.toField kind.isSerializable index) := by
  obtain ⟨owner, body, -, hmem⟩ := h.members_eq
  rw [fields, hmem]
  simp [List.filterMap_append, List.filterMap_map, List.mapIdx_eq_zipIdx_map]

theorem fieldEntries (h : t.IsRecord kind slots) :
    t.fields.map (fun f => (f.name, f.type)) = slots.map fun s => (s.field, s.type) := by
  rw [h.fields_eq]
  apply List.ext_getElem?
  intro index
  simp [Slot.toField, Function.comp_def]

/-- The field types are those of the slots, in the order of the names. -/
theorem perm_fieldTypes (h : t.IsRecord kind slots) :
    t.fieldTypes.Perm (slots.map fun s => (s.field, s.type)) := by
  have hnodup : ((slots.map fun s => (s.field, s.type)).map Prod.fst).Nodup := by
    rw [List.map_map]
    exact h.nodup
  rw [fieldTypes, h.fieldEntries]
  exact NameMap.perm_ofList hnodup

theorem find?_fieldTypes (h : t.IsRecord kind slots) {s : Slot} (hs : s ∈ slots) :
    t.fieldTypes.find? s.field = some s.type := by
  have hinc : t.fieldTypes.Increasing := NameMap.increasing_ofList _
  rw [NameMap.find?_eq_some_iff hinc, h.perm_fieldTypes.mem_iff]
  exact List.mem_map.mpr ⟨s, hs, rfl⟩

theorem methods_eq (h : t.IsRecord kind slots) (name : String) :
    ∃ owner body, typedEqualsBody owner kind.isValueType slots = .ok body ∧
      t.methods name = [typedEqualsOf t.typeRef body, objectEqualsOf t.typeRef,
        hashCodeOf slots].filterMap fun m => if m.name = name then some m else none := by
  obtain ⟨owner, body, hbody, hmem⟩ := h.members_eq
  refine ⟨owner, body, hbody, ?_⟩
  rw [methods, hmem]
  simp only [List.filterMap_append, List.filterMap_cons, List.filterMap_map,
    List.mapIdx_eq_zipIdx_map, List.filterMap_nil]
  simp

/-- **The equality method that takes the type itself** compares the slots. -/
theorem typedEquals (h : t.IsRecord kind slots) :
    ∃ owner body, typedEqualsBody owner kind.isValueType slots = .ok body ∧
      t.methodWithParameter? equalsName t.typeRef = some (typedEqualsOf t.typeRef body) := by
  obtain ⟨owner, body, hbody, hmethods⟩ := h.methods_eq equalsName
  refine ⟨owner, body, hbody, ?_⟩
  rw [methodWithParameter?, hmethods, List.filterMap_cons, typedEqualsOf, if_pos rfl]
  exact List.find?_cons_of_pos (by simp [takesOnly])

/-- **The first hash code method** adds up the hash codes of slots. -/
theorem hashCode (h : t.IsRecord kind slots) :
    (t.methods hashCodeName).head? = some (hashCodeOf slots) := by
  obtain ⟨owner, body, -, hmethods⟩ := h.methods_eq hashCodeName
  have hne : equalsName ≠ hashCodeName := by decide
  rw [hmethods]
  simp [typedEqualsOf, objectEqualsOf, hashCodeOf, hne]

end IsRecord

end TypeDefinition

end DomainForms
