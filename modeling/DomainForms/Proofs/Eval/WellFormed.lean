import DomainForms.Proofs.Eval.Structure
import DomainForms.Proofs.Target.Record

/-!
# Well-formed values

A value is well-formed for a type when it could be stored in a field of that type.  Null always
could.  An array is well-formed for an array type when its items are for the element type; an
instance is for the type with its own name when it has exactly the fields of that type, each with a
value that is well-formed for the type of the field; and a scalar is for every type that is neither
an array nor a class or struct of the evaluator.

* `Evaluator.wellFormed`, `Evaluator.isInstance`: well-formed values, and instances of a type.
* `Evaluator.sameFields_iff`: fields of two instances are the same when they are, name by name.
* `Evaluator.RunsRecords`: every class and struct of an evaluator is a record type, as in the
  evaluator of a generated output (`runsRecords_of_generate`).
-/

namespace DomainForms.Evaluator

/-- The class or struct with a full name. -/
def record? (e : Evaluator) (typeName : String) : Option TypeDefinition :=
  (e.types.find? typeName).filter fun t => isInstantiable t.kind

mutual

/-- Whether a value is well-formed for a type. -/
def wellFormed (e : Evaluator) : Value → TypeRef → Bool
  | .null, _ => true
  | .array items, .array element _ => itemsWellFormed e items element
  | .array _, _ => false
  | .object _ typeName fields, .named name =>
    match e.record? name.fullName with
    | some t => typeName == name.fullName && fieldsWellFormed e fields t.fieldTypes
    | none => false
  | .object .., _ => false
  | _, .array .. => false
  | _, .named name => (e.record? name.fullName).isNone
  | _, _ => true

/-- Whether all items of a list are well-formed for a type. -/
def itemsWellFormed (e : Evaluator) : List Value → TypeRef → Bool
  | [], _ => true
  | item :: rest, element => e.wellFormed item element && itemsWellFormed e rest element

/-- Whether fields have exactly the given names, with values that are well-formed for the types
given with the names. -/
def fieldsWellFormed (e : Evaluator) : List (String × Value) → NameMap TypeRef → Bool
  | [], [] => true
  | (name, value) :: rest, (expected, type) :: types =>
    name == expected && e.wellFormed value type && fieldsWellFormed e rest types
  | _, _ => false

end

/-- Whether a value is a well-formed instance of a type. -/
def isInstance (e : Evaluator) (t : TypeDefinition) : Value → Bool
  | .object _ typeName fields => typeName == t.fullName && e.fieldsWellFormed fields t.fieldTypes
  | _ => false

variable {e : Evaluator}

theorem record?_eq_some {typeName : String} {t : TypeDefinition} :
    e.record? typeName = some t ↔ e.types.find? typeName = some t ∧ isInstantiable t.kind = true := by
  rw [record?, Option.filter_eq_some_iff]

theorem lookup_of_record? {typeName : String} {t : TypeDefinition} (h : e.record? typeName = some t) :
    e.lookup typeName = .ok t := by
  rw [lookup, (record?_eq_some.mp h).1]

/-! ## What a well-formed value can be -/

theorem isScalar_of_wellFormed {v : Value} {type : TypeRef} (h : e.wellFormed v type = true)
    (harray : type.isArray = false) (hname : ∀ name, type = .named name → e.record? name.fullName = none) :
    v.isScalar = true := by
  cases v with
  | array items => cases type <;> simp_all [wellFormed, TypeRef.isArray]
  | object identity typeName fields => cases type <;> simp_all [wellFormed]
  | _ => rfl

theorem wellFormed_array {v : Value} {element : TypeRef} {ranks : List Rank}
    (h : e.wellFormed v (.array element ranks) = true) :
    v = .null ∨ ∃ items, v = .array items ∧ ∀ item ∈ items, e.wellFormed item element = true := by
  cases v with
  | null => exact Or.inl rfl
  | array items =>
    refine Or.inr ⟨items, rfl, ?_⟩
    rw [wellFormed] at h
    clear ranks
    induction items with
    | nil => intro item hm; cases hm
    | cons first rest ih =>
      rw [itemsWellFormed, Bool.and_eq_true] at h
      intro item hm
      rcases List.mem_cons.mp hm with rfl | hm
      · exact h.1
      · exact ih h.2 item hm
  | _ => cases h

theorem wellFormed_record {v : Value} {name : QualifiedName} {t : TypeDefinition}
    (ht : e.record? name.fullName = some t) (hname : t.fullName = name.fullName)
    (h : e.wellFormed v (.named name) = true) : v = .null ∨ e.isInstance t v = true := by
  cases v with
  | null => exact Or.inl rfl
  | object identity typeName fields =>
    refine Or.inr ?_
    rw [wellFormed, ht] at h
    rw [isInstance, hname]
    exact h
  | _ => simp [wellFormed, ht] at h

/-! ## Fields of instances -/

/-- **Every field is there**, with a value that is well-formed for its type. -/
theorem find?_of_fieldsWellFormed {name : String} {type : TypeRef} :
    ∀ {fields : List (String × Value)} {types : NameMap TypeRef},
      e.fieldsWellFormed fields types = true → types.find? name = some type →
        ∃ v, NameMap.find? name fields = some v ∧ e.wellFormed v type = true := by
  intro fields
  induction fields with
  | nil =>
    intro types h hfind
    cases types with
    | nil => cases hfind
    | cons expected types => cases h
  | cons field rest ih =>
    intro types h hfind
    cases types with
    | nil => cases h
    | cons expected types =>
      obtain ⟨key, value⟩ := field
      obtain ⟨key', held⟩ := expected
      rw [fieldsWellFormed, Bool.and_eq_true, Bool.and_eq_true, beq_iff_eq] at h
      obtain ⟨⟨rfl, hvalue⟩, hrest⟩ := h
      rw [NameMap.find?] at hfind ⊢
      split at hfind
      · cases hfind
        exact ⟨value, if_pos ‹_›, hvalue⟩
      · rw [if_neg ‹_›]
        exact ih hrest hfind

/-- **Two instances have the same fields when they agree in every field**, as both have the fields
of their type. -/
theorem sameFields_iff : ∀ {fields others : List (String × Value)} {types : NameMap TypeRef},
    types.Increasing → e.fieldsWellFormed fields types = true →
      e.fieldsWellFormed others types = true →
        (Value.sameFields fields others = true ↔ ∀ name ∈ types.map Prod.fst, ∀ v w,
          NameMap.find? name fields = some v → NameMap.find? name others = some w →
            v.sameStructure w = true) := by
  intro fields
  induction fields with
  | nil =>
    intro others types _ h h'
    cases types with
    | cons expected types => cases h
    | nil =>
      cases others with
      | cons field others => cases h'
      | nil => simp [Value.sameFields]
  | cons field rest ih =>
    intro others types hinc h h'
    cases types with
    | nil => cases h
    | cons expected types =>
      cases others with
      | nil => cases h'
      | cons other others =>
        obtain ⟨key, v⟩ := field
        obtain ⟨key', w⟩ := other
        obtain ⟨key'', type⟩ := expected
        rw [fieldsWellFormed, Bool.and_eq_true, Bool.and_eq_true, beq_iff_eq] at h h'
        obtain ⟨⟨rfl, -⟩, hrest⟩ := h
        obtain ⟨⟨rfl, -⟩, hothers⟩ := h'
        -- the names increase, so no later field is hidden by the first one
        have hlater : ∀ name ∈ types.map Prod.fst, key' ≠ name := by
          intro name hm
          obtain ⟨entry, hentry, rfl⟩ := List.mem_map.mp hm
          exact String.ne_of_lt ((List.pairwise_cons.mp hinc).1 entry hentry)
        rw [Value.sameFields, beq_self_eq_true, Bool.true_and, Bool.and_eq_true,
          ih (List.pairwise_cons.mp hinc).2 hrest hothers, List.map_cons, List.forall_mem_cons]
        simp only [NameMap.find?, if_true, Option.some.injEq]
        constructor
        · rintro ⟨hhead, htail⟩
          refine ⟨?_, ?_⟩
          · rintro a b rfl rfl
            exact hhead
          · intro name hm a b ha hb
            rw [if_neg (hlater name hm)] at ha hb
            exact htail name hm a b ha hb
        · rintro ⟨hhead, htail⟩
          refine ⟨hhead v w rfl rfl, ?_⟩
          intro name hm a b ha hb
          refine htail name hm a b ?_ ?_
          · rw [if_neg (hlater name hm)]
            exact ha
          · rw [if_neg (hlater name hm)]
            exact hb

/-! ## Evaluators of outputs -/

/-- Every class and struct of an evaluator stands under its own full name and is a record type. -/
def RunsRecords (e : Evaluator) : Prop :=
  ∀ {typeName : String} {t : TypeDefinition}, e.record? typeName = some t →
    t.fullName = typeName ∧ ∃ kind slots, t.IsRecord kind slots

theorem mem_types_of_find? {o : Output} {typeName : String} {t : TypeDefinition}
    (h : (Evaluator.of o).types.find? typeName = some t) : t ∈ o.types ∧ t.fullName = typeName := by
  have hm := NameMap.mem_of_find?_ofList h
  obtain ⟨t', ht', he⟩ := List.mem_map.mp hm
  cases he
  exact ⟨ht', rfl⟩

theorem runsRecords_of_generate {m : Model} {o : Output} (h : m.generate = .ok o) :
    (Evaluator.of o).RunsRecords := by
  intro typeName t ht
  obtain ⟨hfind, hk⟩ := record?_eq_some.mp ht
  obtain ⟨hm, hname⟩ := mem_types_of_find? hfind
  obtain ⟨scope, kind, slots, -, hrec⟩ := m.exists_record h hm hk
  exact ⟨hname, kind, slots, hrec⟩

/-- A value of a type that is no array is a scalar or a well-formed instance. -/
theorem isScalar_or_isInstance (he : e.RunsRecords) {v : Value} {type : TypeRef}
    (h : e.wellFormed v type = true) (harray : type.isArray = false) :
    v.isScalar = true ∨ ∃ t, e.record? t.fullName = some t ∧ e.isInstance t v = true := by
  by_cases hrecord : ∃ name t, type = .named name ∧ e.record? name.fullName = some t
  · obtain ⟨name, t, rfl, ht⟩ := hrecord
    obtain ⟨hname, -⟩ := he ht
    rcases wellFormed_record ht hname h with rfl | hv
    · exact Or.inl rfl
    · exact Or.inr ⟨t, hname ▸ ht, hv⟩
  · refine Or.inl (isScalar_of_wellFormed h harray ?_)
    intro name hname
    cases ht : e.record? name.fullName with
    | none => rfl
    | some t => exact absurd ⟨name, t, hname, ht⟩ hrecord

end DomainForms.Evaluator
