import DomainForms.Proofs.Eval.Construction

/-!
# How the equality members agree

A record type compares its instances in four ways: by the equality that takes the type itself, by the
one that takes any object, and by two operators; and an instance in a property of a named type is
compared by the null-safe comparison.  All of them end in the equality that takes the type, and they
differ in what they ask before.  The one that takes any object tests the type of the other value; the
operators of a class test for null; the null-safe comparison tests for null but not for the type, so
an instance of another type is compared member by member, as if it were one of the same type.

* `Evaluator.equalsObject_eq`, `Evaluator.operator_equality`, `Evaluator.operator_null`,
  `Evaluator.nullSafeEquals_object`: what each of them asks before.
* `Compiler.equality_members_agree`: **object equality and the operators agree with typed equality.**
* `Compiler.nullSafeEquals_agrees_iff`: when the null-safe comparison agrees with object equality.
-/

namespace DomainForms

/-! ## What each member asks -/

theorem TypeDefinition.IsGenerated.isInstanceOf_typeRef {t : TypeDefinition} {kind : RecordKind}
    {slots : List Slot} (h : t.IsGenerated kind slots) (v : Value) :
    v.isInstanceOf t.typeRef = v.fitsName t.fullName := by
  rw [typeRef, TypeRef.ofName, Value.isInstanceOf, h.path]

/-- What belongs to a type other than that of all objects is an instance of it, or one of its
enumeration values. -/
theorem Value.fitsName_iff {name : String} (hne : name ≠ objectTypeName) {v : Value} :
    v.fitsName name = true ↔
      (∃ identity fields, v = .object identity name fields) ∨ ∃ value, v = .enumValue name value := by
  cases v <;> simp [fitsName, hne]

theorem Calls.nullSafeEquals_object {calls : Calls} {identity : Nat} {typeName : String}
    {fields : List (String × Value)} {v : Value} (hv : v.isNull = false) :
    calls.nullSafeEquals (.object identity typeName fields) v
      = calls.equals (.object identity typeName fields) v (.ofName typeName) := by
  cases v with
  | null => cases hv
  | _ => rfl

/-- The comparison of two values of a named type. -/
def Evaluator.nullSafeEquals (e : Evaluator) (left right : Value) : Except Fault Bool :=
  (e.callsFor [left, right]).nullSafeEquals left right

namespace Evaluator

variable {e : Evaluator} {typeName : String} {t : TypeDefinition} {kind : RecordKind}
  {slots : List Slot} {identity : Nat} {fields : List (String × Value)}

/-- **The null-safe comparison** asks whether the other value is null, and nothing about its type. -/
theorem nullSafeEquals_object (he : e.RunsGenerated) {v : Value} (hv : v.isNull = false) :
    e.nullSafeEquals (.object identity typeName fields) v
      = e.equalsTyped (.object identity typeName fields) v := by
  rw [nullSafeEquals, Calls.nullSafeEquals_object hv, equals_eq_equalsTyped he]

/-- **Equality with any object** asks whether the other value belongs to the type. -/
theorem equalsObject_eq (he : e.RunsGenerated) (ht : e.record? typeName = some t)
    (hne : typeName ≠ objectTypeName) (v : Value) :
    e.equalsObject (.object identity typeName fields) v
      = if v.fitsName typeName then e.equalsTyped (.object identity typeName fields) v
        else .ok false := by
  obtain ⟨rfl, kind, slots, hgen⟩ := exists_isGenerated he ht
  rw [equalsObject, equalsWith_object hgen.toIsRecord (lookup_of_record? ht) (hgen.typeRef_ne hne),
    hgen.isInstanceOf_typeRef, show t.typeRef = .ofName t.fullName from rfl,
    equals_eq_equalsTyped he]
  cases v <;> rfl

/-- Two instances of one type are compared as objects like within the type.  The type of all objects
has one equality for both. -/
theorem equalsObject_eq_equalsTyped (he : e.RunsGenerated) (ht : e.record? typeName = some t)
    {identity' : Nat} {typeName' : String} {others : List (String × Value)}
    (h : typeName = typeName' ∨ typeName = objectTypeName) :
    e.equalsObject (.object identity typeName fields) (.object identity' typeName' others)
      = e.equalsTyped (.object identity typeName fields) (.object identity' typeName' others) := by
  by_cases hne : typeName = objectTypeName
  · rw [equalsObject, equalsTyped, hne]
  · obtain rfl := h.resolve_right hne
    rw [equalsObject_eq he ht hne,
      if_pos ((Value.fitsName_iff hne).mpr (Or.inl ⟨identity', others, rfl⟩))]

theorem equalsTyped_eq_slotsEqual (he : e.RunsGenerated) (ht : e.record? typeName = some t)
    (hrec : t.IsRecord kind slots) {v : Value} (hv : v.isNull = false) :
    e.equalsTyped (.object identity typeName fields) v
      = (e.callsFor [.object identity typeName fields, v]).slotsEqual
        (.object identity typeName fields) v slots := by
  obtain ⟨rfl, -⟩ := exists_isGenerated he ht
  rw [equalsTyped, show TypeRef.ofName t.fullName = t.typeRef from rfl,
    equalsWith_typed hrec (lookup_of_record? ht), hv, Bool.and_false, if_neg Bool.false_ne_true]

/-- **Inequality is the negation of equality**, whatever the operands are. -/
theorem operator_inequality (he : e.RunsGenerated) (ht : e.record? typeName = some t) (l r : Value) :
    e.operator typeName .inequality l r = (e.operator typeName .equality l r).map (!·) := by
  obtain ⟨rfl, kind, slots, hgen⟩ := exists_isGenerated he ht
  rw [operator_eq hgen.toIsRecord (lookup_of_record? ht),
    operator_eq hgen.toIsRecord (lookup_of_record? ht)]
  generalize (if !kind.isValueType && l.isNull then .ok r.isNull
    else (e.callsFor [l, r]).equals l r t.typeRef : Except Fault Bool) = answer
  cases answer <;> rfl

/-- **The equality operator** asks the left operand, unless that is null. -/
theorem operator_equality (he : e.RunsGenerated) (ht : e.record? typeName = some t) (v : Value) :
    e.operator typeName .equality (.object identity typeName fields) v
      = e.equalsTyped (.object identity typeName fields) v := by
  obtain ⟨rfl, kind, slots, hgen⟩ := exists_isGenerated he ht
  have hnull : (Value.object identity t.fullName fields).isNull = false := rfl
  rw [operator_eq hgen.toIsRecord (lookup_of_record? ht), show t.typeRef = .ofName t.fullName from rfl,
    equals_eq_equalsTyped he, hnull, Bool.and_false, if_neg Bool.false_ne_true]
  cases e.equalsTyped (.object identity t.fullName fields) v <;> rfl

theorem operator_null (he : e.RunsGenerated) (ht : e.record? typeName = some t) (v : Value) :
    e.operator typeName .equality .null v
      = if t.kind = .structType then .error .equalsOnNull else .ok v.isNull := by
  obtain ⟨rfl, kind, slots, hgen⟩ := exists_isGenerated he ht
  have hdepth : 0 < e.depth [.null, v] := by
    have := size_add_memberCount_lt_depth (e := e) (List.mem_cons_self (a := Value.null) (l := [v]))
    omega
  rw [operator_eq hgen.toIsRecord (lookup_of_record? ht), hgen.kind_eq, callsFor]
  obtain ⟨depth, hdepth⟩ := Nat.exists_eq_add_one_of_ne_zero (Nat.ne_of_gt hdepth)
  rw [hdepth, callsAt_succ]
  cases kind.isValueType with
  | true => rfl
  | false => rfl

theorem equalsTyped_null (he : e.RunsGenerated) (ht : e.record? typeName = some t)
    (hclass : t.kind = .classType) :
    e.equalsTyped (.object identity typeName fields) .null = .ok false := by
  obtain ⟨rfl, kind, slots, hgen⟩ := exists_isGenerated he ht
  have hkind : kind.isValueType = false := by
    have := hgen.kind_eq
    rw [hclass] at this
    cases hvalue : kind.isValueType with
    | false => rfl
    | true => rw [hvalue] at this; cases this
  rw [equalsTyped, show TypeRef.ofName t.fullName = t.typeRef from rfl,
    equalsWith_typed hgen.toIsRecord (lookup_of_record? ht), hkind,
    if_pos (by rfl)]

end Evaluator

/-! ## Object equality and operators -/

/-- **Object equality and the operators agree with typed equality**, for every class and struct that a
source compiles to. -/
theorem Compiler.equality_members_agree {c : Compiler} {source : String} {o : Output}
    (h : c.compile source = .ok o) {typeName : String} {t : TypeDefinition}
    (ht : (Evaluator.of o).record? typeName = some t) (hne : typeName ≠ objectTypeName) :
    (∀ identity fields v,
      ((∀ identity' others, v ≠ .object identity' typeName others) →
        (∀ value, v ≠ .enumValue typeName value) →
          (Evaluator.of o).equalsObject (.object identity typeName fields) v = .ok false) ∧
      (∀ identity' others, v = .object identity' typeName others →
        (Evaluator.of o).equalsObject (.object identity typeName fields) v
          = (Evaluator.of o).equalsTyped (.object identity typeName fields) v)) ∧
    (t.kind = .classType →
      (Evaluator.of o).operator typeName .equality .null .null = .ok true ∧
      ∀ identity fields,
        (Evaluator.of o).operator typeName .equality .null (.object identity typeName fields)
          = .ok false ∧
        (Evaluator.of o).operator typeName .equality (.object identity typeName fields) .null
          = .ok false ∧
        ∀ identity' others,
          (Evaluator.of o).operator typeName .equality (.object identity typeName fields)
              (.object identity' typeName others)
            = (Evaluator.of o).equalsTyped (.object identity typeName fields)
              (.object identity' typeName others)) ∧
    (t.kind = .structType → ∀ r,
      (∀ identity fields,
        (Evaluator.of o).operator typeName .equality (.object identity typeName fields) r
          = (Evaluator.of o).equalsTyped (.object identity typeName fields) r) ∧
      (Evaluator.of o).operator typeName .equality .null r = .error .equalsOnNull) ∧
    ∀ l r, (Evaluator.of o).operator typeName .inequality l r
      = ((Evaluator.of o).operator typeName .equality l r).map (!·) := by
  obtain ⟨document, -, hgenerate⟩ := compile_eq_ok h
  have he : (Evaluator.of o).RunsGenerated := Evaluator.runsGenerated_of_generate hgenerate
  refine ⟨fun identity fields v => ⟨fun hobject henum => ?_, ?_⟩, fun hclass => ?_, fun hstruct r => ?_,
    fun l r => ?_⟩
  · rw [Evaluator.equalsObject_eq he ht hne, if_neg]
    rw [Value.fitsName_iff hne]
    rintro (⟨identity', others, hv⟩ | ⟨value, hv⟩)
    · exact hobject identity' others hv
    · exact henum value hv
  · rintro identity' others rfl
    rw [Evaluator.equalsObject_eq he ht hne,
      if_pos ((Value.fitsName_iff hne).mpr (Or.inl ⟨identity', others, rfl⟩))]
  · have hnull : ∀ v, (Evaluator.of o).operator typeName .equality .null v = .ok v.isNull := by
      intro v
      rw [Evaluator.operator_null he ht, if_neg (by rw [hclass]; simp)]
    refine ⟨hnull .null, fun identity fields => ⟨hnull _, ?_, fun identity' others => ?_⟩⟩
    · rw [Evaluator.operator_equality he ht, Evaluator.equalsTyped_null he ht hclass]
    · exact Evaluator.operator_equality he ht _
  · refine ⟨fun identity fields => Evaluator.operator_equality he ht r, ?_⟩
    rw [Evaluator.operator_null he ht, if_pos hstruct]
  · exact Evaluator.operator_inequality he ht l r

/-! ### Keys -/

namespace Keys

/-- A source with a struct and a class that holds one. -/
def source : String := "(namespace T (defvaluetype Id int) (defdto D (Id Key)))"

/-- What the source compiles to. -/
def output : Output := (Compiler.standard.compile source).toOption.get (by decide +kernel)

/-- The class. -/
def holder : TypeDefinition := ((Evaluator.of output).record? "T.D").get (by decide +kernel)

theorem compile_source : Compiler.standard.compile source = .ok output := by
  unfold output
  exact Outcome.eq_ok_get _

theorem record_holder : (Evaluator.of output).record? "T.D" = some holder := by
  unfold holder
  exact (Option.some_get _).symm

theorem members_agree :
    Compiler.standard.compile source = .ok output ∧
      (Evaluator.of output).record? "T.D" = some holder ∧ "T.D" ≠ objectTypeName ∧
      holder.kind = .classType ∧
      (Evaluator.of output).equalsObject (.object 0 "T.D" [("_key", .null)]) (.int 7) = .ok false ∧
      (Evaluator.of output).operator "T.D" .equality .null (.object 0 "T.D" [("_key", .null)])
        = .ok false ∧
      (Evaluator.of output).operator "T.D" .inequality .null (.object 0 "T.D" [("_key", .null)])
        = .ok true := by
  have hne : "T.D" ≠ objectTypeName := by decide
  have hclass : holder.kind = .classType := by decide +kernel
  obtain ⟨hobject, hoperators, -, hinequality⟩ :=
    Compiler.equality_members_agree compile_source record_holder hne
  have hequality := ((hoperators hclass).2 0 [("_key", .null)]).1
  refine ⟨compile_source, record_holder, hne, hclass, (hobject _ _ (.int 7)).1 (by simp) (by simp),
    hequality, ?_⟩
  rw [hinequality, hequality]
  rfl

end Keys

/-! ## The null-safe comparison -/

/-- The first slot that is compared as different decides, if all slots before it are equal. -/
theorem Calls.slotsEqual_eq_false_iff {calls : Calls} {a b : Value} : ∀ {slots : List Slot},
    calls.slotsEqual a b slots = .ok false ↔ ∃ before s after, slots = before ++ s :: after ∧
      (∀ earlier ∈ before, calls.slotEqual a b earlier = .ok true) ∧
        calls.slotEqual a b s = .ok false := by
  intro slots
  induction slots with
  | nil =>
    refine ⟨(fun h => by cases h), ?_⟩
    rintro ⟨before, s, after, h, -⟩
    cases before <;> cases h
  | cons first rest ih =>
    rw [slotsEqual, Outcome.bind_eq_ok]
    constructor
    · rintro ⟨same, hfirst, h⟩
      cases same with
      | false => exact ⟨[], first, rest, rfl, List.forall_mem_nil _, hfirst⟩
      | true =>
        obtain ⟨before, s, after, rfl, hbefore, hs⟩ := ih.mp h
        exact ⟨first :: before, s, after, rfl, List.forall_mem_cons.mpr ⟨hfirst, hbefore⟩, hs⟩
    · rintro ⟨before, s, after, hsplit, hbefore, hs⟩
      cases before with
      | nil =>
        cases hsplit
        exact ⟨false, hs, rfl⟩
      | cons earlier before =>
        cases hsplit
        obtain ⟨hfirst, hbefore⟩ := List.forall_mem_cons.mp hbefore
        exact ⟨true, hfirst, ih.mpr ⟨before, s, after, rfl, hbefore, hs⟩⟩

namespace Evaluator

variable {e : Evaluator} {typeName typeName' : String} {t : TypeDefinition} {kind : RecordKind}
  {slots : List Slot} {identity identity' : Nat} {fields others : List (String × Value)}

theorem equalsObject_of_ne (he : e.RunsGenerated) (ht : e.record? typeName = some t)
    (hname : typeName ≠ typeName') (hobject : typeName ≠ objectTypeName) :
    e.equalsObject (.object identity typeName fields) (.object identity' typeName' others)
      = .ok false := by
  rw [equalsObject_eq he ht hobject, if_neg]
  simp [Value.fitsName, hobject, hname.symm]

/-- **The null-safe comparison agrees with object equality** if it does not reach an instance of
another type, or finds it different. -/
theorem nullSafeEquals_eq_equalsObject_iff (he : e.RunsGenerated) (ht : e.record? typeName = some t)
    (hrec : t.IsRecord kind slots) {l r : Value} (hl : l = .object identity typeName fields)
    (hr : r = .object identity' typeName' others) :
    e.nullSafeEquals l r = e.equalsObject l r ↔
      typeName = typeName' ∨ typeName = objectTypeName ∨
        ∃ before s after, slots = before ++ s :: after ∧
          (∀ earlier ∈ before, (e.callsFor [l, r]).slotEqual l r earlier = .ok true) ∧
          (e.callsFor [l, r]).slotEqual l r s = .ok false := by
  have hnull : r.isNull = false := by rw [hr]; rfl
  subst hl
  rw [← Calls.slotsEqual_eq_false_iff, ← equalsTyped_eq_slotsEqual he ht hrec hnull,
    nullSafeEquals_object he hnull]
  by_cases hname : typeName = typeName' ∨ typeName = objectTypeName
  · rw [hr, equalsObject_eq_equalsTyped he ht hname]
    exact ⟨fun _ => hname.imp_right Or.inl, fun _ => rfl⟩
  · rw [not_or] at hname
    rw [hr, equalsObject_of_ne he ht hname.1 hname.2]
    exact ⟨fun h => Or.inr (Or.inr h), fun h => (h.resolve_left hname.1).resolve_left hname.2⟩

end Evaluator

/-- **When the null-safe comparison agrees with object equality.**  For two instances that were made
of classes or structs that a source compiles to, they always do if the types are the same, and then
the order does not matter to well-formed instances.  Instances of different types differ as objects.
The null-safe comparison only agrees with that if it meets a member that differs before it meets one
that the right instance does not have. -/
theorem Compiler.nullSafeEquals_agrees_iff {c : Compiler} {source : String} {o : Output}
    (h : c.compile source = .ok o) {typeName typeName' : String} {t u : TypeDefinition}
    (ht : (Evaluator.of o).record? typeName = some t)
    (hu : (Evaluator.of o).record? typeName' = some u) {identity identity' : Nat}
    {arguments arguments' : List Value} {l r : Value}
    (hl : (Evaluator.of o).construct identity typeName arguments = .ok l)
    (hr : (Evaluator.of o).construct identity' typeName' arguments' = .ok r) :
    (typeName = typeName' →
      (Evaluator.of o).nullSafeEquals l r = (Evaluator.of o).equalsObject l r ∧
      ((Evaluator.of o).isInstance t l = true → (Evaluator.of o).isInstance t r = true →
        (Evaluator.of o).nullSafeEquals r l = (Evaluator.of o).nullSafeEquals l r)) ∧
    (typeName ≠ typeName' → typeName ≠ objectTypeName →
      (Evaluator.of o).equalsObject l r = .ok false) ∧
    ∃ kind slots, t.IsGenerated kind slots ∧
      ((Evaluator.of o).nullSafeEquals l r = (Evaluator.of o).equalsObject l r ↔
        typeName = typeName' ∨ typeName = objectTypeName ∨
          ∃ before s after, slots = before ++ s :: after ∧
            (∀ earlier ∈ before,
              ((Evaluator.of o).callsFor [l, r]).slotEqual l r earlier = .ok true) ∧
            ((Evaluator.of o).callsFor [l, r]).slotEqual l r s = .ok false) := by
  obtain ⟨document, -, hgenerate⟩ := compile_eq_ok h
  have he : (Evaluator.of o).RunsGenerated := Evaluator.runsGenerated_of_generate hgenerate
  obtain ⟨-, kind, slots, hgen⟩ := Evaluator.exists_isGenerated he ht
  obtain ⟨-, kind', slots', hgen'⟩ := Evaluator.exists_isGenerated he hu
  obtain ⟨-, identity₁, hl⟩ := Evaluator.exists_of_construct ht hgen hl
  obtain ⟨-, identity₂, hr⟩ := Evaluator.exists_of_construct hu hgen' hr
  refine ⟨fun hname => ?_, fun hname hobject => ?_, kind, slots, hgen,
    Evaluator.nullSafeEquals_eq_equalsObject_iff he ht hgen.toIsRecord hl hr⟩
  · subst hl hr hname
    refine ⟨?_, fun hinstance hinstance' => ?_⟩
    · rw [Evaluator.nullSafeEquals_object he rfl,
        Evaluator.equalsObject_eq_equalsTyped he ht (Or.inl rfl)]
    · have hrecords : (Evaluator.of o).RunsRecords := Evaluator.runsRecords_of_generate hgenerate
      obtain ⟨rfl, -⟩ := hrecords ht
      rw [Evaluator.nullSafeEquals_object he rfl, Evaluator.nullSafeEquals_object he rfl,
        Evaluator.equalsTyped_eq hrecords ht hinstance hinstance',
        Evaluator.equalsTyped_eq hrecords ht hinstance' hinstance, Value.sameStructure_comm]
  · rw [hl, hr]
    exact Evaluator.equalsObject_of_ne he ht hname hobject

/-! ### Types without properties -/

namespace Bare

/-- A source with two types that have nothing to compare. -/
def source : String := "(namespace T (defdto A ()) (defdto B ()))"

/-- What the source compiles to. -/
def output : Output := (Compiler.standard.compile source).toOption.get (by decide +kernel)

/-- The first type. -/
def first : TypeDefinition := ((Evaluator.of output).record? "T.A").get (by decide +kernel)

/-- The second type. -/
def second : TypeDefinition := ((Evaluator.of output).record? "T.B").get (by decide +kernel)

/-- An instance of the first type. -/
def left : Value := ((Evaluator.of output).construct 0 "T.A" []).toOption.get (by decide +kernel)

/-- An instance of the second type. -/
def right : Value := ((Evaluator.of output).construct 1 "T.B" []).toOption.get (by decide +kernel)

theorem compile_source : Compiler.standard.compile source = .ok output := by
  unfold output
  exact Outcome.eq_ok_get _

theorem record_first : (Evaluator.of output).record? "T.A" = some first := by
  unfold first
  exact (Option.some_get _).symm

theorem record_second : (Evaluator.of output).record? "T.B" = some second := by
  unfold second
  exact (Option.some_get _).symm

theorem construct_left : (Evaluator.of output).construct 0 "T.A" [] = .ok left := by
  unfold left
  exact Outcome.eq_ok_get _

theorem construct_right : (Evaluator.of output).construct 1 "T.B" [] = .ok right := by
  unfold right
  exact Outcome.eq_ok_get _

theorem accessors_first : first.accessors = [] := by decide +kernel

/-- The instances differ as objects, and the null-safe comparison does not say so. -/
theorem not_told_apart :
    Compiler.standard.compile source = .ok output ∧
      (Evaluator.of output).record? "T.A" = some first ∧
      (Evaluator.of output).record? "T.B" = some second ∧
      (Evaluator.of output).construct 0 "T.A" [] = .ok left ∧
      (Evaluator.of output).construct 1 "T.B" [] = .ok right ∧
      (Evaluator.of output).equalsObject left right = .ok false ∧
      (Evaluator.of output).nullSafeEquals left right ≠ .ok false := by
  obtain ⟨-, hdiffer, kind, slots, hgen, hiff⟩ := Compiler.nullSafeEquals_agrees_iff compile_source
    record_first record_second construct_left construct_right
  have hobjects := hdiffer (by decide) (by decide)
  refine ⟨compile_source, record_first, record_second, construct_left, construct_right, hobjects, ?_⟩
  intro hfalse
  rcases hiff.mp (hfalse.trans hobjects.symm) with hname | hname | ⟨before, s, after, hslots, -⟩
  · exact absurd hname (by decide)
  · exact absurd hname (by decide)
  · have hnone := hgen.accessors_eq
    rw [accessors_first, hslots] at hnone
    simp at hnone

end Bare

end DomainForms
