import DomainForms.Proofs.Eval.Comparison
import DomainForms.Proofs.Eval.Depth

/-!
# The depth of calls is enough

Generated code calls down only.  A property reads a field whose name is longer than its own, so the
properties that are read for one another are all different, and a value that is read from an instance
is a part of it.  Equality reads members and then compares what was read, which is smaller than the
instance.  The members of all types and the size of the left value together bound the depth, for any
values whatsoever, and the depth that the evaluator allows lies above that bound.

* `Evaluator.settled_read`, `Evaluator.mem_fields_of_read`: reading a member settles, and gives a part.
* `Evaluator.settled_equals`: **equality of an instance with anything settles.**
* `Evaluator.equals_eq_equalsTyped`: the answer of equality does not depend on the depth.
-/

namespace DomainForms

/-! ## Names of fields -/

theorem Text.lowerCase_ne_nil (c : Char) : lowerCase c ≠ [] := by
  unfold lowerCase
  split
  · simp
  · split <;> simp

/-- **The name of a field is longer than the name of its property.** -/
theorem length_lt_length_fieldName (property : String) :
    property.length < (fieldName property).length := by
  rw [fieldName, String.length_append, parameterName, Text.lowerFirst, ← String.length_toList]
  cases property.toList with
  | nil => decide
  | cons c rest =>
    have hc : 0 < (Text.lowerCase c).length := List.length_pos_of_ne_nil (Text.lowerCase_ne_nil c)
    have hunder : "_".length = 1 := by decide
    simp only [String.length_ofList, List.length_append, List.length_cons, hunder]
    omega

/-! ## Evaluators of outputs -/

/-- Every type of an evaluator stands under its own full name, and is a record type or has nothing
to run. -/
def Evaluator.RunsGenerated (e : Evaluator) : Prop :=
  ∀ {typeName : String} {t : TypeDefinition}, e.types.find? typeName = some t →
    t.fullName = typeName ∧ ((∃ kind slots, t.IsGenerated kind slots) ∨ t.Inert)

theorem Evaluator.runsGenerated_of_generate {m : Model} {o : Output} (h : m.generate = .ok o) :
    (Evaluator.of o).RunsGenerated := by
  intro typeName t ht
  obtain ⟨hm, hname⟩ := mem_types_of_find? ht
  exact ⟨hname, Model.generated_or_inert h t hm⟩

namespace Evaluator

variable {e : Evaluator}

theorem exists_isGenerated (he : e.RunsGenerated) {typeName : String} {t : TypeDefinition}
    (ht : e.record? typeName = some t) :
    t.fullName = typeName ∧ ∃ kind slots, t.IsGenerated kind slots := by
  obtain ⟨hfind, hk⟩ := record?_eq_some.mp ht
  obtain ⟨hname, hgen | hinert⟩ := he hfind
  · exact ⟨hname, hgen⟩
  · rw [hinert.kind] at hk
    cases hk

theorem members_le_foldl : ∀ (types : NameMap TypeDefinition) (start : Nat),
    start ≤ types.foldl (fun count (_, type) => count + type.members.length) start ∧
      ∀ entry ∈ types, entry.2.members.length
        ≤ types.foldl (fun count (_, type) => count + type.members.length) start := by
  intro types
  induction types with
  | nil => intro start; exact ⟨Nat.le_refl _, fun _ hm => by cases hm⟩
  | cons first rest ih =>
    intro start
    obtain ⟨hstart, hrest⟩ := ih (start + first.2.members.length)
    refine ⟨Nat.le_trans (Nat.le_add_right _ _) hstart, fun entry hm => ?_⟩
    rcases List.mem_cons.mp hm with rfl | hm
    · exact Nat.le_trans (Nat.le_add_left _ _) hstart
    · exact hrest entry hm

theorem length_accessors_le {typeName : String} {t : TypeDefinition}
    (ht : e.types.find? typeName = some t) : t.accessors.length ≤ e.memberCount :=
  calc t.accessors.length ≤ t.members.length := List.length_filterMap_le _ _
    _ ≤ e.memberCount := (members_le_foldl e.types 0).2 _ (NameMap.mem_of_find? _ ht)

/-! ## Reading -/

theorem countP_lt_countP {α : Type} {p q : α → Bool} {items : List α} {a : α}
    (h : ∀ x, q x = true → p x = true) (hm : a ∈ items) (hp : p a = true) (hq : ¬ q a = true) :
    items.countP q < items.countP p := by
  obtain ⟨before, after, rfl⟩ := List.append_of_mem hm
  have hbefore : before.countP q ≤ before.countP p := List.countP_mono_left fun x _ => h x
  have hafter : after.countP q ≤ after.countP p := List.countP_mono_left fun x _ => h x
  rw [List.countP_append, List.countP_append, List.countP_cons_of_pos hp,
    List.countP_cons_of_neg hq]
  omega

/-- **Reading a member settles** once the depth is more than the number of properties whose names
are at least as long as the name that is read. -/
theorem settled_read_of_longer (he : e.RunsGenerated) {identity : Nat} {typeName : String}
    {fields : List (String × Value)} {t : TypeDefinition} (ht : e.types.find? typeName = some t) :
    ∀ {depth : Nat} {name : String},
      t.accessors.countP (fun a => decide (name.length ≤ a.name.length)) < depth →
        Settled ((e.callsAt depth).read (.object identity typeName fields) name) := by
  intro depth
  induction depth with
  | zero => intro name h; omega
  | succ depth ih =>
    intro name h
    rw [callsAt]
    simp only [readWith, lookup, ht, Outcome.ok_bind]
    cases NameMap.find? name fields with
    | some v => exact Settled.ok v
    | none =>
      cases hfind : t.accessors.find? (·.name == name) with
      | none => intro hc; cases hc
      | some a =>
        obtain rfl : a.name = name := by simpa using List.find?_some hfind
        have hmem := List.mem_of_find?_eq_some hfind
        obtain ⟨-, ⟨kind, slots, hgen⟩ | hinert⟩ := he ht
        · have hslot := hmem
          rw [hgen.accessors_eq] at hslot
          obtain ⟨s, hs, rfl⟩ := List.mem_map.mp hslot
          -- the property itself is not among those that the field can lead to
          have hlonger : s.property.length < s.field.length := by
            rw [hgen.field_eq s hs]
            exact length_lt_length_fieldName s.property
          refine ih (Nat.lt_of_lt_of_le (countP_lt_countP ?_ hmem ?_ ?_) (Nat.lt_succ_iff.mp h))
          · intro a ha
            exact decide_eq_true (Nat.le_trans (Nat.le_of_lt hlonger) (of_decide_eq_true ha))
          · exact decide_eq_true (Nat.le_refl _)
          · exact fun hle => Nat.not_le.mpr hlonger (of_decide_eq_true hle)
        · rw [hinert.accessors] at hmem
          cases hmem

theorem settled_read (he : e.RunsGenerated) {depth : Nat} (h : e.memberCount < depth)
    (target : Value) (name : String) : Settled ((e.callsAt depth).read target name) := by
  obtain ⟨depth, rfl⟩ : ∃ d, depth = d + 1 := ⟨depth - 1, by omega⟩
  cases target with
  | object identity typeName fields =>
    cases ht : e.types.find? typeName with
    | some t =>
      have hcount := List.countP_le_length (p := fun a : Accessor =>
        decide (name.length ≤ a.name.length)) (l := t.accessors)
      exact settled_read_of_longer he ht (by have := length_accessors_le ht; omega)
    | none =>
      rw [callsAt]
      simp only [readWith, lookup, ht]
      cases NameMap.find? name fields with
      | some v => exact Settled.ok v
      | none => intro hc; cases hc
  | _ => intro hc; cases hc

/-- **What is read from an instance is the value of one of its fields.** -/
theorem mem_fields_of_read (he : e.RunsGenerated) {identity : Nat} {typeName : String}
    {fields : List (String × Value)} {v : Value} : ∀ {depth : Nat} {name : String},
      (e.callsAt depth).read (.object identity typeName fields) name = .ok v →
        ∃ key, (key, v) ∈ fields := by
  intro depth
  induction depth with
  | zero => intro name h; cases h
  | succ depth ih =>
    intro name h
    rw [callsAt] at h
    simp only [readWith, lookup] at h
    cases hfind : NameMap.find? name fields with
    | some w =>
      rw [hfind] at h
      cases h
      exact ⟨name, NameMap.mem_of_find? fields hfind⟩
    | none =>
      rw [hfind] at h
      cases ht : e.types.find? typeName with
      | none => rw [ht] at h; cases h
      | some t =>
        rw [ht] at h
        simp only [Outcome.ok_bind] at h
        split at h
        · rename_i a ha
          have hmem := List.mem_of_find?_eq_some ha
          obtain ⟨-, ⟨kind, slots, hgen⟩ | hinert⟩ := he ht
          · rw [hgen.accessors_eq] at hmem
            obtain ⟨s, -, rfl⟩ := List.mem_map.mp hmem
            exact ih h
          · rw [hinert.accessors] at hmem
            cases hmem
        · cases h

theorem size_lt_of_read (he : e.RunsGenerated) {depth : Nat} {target v : Value} {name : String}
    (h : (e.callsAt depth).read target name = .ok v) : v.size < target.size := by
  cases target with
  | object identity typeName fields =>
    obtain ⟨key, hm⟩ := mem_fields_of_read he h
    have := Value.size_le_sizeFields hm
    rw [Value.size]
    omega
  | _ =>
    cases depth <;> cases h

end Evaluator

/-! ## Comparing -/

theorem Value.settled_directlyEquals (v w : Value) : Settled (v.directlyEquals w) := by
  cases v <;> cases w <;> intro h <;> cases h

namespace Calls

variable {calls : Calls}

theorem settled_pairwise {equals : Value → Value → Except Fault Bool} : ∀ {as bs : List Value},
    (∀ a ∈ as, ∀ b, Settled (equals a b)) → Settled (pairwise equals as bs) := by
  intro as
  induction as with
  | nil => intro bs _; cases bs <;> exact Settled.ok true
  | cons a as ih =>
    intro bs h
    cases bs with
    | nil => exact Settled.ok true
    | cons b bs =>
      rw [pairwise]
      refine (h a List.mem_cons_self b).bind fun same _ => ?_
      cases same with
      | true => exact ih fun x hx => h x (List.mem_cons_of_mem _ hx)
      | false => exact Settled.ok false

theorem settled_nullSafeEquals {v w : Value}
    (h : ∀ identity typeName fields, v = .object identity typeName fields →
      Settled (calls.equals v w (.ofName typeName))) : Settled (calls.nullSafeEquals v w) := by
  unfold nullSafeEquals
  split
  · exact Settled.ok true
  · exact Settled.ok false
  · exact Settled.ok false
  · exact h _ _ _ rfl
  · exact Value.settled_directlyEquals _ _

/-- Calls that compare values up to a size. -/
def Settles (calls : Calls) (bound : Nat) : Prop :=
  ∀ v w : Value, v.size ≤ bound → Settled (calls.nullSafeEquals v w)

theorem Settles.itemsEqual {bound : Nat} (h : calls.Settles bound) (element : ElementComparison)
    {as bs : List Value} (hsize : Value.sizeItems as ≤ bound) :
    Settled (calls.itemsEqual element as bs) := by
  unfold Calls.itemsEqual
  split
  · exact Settled.ok false
  · cases element with
    | value => exact settled_pairwise fun a _ b => a.settled_directlyEquals b
    | nullSafe =>
      refine settled_pairwise fun a ha b => h a b ?_
      have := Value.size_le_sizeItems ha
      omega

theorem Settles.arraysEqual {bound : Nat} (h : calls.Settles bound) (element : ElementComparison)
    {v w : Value} (hsize : v.size ≤ bound) : Settled (calls.arraysEqual element v w) := by
  unfold Calls.arraysEqual
  split
  · exact Settled.ok _
  · refine Settled.bind (by cases v <;> intro hc <;> cases hc) fun lefts hv => ?_
    refine Settled.bind (by cases w <;> intro hc <;> cases hc) fun rights _ => ?_
    rw [Value.asArray_eq_ok hv, Value.size] at hsize
    exact h.itemsEqual element (by omega)

/-- A comparison of slots settles if reading members does, and comparing what is read. -/
theorem Settles.slotsEqual {bound : Nat} (h : calls.Settles bound)
    (hread : ∀ target name, Settled (calls.read target name)) {a b : Value}
    (hpart : ∀ name v, calls.read a name = .ok v → v.size ≤ bound) :
    ∀ slots : List Slot, Settled (calls.slotsEqual a b slots) := by
  intro slots
  induction slots with
  | nil => exact Settled.ok true
  | cons s rest ih =>
    have hslot : Settled (calls.slotEqual a b s) := by
      refine (hread a s.field).bind fun v hv => (hread b s.field).bind fun w _ => ?_
      unfold Slot.compare
      split
      · exact h v w (hpart _ v hv)
      · split
        · exact h.arraysEqual _ (hpart _ v hv)
        · exact Settled.ok false
      · exact v.settled_directlyEquals w
    rw [Calls.slotsEqual]
    refine hslot.bind fun same _ => ?_
    cases same with
    | true => exact ih
    | false => exact Settled.ok false

end Calls

namespace Evaluator

variable {e : Evaluator}

/-- **Equality of an instance within its type settles**, with anything on the right. -/
theorem settled_equals (he : e.RunsGenerated) : ∀ {depth identity : Nat} {typeName : String}
    {fields : List (String × Value)} {b : Value},
      (Value.object identity typeName fields).size + e.memberCount < depth →
        Settled ((e.callsAt depth).equals (.object identity typeName fields) b
          (.ofName typeName)) := by
  intro depth
  induction depth with
  | zero => intro identity typeName fields b h; omega
  | succ depth ih =>
    intro identity typeName fields b h
    rw [callsAt]
    simp only
    cases ht : e.types.find? typeName with
    | none =>
      rw [equalsWith, lookup, ht]
      intro hc
      cases hc
    | some t =>
      have hlookup : e.lookup typeName = .ok t := by rw [lookup, ht]
      obtain ⟨rfl, ⟨kind, slots, hgen⟩ | hinert⟩ := he ht
      · rw [show TypeRef.ofName t.fullName = t.typeRef from rfl,
          equalsWith_typed hgen.toIsRecord hlookup]
        split
        · exact Settled.ok false
        · have hpos := (Value.object identity t.fullName fields).size_pos
          have hparts : (e.callsAt depth).Settles (Value.sizeFields fields) := by
            intro v w hsize
            rw [Value.size] at h
            refine Calls.settled_nullSafeEquals ?_
            rintro identity' typeName' fields' rfl
            exact ih (by omega)
          refine hparts.slotsEqual (fun target name => settled_read he (by omega) target name) ?_
            slots
          intro name v hv
          have hpart := size_lt_of_read he hv
          rw [Value.size] at hpart
          omega
      · rw [equalsWith, hlookup, Outcome.ok_bind]
        cases hmethod : t.methodWithParameter? equalsName (.ofName t.fullName) with
        | none => intro hc; cases hc
        | some method =>
          have hbody := hinert.methods equalsName method (List.mem_of_find?_eq_some hmethod)
          simp only [invoke, hbody]
          intro hc
          cases hc

theorem size_add_memberCount_lt_depth {v : Value} {arguments : List Value} (h : v ∈ arguments) :
    v.size + e.memberCount < e.depth arguments := by
  have hsize := Value.size_le_sizeItems h
  have hmul : e.memberCount * 1 ≤ e.memberCount * (Value.sizeItems arguments + 2) :=
    Nat.mul_le_mul_left _ (by omega)
  rw [depth, Nat.add_mul]
  omega

/-- **Equality within a type gives one answer**, called from a body or from outside. -/
theorem equals_eq_equalsTyped (he : e.RunsGenerated) {identity : Nat} {typeName : String}
    {fields : List (String × Value)} (b : Value) :
    (e.callsFor [.object identity typeName fields, b]).equals (.object identity typeName fields) b
      (.ofName typeName) = e.equalsTyped (.object identity typeName fields) b := by
  have hdepth := size_add_memberCount_lt_depth (e := e)
    (List.mem_cons_self (a := Value.object identity typeName fields) (l := [b]))
  rw [equalsTyped, callsFor]
  generalize e.depth [.object identity typeName fields, b] = depth at hdepth
  have hkept := (callsAt_keptBy_succ (e := e) depth).equals (.object identity typeName fields) b
    (.ofName typeName)
  rw [hkept.eq_of_settled (settled_equals he hdepth), callsAt_succ]

end Evaluator

end DomainForms
