import DomainForms.Proofs.Eval.Construction
import DomainForms.Proofs.Eval.HashCode
import Mathlib.Algebra.Ring.Int.Defs

/-!
# Hash codes are sums

The generated hash code of an instance adds up the hash codes of its fields of value types, and looks
at nothing else.  So it has an answer as soon as these fields can be hashed: arrays and instances of
classes may be anything, for they are not looked at.

* `Evaluator.hashable`, `Evaluator.isHashable`: what can be hashed, as a field and as an instance.
* `Evaluator.HashesAlike`: two evaluators that differ in the order of slots only.
* `Evaluator.exists_hashWith`, `Evaluator.exists_callsAt_hash`: one call of a hash code, and a call at
  any sufficient depth.
* `Evaluator.hash_eq_sum`: **the hash code is the sum over the fields of value types.**
* `Evaluator.hash_eq_hash`: it is the same where the slots stand in another order.
-/

namespace DomainForms

/-! ## Sums -/

/-- **The sum of integers that wrap** is the sum of the integers, wrapped once. -/
theorem toInt_sum (codes : List Int64) :
    codes.sum.toInt = (codes.map Int64.toInt).sum.bmod Int64.size := by
  induction codes with
  | nil => decide
  | cons code codes ih =>
    rw [List.sum_cons, List.map_cons, List.sum_cons, Int64.toInt_add, ih]
    exact Int.add_bmod_bmod

/-! ## What can be hashed -/

namespace Evaluator

/-- The struct that a type names. -/
def struct? (e : Evaluator) : TypeRef → Option TypeDefinition
  | .named name => (e.record? name.fullName).filter fun t => t.kind = .structType
  | _ => none

/-- Whether a type is an array or names a class, whose values no hash code looks at. -/
def isIgnored (e : Evaluator) : TypeRef → Bool
  | .named name => (e.record? name.fullName).any fun t => t.kind = .classType
  | .array .. => true
  | _ => false

mutual

/-- Whether a value can be hashed in a field of a type.  An array or a class can hold anything, a
struct null or an instance of itself that can be hashed, and any other type a scalar. -/
def hashable (e : Evaluator) : Value → TypeRef → Bool
  | .null, _ => true
  | .array _, type => e.isIgnored type
  | .object _ typeName fields, type =>
    e.isIgnored type || match e.struct? type with
      | some t => typeName == t.fullName && fieldsHashable e fields t.fieldTypes
      | none => false
  | _, type => e.isIgnored type || (e.struct? type).isNone

/-- Whether fields have exactly the given names, with values that can be hashed. -/
def fieldsHashable (e : Evaluator) : List (String × Value) → NameMap TypeRef → Bool
  | [], [] => true
  | (name, value) :: rest, (expected, type) :: types =>
    name == expected && e.hashable value type && fieldsHashable e rest types
  | _, _ => false

end

/-- Whether a value is an instance of a type that can be hashed. -/
def isHashable (e : Evaluator) (t : TypeDefinition) : Value → Bool
  | .object _ typeName fields => typeName == t.fullName && e.fieldsHashable fields t.fieldTypes
  | _ => false

variable {e : Evaluator} {hashed : TypeRef → Bool}

theorem struct?_eq_some {type : TypeRef} {t : TypeDefinition} (h : e.struct? type = some t) :
    ∃ name, type = .named name ∧ e.record? name.fullName = some t ∧ t.kind = .structType := by
  cases type with
  | named name =>
    obtain ⟨ht, hkind⟩ := Option.filter_eq_some_iff.mp h
    exact ⟨name, rfl, ht, of_decide_eq_true hkind⟩
  | _ => cases h

/-- **Every field is there**, with a value that can be hashed. -/
theorem find?_of_fieldsHashable {name : String} {type : TypeRef} :
    ∀ {fields : List (String × Value)} {types : NameMap TypeRef},
      e.fieldsHashable fields types = true → types.find? name = some type →
        ∃ v, NameMap.find? name fields = some v ∧ e.hashable v type = true := by
  intro fields
  induction fields with
  | nil =>
    intro types h hfind
    cases types with
    | nil => cases hfind
    | cons expected types => cases h
  | cons field rest ih =>
    intro types h hfind
    cases types with
    | nil => cases h
    | cons expected types =>
      obtain ⟨key, value⟩ := field
      obtain ⟨key', held⟩ := expected
      rw [fieldsHashable, Bool.and_eq_true, Bool.and_eq_true, beq_iff_eq] at h
      obtain ⟨⟨rfl, hvalue⟩, hrest⟩ := h
      rw [NameMap.find?] at hfind ⊢
      split at hfind
      · cases hfind
        exact ⟨value, if_pos ‹_›, hvalue⟩
      · rw [if_neg ‹_›]
        exact ih hrest hfind

/-- What can be hashed in a field that is looked at is a scalar, or an instance of a struct. -/
theorem hashable_cases
    (he : ∀ {typeName : String} {t : TypeDefinition}, e.record? typeName = some t →
      t.fullName = typeName) {v : Value} {type : TypeRef} (h : e.hashable v type = true)
    (hlooked : e.isIgnored type = false) :
    v.isScalar = true ∨ ∃ t, e.record? t.fullName = some t ∧ e.isHashable t v = true := by
  cases v with
  | array items =>
    rw [hashable, hlooked] at h
    cases h
  | object identity typeName fields =>
    rw [hashable, hlooked, Bool.false_or] at h
    split at h
    · rename_i t ht
      obtain ⟨name, -, hrecord, -⟩ := struct?_eq_some ht
      exact Or.inr ⟨t, (he hrecord).symm ▸ hrecord, h⟩
    · cases h
  | _ => exact Or.inl rfl

/-! ## Calls -/

/-- Two evaluators with the same classes and structs, up to the order of their slots, whose slots of
value types are those of the hashed types. -/
def HashesAlike (e e' : Evaluator) (hashed : TypeRef → Bool) : Prop :=
  ∀ {typeName : String} {t : TypeDefinition}, e.record? typeName = some t →
    t.fullName = typeName ∧ ∃ t' kind kind' slots slots', e'.record? typeName = some t' ∧
      t'.fullName = typeName ∧ t.IsRecord kind slots ∧ t'.IsRecord kind' slots' ∧ slots.Perm slots' ∧
        ∀ s ∈ slots, s.isValueType = hashed s.type

theorem HashesBy.hashesAlike (he : e.HashesBy hashed) : e.HashesAlike e hashed := by
  intro typeName t ht
  obtain ⟨hname, kind, slots, hrec, hvalue⟩ := he ht
  exact ⟨hname, t, kind, kind, slots, slots, ht, hname, hrec, hrec, List.Perm.refl _, hvalue⟩

variable {e' : Evaluator}

/-- **One call of a hash code** has the same answer in both evaluators, if the calls that it makes
do. -/
theorem exists_hashWith (he : e.HashesAlike e' hashed) {t : TypeDefinition}
    (ht : e.record? t.fullName = some t) {calls calls' : Calls} (hreads : calls.ReadsFields)
    (hreads' : calls'.ReadsFields) {fields : List (String × Value)}
    (hf : e.fieldsHashable fields t.fieldTypes = true)
    (hcalls : ∀ v type, e.hashable v type = true → hashed type = true →
      v.size ≤ Value.sizeFields fields → ∃ x, calls.hash v = .ok x ∧ calls'.hash v = .ok x)
    (identity identity' : Nat) :
    ∃ x, e.hashWith calls (.object identity t.fullName fields) = .ok x ∧
      e'.hashWith calls' (.object identity' t.fullName fields) = .ok x := by
  obtain ⟨-, t', kind, kind', slots, slots', ht', hname, hrec, hrec', hperm, hvalue⟩ := he ht
  let value : Slot → Int64 := fun s =>
    (calls.hash ((NameMap.find? s.field fields).getD .null)).toOption.getD 0
  have hslot : ∀ s ∈ slots, s.isValueType = true → ∃ v, NameMap.find? s.field fields = some v ∧
      calls.hash v = .ok (value s) ∧ calls'.hash v = .ok (value s) := by
    intro s hs hsv
    obtain ⟨v, hfind, hv⟩ := find?_of_fieldsHashable hf (hrec.find?_fieldTypes hs)
    obtain ⟨x, hx, hx'⟩ := hcalls v s.type hv (hvalue s hs ▸ hsv)
      (Value.size_le_sizeFields (NameMap.mem_of_find? fields hfind))
    have hvalue : value s = x := by
      simp only [value, hfind, Option.getD_some, hx]
      rfl
    rw [hvalue]
    exact ⟨v, hfind, hx, hx'⟩
  have hsum : e.hashWith calls (.object identity t.fullName fields)
      = .ok ((slots.filter Slot.isValueType).foldr (fun s sum => value s + sum) 0) :=
    hashWith_record ht hrec hreads fun s hs hsv =>
      (hslot s hs hsv).imp fun _ h => ⟨h.1, h.2.1⟩
  have hsum' : e'.hashWith calls' (.object identity' t'.fullName fields)
      = .ok ((slots'.filter Slot.isValueType).foldr (fun s sum => value s + sum) 0) :=
    hashWith_record (hname ▸ ht') hrec' hreads' fun s hs hsv =>
      (hslot s (hperm.mem_iff.mpr hs) hsv).imp fun _ h => ⟨h.1, h.2.2⟩
  -- the order of the slots does not matter to the sum
  rw [hname, ← (hperm.filter _).foldr_eq' (fun s _ s' _ sum => by ac_rfl) 0] at hsum'
  exact ⟨_, hsum, hsum'⟩

/-- **What can be hashed has a hash code**, at any depth above its size. -/
theorem exists_callsAt_hash (he : e.HashesAlike e' hashed)
    (hlooked : ∀ type, hashed type = true → e.isIgnored type = false) :
    ∀ (depth : Nat) {v : Value} {type : TypeRef}, e.hashable v type = true → hashed type = true →
      v.size ≤ depth →
        ∃ x, (e.callsAt (depth + 1)).hash v = .ok x ∧ (e'.callsAt (depth + 1)).hash v = .ok x := by
  intro depth
  induction depth with
  | zero =>
    intro v type _ _ hsize
    have := v.size_pos
    omega
  | succ depth ih =>
    intro v type hv htype hsize
    rw [callsAt_succ, callsAt_succ]
    rcases hashable_cases (fun ht => (he ht).1) hv (hlooked type htype) with hscalar | ⟨t, ht, hv⟩
    · exact ⟨_, hashWith_scalar hscalar, hashWith_scalar hscalar⟩
    · cases v with
      | object identity typeName fields =>
        rw [isHashable, Bool.and_eq_true, beq_iff_eq] at hv
        obtain ⟨rfl, hf⟩ := hv
        rw [Value.size] at hsize
        exact exists_hashWith he ht (callsAt_readsFields depth) (callsAt_readsFields depth) hf
          (fun w type' hw htype' hle => ih hw htype' (by omega)) identity identity
      | _ => cases hv

theorem hash_of_deeper {v : Value} {x : Int64} {depth deeper : Nat}
    (h : (e.callsAt depth).hash v = .ok x) (hle : depth ≤ deeper) :
    (e.callsAt deeper).hash v = .ok x := by
  have hkept := (callsAt_keptBy (e := e) hle).hash v
  rw [h] at hkept
  exact (hkept.eq_of_settled (Settled.ok x)).symm

/-- **The hash code does not depend on the depth.** -/
theorem exists_hash (he : e.HashesAlike e' hashed)
    (hlooked : ∀ type, hashed type = true → e.isIgnored type = false) {v : Value} {type : TypeRef}
    (hv : e.hashable v type = true) (htype : hashed type = true) :
    ∃ x, e.hash v = .ok x ∧
      (∀ arguments, v.size < e.depth arguments → (e.callsFor arguments).hash v = .ok x) ∧
      ∀ arguments, v.size < e'.depth arguments → (e'.callsFor arguments).hash v = .ok x := by
  obtain ⟨x, hx, hx'⟩ := exists_callsAt_hash he hlooked v.size hv htype (Nat.le_refl _)
  refine ⟨x, ?_, fun arguments hsize => ?_, fun arguments hsize => ?_⟩
  · have hle := size_le_depth (e := e) (List.mem_cons_self (a := v) (l := []))
    have hdeeper : (e.callsAt (e.depth [v] + 1)).hash v = .ok x := hash_of_deeper hx (by omega)
    rw [callsAt_succ] at hdeeper
    exact hdeeper
  · rw [callsFor]
    exact hash_of_deeper hx hsize
  · rw [callsFor]
    exact hash_of_deeper hx' hsize

theorem size_lt_depth {identity : Nat} {typeName : String} {fields : List (String × Value)} {n : Nat}
    (h : n ≤ Value.sizeFields fields) : n < e.depth [.object identity typeName fields] := by
  have hle := size_le_depth (e := e)
    (List.mem_cons_self (a := Value.object identity typeName fields) (l := []))
  rw [Value.size] at hle
  omega

/-! ## Instances -/

/-- The fields of hashed types are those of the slots of value types, in order. -/
theorem mapM_fields_eq {t : TypeDefinition} {kind : RecordKind} {slots : List Slot}
    (hrec : t.IsRecord kind slots) (hvalue : ∀ s ∈ slots, s.isValueType = hashed s.type)
    {α : Type} (step : String → Except Fault α) :
    (t.fields.filter fun f => hashed f.type).mapM (fun f => step f.name)
      = (slots.filter Slot.isValueType).mapM fun s => step s.field := by
  have hentries := congrArg (fun entries : List (String × TypeRef) =>
    (entries.filter fun entry => hashed entry.2).mapM fun entry => step entry.1) hrec.fieldEntries
  simp only [List.filter_map, List.mapM_map] at hentries
  rw [List.filter_congr hvalue]
  exact hentries

/-- **The hash code of an instance is the sum over its fields of hashed types.** -/
theorem hash_eq_sum (he : e.HashesBy hashed)
    (hlooked : ∀ type, hashed type = true → e.isIgnored type = false) {typeName : String}
    {t : TypeDefinition} (ht : e.record? typeName = some t) {a : Value}
    (ha : e.isHashable t a = true) :
    ∃ codes, (t.fields.filter fun f => hashed f.type).mapM (fun f => do
        e.hash (← e.get a f.name)) = .ok codes ∧ e.hash a = .ok codes.sum := by
  obtain ⟨rfl, kind, slots, hrec, hvalue⟩ := he ht
  cases a with
  | object identity typeName fields =>
    rw [isHashable, Bool.and_eq_true, beq_iff_eq] at ha
    obtain ⟨rfl, hf⟩ := ha
    let code : Slot → Int64 := fun s =>
      (e.hash ((NameMap.find? s.field fields).getD .null)).toOption.getD 0
    -- a field has one hash code, from outside and from the body
    have hslot : ∀ s ∈ slots, s.isValueType = true → ∃ v, NameMap.find? s.field fields = some v ∧
        e.hash v = .ok (code s) ∧
          (e.callsFor [.object identity t.fullName fields]).hash v = .ok (code s) := by
      intro s hs hsv
      obtain ⟨v, hfind, hv⟩ := find?_of_fieldsHashable hf (hrec.find?_fieldTypes hs)
      obtain ⟨x, hx, hcall, -⟩ := exists_hash he.hashesAlike hlooked hv (hvalue s hs ▸ hsv)
      have hcode : code s = x := by
        simp only [code, hfind, Option.getD_some, hx]
        rfl
      have hpart := Value.size_le_sizeFields (NameMap.mem_of_find? fields hfind)
      rw [hcode]
      exact ⟨v, hfind, hx, hcall _ (size_lt_depth hpart)⟩
    refine ⟨(slots.filter Slot.isValueType).map code, ?_, ?_⟩
    · rw [mapM_fields_eq hrec hvalue fun name => do e.hash (← e.get _ name), Outcome.mapM_eq_ok,
        List.forall₂_map_right_iff, List.forall₂_same]
      intro s hs
      obtain ⟨hs, hsv⟩ := List.mem_filter.mp hs
      obtain ⟨v, hfind, hx, -⟩ := hslot s hs hsv
      rw [get_of_field hfind, Outcome.ok_bind, hx]
    · have hreads : (e.callsFor [.object identity t.fullName fields]).ReadsFields :=
        callsFor_readsFields List.mem_cons_self
      have hcalls : ∀ s ∈ slots, s.isValueType = true → ∃ v, NameMap.find? s.field fields = some v ∧
          (e.callsFor [.object identity t.fullName fields]).hash v = .ok (code s) :=
        fun s hs hsv => (hslot s hs hsv).imp fun _ h => ⟨h.1, h.2.2⟩
      rw [hash, hashWith_record ht hrec hreads hcalls, List.sum_eq_foldr, List.foldr_map]
  | _ => cases ha

/-- **Instances with the same fields have one hash code** in both evaluators. -/
theorem hash_eq_hash (he : e.HashesAlike e' hashed)
    (hlooked : ∀ type, hashed type = true → e.isIgnored type = false) {typeName : String}
    {t : TypeDefinition} (ht : e.record? typeName = some t) {identity : Nat}
    {fields : List (String × Value)} (h : e.isHashable t (.object identity typeName fields) = true)
    (identity' : Nat) :
    e'.hash (.object identity' typeName fields) = e.hash (.object identity typeName fields) := by
  obtain ⟨rfl, -⟩ := he ht
  obtain ⟨-, hf⟩ := Bool.and_eq_true_iff.mp h
  have hreads : (e.callsFor [.object identity t.fullName fields]).ReadsFields :=
    callsFor_readsFields List.mem_cons_self
  have hreads' : (e'.callsFor [.object identity' t.fullName fields]).ReadsFields :=
    callsFor_readsFields List.mem_cons_self
  have hcalls : ∀ v type, e.hashable v type = true → hashed type = true →
      v.size ≤ Value.sizeFields fields →
        ∃ x, (e.callsFor [.object identity t.fullName fields]).hash v = .ok x ∧
          (e'.callsFor [.object identity' t.fullName fields]).hash v = .ok x := by
    intro v type hv htype hle
    obtain ⟨x, -, hx, hx'⟩ := exists_hash he hlooked hv htype
    exact ⟨x, hx _ (size_lt_depth hle), hx' _ (size_lt_depth hle)⟩
  obtain ⟨x, hx, hx'⟩ := exists_hashWith he ht hreads hreads' hf hcalls identity identity'
  rw [hash, hash, hx, hx']

end Evaluator

end DomainForms
