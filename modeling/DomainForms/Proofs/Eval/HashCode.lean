import DomainForms.Proofs.Eval.Equality
import DomainForms.Proofs.Resolution
import Mathlib.Data.List.Perm.Basic

/-!
# Hash codes of equal instances

The generated hash code adds up the hash codes of the slots of value types, down to the scalars that
it reaches this way (`Evaluator.hash_eq`).  Equal instances reach scalars that are equal one by one,
and equal scalars have one hash code, except that the two zeros differ in their sign bit.  A sign bit
added twice is no sign bit, so the hash codes of equal instances are the same exactly if the numbers
of negative zeros that they reach are both even or both odd.

* `Value.hashSum_add_signBits`: scalars that are equal one by one, up to the signs of zeros.
* `Evaluator.hashedScalars`: the scalars that a hash code reaches.
* `Evaluator.hashWith_record`: one call of a generated hash code, given the calls below it.
* `Evaluator.callsAt_hash`: a call of a generated hash code at any sufficient depth.
* `Compiler.hash_eq_iff_negativeZeros`: **when equal instances have equal hash codes.**
-/

namespace DomainForms

/-! ## Signs of zeros -/

/-- The sum of a number of sign bits. -/
def signBits (count : Nat) : Int64 := if count % 2 = 1 then Int64.minValue else 0

theorem signBits_add (m n : Nat) : signBits (m + n) = signBits m + signBits n := by
  have hsum : (m + n) % 2 = (m % 2 + n % 2) % 2 := Nat.add_mod m n 2
  unfold signBits
  rw [hsum]
  rcases Nat.mod_two_eq_zero_or_one m with hm | hm
  · rcases Nat.mod_two_eq_zero_or_one n with hn | hn
    · rw [hm, hn]
      decide
    · rw [hm, hn]
      decide
  · rcases Nat.mod_two_eq_zero_or_one n with hn | hn
    · rw [hm, hn]
      decide
    · rw [hm, hn]
      decide

theorem signBits_eq_iff {m n : Nat} : signBits m = signBits n ↔ m % 2 = n % 2 := by
  have hne : Int64.minValue ≠ 0 := by decide
  unfold signBits
  rcases Nat.mod_two_eq_zero_or_one m with hm | hm
  · rcases Nat.mod_two_eq_zero_or_one n with hn | hn
    · simp [hm, hn]
    · simp [hm, hn, hne.symm]
  · rcases Nat.mod_two_eq_zero_or_one n with hn | hn
    · simp [hm, hn, hne]
    · simp [hm, hn]

theorem eq_iff_of_add_signBits {x y : Int64} {m n : Nat}
    (h : x + signBits m = y + signBits n) : x = y ↔ m % 2 = n % 2 := by
  rw [← signBits_eq_iff]
  constructor
  · rintro rfl
    exact Int64.add_right_inj x |>.1 h
  · intro hs
    rw [hs] at h
    exact Int64.add_left_inj (signBits n) |>.1 h

namespace Binary64

/-- Whether a number is the zero with a sign. -/
def isNegativeZero (x : Binary64) : Bool := x.isZero && x.isNegative

theorem bits_of_isZero {x : Binary64} (h : x.isZero = true) :
    x.bits = if x.isNegative then 0x8000000000000000 else 0 := by
  have hlt : x.bits.toNat < 2 ^ 64 := x.bits.toNat_lt
  have hbits : x.bits.toNat / 2 ^ 52 % 2 ^ 11 = 0 ∧ x.bits.toNat % 2 ^ 52 = 0 := by
    simpa [isZero, exponentBits, fractionBits] using h
  have hneg : x.isNegative = decide (x.bits.toNat / 2 ^ 63 = 1) := rfl
  rw [hneg]
  apply UInt64.toNat_inj.1
  by_cases hsign : x.bits.toNat / 2 ^ 63 = 1
  · rw [decide_eq_true hsign]
    show x.bits.toNat = 2 ^ 63
    omega
  · rw [decide_eq_false hsign]
    show x.bits.toNat = 0
    omega

theorem toInt64_add_signBits {x y : Binary64} (h : x.equal y = true) :
    x.bits.toInt64 + signBits x.isNegativeZero.toNat
      = y.bits.toInt64 + signBits y.isNegativeZero.toNat := by
  have hzero : ∀ {z : Binary64}, z.isZero = true →
      z.bits.toInt64 + signBits z.isNegativeZero.toNat = 0 := by
    intro z hz
    rw [bits_of_isZero hz, isNegativeZero, hz, Bool.true_and]
    cases z.isNegative <;> decide
  obtain ⟨-, -, rfl | ⟨hx, hy⟩⟩ := equal_eq_true.1 h
  · rfl
  · rw [hzero hx, hzero hy]

end Binary64

namespace Value

/-! ## Scalars -/

/-- The hash code of a scalar. -/
def leafHash : Value → Int64
  | bool value => if value then 1 else 0
  | int value => value
  | float value => value.bits.toInt64
  | str value => textHash value
  | enumValue _ value => textHash value
  | _ => 0

/-- Whether a value is the zero with a sign. -/
def isNegativeZero : Value → Bool
  | float value => value.isNegativeZero
  | _ => false

/-- The sum of the hash codes of scalars. -/
def hashSum (scalars : List Value) : Int64 := scalars.foldr (fun v sum => v.leafHash + sum) 0

theorem leafHash_add_signBits {v w : Value} (h : v.sameStructure w = true) :
    v.leafHash + signBits v.isNegativeZero.toNat = w.leafHash + signBits w.isNegativeZero.toNat := by
  cases v with
  | float x =>
    cases w with
    | float y => exact Binary64.toInt64_add_signBits h
    | _ => cases h
  | _ => cases w <;> simp_all [sameStructure, leafHash, isNegativeZero]

theorem hashSum_append (vs ws : List Value) : hashSum (vs ++ ws) = hashSum vs + hashSum ws := by
  induction vs with
  | nil => exact (Int64.zero_add _).symm
  | cons v vs ih =>
    show v.leafHash + hashSum (vs ++ ws) = v.leafHash + hashSum vs + hashSum ws
    rw [ih, Int64.add_assoc]

theorem hashSum_flatMap {α : Type} (f : α → List Value) (items : List α) :
    hashSum (items.flatMap f) = items.foldr (fun a sum => hashSum (f a) + sum) 0 := by
  induction items with
  | nil => rfl
  | cons a items ih => rw [List.flatMap_cons, hashSum_append, ih, List.foldr_cons]

theorem hashSum_perm {vs ws : List Value} (h : vs.Perm ws) : hashSum vs = hashSum ws := by
  refine h.foldr_eq' (fun v _ w _ sum => ?_) 0
  ac_rfl

/-- **Scalars that are equal one by one have one sum of hash codes**, up to the signs of zeros. -/
theorem hashSum_add_signBits {vs ws : List Value}
    (h : List.Forall₂ (fun v w => v.sameStructure w = true) vs ws) :
    hashSum vs + signBits (vs.countP isNegativeZero)
      = hashSum ws + signBits (ws.countP isNegativeZero) := by
  have hcons : ∀ (v : Value) (vs : List Value),
      hashSum (v :: vs) + signBits ((v :: vs).countP isNegativeZero)
        = v.leafHash + signBits v.isNegativeZero.toNat
          + (hashSum vs + signBits (vs.countP isNegativeZero)) := by
    intro v vs
    have hcount : (v :: vs).countP isNegativeZero
        = v.isNegativeZero.toNat + vs.countP isNegativeZero := by
      rw [List.countP_cons, Nat.add_comm]
      cases v.isNegativeZero <;> rfl
    rw [hcount, signBits_add]
    show v.leafHash + hashSum vs + _ = _
    ac_rfl
  induction h with
  | nil => rfl
  | cons hvw _ ih => rw [hcons, hcons, leafHash_add_signBits hvw, ih]

end Value

/-! ## Evaluating sums -/

namespace Expr

variable {calls : Calls} {frame : Frame}

theorem eval_add {l r : Expr} {x y : Int64} (hl : l.eval calls frame = .ok (.int x))
    (hr : r.eval calls frame = .ok (.int y)) :
    (binary .add l r).eval calls frame = .ok (.int (x + y)) := by
  show (do
    let l ← (← l.eval calls frame).asInt
    let r ← (← r.eval calls frame).asInt
    return .int (l + r) : Except Fault Value) = _
  rw [hl, hr]
  rfl

theorem eval_hashCode {l : Expr} {v : Value} {x : Int64} (hl : l.eval calls frame = .ok v)
    (h : calls.hash v = .ok x) : (hashCode l).eval calls frame = .ok (.int x) := by
  show (do return .int (← calls.hash (← l.eval calls frame)) : Except Fault Value) = _
  rw [hl, Outcome.ok_bind, h]
  rfl

theorem eval_foldl_add {α : Type} {f : α → Expr} {value : α → Int64} :
    ∀ {items : List α} {start : Expr} {x : Int64}, start.eval calls frame = .ok (.int x) →
      (∀ a ∈ items, (f a).eval calls frame = .ok (.int (value a))) →
        ((items.map f).foldl (binary .add) start).eval calls frame
          = .ok (.int (x + items.foldr (fun a sum => value a + sum) 0)) := by
  intro items
  induction items with
  | nil =>
    intro start x hstart _
    rw [List.foldr_nil, Int64.add_zero]
    exact hstart
  | cons a items ih =>
    intro start x hstart h
    have hnext := eval_add hstart (h a List.mem_cons_self)
    rw [List.map_cons, List.foldl_cons, List.foldr_cons, ← Int64.add_assoc]
    exact ih hnext fun b hb => h b (List.mem_cons_of_mem _ hb)

/-- **The value of a sum** is the sum of the values. -/
theorem eval_sumOf {α : Type} {f : α → Expr} {value : α → Int64} {items : List α}
    (h : ∀ a ∈ items, (f a).eval calls frame = .ok (.int (value a))) :
    (sumOf (items.map f)).eval calls frame
      = .ok (.int (items.foldr (fun a sum => value a + sum) 0)) := by
  cases items with
  | nil => rfl
  | cons a items =>
    exact eval_foldl_add (h a List.mem_cons_self) fun b hb => h b (List.mem_cons_of_mem _ hb)

end Expr

namespace Evaluator

variable {e : Evaluator} {hashed : TypeRef → Bool}

/-! ## What a hash code reaches -/

mutual

/-- The scalars that the hash code of a value reaches, where an instance passes on to those of its
fields that have a hashed type. -/
def hashedScalars (e : Evaluator) (hashed : TypeRef → Bool) : Value → List Value
  | .array _ => []
  | .object _ typeName fields =>
    match e.record? typeName with
    | some t => hashedScalarsIn e hashed fields t.fieldTypes
    | none => []
  | v => [v]

/-- The scalars that are reached through fields of the given types. -/
def hashedScalarsIn (e : Evaluator) (hashed : TypeRef → Bool) :
    List (String × Value) → NameMap TypeRef → List Value
  | (_, value) :: rest, (_, type) :: types =>
    (if hashed type then e.hashedScalars hashed value else []) ++ hashedScalarsIn e hashed rest types
  | _, _ => []

end

/-- The number of negative zeros that the hash code of a value reaches. -/
def negativeZeros (e : Evaluator) (hashed : TypeRef → Bool) (v : Value) : Nat :=
  (e.hashedScalars hashed v).countP Value.isNegativeZero

theorem hashedScalars_scalar {v : Value} (h : v.isScalar = true) : e.hashedScalars hashed v = [v] := by
  cases v with
  | array items => cases h
  | object identity typeName fields => cases h
  | _ => rw [hashedScalars] <;> simp

theorem hashedScalars_object {t : TypeDefinition} (ht : e.record? t.fullName = some t) (identity : Nat)
    (fields : List (String × Value)) :
    e.hashedScalars hashed (.object identity t.fullName fields)
      = e.hashedScalarsIn hashed fields t.fieldTypes := by
  rw [hashedScalars, ht]

theorem forall₂_hashedScalarsIn : ∀ {fields others : List (String × Value)} {types : NameMap TypeRef},
    (∀ f ∈ fields, ∀ {w : Value}, f.2.sameStructure w = true →
      List.Forall₂ (fun v w => v.sameStructure w = true) (e.hashedScalars hashed f.2)
        (e.hashedScalars hashed w)) →
    Value.sameFields fields others = true →
      List.Forall₂ (fun v w => v.sameStructure w = true) (e.hashedScalarsIn hashed fields types)
        (e.hashedScalarsIn hashed others types) := by
  intro fields
  induction fields with
  | nil =>
    intro others types _ h
    cases others with
    | nil => exact List.Forall₂.nil
    | cons other others => cases h
  | cons field fields ihs =>
    intro others types ih h
    cases others with
    | nil => cases h
    | cons other others =>
      obtain ⟨name, v⟩ := field
      obtain ⟨name', w⟩ := other
      rw [Value.sameFields, Bool.and_eq_true, Bool.and_eq_true] at h
      cases types with
      | nil => exact List.Forall₂.nil
      | cons entry types =>
        obtain ⟨key, type⟩ := entry
        rw [hashedScalarsIn, hashedScalarsIn]
        refine List.rel_append ?_ (ihs (fun f hf => ih f (List.mem_cons_of_mem _ hf)) h.2)
        split
        · exact ih (name, v) List.mem_cons_self h.1.2
        · exact List.Forall₂.nil

/-- **Values of the same structure reach scalars that are equal one by one.** -/
theorem forall₂_hashedScalars (v : Value) : ∀ {w : Value}, v.sameStructure w = true →
    List.Forall₂ (fun v w => v.sameStructure w = true) (e.hashedScalars hashed v)
      (e.hashedScalars hashed w) := by
  induction v using Value.ind with
  | scalar v hv =>
    intro w h
    have hw : w.isScalar = true := by
      cases v <;> cases w <;> simp_all [Value.isScalar, Value.sameStructure]
    rw [hashedScalars_scalar hv, hashedScalars_scalar hw]
    exact List.Forall₂.cons h List.Forall₂.nil
  | array items _ =>
    intro w h
    cases w with
    | array others =>
      rw [hashedScalars, hashedScalars]
      exact List.Forall₂.nil
    | _ => cases h
  | object identity typeName fields ih =>
    intro w h
    cases w with
    | object identity' typeName' others =>
      rw [Value.sameStructure, Bool.and_eq_true, beq_iff_eq] at h
      obtain ⟨rfl, h⟩ := h
      rw [hashedScalars, hashedScalars]
      cases e.record? typeName with
      | none => exact List.Forall₂.nil
      | some t => exact forall₂_hashedScalarsIn ih h
    | _ => cases h

theorem hashedScalarsIn_eq_flatMap : ∀ {fields : List (String × Value)} {types : NameMap TypeRef},
    types.Increasing → e.fieldsWellFormed fields types = true →
      e.hashedScalarsIn hashed fields types = types.flatMap fun entry =>
        if hashed entry.2 then
          e.hashedScalars hashed ((NameMap.find? entry.1 fields).getD .null)
        else [] := by
  intro fields
  induction fields with
  | nil =>
    intro types _ h
    cases types with
    | nil => rfl
    | cons entry types => cases h
  | cons field rest ih =>
    intro types hinc h
    cases types with
    | nil => cases h
    | cons entry types =>
      obtain ⟨name, v⟩ := field
      obtain ⟨key, type⟩ := entry
      rw [fieldsWellFormed, Bool.and_eq_true, Bool.and_eq_true, beq_iff_eq] at h
      obtain ⟨⟨rfl, -⟩, hrest⟩ := h
      obtain ⟨hlt, hinc⟩ := List.pairwise_cons.1 hinc
      rw [hashedScalarsIn, ih hinc hrest, List.flatMap_cons, NameMap.find?, if_pos rfl,
        Option.getD_some]
      congr 1
      -- the names increase, so the first field hides none of the others
      refine List.flatMap_congr fun entry hentry => ?_
      rw [NameMap.find?, if_neg (String.ne_of_lt (hlt entry hentry))]

theorem flatMap_filter_isValueType {f : Slot → List Value} : ∀ {slots : List Slot},
    (∀ s ∈ slots, s.isValueType = hashed s.type) →
      (slots.filter Slot.isValueType).flatMap f
        = slots.flatMap fun s => if hashed s.type then f s else [] := by
  intro slots
  induction slots with
  | nil => intro _; rfl
  | cons s slots ih =>
    intro h
    rw [List.filter_cons, h s List.mem_cons_self, List.flatMap_cons,
      ← ih fun s' hs => h s' (List.mem_cons_of_mem _ hs)]
    split
    · rw [List.flatMap_cons]
    · rw [List.nil_append]

/-- The slots of a record reach the same scalars as its fields, in another order. -/
theorem hashSum_slots {t : TypeDefinition} {kind : RecordKind} {slots : List Slot}
    (hrec : t.IsRecord kind slots) (hvalue : ∀ s ∈ slots, s.isValueType = hashed s.type)
    {fields : List (String × Value)} (hf : e.fieldsWellFormed fields t.fieldTypes = true) :
    Value.hashSum ((slots.filter Slot.isValueType).flatMap fun s =>
        e.hashedScalars hashed ((NameMap.find? s.field fields).getD .null))
      = Value.hashSum (e.hashedScalarsIn hashed fields t.fieldTypes) := by
  have hinc : t.fieldTypes.Increasing := NameMap.increasing_ofList _
  rw [hashedScalarsIn_eq_flatMap hinc hf, Value.hashSum_perm (hrec.perm_fieldTypes.flatMap_right _),
    List.flatMap_map, flatMap_filter_isValueType hvalue]

/-! ## Calls -/

theorem hashWith_scalar {calls : Calls} {v : Value} (h : v.isScalar = true) :
    e.hashWith calls v = .ok v.leafHash := by
  cases v with
  | array items => cases h
  | object identity typeName fields => cases h
  | _ => rfl

/-- **One call of a generated hash code** adds up the hash codes of the slots of value types, if the
calls that its body makes answer them. -/
theorem hashWith_record {t : TypeDefinition} (ht : e.record? t.fullName = some t) {kind : RecordKind}
    {slots : List Slot} (hrec : t.IsRecord kind slots) {calls : Calls} (hreads : calls.ReadsFields)
    {identity : Nat} {fields : List (String × Value)} {value : Slot → Int64}
    (h : ∀ s ∈ slots, s.isValueType = true →
      ∃ v, NameMap.find? s.field fields = some v ∧ calls.hash v = .ok (value s)) :
    e.hashWith calls (.object identity t.fullName fields)
      = .ok ((slots.filter Slot.isValueType).foldr (fun s sum => value s + sum) 0) := by
  let frame := Frame.of (.object identity t.fullName fields) [] []
  have hslot : ∀ s ∈ slots.filter Slot.isValueType,
      (Expr.hashCode (.selfMember s.field)).eval calls frame = .ok (.int (value s)) := by
    intro s hs
    obtain ⟨hm, hs⟩ := List.mem_filter.1 hs
    obtain ⟨v, hfind, hhash⟩ := h s hm hs
    exact Expr.eval_hashCode (hreads hfind) hhash
  rw [hashWith, lookup_of_record? ht, Outcome.ok_bind, hrec.hashCode]
  simp only [invoke, hashCodeOf, hashCodeBody]
  change ((Stmt.execAll calls frame [.ret _] >>= _) >>= _) = _
  rw [Stmt.execAll, Stmt.exec, Expr.eval_sumOf hslot]
  rfl

/-- Every class and struct of an evaluator stands under its own full name and is a record type
whose slots of value types are those of the hashed types. -/
def HashesBy (e : Evaluator) (hashed : TypeRef → Bool) : Prop :=
  ∀ {typeName : String} {t : TypeDefinition}, e.record? typeName = some t →
    t.fullName = typeName ∧ ∃ kind slots, t.IsRecord kind slots ∧
      ∀ s ∈ slots, s.isValueType = hashed s.type

theorem HashesBy.runsRecords (he : e.HashesBy hashed) : e.RunsRecords := by
  intro typeName t ht
  obtain ⟨hname, kind, slots, hrec, -⟩ := he ht
  exact ⟨hname, kind, slots, hrec⟩

/-- **A call at any depth above the size of an instance** adds up the scalars that are reached. -/
theorem callsAt_hash (he : e.HashesBy hashed)
    (harray : ∀ type, hashed type = true → type.isArray = false) :
    ∀ (depth : Nat) {t : TypeDefinition} {v : Value}, e.record? t.fullName = some t →
      e.isInstance t v = true → v.size ≤ depth →
        (e.callsAt (depth + 1)).hash v = .ok (Value.hashSum (e.hashedScalars hashed v)) := by
  intro depth
  induction depth with
  | zero =>
    intro t v _ _ hsize
    have := v.size_pos
    omega
  | succ depth ih =>
    intro t v ht hv hsize
    cases v with
    | object identity typeName fields =>
      rw [isInstance, Bool.and_eq_true, beq_iff_eq] at hv
      obtain ⟨rfl, hf⟩ := hv
      obtain ⟨-, kind, slots, hrec, hvalue⟩ := he ht
      rw [Value.size] at hsize
      have hslot : ∀ s ∈ slots, s.isValueType = true → ∃ v, NameMap.find? s.field fields = some v ∧
          (e.callsAt (depth + 1)).hash v = .ok (Value.hashSum
            (e.hashedScalars hashed ((NameMap.find? s.field fields).getD .null))) := by
        intro s hs hsv
        obtain ⟨v, hfind, hwf⟩ := find?_of_fieldsWellFormed hf (hrec.find?_fieldTypes hs)
        refine ⟨v, hfind, ?_⟩
        rw [hfind, Option.getD_some]
        rw [hvalue s hs] at hsv
        -- a slot of a value type holds a scalar, or an instance that takes one more call
        rcases isScalar_or_isInstance he.runsRecords hwf (harray _ hsv) with hscalar | ⟨t', ht', hv⟩
        · rw [callsAt, hashedScalars_scalar hscalar]
          exact (hashWith_scalar hscalar).trans (congrArg _ (Int64.add_zero _).symm)
        · have := Value.size_le_sizeFields (NameMap.mem_of_find? fields hfind)
          exact ih ht' hv (by omega)
      rw [callsAt, hashedScalars_object ht, ← hashSum_slots hrec hvalue hf, Value.hashSum_flatMap]
      exact hashWith_record ht hrec (callsAt_readsFields depth) hslot
    | _ => cases hv

/-- **The hash code of an instance** is the sum over the scalars that it reaches. -/
theorem hash_eq (he : e.HashesBy hashed)
    (harray : ∀ type, hashed type = true → type.isArray = false) {t : TypeDefinition}
    (ht : e.record? t.fullName = some t) {v : Value} (hv : e.isInstance t v = true) :
    e.hash v = .ok (Value.hashSum (e.hashedScalars hashed v)) := by
  have hsize : v.size ≤ e.depth [v] := size_le_depth List.mem_cons_self
  have hcall := callsAt_hash he harray _ ht hv hsize
  rw [callsAt_succ] at hcall
  rw [hash, callsFor]
  exact hcall

/-- **Equal instances have equal hash codes up to the signs of zeros.** -/
theorem exists_hash_of_sameStructure (he : e.HashesBy hashed)
    (harray : ∀ type, hashed type = true → type.isArray = false) {t : TypeDefinition}
    (ht : e.record? t.fullName = some t) {a b : Value} (ha : e.isInstance t a = true)
    (hb : e.isInstance t b = true) (hab : a.sameStructure b = true) :
    ∃ x y, e.hash a = .ok x ∧ e.hash b = .ok y ∧
      (x = y ↔ e.negativeZeros hashed a % 2 = e.negativeZeros hashed b % 2) :=
  ⟨_, _, hash_eq he harray ht ha, hash_eq he harray ht hb,
    eq_iff_of_add_signBits (Value.hashSum_add_signBits (forall₂_hashedScalars a hab))⟩

/-- In the evaluator of an output, the hashed types are the value types of the model. -/
theorem hashesBy_of_generate {m : Model} (hm : m.KnowsPaths) {o : Output} (h : m.generate = .ok o) :
    (Evaluator.of o).HashesBy m.isValue := by
  intro typeName t ht
  obtain ⟨hfind, hk⟩ := record?_eq_some.1 ht
  obtain ⟨hmem, hname⟩ := mem_types_of_find? hfind
  obtain ⟨scope, kind, slots, hslots, hrec⟩ := m.exists_record h hmem hk
  refine ⟨hname, kind, slots, hrec, ?_⟩
  intro s hs
  obtain ⟨p, hp⟩ := hslots s hs
  obtain ⟨-, r, hr, htype, hvalue⟩ := Model.slot_eq_ok hp
  rw [htype, hvalue, Model.isValue_resolved hm hr]

end Evaluator

/-! ## Compiled sources -/

/-- **When equal instances have equal hash codes.**  Equal well-formed instances of any class or
struct that a source compiles to always have hash codes.  These are the same exactly if the numbers
of negative zeros in hashed places, which are the scalars of value types that are reached through
fields of value types only, are both even or both odd. -/
theorem Compiler.hash_eq_iff_negativeZeros {c : Compiler} {source : String} {document : Document}
    (hparse : Document.parse source = .ok document) {o : Output} (h : c.compile source = .ok o)
    {typeName : String} {t : TypeDefinition} (ht : (Evaluator.of o).record? typeName = some t)
    {a b : Value} (ha : (Evaluator.of o).isInstance t a = true)
    (hb : (Evaluator.of o).isInstance t b = true)
    (hab : (Evaluator.of o).equalsTyped a b = .ok true) :
    ∃ x y, (Evaluator.of o).hash a = .ok x ∧ (Evaluator.of o).hash b = .ok y ∧
      (x = y ↔ (Evaluator.of o).negativeZeros (c.model document).isValue a % 2
        = (Evaluator.of o).negativeZeros (c.model document).isValue b % 2) := by
  obtain ⟨document', hparse', hgen⟩ := compile_eq_ok h
  obtain rfl : document' = document := Except.ok.inj (hparse'.symm.trans hparse)
  have he : (Evaluator.of o).HashesBy (c.model document').isValue :=
    Evaluator.hashesBy_of_generate (c.knowsPaths_model hparse) hgen
  obtain ⟨rfl, -⟩ := he ht
  rw [Evaluator.equalsTyped_eq he.runsRecords ht ha hb, Except.ok.injEq] at hab
  exact Evaluator.exists_hash_of_sameStructure he (fun _ => Model.isArray_of_isValue) ht ha hb hab

/-! ### Zeros -/

namespace Zeros

/-- A source with a number for a value. -/
def source : String := "(namespace T (defvaluetype X double))"

/-- What the source declares. -/
def document : Document := (Document.parse source).toOption.get (by decide +kernel)

/-- What the source compiles to. -/
def output : Output := (Compiler.standard.compile source).toOption.get (by decide +kernel)

/-- The type of the numbers. -/
def number : TypeDefinition := ((Evaluator.of output).record? "T.X").get (by decide +kernel)

/-- A number. -/
def instanceOf (identity : Nat) (bits : UInt64) : Value :=
  .object identity "T.X" [("_value", .float ⟨bits⟩)]

theorem parse_source : Document.parse source = .ok document := by
  unfold document
  exact Outcome.eq_ok_get _

theorem compile_source : Compiler.standard.compile source = .ok output := by
  unfold output
  exact Outcome.eq_ok_get _

theorem record_number : (Evaluator.of output).record? "T.X" = some number := by
  unfold number
  exact (Option.some_get _).symm

theorem isInstance_positive :
    (Evaluator.of output).isInstance number (instanceOf 0 0) = true := by
  decide +kernel

theorem isInstance_negative :
    (Evaluator.of output).isInstance number (instanceOf 1 0x8000000000000000) = true := by
  decide +kernel

theorem equalsTyped_zeros : (Evaluator.of output).equalsTyped (instanceOf 0 0)
    (instanceOf 1 0x8000000000000000) = .ok true := by
  obtain ⟨_, -, hgen⟩ := Compiler.compile_eq_ok compile_source
  have he : (Evaluator.of output).RunsRecords := Evaluator.runsRecords_of_generate hgen
  have ht : (Evaluator.of output).record? number.fullName = some number := by
    rw [(he record_number).1, record_number]
  rw [Evaluator.equalsTyped_eq he ht isInstance_positive isInstance_negative]
  exact congrArg _ (by decide +kernel)

theorem negativeZeros_positive : (Evaluator.of output).negativeZeros
    (Compiler.standard.model document).isValue (instanceOf 0 0) = 0 := by
  decide +kernel

theorem negativeZeros_negative : (Evaluator.of output).negativeZeros
    (Compiler.standard.model document).isValue (instanceOf 1 0x8000000000000000) = 1 := by
  decide +kernel

theorem hash_zeros :
    Document.parse source = .ok document ∧ Compiler.standard.compile source = .ok output ∧
      (Evaluator.of output).record? "T.X" = some number ∧
      (Evaluator.of output).isInstance number (instanceOf 0 0) = true ∧
      (Evaluator.of output).isInstance number (instanceOf 1 0x8000000000000000) = true ∧
      (Evaluator.of output).equalsTyped (instanceOf 0 0) (instanceOf 1 0x8000000000000000)
        = .ok true ∧
      ∃ x y, (Evaluator.of output).hash (instanceOf 0 0) = .ok x ∧
        (Evaluator.of output).hash (instanceOf 1 0x8000000000000000) = .ok y ∧ x ≠ y := by
  obtain ⟨x, y, hx, hy, hiff⟩ := Compiler.hash_eq_iff_negativeZeros parse_source compile_source
    record_number isInstance_positive isInstance_negative equalsTyped_zeros
  refine ⟨parse_source, compile_source, record_number, isInstance_positive, isInstance_negative,
    equalsTyped_zeros, x, y, hx, hy, ?_⟩
  rw [Ne, hiff, negativeZeros_positive, negativeZeros_negative]
  decide

end Zeros

end DomainForms
