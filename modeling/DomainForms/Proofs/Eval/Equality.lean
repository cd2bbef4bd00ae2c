import DomainForms.Proofs.Eval.WellFormed

/-!
# Generated equality is structural

The generated equality of a type compares slot by slot; which comparison a slot gets depends on its
type.  On well-formed values each of them answers whether the two values have the same structure:
a direct comparison because the values are scalars, a comparison of named types by calling the
equality of the value's own type, and a comparison of arrays item by item.  The calls go down into
the parts of the left value, so the proof is an induction on the depth of calls, and the depth that
the evaluator allows is never reached.

* `Slot.eval_comparison`: the comparison of one slot.
* `eval_conjunction`: the conjunction over all slots.
* `Evaluator.equalsWith_eq`: one call of a generated equality, given the calls below it.
* `Evaluator.callsAt_equals`: a call of a generated equality at any sufficient depth.
* `Compiler.equalsTyped_eq_sameStructure`: **generated equality is structural equality.**
-/

namespace DomainForms

/-! ## Evaluating expressions -/

namespace Expr

variable {calls : Calls} {frame : Frame} {l r : Expr}

theorem eval_both {p q : Bool} (hl : l.eval calls frame = .ok (.bool p))
    (hr : r.eval calls frame = .ok (.bool q)) :
    (both l r).eval calls frame = .ok (.bool (p && q)) := by
  show (do
    if ← (← l.eval calls frame).asBool then return .bool (← (← r.eval calls frame).asBool)
    else return .bool false : Except Fault Value) = _
  rw [hl, hr]
  cases p <;> rfl

theorem eval_both_of_false (hl : l.eval calls frame = .ok (.bool false)) :
    (both l r).eval calls frame = .ok (.bool false) := by
  show (do
    if ← (← l.eval calls frame).asBool then return .bool (← (← r.eval calls frame).asBool)
    else return .bool false : Except Fault Value) = _
  rw [hl]
  rfl

theorem eval_either_of_true (hl : l.eval calls frame = .ok (.bool true)) :
    (either l r).eval calls frame = .ok (.bool true) := by
  show (do
    if ← (← l.eval calls frame).asBool then return .bool true
    else return .bool (← (← r.eval calls frame).asBool) : Except Fault Value) = _
  rw [hl]
  rfl

theorem eval_either_of_false {q : Bool} (hl : l.eval calls frame = .ok (.bool false))
    (hr : r.eval calls frame = .ok (.bool q)) :
    (either l r).eval calls frame = .ok (.bool q) := by
  show (do
    if ← (← l.eval calls frame).asBool then return .bool true
    else return .bool (← (← r.eval calls frame).asBool) : Except Fault Value) = _
  rw [hl, hr]
  rfl

theorem eval_isNull {v : Value} (hl : l.eval calls frame = .ok v) :
    (isNull l).eval calls frame = .ok (.bool v.isNull) := by
  show (do return .bool (← l.eval calls frame).isNull : Except Fault Value) = _
  rw [hl]
  rfl

theorem eval_negate {p : Bool} (hl : l.eval calls frame = .ok (.bool p)) :
    (negate l).eval calls frame = .ok (.bool !p) := by
  show (do return .bool !(← (← l.eval calls frame).asBool) : Except Fault Value) = _
  rw [hl]
  rfl

theorem eval_eq {v w : Value} {p : Bool} (hl : l.eval calls frame = .ok v)
    (hr : r.eval calls frame = .ok w) (h : v.directlyEquals w = .ok p) :
    (binary .eq l r).eval calls frame = .ok (.bool p) := by
  show (do
    let v ← l.eval calls frame
    let w ← r.eval calls frame
    return .bool (← v.directlyEquals w) : Except Fault Value) = _
  rw [hl, hr, Outcome.ok_bind, Outcome.ok_bind, h]
  rfl

theorem eval_nullSafeEquals {v w : Value} {p : Bool} (hl : l.eval calls frame = .ok v)
    (hr : r.eval calls frame = .ok w) (h : calls.nullSafeEquals v w = .ok p) :
    (nullSafeEquals l r).eval calls frame = .ok (.bool p) := by
  show (do
    let v ← l.eval calls frame
    let w ← r.eval calls frame
    return .bool (← calls.nullSafeEquals v w) : Except Fault Value) = _
  rw [hl, hr, Outcome.ok_bind, Outcome.ok_bind, h]
  rfl

theorem eval_length {items : List Value} (hl : l.eval calls frame = .ok (.array items)) :
    (length l).eval calls frame = .ok (.int (Int64.ofNat items.length)) := by
  rw [eval, hl]
  rfl

theorem eval_elementwiseEquals {lefts rights : List Value} {element : ElementComparison} {p : Bool}
    (hl : l.eval calls frame = .ok (.array lefts)) (hr : r.eval calls frame = .ok (.array rights))
    (h : calls.itemsEqual element lefts rights = .ok p) :
    (elementwiseEquals l r element).eval calls frame = .ok (.bool p) := by
  rw [eval, hl, hr, Outcome.ok_bind, Outcome.ok_bind]
  simp only [h]
  rfl

end Expr

/-! ## Arrays -/

namespace Value

theorem sameItems_of_length_ne : ∀ {as bs : List Value}, as.length ≠ bs.length →
    sameItems as bs = false := by
  intro as
  induction as with
  | nil =>
    intro bs h
    cases bs with
    | nil => exact absurd rfl h
    | cons b bs => rfl
  | cons a as ih =>
    intro bs h
    cases bs with
    | nil => rfl
    | cons b bs =>
      rw [sameItems, ih (by simpa using h), Bool.and_false]

end Value

namespace Calls

variable {calls : Calls}

theorem pairwise_eq {equals : Value → Value → Except Fault Bool} : ∀ {as bs : List Value},
    as.length = bs.length →
      (∀ a ∈ as, ∀ b ∈ bs, equals a b = .ok (a.sameStructure b)) →
        pairwise equals as bs = .ok (Value.sameItems as bs) := by
  intro as
  induction as with
  | nil =>
    intro bs hlen _
    cases bs with
    | nil => rfl
    | cons b bs => cases hlen
  | cons a as ih =>
    intro bs hlen h
    cases bs with
    | nil => cases hlen
    | cons b bs =>
      have hhead := h a List.mem_cons_self b List.mem_cons_self
      have htail := ih (Nat.succ.inj hlen)
        (fun x hx y hy => h x (List.mem_cons_of_mem _ hx) y (List.mem_cons_of_mem _ hy))
      rw [pairwise, hhead, Outcome.ok_bind, Value.sameItems]
      cases a.sameStructure b with
      | false => rfl
      | true => exact htail

/-- How the items of an array of the given comparison are compared. -/
def element (calls : Calls) : ElementComparison → Value → Value → Except Fault Bool
  | .value => Value.directlyEquals
  | .nullSafe => calls.nullSafeEquals

theorem itemsEqual_eq {comparison : ElementComparison} {as bs : List Value}
    (h : ∀ a ∈ as, ∀ b ∈ bs, calls.element comparison a b = .ok (a.sameStructure b)) :
    calls.itemsEqual comparison as bs = .ok (Value.sameItems as bs) := by
  unfold itemsEqual
  by_cases hlen : as.length = bs.length
  · rw [if_neg (by simpa using hlen)]
    cases comparison with
    | value => exact pairwise_eq hlen h
    | nullSafe => exact pairwise_eq hlen h
  · rw [if_pos hlen, Value.sameItems_of_length_ne hlen]

end Calls

/-- **The comparison of two arrays** answers whether they have the same structure, if the comparison
of their items does. -/
theorem eval_arrayComparison {calls : Calls} {frame : Frame} {l r : Expr} {v w : Value}
    {comparison : ElementComparison} (hl : l.eval calls frame = .ok v)
    (hr : r.eval calls frame = .ok w)
    (hv : v = .null ∨ ∃ as, v = .array as) (hw : w = .null ∨ ∃ bs, w = .array bs)
    (h : ∀ as bs, v = .array as → w = .array bs →
      ∀ a ∈ as, ∀ b ∈ bs, calls.element comparison a b = .ok (a.sameStructure b)) :
    (arrayComparison l r comparison).eval calls frame = .ok (.bool (v.sameStructure w)) := by
  have hbothNull := Expr.eval_both (Expr.eval_isNull hl) (Expr.eval_isNull hr)
  have hbothThere := Expr.eval_both (Expr.eval_negate (Expr.eval_isNull hl))
    (Expr.eval_negate (Expr.eval_isNull hr))
  rw [arrayComparison]
  rcases hv with rfl | ⟨as, rfl⟩
  · rcases hw with rfl | ⟨bs, rfl⟩
    · exact Expr.eval_either_of_true hbothNull
    · exact Expr.eval_either_of_false hbothNull
        (Expr.eval_both_of_false (Expr.eval_both_of_false hbothThere))
  · rcases hw with rfl | ⟨bs, rfl⟩
    · exact Expr.eval_either_of_false hbothNull
        (Expr.eval_both_of_false (Expr.eval_both_of_false hbothThere))
    · have hlengths := Expr.eval_eq (Expr.eval_length hl) (Expr.eval_length hr) rfl
      have hitems := Expr.eval_elementwiseEquals hl hr (Calls.itemsEqual_eq (h as bs rfl rfl))
      have hall := Expr.eval_both (Expr.eval_both hbothThere hlengths) hitems
      -- arrays of different lengths differ, whatever the comparison of the lengths says
      have hvalue : (!(Value.array as).isNull && !(Value.array bs).isNull
          && (Int64.ofNat as.length == Int64.ofNat bs.length) && Value.sameItems as bs)
          = Value.sameItems as bs := by
        by_cases hlen : as.length = bs.length
        · simp [hlen, Value.isNull]
        · rw [Value.sameItems_of_length_ne hlen, Bool.and_false]
      rw [hvalue] at hall
      exact Expr.eval_either_of_false hbothNull hall

/-! ## Slots -/

/-- Calls that compare values of named types by structure, for left values of a bounded size. -/
def Calls.Structural (calls : Calls) (e : Evaluator) (bound : Nat) : Prop :=
  ∀ {v w : Value} {name : QualifiedName}, e.wellFormed v (.named name) = true →
    e.wellFormed w (.named name) = true → v.size ≤ bound →
      calls.nullSafeEquals v w = .ok (v.sameStructure w)

/-- An array that has a comparison has one dimension, and its items are no arrays. -/
theorem elementComparison_of_array {element : TypeRef} {ranks : List Rank}
    {comparison : ElementComparison}
    (h : (TypeRef.array element ranks).singleDimensionElement?.bind elementComparison?
      = some comparison) :
    (comparison = .value ∧ element.isArray = false ∧ ∀ name, element ≠ .named name) ∨
      (comparison = .nullSafe ∧ ∃ name, element = .named name) := by
  obtain ⟨found, hfound, hcmp⟩ := Option.bind_eq_some_iff.mp h
  have hel : found = element := by
    rw [TypeRef.singleDimensionElement?.eq_def] at hfound
    split at hfound
    · split at hfound
      · rename_i heq _
        cases heq
        exact (Option.some.inj hfound).symm
      · cases hfound
    · cases hfound
  subst hel
  cases found with
  | named name => cases hcmp; exact Or.inr ⟨rfl, name, rfl⟩
  | array inner ranks => cases hcmp
  | _ => cases hcmp; exact Or.inl ⟨rfl, rfl, by simp⟩

namespace Slot

variable {e : Evaluator} {calls : Calls} {frame : Frame}

/-- **The comparison of a slot is structural** on values that are well-formed for its type. -/
theorem eval_comparison {owner : String} {s : Slot} {c : Expr} (hc : s.comparison owner = .ok c)
    {v w : Value} (hl : (Expr.selfMember s.field).eval calls frame = .ok v)
    (hr : (Expr.member (.ident otherName) s.field).eval calls frame = .ok w)
    (hv : e.wellFormed v s.type = true) (hw : e.wellFormed w s.type = true) {bound : Nat}
    (hcalls : calls.Structural e bound) (hsize : v.size ≤ bound) :
    c.eval calls frame = .ok (.bool (v.sameStructure w)) := by
  obtain ⟨property, field, type, isValueType⟩ := s
  simp only at hl hr hv hw
  have hscalar : ∀ u, e.wellFormed u type = true → type.isArray = false →
      (∀ name, type ≠ .named name) → u.isScalar = true := fun u hu harray hname =>
    Evaluator.isScalar_of_wellFormed hu harray fun name he => absurd he (hname name)
  rw [comparison] at hc
  cases type with
  | named name =>
    cases hc
    exact Expr.eval_nullSafeEquals hl hr (hcalls hv hw hsize)
  | array element ranks =>
    simp only at hc
    split at hc
    · rename_i comparison hcomparison
      cases hc
      have hva := Evaluator.wellFormed_array hv
      have hwa := Evaluator.wellFormed_array hw
      refine eval_arrayComparison hl hr (hva.imp_right fun ⟨as, h, _⟩ => ⟨as, h⟩)
        (hwa.imp_right fun ⟨bs, h, _⟩ => ⟨bs, h⟩) ?_
      rintro as bs rfl rfl a ha b hb
      have hwfa : e.wellFormed a element = true := by
        rcases hva with h | ⟨_, h, hitems⟩
        · cases h
        · cases h
          exact hitems a ha
      have hwfb : e.wellFormed b element = true := by
        rcases hwa with h | ⟨_, h, hitems⟩
        · cases h
        · cases h
          exact hitems b hb
      rcases elementComparison_of_array hcomparison with ⟨rfl, harray, hname⟩ | ⟨rfl, name, rfl⟩
      · exact Value.directlyEquals_scalar
          (Evaluator.isScalar_of_wellFormed hwfa harray fun n he => absurd he (hname n))
          (Evaluator.isScalar_of_wellFormed hwfb harray fun n he => absurd he (hname n))
      · have := Value.size_le_sizeItems ha
        rw [Value.size] at hsize
        exact hcalls hwfa hwfb (by omega)
    · cases hc
  | _ =>
    cases hc
    exact Expr.eval_eq hl hr (Value.directlyEquals_scalar (hscalar v hv rfl (by simp))
      (hscalar w hw rfl (by simp)))

end Slot

/-- **The conjunction over slots** holds when its start does and all comparisons do. -/
theorem eval_conjunction {calls : Calls} {frame : Frame} {owner : String} {value : Slot → Bool} :
    ∀ {slots : List Slot} {start c : Expr} {p : Bool}, conjunction owner start slots = .ok c →
      start.eval calls frame = .ok (.bool p) →
      (∀ s ∈ slots, ∀ c, s.comparison owner = .ok c → c.eval calls frame = .ok (.bool (value s))) →
        c.eval calls frame = .ok (.bool (p && slots.all value)) := by
  intro slots
  induction slots with
  | nil =>
    intro start c p hc hstart _
    cases hc
    rw [List.all_nil, Bool.and_true]
    exact hstart
  | cons first rest ih =>
    intro start c p hc hstart h
    rw [conjunction] at hc
    obtain ⟨d, hd, hc⟩ := Outcome.bind_eq_ok.mp hc
    have hboth := Expr.eval_both hstart (h first List.mem_cons_self d hd)
    rw [List.all_cons, ← Bool.and_assoc]
    exact ih hc hboth fun s hs => h s (List.mem_cons_of_mem _ hs)

/-! ## Instances -/

/-- Calls that find the fields of instances. -/
def Calls.ReadsFields (calls : Calls) : Prop :=
  ∀ {identity : Nat} {typeName name : String} {fields : List (String × Value)} {v : Value},
    NameMap.find? name fields = some v → calls.read (.object identity typeName fields) name = .ok v

/-- What equality starts from holds as soon as the other instance is there. -/
theorem eval_equalityStart {calls : Calls} {frame : Frame} {w : Value} (isValueType : Bool)
    (hother : (Expr.ident otherName).eval calls frame = .ok w) (hw : w.isNull = false) :
    (equalityStart isValueType).eval calls frame = .ok (.bool true) := by
  cases isValueType with
  | true => rfl
  | false =>
    have := Expr.eval_negate (Expr.eval_isNull hother)
    rw [hw] at this
    exact this

namespace Evaluator

variable {e : Evaluator}

theorem callsAt_readsFields (depth : Nat) : (e.callsAt (depth + 1)).ReadsFields := by
  intro identity typeName name fields v h
  rw [callsAt]
  simp only [readWith, h]

theorem all_slots_eq_sameFields {t : TypeDefinition} {kind : RecordKind} {slots : List Slot}
    (hrec : t.IsRecord kind slots) {fields others : List (String × Value)}
    (hf : e.fieldsWellFormed fields t.fieldTypes = true)
    (ho : e.fieldsWellFormed others t.fieldTypes = true) {value : Slot → Bool}
    (hvalue : ∀ s ∈ slots, ∀ v w, NameMap.find? s.field fields = some v →
      NameMap.find? s.field others = some w → value s = v.sameStructure w) :
    slots.all value = Value.sameFields fields others := by
  have hnames : ∀ name, name ∈ t.fieldTypes.map Prod.fst ↔ ∃ s ∈ slots, s.field = name := by
    intro name
    rw [(hrec.perm_fieldTypes.map Prod.fst).mem_iff, List.map_map, List.mem_map]
    rfl
  rw [Bool.eq_iff_iff, List.all_eq_true, sameFields_iff (NameMap.increasing_ofList _) hf ho]
  constructor
  · intro h name hname v w hv hw
    obtain ⟨s, hs, rfl⟩ := (hnames name).mp hname
    rw [← hvalue s hs v w hv hw]
    exact h s hs
  · intro h s hs
    obtain ⟨v, hv, -⟩ := find?_of_fieldsWellFormed hf (hrec.find?_fieldTypes hs)
    obtain ⟨w, hw, -⟩ := find?_of_fieldsWellFormed ho (hrec.find?_fieldTypes hs)
    rw [hvalue s hs v w hv hw]
    exact h s.field ((hnames s.field).mpr ⟨s, hs, rfl⟩) v w hv hw

/-- **One call of a generated equality is structural**, if the calls that its body makes are. -/
theorem equalsWith_eq (he : e.RunsRecords) {t : TypeDefinition} (ht : e.record? t.fullName = some t)
    {calls : Calls} {identity identity' : Nat} {fields others : List (String × Value)}
    (hf : e.fieldsWellFormed fields t.fieldTypes = true)
    (ho : e.fieldsWellFormed others t.fieldTypes = true) (hreads : calls.ReadsFields)
    (hcalls : calls.Structural e (Value.sizeFields fields)) :
    e.equalsWith calls (.object identity t.fullName fields) (.object identity' t.fullName others)
      t.typeRef = .ok (Value.sameFields fields others) := by
  obtain ⟨-, kind, slots, hrec⟩ := he ht
  obtain ⟨owner, body, hbody, hmethod⟩ := hrec.typedEquals
  obtain ⟨c, hc, hbody⟩ := Outcome.bind_eq_ok.mp hbody
  cases hbody
  let frame := Frame.of (.object identity t.fullName fields) [⟨otherName, t.typeRef⟩]
    [.object identity' t.fullName others]
  have hother : (Expr.ident otherName).eval calls frame = .ok (.object identity' t.fullName others) :=
    rfl
  have hleft : ∀ {name v}, NameMap.find? name fields = some v →
      (Expr.selfMember name).eval calls frame = .ok v := fun h => hreads h
  have hright : ∀ {name w}, NameMap.find? name others = some w →
      (Expr.member (.ident otherName) name).eval calls frame = .ok w := by
    intro name w h
    show (do calls.read (← (Expr.ident otherName).eval calls frame) name) = _
    rw [hother]
    exact hreads h
  -- the value of each comparison, said through the fields that it reads
  let value : Slot → Bool := fun s =>
    ((NameMap.find? s.field fields).getD .null).sameStructure
      ((NameMap.find? s.field others).getD .null)
  have hconj : c.eval calls frame = .ok (.bool (true && slots.all value)) := by
    refine eval_conjunction hc (eval_equalityStart _ hother rfl) ?_
    intro s hs d hd
    obtain ⟨v, hv, hwfv⟩ := find?_of_fieldsWellFormed hf (hrec.find?_fieldTypes hs)
    obtain ⟨w, hw, hwfw⟩ := find?_of_fieldsWellFormed ho (hrec.find?_fieldTypes hs)
    have hsize : v.size ≤ Value.sizeFields fields :=
      Value.size_le_sizeFields (NameMap.mem_of_find? fields hv)
    have := s.eval_comparison hd (hleft hv) (hright hw) hwfv hwfw hcalls hsize
    simpa [value, hv, hw] using this
  have hall : slots.all value = Value.sameFields fields others := by
    refine all_slots_eq_sameFields hrec hf ho ?_
    intro s _ v w hv hw
    simp [value, hv, hw]
  rw [equalsWith, lookup_of_record? ht, Outcome.ok_bind, hmethod]
  simp only [invoke, typedEqualsOf]
  change ((Stmt.execAll calls frame [.ret c] >>= _) >>= _) = _
  rw [Stmt.execAll, Stmt.exec, hconj, hall, Bool.true_and]
  rfl

/-! ## Calls at a depth -/

theorem nullSafeEquals_scalar {calls : Calls} {v w : Value} (hv : v.isScalar = true)
    (hw : w.isScalar = true) : calls.nullSafeEquals v w = .ok (v.sameStructure w) := by
  have hdirect := Value.directlyEquals_scalar hv hw
  cases v with
  | null => cases w <;> rfl
  | array items => cases hv
  | object identity typeName fields => cases hv
  | _ =>
    cases w with
    | null => rfl
    | _ => exact hdirect

theorem structural_of_equals (he : e.RunsRecords) {calls : Calls} {bound : Nat}
    (h : ∀ {t : TypeDefinition} {a b : Value}, e.record? t.fullName = some t →
      e.isInstance t a = true → e.isInstance t b = true → a.size ≤ bound →
        calls.equals a b t.typeRef = .ok (a.sameStructure b)) : calls.Structural e bound := by
  intro v w name hv hw hsize
  cases hrec : e.record? name.fullName with
  | none =>
    have hscalar : ∀ u, e.wellFormed u (.named name) = true → u.isScalar = true := by
      intro u hu
      refine isScalar_of_wellFormed hu rfl ?_
      rintro _ ⟨⟩
      exact hrec
    exact nullSafeEquals_scalar (hscalar v hv) (hscalar w hw)
  | some t =>
    obtain ⟨hname, -⟩ := he hrec
    rcases wellFormed_record hrec hname hv with rfl | hv'
    · cases w <;> rfl
    · cases v with
      | object identity typeName fields =>
        obtain ⟨htype, -⟩ := Bool.and_eq_true_iff.mp hv'
        rcases wellFormed_record hrec hname hw with rfl | hw'
        · rfl
        · cases w with
          | object identity' typeName' others =>
            rw [Calls.nullSafeEquals, beq_iff_eq.mp htype]
            · rw [beq_iff_eq.mp htype] at hv' hsize
              exact h (hname ▸ hrec) hv' hw' hsize
            · simp
          | _ => cases hw'
      | _ => cases hv'

/-- **A call at any depth above the size of the left value is structural.** -/
theorem callsAt_equals (he : e.RunsRecords) : ∀ (depth : Nat) {t : TypeDefinition} {a b : Value},
    e.record? t.fullName = some t → e.isInstance t a = true → e.isInstance t b = true →
      a.size ≤ depth → (e.callsAt (depth + 1)).equals a b t.typeRef = .ok (a.sameStructure b) := by
  intro depth
  induction depth with
  | zero =>
    intro t a b _ _ _ hsize
    have := a.size_pos
    omega
  | succ depth ih =>
    intro t a b ht ha hb hsize
    cases a with
    | object identity typeName fields =>
      cases b with
      | object identity' typeName' others =>
        rw [isInstance, Bool.and_eq_true, beq_iff_eq] at ha hb
        obtain ⟨rfl, hf⟩ := ha
        obtain ⟨rfl, ho⟩ := hb
        rw [Value.size] at hsize
        have hbelow : (e.callsAt (depth + 1)).Structural e (Value.sizeFields fields) :=
          structural_of_equals he fun ht ha hb hle => ih ht ha hb (by omega)
        rw [callsAt, Value.sameStructure, beq_self_eq_true, Bool.true_and]
        exact equalsWith_eq he ht hf ho (callsAt_readsFields depth) hbelow
      | _ => cases hb
    | _ => cases ha

theorem callsAt_succ (depth : Nat) : e.callsAt (depth + 1) =
    ⟨e.readWith (e.callsAt depth), e.equalsWith (e.callsAt depth), e.hashWith (e.callsAt depth)⟩ := by
  rw [callsAt]

theorem size_le_depth {v : Value} {arguments : List Value} (h : v ∈ arguments) :
    v.size ≤ e.depth arguments := by
  have hsize := Value.size_le_sizeItems h
  have hmul : 1 * Value.sizeItems arguments ≤ (e.memberCount + 2) * (Value.sizeItems arguments + 2) :=
    Nat.mul_le_mul (by omega) (by omega)
  rw [depth]
  omega

/-- **Equality of instances is structural** in an evaluator of record types. -/
theorem equalsTyped_eq (he : e.RunsRecords) {t : TypeDefinition} (ht : e.record? t.fullName = some t)
    {a b : Value} (ha : e.isInstance t a = true) (hb : e.isInstance t b = true) :
    e.equalsTyped a b = .ok (a.sameStructure b) := by
  have hcall := callsAt_equals he _ ht ha hb (size_le_depth (e := e) (List.mem_cons_self (l := [b])))
  rw [callsAt_succ] at hcall
  cases a with
  | object identity typeName fields =>
    obtain ⟨htype, -⟩ := Bool.and_eq_true_iff.mp ha
    rw [equalsTyped, callsFor, ← hcall, beq_iff_eq.mp htype]
    rfl
  | _ => cases ha

end Evaluator

/-! ## Compiled sources -/

/-- **Generated equality is structural equality.**  On well-formed instances of any class or struct
that a source compiles to, it never fails and answers whether the two have the same structure.  It
is symmetric and transitive therefore, and an instance equals itself exactly if no NaN occurs in
it. -/
theorem Compiler.equalsTyped_eq_sameStructure {c : Compiler} {source : String} {o : Output}
    (h : c.compile source = .ok o) {typeName : String} {t : TypeDefinition}
    (ht : (Evaluator.of o).record? typeName = some t) {a b : Value}
    (ha : (Evaluator.of o).isInstance t a = true) (hb : (Evaluator.of o).isInstance t b = true) :
    (Evaluator.of o).equalsTyped a b = .ok (a.sameStructure b) ∧
      (Evaluator.of o).equalsTyped b a = (Evaluator.of o).equalsTyped a b ∧
      (Evaluator.of o).equalsTyped a a = .ok (!a.holdsNaN) ∧
      ∀ d, (Evaluator.of o).isInstance t d = true → (Evaluator.of o).equalsTyped a b = .ok true →
        (Evaluator.of o).equalsTyped b d = .ok true → (Evaluator.of o).equalsTyped a d = .ok true := by
  obtain ⟨document, -, hgen⟩ := compile_eq_ok h
  have he : (Evaluator.of o).RunsRecords := Evaluator.runsRecords_of_generate hgen
  obtain ⟨rfl, -⟩ := he ht
  have heq : ∀ {v w : Value}, (Evaluator.of o).isInstance t v = true →
      (Evaluator.of o).isInstance t w = true →
        (Evaluator.of o).equalsTyped v w = .ok (v.sameStructure w) := Evaluator.equalsTyped_eq he ht
  refine ⟨heq ha hb, ?_, ?_, ?_⟩
  · rw [heq ha hb, heq hb ha, Value.sameStructure_comm]
  · rw [heq ha ha, Value.sameStructure_self]
  · intro d hd hab hbd
    rw [heq ha hb, Except.ok.injEq] at hab
    rw [heq hb hd, Except.ok.injEq] at hbd
    rw [heq ha hd, a.sameStructure_trans hab hbd]

/-! ### Trees -/

namespace Trees

/-- A source with a type that refers to itself. -/
def source : String :=
  "(namespace T (defvaluetype Id double) (defdto Tree (Id Key, Tree[] Children)))"

/-- What the source compiles to. -/
def output : Output := (Compiler.standard.compile source).toOption.get (by decide +kernel)

/-- The type of trees. -/
def tree : TypeDefinition := ((Evaluator.of output).record? "T.Tree").get (by decide +kernel)

/-- A tree with a number as its key. -/
def leaf (identity : Nat) (key : UInt64) : Value :=
  .object identity "T.Tree"
    [("_children", .null), ("_key", .object (identity + 1) "T.Id" [("_value", .float ⟨key⟩)])]

/-- A tree without a key. -/
def node (identity : Nat) (children : List Value) : Value :=
  .object identity "T.Tree" [("_children", .array children), ("_key", .null)]

theorem compile_source : Compiler.standard.compile source = .ok output := by
  unfold output
  exact Outcome.eq_ok_get _

theorem record_tree : (Evaluator.of output).record? "T.Tree" = some tree := by
  unfold tree
  exact (Option.some_get _).symm

theorem isInstance_left :
    (Evaluator.of output).isInstance tree (node 0 [leaf 1 0, .null]) = true := by
  decide +kernel

theorem isInstance_right :
    (Evaluator.of output).isInstance tree (node 3 [leaf 4 0x8000000000000000, .null]) = true := by
  decide +kernel

theorem sameStructure_trees : (node 0 [leaf 1 0, .null]).sameStructure
    (node 3 [leaf 4 0x8000000000000000, .null]) = true := by
  decide +kernel

theorem equalsTyped_trees :
    Compiler.standard.compile source = .ok output ∧
      (Evaluator.of output).record? "T.Tree" = some tree ∧
      (Evaluator.of output).isInstance tree (node 0 [leaf 1 0, .null]) = true ∧
      (Evaluator.of output).isInstance tree (node 3 [leaf 4 0x8000000000000000, .null]) = true ∧
      (Evaluator.of output).equalsTyped (node 0 [leaf 1 0, .null])
        (node 3 [leaf 4 0x8000000000000000, .null]) = .ok true := by
  refine ⟨compile_source, record_tree, isInstance_left, isInstance_right, ?_⟩
  rw [(Compiler.equalsTyped_eq_sameStructure compile_source record_tree isInstance_left
    isInstance_right).1, sameStructure_trees]

end Trees

end DomainForms
