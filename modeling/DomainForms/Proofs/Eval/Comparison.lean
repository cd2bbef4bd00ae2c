import DomainForms.Proofs.Eval.Equality
import DomainForms.Proofs.Target.Members

/-!
# What equality members do to any values

On well-formed instances the generated equality is structural, but it can be called with any values.
What its bodies then do has a closed form too: they read the members of the two values that are named
like the fields of the type, and compare what was read slot by slot, up to the first slot that differs
or that cannot be read or compared.  The equality with any object and the operators only decide
whether that comparison is made at all.

* `Slot.compare`, `Calls.slotsEqual`: the comparison of one slot, and of all of them.
* `Slot.eval_comparison_eq`, `eval_conjunction_eq`: the generated expressions compute them.
* `Evaluator.equalsWith_typed`: **equality with another instance compares all slots.**
* `Evaluator.equalsWith_object`, `Evaluator.operator_eq`: the other members delegate to it.
-/

namespace DomainForms

/-! ## Slots -/

/-- The items of an array. -/
def Value.asArray : Value → Except Fault (List Value)
  | array items => .ok items
  | found => .error (.lengthOf found)

/-- Whether two values are both null, or arrays with equal items. -/
def Calls.arraysEqual (calls : Calls) (element : ElementComparison) (v w : Value) :
    Except Fault Bool :=
  if v.isNull || w.isNull then .ok (v.isNull && w.isNull)
  else do
    let lefts ← v.asArray
    let rights ← w.asArray
    calls.itemsEqual element lefts rights

/-- The comparison of two values that were read for a slot. -/
def Slot.compare (calls : Calls) (s : Slot) (v w : Value) : Except Fault Bool :=
  match s.type with
  | .named _ => calls.nullSafeEquals v w
  | .array .. =>
    match s.type.singleDimensionElement?.bind elementComparison? with
    | some element => calls.arraysEqual element v w
    | none => .ok false
  | _ => v.directlyEquals w

/-- The comparison of a slot of two values. -/
def Calls.slotEqual (calls : Calls) (a b : Value) (s : Slot) : Except Fault Bool := do
  let v ← calls.read a s.field
  let w ← calls.read b s.field
  s.compare calls v w

/-- The comparison of the slots of two values, one after the other.  The first difference decides. -/
def Calls.slotsEqual (calls : Calls) (a b : Value) : List Slot → Except Fault Bool
  | [] => .ok true
  | s :: rest => do if ← calls.slotEqual a b s then calls.slotsEqual a b rest else return false

/-! ## Expressions -/

theorem Outcome.bind_pure_eq_map {ε α β : Type} (f : α → β) (step : Except ε α) :
    (step >>= fun a => pure (f a)) = step.map f := by
  cases step <;> rfl

namespace Expr

variable {calls : Calls} {frame : Frame} {l r : Expr} {x y : Except Fault Bool}

theorem eval_both_eq (hl : l.eval calls frame = x.map .bool)
    (hr : r.eval calls frame = y.map .bool) :
    (both l r).eval calls frame
      = (do if ← x then y else return false : Except Fault Bool).map .bool := by
  show (do
    if ← (← l.eval calls frame).asBool then return .bool (← (← r.eval calls frame).asBool)
    else return .bool false : Except Fault Value) = _
  rw [hl, hr]
  cases x with
  | error fault => rfl
  | ok holds =>
    cases holds with
    | false => rfl
    | true => cases y <;> rfl

theorem eval_either_eq (hl : l.eval calls frame = x.map .bool)
    (hr : r.eval calls frame = y.map .bool) :
    (either l r).eval calls frame
      = (do if ← x then return true else y : Except Fault Bool).map .bool := by
  show (do
    if ← (← l.eval calls frame).asBool then return .bool true
    else return .bool (← (← r.eval calls frame).asBool) : Except Fault Value) = _
  rw [hl, hr]
  cases x with
  | error fault => rfl
  | ok holds =>
    cases holds with
    | true => rfl
    | false => cases y <;> rfl

theorem eval_negate_eq (hl : l.eval calls frame = x.map .bool) :
    (negate l).eval calls frame = (x.map (!·)).map .bool := by
  show (do return .bool !(← (← l.eval calls frame).asBool) : Except Fault Value) = _
  rw [hl]
  cases x <;> rfl

variable (calls frame l r)

theorem eval_isNull_eq :
    (isNull l).eval calls frame = ((l.eval calls frame).map Value.isNull).map Value.bool := by
  show (do return .bool (← l.eval calls frame).isNull : Except Fault Value) = _
  cases l.eval calls frame <;> rfl

theorem eval_eq_eq : (binary .eq l r).eval calls frame = (do
    let v ← l.eval calls frame
    let w ← r.eval calls frame
    v.directlyEquals w : Except Fault Bool).map Value.bool := by
  rw [← Outcome.bind_pure_eq_map, bind_assoc]
  simp only [bind_assoc]
  rfl

theorem eval_nullSafeEquals_eq : (nullSafeEquals l r).eval calls frame = (do
    let v ← l.eval calls frame
    let w ← r.eval calls frame
    calls.nullSafeEquals v w : Except Fault Bool).map Value.bool := by
  rw [← Outcome.bind_pure_eq_map, bind_assoc]
  simp only [bind_assoc]
  rfl

theorem eval_invokeEquals_eq (parameter : TypeRef) :
    (invokeEquals l r parameter).eval calls frame = (do
      let v ← l.eval calls frame
      let w ← r.eval calls frame
      calls.equals v w parameter : Except Fault Bool).map Value.bool := by
  rw [← Outcome.bind_pure_eq_map, bind_assoc]
  simp only [bind_assoc]
  rfl

theorem eval_length_eq : (length l).eval calls frame = (do
    return .int (Int64.ofNat (← (← l.eval calls frame).asArray).length) : Except Fault Value) := by
  rw [eval]
  cases l.eval calls frame with
  | error fault => rfl
  | ok v => cases v <;> rfl

/-- The comparison of items has a truth value or fails, and on two arrays it is the comparison of
their items. -/
theorem exists_eval_items (element : ElementComparison) :
    ∃ y : Except Fault Bool,
      (elementwiseEquals l r element).eval calls frame = y.map Value.bool ∧
        ∀ lefts rights, l.eval calls frame = .ok (.array lefts) →
          r.eval calls frame = .ok (.array rights) →
            y = calls.itemsEqual element lefts rights := by
  by_cases h : ∃ lefts rights, l.eval calls frame = .ok (.array lefts) ∧
      r.eval calls frame = .ok (.array rights)
  · obtain ⟨lefts, rights, hl, hr⟩ := h
    refine ⟨calls.itemsEqual element lefts rights, ?_, ?_⟩
    · rw [eval, hl, hr, ← Outcome.bind_pure_eq_map]
      rfl
    · intro lefts' rights' hl' hr'
      rw [hl] at hl'
      rw [hr] at hr'
      cases hl'
      cases hr'
      rfl
  · have hfails : ∃ fault, (elementwiseEquals l r element).eval calls frame = .error fault := by
      rw [eval]
      cases hl : l.eval calls frame with
      | error fault => exact ⟨fault, rfl⟩
      | ok v =>
        cases hr : r.eval calls frame with
        | error fault => exact ⟨fault, rfl⟩
        | ok w =>
          refine ⟨.notTwoArrays, ?_⟩
          simp only [Outcome.ok_bind]
          split
          · exact absurd ⟨_, _, hl, hr⟩ h
          · rfl
    obtain ⟨fault, hfault⟩ := hfails
    exact ⟨.error fault, hfault, fun lefts rights hl hr => absurd ⟨lefts, rights, hl, hr⟩ h⟩

end Expr

theorem Value.asArray_eq_ok {v : Value} {items : List Value} (h : v.asArray = .ok items) :
    v = .array items := by
  cases v with
  | array held => rw [Except.ok.inj h]
  | _ => cases h

section

variable {calls : Calls} {frame : Frame} {l r : Expr}

theorem Calls.itemsEqual_eq_lengths (calls : Calls) (element : ElementComparison)
    (as bs : List Value) :
    (if Int64.ofNat as.length == Int64.ofNat bs.length then calls.itemsEqual element as bs
      else .ok false) = calls.itemsEqual element as bs := by
  by_cases hlen : as.length = bs.length
  · rw [hlen, beq_self_eq_true, if_pos rfl]
  · have hfalse : calls.itemsEqual element as bs = .ok false := if_pos hlen
    rw [hfalse, ite_self]

/-- **The comparison of two arrays**, on any values. -/
theorem eval_arrayComparison_eq (l r : Expr) (element : ElementComparison) :
    (arrayComparison l r element).eval calls frame = (do
      let v ← l.eval calls frame
      let w ← r.eval calls frame
      calls.arraysEqual element v w : Except Fault Bool).map Value.bool := by
  have hleft := Expr.eval_isNull_eq calls frame l
  have hright := Expr.eval_isNull_eq calls frame r
  have hlengths := Expr.eval_eq_eq calls frame (.length l) (.length r)
  obtain ⟨y, hitems, hy⟩ := Expr.exists_eval_items calls frame l r element
  have hthere := Expr.eval_both_eq (Expr.eval_negate_eq hleft) (Expr.eval_negate_eq hright)
  have hall := Expr.eval_both_eq (Expr.eval_both_eq hthere hlengths) hitems
  rw [arrayComparison, Expr.eval_either_eq (Expr.eval_both_eq hleft hright) hall,
    Expr.eval_length_eq, Expr.eval_length_eq]
  congr 1
  cases hl : l.eval calls frame with
  | error fault => rfl
  | ok v =>
    cases hr : r.eval calls frame with
    | error fault =>
      simp only [Except.map, Outcome.ok_bind, Outcome.error_bind]
      cases v.isNull <;> rfl
    | ok w =>
      simp only [Except.map, Outcome.ok_bind, Calls.arraysEqual]
      cases v.isNull with
      | true => cases w.isNull <;> rfl
      | false =>
        cases w.isNull with
        | true => rfl
        | false =>
          -- both are there, so the lengths decide first, and then the items
          cases hv : v.asArray with
          | error fault => rfl
          | ok lefts =>
            cases hw : w.asArray with
            | error fault => rfl
            | ok rights =>
              rw [hy lefts rights (Value.asArray_eq_ok hv ▸ hl) (Value.asArray_eq_ok hw ▸ hr)]
              exact calls.itemsEqual_eq_lengths element lefts rights

theorem Slot.eval_comparison_eq {owner : String} {s : Slot} {c : Expr}
    (hc : s.comparison owner = .ok c) {a b : Value} (ha : frame.self = a)
    (hb : frame.locals.find? otherName = some b) :
    c.eval calls frame = (calls.slotEqual a b s).map .bool := by
  have hleft : (Expr.selfMember s.field).eval calls frame = calls.read a s.field := by
    rw [← ha]
    rfl
  have hright : (Expr.member (.ident otherName) s.field).eval calls frame
      = calls.read b s.field := by
    show (do calls.read (← (Expr.ident otherName).eval calls frame) s.field) = _
    rw [Expr.eval, hb]
    rfl
  unfold Slot.comparison at hc
  unfold Calls.slotEqual Slot.compare
  rw [← hleft, ← hright]
  cases htype : s.type with
  | named name =>
    rw [htype] at hc
    cases hc
    exact Expr.eval_nullSafeEquals_eq _ _ _ _
  | array element ranks =>
    rw [htype] at hc
    simp only at hc ⊢
    cases hcomparison : (element.array ranks).singleDimensionElement?.bind elementComparison? with
    | none =>
      rw [hcomparison] at hc
      cases hc
    | some comparison =>
      rw [hcomparison] at hc
      cases hc
      exact eval_arrayComparison_eq _ _ comparison
  | _ =>
    rw [htype] at hc
    cases hc
    exact Expr.eval_eq_eq _ _ _ _

theorem eval_conjunction_eq {owner : String} {a b : Value} (ha : frame.self = a)
    (hb : frame.locals.find? otherName = some b) :
    ∀ {slots : List Slot} {start c : Expr} {x : Except Fault Bool},
      conjunction owner start slots = .ok c → start.eval calls frame = x.map .bool →
        c.eval calls frame
          = (do if ← x then calls.slotsEqual a b slots else return false).map Value.bool := by
  intro slots
  induction slots with
  | nil =>
    intro start c x hc hstart
    cases hc
    rw [hstart]
    cases x with
    | error fault => rfl
    | ok holds => cases holds <;> rfl
  | cons first rest ih =>
    intro start c x hc hstart
    rw [conjunction] at hc
    obtain ⟨d, hd, hc⟩ := Outcome.bind_eq_ok.mp hc
    rw [ih hc (Expr.eval_both_eq hstart (first.eval_comparison_eq hd ha hb))]
    cases x with
    | error fault => rfl
    | ok holds => cases holds <;> rfl

end

/-! ## Methods and operators -/

/-- A parameter holds its argument; of several with one name, the last one counts. -/
theorem Frame.find?_locals (self : Value) (parameters : List Parameter) (arguments : List Value)
    (name : String) :
    (Frame.of self parameters arguments).locals.find? name
      = ((((parameters.map Parameter.name).zip arguments).reverse.find? (·.1 == name)).map
          Prod.snd) :=
  NameMap.find?_ofList name _

/-- What an operator makes of an answer of equality. -/
def OperatorKind.verdict : OperatorKind → Bool → Bool
  | equality, holds => holds
  | inequality, holds => !holds

theorem OperatorKind.eval_apply {calls : Calls} {frame : Frame} {x : Expr} {y : Except Fault Bool}
    (kind : OperatorKind) (h : x.eval calls frame = y.map .bool) :
    (kind.apply x).eval calls frame = (y.map kind.verdict).map .bool := by
  cases kind with
  | equality =>
    rw [apply, h]
    cases y <;> rfl
  | inequality => exact Expr.eval_negate_eq h

theorem eval_equalityStart_eq {calls : Calls} {frame : Frame} {b : Value} (isValueType : Bool)
    (hb : frame.locals.find? otherName = some b) :
    (equalityStart isValueType).eval calls frame
      = .ok (.bool !(!isValueType && b.isNull)) := by
  cases isValueType with
  | true => rfl
  | false =>
    refine Expr.eval_negate (Expr.eval_isNull ?_)
    rw [Expr.eval, hb]

namespace Stmt

variable {calls : Calls} {frame : Frame}

theorem execAll_ret {x : Expr} {y : Except Fault Bool} (h : x.eval calls frame = y.map .bool) :
    execAll calls frame [.ret x] = y.map fun holds => (frame, some (.bool holds)) := by
  rw [execAll, exec, h]
  cases y <;> rfl

theorem execAll_guarded {c x y : Expr} {p : Bool} (hc : c.eval calls frame = .ok (.bool p)) :
    execAll calls frame [.branch c [.ret x] [], .ret y]
      = execAll calls frame [.ret (if p then x else y)] := by
  rw [execAll, exec, hc]
  cases p with
  | true =>
    simp only [Outcome.ok_bind, Value.asBool, if_true, execAll, exec]
    cases x.eval calls frame <;> rfl
  | false => rfl

/-- **The body of an operator** asks the left operand, unless that is a null reference. -/
theorem execAll_operatorBody {l r : Value} (hl : frame.locals.find? leftName = some l)
    (hr : frame.locals.find? rightName = some r) (op : OperatorKind) (isValueType : Bool)
    (self : TypeRef) :
    execAll calls frame (operatorBody op isValueType self)
      = ((if !isValueType && l.isNull then .ok r.isNull
          else calls.equals l r self).map op.verdict).map fun holds =>
            (frame, some (.bool holds)) := by
  have hleft : (Expr.ident leftName).eval calls frame = .ok l := by rw [Expr.eval, hl]
  have hright : (Expr.ident rightName).eval calls frame = .ok r := by rw [Expr.eval, hr]
  have hnull : (op.apply (.isNull (.ident rightName))).eval calls frame
      = (Except.map op.verdict (.ok r.isNull)).map .bool :=
    op.eval_apply (Expr.eval_isNull hright)
  have hcall := Expr.eval_invokeEquals_eq calls frame (.ident leftName) (.ident rightName) self
  rw [hleft, hright, Outcome.ok_bind, Outcome.ok_bind] at hcall
  have hdelegate := op.eval_apply hcall
  rw [operatorBody]
  cases isValueType with
  | true => exact execAll_ret hdelegate
  | false =>
    rw [if_neg Bool.false_ne_true, execAll_guarded (Expr.eval_isNull hleft), Bool.not_false,
      Bool.true_and]
    cases l.isNull with
    | true => exact execAll_ret hnull
    | false => exact execAll_ret hdelegate

end Stmt

namespace Evaluator

variable {e : Evaluator} {calls : Calls} {t : TypeDefinition} {kind : RecordKind}
  {slots : List Slot} {identity : Nat} {fields : List (String × Value)}

/-- **Equality with another instance compares all slots**, whatever it is called with; only a null
reference differs from every instance of a class. -/
theorem equalsWith_typed (hrec : t.IsRecord kind slots) (ht : e.lookup t.fullName = .ok t)
    (b : Value) :
    e.equalsWith calls (.object identity t.fullName fields) b t.typeRef
      = if !kind.isValueType && b.isNull then .ok false
        else calls.slotsEqual (.object identity t.fullName fields) b slots := by
  obtain ⟨owner, body, hbody, hmethod⟩ := hrec.typedEquals
  obtain ⟨c, hc, hbody⟩ := Outcome.bind_eq_ok.mp hbody
  cases hbody
  let frame := Frame.of (.object identity t.fullName fields) [⟨otherName, t.typeRef⟩] [b]
  have hother : frame.locals.find? otherName = some b := rfl
  have hstart : (equalityStart kind.isValueType).eval calls frame
      = (Except.ok !(!kind.isValueType && b.isNull)).map Value.bool :=
    eval_equalityStart_eq kind.isValueType hother
  have hconj := eval_conjunction_eq rfl hother hc hstart
  rw [equalsWith, ht, Outcome.ok_bind, hmethod]
  simp only [invoke, typedEqualsOf]
  change ((Stmt.execAll calls frame [.ret c] >>= _) >>= _) = _
  rw [Stmt.execAll_ret hconj]
  cases !kind.isValueType && b.isNull with
  | true => rfl
  | false =>
    show _ = calls.slotsEqual frame.self b slots
    cases calls.slotsEqual frame.self b slots <;> rfl

/-- **Equality with any object** compares instances of the type, and nothing else is equal. -/
theorem equalsWith_object (hrec : t.IsRecord kind slots) (ht : e.lookup t.fullName = .ok t)
    (hne : t.typeRef ≠ .ofName objectTypeName) (b : Value) :
    e.equalsWith calls (.object identity t.fullName fields) b (.ofName objectTypeName)
      = if b.isNull then .ok false
        else if b.isInstanceOf t.typeRef then
          calls.equals (.object identity t.fullName fields) b t.typeRef
        else .ok false := by
  let frame := Frame.of (.object identity t.fullName fields)
    [⟨objectName, .ofName objectTypeName⟩] [b]
  rw [equalsWith, ht, Outcome.ok_bind, hrec.objectEquals hne]
  simp only [invoke, objectEqualsOf, objectEqualsBody]
  change ((Stmt.execAll calls frame _ >>= _) >>= _) = _
  have hobject : (Expr.ident objectName).eval calls frame = .ok b := rfl
  rw [Stmt.execAll_guarded (Expr.eval_isNull hobject)]
  cases hnull : b.isNull with
  | true => rfl
  | false =>
    have htype : (Expr.isType (.ident objectName) t.typeRef).eval calls frame
        = .ok (.bool (b.isInstanceOf t.typeRef)) := by
      rw [Expr.eval, hobject]
      rfl
    cases hinstance : b.isInstanceOf t.typeRef with
    | false =>
      rw [hinstance] at htype
      rw [if_neg Bool.false_ne_true,
        Stmt.execAll_ret (y := .ok false) (Expr.eval_both_of_false htype)]
      rfl
    | true =>
      rw [hinstance] at htype
      have hcast : (Expr.cast (.ident objectName) t.typeRef).eval calls frame = .ok b := by
        rw [Expr.eval, hobject, Outcome.ok_bind, hinstance, Bool.or_true, if_pos rfl]
        rfl
      have hcall := Expr.eval_invokeEquals_eq calls frame .self
        (.cast (.ident objectName) t.typeRef) t.typeRef
      rw [hcast] at hcall
      rw [if_neg Bool.false_ne_true,
        Stmt.execAll_ret (Expr.eval_both_eq (x := .ok true) htype hcall)]
      show _ = calls.equals frame.self b t.typeRef
      simp only [Expr.eval, Outcome.ok_bind, if_true]
      cases calls.equals frame.self b t.typeRef <;> rfl

/-- An operator that a type declares, where the calls of its body have the given answers. -/
def operatorWith (e : Evaluator) (calls : Calls) (typeName : String) (op : OperatorKind)
    (left right : Value) : Except Fault Bool := do
  let type ← e.lookup typeName
  match type.operator? op with
  | none => .error (.noOperator typeName op)
  | some operator =>
    let frame := Frame.of .null operator.parameters [left, right]
    let (_, result) ← Stmt.execAll calls frame operator.body
    match result with
    | some value => value.asBool
    | none => .error .operatorWithoutResult

/-- **Operators delegate to equality**, unless the left operand is a null reference. -/
theorem operatorWith_eq (hrec : t.IsRecord kind slots) (ht : e.lookup t.fullName = .ok t)
    (calls : Calls) (op : OperatorKind) (l r : Value) :
    e.operatorWith calls t.fullName op l r
      = (if !kind.isValueType && l.isNull then .ok r.isNull
          else calls.equals l r t.typeRef).map op.verdict := by
  have hl : (Frame.of .null (operatorOf op kind.isValueType t.typeRef).parameters
      [l, r]).locals.find? leftName = some l := by
    rw [Frame.find?_locals]
    rfl
  have hr : (Frame.of .null (operatorOf op kind.isValueType t.typeRef).parameters
      [l, r]).locals.find? rightName = some r := by
    rw [Frame.find?_locals]
    rfl
  rw [operatorWith, ht, Outcome.ok_bind, hrec.operator?_eq]
  simp only
  rw [operatorOf] at hl hr ⊢
  rw [Stmt.execAll_operatorBody hl hr]
  cases (if !kind.isValueType && l.isNull then .ok r.isNull
    else calls.equals l r t.typeRef).map op.verdict <;> rfl

theorem operator_eq (hrec : t.IsRecord kind slots) (ht : e.lookup t.fullName = .ok t)
    (op : OperatorKind) (l r : Value) :
    e.operator t.fullName op l r
      = (if !kind.isValueType && l.isNull then .ok r.isNull
          else (e.callsFor [l, r]).equals l r t.typeRef).map op.verdict :=
  operatorWith_eq hrec ht (e.callsFor [l, r]) op l r

end Evaluator

end DomainForms
