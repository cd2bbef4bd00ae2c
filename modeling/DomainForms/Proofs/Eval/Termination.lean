import DomainForms.Proofs.Eval.Settling

/-!
# Requests always have an answer

Whatever an evaluator of an output is asked, and with whatever values, its calls end.  Members are
read within as many calls as there are members (`Evaluator.settled_read`).  Equality and hash codes
read members of a value and go on with what they read, which is a smaller value; equality with any
object and the operators call equality once more.  Constructors call nothing.

So a depth of calls is enough that is computed from the output and from the sizes of the values, and
a request has the same answer at every depth from there on.

* `Evaluator.settled_equals_any`, `Evaluator.settled_hash`: equality and hash codes settle.
* `Request`, `Request.answer`: what an evaluator can be asked, and what it answers.
* `Request.depthNeeded`: a depth of calls that is enough.
* `Compiler.requests_settle`: **every request over a compiled source has an answer**, at every depth
  from the needed one on the same.
-/

namespace DomainForms

/-! ## Answers -/

section

variable {α β : Type}

theorem Kept.map {answer deeper : Except Fault α} (f : α → β) (h : Kept answer deeper) :
    Kept (answer.map f) (deeper.map f) := by
  rcases h with h | h
  · rw [h]
    exact Or.inl rfl
  · rw [h]
    exact Kept.refl _

theorem Settled.map {answer : Except Fault α} (f : α → β) (h : Settled answer) :
    Settled (answer.map f) := by
  cases answer with
  | error fault =>
    intro he
    cases he
    exact h rfl
  | ok a => exact Settled.ok _

end

theorem Value.settled_asBool (v : Value) : Settled v.asBool := by
  cases v <;> intro h <;> cases h

theorem Value.settled_asInt (v : Value) : Settled v.asInt := by
  cases v <;> intro h <;> cases h

theorem Evaluator.settled_lookup (e : Evaluator) (typeName : String) :
    Settled (e.lookup typeName) := by
  unfold lookup
  split <;> intro h <;> cases h

theorem Evaluator.find?_of_lookup {e : Evaluator} {typeName : String} {t : TypeDefinition}
    (h : e.lookup typeName = .ok t) : e.types.find? typeName = some t := by
  unfold lookup at h
  split at h
  · cases h
    assumption
  · cases h

/-! ## Sums -/

namespace Expr

variable {calls : Calls} {frame : Frame}

theorem settled_add {l r : Expr} (hl : Settled (l.eval calls frame))
    (hr : Settled (r.eval calls frame)) : Settled ((binary .add l r).eval calls frame) := by
  refine hl.bind fun v _ => v.settled_asInt.bind fun x _ => ?_
  exact hr.bind fun w _ => w.settled_asInt.bind fun y _ => Settled.ok _

theorem settled_foldl_add : ∀ {items : List Expr} {start : Expr}, Settled (start.eval calls frame) →
    (∀ x ∈ items, Settled (x.eval calls frame)) →
      Settled ((items.foldl (binary .add) start).eval calls frame) := by
  intro items
  induction items with
  | nil => intro start hstart _; exact hstart
  | cons x items ih =>
    intro start hstart h
    exact ih (settled_add hstart (h x List.mem_cons_self)) fun y hy => h y (List.mem_cons_of_mem _ hy)

theorem settled_sumOf {items : List Expr} (h : ∀ x ∈ items, Settled (x.eval calls frame)) :
    Settled ((sumOf items).eval calls frame) := by
  cases items with
  | nil => exact Settled.ok _
  | cons x items =>
    exact settled_foldl_add (h x List.mem_cons_self) fun y hy => h y (List.mem_cons_of_mem _ hy)

end Expr

/-! ## Members of types -/

/-- **Only record types have operators.** -/
theorem Model.isGenerated_of_operator? {m : Model} {o : Output} (h : m.generate = .ok o) :
    ∀ t ∈ o.types, ∀ op operator, t.operator? op = some operator →
      ∃ kind slots, t.IsGenerated kind slots := by
  refine forall_of_generate ?_ ?_ ?_ h
  · intro scope kind r t ht op operator _
    obtain ⟨slots, -, hgen⟩ := isGenerated_of_recordType ht
    exact ⟨kind, slots, hgen⟩
  · intro scope e t ht op operator hop
    obtain ⟨-, -, -, hmembers⟩ := enumerationType_eq_ok ht
    obtain ⟨member, hm, hop⟩ := List.exists_of_findSome?_eq_some hop
    obtain ⟨value, rfl⟩ := hmembers member hm
    cases hop
  · intro scope s op operator hop
    obtain ⟨member, hm, hop⟩ := List.exists_of_findSome?_eq_some hop
    obtain ⟨command, -, rfl⟩ := List.mem_map.1 hm
    cases hop

/-- An equality method of a record type takes the type itself or any object. -/
theorem TypeDefinition.IsRecord.parameter_of_equals {t : TypeDefinition} {kind : RecordKind}
    {slots : List Slot} (h : t.IsRecord kind slots) {parameter : TypeRef} {method : Method}
    (hm : t.methodWithParameter? equalsName parameter = some method) :
    parameter = t.typeRef ∨ parameter = .ofName objectTypeName := by
  obtain ⟨owner, body, -, hmethods⟩ := h.methods_eq equalsName
  have htakes := List.find?_some hm
  have hmem := List.mem_of_find?_eq_some hm
  have hother : hashCodeName ≠ equalsName := by decide
  rw [hmethods] at hmem
  simp only [List.filterMap_cons, List.filterMap_nil, typedEqualsOf, objectEqualsOf, hashCodeOf,
    if_true, if_neg hother, List.mem_cons, List.not_mem_nil, or_false] at hmem
  rcases hmem with rfl | rfl
  · exact Or.inl (by simpa [takesOnly, eq_comm] using htakes)
  · exact Or.inr (by simpa [takesOnly, eq_comm] using htakes)

namespace Evaluator

variable {e : Evaluator}

/-! ## Equality -/

theorem settled_invoke_of_inert {t : TypeDefinition} (h : t.Inert) {calls : Calls} {name : String}
    {method : Method} (hm : method ∈ t.methods name) (self : Value) (arguments : List Value) :
    Settled (invoke calls method self arguments) := by
  rw [invoke, h.methods name method hm]
  intro hc
  cases hc

/-- **Equality of any two values settles**, whichever of the equality methods is called. -/
theorem settled_equals_any (he : e.RunsGenerated) {depth : Nat} {v : Value}
    (h : v.size + e.memberCount + 1 < depth) (w : Value) (parameter : TypeRef) :
    Settled ((e.callsAt depth).equals v w parameter) := by
  obtain ⟨depth, rfl⟩ : ∃ d, depth = d + 1 := ⟨depth - 1, by omega⟩
  cases v with
  | object identity typeName fields =>
    by_cases hp : parameter = .ofName typeName
    · rw [hp]
      exact settled_equals he (by omega)
    rw [callsAt_succ]
    simp only
    cases ht : e.types.find? typeName with
    | none =>
      rw [equalsWith, lookup, ht]
      intro hc
      cases hc
    | some t =>
      have hlookup : e.lookup typeName = .ok t := by rw [lookup, ht]
      cases hmethod : t.methodWithParameter? equalsName parameter with
      | none =>
        rw [equalsWith, hlookup, Outcome.ok_bind, hmethod]
        intro hc
        cases hc
      | some method =>
        obtain ⟨rfl, ⟨kind, slots, hgen⟩ | hinert⟩ := he ht
        · -- the method is not the one of the type itself, so it takes any object
          obtain rfl := (hgen.parameter_of_equals hmethod).resolve_left hp
          rw [equalsWith_object hgen.toIsRecord hlookup (Ne.symm hp)]
          split
          · exact Settled.ok false
          · split
            · exact settled_equals he (by omega)
            · exact Settled.ok false
        · rw [equalsWith, hlookup, Outcome.ok_bind, hmethod]
          exact (settled_invoke_of_inert hinert (List.mem_of_find?_eq_some hmethod) _ _).bind
            fun value _ => value.settled_asBool
  | null => intro hc; cases hc
  | array items => exact Value.settled_directlyEquals (.array items) w
  | _ => exact Value.settled_directlyEquals _ _

/-! ## Hash codes -/

/-- A generated hash code is the value of the sum in its body. -/
theorem hashWith_eq_sum {t : TypeDefinition} {kind : RecordKind} {slots : List Slot}
    (hrec : t.IsRecord kind slots) (ht : e.lookup t.fullName = .ok t) (calls : Calls)
    (identity : Nat) (fields : List (String × Value)) :
    e.hashWith calls (.object identity t.fullName fields)
      = (sumOf ((slots.filter Slot.isValueType).map fun s => .hashCode (.selfMember s.field))).eval
          calls (.of (.object identity t.fullName fields) [] []) >>= Value.asInt := by
  rw [hashWith, ht, Outcome.ok_bind, hrec.hashCode]
  simp only [invoke, hashCodeOf, hashCodeBody, Stmt.execAll, Stmt.exec]
  generalize Expr.eval calls _ _ = sum
  cases sum <;> rfl

/-- **The hash code of any value settles.**  It reads members of an instance and goes on with what it
reads. -/
theorem settled_hash (he : e.RunsGenerated) : ∀ {depth : Nat} {v : Value},
    v.size + e.memberCount < depth → Settled ((e.callsAt depth).hash v) := by
  intro depth
  induction depth with
  | zero => intro v h; omega
  | succ depth ih =>
    intro v h
    rw [callsAt_succ]
    cases v with
    | object identity typeName fields =>
      cases ht : e.types.find? typeName with
      | none =>
        simp only [hashWith, lookup, ht]
        intro hc
        cases hc
      | some t =>
        have hlookup : e.lookup typeName = .ok t := by rw [lookup, ht]
        obtain ⟨rfl, ⟨kind, slots, hgen⟩ | hinert⟩ := he ht
        · simp only [hashWith_eq_sum hgen.toIsRecord hlookup]
          refine Settled.bind (Expr.settled_sumOf fun x hx => ?_) fun value _ => value.settled_asInt
          obtain ⟨s, -, rfl⟩ := List.mem_map.1 hx
          have hpos := (Value.object identity t.fullName fields).size_pos
          refine Settled.bind (settled_read he (by omega) _ s.field) fun part hpart => ?_
          have hsmaller : part.size < (Value.object identity t.fullName fields).size :=
            size_lt_of_read he hpart
          exact (ih (by omega)).bind fun code _ => Settled.ok _
        · simp only [hashWith, hlookup, Outcome.ok_bind]
          cases hmethod : (t.methods hashCodeName).head? with
          | none => intro hc; cases hc
          | some method =>
            exact (settled_invoke_of_inert hinert (List.mem_of_head? hmethod) _ _).bind
              fun value _ => value.settled_asInt
    | _ => intro hc; cases hc

/-! ## Constructors and operators -/

/-- A new instance of a type, where the calls of its constructor have the given answers. -/
def constructWith (e : Evaluator) (calls : Calls) (identity : Nat) (typeName : String)
    (arguments : List Value) : Except Fault Value := do
  let type ← e.lookup typeName
  if !isInstantiable type.kind then
    .error (.notInstantiable typeName)
  else
    match type.constructor? with
    | none => .error (.noConstructor typeName)
    | some constructor =>
      if constructor.parameters.length ≠ arguments.length then
        .error (.wrongArity typeName constructor.parameters.length arguments.length)
      else
        let start := Frame.of (.object identity typeName []) constructor.parameters arguments
        let (final, _) ← Stmt.execAll calls start constructor.body
        return final.self

/-- A row of stores settles, because it calls nothing. -/
theorem settled_stores (calls : Calls) : ∀ (slots : List Slot) (frame : Frame),
    Settled (Stmt.execAll calls frame (slots.map Slot.store)) := by
  intro slots
  induction slots with
  | nil => intro frame; exact Settled.ok _
  | cons s slots ih =>
    intro frame
    have hargument : Settled ((Expr.ident (parameterName s.property)).eval calls frame) := by
      rw [Expr.eval]
      split <;> intro hc <;> cases hc
    have hstore : ∀ v, Settled (frame.assign (.selfMember s.field) v) := by
      intro v
      rw [Expr.selfMember, Frame.assign]
      split <;> intro hc <;> cases hc
    rw [List.map_cons, Stmt.execAll, Slot.store, Stmt.exec]
    refine Settled.bind (hargument.bind fun v _ => (hstore v).bind fun _ _ => Settled.ok _) ?_
    intro result hresult
    obtain ⟨v, -, hresult⟩ := Outcome.bind_eq_ok.mp hresult
    obtain ⟨after, -, hresult⟩ := Outcome.bind_eq_ok.mp hresult
    cases hresult
    exact ih after

theorem settled_constructWith (he : e.RunsGenerated) (calls : Calls) (identity : Nat)
    (typeName : String) (arguments : List Value) :
    Settled (e.constructWith calls identity typeName arguments) := by
  refine (e.settled_lookup typeName).bind fun t hlookup => ?_
  by_cases hkind : isInstantiable t.kind = true
  · have ht : e.record? typeName = some t := record?_eq_some.mpr ⟨find?_of_lookup hlookup, hkind⟩
    obtain ⟨-, kind, slots, hgen⟩ := exists_isGenerated he ht
    rw [if_neg (by simp [hkind]), hgen.constructor?_eq]
    simp only
    split
    · intro hc
      cases hc
    · exact (settled_stores calls slots _).bind fun _ _ => Settled.ok _
  · rw [if_pos (by simp [hkind])]
    intro hc
    cases hc

/-- Every type of an evaluator that has operators is a record type. -/
def OperatesOnRecords (e : Evaluator) : Prop :=
  ∀ {typeName : String} {t : TypeDefinition} {op : OperatorKind} {operator : Operator},
    e.types.find? typeName = some t → t.operator? op = some operator →
      ∃ kind slots, t.IsGenerated kind slots

theorem operatesOnRecords_of_generate {m : Model} {o : Output} (h : m.generate = .ok o) :
    (Evaluator.of o).OperatesOnRecords := by
  intro typeName t op operator ht hop
  exact Model.isGenerated_of_operator? h t (mem_types_of_find? ht).1 op operator hop

theorem settled_operatorWith (he : e.RunsGenerated) (ho : e.OperatesOnRecords) {depth : Nat}
    (typeName : String) (op : OperatorKind) {l : Value} (h : l.size + e.memberCount + 1 < depth)
    (r : Value) : Settled (e.operatorWith (e.callsAt depth) typeName op l r) := by
  cases ht : e.types.find? typeName with
  | none =>
    rw [operatorWith, lookup, ht]
    intro hc
    cases hc
  | some t =>
    have hlookup : e.lookup typeName = .ok t := by rw [lookup, ht]
    cases hop : t.operator? op with
    | none =>
      rw [operatorWith, hlookup, Outcome.ok_bind, hop]
      intro hc
      cases hc
    | some operator =>
      obtain ⟨kind, slots, hgen⟩ := ho ht hop
      obtain ⟨rfl, -⟩ := he ht
      rw [operatorWith_eq hgen.toIsRecord hlookup]
      refine Settled.map _ ?_
      split
      · exact Settled.ok _
      · exact settled_equals_any he h r t.typeRef

end Evaluator

/-! ## Requests -/

/-- What an evaluator can be asked. -/
inductive Request where
  /-- A new instance of a type. -/
  | construct (identity : Nat) (typeName : String) (arguments : List Value)
  /-- A property or a field of an instance. -/
  | get (target : Value) (name : String)
  /-- The equality of an instance with another one of its type. -/
  | equalsTyped (left right : Value)
  /-- The equality of a value with any object. -/
  | equalsObject (left right : Value)
  /-- An operator that a type declares. -/
  | operator (typeName : String) (op : OperatorKind) (left right : Value)
  /-- The hash code of a value. -/
  | hash (value : Value)

namespace Request

/-- The values of a request. -/
def arguments : Request → List Value
  | construct _ _ arguments => arguments
  | get target _ => [target]
  | equalsTyped left right => [left, right]
  | equalsObject left right => [left, right]
  | operator _ _ left right => [left, right]
  | hash value => [value]

/-- What an evaluator answers to a request. -/
def answer (e : Evaluator) : Request → Except Fault Value
  | construct identity typeName arguments => e.construct identity typeName arguments
  | get target name => e.get target name
  | equalsTyped left right => (e.equalsTyped left right).map .bool
  | equalsObject left right => (e.equalsObject left right).map .bool
  | operator typeName op left right => (e.operator typeName op left right).map .bool
  | hash value => (e.hash value).map .int

/-- What an evaluator answers to a request when it follows calls up to a depth. -/
def answerAt (e : Evaluator) (depth : Nat) : Request → Except Fault Value
  | construct identity typeName arguments =>
    e.constructWith (e.callsAt depth) identity typeName arguments
  | get target name => e.readWith (e.callsAt depth) target name
  | equalsTyped left right =>
    match left with
    | .object _ typeName _ =>
      (e.equalsWith (e.callsAt depth) left right (.ofName typeName)).map .bool
    | _ => .error .noInstanceReceiver
  | equalsObject left right =>
    (e.equalsWith (e.callsAt depth) left right (.ofName objectTypeName)).map .bool
  | operator typeName op left right =>
    (e.operatorWith (e.callsAt depth) typeName op left right).map .bool
  | hash value => (e.hashWith (e.callsAt depth) value).map .int

/-- A depth of calls that is enough for a request: it counts the members of all types and the values
that the request is made with. -/
def depthNeeded (e : Evaluator) (r : Request) : Nat :=
  e.memberCount + Value.sizeItems r.arguments + 2

variable {e : Evaluator}

theorem answer_eq_answerAt (r : Request) : r.answer e = r.answerAt e (e.depth r.arguments) := by
  cases r with
  | equalsTyped left right => cases left <;> rfl
  | _ => rfl

theorem depthNeeded_le_depth (r : Request) : r.depthNeeded e ≤ e.depth r.arguments := by
  have hmembers : e.memberCount * 1 ≤ e.memberCount * (Value.sizeItems r.arguments + 2) :=
    Nat.mul_le_mul_left _ (by omega)
  rw [depthNeeded, Evaluator.depth, Nat.add_mul]
  omega

theorem kept_answerAt (r : Request) {depth deeper : Nat} (h : depth ≤ deeper) :
    Kept (r.answerAt e depth) (r.answerAt e deeper) := by
  have hcalls := Evaluator.callsAt_keptBy (e := e) h
  cases r with
  | construct identity typeName arguments =>
    refine (Kept.refl _).bind fun t => ?_
    split
    · exact Kept.refl _
    · split
      · exact Kept.refl _
      · split
        · exact Kept.refl _
        · exact (Stmt.kept_execAll hcalls _ _).bind fun _ => Kept.refl _
  | get target name => exact e.kept_readWith hcalls target name
  | equalsTyped left right =>
    cases left with
    | object identity typeName fields => exact (e.kept_equalsWith hcalls _ _ _).map _
    | _ => exact Kept.refl _
  | equalsObject left right => exact (e.kept_equalsWith hcalls _ _ _).map _
  | operator typeName op left right =>
    refine Kept.map _ ((Kept.refl _).bind fun t => ?_)
    split
    · exact Kept.refl _
    · exact (Stmt.kept_execAll hcalls _ _).bind fun _ => Kept.refl _
  | hash value => exact (e.kept_hashWith hcalls value).map _

/-- **A request settles at the depth that it needs.** -/
theorem settled_answerAt (he : e.RunsGenerated) (ho : e.OperatesOnRecords) (r : Request) :
    Settled (r.answerAt e (r.depthNeeded e)) := by
  have hsize : ∀ v ∈ r.arguments, v.size + e.memberCount + 1 < r.depthNeeded e := by
    intro v hv
    have := Value.size_le_sizeItems hv
    rw [depthNeeded]
    omega
  generalize r.depthNeeded e = depth at hsize
  -- one more level of calls is the call itself
  have hread := Evaluator.callsAt_succ (e := e) depth
  cases r with
  | construct identity typeName arguments =>
    exact Evaluator.settled_constructWith he _ identity typeName arguments
  | get target name =>
    have := hsize target List.mem_cons_self
    have hs : Settled ((e.callsAt (depth + 1)).read target name) :=
      Evaluator.settled_read he (by omega) target name
    rwa [hread] at hs
  | equalsTyped left right =>
    have := hsize left List.mem_cons_self
    cases left with
    | object identity typeName fields =>
      have hs : Settled ((e.callsAt (depth + 1)).equals (.object identity typeName fields) right
          (.ofName typeName)) :=
        Evaluator.settled_equals_any he (by omega) right _
      rw [hread] at hs
      exact hs.map _
    | _ => intro hc; cases hc
  | equalsObject left right =>
    have := hsize left List.mem_cons_self
    have hs : Settled ((e.callsAt (depth + 1)).equals left right (.ofName objectTypeName)) :=
      Evaluator.settled_equals_any he (by omega) right _
    rw [hread] at hs
    exact hs.map _
  | operator typeName op left right =>
    have := hsize left List.mem_cons_self
    exact (Evaluator.settled_operatorWith he ho typeName op (by omega) right).map _
  | hash value =>
    have := hsize value List.mem_cons_self
    have hs : Settled ((e.callsAt (depth + 1)).hash value) := Evaluator.settled_hash he (by omega)
    rw [hread] at hs
    exact hs.map _

end Request

/-- **Every request has an answer**, over whatever a source compiles to and with any values: the
evaluator never gives up, and at every depth of calls from the needed one on it answers the same. -/
theorem Compiler.requests_settle {c : Compiler} {source : String} {o : Output}
    (h : c.compile source = .ok o) (r : Request) :
    Settled (r.answer (.of o)) ∧
      ∀ depth, r.depthNeeded (.of o) ≤ depth → r.answerAt (.of o) depth = r.answer (.of o) := by
  obtain ⟨document, -, hgenerate⟩ := compile_eq_ok h
  have hsettled := Request.settled_answerAt (Evaluator.runsGenerated_of_generate hgenerate)
    (Evaluator.operatesOnRecords_of_generate hgenerate) r
  have hsame : ∀ depth, r.depthNeeded (.of o) ≤ depth →
      r.answerAt (.of o) (r.depthNeeded (.of o)) = r.answerAt (.of o) depth := fun depth hdepth =>
    (r.kept_answerAt hdepth).eq_of_settled hsettled
  have hanswer := hsame _ r.depthNeeded_le_depth
  rw [← r.answer_eq_answerAt] at hanswer
  refine ⟨hanswer ▸ hsettled, fun depth hdepth => ?_⟩
  rw [← hsame depth hdepth, hanswer]

/-! ### A chain of properties -/

namespace Chain

/-- A source in which one property is named like the field of another. -/
def source : String := "(namespace T (defdto D (int X, int _x)))"

/-- What the source compiles to. -/
def output : Output := (Compiler.standard.compile source).toOption.get (by decide +kernel)

theorem compile_source : Compiler.standard.compile source = .ok output := by
  unfold output
  exact Outcome.eq_ok_get _

/-- Reading a property of an instance that lacks the field of the property. -/
def readFirst : Request := .get (.object 0 "T.D" [("__x", .int 7)]) "X"

theorem chain_ends :
    Compiler.standard.compile source = .ok output ∧
      Settled (readFirst.answer (.of output)) ∧ readFirst.depthNeeded (.of output) = 14 ∧
      (∀ depth, 14 ≤ depth → readFirst.answerAt (.of output) depth = readFirst.answer (.of output)) ∧
      (readFirst.answer (.of output) >>= Value.asInt).toOption = some 7 := by
  have hneeded : readFirst.depthNeeded (.of output) = 14 := by decide +kernel
  obtain ⟨hsettled, hsame⟩ := Compiler.requests_settle compile_source readFirst
  rw [hneeded] at hsame
  refine ⟨compile_source, hsettled, hneeded, hsame, ?_⟩
  rw [← hsame 14 (Nat.le_refl 14)]
  decide +kernel

end Chain

end DomainForms
