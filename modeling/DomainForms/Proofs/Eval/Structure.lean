import DomainForms.Eval.Body

/-!
# Structural equality of values

Two values have the same structure when they are of one sort and their parts have: arrays have as
many items and equal ones, instances have one type and equal fields, and floating-point numbers are
compared as numbers.  The identity of an instance does not count.

Numbers that are no numbers equal nothing, so having the same structure is a partial equivalence:
symmetric (`sameStructure_comm`), transitive (`sameStructure_trans`), and reflexive exactly on the
values without a NaN (`sameStructure_self`).

* `Value.sameStructure`: structural equality.
* `Value.ind`: induction over the parts of a value.
* `Value.directlyEquals_scalar`: on scalars, equality without a look inside is structural.
-/

namespace DomainForms

/-! ## Floating-point numbers -/

namespace Binary64

theorem equal_comm (x y : Binary64) : x.equal y = y.equal x := by
  simp only [equal, Bool.and_comm, Bool.and_assoc]
  rw [show (x.bits == y.bits) = (y.bits == x.bits) from BEq.comm]

theorem equal_self (x : Binary64) : x.equal x = !x.isNaN := by
  simp [equal]

theorem equal_eq_true {x y : Binary64} :
    x.equal y = true ↔ x.isNaN = false ∧ y.isNaN = false ∧ (x = y ∨ x.isZero = true ∧ y.isZero = true) := by
  obtain ⟨a⟩ := x
  obtain ⟨b⟩ := y
  simp [equal, and_assoc]

theorem equal_trans {x y z : Binary64} (hxy : x.equal y = true) (hyz : y.equal z = true) :
    x.equal z = true := by
  rw [equal_eq_true] at hxy hyz ⊢
  obtain ⟨hx, -, hxy⟩ := hxy
  obtain ⟨-, hz, hyz⟩ := hyz
  refine ⟨hx, hz, ?_⟩
  rcases hxy with rfl | ⟨hx0, hy0⟩
  · exact hyz
  · rcases hyz with rfl | ⟨-, hz0⟩
    · exact Or.inr ⟨hx0, hy0⟩
    · exact Or.inr ⟨hx0, hz0⟩

end Binary64

namespace Value

/-! ## Parts of values -/

/-- Whether a value has no parts. -/
def isScalar : Value → Bool
  | array _ => false
  | object .. => false
  | _ => true

/-- **Induction over the parts of a value.** -/
theorem ind {P : Value → Prop} (scalar : ∀ v, v.isScalar = true → P v)
    (array : ∀ items : List Value, (∀ v ∈ items, P v) → P (.array items))
    (object : ∀ identity typeName (fields : List (String × Value)), (∀ f ∈ fields, P f.2) →
      P (.object identity typeName fields)) : ∀ v, P v
  | .null => scalar _ rfl
  | .bool _ => scalar _ rfl
  | .int _ => scalar _ rfl
  | .float _ => scalar _ rfl
  | .str _ => scalar _ rfl
  | .enumValue _ _ => scalar _ rfl
  | .array items => array items fun v _ => ind scalar array object v
  | .object identity typeName fields =>
    object identity typeName fields fun f hf =>
      have : sizeOf f.2 < sizeOf f := by rcases f with ⟨name, v⟩; simp only [Prod.mk.sizeOf_spec]; omega
      have := List.sizeOf_lt_of_mem hf
      ind scalar array object f.2

theorem size_pos (v : Value) : 1 ≤ v.size := by
  cases v <;> simp [size]

theorem size_le_sizeItems {v : Value} : ∀ {items : List Value}, v ∈ items →
    v.size ≤ sizeItems items := by
  intro items
  induction items with
  | nil => intro h; cases h
  | cons first rest ih =>
    intro h
    rw [sizeItems]
    rcases List.mem_cons.mp h with rfl | hm
    · omega
    · have := ih hm
      omega

theorem size_le_sizeFields {name : String} {v : Value} : ∀ {fields : List (String × Value)},
    (name, v) ∈ fields → v.size ≤ sizeFields fields := by
  intro fields
  induction fields with
  | nil => intro h; cases h
  | cons first rest ih =>
    intro h
    obtain ⟨key, held⟩ := first
    rw [sizeFields]
    rcases List.mem_cons.mp h with he | hm
    · cases he
      omega
    · have := ih hm
      omega

/-! ## Equality of structure -/

mutual

/-- Whether two values have the same structure. -/
def sameStructure : Value → Value → Bool
  | null, null => true
  | bool a, bool b => a == b
  | int a, int b => a == b
  | float a, float b => a.equal b
  | str a, str b => a == b
  | array as, array bs => sameItems as bs
  | object _ s fs, object _ t gs => s == t && sameFields fs gs
  | enumValue s a, enumValue t b => s == t && a == b
  | _, _ => false

/-- Whether two lists have as many items, with the same structure one by one. -/
def sameItems : List Value → List Value → Bool
  | [], [] => true
  | a :: as, b :: bs => a.sameStructure b && sameItems as bs
  | _, _ => false

/-- Whether two lists of fields have the same names, with values of the same structure. -/
def sameFields : List (String × Value) → List (String × Value) → Bool
  | [], [] => true
  | (m, a) :: fs, (n, b) :: gs => m == n && a.sameStructure b && sameFields fs gs
  | _, _ => false

end

/-- On scalars, equality without a look inside is equality of structure. -/
theorem directlyEquals_scalar {v w : Value} (hv : v.isScalar = true) (hw : w.isScalar = true) :
    v.directlyEquals w = .ok (v.sameStructure w) := by
  cases v <;> cases w <;> simp_all [isScalar, directlyEquals, sameStructure]

theorem sameStructure_scalar_comm {v w : Value} (hv : v.isScalar = true) :
    v.sameStructure w = w.sameStructure v := by
  cases v <;> cases w <;> simp_all [isScalar, sameStructure, BEq.comm, Binary64.equal_comm]

/-- **Having the same structure is symmetric.** -/
theorem sameStructure_comm (v : Value) : ∀ w : Value, v.sameStructure w = w.sameStructure v := by
  induction v using ind with
  | scalar v hv => intro w; exact sameStructure_scalar_comm hv
  | array as ih =>
    intro w
    cases w with
    | array bs =>
      rw [sameStructure, sameStructure]
      induction as generalizing bs with
      | nil => cases bs <;> rfl
      | cons a as ihs =>
        cases bs with
        | nil => rfl
        | cons b bs =>
          rw [sameItems, sameItems, ih a List.mem_cons_self b,
            ihs (fun v hv => ih v (List.mem_cons_of_mem _ hv)) bs]
    | _ => rfl
  | object _ s fs ih =>
    intro w
    cases w with
    | object _ t gs =>
      rw [sameStructure, sameStructure, show (s == t) = (t == s) from BEq.comm]
      congr 1
      induction fs generalizing gs with
      | nil => cases gs <;> rfl
      | cons f fs ihs =>
        cases gs with
        | nil => rfl
        | cons g gs =>
          obtain ⟨m, a⟩ := f
          obtain ⟨n, b⟩ := g
          rw [sameFields, sameFields, ih (m, a) List.mem_cons_self b,
            ihs (fun v hv => ih v (List.mem_cons_of_mem _ hv)) gs,
            show (m == n) = (n == m) from BEq.comm]
    | _ => rfl

theorem sameStructure_scalar_trans {u v w : Value} (hu : u.isScalar = true)
    (huv : u.sameStructure v = true) (hvw : v.sameStructure w = true) :
    u.sameStructure w = true := by
  cases u with
  | float x =>
    cases v with
    | float y =>
      cases w with
      | float z => exact Binary64.equal_trans huv hvw
      | _ => cases hvw
    | _ => cases huv
  | array items => cases hu
  | object identity typeName fields => cases hu
  | _ => cases v <;> cases w <;> simp_all [sameStructure]

theorem sameItems_trans : ∀ {as bs cs : List Value},
    (∀ a ∈ as, ∀ {v w : Value}, a.sameStructure v = true → v.sameStructure w = true →
      a.sameStructure w = true) →
    sameItems as bs = true → sameItems bs cs = true → sameItems as cs = true := by
  intro as
  induction as with
  | nil =>
    intro bs cs _ hab hbc
    cases bs with
    | nil => exact hbc
    | cons b bs => cases hab
  | cons a as ihs =>
    intro bs cs ih hab hbc
    cases bs with
    | nil => cases hab
    | cons b bs =>
      cases cs with
      | nil => cases hbc
      | cons c cs =>
        rw [sameItems, Bool.and_eq_true] at hab hbc ⊢
        exact ⟨ih a List.mem_cons_self hab.1 hbc.1,
          ihs (fun x hx => ih x (List.mem_cons_of_mem _ hx)) hab.2 hbc.2⟩

theorem sameFields_trans : ∀ {fs gs hs : List (String × Value)},
    (∀ f ∈ fs, ∀ {v w : Value}, f.2.sameStructure v = true → v.sameStructure w = true →
      f.2.sameStructure w = true) →
    sameFields fs gs = true → sameFields gs hs = true → sameFields fs hs = true := by
  intro fs
  induction fs with
  | nil =>
    intro gs hs _ hfg hgh
    cases gs with
    | nil => exact hgh
    | cons g gs => cases hfg
  | cons f fs ihs =>
    intro gs hs ih hfg hgh
    cases gs with
    | nil => cases hfg
    | cons g gs =>
      cases hs with
      | nil => cases hgh
      | cons h hs =>
        rw [sameFields, Bool.and_eq_true, Bool.and_eq_true, beq_iff_eq] at hfg hgh ⊢
        exact ⟨⟨hfg.1.1.trans hgh.1.1, ih f List.mem_cons_self hfg.1.2 hgh.1.2⟩,
          ihs (fun x hx => ih x (List.mem_cons_of_mem _ hx)) hfg.2 hgh.2⟩

/-- **Having the same structure is transitive.** -/
theorem sameStructure_trans (u : Value) : ∀ {v w : Value}, u.sameStructure v = true →
    v.sameStructure w = true → u.sameStructure w = true := by
  induction u using ind with
  | scalar u hu => intro v w huv hvw; exact sameStructure_scalar_trans hu huv hvw
  | array as ih =>
    intro v w huv hvw
    cases v with
    | array bs =>
      cases w with
      | array cs => exact sameItems_trans ih huv hvw
      | _ => cases hvw
    | _ => cases huv
  | object _ s fs ih =>
    intro v w huv hvw
    cases v with
    | object _ t gs =>
      cases w with
      | object _ r hs =>
        rw [sameStructure, Bool.and_eq_true, beq_iff_eq] at huv hvw ⊢
        exact ⟨huv.1.trans hvw.1, sameFields_trans ih huv.2 hvw.2⟩
      | _ => cases hvw
    | _ => cases huv

/-! ## Values that differ from themselves -/

mutual

/-- Whether a NaN occurs in a value. -/
def holdsNaN : Value → Bool
  | float x => x.isNaN
  | array items => itemsHoldNaN items
  | object _ _ fields => fieldsHoldNaN fields
  | _ => false

/-- Whether a NaN occurs in a list of values. -/
def itemsHoldNaN : List Value → Bool
  | [] => false
  | item :: rest => item.holdsNaN || itemsHoldNaN rest

/-- Whether a NaN occurs in fields. -/
def fieldsHoldNaN : List (String × Value) → Bool
  | [] => false
  | (_, value) :: rest => value.holdsNaN || fieldsHoldNaN rest

end

theorem sameItems_self : ∀ {items : List Value},
    (∀ v ∈ items, v.sameStructure v = !v.holdsNaN) → sameItems items items = !itemsHoldNaN items := by
  intro items
  induction items with
  | nil => intro _; rfl
  | cons first rest ihs =>
    intro ih
    rw [sameItems, itemsHoldNaN, ih first List.mem_cons_self,
      ihs fun v hv => ih v (List.mem_cons_of_mem _ hv), Bool.not_or]

theorem sameFields_self : ∀ {fields : List (String × Value)},
    (∀ f ∈ fields, f.2.sameStructure f.2 = !f.2.holdsNaN) →
    sameFields fields fields = !fieldsHoldNaN fields := by
  intro fields
  induction fields with
  | nil => intro _; rfl
  | cons first rest ihs =>
    intro ih
    rw [sameFields, fieldsHoldNaN, ih first List.mem_cons_self,
      ihs fun f hf => ih f (List.mem_cons_of_mem _ hf), Bool.not_or, beq_self_eq_true, Bool.true_and]

/-- **A value has the structure of itself exactly if no NaN occurs in it.** -/
theorem sameStructure_self (v : Value) : v.sameStructure v = !v.holdsNaN := by
  induction v using ind with
  | scalar v hv =>
    cases v with
    | float x => exact Binary64.equal_self x
    | array items => cases hv
    | object identity typeName fields => cases hv
    | _ => simp [sameStructure, holdsNaN]
  | array items ih => exact sameItems_self ih
  | object _ typeName fields ih =>
    rw [sameStructure, holdsNaN, beq_self_eq_true, Bool.true_and]
    exact sameFields_self ih

end Value

end DomainForms
