import DomainForms.Eval.Evaluator
import DomainForms.Proofs.Outcome

/-!
# More depth keeps an answer

The evaluator answers calls up to a depth, and gives up where they are nested deeper.  Depth is a
bound and nothing else: whatever is answered at some depth is answered at every larger one, faults
included, because an expression only looks at the answers of the calls that it makes.  So two depths
that both give an answer give the same one, and an answer can be spoken of without its depth.

* `Kept`: an answer that stays when more depth is allowed.
* `Expr.kept_eval`, `Stmt.kept_execAll`: a body keeps its answer if its calls do.
* `Evaluator.callsAt_keptBy`: **calls keep their answers at every larger depth.**
* `Settled`: an answer that did not give up, which is the same at every larger depth
  (`Kept.eq_of_settled`).
-/

namespace DomainForms

variable {α β : Type}

/-! ## Answers -/

/-- An answer is kept by another one: it gave up for want of depth, or the other one is the same. -/
def Kept (answer deeper : Except Fault α) : Prop := answer = .error .tooDeep ∨ answer = deeper

/-- An answer that did not give up for want of depth. -/
def Settled (answer : Except Fault α) : Prop := answer ≠ .error .tooDeep

namespace Kept

theorem refl (answer : Except Fault α) : Kept answer answer := Or.inr rfl

theorem trans {first second third : Except Fault α} (h : Kept first second)
    (h' : Kept second third) : Kept first third := by
  rcases h with h | rfl
  · exact Or.inl h
  · exact h'

theorem bind {step deeper : Except Fault α} {next next' : α → Except Fault β}
    (h : Kept step deeper) (hnext : ∀ a, Kept (next a) (next' a)) :
    Kept (step >>= next) (deeper >>= next') := by
  rcases h with h | h
  · rw [h]
    exact Or.inl rfl
  · rw [← h]
    cases step with
    | error fault => exact refl _
    | ok a => exact hnext a

theorem eq_of_settled {answer deeper : Except Fault α} (h : Kept answer deeper)
    (hs : Settled answer) : answer = deeper :=
  h.resolve_left hs

end Kept

namespace Settled

theorem ok (a : α) : Settled (.ok a : Except Fault α) := by
  intro h
  cases h

theorem bind {step : Except Fault α} {next : α → Except Fault β} (h : Settled step)
    (hnext : ∀ a, step = .ok a → Settled (next a)) : Settled (step >>= next) := by
  cases step with
  | error fault =>
    intro he
    cases he
    exact h rfl
  | ok a => exact hnext a rfl

end Settled

/-! ## Bodies -/

namespace Calls

/-- Calls whose answers are all kept by other ones. -/
structure KeptBy (calls deeper : Calls) : Prop where
  /-- The members of values are. -/
  read : ∀ target name, Kept (calls.read target name) (deeper.read target name)
  /-- The answers of equality methods are. -/
  equals : ∀ target argument parameter,
    Kept (calls.equals target argument parameter) (deeper.equals target argument parameter)
  /-- The hash codes are. -/
  hash : ∀ v, Kept (calls.hash v) (deeper.hash v)

variable {calls deeper : Calls}

theorem KeptBy.nullSafeEquals (h : calls.KeptBy deeper) (left right : Value) :
    Kept (calls.nullSafeEquals left right) (deeper.nullSafeEquals left right) := by
  cases left with
  | object identity typeName fields =>
    cases right with
    | null => exact Kept.refl _
    | _ => exact h.equals _ _ _
  | _ => cases right <;> exact Kept.refl _

theorem kept_pairwise {equals equals' : Value → Value → Except Fault Bool}
    (h : ∀ a b, Kept (equals a b) (equals' a b)) :
    ∀ as bs : List Value, Kept (pairwise equals as bs) (pairwise equals' as bs) := by
  intro as
  induction as with
  | nil => intro bs; cases bs <;> exact Kept.refl _
  | cons a as ih =>
    intro bs
    cases bs with
    | nil => exact Kept.refl _
    | cons b bs =>
      rw [pairwise, pairwise]
      refine (h a b).bind fun same => ?_
      cases same with
      | true => exact ih bs
      | false => exact Kept.refl _

theorem KeptBy.itemsEqual (h : calls.KeptBy deeper) (element : ElementComparison)
    (as bs : List Value) :
    Kept (calls.itemsEqual element as bs) (deeper.itemsEqual element as bs) := by
  unfold Calls.itemsEqual
  split
  · exact Kept.refl _
  · cases element with
    | value => exact Kept.refl _
    | nullSafe => exact kept_pairwise h.nullSafeEquals as bs

end Calls

section

variable {calls deeper : Calls}

/-- **An expression keeps its value** if the calls that it makes keep their answers. -/
theorem Expr.kept_eval (h : calls.KeptBy deeper) (frame : Frame) :
    ∀ x : Expr, Kept (x.eval calls frame) (x.eval deeper frame) := by
  intro x
  induction x with
  | bool value => exact Kept.refl _
  | int value => exact Kept.refl _
  | null => exact Kept.refl _
  | self => exact Kept.refl _
  | ident name => exact Kept.refl _
  | member target name ih => exact ih.bind fun v => h.read v name
  | not inner ih => exact ih.bind fun v => Kept.refl _
  | binary op left right ihl ihr =>
    cases op with
    | eq => exact ihl.bind fun v => ihr.bind fun w => Kept.refl _
    | ne => exact ihl.bind fun v => ihr.bind fun w => Kept.refl _
    | add =>
      exact ihl.bind fun v => (Kept.refl _).bind fun x => ihr.bind fun w => Kept.refl _
    | and =>
      refine ihl.bind fun v => (Kept.refl _).bind fun holds => ?_
      cases holds with
      | true => exact ihr.bind fun w => Kept.refl _
      | false => exact Kept.refl _
    | or =>
      refine ihl.bind fun v => (Kept.refl _).bind fun holds => ?_
      cases holds with
      | true => exact Kept.refl _
      | false => exact ihr.bind fun w => Kept.refl _
  | isNull inner ih => exact ih.bind fun v => Kept.refl _
  | nullSafeEquals left right ihl ihr =>
    exact ihl.bind fun v => ihr.bind fun w => (h.nullSafeEquals v w).bind fun _ => Kept.refl _
  | invokeEquals target argument parameter iht iha =>
    exact iht.bind fun v => iha.bind fun w => (h.equals v w _).bind fun _ => Kept.refl _
  | hashCode inner ih => exact ih.bind fun v => (h.hash v).bind fun _ => Kept.refl _
  | length inner ih => exact ih.bind fun v => Kept.refl _
  | elementwiseEquals left right element ihl ihr =>
    refine ihl.bind fun v => ihr.bind fun w => ?_
    cases v with
    | array as =>
      cases w with
      | array bs => exact (h.itemsEqual element as bs).bind fun _ => Kept.refl _
      | _ => exact Kept.refl _
    | _ => exact Kept.refl _
  | isType inner type ih => exact ih.bind fun v => Kept.refl _
  | cast inner type ih => exact ih.bind fun v => Kept.refl _

mutual

theorem Stmt.kept_exec (h : calls.KeptBy deeper) (frame : Frame) :
    ∀ s : Stmt, Kept (Stmt.exec calls frame s) (Stmt.exec deeper frame s)
  | .ret value => (Expr.kept_eval h frame value).bind fun _ => Kept.refl _
  | .assign _ value => (Expr.kept_eval h frame value).bind fun _ => Kept.refl _
  | .branch condition yes no =>
    (Expr.kept_eval h frame condition).bind fun _ => (Kept.refl _).bind fun holds =>
      match holds with
      | true => Stmt.kept_execAll h frame yes
      | false => Stmt.kept_execAll h frame no

/-- **Statements in a row keep their effect** if the calls that they make keep their answers. -/
theorem Stmt.kept_execAll (h : calls.KeptBy deeper) (frame : Frame) :
    ∀ body : List Stmt, Kept (Stmt.execAll calls frame body) (Stmt.execAll deeper frame body)
  | [] => Kept.refl _
  | first :: rest =>
    (Stmt.kept_exec h frame first).bind fun (after, result) =>
      match result with
      | some _ => Kept.refl _
      | none => Stmt.kept_execAll h after rest

end

/-! ## Calls -/

namespace Evaluator

variable (e : Evaluator) (h : calls.KeptBy deeper)

include h

theorem kept_invoke (m : Method) (self : Value) (arguments : List Value) :
    Kept (invoke calls m self arguments) (invoke deeper m self arguments) := by
  unfold invoke
  cases m.body with
  | none => exact Kept.refl _
  | some body => exact (Stmt.kept_execAll h _ body).bind fun _ => Kept.refl _

theorem kept_readWith (target : Value) (name : String) :
    Kept (e.readWith calls target name) (e.readWith deeper target name) := by
  cases target with
  | object identity typeName fields =>
    rw [readWith, readWith]
    cases NameMap.find? name fields with
    | some value => exact Kept.refl _
    | none =>
      refine (Kept.refl _).bind fun type => ?_
      cases type.accessors.find? (·.name == name) with
      | some accessor => exact Expr.kept_eval h _ accessor.getter
      | none => exact Kept.refl _
  | _ => exact Kept.refl _

theorem kept_equalsWith (target argument : Value) (parameter : TypeRef) :
    Kept (e.equalsWith calls target argument parameter)
      (e.equalsWith deeper target argument parameter) := by
  cases target with
  | object identity typeName fields =>
    refine (Kept.refl _).bind fun type => ?_
    cases type.methodWithParameter? equalsName parameter with
    | some method => exact (kept_invoke h method _ _).bind fun _ => Kept.refl _
    | none => exact Kept.refl _
  | _ => exact Kept.refl _

theorem kept_hashWith (v : Value) : Kept (e.hashWith calls v) (e.hashWith deeper v) := by
  cases v with
  | object identity typeName fields =>
    refine (Kept.refl _).bind fun type => ?_
    cases (type.methods hashCodeName).head? with
    | some method => exact (kept_invoke h method _ _).bind fun _ => Kept.refl _
    | none => exact Kept.refl _
  | _ => exact Kept.refl _

end Evaluator

end

namespace Evaluator

variable {e : Evaluator}

/-- **One more level of calls keeps all answers.** -/
theorem callsAt_keptBy_succ : ∀ depth : Nat, (e.callsAt depth).KeptBy (e.callsAt (depth + 1)) := by
  intro depth
  induction depth with
  | zero => exact ⟨fun _ _ => Or.inl rfl, fun _ _ _ => Or.inl rfl, fun _ => Or.inl rfl⟩
  | succ depth ih =>
    exact ⟨fun target name => e.kept_readWith ih target name,
      fun target argument parameter => e.kept_equalsWith ih target argument parameter,
      fun v => e.kept_hashWith ih v⟩

/-- **Calls keep their answers at every larger depth.** -/
theorem callsAt_keptBy {depth deeper : Nat} (h : depth ≤ deeper) :
    (e.callsAt depth).KeptBy (e.callsAt deeper) := by
  induction h with
  | refl => exact ⟨fun _ _ => Kept.refl _, fun _ _ _ => Kept.refl _, fun _ => Kept.refl _⟩
  | @step deeper _ ih =>
    have hstep := callsAt_keptBy_succ (e := e) deeper
    exact ⟨fun target name => (ih.read target name).trans (hstep.read target name),
      fun target argument parameter =>
        (ih.equals target argument parameter).trans (hstep.equals target argument parameter),
      fun v => (ih.hash v).trans (hstep.hash v)⟩

end Evaluator

end DomainForms
