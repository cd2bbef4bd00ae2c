import DomainForms.Model.Session
import DomainForms.Proofs.Outcome

/-!
# A session answers as the model does

What a session keeps is the table of its model or nothing, so it makes no difference to an answer
whether an earlier question has built the table.  This is shown once for each way in which questions
are put together, and then for the questions themselves.

* `Model.Keeps`: what a session may keep.
* `Session.Answers`: a question that has the same answer in every session.
* `Model.askAll_eq`: **the answers of a session are those of the model**, one by one.
-/

namespace DomainForms

open Outcome

/-- A session keeps no table, or the table of the model. -/
def Model.Keeps (m : Model) (kept : Option KnownTypes) : Prop :=
  ∀ table, kept = some table → m.knownTypes = .ok table

/-- Whatever a session of the model keeps, the question has the given outcome, and the session still
keeps no other table than that of the model. -/
def Session.Answers {α : Type} (m : Model) (question : Session α) (outcome : Except Error α) : Prop :=
  ∀ kept, m.Keeps kept →
    (question.run.run kept).1 = outcome ∧ m.Keeps (question.run.run kept).2

namespace Session

variable {α β : Type} {m : Model}

/-! ## Questions put together -/

theorem answers_ofExcept (outcome : Except Error α) :
    Answers m (ofExcept outcome : Session α) outcome := by
  intro kept hkept
  cases outcome with
  | ok a => exact ⟨rfl, hkept⟩
  | error e => exact ⟨rfl, hkept⟩

/-- The second question is only asked if the first one succeeds. -/
theorem Answers.bind {question : Session α} {outcome : Except Error α} {next : α → Session β}
    {result : α → Except Error β} (h : Answers m question outcome)
    (hnext : ∀ a, outcome = .ok a → Answers m (next a) (result a)) :
    Answers m (question >>= next) (outcome >>= result) := by
  intro kept hkept
  obtain ⟨hout, hkept'⟩ := h kept hkept
  rw [ExceptT.run_bind, StateT.run_bind]
  generalize question.run.run kept = first at hout hkept' ⊢
  obtain ⟨_, kept'⟩ := first
  cases outcome with
  | ok a =>
    cases hout
    exact hnext a rfl kept' hkept'
  | error e =>
    cases hout
    exact ⟨rfl, hkept'⟩

theorem Answers.map {question : Session α} {outcome : Except Error α} (f : α → β)
    (h : Answers m question outcome) : Answers m (f <$> question) (f <$> outcome) := by
  have hbind : Answers m (question >>= fun a => pure (f a)) (outcome >>= fun a => .ok (f a)) :=
    h.bind fun a _ => answers_ofExcept (.ok (f a))
  rw [bind_pure_comp] at hbind
  cases outcome with
  | ok a => exact hbind
  | error e => exact hbind

theorem Answers.mapError {question : Session α} {outcome : Except Error α} (place : Error → Error)
    (h : Answers m question outcome) :
    Answers m (tryCatch question fun e => throw (place e)) (outcome.mapError place) := by
  intro kept hkept
  obtain ⟨hout, hkept'⟩ := h kept hkept
  have hrun : (tryCatch question fun e => throw (place e)).run.run kept
      = ((question.run.run kept).1.mapError place, (question.run.run kept).2) := by
    dsimp only [tryCatch, tryCatchThe, MonadExceptOf.tryCatch, ExceptT.tryCatch]
    rw [ExceptT.run_mk, StateT.run_bind]
    change (question.run.run kept >>= _) = _
    generalize question.run.run kept = first
    obtain ⟨_ | _, _⟩ := first
    · rfl
    · rfl
  rw [hrun]
  exact ⟨congrArg (Except.mapError place) hout, hkept'⟩

theorem Answers.forM {ask : α → Session Unit} {check : α → Except Error Unit}
    (h : ∀ a, Answers m (ask a) (check a)) : ∀ items : List α,
    Answers m (items.forM ask) (items.forM check) := by
  intro items
  induction items with
  | nil => exact answers_ofExcept (.ok ())
  | cons first rest ih => exact (h first).bind fun _ _ => ih

end Session

namespace Model

open Session

variable {m : Model}

/-! ## The questions to a model -/

theorem answers_askTable : Answers m m.askTable m.knownTypes := by
  intro kept hkept
  cases kept with
  | some table => exact ⟨(hkept table rfl).symm, hkept⟩
  | none =>
    cases htable : m.knownTypes with
    | error e =>
      have hrun : m.askTable.run.run none = (.error e, none) := by
        rw [askTable, htable]
        rfl
      rw [hrun]
      exact ⟨rfl, nofun⟩
    | ok table =>
      have hrun : m.askTable.run.run none = (.ok table, some table) := by
        rw [askTable, htable]
        rfl
      rw [hrun]
      refine ⟨rfl, fun table' h => ?_⟩
      rw [htable, Option.some.inj h]

theorem withTable_eq {table : KnownTypes} (h : m.knownTypes = .ok table) : m.withTable table = m := by
  rw [withTable, ← h]

theorem resolveName_eq_bind (scope name : QualifiedName) :
    m.resolveName scope name = (do
      let table ← m.knownTypes
      (m.withTable table).resolveName scope name) := by
  cases htable : m.knownTypes with
  | error e => rw [resolveName, htable]; rfl
  | ok table => rw [ok_bind, withTable_eq htable]

theorem answers_askType (scope : QualifiedName) : ∀ type : TypeRef,
    Answers m (m.askType scope type) (m.resolve scope type) := by
  intro type
  induction type with
  | simple p => exact answers_ofExcept _
  | nullable p => exact answers_ofExcept _
  | string => exact answers_ofExcept _
  | named name =>
    rw [resolve, resolveName_eq_bind]
    exact answers_askTable.bind fun _ _ => answers_ofExcept _
  | array element ranks ih => exact ih.bind fun inner _ => answers_ofExcept (.ok _)

theorem answers_askProperty (scope : QualifiedName) (d : Declaration) (p : Property) :
    Answers m (m.askProperty scope d p) (m.validateProperty scope d p) := by
  rw [askProperty, validateProperty]
  cases p.type with
  | none => exact answers_ofExcept (.ok ())
  | some type =>
    have h := ((answers_askType (m := m) scope type).map fun _ => ()).mapError
      (·.inDeclaration (d.frame scope) p.span.line p.span.column)
    dsimp only
    generalize m.resolve scope type = outcome at h ⊢
    cases outcome with
    | ok r => exact h
    | error e => exact h

theorem answers_askValidity : Answers m m.askValidity m.validate :=
  answers_askTable.bind fun _ _ =>
    Answers.forM (fun _ => Answers.forM (fun _ => answers_askProperty _ _ _) _) _

theorem answers_ask (question : Question) : Answers m (m.ask question) (m.answer question) := by
  cases question with
  | type scope type => exact (answers_askType scope type).map _
  | isValueType scope type =>
    exact ((answers_askType scope type).bind fun r _ => answers_ofExcept (.ok r.isValueType)).map _
  | knownTypes => exact answers_askTable.map _
  | validity => exact answers_askValidity.map _

/-- **The answers of a session are those of the model**, one by one, whatever the session keeps at
its start. -/
theorem askAll_eq : ∀ (questions : List Question) {kept : Option KnownTypes}, m.Keeps kept →
    ((m.askAll questions).run kept).1 = questions.map m.answer := by
  intro questions
  induction questions with
  | nil => intro kept _; rfl
  | cons first rest ih =>
    intro kept hkept
    obtain ⟨hfirst, hkept'⟩ := answers_ask first kept hkept
    have hrun : ((m.askAll (first :: rest)).run kept).1 = ((m.ask first).run.run kept).1
        :: ((m.askAll rest).run ((m.ask first).run.run kept).2).1 := by
      rw [askAll, List.mapM_cons]
      rfl
    rw [hrun, hfirst, ih hkept', List.map_cons]

end Model

end DomainForms
