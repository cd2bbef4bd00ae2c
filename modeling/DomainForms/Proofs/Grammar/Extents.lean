import DomainForms.Proofs.Grammar.Documents

/-!
# Which tokens a tree stands on

The parsers keep of the tokens that they take only a place for every part of the tree.  Here the
tokens are kept as well: a form stands on the tokens from its opening parenthesis to its closing one,
its place runs from the one to the other, and its parts stand one behind the other on the tokens in
between.  This is shown for one parser after the other, from the inside out.

* `Grammar.Spanned`: a place that runs over given tokens.
* `Grammar.InRow`: items that stand one behind the other in a row of tokens.
* `Grammar.Enclosed`: a place that runs from an opening token to a closing one.
* `Property.StandsOn`, `Record.StandsOn`, `Declaration.StandsOn`, `Namespace.StandsOn`,
  `Conventions.StandsOn`: the tokens of a part of a tree.
* `Document.takesOn_reader`: **every part of a document that was read stands on its tokens.**
-/

namespace DomainForms

namespace Grammar

open Token (Kind)

/-! ## Places and tokens -/

/-- A place that runs from the first of some tokens to the last. -/
def Spanned (tokens : List Token) (span : Span) : Prop :=
  ∃ first last, tokens.head? = some first ∧ tokens.getLast? = some last ∧
    span = first.span.through last.span

/-- Items that stand one behind the other in a row of tokens, each on tokens of its own. -/
inductive InRow {α : Type} (On : List Token → α → Prop) : List Token → List α → Prop
  | nil (tokens : List Token) : InRow On tokens []
  | cons (gap : List Token) {used tokens : List Token} {a : α} {items : List α} :
      On used a → InRow On tokens items → InRow On (gap ++ (used ++ tokens)) (a :: items)

/-- A place that runs from an opening token to a closing one, with the tokens between the two. -/
def Enclosed (span : Span) (Inner : List Token → Prop) (tokens : List Token) : Prop :=
  ∃ first inner last, tokens = first :: (inner ++ [last]) ∧
    span = first.span.through last.span ∧ Inner inner

/-- The same behind the opening token, whose place is given. -/
def Closes (start span : Span) (Inner : List Token → Prop) (tokens : List Token) : Prop :=
  ∃ inner last, tokens = inner ++ [last] ∧ span = start.through last.span ∧ Inner inner

theorem spanned_single (t : Token) : Spanned [t] t.span := by
  refine ⟨t, t, rfl, rfl, ?_⟩
  rw [Span.through, Nat.max_self]

theorem spanned_concat {first : Token} {tokens : List Token} (h : tokens.head? = some first)
    (last : Token) : Spanned (tokens ++ [last]) (first.span.through last.span) := by
  refine ⟨first, last, ?_, List.getLast?_concat, rfl⟩
  rw [List.head?_append, h]
  rfl

theorem Enclosed.spanned {span : Span} {Inner : List Token → Prop} {tokens : List Token}
    (h : Enclosed span Inner tokens) : Spanned tokens span := by
  obtain ⟨first, inner, last, rfl, rfl, -⟩ := h
  have hhead : (first :: inner).head? = some first := rfl
  exact spanned_concat hhead last

theorem Closes.enclosed {first : Token} {span : Span} {Inner Inner' : List Token → Prop}
    {tokens : List Token} (h : Closes first.span span Inner tokens) (gap : List Token)
    (himp : ∀ inner, Inner inner → Inner' (gap ++ inner)) :
    Enclosed span Inner' (first :: (gap ++ tokens)) := by
  obtain ⟨inner, last, rfl, rfl, hinner⟩ := h
  refine ⟨first, gap ++ inner, last, ?_, rfl, himp inner hinner⟩
  rw [List.append_assoc]

namespace InRow

variable {α : Type} {On : List Token → α → Prop} {tokens more : List Token} {items others : List α}

theorem single {a : α} (h : On tokens a) : InRow On tokens [a] := by
  have hrow := cons [] h (nil [])
  rwa [List.append_nil] at hrow

theorem behind (gap : List Token) (h : InRow On tokens items) : InRow On (gap ++ tokens) items := by
  cases h with
  | nil => exact nil _
  | cons gap' ha hitems =>
    rw [← List.append_assoc]
    exact cons _ ha hitems

theorem append (h : InRow On tokens items) (hmore : InRow On more others) :
    InRow On (tokens ++ more) (items ++ others) := by
  induction h with
  | nil tokens => exact hmore.behind tokens
  | cons gap ha _ ih =>
    rw [List.append_assoc, List.append_assoc]
    exact cons gap ha ih

theorem before (h : InRow On tokens items) (more : List Token) : InRow On (tokens ++ more) items := by
  have hrow := h.append (nil more)
  rwa [List.append_nil] at hrow

theorem map {β : Type} {On' : List Token → β → Prop} {f : α → β} (h : InRow On tokens items)
    (himp : ∀ used a, On used a → On' used (f a)) : InRow On' tokens (items.map f) := by
  induction h with
  | nil tokens => exact nil tokens
  | cons gap ha _ ih => exact cons gap (himp _ _ ha) ih

theorem exists_of_mem (h : InRow On tokens items) {a : α} (ha : a ∈ items) :
    ∃ front used behind, tokens = front ++ (used ++ behind) ∧ On used a := by
  induction h with
  | nil => cases ha
  | @cons gap used tokens first items hfirst _ ih =>
    rcases List.mem_cons.1 ha with rfl | ha
    · exact ⟨gap, used, tokens, rfl, hfirst⟩
    · obtain ⟨front, used', behind, rfl, hon⟩ := ih ha
      refine ⟨gap ++ (used ++ front), used', behind, ?_, hon⟩
      simp only [List.append_assoc]

end InRow

/-! ## What a parser takes -/

theorem Spells.map_kind_eq {kinds : List Kind} {used rest : List Token}
    (h : Spells kinds (used ++ rest) rest) : used.map Token.kind = kinds := by
  have hkinds := h.map_kind
  rw [List.map_append] at hkinds
  exact List.append_cancel_right hkinds

namespace Parser

variable {α : Type}

/-- The tokens that a parser takes are related to its result. -/
def TakesOn (p : Parser α) (On : List Token → α → Prop) : Prop :=
  ∀ ⦃tokens rest : List Token⦄ ⦃a : α⦄, p tokens = .ok (a, rest) →
    ∃ used, tokens = used ++ rest ∧ On used a

/-- The same where one of some kinds of tokens stands in front. -/
def TakesOnFrom (starts : Kind → Bool) (p : Parser α) (On : List Token → α → Prop) : Prop :=
  ∀ ⦃tokens rest : List Token⦄ ⦃a : α⦄, starts (front tokens) = true → p tokens = .ok (a, rest) →
    ∃ used, tokens = used ++ rest ∧ On used a

theorem TakesOnFrom.row {starts : Kind → Bool} {p : Parser α} {On : List Token → α → Prop}
    (h : TakesOnFrom starts p On) : TakesOnFrom starts p fun used a => InRow On used [a] := by
  intro tokens rest a hf hp
  obtain ⟨used, hused, hon⟩ := h hf hp
  exact ⟨used, hused, .single hon⟩

theorem TakesOnFrom.atMost {starts : Kind → Bool} {item : Parser α} {On : List Token → α → Prop}
    (h : TakesOnFrom starts item fun used a => InRow On used [a]) :
    ∀ fuel, (atMost starts item fuel).TakesOn (InRow On) := by
  intro fuel
  induction fuel with
  | zero =>
    intro tokens rest items hitems
    obtain ⟨rfl, rfl⟩ := pure_eq_ok.1 hitems
    exact ⟨[], rfl, .nil _⟩
  | succ fuel ih =>
    intro tokens rest items hitems
    unfold Parser.atMost at hitems
    rw [peek_bind, branch_apply] at hitems
    by_cases hs : starts (front tokens)
    · rw [if_pos hs] at hitems
      obtain ⟨first, r₁, hfirst, hr₁⟩ := bind_eq_ok.1 hitems
      obtain ⟨others, r₂, hothers, hr₂⟩ := bind_eq_ok.1 hr₁
      obtain ⟨rfl, rfl⟩ := pure_eq_ok.1 hr₂
      obtain ⟨used, rfl, hused⟩ := h hs hfirst
      obtain ⟨more, rfl, hmore⟩ := ih hothers
      exact ⟨used ++ more, (List.append_assoc ..).symm, hused.append hmore⟩
    · rw [if_neg hs] at hitems
      obtain ⟨rfl, rfl⟩ := pure_eq_ok.1 hitems
      exact ⟨[], rfl, .nil _⟩

theorem TakesOnFrom.many {starts : Kind → Bool} {item : Parser α} {On : List Token → α → Prop}
    (h : TakesOnFrom starts item fun used a => InRow On used [a]) :
    (many starts item).TakesOn (InRow On) := by
  intro tokens rest items hitems
  exact h.atMost _ hitems

end Parser

end Grammar

open Grammar Grammar.Parser

/-! ## The parts of a tree -/

/-- A property stands on the tokens that its place runs over; if its name is written, they are the
phrase of the property. -/
structure Property.StandsOn (tokens : List Token) (p : Property) : Prop where
  spanned : Spanned tokens p.span
  form : p.name.isSome = true → PropertyForm (tokens.map Token.kind) p.unplaced

/-- A command inside a service stands on its phrase, and its properties stand inside. -/
structure Record.StandsOn (tokens : List Token) (r : Record) : Prop where
  form : CommandForm (tokens.map Token.kind) r.unplaced
  properties : Enclosed r.span (InRow Property.StandsOn · r.properties) tokens

/-- A declaration stands on its phrase, and what it declares stands inside. -/
structure Declaration.StandsOn (tokens : List Token) (d : Declaration) : Prop where
  form : DeclarationForm (tokens.map Token.kind) d.unplaced
  properties : Enclosed d.span (InRow Property.StandsOn · d.properties) tokens
  commands : Enclosed d.span (InRow Record.StandsOn · d.nestedCommands) tokens

/-- A namespace stands on its phrase, and its declarations stand inside. -/
structure Namespace.StandsOn (tokens : List Token) (n : Namespace) : Prop where
  form : NamespaceForm (tokens.map Token.kind) n.unplaced
  declarations : Enclosed n.span (InRow Declaration.StandsOn · n.declarations) tokens

/-- Conventions stand on their phrase. -/
structure Conventions.StandsOn (tokens : List Token) (c : Conventions) : Prop where
  form : ConventionsForm (tokens.map Token.kind) c.unplaced
  enclosed : Enclosed c.span (fun _ => True) tokens

/-- A document stands on its tokens: conventions, if there are any, and namespaces behind them. -/
def Document.StandsOn (tokens : List Token) (d : Document) : Prop :=
  ∃ front behind, tokens = front ++ behind ∧
    InRow Conventions.StandsOn front d.conventions.toList ∧
    InRow Namespace.StandsOn behind d.namespaces

/-! ## Declarations -/

theorem TypeRef.takesOn_reader : reader.TakesOn fun used type =>
    (∃ first others, used = first :: others) ∧ TypeForm .type (used.map Token.kind) type := by
  intro tokens rest type h
  obtain ⟨kinds, hk, hform⟩ := reader_sound h
  obtain ⟨used, rfl, rfl⟩ := hk.exists_append
  refine ⟨used, rfl, ?_, hform⟩
  cases used with
  | nil =>
    obtain ⟨kind, more, hnil, -⟩ := head_of_typeForm hform
    cases hnil
  | cons first others => exact ⟨first, others, rfl⟩

namespace Declaration

theorem takesOn_property : property.TakesOn Property.StandsOn := by
  intro tokens rest p h
  obtain ⟨start, _, hstart, h⟩ := bind_eq_ok.1 h
  cases hstart
  obtain ⟨type, middle, htype, h⟩ := bind_eq_ok.1 h
  obtain ⟨⟨name, s⟩, rest', hname, h⟩ := bind_eq_ok.1 h
  obtain ⟨rfl, rfl⟩ := pure_eq_ok.1 h
  obtain ⟨_, rfl, ⟨first, others, rfl⟩, hform⟩ := TypeRef.takesOn_reader htype
  obtain ⟨last, rfl, hlast, hdot, rfl⟩ := simpleName_eq_ok.1 hname
  refine ⟨first :: others ++ [last], ?_, ?_, fun _ => ?_⟩
  · rw [List.append_assoc, List.singleton_append]
  · have hhead : (first :: others).head? = some first := rfl
    exact spanned_concat hhead last
  · rw [List.map_append, List.map_singleton, hlast]
    exact .mk hform (.mk hdot)

theorem takesOn_nextProperty :
    TakesOnFrom (· = .comma) nextProperty fun used p => InRow Property.StandsOn used [p] := by
  intro tokens rest p hf h
  obtain ⟨t, others, rfl, ht⟩ := exists_of_front (of_decide_eq_true hf) nofun
  obtain ⟨used, rfl, hp⟩ := takesOn_property (show property others = .ok (p, rest) from h)
  exact ⟨t :: used, rfl, (InRow.single hp).behind [t]⟩

theorem takesOn_propertyList : propertyList.TakesOn (InRow Property.StandsOn) := by
  intro tokens rest ps h
  obtain ⟨s, inner, hopen, hinner⟩ := bind_eq_ok.1 h
  obtain ⟨t, rfl, -, -⟩ := exists_of_expect hopen nofun
  rw [peek_bind, branch_apply] at hinner
  by_cases hf : front inner = .rparen
  · obtain ⟨t', behind, rfl, -⟩ := exists_of_front hf nofun
    rw [if_pos hf, advance_bind, pure_eq_ok] at hinner
    obtain ⟨rfl, rfl⟩ := hinner
    exact ⟨[t, t'], rfl, .nil _⟩
  · rw [if_neg hf] at hinner
    obtain ⟨first, r₁, hfirst, hr₁⟩ := bind_eq_ok.1 hinner
    obtain ⟨others, r₂, hothers, hr₂⟩ := bind_eq_ok.1 hr₁
    obtain ⟨rfl, close, _, rfl, -, rfl⟩ := listClose.1 hr₂
    obtain ⟨used, rfl, hused⟩ := takesOn_property hfirst
    obtain ⟨more, rfl, hmore⟩ := takesOn_nextProperty.many hothers
    refine ⟨[t] ++ (used ++ (more ++ [close])), ?_, .cons [t] hused (hmore.before [close])⟩
    simp only [List.append_assoc, List.cons_append, List.nil_append]

/-! ### Records -/

theorem exists_of_recordClose {start : Span} {production : Production} {name : String}
    {properties : List Property} {tokens rest : List Token} {r : Record}
    (h : recordClose start production name properties tokens = .ok (r, rest)) :
    ∃ t, tokens = t :: rest ∧ r = ⟨name, properties, start.through t.span⟩ := by
  obtain ⟨s, rest', hclose, h⟩ := bind_eq_ok.1 h
  obtain ⟨rfl, rfl⟩ := pure_eq_ok.1 h
  obtain ⟨t, rfl, -, rfl⟩ := exists_of_expect hclose nofun
  exact ⟨t, rfl, rfl⟩

theorem takesOn_optionalList : optionalList.TakesOn (InRow Property.StandsOn) := by
  intro tokens rest ps h
  unfold optionalList at h
  rw [peek_bind, branch_apply] at h
  split at h
  · exact takesOn_propertyList h
  · obtain ⟨rfl, rfl⟩ := pure_eq_ok.1 h
    exact ⟨[], rfl, .nil _⟩

/-- The rest of a record behind its word: its properties stand before the closing parenthesis. -/
abbrev ClosesRecord (start : Span) (tokens : List Token) (r : Record) : Prop :=
  Closes start r.span (InRow Property.StandsOn · r.properties) tokens

theorem takesOn_recordBody (start : Span) (production : Production) :
    (recordBody start production).TakesOn (ClosesRecord start) := by
  intro tokens rest r h
  rw [recordBody_eq] at h
  obtain ⟨⟨name, s⟩, r₁, hname, hr₁⟩ := bind_eq_ok.1 h
  obtain ⟨properties, r₂, hlist, hr₂⟩ := bind_eq_ok.1 hr₁
  obtain ⟨t, rfl, -, -, -⟩ := qualifiedName_eq_ok.1 hname
  obtain ⟨used, rfl, hused⟩ := takesOn_optionalList hlist
  obtain ⟨close, rfl, rfl⟩ := exists_of_recordClose hr₂
  exact ⟨t :: used ++ [close], List.append_cons (t :: used) close _, t :: used, close, rfl, rfl,
    hused.behind [t]⟩

theorem takesOn_shorthand : shorthand.TakesOn (InRow Property.StandsOn) := by
  intro tokens rest ps h
  obtain ⟨start, _, hstart, h⟩ := bind_eq_ok.1 h
  cases hstart
  obtain ⟨type, middle, htype, h⟩ := bind_eq_ok.1 h
  obtain ⟨rfl, rfl⟩ := pure_eq_ok.1 h
  obtain ⟨_, rfl, ⟨first, others, rfl⟩, -⟩ := TypeRef.takesOn_reader htype
  have hfirst : Property.StandsOn [first] ⟨none, some type, first.span⟩ := ⟨spanned_single first, nofun⟩
  exact ⟨first :: others, rfl, (InRow.single hfirst).before others⟩

theorem takesOn_valueTypeBody (start : Span) :
    (valueTypeBody start).TakesOn (ClosesRecord start) := by
  intro tokens rest r h
  rw [valueTypeBody_eq] at h
  obtain ⟨⟨name, s⟩, r₁, hname, hr₁⟩ := bind_eq_ok.1 h
  obtain ⟨properties, r₂, hvalue, hr₂⟩ := bind_eq_ok.1 hr₁
  obtain ⟨t, rfl, -, -, rfl⟩ := qualifiedName_eq_ok.1 hname
  obtain ⟨close, rfl, rfl⟩ := exists_of_recordClose hr₂
  obtain ⟨used, rfl, hused⟩ : ∃ used, r₁ = used ++ close :: rest ∧
      InRow Property.StandsOn (t :: used) properties := by
    rcases valueProperties_sound hvalue with ⟨rfl, rfl⟩ | hshort | hlist
    · exact ⟨[], rfl, .single ⟨spanned_single t, nofun⟩⟩
    · obtain ⟨used, hr, hused⟩ := takesOn_shorthand hshort
      exact ⟨used, hr, hused.behind [t]⟩
    · obtain ⟨used, hr, hused⟩ := takesOn_propertyList hlist
      exact ⟨used, hr, hused.behind [t]⟩
  exact ⟨t :: used ++ [close], List.append_cons (t :: used) close _, t :: used, close, rfl, rfl,
    hused⟩

/-! ### Enumerations and services -/

theorem takesOn_enumerationBody (start : Span) :
    (enumerationBody start).TakesOn fun used e => Closes start e.span (fun _ => True) used := by
  intro tokens rest e h
  obtain ⟨⟨name, s⟩, r₁, hname, hr₁⟩ := bind_eq_ok.1 h
  obtain ⟨s₁, r₂, hopen, hr₂⟩ := bind_eq_ok.1 hr₁
  obtain ⟨values, r₃, hvalues, hr₃⟩ := bind_eq_ok.1 hr₂
  obtain ⟨s₂, r₄, hclose, hr₄⟩ := bind_eq_ok.1 hr₃
  obtain ⟨rfl, rfl⟩ := pure_eq_ok.1 hr₄
  obtain ⟨t, rfl, -, -, -⟩ := qualifiedName_eq_ok.1 hname
  obtain ⟨t₁, rfl, -, -⟩ := exists_of_expect hopen nofun
  obtain ⟨_, hm, -⟩ := reads_values.sound hvalues
  obtain ⟨used, rfl, -⟩ := hm.exists_append
  obtain ⟨close, rfl, -, rfl⟩ := exists_of_expect hclose nofun
  exact ⟨t :: t₁ :: used ++ [close], List.append_cons (t :: t₁ :: used) close _, t :: t₁ :: used,
    close, rfl, rfl, trivial⟩

theorem takesOn_nestedCommand :
    TakesOnFrom (· = .lparen) nestedCommand Record.StandsOn := by
  intro tokens rest r hf h
  obtain ⟨kinds, hk, hform⟩ := readsFrom_nestedCommand.sound hf h
  obtain ⟨t, others, rfl, ht⟩ := exists_of_front (of_decide_eq_true hf) nofun
  unfold nestedCommand at h
  rw [advance_bind] at h
  obtain ⟨s, r₁, hword, hr₁⟩ := bind_eq_ok.1 h
  obtain ⟨t', rfl, -, -⟩ := expectWord_eq_ok.1 hword
  obtain ⟨used, rfl, hused⟩ := takesOn_recordBody t.span .command hr₁
  refine ⟨t :: ([t'] ++ used), rfl, ?_, hused.enclosed [t'] fun inner h => h.behind [t']⟩
  rw [hk.map_kind_eq]
  exact hform

theorem takesOn_serviceBody (start : Span) :
    (serviceBody start).TakesOn fun used service =>
      Closes start service.span (InRow Record.StandsOn · service.commands) used := by
  intro tokens rest service h
  obtain ⟨⟨name, s⟩, r₁, hname, hr₁⟩ := bind_eq_ok.1 h
  obtain ⟨commands, r₂, hcommands, hr₂⟩ := bind_eq_ok.1 hr₁
  rw [branch_apply] at hr₂
  split at hr₂
  · exact absurd hr₂ fail_ne_ok
  · obtain ⟨s₁, r₃, hclose, hr₃⟩ := bind_eq_ok.1 hr₂
    obtain ⟨rfl, rfl⟩ := pure_eq_ok.1 hr₃
    obtain ⟨t, rfl, -, -, -⟩ := qualifiedName_eq_ok.1 hname
    obtain ⟨used, rfl, hused⟩ := takesOn_nestedCommand.row.many hcommands
    obtain ⟨close, rfl, -, rfl⟩ := exists_of_expect hclose nofun
    exact ⟨t :: used ++ [close], List.append_cons (t :: used) close _, t :: used, close, rfl, rfl,
      hused.behind [t]⟩

/-! ### Declarations -/

theorem takesOn_body (start : Span) (kind : Kind) :
    (body start kind).TakesOn fun used d =>
      Closes start d.span (fun inner => InRow Property.StandsOn inner d.properties ∧
        InRow Record.StandsOn inner d.nestedCommands) used := by
  intro tokens rest d h
  cases kind with
  | record kind =>
    by_cases hkind : kind = .valueType
    · subst hkind
      obtain ⟨r, hr, rfl⟩ := map_eq_ok.1 h
      obtain ⟨used, rfl, inner, close, hused, hspan, hrow⟩ := takesOn_valueTypeBody start hr
      exact ⟨used, rfl, inner, close, hused, hspan, hrow, .nil _⟩
    · rw [body_record start hkind] at h
      obtain ⟨r, hr, rfl⟩ := map_eq_ok.1 h
      obtain ⟨used, rfl, inner, close, hused, hspan, hrow⟩ := takesOn_recordBody start _ hr
      exact ⟨used, rfl, inner, close, hused, hspan, hrow, .nil _⟩
  | enumeration =>
    obtain ⟨e, he, rfl⟩ := map_eq_ok.1 h
    obtain ⟨used, rfl, inner, close, hused, hspan, -⟩ := takesOn_enumerationBody start he
    exact ⟨used, rfl, inner, close, hused, hspan, .nil _, .nil _⟩
  | service =>
    obtain ⟨service, hs, rfl⟩ := map_eq_ok.1 h
    obtain ⟨used, rfl, inner, close, hused, hspan, hrow⟩ := takesOn_serviceBody start hs
    exact ⟨used, rfl, inner, close, hused, hspan, .nil _, hrow⟩

/-- **A declaration that was read stands on its tokens.** -/
theorem takesOn_reader : reader.TakesOn StandsOn := by
  intro tokens rest d h
  obtain ⟨kinds, hk, hform⟩ := reads_reader.sound h
  obtain ⟨start, r₁, hopen, hr₁⟩ := bind_eq_ok.1 h
  obtain ⟨t, rfl, -, rfl⟩ := exists_of_expect hopen nofun
  rw [peek_bind] at hr₁
  cases hkind : introduces? (front r₁) with
  | none =>
    rw [hkind] at hr₁
    exact absurd hr₁ unexpected_ne_ok
  | some kind =>
    rw [hkind] at hr₁
    obtain ⟨t', r₂, rfl, -⟩ := exists_of_front (eq_of_introduces? hkind) nofun
    obtain ⟨used, rfl, hused⟩ :=
      takesOn_body t.span kind (show body t.span kind r₂ = .ok (d, rest) from hr₁)
    refine ⟨t :: ([t'] ++ used), rfl, ?_, hused.enclosed [t'] fun inner h => h.1.behind [t'],
      hused.enclosed [t'] fun inner h => h.2.behind [t']⟩
    rw [hk.map_kind_eq]
    exact hform

end Declaration

/-! ## Documents -/

namespace Document

theorem takesOn_conventionsBody (start : Span) :
    (conventionsBody start).TakesOn fun used c => Closes start c.span (fun _ => True) used := by
  intro tokens rest c h
  obtain ⟨s₁, r₁, hword, hr₁⟩ := bind_eq_ok.1 h
  obtain ⟨given, r₂, hgroups, hr₂⟩ := bind_eq_ok.1 hr₁
  obtain ⟨s₃, r₃, hclose, hr₃⟩ := bind_eq_ok.1 hr₂
  obtain ⟨rfl, rfl⟩ := pure_eq_ok.1 hr₃
  obtain ⟨t, rfl, -, -⟩ := expectWord_eq_ok.1 hword
  obtain ⟨kinds, gs, hk, -⟩ := groups_sound hgroups
  obtain ⟨used, rfl, -⟩ := hk.exists_append
  obtain ⟨close, rfl, -, rfl⟩ := exists_of_expect hclose nofun
  exact ⟨t :: used ++ [close], List.append_cons (t :: used) close _, t :: used, close, rfl, rfl,
    trivial⟩

theorem takesOn_leadingConventions :
    leadingConventions.TakesOn fun used c => InRow Conventions.StandsOn used c.toList := by
  intro tokens rest conventions h
  unfold leadingConventions at h
  split at h
  · rename_i hstarts
    have hopen : front tokens = .lparen := of_decide_eq_true (Bool.and_eq_true_iff.1 hstarts).1
    obtain ⟨t, others, rfl, ht⟩ := exists_of_front hopen nofun
    rw [advance_bind] at h
    obtain ⟨c, hc, rfl⟩ := map_eq_ok.1 h
    obtain ⟨kinds, hk, hform⟩ := (reads_conventionsBody t.span).sound hc
    obtain ⟨used, rfl, hused⟩ := takesOn_conventionsBody t.span hc
    refine ⟨t :: used, rfl, .single ⟨?_, hused.enclosed [] fun _ h => h⟩⟩
    rw [List.map_cons, ht, hk.map_kind_eq]
    exact hform
  · cases h
    exact ⟨[], rfl, .nil _⟩

/-- The declarations of a namespace stand inside it, on whatever tokens a declaration stands. -/
theorem enclosed_laterForm {On : List Token → Declaration → Prop}
    (hon : Declaration.reader.TakesOn On) :
    TakesOnFrom (· = .lparen) laterForm fun used n =>
      Enclosed n.span (InRow On · n.declarations) used := by
  intro tokens rest n hf h
  obtain ⟨first, _, rfl, -⟩ := exists_of_front (of_decide_eq_true hf) nofun
  obtain ⟨t, others, rfl, ht⟩ := exists_of_front (front_of_laterForm h) nofun
  rw [laterForm_namespace ht] at h
  obtain ⟨s₁, r₁, hword, hr₁⟩ := bind_eq_ok.1 h
  obtain ⟨⟨name, s₂⟩, r₂, hname, hr₂⟩ := bind_eq_ok.1 hr₁
  obtain ⟨declarations, r₃, hdeclarations, hr₃⟩ := bind_eq_ok.1 hr₂
  obtain ⟨s₄, r₄, hclose, hr₄⟩ := bind_eq_ok.1 hr₃
  obtain ⟨rfl, rfl⟩ := pure_eq_ok.1 hr₄
  obtain ⟨_, heq, -, -⟩ := expectWord_eq_ok.1 hword
  cases heq
  obtain ⟨t₂, rfl, -, -, -⟩ := qualifiedName_eq_ok.1 hname
  have hdeclaration : TakesOnFrom (· = .lparen) Declaration.reader On := fun _ _ _ _ h => hon h
  obtain ⟨used, rfl, hused⟩ := hdeclaration.row.many hdeclarations
  obtain ⟨close, rfl, -, rfl⟩ := exists_of_expect hclose nofun
  refine ⟨first :: ([t, t₂] ++ used ++ [close]), ?_, first, [t, t₂] ++ used, close, rfl, rfl,
    hused.behind [t, t₂]⟩
  simp only [List.append_assoc, List.cons_append, List.nil_append]

theorem takesOn_laterForm : TakesOnFrom (· = .lparen) laterForm Namespace.StandsOn := by
  intro tokens rest n hf h
  obtain ⟨kinds, hk, hform⟩ := readsFrom_laterForm.sound hf h
  obtain ⟨used, rfl, hused⟩ := enclosed_laterForm Declaration.takesOn_reader hf h
  refine ⟨used, rfl, ?_, hused⟩
  rw [hk.map_kind_eq]
  exact hform

theorem inRow_reader {On : List Token → Namespace → Prop}
    (hon : TakesOnFrom (· = .lparen) laterForm On) :
    reader.TakesOn fun tokens d => ∃ front behind, tokens = front ++ behind ∧
      InRow Conventions.StandsOn front d.conventions.toList ∧ InRow On behind d.namespaces := by
  intro tokens rest d h
  obtain ⟨conventions, r₁, hconventions, hr₁⟩ := bind_eq_ok.1 h
  obtain ⟨namespaces, r₂, hnamespaces, hr₂⟩ := bind_eq_ok.1 hr₁
  obtain ⟨_, r₃, hend, hr₃⟩ := bind_eq_ok.1 hr₂
  obtain ⟨rfl, rfl⟩ := pure_eq_ok.1 hr₃
  obtain ⟨-, rfl⟩ := endOfInput_eq_ok.1 hend
  obtain ⟨used, rfl, hused⟩ := takesOn_leadingConventions hconventions
  obtain ⟨more, rfl, hmore⟩ := hon.row.many hnamespaces
  exact ⟨used ++ more, (List.append_assoc ..).symm, used, more, rfl, hused, hmore⟩

/-- **Every part of a document that was read stands on its tokens.** -/
theorem takesOn_reader : reader.TakesOn StandsOn := inRow_reader takesOn_laterForm

end Document

end DomainForms
