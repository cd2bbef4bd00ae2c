import DomainForms.Declaration.Parser
import DomainForms.Proofs.Grammar.Types

/-!
# Declarations are read as the grammar has them

Each parser of a declaration reads its rule.  The one place where the rules do not show at once what
to read is a value type: a parenthesis behind its name starts a type or a list of properties.  The
shape of a type tells them apart, because a type is followed by the closing parenthesis and the type
of a property by a name.

* `Declaration.reads_propertyList`: a list of properties.
* `Declaration.reads_valueTypeBody`: a value type in any of its forms.
* `Declaration.reads_reader`: a declaration of any kind.
-/

namespace DomainForms.Declaration

open Grammar Grammar.Parser

/-! ## Properties -/

theorem reads_property : Reads property Property.unplaced PropertyForm where
  sound := by
    intro tokens rest p h
    obtain ⟨start, _, hstart, h⟩ := bind_eq_ok.1 h
    cases hstart
    obtain ⟨t, middle, ht, h⟩ := bind_eq_ok.1 h
    obtain ⟨⟨name, s⟩, rest', hname, h⟩ := bind_eq_ok.1 h
    obtain ⟨rfl, rfl⟩ := pure_eq_ok.1 h
    obtain ⟨kinds, hk, htype⟩ := TypeRef.reader_sound ht
    obtain ⟨more, hm, hsimple⟩ := (reads_simpleName .propertyList).sound hname
    exact ⟨kinds ++ more, hk.append hm, .mk htype hsimple⟩
  complete := by
    rintro tokens rest _ _ ⟨htype, hsimple⟩ hs
    obtain ⟨middle, hk, hm⟩ := spells_append.1 hs
    obtain ⟨⟨name, s⟩, hname, rfl⟩ := (reads_simpleName .propertyList).complete hsimple hm
    obtain ⟨hdot⟩ := hsimple
    -- a name stands behind the type, which neither a question mark nor a bracket continues
    have hfront := hm.front_eq
    have ht := TypeRef.reader_complete htype hk (by rw [hfront]; nofun) (by rw [hfront]; nofun)
    exact ⟨_, bind_eq_ok.2 ⟨_, _, rfl, bind_eq_ok.2 ⟨_, _, ht, bind_eq_ok.2 ⟨_, _, hname, rfl⟩⟩⟩, rfl⟩

theorem readsFrom_nextProperty :
    ReadsFrom (· = .comma) nextProperty Property.unplaced NextPropertyForm where
  first := by
    rintro _ p ⟨h⟩
    exact ⟨_, _, rfl, rfl⟩
  sound := by
    intro tokens rest p hf h
    obtain ⟨t, others, rfl, ht⟩ := exists_of_front (of_decide_eq_true hf) nofun
    have hnext : property others = .ok (p, rest) := h
    obtain ⟨kinds, hk, hp⟩ := reads_property.sound hnext
    exact ⟨_, .cons ht hk, .mk hp⟩
  complete := by
    rintro tokens rest _ _ ⟨h⟩ ⟨t, others, rfl, ht, hs⟩
    obtain ⟨p, hp, rfl⟩ := reads_property.complete h hs
    exact ⟨p, hp, rfl⟩

theorem front_of_propertyForm {kinds : List Token.Kind} {p : Property} {tokens rest : List Token}
    (h : PropertyForm kinds p) (hs : Spells kinds tokens rest) : front tokens ≠ .rparen := by
  obtain ⟨htype, -⟩ := h
  obtain ⟨middle, hk, -⟩ := spells_append.1 hs
  rcases TypeRef.front_of_typeForm htype hk with hf | ⟨name, hf⟩
  · rw [hf]
    nofun
  · rw [hf]
    nofun

/-- The closing parenthesis behind the properties of a list. -/
theorem listClose {first : Property} {others : List Property} {tokens rest : List Token}
    {ps : List Property} :
    (do
      if (← peek) = .rparen then
        let _ ← advance
        return first :: others
      else
        unexpected .propertyList "',' or ')'" : Parser (List Property)) tokens = .ok (ps, rest) ↔
      ps = first :: others ∧ Spells [.rparen] tokens rest := by
  rw [peek_bind, branch_apply]
  by_cases h : front tokens = .rparen
  · obtain ⟨t, behind, rfl, ht⟩ := exists_of_front h nofun
    rw [if_pos h, advance_bind, pure_eq_ok]
    constructor
    · rintro ⟨rfl, rfl⟩
      exact ⟨rfl, .single ht⟩
    · rintro ⟨rfl, t', others', heq, -, rfl⟩
      cases heq
      exact ⟨rfl, rfl⟩
  · rw [if_neg h]
    constructor
    · intro hu
      exact absurd hu unexpected_ne_ok
    · rintro ⟨-, hs⟩
      exact absurd hs.front_eq h

theorem reads_propertyList : Reads propertyList (List.map Property.unplaced) ListForm where
  sound := by
    intro tokens rest ps h
    obtain ⟨s, inner, hopen, hinner⟩ := bind_eq_ok.1 h
    obtain ⟨t, rfl, ht, -⟩ := exists_of_expect hopen nofun
    rw [peek_bind, branch_apply] at hinner
    by_cases hf : front inner = .rparen
    · obtain ⟨t', behind, rfl, ht'⟩ := exists_of_front hf nofun
      rw [if_pos hf, advance_bind, pure_eq_ok] at hinner
      obtain ⟨rfl, rfl⟩ := hinner
      exact ⟨_, .cons ht (.single ht'), .empty⟩
    · rw [if_neg hf] at hinner
      obtain ⟨first, r₁, hfirst, hr₁⟩ := bind_eq_ok.1 hinner
      obtain ⟨others, r₂, hothers, hr₂⟩ := bind_eq_ok.1 hr₁
      obtain ⟨rfl, hclose⟩ := listClose.1 hr₂
      obtain ⟨kinds, hk, hfirst⟩ := reads_property.sound hfirst
      obtain ⟨-, more, hm, hothers⟩ := many_sound readsFrom_nextProperty hothers
      exact ⟨_, .cons ht (hk.append (hm.append hclose)), .cons hfirst hothers⟩
  complete := by
    rintro tokens rest _ _ (_ | ⟨hfirst, hothers⟩) ⟨t, inner, rfl, ht, hs⟩
    · obtain ⟨t', behind, rfl, ht', rfl⟩ := hs
      have hf : front (t' :: behind) = .rparen := ht'
      refine ⟨[], ?_, rfl⟩
      unfold propertyList
      rw [bind_of_ok (expect_of_kind ht _ _), peek_bind, branch_apply, if_pos hf]
      rfl
    · obtain ⟨r₁, hk, hs⟩ := spells_append.1 hs
      obtain ⟨r₂, hm, hclose⟩ := spells_append.1 hs
      have hf : front inner ≠ .rparen := front_of_propertyForm hfirst hk
      obtain ⟨first, hreadFirst, rfl⟩ := reads_property.complete hfirst hk
      obtain ⟨others, hreadOthers, rfl⟩ :=
        many_complete readsFrom_nextProperty hothers hm (by rw [hclose.front_eq]; rfl)
      refine ⟨first :: others, ?_, rfl⟩
      unfold propertyList
      rw [bind_of_ok (expect_of_kind ht _ _), peek_bind, branch_apply, if_neg hf,
        bind_of_ok hreadFirst, bind_of_ok hreadOthers]
      exact listClose.2 ⟨rfl, hclose⟩

/-! ## Records -/

/-- The list behind the name of a record, which may be left out. -/
def optionalList : Parser (List Property) := do
  if (← peek) = .lparen then propertyList else pure []

/-- The end of a record behind its properties. -/
def recordClose (start : Span) (production : Production) (name : String)
    (properties : List Property) : Parser Record := do
  let close ← expect .rparen production
  return ⟨name, properties, start.through close⟩

theorem recordBody_eq (start : Span) (production : Production) :
    recordBody start production = (do
      let name ← qualifiedName production
      let properties ← optionalList
      recordClose start production name.1 properties) := by
  show (qualifiedName production >>= _) = (qualifiedName production >>= _)
  congr 1
  funext ⟨name, s⟩ tokens
  show (if front tokens = .lparen then _ else _ : Parser Record) tokens =
    ((if front tokens = .lparen then propertyList else pure []) >>=
      recordClose start production name) tokens
  split <;> rfl

theorem recordClose_sound {start : Span} {production : Production} {name : String}
    {properties : List Property} {tokens rest : List Token} {r : Record}
    (h : recordClose start production name properties tokens = .ok (r, rest)) :
    Spells [.rparen] tokens rest ∧
      r.unplaced = ⟨name, properties.map Property.unplaced, .none⟩ := by
  obtain ⟨s, rest', hclose, h⟩ := bind_eq_ok.1 h
  obtain ⟨rfl, rfl⟩ := pure_eq_ok.1 h
  obtain ⟨t, rfl, ht, -⟩ := exists_of_expect hclose nofun
  exact ⟨.single ht, rfl⟩

theorem recordClose_complete (start : Span) (production : Production) (name : String)
    (properties : List Property) {tokens rest : List Token} (h : Spells [.rparen] tokens rest) :
    ∃ r, recordClose start production name properties tokens = .ok (r, rest) ∧
      r.unplaced = ⟨name, properties.map Property.unplaced, .none⟩ := by
  obtain ⟨t, others, rfl, ht, rfl⟩ := h
  exact ⟨_, bind_eq_ok.2 ⟨_, _, expect_of_kind ht _ _, rfl⟩, rfl⟩

theorem reads_recordBody (start : Span) (production : Production) :
    Reads (recordBody start production) Record.unplaced RecordRest where
  sound := by
    intro tokens rest r h
    rw [recordBody_eq] at h
    obtain ⟨⟨name, s⟩, r₁, hname, hr₁⟩ := bind_eq_ok.1 h
    obtain ⟨properties, r₂, hlist, hr₂⟩ := bind_eq_ok.1 hr₁
    obtain ⟨hclose, hr⟩ := recordClose_sound hr₂
    obtain ⟨kinds, hk, hname⟩ := (reads_qualifiedName production).sound hname
    rw [hr]
    unfold optionalList at hlist
    rw [peek_bind, branch_apply] at hlist
    split at hlist
    · obtain ⟨more, hm, hlist⟩ := reads_propertyList.sound hlist
      exact ⟨_, hk.append (hm.append hclose), .listed hname hlist⟩
    · obtain ⟨rfl, rfl⟩ := pure_eq_ok.1 hlist
      exact ⟨_, hk.append hclose, .bare hname⟩
  complete := by
    rintro tokens rest _ _ (hname | ⟨hname, hlist⟩) hs
    · obtain ⟨r₁, hk, hclose⟩ := spells_append.1 hs
      obtain ⟨⟨name, s⟩, hread, rfl⟩ := (reads_qualifiedName production).complete hname hk
      obtain ⟨r, hr, hview⟩ := recordClose_complete start production name [] hclose
      refine ⟨r, ?_, hview⟩
      have hlist : optionalList r₁ = .ok ([], r₁) := by
        unfold optionalList
        rw [peek_bind, branch_apply, hclose.front_eq]
        rfl
      rw [recordBody_eq, bind_of_ok hread, bind_of_ok hlist, hr]
    · obtain ⟨r₁, hk, hs⟩ := spells_append.1 hs
      obtain ⟨r₂, hm, hclose⟩ := spells_append.1 hs
      have hfront : front r₁ = .lparen := by
        cases hlist with
        | empty => exact hm.front_eq
        | cons _ _ => exact hm.front_eq
      obtain ⟨⟨name, s⟩, hread, rfl⟩ := (reads_qualifiedName production).complete hname hk
      obtain ⟨properties, hreadList, rfl⟩ := reads_propertyList.complete hlist hm
      obtain ⟨r, hr, hview⟩ := recordClose_complete start production name properties hclose
      refine ⟨r, ?_, hview⟩
      have hlist : optionalList r₁ = .ok (properties, r₂) := by
        unfold optionalList
        rw [peek_bind, branch_apply, if_pos hfront, hreadList]
      rw [recordBody_eq, bind_of_ok hread, bind_of_ok hlist, hr]

/-! ## Value types -/

theorem wrapsType_of_type {first : Token} {tokens rest : List Token} {t : TypeRef}
    (hf : first.kind = .lparen) (h : TypeRef.reader (first :: tokens) = .ok (t, rest)) :
    wrapsType tokens = true := by
  obtain ⟨middle, hskip, hfront⟩ := TypeRef.exists_skip?_of_reader hf h
  unfold wrapsType
  rw [hskip]
  exact decide_eq_true hfront

/-- A list of properties does not start the shorthand form: there is nothing behind its parenthesis,
or a type with a name behind it. -/
theorem wrapsType_of_list {first : Token} {kinds : List Token.Kind} {properties : List Property}
    {tokens rest : List Token} (h : ListForm kinds properties)
    (hs : Spells kinds (first :: tokens) rest) : wrapsType tokens = false := by
  cases h with
  | empty =>
    obtain ⟨t, others, heq, -, close, behind, rfl, hclose, rfl⟩ := hs
    cases heq
    obtain ⟨kind, span⟩ := close
    cases hclose
    rfl
  | cons hproperty _ =>
    obtain ⟨t, others, heq, -, hs⟩ := hs
    cases heq
    obtain ⟨middle, hk, -⟩ := spells_append.1 hs
    obtain ⟨htype, hsimple⟩ := hproperty
    obtain ⟨behind, htypeSpelled, hname⟩ := spells_append.1 hk
    obtain ⟨hdot⟩ := hsimple
    -- behind the type stands the name of the property, and not a parenthesis
    have hfront := hname.front_eq
    have hread := TypeRef.reader_complete htype htypeSpelled (by rw [hfront]; nofun)
      (by rw [hfront]; nofun)
    unfold wrapsType
    rw [TypeRef.skip?_of_reader hread]
    exact decide_eq_false (by rw [hfront]; nofun)

theorem valueProperties_bare (nameSpan : Span) {tokens : List Token}
    (h : front tokens = .rparen) :
    valueProperties nameSpan tokens = .ok ([⟨none, none, nameSpan⟩], tokens) := by
  unfold valueProperties
  rw [h]

theorem valueProperties_type (nameSpan : Span) {tokens rest : List Token} {t : TypeRef}
    (hf : front tokens = .lparen ∨ ∃ name, front tokens = .ident name)
    (h : TypeRef.reader tokens = .ok (t, rest)) :
    valueProperties nameSpan tokens = shorthand tokens := by
  unfold valueProperties
  rcases hf with hf | ⟨name, hf⟩
  · obtain ⟨first, others, rfl, hfirst⟩ := exists_of_front hf nofun
    rw [hf]
    exact if_pos (wrapsType_of_type hfirst h)
  · rw [hf]

theorem valueProperties_list (nameSpan : Span) {kinds : List Token.Kind}
    {properties : List Property} {tokens rest : List Token} (h : ListForm kinds properties)
    (hs : Spells kinds tokens rest) :
    valueProperties nameSpan tokens = propertyList tokens := by
  have hf : front tokens = .lparen := by
    cases h with
    | empty => exact hs.front_eq
    | cons _ _ => exact hs.front_eq
  obtain ⟨first, others, rfl, -⟩ := exists_of_front hf nofun
  have hwraps : ¬ wrapsType others = true := by
    rw [wrapsType_of_list h hs]
    nofun
  unfold valueProperties
  rw [hf]
  exact if_neg hwraps

theorem valueProperties_sound {nameSpan : Span} {tokens rest : List Token}
    {properties : List Property} (h : valueProperties nameSpan tokens = .ok (properties, rest)) :
    (properties = [⟨none, none, nameSpan⟩] ∧ rest = tokens) ∨
      shorthand tokens = .ok (properties, rest) ∨ propertyList tokens = .ok (properties, rest) := by
  unfold valueProperties at h
  split at h
  · cases h
    exact .inl ⟨rfl, rfl⟩
  · split at h
    · exact .inr (.inl h)
    · exact .inr (.inr h)
  · exact .inr (.inl h)

theorem valueTypeBody_eq (start : Span) :
    valueTypeBody start = (do
      let name ← qualifiedName .valueType
      let properties ← valueProperties name.2
      recordClose start .valueType name.1 properties) :=
  rfl

theorem reads_valueTypeBody (start : Span) :
    Reads (valueTypeBody start) Record.unplaced ValueRest where
  sound := by
    intro tokens rest r h
    rw [valueTypeBody_eq] at h
    obtain ⟨⟨name, s⟩, r₁, hname, hr₁⟩ := bind_eq_ok.1 h
    obtain ⟨properties, r₂, hvalue, hr₂⟩ := bind_eq_ok.1 hr₁
    obtain ⟨hclose, hr⟩ := recordClose_sound hr₂
    obtain ⟨kinds, hk, hform⟩ := (reads_qualifiedName .valueType).sound hname
    rw [hr]
    rcases valueProperties_sound hvalue with ⟨rfl, rfl⟩ | hshort | hlist
    · exact ⟨_, hk.append hclose, .bare hform⟩
    · obtain ⟨s', _, hhere, hshort⟩ := bind_eq_ok.1 hshort
      cases hhere
      obtain ⟨t, r₃, ht, hpure⟩ := bind_eq_ok.1 hshort
      obtain ⟨rfl, rfl⟩ := pure_eq_ok.1 hpure
      obtain ⟨more, hm, ht⟩ := TypeRef.reader_sound ht
      exact ⟨_, hk.append (hm.append hclose), .typed hform ht⟩
    · obtain ⟨more, hm, hlist⟩ := reads_propertyList.sound hlist
      exact ⟨_, hk.append (hm.append hclose), .listed hform hlist⟩
  complete := by
    intro tokens rest kinds r h hs
    cases h with
    | bare hname =>
      obtain ⟨r₁, hk, hclose⟩ := spells_append.1 hs
      obtain ⟨⟨name, s⟩, hread, rfl⟩ := (reads_qualifiedName .valueType).complete hname hk
      obtain ⟨r, hr, hview⟩ := recordClose_complete start .valueType name [⟨none, none, s⟩] hclose
      refine ⟨r, ?_, hview⟩
      rw [valueTypeBody_eq, bind_of_ok hread, bind_of_ok (valueProperties_bare s hclose.front_eq),
        hr]
    | @typed _ _ _ t hname ht =>
      obtain ⟨r₁, hk, hs⟩ := spells_append.1 hs
      obtain ⟨r₂, hm, hclose⟩ := spells_append.1 hs
      -- the parenthesis that closes the value type does not continue the type either
      have hf := TypeRef.front_of_typeForm ht hm
      have hclosing := hclose.front_eq
      have htype := TypeRef.reader_complete ht hm (by rw [hclosing]; nofun)
        (by rw [hclosing]; nofun)
      obtain ⟨⟨name, s⟩, hread, rfl⟩ := (reads_qualifiedName .valueType).complete hname hk
      have hshort : ∃ s', shorthand r₁ = .ok ([⟨none, some t, s'⟩], r₂) :=
        ⟨_, bind_eq_ok.2 ⟨_, _, rfl, bind_eq_ok.2 ⟨_, _, htype, rfl⟩⟩⟩
      obtain ⟨s', hshort⟩ := hshort
      obtain ⟨r, hr, hview⟩ := recordClose_complete start .valueType name [⟨none, some t, s'⟩] hclose
      refine ⟨r, ?_, hview⟩
      rw [valueTypeBody_eq, bind_of_ok hread,
        bind_of_ok ((valueProperties_type s hf htype).trans hshort), hr]
    | listed hname hlist =>
      obtain ⟨r₁, hk, hs⟩ := spells_append.1 hs
      obtain ⟨r₂, hm, hclose⟩ := spells_append.1 hs
      obtain ⟨⟨name, s⟩, hread, rfl⟩ := (reads_qualifiedName .valueType).complete hname hk
      obtain ⟨properties, hreadList, rfl⟩ := reads_propertyList.complete hlist hm
      obtain ⟨r, hr, hview⟩ := recordClose_complete start .valueType name properties hclose
      refine ⟨r, ?_, hview⟩
      rw [valueTypeBody_eq, bind_of_ok hread,
        bind_of_ok ((valueProperties_list s hlist hm).trans hreadList), hr]

/-! ## Enumerations and services -/

theorem readsFrom_value :
    ReadsFrom (· ≠ .rbracket) (Prod.fst <$> simpleName .enumeration) id SimpleForm := by
  refine (reads_simpleName .enumeration).map.readsFrom ?_
  rintro _ _ ⟨h⟩
  exact ⟨_, _, rfl, rfl⟩

theorem reads_values :
    Reads (manyUntil .rbracket (Prod.fst <$> simpleName .enumeration)) (List.map id)
      (Closed SimpleForm .rbracket) :=
  readsFrom_value.manyUntil nofun

theorem reads_enumerationBody (start : Span) :
    Reads (enumerationBody start) Enumeration.unplaced EnumerationRest where
  sound := by
    intro tokens rest e h
    obtain ⟨⟨name, s⟩, r₁, hname, hr₁⟩ := bind_eq_ok.1 h
    obtain ⟨s₁, r₂, hopen, hr₂⟩ := bind_eq_ok.1 hr₁
    obtain ⟨values, r₃, hvalues, hr₃⟩ := bind_eq_ok.1 hr₂
    obtain ⟨s₂, r₄, hclose, hr₄⟩ := bind_eq_ok.1 hr₃
    obtain ⟨rfl, rfl⟩ := pure_eq_ok.1 hr₄
    obtain ⟨kinds, hk, hform⟩ := (reads_qualifiedName .enumeration).sound hname
    obtain ⟨t₁, rfl, ht₁, -⟩ := exists_of_expect hopen nofun
    obtain ⟨_, hm, hclosed⟩ := reads_values.sound hvalues
    obtain ⟨t₂, rfl, ht₂, -⟩ := exists_of_expect hclose nofun
    rw [List.map_id] at hclosed
    obtain ⟨hrepeated⟩ := hclosed
    refine ⟨_, hk.append (.cons ht₁ (hm.append (.single ht₂))), ?_⟩
    rw [List.append_assoc]
    exact .mk hform hrepeated
  complete := by
    rintro tokens rest _ _ ⟨hname, hvalues⟩ hs
    obtain ⟨r₁, hk, t₁, r₂, rfl, ht₁, hs⟩ := spells_append.1 hs
    rw [List.append_cons] at hs
    obtain ⟨r₃, hm, t₂, r₄, rfl, ht₂, rfl⟩ := spells_append.1 hs
    obtain ⟨⟨name, s⟩, hreadName, rfl⟩ := (reads_qualifiedName .enumeration).complete hname hk
    obtain ⟨values, hreadValues, rfl⟩ := reads_values.complete (.mk hvalues) hm
    refine ⟨⟨name, values, start.through t₂.span⟩, ?_, ?_⟩
    · unfold enumerationBody
      rw [bind_of_ok hreadName]
      show (expect .lbracket .enumeration >>= _) (t₁ :: r₂) = _
      rw [bind_of_ok (expect_of_kind ht₁ _ _), bind_of_ok hreadValues,
        bind_of_ok (expect_of_kind ht₂ _ _)]
      rfl
    · rw [List.map_id]
      rfl

theorem readsFrom_nestedCommand :
    ReadsFrom (· = .lparen) nestedCommand Record.unplaced CommandForm where
  first := by
    rintro _ _ ⟨h⟩
    exact ⟨_, _, rfl, rfl⟩
  sound := by
    intro tokens rest r hf h
    obtain ⟨t, others, rfl, ht⟩ := exists_of_front (of_decide_eq_true hf) nofun
    unfold nestedCommand at h
    rw [advance_bind] at h
    obtain ⟨s, r₁, hword, hr₁⟩ := bind_eq_ok.1 h
    obtain ⟨t', rfl, ht', -⟩ := expectWord_eq_ok.1 hword
    obtain ⟨kinds, hk, hbody⟩ := (reads_recordBody t.span .command).sound hr₁
    exact ⟨_, .cons ht (.cons ht' hk), .mk hbody⟩
  complete := by
    rintro tokens rest _ _ ⟨hbody⟩ ⟨t, others, rfl, ht, t', r₁, rfl, ht', hs⟩
    obtain ⟨r, hr, rfl⟩ := (reads_recordBody t.span .command).complete hbody hs
    refine ⟨r, ?_, rfl⟩
    unfold nestedCommand
    rw [advance_bind, bind_of_ok (expectWord_eq_ok.2 ⟨t', rfl, ht', rfl⟩), hr]

theorem reads_serviceBody (start : Span) :
    Reads (serviceBody start) Service.unplaced ServiceRest where
  sound := by
    intro tokens rest service h
    obtain ⟨⟨name, s⟩, r₁, hname, hr₁⟩ := bind_eq_ok.1 h
    obtain ⟨commands, r₂, hcommands, hr₂⟩ := bind_eq_ok.1 hr₁
    rw [branch_apply] at hr₂
    split at hr₂
    · exact absurd hr₂ fail_ne_ok
    · rename_i hne
      obtain ⟨s₁, r₃, hclose, hr₃⟩ := bind_eq_ok.1 hr₂
      obtain ⟨rfl, rfl⟩ := pure_eq_ok.1 hr₃
      obtain ⟨kinds, hk, hform⟩ := (reads_qualifiedName .service).sound hname
      obtain ⟨-, more, hm, hrepeated⟩ := many_sound readsFrom_nestedCommand hcommands
      obtain ⟨t, rfl, ht, -⟩ := exists_of_expect hclose nofun
      refine ⟨_, hk.append (hm.append (.single ht)), .mk hform hrepeated ?_⟩
      intro hnil
      rw [List.map_eq_nil_iff] at hnil
      exact hne (List.isEmpty_iff.2 hnil)
  complete := by
    rintro tokens rest _ _ ⟨hname, hcommands, hne⟩ hs
    obtain ⟨r₁, hk, hs⟩ := spells_append.1 hs
    obtain ⟨r₂, hm, hclose⟩ := spells_append.1 hs
    have hstop : decide (front r₂ = .lparen) = false := by
      rw [hclose.front_eq]
      rfl
    obtain ⟨t, r₃, rfl, ht, rfl⟩ := hclose
    obtain ⟨⟨name, s⟩, hreadName, rfl⟩ := (reads_qualifiedName .service).complete hname hk
    obtain ⟨commands, hread, rfl⟩ := many_complete readsFrom_nestedCommand hcommands hm hstop
    have hne' : ¬ commands.isEmpty = true := by
      intro hnil
      rw [List.isEmpty_iff.1 hnil] at hne
      exact hne rfl
    refine ⟨⟨name, commands, start.through t.span⟩, ?_, rfl⟩
    unfold serviceBody
    rw [bind_of_ok hreadName]
    show (many (· = .lparen) nestedCommand >>= _) r₁ = _
    rw [bind_of_ok hread, branch_apply, if_neg hne', bind_of_ok (expect_of_kind ht _ _)]
    rfl

/-! ## Declarations -/

theorem introduces?_keyword (kind : Kind) : introduces? (.ident kind.keyword) = some kind := by
  obtain ⟨_ | _ | _ | _⟩ | _ | _ := kind <;> decide

theorem eq_of_introduces? {token : Token.Kind} {kind : Kind} (h : introduces? token = some kind) :
    token = .ident kind.keyword := by
  cases token with
  | ident word =>
    have hword := List.find?_some (p := fun kind => Kind.keyword kind == word) h
    rw [eq_of_beq hword]
  | _ => cases h

/-- The rule of what stands behind the word of a declaration. -/
inductive BodyForm : Kind → Rule Declaration
  | valueType {kinds : List Token.Kind} {body : Record} :
      ValueRest kinds body → BodyForm (.record .valueType) kinds (.record .valueType body)
  | record {kinds : List Token.Kind} {kind : RecordKind} {body : Record} :
      kind ≠ .valueType → RecordRest kinds body → BodyForm (.record kind) kinds (.record kind body)
  | enumeration {kinds : List Token.Kind} {body : Enumeration} :
      EnumerationRest kinds body → BodyForm .enumeration kinds (.enumeration body)
  | service {kinds : List Token.Kind} {body : Service} :
      ServiceRest kinds body → BodyForm .service kinds (.service body)

/-- A declaration is a parenthesis, the word of a kind, and what the kind asks for. -/
theorem declarationForm_iff {kinds : List Token.Kind} {d : Declaration} :
    DeclarationForm kinds d ↔
      ∃ kind more, kinds = .lparen :: .ident (Kind.keyword kind) :: more ∧
        BodyForm kind more d := by
  constructor
  · intro h
    cases h with
    | valueType h => exact ⟨.record .valueType, _, rfl, .valueType h⟩
    | command h => exact ⟨.record .command, _, rfl, .record nofun h⟩
    | domainEvent h => exact ⟨.record .domainEvent, _, rfl, .record nofun h⟩
    | dto h => exact ⟨.record .dto, _, rfl, .record nofun h⟩
    | enumeration h => exact ⟨.enumeration, _, rfl, .enumeration h⟩
    | service h => exact ⟨.service, _, rfl, .service h⟩
  · rintro ⟨kind, more, rfl, h⟩
    cases h with
    | valueType h => exact .valueType h
    | @record _ kind _ hkind h =>
      cases kind with
      | valueType => exact absurd rfl hkind
      | command => exact .command h
      | domainEvent => exact .domainEvent h
      | dto => exact .dto h
    | enumeration h => exact .enumeration h
    | service h => exact .service h

theorem body_record (start : Span) {kind : RecordKind} (h : kind ≠ .valueType) :
    body start (.record kind) = .record kind <$> recordBody start (production kind) := by
  cases kind with
  | valueType => exact absurd rfl h
  | _ => rfl

theorem Reads.declaration {α : Type} {p : Parser α} {view : α → α} {rule : Rule α}
    {wrap : α → Declaration} {kind : Kind} (hr : Reads p view rule)
    (hview : ∀ a, (wrap a).unplaced = wrap (view a))
    (hrule : ∀ kinds d, BodyForm kind kinds d ↔ ∃ a, rule kinds a ∧ d = wrap a) :
    Reads (wrap <$> p) unplaced (BodyForm kind) where
  sound := by
    intro tokens rest d h
    obtain ⟨a, ha, rfl⟩ := map_eq_ok.1 h
    obtain ⟨kinds, hk, hform⟩ := hr.sound ha
    exact ⟨kinds, hk, (hrule _ _).2 ⟨_, hform, hview a⟩⟩
  complete := by
    intro tokens rest kinds d h hs
    obtain ⟨a, hform, rfl⟩ := (hrule _ _).1 h
    obtain ⟨a, ha, rfl⟩ := hr.complete hform hs
    exact ⟨wrap a, map_eq_ok.2 ⟨a, ha, rfl⟩, hview a⟩

theorem reads_body (start : Span) (kind : Kind) :
    Reads (body start kind) unplaced (BodyForm kind) := by
  cases kind with
  | record kind =>
    by_cases hkind : kind = .valueType
    · cases hkind
      refine Reads.declaration (reads_valueTypeBody start) (fun _ => rfl) fun kinds d => ?_
      constructor
      · intro h
        cases h with
        | valueType h => exact ⟨_, h, rfl⟩
        | record hkind _ => exact absurd rfl hkind
      · rintro ⟨a, h, rfl⟩
        exact .valueType h
    · rw [body_record start hkind]
      refine Reads.declaration (reads_recordBody start _) (fun _ => rfl) fun kinds d => ?_
      constructor
      · intro h
        cases h with
        | valueType _ => exact absurd rfl hkind
        | record _ h => exact ⟨_, h, rfl⟩
      · rintro ⟨a, h, rfl⟩
        exact .record hkind h
  | enumeration =>
    refine Reads.declaration (reads_enumerationBody start) (fun _ => rfl) fun kinds d => ?_
    constructor
    · intro h
      cases h with
      | enumeration h => exact ⟨_, h, rfl⟩
    · rintro ⟨a, h, rfl⟩
      exact .enumeration h
  | service =>
    refine Reads.declaration (reads_serviceBody start) (fun _ => rfl) fun kinds d => ?_
    constructor
    · intro h
      cases h with
      | service h => exact ⟨_, h, rfl⟩
    · rintro ⟨a, h, rfl⟩
      exact .service h

/-- **The parser of declarations reads the rule of declarations.** -/
theorem reads_reader : Reads reader unplaced DeclarationForm where
  sound := by
    intro tokens rest d h
    obtain ⟨start, r₁, hopen, hr₁⟩ := bind_eq_ok.1 h
    obtain ⟨t, rfl, ht, -⟩ := exists_of_expect hopen nofun
    rw [peek_bind] at hr₁
    cases hkind : introduces? (front r₁) with
    | none =>
      rw [hkind] at hr₁
      exact absurd hr₁ unexpected_ne_ok
    | some kind =>
      rw [hkind] at hr₁
      obtain ⟨t', r₂, rfl, ht'⟩ := exists_of_front (eq_of_introduces? hkind) nofun
      have hread : body start kind r₂ = .ok (d, rest) := hr₁
      obtain ⟨kinds, hk, hbody⟩ := (reads_body start kind).sound hread
      exact ⟨_, .cons ht (.cons ht' hk), declarationForm_iff.2 ⟨kind, kinds, rfl, hbody⟩⟩
  complete := by
    intro tokens rest kinds d h hs
    obtain ⟨kind, more, rfl, hbody⟩ := declarationForm_iff.1 h
    obtain ⟨t, _, rfl, ht, t', others, rfl, ht', hs⟩ := hs
    obtain ⟨a, ha, rfl⟩ := (reads_body t.span kind).complete hbody hs
    have hkind : introduces? (front (t' :: others)) = some kind := by
      rw [show front (t' :: others) = _ from ht', introduces?_keyword]
    refine ⟨a, ?_, rfl⟩
    unfold reader
    rw [bind_of_ok (expect_of_kind ht _ _), peek_bind, hkind]
    exact ha

end DomainForms.Declaration
