import DomainForms.Proofs.FormSpans

/-!
# The two forms of a value type

Behind its name a value type has a list of properties or just a type.  Both may start with a
parenthesis, and then the tokens behind it are skipped as if they were a type: where the parenthesis
closes behind them, a type is read, and otherwise a list.  The skipping looks at the shape of a type
only and accepts more than types; it never leads to the wrong form all the same, because a list that
can be read has a name where the shape of its first type ends.

The property of the second form has no name, and its place is the first token of the type.  This is
the place of the whole type if the type is one word.  Otherwise the text there is less than the type,
and what is read from it is no type at all or another one.

* `Declaration.valueProperties_eq_ok_iff`: a value type is read in whichever form can be read.
* `Declaration.lookahead_picks_form`: **the look-ahead never picks the wrong form.**
* `Record.ShorthandOn`: the tokens of a value type that is written as just a type.
* `Document.shorthand_reread_iff`: **the text at the place of such a property is read as its type
  exactly if the type is one word.**
-/

namespace DomainForms

open Grammar Grammar.Parser Token

namespace Declaration

/-! ## The look-ahead -/

/-- A form of a value type, and the parenthesis that closes the value type. -/
def closed {α : Type} (form : Parser α) : Parser α := do
  let a ← form
  let _ ← expect .rparen .valueType
  return a

theorem closed_eq_ok {α : Type} {form : Parser α} {tokens rest : List Token} {a : α} :
    closed form tokens = .ok (a, rest) ↔
      ∃ close, form tokens = .ok (a, close :: rest) ∧ close.kind = .rparen := by
  unfold closed
  constructor
  · intro h
    obtain ⟨a', middle, hform, h⟩ := bind_eq_ok.1 h
    obtain ⟨s, rest', hclose, h⟩ := bind_eq_ok.1 h
    obtain ⟨rfl, rfl⟩ := pure_eq_ok.1 h
    obtain ⟨close, rfl, hkind, -⟩ := exists_of_expect hclose nofun
    exact ⟨close, hform, hkind⟩
  · rintro ⟨close, hform, hkind⟩
    rw [bind_of_ok hform, bind_of_ok (expect_of_kind hkind _ _)]
    rfl

theorem exists_closed_error {α : Type} {form : Parser α} {tokens : List Token}
    (h : ∃ fault, form tokens = .error fault) : ∃ fault, closed form tokens = .error fault := by
  obtain ⟨fault, h⟩ := h
  exact ⟨fault, bind_eq_error.2 (.inl h)⟩

section

variable {opening : Token} {inner : List Token}

theorem exists_propertyList_error (opening : Token) (h : wrapsType inner = true) :
    ∃ fault, propertyList (opening :: inner) = .error fault := by
  cases hlist : propertyList (opening :: inner) with
  | error fault => exact ⟨fault, rfl⟩
  | ok r =>
    obtain ⟨properties, rest⟩ := r
    obtain ⟨kinds, hs, hform⟩ := reads_propertyList.sound hlist
    rw [wrapsType_of_list hform hs] at h
    cases h

theorem exists_reader_error (ho : opening.kind = .lparen) (h : wrapsType inner = false) :
    ∃ fault, TypeRef.reader (opening :: inner) = .error fault := by
  cases hread : TypeRef.reader (opening :: inner) with
  | error fault => exact ⟨fault, rfl⟩
  | ok r =>
    obtain ⟨type, rest⟩ := r
    rw [wrapsType_of_type ho hread] at h
    cases h

theorem exists_shorthand_error {tokens : List Token}
    (h : ∃ fault, TypeRef.reader tokens = .error fault) :
    ∃ fault, shorthand tokens = .error fault := by
  obtain ⟨fault, h⟩ := h
  exact ⟨fault, bind_eq_error.2 (.inr ⟨_, _, rfl, bind_eq_error.2 (.inl h)⟩)⟩

theorem valueProperties_of_lparen (nameSpan : Span) (ho : opening.kind = .lparen) :
    valueProperties nameSpan (opening :: inner) =
      if wrapsType inner = true then shorthand (opening :: inner)
      else propertyList (opening :: inner) := by
  unfold valueProperties
  rw [show front (opening :: inner) = .lparen from ho]
  rfl

/-- **A value type is read in whichever form can be read.** -/
theorem valueProperties_eq_ok_iff (nameSpan : Span) (ho : opening.kind = .lparen)
    {r : List Property × List Token} :
    valueProperties nameSpan (opening :: inner) = .ok r ↔
      shorthand (opening :: inner) = .ok r ∨ propertyList (opening :: inner) = .ok r := by
  rw [valueProperties_of_lparen nameSpan ho]
  by_cases hw : wrapsType inner = true
  · obtain ⟨fault, hfault⟩ := exists_propertyList_error opening hw
    rw [if_pos hw, hfault]
    simp
  · obtain ⟨fault, hfault⟩ :=
      exists_shorthand_error (exists_reader_error ho (Bool.eq_false_iff.2 hw))
    rw [if_neg hw, hfault]
    simp

theorem propertyList_ne_ok_of_shorthand (ho : opening.kind = .lparen)
    {r r' : List Property × List Token} (hshort : shorthand (opening :: inner) = .ok r) :
    propertyList (opening :: inner) ≠ .ok r' := by
  intro hlist
  by_cases hw : wrapsType inner = true
  · obtain ⟨fault, hfault⟩ := exists_propertyList_error opening hw
    rw [hfault] at hlist
    cases hlist
  · obtain ⟨fault, hfault⟩ :=
      exists_shorthand_error (exists_reader_error ho (Bool.eq_false_iff.2 hw))
    rw [hfault] at hshort
    cases hshort

end

/-- **The look-ahead never picks the wrong form.**  Behind the parenthesis that follows the name of a
value type, there is no list to be read if the shape of a type is wrapped, and no type in front of the
closing parenthesis if it is not.  So at most one of the two forms can be read, and a value type is
read in that one.  Where a type is read behind the parenthesis, exactly its tokens are skipped. -/
theorem lookahead_picks_form (nameSpan : Span) {opening : Token} (ho : opening.kind = .lparen)
    (inner : List Token) :
    (wrapsType inner = true → ∃ fault, propertyList (opening :: inner) = .error fault) ∧
    (wrapsType inner = false → ∃ fault, closed TypeRef.reader (opening :: inner) = .error fault) ∧
    (∀ r, closed (valueProperties nameSpan) (opening :: inner) = .ok r ↔
      closed shorthand (opening :: inner) = .ok r ∨
        closed propertyList (opening :: inner) = .ok r) ∧
    (∀ r r', closed shorthand (opening :: inner) = .ok r →
      closed propertyList (opening :: inner) ≠ .ok r') ∧
    ∀ type rest, TypeRef.reader inner = .ok (type, rest) →
      TypeRef.skip? inner = some rest ∧ ∃ used, inner = used ++ rest := by
  refine ⟨exists_propertyList_error opening, fun hw => exists_closed_error (exists_reader_error ho hw),
    ?_, ?_, ?_⟩
  · rintro ⟨properties, rest⟩
    simp only [closed_eq_ok, valueProperties_eq_ok_iff nameSpan ho, or_and_right, exists_or]
  · rintro ⟨properties, rest⟩ ⟨properties', rest'⟩ hshort hlist
    obtain ⟨_, hshort, -⟩ := closed_eq_ok.1 hshort
    obtain ⟨_, hlist, -⟩ := closed_eq_ok.1 hlist
    exact propertyList_ne_ok_of_shorthand ho hshort hlist
  · intro type rest hread
    obtain ⟨used, hused, -⟩ := TypeRef.takesOn_reader hread
    exact ⟨TypeRef.skip?_of_reader hread, used, hused⟩

/-! ## A type and a list that start alike -/

namespace Envelope

/-- The parenthesis behind the name of a value type. -/
def opening : Token := ⟨.lparen, .none⟩

/-- An array type in parentheses, and the end of the value type. -/
def wrapped : List Token :=
  [.lparen, .ident "Money", .rparen, .lbracket, .rbracket, .rparen, .rparen].map (⟨·, .none⟩)

/-- The same type with a name behind it. -/
def listed : List Token :=
  [.lparen, .ident "Money", .rparen, .lbracket, .rbracket, .ident "Prices", .rparen, .rparen].map
    (⟨·, .none⟩)

theorem forms_told_apart :
    (wrapsType wrapped = true ∧ ∃ fault, propertyList (opening :: wrapped) = .error fault) ∧
    (wrapsType listed = false ∧ ∃ fault, closed TypeRef.reader (opening :: listed) = .error fault) :=
  ⟨⟨by decide, (lookahead_picks_form .none rfl wrapped).1 (by decide)⟩,
    ⟨by decide, (lookahead_picks_form .none rfl listed).2.1 (by decide)⟩⟩

end Envelope

end Declaration

/-! ## Types that are one word -/

theorem TypeRef.ofWritten_cases (name : String) :
    (TypeRef.ofWritten name).isArray = false ∧ ∀ p, TypeRef.ofWritten name ≠ .nullable p := by
  unfold ofWritten
  split
  · exact ⟨rfl, nofun⟩
  · split
    · exact ⟨rfl, nofun⟩
    · exact ⟨rfl, nofun⟩

namespace Grammar

/-- A phrase of a type that starts with a word is the word, or it has marks behind the word that show
in the type. -/
theorem TypeForm.of_word {symbol : TypeSymbol} {kinds : List Kind} {t : TypeRef}
    (h : TypeForm symbol kinds t) {name : String} {more : List Kind}
    (hkinds : kinds = .ident name :: more) :
    (more = [] ∧ t = TypeRef.ofWritten name) ∨
      (more ≠ [] ∧ (t.isArray = true ∨ ∃ p, t = .nullable p)) := by
  induction h generalizing more with
  | primitive hp =>
    cases hkinds
    exact .inl ⟨rfl, (TypeRef.ofWritten_primitive hp).symm⟩
  | nullable _ =>
    cases hkinds
    exact .inr ⟨nofun, .inr ⟨_, rfl⟩⟩
  | string hs =>
    cases hkinds
    exact .inl ⟨rfl, (TypeRef.ofWritten_string hs).symm⟩
  | named _ hp hs =>
    cases hkinds
    exact .inl ⟨rfl, (TypeRef.ofWritten_named hp hs).symm⟩
  | parens _ _ => cases hkinds
  | plain _ ih => exact ih hkinds
  | array hbase _ _ =>
    obtain ⟨kind, rest, rfl, -⟩ := TypeRef.head_of_typeForm hbase
    cases hkinds
    exact .inr ⟨by simp, .inl rfl⟩

theorem TypeForm.ne_nil_of_lparen {symbol : TypeSymbol} {kinds : List Kind} {t : TypeRef}
    (h : TypeForm symbol kinds t) {more : List Kind} (hkinds : kinds = .lparen :: more) :
    more ≠ [] := by
  induction h generalizing more with
  | parens _ _ =>
    obtain ⟨-, rfl⟩ := List.cons.inj hkinds
    exact List.concat_ne_nil _ _
  | plain _ ih => exact ih hkinds
  | array hbase _ _ =>
    obtain ⟨kind, rest, rfl, -⟩ := TypeRef.head_of_typeForm hbase
    obtain ⟨-, rfl⟩ := List.cons.inj hkinds
    simp
  | _ => cases hkinds

/-- **The first token of a type is the same type exactly if it is the only one**, which is seen from
the token and the type. -/
theorem TypeForm.single_iff {first : Kind} {others : List Kind} {t : TypeRef}
    (h : TypeForm .type (first :: others) t) :
    (TypeForm .type [first] t ↔ others = []) ∧
      (others = [] ↔ first ≠ .lparen ∧ t.isArray = false ∧ ∀ p, t ≠ .nullable p) := by
  obtain ⟨kind, more, heq, hkind⟩ := TypeRef.head_of_typeForm h
  cases heq
  rcases hkind with rfl | ⟨name, rfl⟩
  · have hothers : others ≠ [] := h.ne_nil_of_lparen rfl
    have hsingle : ¬ TypeForm .type [.lparen] t := fun hs => hs.ne_nil_of_lparen rfl rfl
    simp [hothers, hsingle]
  · rcases h.of_word rfl with ⟨rfl, rfl⟩ | ⟨hothers, hmarks⟩
    · obtain ⟨harray, hnullable⟩ := TypeRef.ofWritten_cases name
      simp [h, harray, hnullable]
    · have hmarked : ¬ (t.isArray = false ∧ ∀ p, t ≠ .nullable p) := by
        rintro ⟨harray, hnullable⟩
        rcases hmarks with ha | ⟨p, hp⟩
        · rw [harray] at ha
          cases ha
        · exact hnullable p hp
      -- the word alone is a type without the marks
      have hsingle : ¬ TypeForm .type [.ident name] t := by
        intro hs
        obtain ⟨-, rfl⟩ := (hs.of_word rfl).resolve_right fun hmore => hmore.1 rfl
        exact hmarked (TypeRef.ofWritten_cases name)
      exact ⟨iff_of_false hsingle hothers, iff_of_false hothers fun hplain => hmarked hplain.2⟩

end Grammar

/-! ## The place of a property without a name -/

/-- A value type that is written as just a type stands on its tokens: the opening parenthesis, the
word, the name, the phrase of the type, and the closing parenthesis. -/
structure Record.ShorthandOn (tokens : List Token) (r : Record) (type : TypeRef) (first : Token)
    (others : List Token) : Prop where
  spanned : Spanned tokens r.span
  spelled : ∃ head close, tokens = head ++ (first :: others ++ [close]) ∧
    head.map Token.kind = [.lparen, .ident "defvaluetype", .ident r.name] ∧ close.kind = .rparen
  form : TypeForm .type ((first :: others).map Token.kind) type

namespace Declaration

theorem exists_of_shorthand {tokens rest : List Token} {properties : List Property}
    (h : shorthand tokens = .ok (properties, rest)) :
    ∃ type first others, tokens = first :: others ++ rest ∧
      TypeForm .type ((first :: others).map Token.kind) type ∧
      properties = [⟨none, some type, first.span⟩] := by
  obtain ⟨start, _, hstart, h⟩ := bind_eq_ok.1 h
  cases hstart
  obtain ⟨type, middle, htype, h⟩ := bind_eq_ok.1 h
  obtain ⟨rfl, rfl⟩ := pure_eq_ok.1 h
  obtain ⟨_, rfl, ⟨first, others, rfl⟩, hform⟩ := TypeRef.takesOn_reader htype
  exact ⟨type, first, others, rfl, hform, rfl⟩

theorem name_isSome_of_propertyList {tokens rest : List Token} {properties : List Property}
    (h : propertyList tokens = .ok (properties, rest)) {type : Option TypeRef} {span : Span} :
    properties ≠ [⟨none, type, span⟩] := by
  rintro rfl
  obtain ⟨kinds, -, hform⟩ := reads_propertyList.sound h
  cases hform with
  | cons hproperty _ => cases hproperty

theorem exists_of_valueTypeBody {start : Span} {tokens rest : List Token} {r : Record}
    (h : valueTypeBody start tokens = .ok (r, rest)) {type : TypeRef} {span : Span}
    (hp : r.properties = [⟨none, some type, span⟩]) :
    ∃ name first others close, tokens = name :: (first :: others ++ close :: rest) ∧
      name.kind = .ident r.name ∧ close.kind = .rparen ∧ r.span = start.through close.span ∧
      TypeForm .type ((first :: others).map Token.kind) type ∧ span = first.span := by
  obtain ⟨⟨name, s⟩, r₁, hname, hr₁⟩ := bind_eq_ok.1 h
  obtain ⟨properties, r₂, hvalue, hr₂⟩ := bind_eq_ok.1 hr₁
  obtain ⟨s', r₃, hclose, hr₃⟩ := bind_eq_ok.1 hr₂
  obtain ⟨rfl, rfl⟩ := pure_eq_ok.1 hr₃
  obtain rfl : properties = [⟨none, some type, span⟩] := hp
  obtain ⟨t, rfl, ht, -, -⟩ := qualifiedName_eq_ok.1 hname
  obtain ⟨close, rfl, hkind, rfl⟩ := exists_of_expect hclose nofun
  rcases valueProperties_sound hvalue with ⟨hbare, -⟩ | hshort | hlist
  · cases hbare
  · obtain ⟨type', first, others, rfl, hform, heq⟩ := exists_of_shorthand hshort
    cases heq
    exact ⟨t, first, others, close, rfl, ht, hkind, rfl, hform, rfl⟩
  · exact absurd rfl (name_isSome_of_propertyList hlist)

theorem valueTypeBody_of_body {start : Span} {kind : Kind} {tokens rest : List Token} {r : Record}
    (h : body start kind tokens = .ok (.record .valueType r, rest)) :
    kind = .record .valueType ∧ valueTypeBody start tokens = .ok (r, rest) := by
  cases kind with
  | record kind =>
    by_cases hkind : kind = .valueType
    · subst hkind
      obtain ⟨r', hr, heq⟩ := map_eq_ok.1 h
      cases heq
      exact ⟨rfl, hr⟩
    · rw [body_record start hkind] at h
      obtain ⟨r', -, heq⟩ := map_eq_ok.1 h
      cases heq
      exact absurd rfl hkind
  | enumeration =>
    obtain ⟨e, -, heq⟩ := map_eq_ok.1 h
    cases heq
  | service =>
    obtain ⟨service, -, heq⟩ := map_eq_ok.1 h
    cases heq

/-- **A value type that was read, and is written as just a type, stands on its tokens**, with the
place of its property at the first token of the type. -/
theorem takesOn_reader_shorthand : reader.TakesOn fun tokens d =>
    ∀ r type span, d = .record .valueType r → r.properties = [⟨none, some type, span⟩] →
      ∃ first others, r.ShorthandOn tokens type first others ∧ span = first.span := by
  intro tokens rest d h
  obtain ⟨used, rfl, hon⟩ := takesOn_reader h
  refine ⟨used, rfl, ?_⟩
  rintro r type span rfl hp
  obtain ⟨start, r₁, hopen, hr₁⟩ := bind_eq_ok.1 h
  obtain ⟨t, heq, ht, rfl⟩ := exists_of_expect hopen nofun
  rw [peek_bind] at hr₁
  cases hkind : introduces? (front r₁) with
  | none =>
    rw [hkind] at hr₁
    exact absurd hr₁ unexpected_ne_ok
  | some kind =>
    rw [hkind] at hr₁
    obtain ⟨t', r₂, rfl, ht'⟩ := exists_of_front (eq_of_introduces? hkind) nofun
    obtain ⟨rfl, hbody⟩ := valueTypeBody_of_body
      (show body t.span kind r₂ = .ok (.record .valueType r, rest) from hr₁)
    obtain ⟨name, first, others, close, rfl, hname, hclose, -, hform, hspan⟩ :=
      exists_of_valueTypeBody hbody hp
    have hused : used = [t, t', name] ++ (first :: others ++ [close]) := by
      refine List.append_cancel_right (heq.trans ?_)
      simp only [List.append_assoc, List.cons_append, List.nil_append]
    refine ⟨first, others,
      ⟨hon.properties.spanned, ⟨[t, t', name], close, hused, ?_, hclose⟩, hform⟩, hspan⟩
    simp only [List.map_cons, List.map_nil, ht, show t'.kind = .ident "defvaluetype" from ht', hname]

end Declaration

/-- **The place of a property without a name is the first token of its type.**  A value type of a
document that was read may be written as just a type.  The text at the place of its property is then
read as this type exactly if the type is one token, and this is so exactly if the type is neither in
parentheses nor an array nor nullable. -/
theorem Document.shorthand_reread_iff {source : String} {d : Document} (h : parse source = .ok d)
    {n : Namespace} (hn : n ∈ d.namespaces) {r : Record}
    (hr : Declaration.record .valueType r ∈ n.declarations) {type : TypeRef} {span : Span}
    (hp : r.properties = [⟨none, some type, span⟩]) :
    ∃ tokens first others, Occurs source tokens ∧ r.ShorthandOn tokens type first others ∧
      span = first.span ∧
      (TypeRef.parse (span.text source) = .ok type ↔ others = []) ∧
      (others = [] ↔ first.kind ≠ .lparen ∧ type.isArray = false ∧ ∀ p, type ≠ .nullable p) := by
  have hreader := inRow_reader (enclosed_laterForm Declaration.takesOn_reader_shorthand)
  obtain ⟨_, ho, front, behind, rfl, -, hnamespaces⟩ := exists_occurs hreader h
  obtain ⟨before, used, rest, rfl, hon⟩ := hnamespaces.exists_of_mem hn
  rw [← List.append_assoc] at ho
  obtain ⟨tokens, ho, hdeclaration⟩ := hon.exists_of_mem ho.part hr
  obtain ⟨first, others, hshort, rfl⟩ := hdeclaration r type span rfl hp
  refine ⟨tokens, first, others, ho, hshort, rfl, ?_⟩
  -- the text at the place of the property is the sentence of one token
  have hfirst : Occurs source [first] := by
    obtain ⟨head, close, rfl, -, -⟩ := hshort.spelled
    rw [← List.singleton_append, List.append_assoc] at ho
    exact ho.part
  have hend : ([first].map Token.kind).getLast? ≠ some .eof := by
    obtain ⟨kind, more, hkinds, hkind⟩ := TypeRef.head_of_typeForm hshort.form
    obtain rfl : first.kind = kind := (List.cons.inj hkinds).1
    rcases hkind with hkind | ⟨name, hkind⟩ <;> simp [hkind]
  rw [typeRef_parse_iff, sentence_of_spanned hfirst (spanned_single first) hend]
  have hsingle := hshort.form.single_iff
  rwa [List.map_eq_nil_iff] at hsingle

/-! ## A type of three tokens -/

namespace Purse

/-- A value type that is written as an array type. -/
def source : String := "(namespace A (defvaluetype X int[]))"

/-- The type that is written. -/
def coins : TypeRef := .array (.simple .int) [.single]

/-- The place of the property. -/
def place : Span := ⟨29, 32, 1, 30⟩

/-- The value type, which has this property only. -/
def record : Record := ⟨"X", [⟨none, some coins, place⟩], ⟨13, 35, 1, 14⟩⟩

/-- The namespace around it. -/
def scope : Namespace := ⟨⟨["A"]⟩, [.record .valueType record], ⟨0, 36, 1, 1⟩⟩

/-- The brackets are not at the place of the property, and so the array type is not read there. -/
theorem coins_not_reread :
    Document.parse source = .ok ⟨none, [scope]⟩ ∧
    Declaration.record .valueType record ∈ scope.declarations ∧
    record.properties = [⟨none, some coins, place⟩] ∧ place.text source = "int" ∧
    TypeRef.parse (place.text source) ≠ .ok coins := by
  have hparse : Document.parse source = .ok ⟨none, [scope]⟩ := by decide +kernel
  have hrecord : Declaration.record .valueType record ∈ scope.declarations :=
    List.mem_singleton_self _
  have hproperties : record.properties = [⟨none, some coins, place⟩] := rfl
  refine ⟨hparse, hrecord, hproperties, by decide +kernel, fun hread => ?_⟩
  obtain ⟨_, first, others, -, -, -, hreread, hmarks⟩ :=
    Document.shorthand_reread_iff hparse (List.mem_singleton_self scope) hrecord hproperties
  have harray := (hmarks.1 (hreread.1 hread)).2.1
  exact absurd harray (by decide)

end Purse

end DomainForms
