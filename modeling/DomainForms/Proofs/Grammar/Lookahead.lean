import DomainForms.Proofs.Grammar.Places

/-!
# A parser looks one token ahead

What a parser takes, and what it makes of it, depends on the tokens that it takes and on the one
behind them.  The tokens from there on may be replaced: the parser then takes the same tokens and
gives the same result, or stops with the same fault.

Most parsers branch on the token in front, and for them this is kept by putting parsers in a row and
by repeating.  Three of them look farther.

* A type counts all its opening parentheses before it reads what is inside.  It is read as well from
  the outside in, one parenthesis after the other (`TypeRef.reader_lparen`).
* A value type skips what has the shape of a type to tell a type from a list of properties.  A list
  starts with a type too, so both forms may read this type first and then look at the token behind
  it (`Declaration.valueProperties_lparen`).
* A source looks at its second token for conventions.  All forms start with a parenthesis, so it may
  be taken before the decision (`Document.reader_conventions`, `Document.reader_namespace`).

* `Grammar.Parser.OneAhead`: on some tokens, a parser looks one token ahead.
* `Document.oneAhead_reader`: the reader of a document does on all tokens.
-/

namespace DomainForms

namespace Grammar.Parser

open Token (Kind)

variable {α β : Type}

/-! ## Outcomes -/

/-- The tokens that are left, behind a result or from a fault on. -/
def left : Except Fault (α × List Token) → List Token
  | .ok (_, rest) => rest
  | .error fault => fault.rest

/-- The same outcome with other tokens left. -/
def leaving (rest : List Token) : Except Fault (α × List Token) → Except Fault (α × List Token)
  | .ok (a, _) => .ok (a, rest)
  | .error fault => .error { fault with rest := rest }

/-- On some tokens, a parser looks one token ahead: the outcome stays the same when the tokens that
are left are replaced by others with the same one in front. -/
def OneAhead (p : Parser α) (tokens : List Token) : Prop :=
  ∃ used, tokens = used ++ left (p tokens) ∧
    ∀ rest, rest.head? = (left (p tokens)).head? → p (used ++ rest) = leaving rest (p tokens)

variable {p q : Parser α} {next : α → Parser β} {t : Token} {tokens : List Token}

theorem head?_append_congr {used rest rest' : List Token} (h : rest.head? = rest'.head?) :
    (used ++ rest).head? = (used ++ rest').head? := by
  rw [List.head?_append, List.head?_append, h]

theorem front_of_head? {other : List Token} (h : other.head? = tokens.head?) :
    front other = front tokens := by
  cases tokens with
  | nil =>
    rw [List.head?_eq_none_iff.1 h]
  | cons t tokens =>
    obtain ⟨others, rfl⟩ := List.head?_eq_some_iff.1 h
    rfl

/-! ## Steps -/

theorem OneAhead.congr (h : OneAhead q tokens)
    (heq : ∀ other : List Token, other.head? = tokens.head? → p other = q other) :
    OneAhead p tokens := by
  obtain ⟨used, htokens, hused⟩ := h
  have hp := heq tokens rfl
  rw [← hp] at htokens hused
  refine ⟨used, htokens, fun rest hrest => ?_⟩
  have hhead : (used ++ rest).head? = tokens.head? := by
    rw [head?_append_congr hrest, ← htokens]
  rw [heq _ hhead, hused rest hrest]

/-- A parser that takes a token and then does as another one looks as far ahead as that one. -/
theorem OneAhead.cons (h : OneAhead q tokens)
    (heq : ∀ other : List Token, other.head? = tokens.head? → p (t :: other) = q other) :
    OneAhead p (t :: tokens) := by
  obtain ⟨used, htokens, hused⟩ := h
  have hp := heq tokens rfl
  rw [← hp] at htokens hused
  refine ⟨t :: used, congrArg (List.cons t) htokens, fun rest hrest => ?_⟩
  have hhead : (used ++ rest).head? = tokens.head? := by
    rw [head?_append_congr hrest, ← htokens]
  rw [List.cons_append, heq _ hhead, hused rest hrest]

theorem OneAhead.bind (hp : OneAhead p tokens)
    (hnext : ∀ a rest, p tokens = .ok (a, rest) → OneAhead (next a) rest) :
    OneAhead (p >>= next) tokens := by
  obtain ⟨used, htokens, hused⟩ := hp
  cases hr : p tokens with
  | error fault =>
    rw [hr] at htokens hused
    refine ⟨used, ?_, fun rest hrest => ?_⟩
    · rw [bind_of_error hr]
      exact htokens
    · rw [bind_of_error hr] at hrest ⊢
      exact bind_of_error (hused rest hrest)
  | ok r =>
    obtain ⟨a, middle⟩ := r
    rw [hr] at htokens hused
    obtain ⟨more, hmiddle, hmore⟩ := hnext a middle hr
    -- what replaces the rest of the second parser leaves the token in front of it as it was
    refine ⟨used ++ more, ?_, fun rest hrest => ?_⟩
    · rw [bind_of_ok hr, List.append_assoc, ← hmiddle]
      exact htokens
    · rw [bind_of_ok hr] at hrest ⊢
      have hhead : (more ++ rest).head? = middle.head? := by
        rw [head?_append_congr hrest, ← hmiddle]
      rw [List.append_assoc, bind_of_ok (hused (more ++ rest) hhead), hmore rest hrest]

theorem oneAhead_pure (a : α) : OneAhead (pure a : Parser α) tokens :=
  ⟨[], rfl, fun _ _ => rfl⟩

theorem OneAhead.map (h : OneAhead p tokens) (f : α → β) : OneAhead (f <$> p) tokens :=
  h.bind fun a _ _ => oneAhead_pure (f a)

theorem oneAhead_peek {next : Kind → Parser β} (h : OneAhead (next (front tokens)) tokens) :
    OneAhead (peek >>= next) tokens := by
  refine h.congr fun other hother => ?_
  rw [peek_bind, front_of_head? hother]

theorem oneAhead_here {next : Span → Parser β} (h : ∀ s, OneAhead (next s) tokens) :
    OneAhead (here >>= next) tokens := by
  refine (h ((tokens.head?.map Token.span).getD .none)).congr fun other hother => ?_
  rw [← hother]
  rfl

theorem oneAhead_advance : OneAhead advance tokens := by
  cases tokens with
  | nil =>
    refine ⟨[], rfl, fun rest hrest => ?_⟩
    rw [List.head?_eq_none_iff.1 hrest]
    rfl
  | cons t tokens => exact ⟨[t], rfl, fun _ _ => rfl⟩

theorem oneAhead_fail (production : Production) (cause : Cause) :
    OneAhead (fail production cause : Parser α) tokens :=
  ⟨[], rfl, fun _ _ => rfl⟩

theorem oneAhead_unexpected (production : Production) (expected : String) :
    OneAhead (unexpected production expected : Parser α) tokens := by
  refine (oneAhead_fail production (.unexpected expected (front tokens))).congr
    fun other hother => ?_
  rw [← front_of_head? hother]
  rfl

/-! ## One token -/

theorem oneAhead_expect (kind : Kind) (production : Production) :
    OneAhead (expect kind production) tokens := by
  refine oneAhead_peek ?_
  split
  · exact oneAhead_advance
  · exact oneAhead_unexpected ..

theorem oneAhead_expectWord (word : String) (production : Production) :
    OneAhead (expectWord word production) tokens := by
  refine oneAhead_peek ?_
  split
  · exact oneAhead_advance
  · exact oneAhead_unexpected ..

theorem oneAhead_unrefused (refuse : String → Bool) (cause : String → Cause) (expected : String)
    (production : Production) : OneAhead (unrefused refuse cause expected production) tokens := by
  refine oneAhead_peek ?_
  cases front tokens with
  | ident name =>
    show OneAhead (if refuse name then _ else _) tokens
    split
    · exact oneAhead_fail ..
    · exact oneAhead_advance.map _
  | _ => exact oneAhead_unexpected ..

theorem oneAhead_qualifiedName (production : Production) :
    OneAhead (qualifiedName production) tokens :=
  oneAhead_unrefused ..

theorem oneAhead_simpleName (production : Production) : OneAhead (simpleName production) tokens :=
  oneAhead_unrefused ..

theorem oneAhead_endOfInput (production : Production) :
    OneAhead (endOfInput production) tokens := by
  refine oneAhead_peek ?_
  split
  · exact oneAhead_pure _
  · exact oneAhead_unexpected ..

/-! ## Many items -/

section Many

variable {starts : Kind → Bool} {item : Parser α} {view : α → β} {rule : Rule β}

theorem ReadsFrom.length_lt (hr : ReadsFrom starts item view rule) {rest : List Token} {a : α}
    (hs : starts (front tokens) = true) (h : item tokens = .ok (a, rest)) :
    rest.length < tokens.length := by
  obtain ⟨kinds, hk, hphrase⟩ := hr.sound hs h
  obtain ⟨kind, more, rfl, -⟩ := hr.first hphrase
  have hlen := hk.length_eq
  rw [List.length_cons] at hlen
  omega

theorem atMost_eq_of_lt (hr : ReadsFrom starts item view rule) :
    ∀ {fuel fuel' : Nat} {tokens : List Token}, tokens.length < fuel → tokens.length < fuel' →
      atMost starts item fuel tokens = atMost starts item fuel' tokens := by
  intro fuel
  induction fuel with
  | zero => intro fuel' tokens h; omega
  | succ fuel ih =>
    intro fuel' tokens h h'
    obtain ⟨fuel', rfl⟩ := Nat.exists_eq_succ_of_ne_zero (Nat.ne_zero_of_lt h')
    rw [atMost, atMost, peek_bind, peek_bind, branch_apply, branch_apply]
    split
    · rename_i hs
      cases hitem : item tokens with
      | error fault => rw [bind_of_error hitem, bind_of_error hitem]
      | ok r =>
        obtain ⟨first, rest⟩ := r
        have hlen := hr.length_lt hs hitem
        have hrest : atMost starts item fuel rest = atMost starts item fuel' rest :=
          ih (by omega) (by omega)
        rw [bind_of_ok hitem, bind_of_ok hitem]
        exact bind_congr_apply hrest
    · rfl

theorem many_eq (hr : ReadsFrom starts item view rule) (tokens : List Token) :
    many starts item tokens =
      if starts (front tokens) then
        (item >>= fun first => many starts item >>= fun others => pure (first :: others)) tokens
      else
        .ok ([], tokens) := by
  show atMost starts item (tokens.length + 1) tokens = _
  rw [atMost, peek_bind, branch_apply]
  split
  · rename_i hs
    cases hitem : item tokens with
    | error fault => rw [bind_of_error hitem, bind_of_error hitem]
    | ok r =>
      obtain ⟨first, rest⟩ := r
      rw [bind_of_ok hitem, bind_of_ok hitem]
      exact bind_congr_apply
        (atMost_eq_of_lt hr (hr.length_lt hs hitem) (Nat.lt_succ_self rest.length))
  · rfl

/-- A loop over items that look one token ahead does so, by induction on the number of tokens. -/
theorem oneAhead_many (hr : ReadsFrom starts item view rule)
    (h : ∀ tokens, OneAhead item tokens) (tokens : List Token) :
    OneAhead (many starts item) tokens := by
  induction hn : tokens.length using Nat.strong_induction_on generalizing tokens with
  | _ n ih =>
    subst hn
    by_cases hs : starts (front tokens) = true
    · have hstep : OneAhead (item >>= fun first => many starts item >>= fun others =>
          pure (first :: others)) tokens :=
        (h tokens).bind fun first rest hitem =>
          (ih rest.length (hr.length_lt hs hitem) rest rfl).map (first :: ·)
      refine hstep.congr fun other hother => ?_
      rw [many_eq hr, front_of_head? hother, if_pos hs]
    · refine (oneAhead_pure []).congr fun other hother => ?_
      rw [many_eq hr, front_of_head? hother, if_neg hs]
      rfl

theorem oneAhead_manyUntil {close : Kind} (hr : ReadsFrom (· ≠ close) item view rule)
    (h : ∀ tokens, OneAhead item tokens) (tokens : List Token) :
    OneAhead (manyUntil close item) tokens :=
  (oneAhead_many hr h tokens).bind fun items _ _ => oneAhead_advance.map fun _ => items

end Many

end Grammar.Parser

open Grammar Grammar.Parser

/-! ## Types -/

namespace TypeRef

variable {tokens : List Token}

theorem oneAhead_arraySuffix (base : TypeRef) (tokens : List Token) :
    OneAhead (arraySuffix base) tokens := by
  refine oneAhead_peek ?_
  split
  · exact oneAhead_pure _
  split
  · exact oneAhead_fail ..
  refine oneAhead_advance.bind fun _ rest _ => oneAhead_peek ?_
  cases front rest with
  | rbracket =>
    refine oneAhead_advance.bind fun _ rest _ => oneAhead_peek ?_
    split
    · exact oneAhead_fail ..
    · exact oneAhead_pure _
  | comma => exact oneAhead_fail ..
  | _ => exact oneAhead_unexpected ..

theorem oneAhead_nullableSuffix (base : TypeRef) (tokens : List Token) :
    OneAhead (nullableSuffix base) tokens := by
  refine oneAhead_peek ?_
  split
  · exact oneAhead_pure _
  cases base with
  | simple p =>
    refine oneAhead_advance.bind fun _ rest _ => oneAhead_peek ?_
    split
    · exact oneAhead_fail ..
    · exact oneAhead_pure _
  | _ => exact oneAhead_fail ..

theorem oneAhead_baseType (tokens : List Token) : OneAhead baseType tokens := by
  refine oneAhead_peek ?_
  cases front tokens with
  | ident name =>
    show OneAhead (if isReserved name then _ else _) tokens
    split
    · exact oneAhead_fail ..
    · exact oneAhead_advance.bind fun _ rest _ => oneAhead_nullableSuffix _ rest
  | _ => exact oneAhead_unexpected ..

/-- A type looks one token ahead, by induction on the tokens: its first parenthesis is taken, then
the type inside it is read. -/
theorem oneAhead_reader (tokens : List Token) : OneAhead reader tokens := by
  have hplain : ∀ {tokens : List Token}, front tokens ≠ .lparen → OneAhead reader tokens := by
    intro tokens hf
    have hbase : OneAhead (baseType >>= arraySuffix) tokens :=
      (oneAhead_baseType tokens).bind fun base rest _ => oneAhead_arraySuffix base rest
    refine hbase.congr fun other hother => reader_of_front ?_
    rwa [front_of_head? hother]
  induction tokens with
  | nil => exact hplain nofun
  | cons t tokens ih =>
    by_cases ht : t.kind = .lparen
    · have hinner : OneAhead (reader >>= fun type => expect .rparen .typeRef >>= fun _ =>
          arraySuffix type) tokens :=
        ih.bind fun type _ _ => (oneAhead_expect ..).bind fun _ rest _ =>
          oneAhead_arraySuffix type rest
      exact hinner.cons fun other _ => reader_lparen ht other
    · exact hplain ht

end TypeRef

/-! ## Declarations -/

namespace Declaration

theorem oneAhead_property (tokens : List Token) : OneAhead property tokens :=
  oneAhead_here fun _ => (TypeRef.oneAhead_reader tokens).bind fun _ _ _ =>
    (oneAhead_simpleName _).map _

theorem oneAhead_nextProperty (tokens : List Token) : OneAhead nextProperty tokens :=
  oneAhead_advance.bind fun _ rest _ => oneAhead_property rest

/-- What stands behind the first property of a list. -/
def listRest (first : Property) : Parser (List Property) := do
  let others ← many (· = .comma) nextProperty
  if (← peek) = .rparen then
    let _ ← advance
    return first :: others
  else
    unexpected .propertyList "',' or ')'"

theorem oneAhead_listRest (first : Property) (tokens : List Token) :
    OneAhead (listRest first) tokens := by
  refine (oneAhead_many readsFrom_nextProperty oneAhead_nextProperty tokens).bind
    fun others rest _ => oneAhead_peek ?_
  split
  · exact oneAhead_advance.map _
  · exact oneAhead_unexpected ..

theorem oneAhead_propertyList (tokens : List Token) : OneAhead propertyList tokens := by
  refine (oneAhead_expect ..).bind fun _ rest _ => oneAhead_peek ?_
  split
  · exact oneAhead_advance.map _
  · exact (oneAhead_property rest).bind fun first rest _ => oneAhead_listRest first rest

theorem oneAhead_recordBody (start : Span) (production : Production) (tokens : List Token) :
    OneAhead (recordBody start production) tokens := by
  have hlist : ∀ tokens, OneAhead optionalList tokens := by
    intro tokens
    refine oneAhead_peek ?_
    split
    · exact oneAhead_propertyList tokens
    · exact oneAhead_pure _
  rw [recordBody_eq]
  exact (oneAhead_qualifiedName production).bind fun _ rest _ => (hlist rest).bind fun _ _ _ =>
    (oneAhead_expect ..).map _

/-! ## Value types -/

/-- What closes the parenthesis around the type of a value type. -/
def typeRest (opening : Span) (type : TypeRef) : Parser (List Property) := do
  let _ ← expect .rparen .typeRef
  let whole ← TypeRef.arraySuffix type
  return [⟨none, some whole, opening⟩]

/-- What stands behind the type of the first property in a list. -/
def nameRest (start : Span) (type : TypeRef) : Parser (List Property) := do
  let name ← simpleName .propertyList
  listRest ⟨some name.1, some type, start.through name.2⟩

theorem shorthand_lparen {t : Token} (ht : t.kind = .lparen) (tokens : List Token) :
    shorthand (t :: tokens) = (TypeRef.reader >>= typeRest t.span) tokens := by
  have hwhole : shorthand (t :: tokens) = ((TypeRef.reader >>= fun type =>
      expect .rparen .typeRef >>= fun _ => TypeRef.arraySuffix type) >>= fun whole =>
        pure [⟨none, some whole, t.span⟩]) tokens :=
    bind_congr_apply (TypeRef.reader_lparen ht tokens)
  rw [hwhole]
  simp only [bind_assoc]
  rfl

theorem propertyList_lparen {t : Token} (ht : t.kind = .lparen) {tokens : List Token}
    (hf : front tokens ≠ .rparen) :
    propertyList (t :: tokens) =
      (here >>= fun start => TypeRef.reader >>= nameRest start) tokens := by
  have hproperty : propertyList (t :: tokens) = (property >>= listRest) tokens := by
    unfold propertyList
    rw [bind_of_ok (expect_of_kind ht _ _), peek_bind, branch_apply, if_neg hf]
    rfl
  rw [hproperty, property]
  simp only [bind_assoc]
  rfl

/-- What stands behind the parenthesis that follows the name of a value type, read one token after
the other: a type, and then the parenthesis that closes it or the name of a property. -/
def behindOpening (opening : Span) : Parser (List Property) := do
  let start ← here
  let type ← TypeRef.reader
  if (← peek) = .rparen then typeRest opening type else nameRest start type

theorem oneAhead_behindOpening (opening : Span) (tokens : List Token) :
    OneAhead (behindOpening opening) tokens := by
  refine oneAhead_here fun _ => (TypeRef.oneAhead_reader tokens).bind fun type rest _ =>
    oneAhead_peek ?_
  split
  · exact (oneAhead_expect ..).bind fun _ rest _ => (TypeRef.oneAhead_arraySuffix type rest).map _
  · exact (oneAhead_simpleName _).bind fun _ rest _ => oneAhead_listRest _ rest

/-- **The look-ahead of a value type changes nothing.**  Both of its forms read a type first, and
the token behind the type tells them apart. -/
theorem valueProperties_lparen (nameSpan : Span) {t : Token} (ht : t.kind = .lparen)
    {tokens : List Token} (hf : front tokens ≠ .rparen) :
    valueProperties nameSpan (t :: tokens) = behindOpening t.span tokens := by
  have hvalue : valueProperties nameSpan (t :: tokens) =
      if wrapsType tokens then shorthand (t :: tokens) else propertyList (t :: tokens) := by
    unfold valueProperties
    rw [show front (t :: tokens) = .lparen from ht]
    rfl
  rw [hvalue, shorthand_lparen ht, propertyList_lparen ht hf, behindOpening,
    bind_of_ok (show here tokens = .ok (_, tokens) from rfl),
    bind_of_ok (show here tokens = .ok (_, tokens) from rfl)]
  cases hread : TypeRef.reader tokens with
  | error fault => simp only [bind_of_error hread, ite_self]
  | ok r =>
    obtain ⟨type, rest⟩ := r
    have hw : wrapsType tokens = decide (front rest = .rparen) := by
      unfold wrapsType
      rw [TypeRef.skip?_of_reader hread]
    rw [hw, bind_of_ok hread, bind_of_ok hread, bind_of_ok hread, peek_bind, branch_apply]
    by_cases hclose : front rest = .rparen
    · rw [if_pos hclose, if_pos (decide_eq_true hclose)]
    · rw [if_neg hclose, decide_eq_false hclose, if_neg Bool.false_ne_true]

theorem oneAhead_shorthand (tokens : List Token) : OneAhead shorthand tokens :=
  oneAhead_here fun _ => (TypeRef.oneAhead_reader tokens).map _

theorem valueProperties_parens (nameSpan : Span) {t close : Token} (ht : t.kind = .lparen)
    (hc : close.kind = .rparen) (rest : List Token) :
    valueProperties nameSpan (t :: close :: rest) = .ok ([], rest) := by
  have hs : Spells [.lparen, .rparen] (t :: close :: rest) rest := .cons ht (.single hc)
  rw [valueProperties_list nameSpan .empty hs]
  unfold propertyList
  rw [bind_of_ok (expect_of_kind ht _ _), peek_bind, branch_apply,
    if_pos (show front (close :: rest) = .rparen from hc)]
  rfl

theorem valueProperties_of_front (nameSpan : Span) {tokens : List Token}
    (hl : front tokens ≠ .lparen) (hr : front tokens ≠ .rparen) :
    valueProperties nameSpan tokens = shorthand tokens := by
  unfold valueProperties
  split
  · exact absurd ‹_› hr
  · exact absurd ‹_› hl
  · rfl

theorem oneAhead_valueProperties (nameSpan : Span) (tokens : List Token) :
    OneAhead (valueProperties nameSpan) tokens := by
  by_cases hl : front tokens = .lparen
  · obtain ⟨t, inner, rfl, ht⟩ := exists_of_front hl nofun
    by_cases hr : front inner = .rparen
    · refine (oneAhead_advance.map fun _ => []).cons fun other hother => ?_
      obtain ⟨close, rest, rfl, hc⟩ := exists_of_front ((front_of_head? hother).trans hr) nofun
      exact valueProperties_parens nameSpan ht hc rest
    · refine (oneAhead_behindOpening t.span inner).cons fun other hother => ?_
      exact valueProperties_lparen nameSpan ht (by rwa [front_of_head? hother])
  by_cases hr : front tokens = .rparen
  · refine (oneAhead_pure [⟨none, none, nameSpan⟩]).congr fun other hother => ?_
    exact valueProperties_bare nameSpan ((front_of_head? hother).trans hr)
  · refine (oneAhead_shorthand tokens).congr fun other hother => ?_
    rw [← front_of_head? hother] at hl hr
    exact valueProperties_of_front nameSpan hl hr

theorem oneAhead_valueTypeBody (start : Span) (tokens : List Token) :
    OneAhead (valueTypeBody start) tokens :=
  (oneAhead_qualifiedName _).bind fun name rest _ => (oneAhead_valueProperties name.2 rest).bind
    fun _ _ _ => (oneAhead_expect ..).map _

/-! ## Enumerations and services -/

theorem oneAhead_enumerationBody (start : Span) (tokens : List Token) :
    OneAhead (enumerationBody start) tokens := by
  refine (oneAhead_qualifiedName _).bind fun _ _ _ => (oneAhead_expect ..).bind fun _ rest _ => ?_
  have hvalues := oneAhead_manyUntil readsFrom_value
    (fun tokens => (oneAhead_simpleName .enumeration).map Prod.fst) rest
  exact hvalues.bind fun _ _ _ => (oneAhead_expect ..).map _

theorem oneAhead_nestedCommand (tokens : List Token) : OneAhead nestedCommand tokens :=
  oneAhead_advance.bind fun start _ _ => (oneAhead_expectWord ..).bind fun _ rest _ =>
    oneAhead_recordBody start .command rest

theorem oneAhead_serviceBody (start : Span) (tokens : List Token) :
    OneAhead (serviceBody start) tokens := by
  refine (oneAhead_qualifiedName _).bind fun _ rest _ => ?_
  refine (oneAhead_many readsFrom_nestedCommand oneAhead_nestedCommand rest).bind
    fun commands _ _ => ?_
  split
  · exact oneAhead_fail ..
  · exact (oneAhead_expect ..).map _

theorem oneAhead_body (start : Span) (kind : Kind) (tokens : List Token) :
    OneAhead (body start kind) tokens := by
  cases kind with
  | record kind =>
    cases kind with
    | valueType => exact (oneAhead_valueTypeBody start tokens).map _
    | command => exact (oneAhead_recordBody start _ tokens).map _
    | domainEvent => exact (oneAhead_recordBody start _ tokens).map _
    | dto => exact (oneAhead_recordBody start _ tokens).map _
  | enumeration => exact (oneAhead_enumerationBody start tokens).map _
  | service => exact (oneAhead_serviceBody start tokens).map _

theorem oneAhead_reader (tokens : List Token) : OneAhead reader tokens := by
  refine (oneAhead_expect ..).bind fun start rest _ => oneAhead_peek ?_
  cases introduces? (front rest) with
  | some kind => exact oneAhead_advance.bind fun _ rest _ => oneAhead_body start kind rest
  | none => exact oneAhead_unexpected ..

end Declaration

/-! ## Documents -/

namespace Document

theorem oneAhead_inheritBlock (tokens : List Token) : OneAhead inheritBlock tokens := by
  refine (oneAhead_expect ..).bind fun _ _ _ => (oneAhead_expectWord ..).bind fun _ _ _ => ?_
  refine (oneAhead_expect ..).bind fun _ rest _ => ?_
  have hnames := oneAhead_manyUntil readsFrom_name
    (fun tokens => (oneAhead_qualifiedName .qualifiedName).map Prod.fst) rest
  exact hnames.bind fun _ _ _ => (oneAhead_expect ..).map _

theorem oneAhead_groups (fuel : Nat) : ∀ (given : Conventions) (tokens : List Token),
    OneAhead (groups fuel given) tokens := by
  induction fuel with
  | zero => exact fun given _ => oneAhead_pure given
  | succ fuel ih =>
    intro given tokens
    have hgroup : ∀ given' : List QualifiedName → Conventions,
        OneAhead (advance >>= fun _ => inheritBlock >>= fun bases => groups fuel (given' bases))
          tokens :=
      fun given' => oneAhead_advance.bind fun _ rest _ => (oneAhead_inheritBlock rest).bind
        fun bases rest _ => ih (given' bases) rest
    refine oneAhead_peek ?_
    generalize front tokens = kind
    cases kind with
    | keyword word =>
      by_cases hd : word = "domainevents"
      · subst hd
        show OneAhead (if given.domainEvents.isSome then _ else _) tokens
        split
        · exact oneAhead_fail ..
        · exact hgroup fun bases => { given with domainEvents := some bases }
      by_cases hc : word = "commands"
      · subst hc
        show OneAhead (if given.commands.isSome then _ else _) tokens
        split
        · exact oneAhead_fail ..
        · exact hgroup fun bases => { given with commands := some bases }
      · simp only
        exact oneAhead_unexpected ..
    | _ => exact oneAhead_pure given

theorem oneAhead_conventionsBody (start : Span) (tokens : List Token) :
    OneAhead (conventionsBody start) tokens :=
  (oneAhead_expectWord ..).bind fun _ rest _ => (oneAhead_groups 3 .empty rest).bind fun _ _ _ =>
    (oneAhead_expect ..).map _

theorem oneAhead_namespaceBody (start : Span) (tokens : List Token) :
    OneAhead (namespaceBody start) tokens :=
  (oneAhead_expectWord ..).bind fun _ _ _ => (oneAhead_qualifiedName _).bind fun _ rest _ =>
    (oneAhead_many readsFrom_declaration Declaration.oneAhead_reader rest).bind fun _ _ _ =>
      (oneAhead_expect ..).map _

/-- A form that is not the first one, behind its opening parenthesis. -/
def laterBody (start : Span) : Parser Namespace := do
  match ← peek with
  | .ident "defconventions" => fail .document .misplacedConventions
  | .ident "namespace" => namespaceBody start
  | _ => unexpected .scope "'namespace'"

theorem laterForm_eq : laterForm = advance >>= laterBody := rfl

theorem oneAhead_laterBody (start : Span) (tokens : List Token) :
    OneAhead (laterBody start) tokens := by
  refine oneAhead_peek ?_
  generalize front tokens = kind
  by_cases hd : kind = .ident "defconventions"
  · subst hd
    exact oneAhead_fail ..
  by_cases hn : kind = .ident "namespace"
  · subst hn
    exact oneAhead_namespaceBody start tokens
  · simp only
    exact oneAhead_unexpected ..

theorem oneAhead_laterForm (tokens : List Token) : OneAhead laterForm tokens :=
  oneAhead_advance.bind fun start rest _ => oneAhead_laterBody start rest

/-- What a source has behind its conventions. -/
def forms (conventions : Option Conventions) : Parser Document := do
  let namespaces ← many (· = .lparen) laterForm
  endOfInput .document
  return ⟨conventions, namespaces⟩

/-- What a source without conventions has behind its first namespace. -/
def formsBehind (first : Namespace) : Parser Document := do
  let others ← many (· = .lparen) laterForm
  endOfInput .document
  return ⟨none, first :: others⟩

theorem reader_eq : reader = leadingConventions >>= forms := rfl

theorem oneAhead_forms (conventions : Option Conventions) (tokens : List Token) :
    OneAhead (forms conventions) tokens :=
  (oneAhead_many readsFrom_laterForm oneAhead_laterForm tokens).bind fun _ _ _ =>
    (oneAhead_endOfInput _).map _

theorem oneAhead_formsBehind (first : Namespace) (tokens : List Token) :
    OneAhead (formsBehind first) tokens :=
  (oneAhead_many readsFrom_laterForm oneAhead_laterForm tokens).bind fun _ _ _ =>
    (oneAhead_endOfInput _).map _

theorem reader_of_not_starts {tokens : List Token} (h : startsWithConventions tokens = false) :
    reader tokens = forms none tokens := by
  have hnone : leadingConventions tokens = .ok (none, tokens) := by
    unfold leadingConventions
    rw [h]
    rfl
  rw [reader_eq, bind_of_ok hnone]

theorem reader_conventions {t : Token} (ht : t.kind = .lparen) {tokens : List Token}
    (hf : front tokens = .ident "defconventions") :
    reader (t :: tokens) = (conventionsBody t.span >>= fun c => forms (some c)) tokens := by
  have hstarts : startsWithConventions (t :: tokens) = true :=
    Bool.and_eq_true_iff.2 ⟨decide_eq_true ht, decide_eq_true hf⟩
  have hleading : leadingConventions (t :: tokens) = (some <$> conventionsBody t.span) tokens :=
    if_pos hstarts
  rw [reader_eq, bind_congr_apply hleading]
  simp only [map_eq_pure_bind, bind_assoc, pure_bind]

theorem reader_namespace {t : Token} (ht : t.kind = .lparen) {tokens : List Token}
    (hf : front tokens ≠ .ident "defconventions") :
    reader (t :: tokens) = (laterBody t.span >>= formsBehind) tokens := by
  have hstarts : startsWithConventions (t :: tokens) = false := by
    rw [startsWithConventions, Bool.and_eq_false_iff]
    exact Or.inr (decide_eq_false hf)
  have hmany : many (· = .lparen) laterForm (t :: tokens) = (laterBody t.span >>= fun first =>
      many (· = .lparen) laterForm >>= fun others => pure (first :: others)) tokens := by
    have hopen : front (t :: tokens) = .lparen := ht
    rw [many_eq readsFrom_laterForm, if_pos (decide_eq_true hopen), laterForm_eq]
    rfl
  rw [reader_of_not_starts hstarts, forms, bind_congr_apply hmany]
  simp only [bind_assoc, pure_bind]
  rfl

/-- **The reader of a document looks one token ahead.** -/
theorem oneAhead_reader (tokens : List Token) : OneAhead reader tokens := by
  by_cases hl : front tokens = .lparen
  · obtain ⟨t, inner, rfl, ht⟩ := exists_of_front hl nofun
    by_cases hd : front inner = .ident "defconventions"
    · have hform : OneAhead (conventionsBody t.span >>= fun c => forms (some c)) inner :=
        (oneAhead_conventionsBody _ inner).bind fun c rest _ => oneAhead_forms (some c) rest
      exact hform.cons fun other hother => reader_conventions ht ((front_of_head? hother).trans hd)
    · have hform : OneAhead (laterBody t.span >>= formsBehind) inner :=
        (oneAhead_laterBody _ inner).bind fun first rest _ => oneAhead_formsBehind first rest
      exact hform.cons fun other hother => reader_namespace ht (by rwa [front_of_head? hother])
  · refine (oneAhead_forms none tokens).congr fun other hother => reader_of_not_starts ?_
    rw [← front_of_head? hother] at hl
    rw [startsWithConventions, Bool.and_eq_false_iff]
    exact Or.inl (decide_eq_false hl)

end Document

/-! ## Sources -/

namespace Grammar.Parser

open Token (significant)

variable {α : Type} {view : α → α} {p : Parser α}

/-- **A fault is one for good.**  A parser that looks one token ahead and not at places, and that
stops at a token, accepts nothing that has tokens of the same kinds up to there. -/
theorem refuses_of_oneAhead (h : ∀ tokens, OneAhead p tokens) (hplace : PlaceFree view p p)
    {before after : List Token} {t : Token} {fault : Fault}
    (hfault : p (before ++ t :: after) = .error fault) (hrest : fault.rest = t :: after)
    {tokens : List Token}
    (hkinds : before.map Token.kind ++ [t.kind] <+: tokens.map Token.kind) :
    ∃ fault', p tokens = .error fault' := by
  obtain ⟨more, hmore⟩ := hkinds
  have htokens : tokens.map Token.unplaced =
      before.map Token.unplaced ++ t.unplaced :: more.map fun kind => ⟨kind, .none⟩ := by
    rw [map_unplaced tokens, ← hmore, map_unplaced before]
    simp only [List.map_append, List.append_assoc]
    rfl
  have hread := hplace.apply_eq (before ++ t :: after)
  rw [hfault] at hread
  obtain ⟨used, hused, hsame⟩ := h ((before ++ t :: after).map Token.unplaced)
  rw [hread] at hused hsame
  have hleft : left (.error fault.unplaced : Except Fault (α × List Token)) =
      (t :: after).map Token.unplaced :=
    congrArg (List.map Token.unplaced) hrest
  have hbefore : used = before.map Token.unplaced := by
    rw [hleft, List.map_append] at hused
    exact (List.append_cancel_right hused).symm
  have hother := hsame (t.unplaced :: more.map fun kind => ⟨kind, .none⟩) (by rw [hleft]; rfl)
  rw [hbefore, ← htokens, hplace.apply_eq tokens] at hother
  cases hr : p tokens with
  | error fault' => exact ⟨fault', rfl⟩
  | ok r =>
    rw [hr] at hother
    cases hother

end Grammar.Parser

end DomainForms
