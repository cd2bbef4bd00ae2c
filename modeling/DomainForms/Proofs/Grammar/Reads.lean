import DomainForms.Proofs.Grammar.Derivation

/-!
# Parsers that read a rule

A parser reads a rule of the grammar when it succeeds on exactly the phrases of the rule and gives
the tree of the phrase, up to places.  Everything in the language apart from types closes itself with
a mark or is a single word, so that what stands behind a phrase does not matter.

* `Grammar.Spells`: the tokens in front are of given kinds, and the others are left.
* `Grammar.Parser.Reads`: a parser reads a rule.
* `Grammar.Parser.exists_of_expect`, `Grammar.Parser.qualifiedName_eq_ok`: when one token is read.
* `Grammar.Parser.many_sound`, `Grammar.Parser.many_complete`: a loop reads the phrases of a rule one
  behind the other.
-/

namespace DomainForms.Grammar

open Token (Kind)

/-! ## Tokens in front -/

/-- The tokens in front are of the given kinds, and `rest` is what follows them. -/
def Spells : List Kind → List Token → List Token → Prop
  | [], tokens, rest => tokens = rest
  | kind :: kinds, tokens, rest =>
    ∃ t others, tokens = t :: others ∧ t.kind = kind ∧ Spells kinds others rest

@[simp] theorem spells_nil {tokens rest : List Token} : Spells [] tokens rest ↔ tokens = rest :=
  Iff.rfl

theorem Spells.cons {kind : Kind} {kinds : List Kind} {t : Token} {tokens rest : List Token}
    (ht : t.kind = kind) (h : Spells kinds tokens rest) :
    Spells (kind :: kinds) (t :: tokens) rest :=
  ⟨t, tokens, rfl, ht, h⟩

theorem Spells.single {kind : Kind} {t : Token} {rest : List Token} (ht : t.kind = kind) :
    Spells [kind] (t :: rest) rest :=
  .cons ht rfl

theorem spells_append {kinds more : List Kind} {tokens rest : List Token} :
    Spells (kinds ++ more) tokens rest ↔
      ∃ middle, Spells kinds tokens middle ∧ Spells more middle rest := by
  induction kinds generalizing tokens with
  | nil => simp
  | cons kind kinds ih =>
    constructor
    · rintro ⟨t, others, rfl, ht, h⟩
      obtain ⟨middle, hm, hr⟩ := ih.1 h
      exact ⟨middle, .cons ht hm, hr⟩
    · rintro ⟨middle, ⟨t, others, rfl, ht, hm⟩, hr⟩
      exact .cons ht (ih.2 ⟨middle, hm, hr⟩)

theorem Spells.append {kinds more : List Kind} {tokens middle rest : List Token}
    (h : Spells kinds tokens middle) (hm : Spells more middle rest) :
    Spells (kinds ++ more) tokens rest :=
  spells_append.2 ⟨middle, h, hm⟩

theorem Spells.map_kind {kinds : List Kind} {tokens rest : List Token}
    (h : Spells kinds tokens rest) : tokens.map Token.kind = kinds ++ rest.map Token.kind := by
  induction kinds generalizing tokens with
  | nil => rw [spells_nil.1 h, List.nil_append]
  | cons kind kinds ih =>
    obtain ⟨t, others, rfl, ht, h⟩ := h
    rw [List.map_cons, ih h, ht, List.cons_append]

theorem Spells.length_eq {kinds : List Kind} {tokens rest : List Token}
    (h : Spells kinds tokens rest) : tokens.length = kinds.length + rest.length := by
  simpa using congrArg List.length h.map_kind

theorem spells_of_append (used rest : List Token) :
    Spells (used.map Token.kind) (used ++ rest) rest := by
  induction used with
  | nil => rfl
  | cons t used ih => exact .cons rfl ih

theorem Spells.exists_append {kinds : List Kind} {tokens rest : List Token}
    (h : Spells kinds tokens rest) :
    ∃ used, tokens = used ++ rest ∧ used.map Token.kind = kinds := by
  induction kinds generalizing tokens with
  | nil => exact ⟨[], h, rfl⟩
  | cons kind kinds ih =>
    obtain ⟨t, others, rfl, ht, h⟩ := h
    obtain ⟨used, rfl, hused⟩ := ih h
    exact ⟨t :: used, rfl, by rw [List.map_cons, ht, hused]⟩

theorem Spells.front_eq {kind : Kind} {kinds : List Kind} {tokens rest : List Token}
    (h : Spells (kind :: kinds) tokens rest) : Parser.front tokens = kind := by
  obtain ⟨t, others, rfl, ht, -⟩ := h
  exact ht

theorem Repeated.append {α : Type} {rule : Rule α} {kinds more : List Kind}
    {items others : List α} (h : Repeated rule kinds items) (hm : Repeated rule more others) :
    Repeated rule (kinds ++ more) (items ++ others) := by
  induction h with
  | nil => exact hm
  | cons ha _ ih =>
    rw [List.append_assoc]
    exact .cons ha ih

namespace Parser

variable {α β : Type}

/-! ## One step -/

theorem pure_eq_ok {a b : α} {tokens rest : List Token} :
    (pure a : Parser α) tokens = .ok (b, rest) ↔ a = b ∧ tokens = rest := by
  show Except.ok (a, tokens) = .ok (b, rest) ↔ _
  simp

theorem map_eq_ok {f : α → β} {p : Parser α} {tokens rest : List Token} {b : β} :
    (f <$> p) tokens = .ok (b, rest) ↔ ∃ a, p tokens = .ok (a, rest) ∧ f a = b := by
  show (p >>= fun a => pure (f a)) tokens = _ ↔ _
  rw [bind_eq_ok]
  constructor
  · rintro ⟨a, middle, ha, hf⟩
    obtain ⟨rfl, rfl⟩ := pure_eq_ok.1 hf
    exact ⟨a, ha, rfl⟩
  · rintro ⟨a, ha, rfl⟩
    exact ⟨a, rest, ha, rfl⟩

theorem bind_of_ok {p : Parser α} {next : α → Parser β} {tokens rest : List Token} {a : α}
    (h : p tokens = .ok (a, rest)) : (p >>= next) tokens = next a rest := by
  show Parser.bind p next tokens = _
  unfold Parser.bind
  rw [h]

theorem bind_congr_apply {p q : Parser α} {next : α → Parser β} {tokens rest : List Token}
    (h : p tokens = q rest) : (p >>= next) tokens = (q >>= next) rest := by
  show Parser.bind p next tokens = Parser.bind q next rest
  unfold Parser.bind
  rw [h]

theorem bind_pure_apply (p : Parser α) (tokens : List Token) : (p >>= pure) tokens = p tokens := by
  show Parser.bind p pure tokens = _
  unfold Parser.bind
  cases p tokens <;> rfl

theorem bind_bind_apply {γ : Type} (p : Parser α) (f : α → Parser β) (g : β → Parser γ)
    (tokens : List Token) : ((p >>= f) >>= g) tokens = (p >>= fun a => f a >>= g) tokens := by
  show Parser.bind (Parser.bind p f) g tokens = Parser.bind p (fun a => Parser.bind (f a) g) tokens
  unfold Parser.bind
  cases p tokens <;> rfl

instance : LawfulMonad Parser :=
  LawfulMonad.mk' Parser (fun p => funext (bind_pure_apply p)) (fun _ _ => rfl)
    fun p f g => funext (bind_bind_apply p f g)

theorem peek_bind (next : Kind → Parser β) (tokens : List Token) :
    (peek >>= next) tokens = next (front tokens) tokens :=
  rfl

theorem advance_bind (next : Span → Parser β) (t : Token) (tokens : List Token) :
    (advance >>= next) (t :: tokens) = next t.span tokens :=
  rfl

theorem branch_apply {c : Prop} [Decidable c] (p q : Parser α) (tokens : List Token) :
    (if c then p else q) tokens = if c then p tokens else q tokens := by
  split <;> rfl

theorem fail_ne_ok {production : Production} {cause : Cause} {tokens rest : List Token} {a : α} :
    (fail production cause : Parser α) tokens ≠ .ok (a, rest) :=
  nofun

theorem unexpected_ne_ok {production : Production} {expected : String} {tokens rest : List Token}
    {a : α} : (unexpected production expected : Parser α) tokens ≠ .ok (a, rest) :=
  nofun

theorem exists_of_front {kind : Kind} {tokens : List Token} (h : front tokens = kind)
    (hk : kind ≠ .eof) : ∃ t others, tokens = t :: others ∧ t.kind = kind := by
  cases tokens with
  | nil => exact absurd h.symm hk
  | cons t others => exact ⟨t, others, rfl, h⟩

theorem advance_of_front {kind : Kind} {tokens : List Token} (h : front tokens = kind)
    (hk : kind ≠ .eof) {s : Span} {rest : List Token} :
    advance tokens = .ok (s, rest) ↔ ∃ t, tokens = t :: rest ∧ t.kind = kind ∧ t.span = s := by
  obtain ⟨t, others, rfl, ht⟩ := exists_of_front h hk
  show Except.ok (t.span, others) = .ok (s, rest) ↔ _
  constructor
  · intro h
    cases h
    exact ⟨t, rfl, ht, rfl⟩
  · rintro ⟨t', heq, -, rfl⟩
    cases heq
    rfl

theorem expect_of_kind {kind : Kind} {t : Token} (ht : t.kind = kind) (production : Production)
    (rest : List Token) : expect kind production (t :: rest) = .ok (t.span, rest) := by
  unfold expect
  rw [peek_bind, branch_apply, if_pos (show front (t :: rest) = kind from ht)]
  rfl

theorem exists_of_expect {kind : Kind} {production : Production} {tokens rest : List Token}
    {s : Span} (h : expect kind production tokens = .ok (s, rest)) (hk : kind ≠ .eof) :
    ∃ t, tokens = t :: rest ∧ t.kind = kind ∧ t.span = s := by
  unfold expect at h
  rw [peek_bind, branch_apply] at h
  by_cases hf : front tokens = kind
  · rw [if_pos hf] at h
    exact (advance_of_front hf hk).1 h
  · rw [if_neg hf] at h
    exact absurd h unexpected_ne_ok

/-- A given word is a mark that is named differently in a fault. -/
theorem expectWord_eq_ok {word : String} {production : Production} {tokens rest : List Token}
    {s : Span} :
    expectWord word production tokens = .ok (s, rest) ↔
      ∃ t, tokens = t :: rest ∧ t.kind = .ident word ∧ t.span = s := by
  unfold expectWord
  rw [peek_bind, branch_apply]
  by_cases h : front tokens = .ident word
  · rw [if_pos h]
    exact advance_of_front h nofun
  · rw [if_neg h]
    constructor
    · intro hu
      exact absurd hu unexpected_ne_ok
    · rintro ⟨t, rfl, ht, -⟩
      exact absurd ht h

/-- The parser of an identifier that is not refused, which both kinds of names are read by. -/
def unrefused (refuse : String → Bool) (cause : String → Cause) (expected : String)
    (production : Production) : Parser (String × Span) := do
  match ← peek with
  | .ident name =>
    if refuse name then
      fail production (cause name)
    else
      return (name, ← advance)
  | _ => unexpected production expected

theorem qualifiedName_eq_unrefused (production : Production) :
    qualifiedName production = unrefused isReserved .reservedName "a name" production :=
  rfl

theorem simpleName_eq_unrefused (production : Production) :
    simpleName production = unrefused Text.isDotted .dottedName "an identifier" production :=
  rfl

theorem unrefused_eq_ok {refuse : String → Bool} {cause : String → Cause} {expected : String}
    {production : Production} {tokens rest : List Token} {name : String} {s : Span} :
    unrefused refuse cause expected production tokens = .ok ((name, s), rest) ↔
      ∃ t, tokens = t :: rest ∧ t.kind = .ident name ∧ refuse name = false ∧ t.span = s := by
  cases tokens with
  | nil => exact ⟨nofun, nofun⟩
  | cons t others =>
    obtain ⟨kind, span⟩ := t
    cases kind with
    | ident word =>
      show (if refuse word then fail production (cause word)
        else advance >>= fun s => pure (word, s) : Parser (String × Span)) _ = _ ↔ _
      rw [branch_apply]
      by_cases hr : refuse word
      · rw [if_pos hr]
        refine ⟨fun h => absurd h fail_ne_ok, ?_⟩
        rintro ⟨t, heq, ht, hn, -⟩
        cases heq
        cases ht
        rw [hn] at hr
        cases hr
      · rw [if_neg hr, advance_bind, pure_eq_ok]
        constructor
        · rintro ⟨heq, rfl⟩
          cases heq
          exact ⟨_, rfl, rfl, Bool.eq_false_iff.2 hr, rfl⟩
        · rintro ⟨t, heq, ht, -, rfl⟩
          cases heq
          cases ht
          exact ⟨rfl, rfl⟩
    | _ =>
      refine ⟨nofun, ?_⟩
      rintro ⟨t, heq, ht, -⟩
      cases heq
      cases ht

theorem qualifiedName_eq_ok {production : Production} {tokens rest : List Token} {name : String}
    {s : Span} :
    qualifiedName production tokens = .ok ((name, s), rest) ↔
      ∃ t, tokens = t :: rest ∧ t.kind = .ident name ∧ isReserved name = false ∧ t.span = s := by
  rw [qualifiedName_eq_unrefused, unrefused_eq_ok]

theorem simpleName_eq_ok {production : Production} {tokens rest : List Token} {name : String}
    {s : Span} :
    simpleName production tokens = .ok ((name, s), rest) ↔
      ∃ t, tokens = t :: rest ∧ t.kind = .ident name ∧ Text.isDotted name = false ∧
        t.span = s := by
  rw [simpleName_eq_unrefused, unrefused_eq_ok]

/-! ## Reading a rule -/

/-- A parser reads a rule: what it takes is a phrase of the rule, and it takes every phrase, whatever
stands behind.  `view` is what counts of a result, usually the tree without its places. -/
structure Reads (p : Parser α) (view : α → β) (rule : Rule β) : Prop where
  /-- What is taken is a phrase. -/
  sound {tokens rest : List Token} {a : α} :
    p tokens = .ok (a, rest) → ∃ kinds, Spells kinds tokens rest ∧ rule kinds (view a)
  /-- Every phrase is taken. -/
  complete {tokens rest : List Token} {kinds : List Kind} {b : β} :
    rule kinds b → Spells kinds tokens rest → ∃ a, p tokens = .ok (a, rest) ∧ view a = b

theorem reads_qualifiedName (production : Production) :
    Reads (qualifiedName production) Prod.fst NameForm where
  sound := by
    rintro tokens rest ⟨name, s⟩ h
    obtain ⟨t, rfl, ht, hn, -⟩ := qualifiedName_eq_ok.1 h
    exact ⟨_, .single ht, .mk hn⟩
  complete := by
    rintro tokens rest kinds name ⟨hn⟩ ⟨t, others, rfl, ht, rfl⟩
    exact ⟨(name, t.span), qualifiedName_eq_ok.2 ⟨t, rfl, ht, hn, rfl⟩, rfl⟩

theorem reads_simpleName (production : Production) :
    Reads (simpleName production) Prod.fst SimpleForm where
  sound := by
    rintro tokens rest ⟨name, s⟩ h
    obtain ⟨t, rfl, ht, hn, -⟩ := simpleName_eq_ok.1 h
    exact ⟨_, .single ht, .mk hn⟩
  complete := by
    rintro tokens rest kinds name ⟨hn⟩ ⟨t, others, rfl, ht, rfl⟩
    exact ⟨(name, t.span), simpleName_eq_ok.2 ⟨t, rfl, ht, hn, rfl⟩, rfl⟩

theorem Reads.map {p : Parser α} {view : α → β} {rule : Rule β} (h : Reads p view rule) :
    Reads (view <$> p) id rule where
  sound := by
    intro tokens rest b hb
    obtain ⟨a, ha, rfl⟩ := map_eq_ok.1 hb
    exact h.sound ha
  complete := by
    intro tokens rest kinds b hb hs
    obtain ⟨a, ha, rfl⟩ := h.complete hb hs
    exact ⟨view a, map_eq_ok.2 ⟨a, ha, rfl⟩, rfl⟩

/-! ## Many items -/

/-- A parser reads the phrases of a rule as items of a loop: they start with one of some kinds of
tokens, and only where one of these stands in front is an item read. -/
structure ReadsFrom (starts : Kind → Bool) (p : Parser α) (view : α → β) (rule : Rule β) :
    Prop where
  /-- A phrase starts as an item does. -/
  first {kinds : List Kind} {b : β} :
    rule kinds b → ∃ kind more, kinds = kind :: more ∧ starts kind = true
  /-- What is taken where an item starts is a phrase. -/
  sound {tokens rest : List Token} {a : α} :
    starts (front tokens) = true → p tokens = .ok (a, rest) →
      ∃ kinds, Spells kinds tokens rest ∧ rule kinds (view a)
  /-- Every phrase is taken. -/
  complete {tokens rest : List Token} {kinds : List Kind} {b : β} :
    rule kinds b → Spells kinds tokens rest → ∃ a, p tokens = .ok (a, rest) ∧ view a = b

section Many

variable {starts : Kind → Bool} {item : Parser α} {view : α → β} {rule : Rule β}

theorem Reads.readsFrom (h : Reads item view rule)
    (first : ∀ {kinds b}, rule kinds b → ∃ kind more, kinds = kind :: more ∧ starts kind = true) :
    ReadsFrom starts item view rule :=
  ⟨first, fun _ => h.sound, h.complete⟩

/-- A loop with enough fuel for every token takes a row of phrases and stops where no item starts. -/
theorem atMost_sound (hr : ReadsFrom starts item view rule) :
    ∀ {fuel : Nat} {tokens rest : List Token} {items : List α}, tokens.length < fuel →
      atMost starts item fuel tokens = .ok (items, rest) →
      starts (front rest) = false ∧
        ∃ kinds, Spells kinds tokens rest ∧ Repeated rule kinds (items.map view) := by
  intro fuel
  induction fuel with
  | zero =>
    intro tokens rest items hf
    exact absurd hf (Nat.not_lt_zero _)
  | succ fuel ih =>
    intro tokens rest items hf h
    unfold atMost at h
    rw [peek_bind, branch_apply] at h
    by_cases hs : starts (front tokens)
    · rw [if_pos hs] at h
      obtain ⟨first, middle, hfirst, h⟩ := bind_eq_ok.1 h
      obtain ⟨others, rest', hothers, h⟩ := bind_eq_ok.1 h
      obtain ⟨rfl, rfl⟩ := pure_eq_ok.1 h
      obtain ⟨kinds, hk, hfirst⟩ := hr.sound hs hfirst
      -- The first item takes a token, so what is left is shorter.
      have hfuel : middle.length < fuel := by
        obtain ⟨kind, more, rfl, -⟩ := hr.first hfirst
        have hlen := hk.length_eq
        rw [List.length_cons] at hlen
        omega
      obtain ⟨hstop, more, hm, hothers⟩ := ih hfuel hothers
      exact ⟨hstop, kinds ++ more, hk.append hm, .cons hfirst hothers⟩
    · rw [if_neg hs] at h
      obtain ⟨rfl, rfl⟩ := pure_eq_ok.1 h
      exact ⟨Bool.eq_false_iff.2 hs, [], rfl, .nil⟩

/-- A loop takes a whole row of phrases, if no item starts behind them. -/
theorem atMost_complete (hr : ReadsFrom starts item view rule) {rest : List Token}
    (hrest : starts (front rest) = false) :
    ∀ {kinds : List Kind} {bs : List β}, Repeated rule kinds bs →
      ∀ (fuel : Nat) {tokens : List Token}, tokens.length < fuel → Spells kinds tokens rest →
      ∃ items, atMost starts item fuel tokens = .ok (items, rest) ∧ items.map view = bs := by
  intro kinds bs h
  induction h with
  | nil =>
    intro fuel tokens hf hs
    cases hs
    obtain ⟨fuel, rfl⟩ := Nat.exists_eq_succ_of_ne_zero (Nat.ne_zero_of_lt hf)
    refine ⟨[], ?_, rfl⟩
    unfold atMost
    rw [peek_bind, hrest]
    rfl
  | @cons kinds more b bs hb _ ih =>
    intro fuel tokens hf hs
    obtain ⟨fuel, rfl⟩ := Nat.exists_eq_succ_of_ne_zero (Nat.ne_zero_of_lt hf)
    obtain ⟨middle, hk, hm⟩ := spells_append.1 hs
    obtain ⟨first, hfirst, rfl⟩ := hr.complete hb hk
    obtain ⟨kind, others, rfl, hkind⟩ := hr.first hb
    have hlen := hk.length_eq
    rw [List.length_cons] at hlen
    obtain ⟨items, hitems, rfl⟩ := ih fuel (by omega) hm
    refine ⟨first :: items, ?_, rfl⟩
    unfold atMost
    rw [peek_bind, branch_apply, hk.front_eq, if_pos hkind, bind_of_ok hfirst, bind_of_ok hitems]
    rfl

theorem many_sound (hr : ReadsFrom starts item view rule) {tokens rest : List Token}
    {items : List α} (h : many starts item tokens = .ok (items, rest)) :
    starts (front rest) = false ∧
      ∃ kinds, Spells kinds tokens rest ∧ Repeated rule kinds (items.map view) :=
  atMost_sound hr (Nat.lt_succ_self _) h

theorem many_complete (hr : ReadsFrom starts item view rule) {kinds : List Kind} {bs : List β}
    {tokens rest : List Token} (h : Repeated rule kinds bs) (hs : Spells kinds tokens rest)
    (hrest : starts (front rest) = false) :
    ∃ items, many starts item tokens = .ok (items, rest) ∧ items.map view = bs :=
  atMost_complete hr hrest h _ (Nat.lt_succ_self _) hs

/-- A row of items and the mark that closes it. -/
inductive Closed (rule : Rule β) (close : Kind) : Rule (List β)
  | mk {kinds : List Kind} {bs : List β} :
      Repeated rule kinds bs → Closed rule close (kinds ++ [close]) bs

/-- Items up to a closing mark are a row of phrases and the mark. -/
theorem ReadsFrom.manyUntil {close : Kind} (hr : ReadsFrom (· ≠ close) item view rule)
    (hclose : close ≠ .eof) :
    Reads (manyUntil close item) (List.map view) (Closed rule close) where
  sound := by
    intro tokens rest items h
    obtain ⟨items', middle, hmany, h⟩ := bind_eq_ok.1 h
    obtain ⟨s, rest', hadvance, h⟩ := bind_eq_ok.1 h
    obtain ⟨rfl, rfl⟩ := pure_eq_ok.1 h
    obtain ⟨hstop, kinds, hk, hitems⟩ := many_sound hr hmany
    have hfront : front middle = close := Decidable.not_not.1 (of_decide_eq_false hstop)
    obtain ⟨t, rfl, ht, -⟩ := (advance_of_front hfront hclose).1 hadvance
    exact ⟨_, hk.append (.single ht), .mk hitems⟩
  complete := by
    rintro tokens rest _ bs ⟨h⟩ hs
    obtain ⟨middle, hk, t, others, rfl, ht, rfl⟩ := spells_append.1 hs
    have hstop : decide (front (t :: others) ≠ close) = false := decide_eq_false (not_not_intro ht)
    obtain ⟨items, hitems, rfl⟩ := many_complete hr h hk hstop
    exact ⟨items, bind_eq_ok.2 ⟨items, t :: others, hitems, rfl⟩, rfl⟩

end Many

end Parser

end DomainForms.Grammar
