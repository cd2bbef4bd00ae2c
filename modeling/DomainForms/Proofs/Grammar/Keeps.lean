import DomainForms.Proofs.Grammar.Documents
import DomainForms.Proofs.Layout
import Mathlib.Computability.MyhillNerode

/-!
# Keeping to a language

The phrases of a rule are a language over kinds of tokens.  A parser keeps to a language when what
it takes is in the language and what it takes before a fault begins a member of it, so that it never
goes on behind a token that makes a phrase impossible.

One parser after another keeps to the product of the two languages.  Where what comes next depends
on the tree that was read, it keeps to what the tokens before leave of the language, their left
quotient.

* `Grammar.phrases`: the language of a rule.
* `Grammar.IsViable`: the beginning of a member of a language, with a rest that can be written.
* `Grammar.Parser.Keeps`: a parser keeps to a language.
* `Grammar.Parser.Keeps.bind`, `Grammar.Parser.Keeps.seq`, `Grammar.Parser.Keeps.mark`,
  `Grammar.Parser.keeps_many`: how it is kept.
-/

namespace DomainForms

/-- Whether a token can be part of a phrase: it is a mark or a word. -/
def Token.Kind.isPhraseToken : Token.Kind → Bool
  | comment _ => false
  | eof => false
  | fault _ => false
  | _ => true

theorem Token.Kind.isSpellable_eq (kind : Token.Kind) :
    kind.isSpellable = (kind.isPhraseToken && kind.isLexical) := by
  cases kind <;> rfl

theorem Token.Kind.isPhraseToken_of_isSpellable {kind : Token.Kind} (h : kind.isSpellable = true) :
    kind.isPhraseToken = true := by
  rw [isSpellable_eq, Bool.and_eq_true] at h
  exact h.1

namespace Grammar

open Token (Kind)

variable {α β : Type}

/-! ## Beginnings of phrases -/

/-- The phrases of a rule, whatever trees they stand for. -/
def phrases (rule : Rule α) : Language Kind := {kinds | ∃ tree, rule kinds tree}

/-- Some tokens that can be written complete `kinds` to a member of the language. -/
def IsViable (L : Language Kind) (kinds : List Kind) : Prop :=
  ∃ more, (∀ kind ∈ more, kind.isSpellable = true) ∧ kinds ++ more ∈ L

theorem IsViable.of_mem {L : Language Kind} {kinds : List Kind} (h : kinds ∈ L) :
    IsViable L kinds :=
  ⟨[], nofun, by rwa [List.append_nil]⟩

theorem IsViable.mono {L L' : Language Kind} {kinds : List Kind} (h : IsViable L kinds)
    (hle : ∀ kinds ∈ L, kinds ∈ L') : IsViable L' kinds := by
  obtain ⟨more, hmore, hmem⟩ := h
  exact ⟨more, hmore, hle _ hmem⟩

/-- What begins a member of one language begins a member of another, if the members of the first one
do. -/
theorem IsViable.trans {L L' : Language Kind} {kinds : List Kind} (h : IsViable L kinds)
    (hcomplete : ∀ kinds ∈ L, IsViable L' kinds) : IsViable L' kinds := by
  obtain ⟨more, hmore, hmem⟩ := h
  obtain ⟨last, hlast, hmem'⟩ := hcomplete _ hmem
  refine ⟨more ++ last, ?_, by rwa [← List.append_assoc]⟩
  intro kind hk
  rcases List.mem_append.1 hk with hk | hk
  · exact hmore kind hk
  · exact hlast kind hk

theorem IsViable.mul {L L' : Language Kind} {kinds : List Kind} (h : kinds ∈ L)
    (h' : IsViable L' []) : IsViable (L * L') kinds := by
  obtain ⟨more, hmore, hmem⟩ := h'
  exact ⟨more, hmore, kinds, h, more, hmem, rfl⟩

theorem IsViable.mul_nil {L L' : Language Kind} (h : IsViable L []) (h' : IsViable L' []) :
    IsViable (L * L') [] :=
  h.trans fun _ hk => .mul hk h'

theorem isViable_mark {kind : Kind} (h : kind.isSpellable = true) :
    IsViable {[kind]} [] :=
  ⟨[kind], fun k hk => by rwa [List.mem_singleton.1 hk], rfl⟩

theorem IsViable.of_leftQuotient {L : Language Kind} {kind : Kind}
    (h : IsViable (L.leftQuotient [kind]) []) (hk : kind.isSpellable = true) : IsViable L [] :=
  (isViable_mark hk).trans fun _ hkinds => by
    rw [show _ = [kind] from hkinds]
    exact h

theorem IsViable.leftQuotient {L : Language Kind} {kinds : List Kind} (h : IsViable L kinds) :
    IsViable (L.leftQuotient kinds) [] :=
  h

theorem nil_mem_repeated (rule : Rule α) : [] ∈ phrases (Repeated rule) :=
  ⟨[], .nil⟩

/-- The tokens in front, up to `rest`, are of the given kinds, and each is a mark or a word. -/
structure Takes (kinds : List Kind) (tokens rest : List Token) : Prop where
  /-- They are of these kinds. -/
  spells : Spells kinds tokens rest
  /-- They can be part of a phrase. -/
  isPhraseToken : ∀ kind ∈ kinds, kind.isPhraseToken = true

theorem Takes.nil {tokens : List Token} : Takes [] tokens tokens :=
  ⟨rfl, nofun⟩

theorem Takes.single {t : Token} {rest : List Token} (h : t.kind.isPhraseToken = true) :
    Takes [t.kind] (t :: rest) rest :=
  ⟨.single rfl, fun kind hk => by rwa [List.mem_singleton.1 hk]⟩

theorem Takes.of_spells {kinds kinds' : List Kind} {tokens rest : List Token}
    (h : Takes kinds tokens rest) (hs : Spells kinds' tokens rest) : Takes kinds' tokens rest := by
  have heq : kinds = kinds' := List.append_cancel_right (h.spells.map_kind.symm.trans hs.map_kind)
  exact heq ▸ h

theorem Takes.append {kinds more : List Kind} {tokens middle rest : List Token}
    (h : Takes kinds tokens middle) (h' : Takes more middle rest) :
    Takes (kinds ++ more) tokens rest := by
  refine ⟨h.spells.append h'.spells, fun kind hk => ?_⟩
  rcases List.mem_append.1 hk with hk | hk
  · exact h.isPhraseToken kind hk
  · exact h'.isPhraseToken kind hk

namespace Parser

/-! ## Keeping to a language -/

/-- A parser keeps to a language on some tokens: what it takes is a member, and what it takes before
a fault begins one. -/
structure Keeps (L : Language Kind) (p : Parser α) (tokens : List Token) : Prop where
  /-- What is taken is in the language. -/
  taken {a : α} {rest : List Token} :
    p tokens = .ok (a, rest) → ∃ kinds ∈ L, Takes kinds tokens rest
  /-- What is taken before a fault can be completed. -/
  refused {fault : Fault} :
    p tokens = .error fault → ∃ kinds, Takes kinds tokens fault.rest ∧ IsViable L kinds

variable {L L' : Language Kind} {p : Parser α} {next : α → Parser β} {tokens : List Token}

theorem Keeps.mono (h : Keeps L p tokens) (hle : ∀ kinds ∈ L, kinds ∈ L') :
    Keeps L' p tokens where
  taken hok := by
    obtain ⟨kinds, hmem, hk⟩ := h.taken hok
    exact ⟨kinds, hle kinds hmem, hk⟩
  refused herror := by
    obtain ⟨kinds, hk, hviable⟩ := h.refused herror
    exact ⟨kinds, hk, hviable.mono hle⟩

/-- A language that a parser keeps to where there is nothing to take has a member that can be
written. -/
theorem Keeps.isViable (h : Keeps L p []) : IsViable L [] := by
  have hnil : ∀ {kinds rest}, Takes kinds [] rest → kinds = [] := by
    intro kinds rest htakes
    have hlen := htakes.spells.length_eq
    exact List.eq_nil_of_length_eq_zero (by simp at hlen; omega)
  cases hr : p [] with
  | ok r =>
    obtain ⟨kinds, hmem, htakes⟩ := h.taken hr
    cases hnil htakes
    exact .of_mem hmem
  | error fault =>
    obtain ⟨kinds, htakes, hviable⟩ := h.refused hr
    cases hnil htakes
    exact hviable

theorem Keeps.congr {q : Parser α} (h : Keeps L q tokens) (heq : p tokens = q tokens) :
    Keeps L p tokens where
  taken hok := h.taken (heq ▸ hok)
  refused herror := h.refused (heq ▸ herror)

theorem keeps_peek {next : Kind → Parser α} (h : Keeps L (next (front tokens)) tokens) :
    Keeps L (peek >>= next) tokens :=
  h.congr rfl

theorem keeps_here {next : Span → Parser α} (h : ∀ s, Keeps L (next s) tokens) :
    Keeps L (here >>= next) tokens :=
  (h _).congr rfl

theorem Keeps.of_single {kinds : List Kind} (h : Keeps {kinds} p tokens) (hmem : kinds ∈ L) :
    Keeps L p tokens := by
  refine h.mono ?_
  rintro _ rfl
  exact hmem

theorem keeps_pure (a : α) (h : [] ∈ L) : Keeps L (pure a : Parser α) tokens where
  taken hok := by
    obtain ⟨-, rfl⟩ := pure_eq_ok.1 hok
    exact ⟨[], h, .nil⟩
  refused := nofun

/-- One parser, then another, which keeps to what the tokens before leave of the language. -/
theorem Keeps.bind (hp : Keeps L' p tokens) (hviable : ∀ kinds ∈ L', IsViable L kinds)
    (hnext : ∀ a rest, p tokens = .ok (a, rest) →
      ∃ kinds, Takes kinds tokens rest ∧ Keeps (L.leftQuotient kinds) (next a) rest) :
    Keeps L (p >>= next) tokens where
  taken hok := by
    obtain ⟨a, middle, ha, hrest⟩ := bind_eq_ok.1 hok
    obtain ⟨kinds, hk, hkeeps⟩ := hnext a middle ha
    obtain ⟨more, hmem, hm⟩ := hkeeps.taken hrest
    exact ⟨kinds ++ more, hmem, hk.append hm⟩
  refused herror := by
    rcases bind_eq_error.1 herror with hfirst | ⟨a, middle, ha, hsecond⟩
    · obtain ⟨kinds, hk, hbegins⟩ := hp.refused hfirst
      exact ⟨kinds, hk, hbegins.trans hviable⟩
    · obtain ⟨kinds, hk, hkeeps⟩ := hnext a middle ha
      obtain ⟨more, hm, last, hlast, hmem⟩ := hkeeps.refused hsecond
      refine ⟨kinds ++ more, hk.append hm, last, hlast, ?_⟩
      rw [List.append_assoc]
      exact hmem

theorem Keeps.seq (hp : Keeps L p tokens)
    (hnext : ∀ a rest, p tokens = .ok (a, rest) → Keeps L' (next a) rest)
    (hviable : IsViable L' []) : Keeps (L * L') (p >>= next) tokens := by
  refine hp.bind (fun kinds hmem => .mul hmem hviable) fun a rest ha => ?_
  obtain ⟨kinds, hmem, hk⟩ := hp.taken ha
  exact ⟨kinds, hk, (hnext a rest ha).mono fun more hm => ⟨kinds, hmem, more, hm, rfl⟩⟩

/-- A token of a given kind, and behind it what it leaves of the language. -/
theorem Keeps.mark {kind : Kind} (hp : Keeps {[kind]} p tokens)
    (hviable : IsViable (L.leftQuotient [kind]) [])
    (hnext : ∀ a rest, p tokens = .ok (a, rest) → Keeps (L.leftQuotient [kind]) (next a) rest) :
    Keeps L (p >>= next) tokens := by
  refine hp.bind ?_ fun a rest ha => ?_
  · rintro _ rfl
    exact hviable
  · obtain ⟨_, rfl, hk⟩ := hp.taken ha
    exact ⟨[kind], hk, hnext a rest ha⟩

theorem Keeps.map (h : Keeps L p tokens) (f : α → β) : Keeps L (f <$> p) tokens := by
  rw [← mul_one L]
  exact h.seq (fun a _ _ => keeps_pure (f a) rfl) (.of_mem rfl)

theorem keeps_fail (production : Production) (cause : Cause) (h : IsViable L []) :
    Keeps L (fail production cause : Parser α) tokens where
  taken hok := absurd hok fail_ne_ok
  refused herror := by
    cases herror
    exact ⟨[], .nil, h⟩

theorem keeps_unexpected (production : Production) (expected : String) (h : IsViable L []) :
    Keeps L (unexpected production expected : Parser α) tokens :=
  ⟨fun hok => absurd hok unexpected_ne_ok, (keeps_fail production _ h).refused⟩

/-! ## One token -/

theorem keeps_advance {kind : Kind} (hf : front tokens = kind) (hk : kind.isPhraseToken = true) :
    Keeps {[kind]} advance tokens where
  taken hok := by
    obtain ⟨t, rfl, rfl, -⟩ := (advance_of_front hf (by rintro rfl; cases hk)).1 hok
    exact ⟨[t.kind], rfl, .single hk⟩
  refused := nofun

theorem keeps_expect {kind : Kind} (hk : kind.isSpellable = true) (production : Production) :
    Keeps {[kind]} (expect kind production) tokens := by
  refine keeps_peek ?_
  split
  · exact keeps_advance ‹_› (Kind.isPhraseToken_of_isSpellable hk)
  · exact keeps_unexpected _ _ (isViable_mark hk)

theorem keeps_expectWord {word : String} (hw : (Kind.ident word).isSpellable = true)
    (production : Production) : Keeps {[.ident word]} (expectWord word production) tokens := by
  refine keeps_peek ?_
  split
  · exact keeps_advance ‹_› rfl
  · exact keeps_unexpected _ _ (isViable_mark hw)

theorem keeps_unrefused {refuse : String → Bool} (cause : String → Cause) (expected : String)
    (production : Production) (hname : ∀ name, refuse name = false → [.ident name] ∈ L)
    (hviable : IsViable L []) : Keeps L (unrefused refuse cause expected production) tokens := by
  refine keeps_peek ?_
  generalize hk : front tokens = kind
  cases kind with
  | ident name =>
    show Keeps L (if refuse name then _ else _) tokens
    split
    · exact keeps_fail _ _ hviable
    · rename_i hr
      exact ((keeps_advance hk rfl).map _).of_single (hname name (Bool.eq_false_iff.2 hr))
  | _ => exact keeps_unexpected _ _ hviable

theorem isViable_name : IsViable (phrases NameForm) [] :=
  ⟨[.ident "A"], by decide, "A", .mk (by decide)⟩

theorem keeps_qualifiedName (production : Production) :
    Keeps (phrases NameForm) (qualifiedName production) tokens :=
  keeps_unrefused _ _ _ (fun name hn => ⟨name, .mk hn⟩) isViable_name

theorem isViable_simple : IsViable (phrases SimpleForm) [] :=
  ⟨[.ident "A"], by decide, "A", .mk (by decide)⟩

theorem keeps_simpleName (production : Production) :
    Keeps (phrases SimpleForm) (simpleName production) tokens :=
  keeps_unrefused _ _ _ (fun name hn => ⟨name, .mk hn⟩) isViable_simple

theorem keeps_endOfInput (production : Production) :
    Keeps 1 (endOfInput production) tokens := by
  refine keeps_peek ?_
  split
  · exact keeps_pure () rfl
  · exact keeps_unexpected _ _ (.of_mem rfl)

/-! ## Many items -/

section Many

variable {starts : Kind → Bool} {item : Parser α} {view : α → β} {rule : Rule β}

theorem keeps_atMost
    (h : ∀ tokens, starts (front tokens) = true → Keeps (phrases rule) item tokens) :
    ∀ (fuel : Nat) (tokens : List Token),
      Keeps (phrases (Repeated rule)) (atMost starts item fuel) tokens := by
  intro fuel
  induction fuel with
  | zero => exact fun tokens => keeps_pure [] (nil_mem_repeated rule)
  | succ fuel ih =>
    intro tokens
    refine keeps_peek ?_
    split
    · rename_i hs
      refine ((h tokens hs).seq (fun first rest _ => (ih rest).map (first :: ·))
        (.of_mem (nil_mem_repeated rule))).mono ?_
      rintro _ ⟨kinds, ⟨b, hb⟩, more, ⟨bs, hbs⟩, rfl⟩
      exact ⟨b :: bs, .cons hb hbs⟩
    · exact keeps_pure [] (nil_mem_repeated rule)

theorem keeps_many (h : ∀ tokens, starts (front tokens) = true → Keeps (phrases rule) item tokens)
    (tokens : List Token) : Keeps (phrases (Repeated rule)) (many starts item) tokens :=
  (keeps_atMost h (tokens.length + 1) tokens).congr rfl

theorem keeps_manyUntil {close : Kind} (hr : ReadsFrom (· ≠ close) item view rule)
    (hclose : close.isSpellable = true) (h : ∀ tokens, Keeps (phrases rule) item tokens)
    (tokens : List Token) :
    Keeps (phrases (Repeated rule) * {[close]}) (manyUntil close item) tokens := by
  refine (keeps_many (fun tokens _ => h tokens) tokens).seq (fun items rest hitems => ?_)
    (isViable_mark hclose)
  have hfront : front rest = close :=
    Decidable.not_not.1 (of_decide_eq_false (many_sound hr hitems).1)
  exact (keeps_advance hfront (Kind.isPhraseToken_of_isSpellable hclose)).map fun _ => items

end Many

end Parser

end Grammar

end DomainForms
