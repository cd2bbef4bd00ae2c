import DomainForms.Proofs.Grammar.Lookahead
import DomainForms.Proofs.Grammar.Viability
import DomainForms.Proofs.Token.Positions

/-!
# A fault is the first token that cannot go on

The error of a source that is not in the language points at a token.  The tokens before it begin a
source of the language, so nothing was wrong up to there; the tokens with it begin none, so this
token is what is wrong.  The first half says that a parser keeps to its rule, the second one that it
looks one token ahead.

* `Grammar.exists_offending`: a fault of a parser that keeps to a language stands at a token.
* `Grammar.exists_valid`: what begins a phrase begins a source of the language.
* `Grammar.parse_stops_at_first_fault`: **the error is at the first token that cannot go on.**
-/

namespace DomainForms.Grammar

open Grammar.Parser
open Token (Kind significant sentence)

variable {α : Type}

/-! ## Faults stand at tokens -/

theorem run_eq_error {p : Parser α} {source : String} {error : Error} :
    p.run source = .error error ↔
      ∃ fault, p (significant source) = .error fault ∧ error = fault.toError source := by
  unfold run
  cases p (significant source) with
  | ok r =>
    constructor
    · intro h
      cases h
    · rintro ⟨_, h, -⟩
      cases h
  | error fault =>
    constructor
    · intro h
      cases h
      exact ⟨fault, rfl, rfl⟩
    · rintro ⟨_, h, rfl⟩
      cases h
      rfl

theorem isLexical_of_mem_significant {source : String} {t : Token} (h : t ∈ significant source) :
    t.kind.isLexical = true :=
  Token.isLexical_of_mem_scan _ _ _ t (List.mem_filter.1 h).1

/-- **A fault stands at a token of the source**, and the tokens before it begin a member of the
language that the parser keeps to. -/
theorem exists_offending {p : Parser α} {L : Language Kind} (hp : ∀ tokens, Keeps L p tokens)
    {source : String} {fault : Fault} (h : p (significant source) = .error fault) :
    ∃ before offending after, significant source = before ++ offending :: after ∧
      fault.rest = offending :: after ∧ IsViable L (before.map Token.kind) ∧
      ∀ t ∈ before, t.kind.isSpellable = true := by
  obtain ⟨kinds, htakes, hviable⟩ := (hp _).refused h
  obtain ⟨before, hsource, rfl⟩ := htakes.spells.exists_append
  have hpart : ∀ t ∈ before, t.kind.isPhraseToken = true := fun t ht =>
    htakes.isPhraseToken _ (List.mem_map.2 ⟨t, ht, rfl⟩)
  have hspellable : ∀ t ∈ before, t.kind.isSpellable = true := by
    intro t ht
    have hlexical := isLexical_of_mem_significant (hsource ▸ List.mem_append_left _ ht)
    rw [Kind.isSpellable_eq, hpart t ht, hlexical]
    rfl
  cases hrest : fault.rest with
  | nil =>
    -- the end of the source is no part of a phrase, so it is not passed over
    obtain ⟨body, last, heq, hlast, -, -⟩ := Token.significant_eq source
    rw [hrest, List.append_nil] at hsource
    have hend := hpart last (by rw [← hsource, heq]; simp)
    rw [hlast] at hend
    cases hend
  | cons offending after =>
    rw [hrest] at hsource
    exact ⟨before, offending, after, hsource, rfl, hviable, hspellable⟩

/-! ## Beginnings of sources -/

/-- Tokens that can be written, with a space before each of them. -/
def spacedOut (kinds : List Kind) : Layout := kinds.map (⟨" ", ·⟩)

theorem spaced_spacedOut {kinds : List Kind} (h : ∀ kind ∈ kinds, kind.isSpellable = true) :
    ∀ {touching : Bool}, Layout.Spaced touching (spacedOut kinds) := by
  induction kinds with
  | nil => exact trivial
  | cons kind kinds ih =>
    refine ⟨by simp [Layout.IsGap], h kind (.head _), ?_, ih fun kind hk => h kind (.tail _ hk)⟩
    intro _ _
    show " " ≠ ""
    decide

theorem sentence_spacedOut {kinds : List Kind} (h : ∀ kind ∈ kinds, kind.isSpellable = true) :
    sentence (spacedOut kinds).text = kinds := by
  have hsentence : sentence ((spacedOut kinds).text ++ "") = (spacedOut kinds).kinds :=
    Layout.sentence_text (spaced_spacedOut h) nofun
  rw [String.append_empty] at hsentence
  rw [hsentence, Layout.kinds, spacedOut, List.map_map]
  exact List.map_id kinds

/-- **What begins a phrase of a source begins a source that is read.** -/
theorem exists_valid {kinds : List Kind} (h : IsViable (phrases DocumentForm) kinds)
    (hk : ∀ kind ∈ kinds, kind.isSpellable = true) :
    ∃ valid d, Document.parse valid = .ok d ∧ kinds <+: (significant valid).map Token.kind := by
  obtain ⟨more, hmore, tree, hform⟩ := h
  have hall : ∀ kind ∈ kinds ++ more, kind.isSpellable = true := by
    intro kind hkind
    rcases List.mem_append.1 hkind with hkind | hkind
    · exact hk kind hkind
    · exact hmore kind hkind
  have hsentence := sentence_spacedOut hall
  obtain ⟨d, hd, -⟩ := exists_parse_of_documentForm (hsentence ▸ hform)
  obtain ⟨body, last, heq, hlast, hbody, -⟩ := Token.significant_eq (spacedOut (kinds ++ more)).text
  refine ⟨_, d, hd, more ++ [.eof], ?_⟩
  rw [heq, List.map_append, hbody, hsentence, List.map_singleton, hlast, List.append_assoc]

/-! ## The first fault -/

theorem ordered_significant (source : String) :
    (significant source).Pairwise fun t t' => t.span.stop ≤ t'.span.start :=
  (Token.covers_tokenize source).ordered.filter _

theorem Fault.toError_of_rest {fault : Fault} {offending : Token} {after : List Token}
    (h : fault.rest = offending :: after) (source : String) :
    fault.toError source = .of (.parse fault.production.name fault.cause.message
      offending.span.start offending.span.line offending.span.column
      (offending.span.lineText source)) := by
  unfold toError span
  rw [h]
  rfl

/-- **The error of a source is at the first token that cannot go on.**  It names the place of a
token that is no comment.  Some source that is read begins with tokens of the same kinds as those
before it; no source that is read begins with them and a token of the same kind as this one. -/
theorem parse_stops_at_first_fault {source : String} {error : Error}
    (h : Document.parse source = .error error) :
    ∃ (before : List Token) (offending : Token) (after : List Token) (production message : String),
      significant source = before ++ offending :: after ∧
      error = .of (.parse production message offending.span.start offending.span.line
        offending.span.column (offending.span.lineText source)) ∧
      (∀ t ∈ before, t.span.stop ≤ offending.span.start) ∧
      (∃ valid d, Document.parse valid = .ok d ∧
        before.map Token.kind <+: (significant valid).map Token.kind) ∧
      ∀ valid d, Document.parse valid = .ok d →
        ¬ before.map Token.kind ++ [offending.kind] <+: (significant valid).map Token.kind := by
  obtain ⟨fault, hfault, rfl⟩ := run_eq_error.1 h
  obtain ⟨before, offending, after, hsource, hrest, hviable, hspellable⟩ :=
    exists_offending Document.keeps_reader hfault
  refine ⟨before, offending, after, _, _, hsource, Fault.toError_of_rest hrest source, ?_, ?_, ?_⟩
  · have hordered := ordered_significant source
    rw [hsource] at hordered
    exact fun t ht => (List.pairwise_append.1 hordered).2.2 t ht offending (.head _)
  · refine exists_valid hviable fun kind hk => ?_
    obtain ⟨t, ht, rfl⟩ := List.mem_map.1 hk
    exact hspellable t ht
  · intro valid d hvalid hbegins
    obtain ⟨rest, hread⟩ := run_eq_ok.1 hvalid
    rw [hsource] at hfault
    obtain ⟨fault', hfault'⟩ := refuses_of_oneAhead Document.oneAhead_reader
      Document.placeFree_reader hfault hrest hbegins
    rw [hread] at hfault'
    cases hfault'

/-! ### An array of arrays -/

namespace NestedArray

/-- A value type whose type is an array of arrays, with a comment in between. -/
def source : String := "(namespace Été (defvaluetype X (int[]);\n []))"

/-- The brackets behind the parenthesis are refused. -/
def error : Error :=
  .of (.parse "array rank specifier" "arrays of arrays are not supported" 43 2 2 " []))")

/-- The look-ahead settles on a type, and the second pair of brackets is the first token that cannot
go on. -/
theorem brackets_refused :
    Document.parse source = .error error ∧
      ∃ (before : List Token) (offending : Token) (after : List Token)
        (production message : String),
        significant source = before ++ offending :: after ∧
        error = .of (.parse production message offending.span.start offending.span.line
          offending.span.column (offending.span.lineText source)) ∧
        (∀ t ∈ before, t.span.stop ≤ offending.span.start) ∧
        (∃ valid d, Document.parse valid = .ok d ∧
          before.map Token.kind <+: (significant valid).map Token.kind) ∧
        ∀ valid d, Document.parse valid = .ok d →
          ¬ before.map Token.kind ++ [offending.kind] <+: (significant valid).map Token.kind :=
  have hparse : Document.parse source = .error error := by decide +kernel
  ⟨hparse, parse_stops_at_first_fault hparse⟩

end NestedArray

end DomainForms.Grammar
