import DomainForms.Token.Lexer

/-!
# The tokens of a source

A source is a row of tokens with the end of the source behind them, and only there.  Every identifier
and every keyword that is read is spelled as its class asks for.

* `Token.sentence`: what the tokens before the end are.
* `Token.significant_eq`: a source is its sentence and the end.
* `Token.Kind.isLexical`: whether a word is spelled as its class asks for.
* `Token.isLexical_of_mem_sentence`: every word of a source is.
-/

namespace DomainForms.Token

open Text

/-- What the tokens of a source are, up to its end and without comments. -/
def sentence (source : String) : List Kind :=
  ((significant source).map Token.kind).takeWhile (· ≠ .eof)

/-! ## The end of a source -/

theorem mark?_ne_eof {c : Char} {kind : Kind} (h : mark? c = some kind) : kind ≠ .eof := by
  rintro rfl
  unfold mark? at h
  repeat' split at h
  all_goals cases h

theorem nameKind_ne_eof (text : List Char) : nameKind text ≠ .eof := by
  unfold nameKind
  split <;> nofun

theorem keywordKind_ne_eof (name : List Char) : keywordKind name ≠ .eof := by
  unfold keywordKind
  split <;> nofun

theorem lexeme_kind_ne_eof (c : Char) (cs : List Char) : (lexeme c cs).kind ≠ .eof := by
  unfold lexeme
  split
  · exact mark?_ne_eof ‹_›
  · split
    · nofun
    · split
      · exact keywordKind_ne_eof _
      · split
        · exact nameKind_ne_eof _
        · nofun

theorem scan_eq (fuel : Nat) :
    ∀ (p : Position) (text : List Char), ∃ body last, scan fuel p text = body ++ [last] ∧
      last.kind = .eof ∧ ∀ t ∈ body, t.kind ≠ .eof := by
  induction fuel with
  | zero =>
    intro p text
    exact ⟨[], _, rfl, rfl, nofun⟩
  | succ fuel ih =>
    intro p text
    unfold scan
    cases text.dropWhile isBlank with
    | nil => exact ⟨[], _, rfl, rfl, nofun⟩
    | cons c cs =>
      obtain ⟨body, last, heq, hlast, hbody⟩ :=
        ih ((p.after (text.takeWhile isBlank)).after (lexeme c cs).text) (lexeme c cs).rest
      refine ⟨_ :: body, last, congrArg (List.cons _) heq, hlast, ?_⟩
      intro t ht
      rcases List.mem_cons.1 ht with rfl | ht
      · exact lexeme_kind_ne_eof c cs
      · exact hbody t ht

/-- **A source is its sentence and the end of the source.** -/
theorem significant_eq (source : String) :
    ∃ body last, significant source = body ++ [last] ∧ last.kind = .eof ∧
      body.map Token.kind = sentence source ∧ .eof ∉ sentence source := by
  obtain ⟨body, last, heq, hlast, hbody⟩ := scan_eq (source.toList.length + 1) .start source.toList
  have hsig : significant source = (body.filter fun t => !t.kind.isTrivia) ++ [last] := by
    unfold significant tokenize
    rw [heq, List.filter_append]
    simp [hlast, Kind.isTrivia]
  have hne : ∀ kind ∈ (body.filter fun t => !t.kind.isTrivia).map Token.kind,
      decide (kind ≠ .eof) = true := by
    intro kind hk
    obtain ⟨t, ht, rfl⟩ := List.mem_map.1 hk
    exact decide_eq_true (hbody t (List.mem_filter.1 ht).1)
  have hsentence : sentence source =
      (body.filter fun t => !t.kind.isTrivia).map Token.kind := by
    unfold sentence
    rw [hsig, List.map_append, List.takeWhile_append_of_pos hne]
    simp [hlast]
  refine ⟨_, last, hsig, hlast, hsentence.symm, ?_⟩
  rw [hsentence]
  intro hmem
  exact of_decide_eq_true (hne _ hmem) rfl

/-! ## Words -/

/-- Whether a word is spelled as its class asks for: an identifier is of name characters and each of
its segments starts as an identifier does, a keyword is of keyword characters and is not empty. -/
def Kind.isLexical : Kind → Bool
  | ident name => name.toList.all isNameChar && (segments name.toList).all isSegment
  | keyword name => !name.toList.isEmpty && name.toList.all isKeywordChar
  | _ => true

theorem isLexical_ident (name : String) :
    (Kind.ident name).isLexical =
      (name.toList.all isNameChar && (segments name.toList).all isSegment) :=
  rfl

theorem isLexical_keyword (name : String) :
    (Kind.keyword name).isLexical = (!name.toList.isEmpty && name.toList.all isKeywordChar) :=
  rfl

theorem isLexical_of_mark? {c : Char} {kind : Kind} (h : mark? c = some kind) :
    kind.isLexical = true := by
  unfold mark? at h
  repeat' split at h
  all_goals cases h
  all_goals rfl

theorem isLexical_nameKind {text : List Char} (h : ∀ c ∈ text, isNameChar c = true) :
    (nameKind text).isLexical = true := by
  unfold nameKind
  split
  · rename_i hs
    rw [isLexical_ident, String.toList_ofList, hs, List.all_eq_true.2 h]
    rfl
  · rfl

theorem isLexical_keywordKind {name : List Char} (h : ∀ c ∈ name, isKeywordChar c = true) :
    (keywordKind name).isLexical = true := by
  unfold keywordKind
  split
  · rfl
  · rename_i hne
    rw [isLexical_keyword, String.toList_ofList, Bool.eq_false_iff.2 hne, List.all_eq_true.2 h]
    rfl

theorem isNameChar_of_isNameStart {c : Char} (h : isNameStart c = true) : isNameChar c = true := by
  unfold isNameChar
  rw [h]
  rfl

theorem isLexical_lexeme (c : Char) (cs : List Char) : (lexeme c cs).kind.isLexical = true := by
  unfold lexeme
  split
  · exact isLexical_of_mark? ‹_›
  · split
    · rfl
    · split
      · exact isLexical_keywordKind (List.all_eq_true.1 List.all_takeWhile)
      · split
        · rename_i hstart
          refine isLexical_nameKind fun c' hc => ?_
          rcases List.mem_cons.1 hc with rfl | hc
          · exact isNameChar_of_isNameStart hstart
          · exact List.all_eq_true.1 List.all_takeWhile c' hc
        · rfl

theorem isLexical_of_mem_scan (fuel : Nat) :
    ∀ (p : Position) (text : List Char), ∀ t ∈ scan fuel p text, t.kind.isLexical = true := by
  induction fuel with
  | zero =>
    intro p text t ht
    rw [List.mem_singleton.1 ht]
    rfl
  | succ fuel ih =>
    intro p text t ht
    unfold scan at ht
    revert ht
    cases text.dropWhile isBlank with
    | nil =>
      intro ht
      rw [List.mem_singleton.1 ht]
      rfl
    | cons c cs =>
      intro ht
      rcases List.mem_cons.1 ht with rfl | ht
      · exact isLexical_lexeme c cs
      · exact ih _ _ t ht

/-- **Every word of a source is spelled as its class asks for.** -/
theorem isLexical_of_mem_sentence {source : String} {kind : Kind} (h : kind ∈ sentence source) :
    kind.isLexical = true := by
  obtain ⟨t, ht, rfl⟩ := List.mem_map.1 ((List.takeWhile_sublist _).mem h)
  exact isLexical_of_mem_scan _ _ _ t (List.mem_filter.1 ht).1

end DomainForms.Token
