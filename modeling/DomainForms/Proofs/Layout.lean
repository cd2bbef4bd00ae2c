import DomainForms.Layout
import DomainForms.Proofs.QualifiedName
import DomainForms.Proofs.Token.Lexer

/-!
# A printed text has the tokens of its layout

White space means nothing to the reader of tokens, except that it keeps two words apart.  A layout
whose gaps are white space, whose tokens can be written, and in which no word touches another is read
back as the row of its tokens.

* `Token.Kind.isSpellable`: whether a token can be written.
* `Token.lexeme_of_isSpellable`: a token that is written is read back.
* `Layout.Spaced`: a layout in which no word touches another.
* `Layout.sentence_text`: the tokens of a printed text.
-/

namespace DomainForms

namespace Text

theorem Ranges.exists_of_contains {ranges : Ranges} {n : Nat} (h : ranges.contains n = true) :
    ∃ r ∈ ranges, r.1 ≤ n ∧ n ≤ r.2 := by
  induction ranges with
  | nil => cases h
  | cons r ranges ih =>
    unfold contains at h
    split at h
    · cases h
    · split at h
      · exact ⟨r, .head _, Nat.le_of_not_lt ‹_›, ‹_›⟩
      · obtain ⟨r', hr', hle⟩ := ih h
        exact ⟨r', .tail _ hr', hle⟩

theorem not_isBlank_of_isLetter {c : Char} (h : isLetter c = true) : isBlank c = false := by
  have hall : ∀ r ∈ blankRanges, ∀ n ∈ List.range' r.1 (r.2 - r.1 + 1),
      letterRanges.contains n = false := by
    decide +kernel
  rw [Bool.eq_false_iff]
  intro hb
  obtain ⟨r, hr, hlow, hhigh⟩ := Ranges.exists_of_contains hb
  have hno := hall r hr c.toNat (List.mem_range'_1.2 ⟨hlow, by omega⟩)
  rw [show letterRanges.contains c.toNat = true from h] at hno
  cases hno

end Text

namespace Token

open Text

/-! ## Characters in front of a token -/

/-- The first character of a name is neither white space nor a mark, and starts neither a comment nor
a keyword. -/
theorem not_special_of_isNameStart {c : Char} (h : isNameStart c = true) :
    isBlank c = false ∧ mark? c = none ∧ c ≠ ';' ∧ c ≠ ':' := by
  refine ⟨?_, ?_, ?_, ?_⟩
  · rcases Bool.or_eq_true_iff.1 h with hl | hu
    · exact not_isBlank_of_isLetter hl
    · rw [eq_of_beq hu]
      rfl
  · unfold mark?
    repeat rw [if_neg]
    all_goals
      rintro rfl
      revert h
      decide
  · rintro rfl
    revert h
    decide
  · rintro rfl
    revert h
    decide

/-! ## Tokens that can be written -/

/-- Whether a token is a word, which another word would run into. -/
def Kind.isWord : Kind → Bool
  | ident _ => true
  | keyword _ => true
  | _ => false

/-- Whether a token can be written: a mark, or a word that is spelled as its class asks for. -/
def Kind.isSpellable : Kind → Bool
  | comment _ => false
  | eof => false
  | fault _ => false
  | kind => kind.isLexical

/-- Whether a text ends the token before it: a name goes on as long as there are name characters, a
keyword as long as there are keyword characters, and a mark is one character. -/
def Kind.endsBefore : Kind → List Char → Bool
  | ident _, c :: _ => !isNameChar c
  | keyword _, c :: _ => !isKeywordChar c
  | _, _ => true

/-- A text that starts with neither a name character nor a keyword character ends every token. -/
theorem endsBefore_cons (kind : Kind) {c : Char} (hn : isNameChar c = false)
    (hk : isKeywordChar c = false) (cs : List Char) : kind.endsBefore (c :: cs) = true := by
  cases kind with
  | ident name =>
    show (!isNameChar c) = true
    rw [hn]
    rfl
  | keyword name =>
    show (!isKeywordChar c) = true
    rw [hk]
    rfl
  | _ => rfl

theorem endsBefore_nil (kind : Kind) : kind.endsBefore [] = true := by
  cases kind <;> rfl

theorem endsBefore_of_not_isWord {kind : Kind} (h : kind.isWord = false) (text : List Char) :
    kind.endsBefore text = true := by
  cases kind with
  | ident name => cases h
  | keyword name => cases h
  | _ => rfl

theorem isNameStart_of_segments {c : Char} {cs : List Char}
    (h : (segments (c :: cs)).all isSegment = true) : isNameStart c = true := by
  unfold segments at h
  split at h
  · cases h
  · split at h
    · exact (Bool.and_eq_true_iff.1 h).1
    · exact (Bool.and_eq_true_iff.1 h).1

theorem takeWhile_of_head {p : Char → Bool} {text : List Char}
    (h : ∀ c ∈ text.head?, p c = false) : text.takeWhile p = [] := by
  cases text with
  | nil => rfl
  | cons c cs => rw [List.takeWhile_cons, h c rfl, if_neg Bool.false_ne_true]

theorem dropWhile_of_head {p : Char → Bool} {text : List Char}
    (h : ∀ c ∈ text.head?, p c = false) : text.dropWhile p = text := by
  cases text with
  | nil => rfl
  | cons c cs => rw [List.dropWhile_cons, h c rfl, if_neg Bool.false_ne_true]

theorem lexeme_ident {name : String} (h : (Kind.ident name).isLexical = true) {text : List Char}
    (he : (Kind.ident name).endsBefore text = true) :
    ∃ c cs, name.toList = c :: cs ∧ isBlank c = false ∧
      lexeme c (cs ++ text) = ⟨.ident name, c :: cs, text⟩ := by
  rw [isLexical_ident] at h
  obtain ⟨hall, hsegments⟩ := Bool.and_eq_true_iff.1 h
  cases heq : name.toList with
  | nil =>
    rw [heq] at hsegments
    cases hsegments
  | cons c cs =>
    rw [heq] at hall hsegments
    have hstart := isNameStart_of_segments hsegments
    obtain ⟨hblank, hmark, hcomment, hcolon⟩ := not_special_of_isNameStart hstart
    have hcs : ∀ c' ∈ cs, isNameChar c' = true := fun c' hc' =>
      List.all_eq_true.1 hall c' (.tail _ hc')
    have hhead : ∀ c' ∈ text.head?, isNameChar c' = false := by
      intro c' hc'
      cases text with
      | nil => cases hc'
      | cons c'' cs' =>
        cases hc'
        exact (Bool.not_eq_eq_eq_not.1 he)
    refine ⟨c, cs, rfl, hblank, ?_⟩
    unfold lexeme
    rw [hmark, if_neg hcomment, if_neg hcolon, if_pos hstart, List.takeWhile_append_of_pos hcs,
      List.dropWhile_append_of_pos hcs, takeWhile_of_head hhead, dropWhile_of_head hhead,
      List.append_nil]
    show (⟨nameKind (c :: cs), c :: cs, text⟩ : Lexeme) = _
    unfold nameKind
    rw [if_pos hsegments, ← heq, String.ofList_toList]

theorem lexeme_keyword {name : String} (h : (Kind.keyword name).isLexical = true)
    {text : List Char} (he : (Kind.keyword name).endsBefore text = true) :
    lexeme ':' (name.toList ++ text) = ⟨.keyword name, ':' :: name.toList, text⟩ := by
  rw [isLexical_keyword] at h
  obtain ⟨hne, hall⟩ := Bool.and_eq_true_iff.1 h
  have hcs : ∀ c ∈ name.toList, isKeywordChar c = true := List.all_eq_true.1 hall
  have hhead : ∀ c ∈ text.head?, isKeywordChar c = false := by
    intro c hc
    cases text with
    | nil => cases hc
    | cons c' cs =>
      cases hc
      exact (Bool.not_eq_eq_eq_not.1 he)
  show (⟨keywordKind _, _, _⟩ : Lexeme) = _
  rw [List.takeWhile_append_of_pos hcs, List.dropWhile_append_of_pos hcs, takeWhile_of_head hhead,
    dropWhile_of_head hhead, List.append_nil]
  unfold keywordKind
  rw [Bool.not_eq_eq_eq_not.1 hne, Bool.not_true, if_neg Bool.false_ne_true, String.ofList_toList]

/-- **A token that is written is read back**, in front of every text that ends it. -/
theorem lexeme_of_isSpellable {kind : Kind} (h : kind.isSpellable = true) {text : List Char}
    (he : kind.endsBefore text = true) :
    ∃ c cs, kind.text.toList = c :: cs ∧ isBlank c = false ∧
      lexeme c (cs ++ text) = ⟨kind, c :: cs, text⟩ := by
  cases kind with
  | lparen => exact ⟨'(', [], rfl, rfl, rfl⟩
  | rparen => exact ⟨')', [], rfl, rfl, rfl⟩
  | lbracket => exact ⟨'[', [], rfl, rfl, rfl⟩
  | rbracket => exact ⟨']', [], rfl, rfl, rfl⟩
  | lbrace => exact ⟨'\x7b', [], rfl, rfl, rfl⟩
  | rbrace => exact ⟨'\x7d', [], rfl, rfl, rfl⟩
  | comma => exact ⟨',', [], rfl, rfl, rfl⟩
  | question => exact ⟨'?', [], rfl, rfl, rfl⟩
  | ident name => exact lexeme_ident h he
  | keyword name =>
    refine ⟨':', name.toList, ?_, rfl, lexeme_keyword h he⟩
    show (":" ++ name).toList = _
    rw [String.toList_append]
    rfl
  | comment text => cases h
  | eof => cases h
  | fault cause => cases h

theorem endsBefore_mark (kind : Kind) {mark : Kind} (h : mark.isSpellable = true)
    (hw : mark.isWord = false) (text : List Char) :
    kind.endsBefore (mark.text.toList ++ text) = true := by
  cases mark with
  | ident name => cases hw
  | keyword name => cases hw
  | comment text => cases h
  | eof => cases h
  | fault cause => cases h
  | _ => exact endsBefore_cons kind rfl rfl text

end Token

/-! ## Layouts -/

namespace Layout

open Text Token

/-- The characters that gaps are made of. -/
def IsGap (gap : String) : Prop := ∀ c ∈ gap.toList, c = ' ' ∨ c = '\n'

/-- A layout in which gaps are white space, tokens can be written, and no word touches another.
`touching` tells whether a word stands right before the layout. -/
def Spaced (touching : Bool) : Layout → Prop
  | [] => True
  | p :: rest =>
    IsGap p.gap ∧ p.kind.isSpellable = true ∧
      (touching = true → p.kind.isWord = true → p.gap ≠ "") ∧ Spaced p.kind.isWord rest

theorem Spaced.mark {touching : Bool} {gap : String} {kind : Kind} {rest : Layout}
    (hg : IsGap gap) (hs : kind.isSpellable = true) (hw : kind.isWord = false)
    (h : Spaced false rest) : Spaced touching (⟨gap, kind⟩ :: rest) := by
  refine ⟨hg, hs, ?_, ?_⟩
  · intro _ hw'
    rw [hw] at hw'
    cases hw'
  · rw [hw]
    exact h

theorem Spaced.of_true {touching : Bool} {l : Layout} (h : Spaced true l) : Spaced touching l := by
  cases l with
  | nil => trivial
  | cons p rest =>
    obtain ⟨hg, hs, hw, hrest⟩ := h
    exact ⟨hg, hs, fun _ => hw rfl, hrest⟩

/-- What may stand right behind a word may stand behind every layout. -/
theorem Spaced.append {touching : Bool} {l more : Layout} (h : Spaced touching l)
    (hm : Spaced true more) : Spaced touching (l ++ more) := by
  induction l generalizing touching with
  | nil => exact hm.of_true
  | cons p rest ih =>
    obtain ⟨hg, hs, hw, hrest⟩ := h
    exact ⟨hg, hs, hw, ih hrest⟩

theorem Spaced.isSpellable {touching : Bool} {l : Layout} (h : Spaced touching l) :
    ∀ kind ∈ l.kinds, kind.isSpellable = true := by
  induction l generalizing touching with
  | nil => exact nofun
  | cons p rest ih =>
    obtain ⟨-, hs, -, hrest⟩ := h
    intro kind hk
    rcases List.mem_cons.1 hk with rfl | hk
    · exact hs
    · exact ih hrest kind hk

theorem toList_text_cons (p : Piece) (l : Layout) :
    text (p :: l) = p.gap ++ (p.kind.text ++ text l) := by
  unfold text
  rw [List.map_cons, String.join_cons, ← String.append_assoc]
  rfl

theorem text_append (l more : Layout) : text (l ++ more) = text l ++ text more := by
  induction l with
  | nil => exact String.empty_append.symm
  | cons p l ih =>
    rw [List.cons_append, toList_text_cons, toList_text_cons, ih]
    simp only [String.append_assoc]

/-! ## Reading a layout back -/

theorem isBlank_of_isGap {c : Char} (h : c = ' ' ∨ c = '\n') : isBlank c = true := by
  rcases h with rfl | rfl <;> rfl

theorem endsBefore_gap (kind : Kind) {c : Char} (h : c = ' ' ∨ c = '\n') (cs : List Char) :
    kind.endsBefore (c :: cs) = true := by
  rcases h with rfl | rfl
  · exact endsBefore_cons kind (by decide) (by decide) cs
  · exact endsBefore_cons kind (by decide) (by decide) cs

theorem Spaced.endsBefore {kind : Kind} {l : Layout} (h : Spaced kind.isWord l) {tail : List Char}
    (ht : ∀ c ∈ tail, c = ' ' ∨ c = '\n') : kind.endsBefore (l.text.toList ++ tail) = true := by
  cases l with
  | nil =>
    cases tail with
    | nil => exact endsBefore_nil kind
    | cons c cs => exact endsBefore_gap kind (ht c (.head _)) cs
  | cons p l =>
    obtain ⟨hg, hs, hw, -⟩ := h
    rw [toList_text_cons, String.toList_append]
    cases hgap : p.gap.toList with
    | cons c cs =>
      refine endsBefore_gap kind (hg c ?_) _
      rw [hgap]
      exact .head _
    | nil =>
      -- Without a gap one of the two tokens is no word.
      by_cases hk : kind.isWord = true
      · have hmark : p.kind.isWord = false := by
          rw [Bool.eq_false_iff]
          intro hpw
          exact hw hk hpw (String.toList_eq_nil_iff.1 hgap)
        rw [List.nil_append, String.toList_append, List.append_assoc]
        exact endsBefore_mark kind hs hmark _
      · exact endsBefore_of_not_isWord (Bool.eq_false_iff.2 hk) _

theorem map_kind_scan_blank (fuel : Nat) (p : Position) {text : List Char}
    (h : text.dropWhile isBlank = []) : (scan (fuel + 1) p text).map Token.kind = [.eof] := by
  unfold scan
  rw [h]
  rfl

theorem map_kind_scan_cons (fuel : Nat) (p : Position) {text cs rest taken : List Char} {c : Char}
    {kind : Kind} (h : text.dropWhile isBlank = c :: cs) (hl : lexeme c cs = ⟨kind, taken, rest⟩) :
    ∃ next, (scan (fuel + 1) p text).map Token.kind =
      kind :: (scan fuel next rest).map Token.kind := by
  refine ⟨(p.after (text.takeWhile isBlank)).after taken, ?_⟩
  rw [scan, h]
  show List.map Token.kind (_ :: scan fuel (Position.after _ (lexeme c cs).text)
    (lexeme c cs).rest) = _
  rw [hl]
  rfl

/-- **The tokens of a printed layout are those of the layout**, with the end behind them. -/
theorem map_kind_scan_text {tail : List Char} (ht : ∀ c ∈ tail, c = ' ' ∨ c = '\n') :
    ∀ {l : Layout} {touching : Bool}, Spaced touching l → ∀ {fuel : Nat} (p : Position),
      (l.text.toList ++ tail).length < fuel →
      (scan fuel p (l.text.toList ++ tail)).map Token.kind = l.kinds ++ [.eof] := by
  have hdrop : ∀ {gap : List Char} (rest : List Char), (∀ c ∈ gap, c = ' ' ∨ c = '\n') →
      (gap ++ rest).dropWhile isBlank = rest.dropWhile isBlank := fun _ hgap =>
    List.dropWhile_append_of_pos fun c hc => isBlank_of_isGap (hgap c hc)
  intro l
  induction l with
  | nil =>
    intro touching _ fuel p hf
    obtain ⟨fuel, rfl⟩ := Nat.exists_eq_succ_of_ne_zero (Nat.ne_zero_of_lt hf)
    apply map_kind_scan_blank
    have hblank := hdrop [] ht
    rwa [List.append_nil] at hblank
  | cons piece l ih =>
    intro touching h fuel p hf
    obtain ⟨fuel, rfl⟩ := Nat.exists_eq_succ_of_ne_zero (Nat.ne_zero_of_lt hf)
    obtain ⟨hg, hs, -, hrest⟩ := h
    obtain ⟨c, cs, htext, hblank, hlexeme⟩ := lexeme_of_isSpellable hs (hrest.endsBefore ht)
    have hchars : (text (piece :: l)).toList ++ tail =
        piece.gap.toList ++ c :: (cs ++ ((text l).toList ++ tail)) := by
      rw [toList_text_cons, String.toList_append, String.toList_append, htext]
      simp only [List.append_assoc, List.cons_append]
    have hfront : ((text (piece :: l)).toList ++ tail).dropWhile isBlank =
        c :: (cs ++ ((text l).toList ++ tail)) := by
      rw [hchars, hdrop _ hg, List.dropWhile_cons, hblank, if_neg Bool.false_ne_true]
    obtain ⟨next, hscan⟩ := map_kind_scan_cons fuel p hfront hlexeme
    rw [hscan, ih hrest]
    · rfl
    · rw [hchars] at hf
      simp only [List.length_append, List.length_cons] at hf ⊢
      omega

theorem not_isTrivia_of_isSpellable {kind : Kind} (h : kind.isSpellable = true) :
    kind.isTrivia = false := by
  cases kind with
  | comment text => cases h
  | _ => rfl

theorem map_kind_significant (source : String) :
    (significant source).map Token.kind =
      ((tokenize source).map Token.kind).filter fun kind => !kind.isTrivia := by
  rw [List.filter_map]
  rfl

/-- **The sentence of a printed layout is the row of its tokens.** -/
theorem sentence_text {l : Layout} {gap : String} (h : Spaced false l) (hg : IsGap gap) :
    sentence (l.text ++ gap) = l.kinds := by
  have hscan := map_kind_scan_text hg h .start
    (Nat.lt_succ_self (l.text.toList ++ gap.toList).length)
  have hkinds : (significant (l.text ++ gap)).map Token.kind = l.kinds ++ [.eof] := by
    rw [map_kind_significant]
    unfold tokenize
    rw [String.toList_append, hscan, List.filter_eq_self]
    intro kind hk
    rcases List.mem_append.1 hk with hk | hk
    · rw [not_isTrivia_of_isSpellable (h.isSpellable kind hk)]
      rfl
    · rw [List.mem_singleton.1 hk]
      rfl
  have hne : ∀ kind ∈ l.kinds, decide (kind ≠ .eof) = true := by
    intro kind hk
    refine decide_eq_true ?_
    rintro rfl
    exact Bool.false_ne_true (h.isSpellable _ hk)
  unfold sentence
  rw [hkinds, List.takeWhile_append_of_pos hne]
  exact List.append_nil _

end Layout

end DomainForms
