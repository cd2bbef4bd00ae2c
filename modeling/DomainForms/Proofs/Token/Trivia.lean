import DomainForms.Proofs.Layout
import Mathlib.Data.List.TakeWhile
import Mathlib.Data.String.Basic

/-!
# White space and comments between tokens

What the grammar reads of a source, the row of its tokens without comments, does not change when
white space or a comment is put between two tokens.  Two facts carry the proof.

* Maximal munch, `Token.lexeme_eq`: a token is its first character and the longest run of characters
  that go on with it.  Neither white space nor a semicolon goes on with a token, except that both go
  on with a comment, which is not read anyway.
* `Token.row_blanks` and `Token.row_comment`: white space and comments in front of a text are passed
  over, so that nothing behind them is glued to what stands before them.

`Token.row_insert` puts them together, by induction on the number of characters that are left, and
`Token.map_kind_significant_insert` says it of a whole source.
-/

namespace DomainForms.Token

open Text
open String (utf8Len)

/-! ## Maximal munch -/

/-- Whether a character goes on with the token that starts with `c`. -/
def continues (c : Char) : Char → Bool :=
  if (mark? c).isSome then fun _ => false
  else if c = ';' then (· ≠ '\n')
  else if c = ':' then isKeywordChar
  else if isNameStart c then isNameChar
  else fun _ => false

/-- **Maximal munch**: a token is its first character and the longest run of characters that go on
with it, and what the token is follows from these alone. -/
theorem lexeme_eq (c : Char) (cs : List Char) :
    lexeme c cs = ⟨(lexeme c (cs.takeWhile (continues c))).kind, c :: cs.takeWhile (continues c),
      cs.dropWhile (continues c)⟩ := by
  have hnone : cs.dropWhile (fun _ => false) = cs := by cases cs <;> rfl
  unfold lexeme continues
  cases mark? c with
  | some kind => simp [hnone]
  | none =>
    by_cases hcomment : c = ';'
    · simp [hcomment, List.takeWhile_idem]
    by_cases hcolon : c = ':'
    · simp [hcolon, List.takeWhile_idem]
    by_cases hname : isNameStart c = true
    · simp [hcomment, hcolon, hname, List.takeWhile_idem]
    · simp [hcomment, hcolon, hname, hnone]

/-- What is no character of a name or of a keyword goes on with a comment only. -/
theorem not_continues {c d : Char} (hc : c ≠ ';') (hn : isNameChar d = false)
    (hk : isKeywordChar d = false) : continues c d = false := by
  unfold continues
  rw [if_neg hc]
  by_cases hmark : (mark? c).isSome
  · rw [if_pos hmark]
  rw [if_neg hmark]
  by_cases hcolon : c = ':'
  · rw [if_pos hcolon, hk]
  rw [if_neg hcolon]
  by_cases hname : isNameStart c = true
  · rw [if_pos hname, hn]
  · rw [if_neg hname]

theorem not_continues_blank {c d : Char} (hc : c ≠ ';') (h : isBlank d = true) :
    continues c d = false := by
  have hall : ∀ r ∈ blankRanges, ∀ n ∈ List.range' r.1 (r.2 - r.1 + 1),
      isNameChar (Char.ofNat n) = false ∧ isKeywordChar (Char.ofNat n) = false := by
    decide +kernel
  obtain ⟨r, hr, hlow, hhigh⟩ := Ranges.exists_of_contains h
  obtain ⟨hn, hk⟩ := hall r hr d.toNat (List.mem_range'_1.2 ⟨hlow, by omega⟩)
  rw [Char.ofNat_toNat] at hn hk
  exact not_continues hc hn hk

/-! ## The row of tokens -/

/-- What the tokens of a text are, with the end behind them and without comments. -/
def row (text : List Char) : List Kind :=
  ((scan (text.length + 1) .start text).map Token.kind).filter fun kind => !kind.isTrivia

/-- What the tokens are depends neither on where the text starts, nor on the white space in front of
it, nor on the fuel, if it suffices. -/
theorem map_kind_scan_congr : ∀ (fuel fuel' : Nat) (p p' : Position) (text text' : List Char),
    text.dropWhile isBlank = text'.dropWhile isBlank →
      text.length < fuel → text'.length < fuel' →
      (scan fuel p text).map Token.kind = (scan fuel' p' text').map Token.kind := by
  intro fuel
  induction fuel with
  | zero => intro fuel' p p' text text' _ h; omega
  | succ fuel ih =>
    intro fuel' p p' text text' hsame h h'
    obtain ⟨fuel', rfl⟩ := Nat.exists_eq_succ_of_ne_zero (Nat.ne_zero_of_lt h')
    cases hfront : text'.dropWhile isBlank with
    | nil =>
      rw [Layout.map_kind_scan_blank _ p (hsame.trans hfront),
        Layout.map_kind_scan_blank _ p' hfront]
    | cons c cs =>
      obtain ⟨next, hscan⟩ :=
        Layout.map_kind_scan_cons fuel p (hsame.trans hfront) (lexeme_eq c cs)
      obtain ⟨next', hscan'⟩ := Layout.map_kind_scan_cons fuel' p' hfront (lexeme_eq c cs)
      -- the token takes a character, so what it leaves is shorter than either text
      have hrest : (cs.dropWhile (continues c)).length ≤ cs.length :=
        (List.dropWhile_sublist _).length_le
      have hlen : (text.dropWhile isBlank).length ≤ text.length :=
        (List.dropWhile_sublist _).length_le
      have hlen' : (text'.dropWhile isBlank).length ≤ text'.length :=
        (List.dropWhile_sublist _).length_le
      rw [hsame, hfront, List.length_cons] at hlen
      rw [hfront, List.length_cons] at hlen'
      rw [hscan, hscan', ih fuel' next next' _ _ rfl (by omega) (by omega)]

theorem row_eq {fuel : Nat} (p : Position) {text : List Char} (h : text.length < fuel) :
    row text = ((scan fuel p text).map Token.kind).filter fun kind => !kind.isTrivia := by
  rw [row, map_kind_scan_congr _ fuel _ p text text rfl (Nat.lt_succ_self _) h]

theorem map_kind_significant_eq_row (source : String) :
    (significant source).map Token.kind = row source.toList :=
  Layout.map_kind_significant source

theorem row_blanks {blanks : List Char} (hb : ∀ c ∈ blanks, isBlank c = true) (text : List Char) :
    row (blanks ++ text) = row text := by
  have hdrop : (blanks ++ text).dropWhile isBlank = text.dropWhile isBlank :=
    List.dropWhile_append_of_pos hb
  rw [row, row, map_kind_scan_congr _ _ _ .start _ _ hdrop (Nat.lt_succ_self _) (Nat.lt_succ_self _)]

/-- A text that starts with a token: its row is the token, unless it is a comment, and the row of
what the token leaves. -/
theorem row_cons {c : Char} (hc : isBlank c = false) (cs : List Char) :
    row (c :: cs) =
      ([(lexeme c (cs.takeWhile (continues c))).kind].filter fun kind => !kind.isTrivia)
        ++ row (cs.dropWhile (continues c)) := by
  have hfront : (c :: cs).dropWhile isBlank = c :: cs := by simp [hc]
  have hrest : (cs.dropWhile (continues c)).length < cs.length + 1 :=
    Nat.lt_succ_of_le (List.dropWhile_sublist _).length_le
  obtain ⟨next, hscan⟩ := Layout.map_kind_scan_cons (cs.length + 1) .start hfront (lexeme_eq c cs)
  rw [row, List.length_cons, hscan, row_eq next hrest, ← List.filter_append, List.singleton_append]

theorem row_comment (cs : List Char) : row (';' :: cs) = row (cs.dropWhile (· ≠ '\n')) := by
  have htrivia : (lexeme ';' (cs.takeWhile (continues ';'))).kind.isTrivia = true := rfl
  rw [row_cons (by decide), List.filter_cons, htrivia]
  rfl

/-! ## Spacing -/

/-- A text that separates tokens: white space, or a comment with the end of its line. -/
def IsSpacing (text : List Char) : Prop :=
  (∀ c ∈ text, isBlank c = true) ∨ ∃ comment, '\n' ∉ comment ∧ text = ';' :: (comment ++ ['\n'])

theorem dropWhile_line {comment : List Char} (h : '\n' ∉ comment) (text : List Char) :
    (comment ++ '\n' :: text).dropWhile (· ≠ '\n') = '\n' :: text := by
  have hall : ∀ c ∈ comment, decide (c ≠ '\n') = true := by
    intro c hc
    refine decide_eq_true ?_
    rintro rfl
    exact h hc
  rw [List.dropWhile_append_of_pos hall]
  rfl

theorem IsSpacing.isBlank_of_mem {text : List Char} (h : IsSpacing text) :
    ∀ c ∈ text.dropWhile (· ≠ '\n'), isBlank c = true := by
  rcases h with hblank | ⟨comment, hline, rfl⟩
  · intro c hc
    exact hblank c ((List.dropWhile_sublist _).mem hc)
  · intro c hc
    rw [List.dropWhile_cons, if_pos (by decide), dropWhile_line hline, List.mem_singleton] at hc
    rw [hc]
    decide

theorem IsSpacing.row_append {spacing : List Char} (h : IsSpacing spacing) (text : List Char) :
    row (spacing ++ text) = row text := by
  rcases h with hblank | ⟨comment, hline, rfl⟩
  · exact row_blanks hblank text
  · have hsplit : (';' :: (comment ++ ['\n'])) ++ text = ';' :: (comment ++ '\n' :: text) := by simp
    have hbreak : ∀ c ∈ ['\n'], isBlank c = true := by
      intro c hc
      rw [List.mem_singleton.1 hc]
      decide
    rw [hsplit, row_comment, dropWhile_line hline]
    exact row_blanks hbreak text

theorem IsSpacing.not_continues {spacing : List Char} (h : IsSpacing spacing) {c d : Char}
    (hc : c ≠ ';') (hd : spacing.head? = some d) : continues c d = false := by
  rcases h with hblank | ⟨comment, -, rfl⟩
  · exact not_continues_blank hc (hblank d (List.mem_of_mem_head? hd))
  · cases hd
    exact Token.not_continues hc (by decide) (by decide)

/-! ## Spacing inside a text -/

theorem offset_after : ∀ (text : List Char) (p : Position),
    (p.after text).offset = p.offset + utf8Len text := by
  intro text
  induction text with
  | nil => intro p; rfl
  | cons c cs ih =>
    intro p
    have hadvance : (p.advance c).offset = p.offset + c.utf8Size := by
      unfold Position.advance
      split <;> rfl
    have hstep : p.after (c :: cs) = (p.advance c).after cs := rfl
    rw [hstep, ih, hadvance, String.utf8Len_cons]
    omega

theorem exists_append_of_utf8Len_le {a b c d : List Char} (h : a ++ b = c ++ d)
    (hle : utf8Len a ≤ utf8Len c) : ∃ more, c = a ++ more ∧ b = more ++ d := by
  rcases List.append_eq_append_iff.1 h with ⟨more, rfl, hb⟩ | ⟨more, rfl, hd⟩
  · exact ⟨more, rfl, hb⟩
  · rw [String.utf8Len_append] at hle
    have hmore : more = [] := String.utf8Len_eq_zero.1 (by omega)
    subst hmore
    exact ⟨[], by simp, by simpa using hd.symm⟩

/-- Texts behind the first character of a token have the same row if the token takes the same of
them and leaves texts with the same row. -/
theorem row_cons_congr {c : Char} (hc : isBlank c = false) {cs cs' : List Char}
    (htaken : cs.takeWhile (continues c) = cs'.takeWhile (continues c))
    (hrest : row (cs.dropWhile (continues c)) = row (cs'.dropWhile (continues c))) :
    row (c :: cs) = row (c :: cs') := by
  rw [row_cons hc, row_cons hc, htaken, hrest]

theorem row_insert_behind {spacing : List Char} (hs : IsSpacing spacing) {c : Char}
    (hc : isBlank c = false) {taken after : List Char}
    (htaken : ∀ d ∈ taken, continues c d = true)
    (hafter : ∀ d ∈ after.head?, continues c d = false) :
    row (c :: (taken ++ (spacing ++ after))) = row (c :: (taken ++ after)) := by
  by_cases hcomment : c = ';'
  · -- a comment runs on to the first line break of the spacing
    subst hcomment
    have hline : ∀ d ∈ taken, decide (d ≠ '\n') = true := htaken
    have hstop : after.dropWhile (· ≠ '\n') = after := dropWhile_of_head hafter
    have hbehind : (spacing ++ after).dropWhile (· ≠ '\n')
        = spacing.dropWhile (· ≠ '\n') ++ after := by
      rw [List.dropWhile_append]
      split
      · rename_i hnone
        rw [List.isEmpty_iff.1 hnone, hstop, List.nil_append]
      · rfl
    rw [row_comment, row_comment, List.dropWhile_append_of_pos hline,
      List.dropWhile_append_of_pos hline, hstop, hbehind, row_blanks hs.isBlank_of_mem]
  · cases spacing with
    | nil => rfl
    | cons d spacing =>
      have hfirst : ∀ d' ∈ (d :: spacing ++ after).head?, continues c d' = false := by
        intro d' hd'
        cases hd'
        exact hs.not_continues hcomment rfl
      refine row_cons_congr hc ?_ ?_
      · rw [List.takeWhile_append_of_pos htaken, List.takeWhile_append_of_pos htaken,
          takeWhile_of_head hfirst, takeWhile_of_head hafter]
      · rw [List.dropWhile_append_of_pos htaken, List.dropWhile_append_of_pos htaken,
          dropWhile_of_head hfirst, dropWhile_of_head hafter]
        exact hs.row_append after

theorem scan_cons (fuel : Nat) (p : Position) {blanks : List Char}
    (hb : ∀ d ∈ blanks, isBlank d = true) {c : Char} (hc : isBlank c = false) (cs : List Char) :
    scan (fuel + 1) p (blanks ++ c :: cs) =
      let next := p.after (blanks ++ c :: cs.takeWhile (continues c))
      ⟨(lexeme c cs).kind, .between (p.after blanks) next⟩ ::
        scan fuel next (cs.dropWhile (continues c)) := by
  have hfront : ∀ d ∈ (c :: cs).head?, isBlank d = false := by
    intro d hd
    cases hd
    exact hc
  have hafter : ∀ text, (p.after blanks).after text = p.after (blanks ++ text) :=
    fun text => (List.foldl_append ..).symm
  rw [scan, List.takeWhile_append_of_pos hb, List.dropWhile_append_of_pos hb,
    takeWhile_of_head hfront, dropWhile_of_head hfront, List.append_nil]
  dsimp only
  rw [lexeme_eq c cs, hafter]

/-- **Spacing between tokens does not change the row**, where `p` is the position that the text
starts at.  The induction goes from token to token up to the place of the spacing. -/
theorem row_insert {spacing : List Char} (hs : IsSpacing spacing) :
    ∀ (fuel : Nat) (p : Position) (before after : List Char), (before ++ after).length < fuel →
      (∀ t ∈ scan fuel p (before ++ after), ¬ (t.span.start < p.offset + utf8Len before ∧
        p.offset + utf8Len before < t.span.stop)) →
      row (before ++ (spacing ++ after)) = row (before ++ after) := by
  intro fuel
  induction fuel with
  | zero => intro p before after h; omega
  | succ fuel ih =>
    intro p before after hfuel hspans
    obtain ⟨blanks, hblank, hbefore⟩ : ∃ blanks, (∀ c ∈ blanks, isBlank c = true) ∧
        before = blanks ++ before.dropWhile isBlank :=
      ⟨before.takeWhile isBlank, fun c hc => List.mem_takeWhile_imp hc,
        List.takeWhile_append_dropWhile.symm⟩
    cases hfront : before.dropWhile isBlank with
    | nil =>
      -- the spacing stands in front of the first token
      rw [hbefore, hfront, List.append_nil, row_blanks hblank, row_blanks hblank, hs.row_append]
    | cons c more =>
      have hc : isBlank c = false := by
        have hhead := List.head?_dropWhile_not isBlank before
        rwa [hfront] at hhead
      rw [hfront] at hbefore
      subst hbefore
      rw [List.append_assoc, List.cons_append, scan_cons fuel p hblank hc] at hspans
      generalize hrest : (more ++ after).dropWhile (continues c) = rest at hspans
      have hsplit := List.takeWhile_append_dropWhile (p := continues c) (l := more ++ after)
      have htaken : ∀ d ∈ (more ++ after).takeWhile (continues c), continues c d = true :=
        fun d hd => List.mem_takeWhile_imp hd
      rw [hrest] at hsplit
      generalize (more ++ after).takeWhile (continues c) = taken at hspans hsplit htaken
      -- the first token does not reach beyond the place of the spacing
      have hfirst := hspans _ List.mem_cons_self
      have hsize := Char.utf8Size_pos c
      simp only [Span.between, offset_after, String.utf8Len_append, String.utf8Len_cons] at hfirst
      obtain ⟨others, rfl, rfl⟩ := exists_append_of_utf8Len_le hsplit (by omega)
      have hstop : ∀ d ∈ (others ++ after).head?, continues c d = false := by
        intro d hd
        have hhead := List.head?_dropWhile_not (continues c) (taken ++ others ++ after)
        rwa [hrest, hd] at hhead
      simp only [List.append_assoc, List.cons_append, row_blanks hblank]
      cases others with
      | nil => exact row_insert_behind hs hc htaken hstop
      | cons d others =>
        have hstop' : ∀ e ∈ (d :: others ++ (spacing ++ after)).head?, continues c e = false :=
          hstop
        refine row_cons_congr hc ?_ ?_
        · rw [List.takeWhile_append_of_pos htaken, List.takeWhile_append_of_pos htaken,
            takeWhile_of_head hstop, takeWhile_of_head hstop']
        · rw [List.dropWhile_append_of_pos htaken, List.dropWhile_append_of_pos htaken,
            dropWhile_of_head hstop, dropWhile_of_head hstop']
          refine ih (p.after (blanks ++ c :: taken)) (d :: others) after ?_ ?_
          · simp only [List.length_append, List.length_cons] at hfuel ⊢
            omega
          · intro t ht
            have hlater := hspans t (List.mem_cons_of_mem _ ht)
            simp only [offset_after, String.utf8Len_append, String.utf8Len_cons] at hlater ⊢
            omega

/-- **Spacing between the tokens of a source does not change what the grammar reads**: white space or
a comment that is put at an offset inside no token leaves the row of tokens as it was. -/
theorem map_kind_significant_insert {before after spacing : String}
    (hs : IsSpacing spacing.toList)
    (hspans : ∀ t ∈ tokenize (before ++ after),
      ¬ (t.span.start < before.utf8ByteSize ∧ before.utf8ByteSize < t.span.stop)) :
    (significant (before ++ spacing ++ after)).map Token.kind
      = (significant (before ++ after)).map Token.kind := by
  have hbytes : before.utf8ByteSize = Position.start.offset + utf8Len before.toList := by
    rw [← String.utf8ByteSize_ofList, String.ofList_toList]
    exact (Nat.zero_add _).symm
  rw [tokenize, String.toList_append, hbytes] at hspans
  rw [map_kind_significant_eq_row, map_kind_significant_eq_row, String.toList_append,
    String.toList_append, String.toList_append, List.append_assoc]
  exact row_insert hs _ .start before.toList after.toList (Nat.lt_succ_self _) hspans

end DomainForms.Token
