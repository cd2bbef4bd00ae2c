import DomainForms.Proofs.QualifiedName
import DomainForms.Proofs.Token.Trivia
import Mathlib.Data.List.Induction

/-!
# Where tokens stand

The lexer keeps a byte offset, a line and a column, and moves all three over every character that it
passes.  So the position behind a text says how many bytes the text has, how many line breaks, and
how many characters behind the last of them (`Position.start_after`).

A source is white space and tokens in turn, with the end behind them: `Token.Covers` says so of the
rest of a source, one token after the other, and `Token.scan_covers` proves it of the loop.  All that
is said about tokens and their places is read off it.

* `Text.takeBytes?_append`, `Text.dropBytes?_append`: cutting a text at an offset.
* `Token.StandsBehind`: a token stands in a source behind a text, where its span says.
* `Token.Covers.standsBehind`, `Token.Covers.ordered`, `Token.Covers.blank_or_covered`: tokens stand
  where they say, in order, and nothing but white space is left out.
* `Token.tokenize_lossless`: **nothing of a source is lost, and every place is right.**
-/

namespace DomainForms

open String (utf8Len)

/-! ## Lines -/

/-- What stands behind the last line break of a text. -/
def Text.lastLine (text : List Char) : List Char := (text.reverse.takeWhile (· ≠ '\n')).reverse

theorem Text.lastLine_concat (text : List Char) (c : Char) :
    lastLine (text ++ [c]) = if c = '\n' then [] else lastLine text ++ [c] := by
  by_cases hc : c = '\n' <;> simp [lastLine, hc]

theorem Text.length_lastLine_le (text : List Char) : (lastLine text).length ≤ text.length := by
  have := (List.takeWhile_sublist (fun c => decide (c ≠ '\n')) (l := text.reverse)).length_le
  simpa [lastLine] using this

namespace Position

theorem after_append (p : Position) (text more : List Char) :
    p.after (text ++ more) = (p.after text).after more :=
  List.foldl_append

/-- **The position behind a text** counts its bytes, its line breaks, and the characters behind the
last line break. -/
theorem start_after (text : List Char) :
    start.after text = ⟨utf8Len text, text.count '\n' + 1, (Text.lastLine text).length + 1⟩ := by
  induction text using List.reverseRecOn with
  | nil => rfl
  | append_singleton text c ih =>
    have hstep : (start.after text).after [c] = (start.after text).advance c := rfl
    rw [after_append, hstep, ih, Text.lastLine_concat]
    by_cases hc : c = '\n' <;> simp [advance, hc, List.count_append]

end Position

/-! ## Bytes -/

namespace Text

theorem takeBytes?_append : ∀ before after : List Char,
    takeBytes? (before ++ after) (utf8Len before) = some before := by
  intro before
  induction before with
  | nil => intro after; cases after <;> rfl
  | cons c cs ih =>
    intro after
    obtain ⟨n, hn⟩ := Nat.exists_eq_succ_of_ne_zero (Nat.ne_of_gt (Char.utf8Size_pos c))
    rw [String.utf8Len_cons, hn, Nat.add_succ, List.cons_append, takeBytes?, hn]
    have hrest : utf8Len cs + n + 1 - (n + 1) = utf8Len cs := by omega
    rw [if_pos (by omega), hrest, ih after]
    rfl

theorem dropBytes?_append : ∀ before after : List Char,
    dropBytes? (before ++ after) (utf8Len before) = some after := by
  intro before
  induction before with
  | nil => intro after; cases after <;> rfl
  | cons c cs ih =>
    intro after
    obtain ⟨n, hn⟩ := Nat.exists_eq_succ_of_ne_zero (Nat.ne_of_gt (Char.utf8Size_pos c))
    rw [String.utf8Len_cons, hn, Nat.add_succ, List.cons_append, dropBytes?, hn]
    have hrest : utf8Len cs + n + 1 - (n + 1) = utf8Len cs := by omega
    rw [if_pos (by omega), hrest, ih after]

theorem utf8Len_toList (source : String) : utf8Len source.toList = source.utf8ByteSize := by
  rw [← String.utf8ByteSize_ofList, String.ofList_toList]

/-- An offset, a line and a column that name the place in a source behind a first part of it. -/
structure IsPlace (source before : List Char) (offset line column : Nat) : Prop where
  /-- The offset lies right behind that part. -/
  takeBytes?_eq : takeBytes? source offset = some before
  /-- The line is one more than the number of line breaks. -/
  line_eq : line = before.count '\n' + 1
  /-- The column is one more than the number of characters behind the last line break. -/
  column_eq : column = (lastLine before).length + 1

end Text

/-! ## Spans -/

/-- The span of a text that stands behind another one. -/
def Span.behind (before text : List Char) : Span :=
  .between (Position.start.after before) (Position.start.after (before ++ text))

namespace Span

variable (before text : List Char)

@[simp] theorem start_behind : (behind before text).start = utf8Len before := by
  simp [behind, between, Position.start_after]

@[simp] theorem stop_behind : (behind before text).stop = utf8Len before + utf8Len text := by
  simp [behind, between, Position.start_after, String.utf8Len_append]

@[simp] theorem line_behind : (behind before text).line = before.count '\n' + 1 := by
  simp [behind, between, Position.start_after]

@[simp] theorem column_behind :
    (behind before text).column = (Text.lastLine before).length + 1 := by
  simp [behind, between, Position.start_after]

/-- **A span covers the text that it was made for.** -/
theorem text_behind {source : String} {after : List Char}
    (h : source.toList = before ++ (text ++ after)) :
    (behind before text).text source = String.ofList text := by
  have hsize : (behind before text).size = utf8Len text := by
    simp [size]
  rw [Span.text, if_neg (by simp), hsize, start_behind, h, Text.dropBytes?_append, Option.bind_some,
    Text.takeBytes?_append]
  rfl

end Span

namespace Token

open Text

/-! ## What a token is written as -/

theorem text_of_mark? {c : Char} {kind : Kind} (h : mark? c = some kind) :
    kind.text.toList = [c] := by
  unfold mark? at h
  repeat' split at h
  all_goals
    cases h
    try subst c
    try rfl

theorem text_nameKind (text : List Char) : (nameKind text).text.toList = text := by
  unfold nameKind
  split <;> simp [Kind.text]

theorem text_keywordKind (name : List Char) : (keywordKind name).text.toList = ':' :: name := by
  unfold keywordKind
  split
  · rename_i hempty
    simp [Kind.text, List.isEmpty_iff.1 hempty]
  · simp [Kind.text]

/-- **A token is written as the characters that it takes.** -/
theorem text_lexeme (c : Char) (cs : List Char) :
    (lexeme c cs).kind.text.toList = (lexeme c cs).text := by
  unfold lexeme
  split
  · exact text_of_mark? ‹_›
  · split
    · simp [Kind.text]
    · split
      · rename_i hc
        subst hc
        exact text_keywordKind _
      · split
        · exact text_nameKind _
        · simp [Kind.text]

/-! ## Tokens one after the other -/

/-- The text `rest` behind `before` is white space and tokens in turn, and the tokens stand where
their spans say; the end of the source is the last of them. -/
inductive Covers : List Char → List Char → List Token → Prop
  | finish {before blanks : List Char} (hblank : ∀ c ∈ blanks, isBlank c = true) :
      Covers before blanks [⟨.eof, .behind (before ++ blanks) []⟩]
  | token {before blanks rest : List Char} {kind : Kind} {tokens : List Token}
      (hblank : ∀ c ∈ blanks, isBlank c = true) (hkind : kind ≠ .eof) (htext : kind.text.toList ≠ [])
      (hrest : Covers (before ++ blanks ++ kind.text.toList) rest tokens) :
      Covers before (blanks ++ (kind.text.toList ++ rest))
        (⟨kind, .behind (before ++ blanks) kind.text.toList⟩ :: tokens)

/-- **The loop covers its text**, if its fuel is enough for every character. -/
theorem scan_covers : ∀ (fuel : Nat) (before text : List Char), text.length < fuel →
    Covers before text (scan fuel (Position.start.after before) text) := by
  intro fuel
  induction fuel with
  | zero => intro before text h; omega
  | succ fuel ih =>
    intro before text h
    have hblank : ∀ c ∈ text.takeWhile isBlank, isBlank c = true :=
      fun c hc => List.mem_takeWhile_imp hc
    have hsplit : text = text.takeWhile isBlank ++ text.dropWhile isBlank :=
      List.takeWhile_append_dropWhile.symm
    generalize text.takeWhile isBlank = blanks at hblank hsplit
    cases hfront : text.dropWhile isBlank with
    | nil =>
      rw [hfront, List.append_nil] at hsplit
      subst hsplit
      have hall : text.takeWhile isBlank = text := by
        rw [List.takeWhile_eq_self_iff]
        exact hblank
      rw [scan, hfront, hall, ← Position.after_append]
      have hfinish : Covers before text [⟨.eof, .behind (before ++ text) []⟩] := .finish hblank
      rwa [Span.behind, List.append_nil] at hfinish
    | cons c cs =>
      have hc : isBlank c = false := by
        have hhead := List.head?_dropWhile_not isBlank text
        rwa [hfront] at hhead
      have htext : (lexeme c cs).kind.text.toList = c :: cs.takeWhile (continues c) := by
        rw [text_lexeme, lexeme_eq c cs]
      rw [hfront] at hsplit
      subst hsplit
      rw [scan_cons fuel _ hblank hc, ← htext, ← Position.after_append, ← Position.after_append,
        ← List.append_assoc]
      have hcs : c :: cs = (lexeme c cs).kind.text.toList ++ cs.dropWhile (continues c) := by
        rw [htext, List.cons_append, List.takeWhile_append_dropWhile]
      have hlen : (cs.dropWhile (continues c)).length ≤ cs.length :=
        (List.dropWhile_sublist _).length_le
      rw [List.length_append, List.length_cons] at h
      rw [hcs]
      refine Covers.token hblank (lexeme_kind_ne_eof c cs) ?_ (ih _ _ (by omega))
      rw [htext]
      exact List.cons_ne_nil _ _

/-! ## Places -/

/-- A token stands in a source behind a text, as it is written, and its span says so. -/
structure StandsBehind (source before : List Char) (t : Token) : Prop where
  /-- The source goes on with the token behind the text. -/
  source_eq : ∃ after, source = before ++ (t.kind.text.toList ++ after)
  /-- The span is that of the token. -/
  span_eq : t.span = .behind before t.kind.text.toList

namespace Covers

variable {before rest : List Char} {tokens : List Token}

/-- The last token is the end of the source, and no other one is. -/
theorem exists_last (h : Covers before rest tokens) :
    ∃ body, tokens = body ++ [⟨.eof, .behind (before ++ rest) []⟩] ∧
      ∀ t ∈ body, t.kind ≠ .eof ∧ t.kind.text.toList ≠ [] := by
  induction h with
  | finish hblank => exact ⟨[], rfl, fun t ht => absurd ht List.not_mem_nil⟩
  | @token before blanks rest kind tokens hblank hkind htext _ ih =>
    obtain ⟨body, rfl, hbody⟩ := ih
    refine ⟨⟨kind, .behind (before ++ blanks) kind.text.toList⟩ :: body, ?_, ?_⟩
    · simp only [List.append_assoc, List.cons_append]
    · intro t ht
      rcases List.mem_cons.1 ht with rfl | ht
      · exact ⟨hkind, htext⟩
      · exact hbody t ht

/-- **Every token stands in the text where its span says.** -/
theorem standsBehind (h : Covers before rest tokens) :
    ∀ t ∈ tokens, ∃ gap, StandsBehind (before ++ rest) (before ++ gap) t := by
  induction h with
  | @finish before blanks hblank =>
    intro t ht
    rw [List.mem_singleton.1 ht]
    refine ⟨blanks, ⟨[], ?_⟩, rfl⟩
    rw [List.append_nil]
    exact (List.append_nil _).symm
  | @token before blanks rest kind tokens hblank hkind htext _ ih =>
    intro t ht
    rcases List.mem_cons.1 ht with rfl | ht
    · refine ⟨blanks, ⟨rest, ?_⟩, rfl⟩
      rw [List.append_assoc]
    · obtain ⟨gap, hstands⟩ := ih t ht
      refine ⟨blanks ++ (kind.text.toList ++ gap), ?_⟩
      simpa only [List.append_assoc] using hstands

theorem ordered (h : Covers before rest tokens) :
    tokens.Pairwise fun t t' => t.span.stop ≤ t'.span.start := by
  induction h with
  | finish hblank => exact List.pairwise_singleton _ _
  | @token before blanks rest kind tokens hblank hkind htext hrest ih =>
    refine List.pairwise_cons.2 ⟨fun t ht => ?_, ih⟩
    obtain ⟨gap, hstands⟩ := hrest.standsBehind t ht
    rw [hstands.span_eq]
    simp only [Span.stop_behind, Span.start_behind, String.utf8Len_append]
    omega

theorem mem_left_or_right {left right front after : List Char} {c : Char}
    (h : left ++ right = front ++ c :: after) :
    (∃ more, left = front ++ c :: more) ∨
      ∃ more, front = left ++ more ∧ right = more ++ c :: after := by
  rcases List.append_eq_append_iff.1 h with ⟨more, hfront, hright⟩ | ⟨more, hleft, hmore⟩
  · exact Or.inr ⟨more, hfront, hright⟩
  · cases more with
    | nil => exact Or.inr ⟨[], by simpa using hleft.symm, by simpa using hmore.symm⟩
    | cons d more =>
      rw [List.cons_append] at hmore
      obtain ⟨rfl, -⟩ := List.cons.inj hmore
      exact Or.inl ⟨more, hleft⟩

/-- **Every character is white space or lies inside a token.** -/
theorem blank_or_covered (h : Covers before rest tokens) :
    ∀ (front : List Char) (c : Char) (after : List Char), rest = front ++ c :: after →
      isBlank c = true ∨ ∃ t ∈ tokens, t.span.start ≤ utf8Len (before ++ front) ∧
        utf8Len (before ++ front) + c.utf8Size ≤ t.span.stop := by
  induction h with
  | @finish before blanks hblank =>
    intro front c after heq
    exact Or.inl (hblank c (by simp [heq]))
  | @token before blanks rest kind tokens hblank hkind htext hrest ih =>
    intro front c after heq
    rcases mem_left_or_right heq with ⟨more, hgap⟩ | ⟨front, rfl, hbehind⟩
    · exact Or.inl (hblank c (by simp [hgap]))
    rcases mem_left_or_right hbehind with ⟨more, htoken⟩ | ⟨front, rfl, hlater⟩
    · refine Or.inr ⟨_, List.mem_cons_self, ?_⟩
      simp only [Span.start_behind, Span.stop_behind, htoken, String.utf8Len_append,
        String.utf8Len_cons]
      omega
    · rcases ih front c after hlater with hc | ⟨t, ht, hstart, hstop⟩
      · exact Or.inl hc
      · refine Or.inr ⟨t, List.mem_cons_of_mem _ ht, ?_⟩
        simp only [List.append_assoc] at hstart hstop
        exact ⟨hstart, hstop⟩

end Covers

/-! ## A whole source -/

theorem covers_tokenize (source : String) : Covers [] source.toList (tokenize source) :=
  scan_covers _ [] source.toList (Nat.lt_succ_self _)

theorem exists_standsBehind {source : String} {t : Token} (h : t ∈ tokenize source) :
    ∃ before, StandsBehind source.toList before t :=
  (covers_tokenize source).standsBehind t h

namespace StandsBehind

variable {source : String} {before : List Char} {t : Token}

theorem text_eq (h : StandsBehind source.toList before t) : t.span.text source = t.kind.text := by
  obtain ⟨after, hsource⟩ := h.source_eq
  rw [h.span_eq, Span.text_behind _ _ hsource, String.ofList_toList]

theorem isPlace (h : StandsBehind source.toList before t) :
    IsPlace source.toList before t.span.start t.span.line t.span.column := by
  obtain ⟨after, hsource⟩ := h.source_eq
  rw [h.span_eq, hsource]
  refine ⟨?_, Span.line_behind _ _, Span.column_behind _ _⟩
  rw [Span.start_behind, takeBytes?_append]

theorem takeBytes?_stop (h : StandsBehind source.toList before t) :
    takeBytes? source.toList t.span.stop = some (before ++ t.kind.text.toList) := by
  obtain ⟨after, hsource⟩ := h.source_eq
  rw [h.span_eq, Span.stop_behind, hsource, ← List.append_assoc, ← String.utf8Len_append,
    takeBytes?_append]

theorem start_le (h : StandsBehind source.toList before t) :
    t.span.start ≤ source.utf8ByteSize := by
  obtain ⟨after, hsource⟩ := h.source_eq
  rw [← utf8Len_toList, hsource, h.span_eq, Span.start_behind, String.utf8Len_append]
  omega

theorem length_before_le (h : StandsBehind source.toList before t) :
    before.length ≤ source.length := by
  obtain ⟨after, hsource⟩ := h.source_eq
  have hlen := congrArg List.length hsource
  rw [List.length_append, String.length_toList] at hlen
  omega

theorem line_le (h : StandsBehind source.toList before t) : t.span.line ≤ source.length + 1 := by
  have hlen := h.length_before_le
  have hline : before.count '\n' ≤ before.length := List.count_le_length
  rw [h.isPlace.line_eq]
  omega

theorem column_le (h : StandsBehind source.toList before t) :
    t.span.column ≤ source.length + 1 := by
  have hlen := h.length_before_le
  have hcolumn := length_lastLine_le before
  rw [h.isPlace.column_eq]
  omega

end StandsBehind

/-- A name of segments with dots between them, each of which starts as an identifier does. -/
def IsDottedName (name : String) : Prop :=
  ∃ parts : List String, parts ≠ [] ∧ name = join parts ∧
    ∀ part ∈ parts, '.' ∉ part.toList ∧
      ∃ c cs, part.toList = c :: cs ∧ (isLetter c = true ∨ c = '_')

theorem isDottedName_of_isLexical {name : String} (h : (Kind.ident name).isLexical = true) :
    IsDottedName name := by
  rw [isLexical_ident, Bool.and_eq_true, List.all_eq_true (l := segments _)] at h
  refine ⟨(segments name.toList).map String.ofList, ?_, ?_, ?_⟩
  · simpa using segments_ne_nil name.toList
  · rw [join_segments, String.ofList_toList]
  · intro part hpart
    obtain ⟨segment, hm, rfl⟩ := List.mem_map.1 hpart
    rw [String.toList_ofList]
    refine ⟨not_mem_of_mem_segments _ segment hm, ?_⟩
    cases segment with
    | nil => cases h.2 [] hm
    | cons c cs =>
      have hc : isNameStart c = true := h.2 (c :: cs) hm
      exact ⟨c, cs, rfl, by simpa [isNameStart] using hc⟩

/-- **Nothing of a source is lost, and every place is right.**  The end of the source is the last
token and stands behind the last byte.  All other tokens take characters; they stand one behind the
other, and every character that lies in none of them is white space.  A token covers what it is
written as, between two characters, and its line and its column are counted in the source; both are
at most one more than the number of characters.  An identifier is a dotted name. -/
theorem tokenize_lossless (source : String) :
    (∃ body last, tokenize source = body ++ [last] ∧ last.kind = .eof ∧
      last.span.start = source.utf8ByteSize ∧ last.span.stop = source.utf8ByteSize ∧
      ∀ t ∈ body, t.kind ≠ .eof ∧ t.span.start < t.span.stop) ∧
    (tokenize source).Pairwise (fun t t' => t.span.stop ≤ t'.span.start) ∧
    (∀ before c after, source.toList = before ++ c :: after →
      isBlank c = true ∨ ∃ t ∈ tokenize source, t.span.start ≤ utf8Len before ∧
        utf8Len before + c.utf8Size ≤ t.span.stop) ∧
    ∀ t ∈ tokenize source,
      t.span.text source = t.kind.text ∧
      (∃ before, IsPlace source.toList before t.span.start t.span.line t.span.column) ∧
      (∃ upTo, takeBytes? source.toList t.span.stop = some upTo) ∧
      t.span.line ≤ source.length + 1 ∧ t.span.column ≤ source.length + 1 ∧
      ∀ name, t.kind = .ident name → IsDottedName name := by
  have hcovers := covers_tokenize source
  have hbytes := utf8Len_toList source
  refine ⟨?_, hcovers.ordered, hcovers.blank_or_covered, fun t ht => ?_⟩
  · obtain ⟨body, hbody, htokens⟩ := hcovers.exists_last
    refine ⟨body, _, hbody, rfl, ?_, ?_, fun t ht => ⟨(htokens t ht).1, ?_⟩⟩
    · simp [hbytes]
    · simp [hbytes]
    · obtain ⟨before, hstands⟩ := exists_standsBehind (hbody ▸ List.mem_append_left _ ht)
      have hsize : utf8Len t.kind.text.toList ≠ 0 := fun hzero =>
        (htokens t ht).2 (String.utf8Len_eq_zero.1 hzero)
      rw [hstands.span_eq, Span.start_behind, Span.stop_behind]
      omega
  · obtain ⟨before, hstands⟩ := exists_standsBehind ht
    refine ⟨hstands.text_eq, ⟨before, hstands.isPlace⟩, ⟨_, hstands.takeBytes?_stop⟩,
      hstands.line_le, hstands.column_le, fun name hname => ?_⟩
    have hlexical := isLexical_of_mem_scan _ _ _ t ht
    rw [hname] at hlexical
    exact isDottedName_of_isLexical hlexical

end Token

end DomainForms
