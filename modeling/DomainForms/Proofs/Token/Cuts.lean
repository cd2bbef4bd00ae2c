import DomainForms.Proofs.Token.Positions

/-!
# Tokens cut out of a source

A stretch of a source from the start of one token to the end of another, read on its own, has the
tokens that stand there.  The first of them has nothing before it that it could be glued to, the last
one ends where it ended in the source unless what is put behind it goes on with it, and between two
of them nothing changes.

* `Token.Kind.StopsAt`: what is put behind a token does not go on with it.
* `Token.Fills`: a text is filled by tokens.
* `Token.exists_fills_of_scan`: what the loop gives first fills a stretch of its text.
* `Token.exists_fills`: **tokens in a row fill a stretch of their source.**
* `Token.Occurs`, `Token.Solid`: tokens in a row, and that they stand one behind the other.
-/

namespace DomainForms.Token

open Text
open String (utf8Len)

/-! ## What stands behind a token -/

/-- The first character of a text does not go on with a token. -/
def Kind.StopsAt (kind : Kind) (text : List Char) : Prop :=
  ∀ c ∈ kind.text.toList.head?, ∀ d ∈ text.head?, continues c d = false

theorem Kind.stopsAt_nil (kind : Kind) : kind.StopsAt [] := nofun

theorem Kind.stopsAt_ident {name : String} (h : (Kind.ident name).isLexical = true) {d : Char}
    (hd : isNameChar d = false) (text : List Char) : (Kind.ident name).StopsAt (d :: text) := by
  intro c hc d' hd'
  obtain rfl : d = d' := Option.some.inj hd'
  obtain ⟨cs, hname⟩ := List.head?_eq_some_iff.1 hc
  have hsegments := (Bool.and_eq_true_iff.1 h).2
  rw [show name.toList = c :: cs from hname] at hsegments
  have hstart := isNameStart_of_segments hsegments
  obtain ⟨-, hmark, hcomment, hcolon⟩ := not_special_of_isNameStart hstart
  rw [continues, hmark, if_neg (by simp), if_neg hcomment, if_neg hcolon, if_pos hstart]
  exact hd

theorem text_lexeme_of_continues {c : Char} {taken : List Char}
    (htaken : ∀ d ∈ taken, continues c d = true) :
    (lexeme c taken).kind.text.toList = c :: taken := by
  have hall : taken.takeWhile (continues c) = taken := by
    rw [List.takeWhile_eq_self_iff]
    exact htaken
  rw [text_lexeme, lexeme_eq c taken, hall]

theorem row_token {c : Char} (hc : isBlank c = false) {taken : List Char}
    (htaken : ∀ d ∈ taken, continues c d = true) {other : List Char}
    (hother : ∀ d ∈ other.head?, continues c d = false) :
    row (c :: (taken ++ other))
      = ([(lexeme c taken).kind].filter fun kind => !kind.isTrivia) ++ row other := by
  rw [row_cons hc, List.takeWhile_append_of_pos htaken, List.dropWhile_append_of_pos htaken,
    takeWhile_of_head hother, dropWhile_of_head hother, List.append_nil]

/-! ## Stretches of a text -/

/-- The text behind `before` starts and ends with the first and the last of the tokens, and it is
read as these tokens, whatever stands behind it and does not go on with the last of them. -/
structure Fills (before text : List Char) (tokens : List Token) : Prop where
  text_ne_nil : text ≠ []
  start_eq : ∀ t ∈ tokens.head?, t.span.start = utf8Len before
  stop_eq : ∀ t ∈ tokens.getLast?, t.span.stop = utf8Len (before ++ text)
  row_append : ∀ other, (∀ t ∈ tokens.getLast?, t.kind.StopsAt other) →
    row (text ++ other)
      = ((tokens.map Token.kind).filter fun kind => !kind.isTrivia) ++ row other

/-- A text that starts with a character which is not blank is filled by the token that it starts
with. -/
theorem fills_lexeme (before : List Char) {c : Char} (hc : isBlank c = false) {taken : List Char}
    (htaken : ∀ d ∈ taken, continues c d = true) :
    Fills before (c :: taken) [⟨(lexeme c taken).kind, .behind before (c :: taken)⟩] where
  text_ne_nil := List.cons_ne_nil _ _
  start_eq := by
    intro t ht
    cases ht
    exact Span.start_behind _ _
  stop_eq := by
    intro t ht
    rw [List.getLast?_singleton] at ht
    cases ht
    rw [Span.stop_behind, String.utf8Len_append]
  row_append := by
    intro other hother
    rw [List.getLast?_singleton] at hother
    have hstop : ∀ d ∈ other.head?, continues c d = false := by
      refine hother _ rfl c ?_
      rw [text_lexeme_of_continues htaken]
      rfl
    exact row_token hc htaken hstop

theorem Fills.cons {before gap text more : List Char} {first : Token} {tokens : List Token}
    (hfirst : Fills before text [first]) (hgap : ∀ c ∈ gap, isBlank c = true)
    (hmore : Fills (before ++ text ++ gap) more tokens) (hne : tokens ≠ [])
    (hstop : first.kind.StopsAt (gap ++ more)) :
    Fills before (text ++ (gap ++ more)) (first :: tokens) where
  text_ne_nil := by
    intro h
    exact hfirst.text_ne_nil (List.append_eq_nil_iff.1 h).1
  start_eq := by
    intro t ht
    cases ht
    exact hfirst.start_eq _ rfl
  stop_eq := by
    intro t ht
    rw [List.getLast?_cons_of_ne_nil hne] at ht
    rw [hmore.stop_eq t ht]
    simp only [List.append_assoc]
  row_append := by
    intro other hother
    rw [List.getLast?_cons_of_ne_nil hne] at hother
    have hhead : (gap ++ (more ++ other)).head? = (gap ++ more).head? := by
      rw [← List.append_assoc, List.head?_append_of_ne_nil]
      intro h
      exact hmore.text_ne_nil (List.append_eq_nil_iff.1 h).2
    have hstop' : ∀ t ∈ [first].getLast?, t.kind.StopsAt (gap ++ (more ++ other)) := by
      intro t ht
      cases ht
      intro c hc d hd
      rw [hhead] at hd
      exact hstop c hc d hd
    rw [List.append_assoc, List.append_assoc, hfirst.row_append _ hstop', row_blanks hgap,
      hmore.row_append _ hother, ← List.append_assoc, ← List.filter_append]
    rfl

/-- **What the loop gives first fills a stretch of its text**, behind some white space, and the rest
is what the loop gives for what is left. -/
theorem exists_fills_of_scan {rest : List Token} (hrest : rest ≠ []) :
    ∀ {tokens : List Token} {fuel : Nat} {before text : List Char}, text.length < fuel →
      tokens ≠ [] → scan fuel (Position.start.after before) text = tokens ++ rest →
      ∃ gap taken left fuel', (∀ c ∈ gap, isBlank c = true) ∧ text = gap ++ (taken ++ left) ∧
        left.length < fuel' ∧ Fills (before ++ gap) taken tokens ∧
        scan fuel' (Position.start.after (before ++ gap ++ taken)) left = rest := by
  intro tokens
  induction tokens with
  | nil => intro fuel before text _ hne; exact absurd rfl hne
  | cons first others ih =>
    intro fuel before text hfuel _ hscan
    obtain ⟨fuel, rfl⟩ := Nat.exists_eq_succ_of_ne_zero (Nat.ne_zero_of_lt hfuel)
    obtain ⟨gap, hgap, htext⟩ : ∃ gap, (∀ c ∈ gap, isBlank c = true) ∧
        text = gap ++ text.dropWhile isBlank :=
      ⟨text.takeWhile isBlank, fun c hc => List.mem_takeWhile_imp hc,
        List.takeWhile_append_dropWhile.symm⟩
    cases hfront : text.dropWhile isBlank with
    | nil =>
      -- there is only the end of the text, and more than one token
      rw [scan, hfront] at hscan
      have hlen := congrArg List.length hscan
      have hpos := List.length_pos_of_ne_nil hrest
      simp only [List.length_append, List.length_cons, List.length_nil] at hlen
      omega
    | cons c cs =>
      have hc : isBlank c = false := by
        have hhead := List.head?_dropWhile_not isBlank text
        rwa [hfront] at hhead
      rw [hfront] at htext
      subst htext
      rw [scan_cons fuel _ hgap hc, List.cons_append, List.cons.injEq] at hscan
      obtain ⟨hfirst, hscan⟩ := hscan
      have hsplit := List.takeWhile_append_dropWhile (p := continues c) (l := cs)
      have htaken : ∀ d ∈ cs.takeWhile (continues c), continues c d = true :=
        fun d hd => List.mem_takeWhile_imp hd
      have hstop : ∀ d ∈ (cs.dropWhile (continues c)).head?, continues c d = false := by
        intro d hd
        have hhead := List.head?_dropWhile_not (continues c) cs
        rwa [hd] at hhead
      have hkind : (lexeme c cs).kind = (lexeme c (cs.takeWhile (continues c))).kind := by
        rw [lexeme_eq c cs]
      rw [hkind] at hfirst
      generalize cs.takeWhile (continues c) = taken at hfirst hscan hsplit htaken
      generalize cs.dropWhile (continues c) = left at hscan hsplit hstop
      subst hsplit
      rw [← Position.after_append, ← List.append_assoc] at hscan
      have hfills : Fills (before ++ gap) (c :: taken) [first] := by
        rw [← hfirst, ← Position.after_append, ← Position.after_append, ← List.append_assoc]
        exact fills_lexeme _ hc htaken
      by_cases hothers : others = []
      · subst hothers
        refine ⟨gap, c :: taken, left, fuel, hgap, rfl, ?_, hfills, hscan⟩
        simp only [List.length_append, List.length_cons] at hfuel
        omega
      · have hfuel' : left.length < fuel := by
          simp only [List.length_append, List.length_cons] at hfuel
          omega
        obtain ⟨gap', taken', left', fuel', hgap', rfl, hleft, hfills', hscan'⟩ :=
          ih hfuel' hothers hscan
        -- what follows the first token in the text does not go on with it
        have hstops : first.kind.StopsAt (gap' ++ taken') := by
          intro c' hc' d hd
          rw [← hfirst, text_lexeme_of_continues htaken] at hc'
          cases hc'
          refine hstop d ?_
          rw [← List.append_assoc, List.head?_append, show (gap' ++ taken').head? = some d from hd]
          rfl
        refine ⟨gap, c :: taken ++ (gap' ++ taken'), left', fuel', hgap, ?_, hleft,
          hfills.cons hgap' hfills' hothers hstops, ?_⟩
        · simp only [List.append_assoc, List.cons_append]
        · rw [← hscan']
          simp only [List.append_assoc, List.cons_append]

theorem exists_scan_behind {tokens rest : List Token} (hrest : rest ≠ []) {fuel : Nat}
    {text : List Char} (hfuel : text.length < fuel) (h : scan fuel .start text = tokens ++ rest) :
    ∃ before left fuel', text = before ++ left ∧ left.length < fuel' ∧
      scan fuel' (Position.start.after before) left = rest := by
  by_cases htokens : tokens = []
  · subst htokens
    exact ⟨[], text, fuel, rfl, hfuel, h⟩
  · have hstart : scan fuel (Position.start.after []) text = tokens ++ rest := h
    obtain ⟨gap, taken, left, fuel', -, rfl, hleft, -, hscan⟩ :=
      exists_fills_of_scan hrest hfuel htokens hstart
    exact ⟨gap ++ taken, left, fuel', (List.append_assoc ..).symm, hleft, hscan⟩

/-! ## Tokens that the grammar reads -/

/-- What is left of a list when some items are dropped is cut out of the list itself behind the last
item of the first part. -/
theorem exists_append_of_filter {α : Type} {p : α → Bool} {items first second : List α}
    (h : items.filter p = first ++ second) :
    ∃ front behind, items = front ++ behind ∧ front.filter p = first ∧ behind.filter p = second ∧
      front.getLast? = first.getLast? := by
  rcases List.eq_nil_or_concat' first with rfl | ⟨init, last, rfl⟩
  · exact ⟨[], items, rfl, rfl, h, rfl⟩
  · rw [List.append_assoc] at h
    obtain ⟨front, behind, rfl, hfront, hbehind⟩ := List.filter_eq_append_iff.1 h
    obtain ⟨dropped, behind, rfl, hdropped, hlast, hsecond⟩ := List.filter_eq_cons_iff.1 hbehind
    refine ⟨front ++ (dropped ++ [last]), behind, ?_, ?_, hsecond, ?_⟩
    · simp only [List.append_assoc, List.singleton_append]
    · rw [List.filter_append, List.filter_append, hfront, List.filter_eq_nil_iff.2 hdropped,
        List.nil_append, List.filter_singleton, hlast]
      rfl
    · rw [List.getLast?_concat, ← List.append_assoc, List.getLast?_concat]

/-- A part of what is left when some items are dropped stands in the list itself between its own
first and last item. -/
theorem exists_cut_of_filter {α : Type} {p : α → Bool} {items before used behind : List α}
    (h : items.filter p = before ++ (used ++ behind)) (hne : used ≠ []) :
    ∃ front middle rest, items = front ++ (middle ++ rest) ∧ middle.filter p = used ∧
      rest.filter p = behind ∧ middle.head? = used.head? ∧ middle.getLast? = used.getLast? := by
  obtain ⟨first, others, rfl⟩ := List.exists_cons_of_ne_nil hne
  obtain ⟨front, later, rfl, -, hlater⟩ := List.filter_eq_append_iff.1 h
  rw [List.cons_append] at hlater
  obtain ⟨dropped, later, rfl, -, hfirst, hothers⟩ := List.filter_eq_cons_iff.1 hlater
  obtain ⟨middle, rest, rfl, hmiddle, hrest, hlast⟩ := exists_append_of_filter hothers
  refine ⟨front ++ dropped, first :: middle, rest, ?_, ?_, hrest, rfl, ?_⟩
  · simp only [List.append_assoc, List.cons_append]
  · rw [List.filter_cons_of_pos hfirst, hmiddle]
  · rw [List.getLast?_cons, List.getLast?_cons, hlast]

/-- **Tokens in a row fill a stretch of their source**, comments between them included. -/
theorem exists_fills {source : String} {before used behind : List Token}
    (h : significant source = before ++ (used ++ behind)) (hne : used ≠ []) (hbehind : behind ≠ []) :
    ∃ front text rest, source.toList = front ++ (text ++ rest) ∧ Fills front text used := by
  obtain ⟨tokens, middle, later, hcut, hmiddle, hlater, hhead, hlast⟩ := exists_cut_of_filter h hne
  have hlater_ne : later ≠ [] := by
    rintro rfl
    exact hbehind hlater.symm
  have hmiddle_ne : middle ≠ [] := by
    rintro rfl
    exact hne hmiddle.symm
  obtain ⟨front, left, fuel, hsource, hfuel, hscan⟩ :=
    exists_scan_behind (List.append_ne_nil_of_left_ne_nil hmiddle_ne later) (Nat.lt_succ_self _) hcut
  obtain ⟨gap, text, rest, -, -, hleft, -, hfills, -⟩ :=
    exists_fills_of_scan hlater_ne hfuel hmiddle_ne hscan
  refine ⟨front ++ gap, text, rest, ?_, hfills.text_ne_nil, ?_, ?_, ?_⟩
  · rw [hsource, hleft, List.append_assoc]
  · rw [← hhead]
    exact hfills.start_eq
  · rw [← hlast]
    exact hfills.stop_eq
  · intro other hother
    rw [← hlast] at hother
    have hkinds : (middle.map Token.kind).filter (fun kind => !kind.isTrivia)
        = (used.map Token.kind).filter (fun kind => !kind.isTrivia) := by
      rw [← hmiddle, List.filter_map, List.filter_map, Function.comp_def, List.filter_filter]
      simp only [Bool.and_self]
    rw [hfills.row_append other hother, hkinds]

/-! ## Rows of tokens -/

/-- Tokens that stand in a source in a row, before its end. -/
def Occurs (source : String) (tokens : List Token) : Prop :=
  ∃ before behind, significant source = before ++ (tokens ++ behind) ∧ behind ≠ []

theorem Occurs.part {source : String} {before used behind : List Token}
    (h : Occurs source (before ++ (used ++ behind))) : Occurs source used := by
  obtain ⟨front, rest, hsource, hrest⟩ := h
  refine ⟨front ++ before, behind ++ rest, ?_, List.append_ne_nil_of_right_ne_nil _ hrest⟩
  rw [hsource]
  simp only [List.append_assoc]

theorem Occurs.mem_significant {source : String} {tokens : List Token} (h : Occurs source tokens)
    {t : Token} (ht : t ∈ tokens) : t ∈ significant source := by
  obtain ⟨before, behind, hsource, -⟩ := h
  rw [hsource]
  exact List.mem_append_right _ (List.mem_append_left _ ht)

theorem sublist_middle {α : Type} (front part behind : List α) :
    part.Sublist (front ++ (part ++ behind)) :=
  (List.sublist_append_left part behind).trans (List.sublist_append_right _ _)

/-- Tokens that take characters and stand one behind the other. -/
structure Solid (tokens : List Token) : Prop where
  start_lt_stop : ∀ t ∈ tokens, t.span.start < t.span.stop
  ordered : tokens.Pairwise fun t t' => t.span.stop ≤ t'.span.start

theorem Solid.sublist {tokens part : List Token} (h : Solid tokens) (hs : part.Sublist tokens) :
    Solid part :=
  ⟨fun t ht => h.start_lt_stop t (hs.mem ht), h.ordered.sublist hs⟩

theorem Occurs.solid {source : String} {tokens : List Token} (h : Occurs source tokens) :
    Solid tokens := by
  obtain ⟨before, behind, hsource, hbehind⟩ := h
  have hcovers := covers_tokenize source
  obtain ⟨body, hbody, htakes⟩ := hcovers.exists_last
  have hsolid : Solid body := by
    constructor
    · intro t ht
      obtain ⟨front, hstands⟩ := exists_standsBehind (hbody ▸ List.mem_append_left _ ht)
      have hsize : utf8Len t.kind.text.toList ≠ 0 := fun hzero =>
        (htakes t ht).2 (String.utf8Len_eq_zero.1 hzero)
      rw [hstands.span_eq, Span.start_behind, Span.stop_behind]
      omega
    · have hordered := hcovers.ordered
      rw [hbody] at hordered
      exact (List.pairwise_append.1 hordered).1
  -- what stands before the end of the source is left of the tokens without it
  obtain ⟨behind, last, rfl⟩ := (List.eq_nil_or_concat' behind).resolve_left hbehind
  have hfilter : body.filter (fun t => !t.kind.isTrivia) = before ++ (tokens ++ behind) := by
    rw [significant, hbody, List.filter_append] at hsource
    have hend : (body.filter fun t => !t.kind.isTrivia)
        ++ [⟨.eof, .behind ([] ++ source.toList) []⟩] = before ++ (tokens ++ behind) ++ [last] := by
      rw [List.append_assoc, List.append_assoc]
      exact hsource
    exact (List.append_inj' hend rfl).1
  have hpart := sublist_middle before tokens behind
  rw [← hfilter] at hpart
  exact hsolid.sublist (hpart.trans List.filter_sublist)

end DomainForms.Token
