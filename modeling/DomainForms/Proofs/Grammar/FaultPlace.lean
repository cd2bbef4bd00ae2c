import DomainForms.Proofs.Grammar.FirstFault

/-!
# Where an error points

The lexer counts lines and columns while it reads, and the line that an error shows is cut out of
the source at the byte offset.  Both describe the text before the offset: its line breaks are the
lines above, and what stands behind the last of them begins the line.

* `Text.getElem?_splitOn`: the line around a place is the one that its line breaks count up to.
* `Text.lineAt_append`: the line that is cut out of a source.
* `Grammar.fault_place_coherent`: **an error of any of the three readers names one place.**
-/

namespace DomainForms

namespace Text

open String (utf8Len)

/-! ## Lines -/

theorem not_mem_lastLine (text : List Char) : '\n' ∉ lastLine text := by
  intro hmem
  have hne := List.mem_takeWhile_imp (List.mem_reverse.1 hmem)
  simp at hne

theorem eq_lastLine (text : List Char) :
    text = lastLine text ∨ ∃ lead, text = lead ++ '\n' :: lastLine text := by
  induction text using List.reverseRecOn with
  | nil => exact .inl rfl
  | append_singleton text c ih =>
    rw [lastLine_concat]
    by_cases hc : c = '\n'
    · rw [if_pos hc, hc]
      exact .inr ⟨text, rfl⟩
    · rw [if_neg hc]
      rcases ih with ih | ⟨lead, ih⟩
      · exact .inl (congrArg (· ++ [c]) ih)
      · exact .inr ⟨lead, by simpa using congrArg (· ++ [c]) ih⟩

theorem length_splitOn (text : List Char) :
    (text.splitOn '\n').length = text.count '\n' + 1 := by
  induction text with
  | nil => rfl
  | cons c text ih =>
    rw [List.splitOn_cons_eq_if_modifyHead]
    by_cases hc : c = '\n' <;> simp [hc, ih]

theorem head?_splitOn (text : List Char) :
    (text.splitOn '\n').head? = some (text.takeWhile (· ≠ '\n')) := by
  induction text with
  | nil => rfl
  | cons c text ih =>
    rw [List.splitOn_cons_eq_if_modifyHead]
    by_cases hc : c = '\n'
    · simp [hc]
    · simp [hc, List.head?_modifyHead, ih]

/-- **The line around a place** is the one that the line breaks before it count up to. -/
theorem getElem?_splitOn (before behind : List Char) :
    ((before ++ behind).splitOn '\n')[before.count '\n']? =
      some (lastLine before ++ behind.takeWhile (· ≠ '\n')) := by
  have hlast : ∀ c ∈ lastLine before, decide (c ≠ '\n') = true := by
    intro c hc
    refine decide_eq_true ?_
    rintro rfl
    exact not_mem_lastLine before hc
  have hnone : (lastLine before).count '\n' = 0 :=
    List.count_eq_zero_of_not_mem (not_mem_lastLine before)
  rw [← List.takeWhile_append_of_pos hlast]
  rcases eq_lastLine before with hbefore | ⟨lead, hbefore⟩
  · rw [← hbefore] at hnone ⊢
    rw [hnone, ← List.head?_eq_getElem?, head?_splitOn]
  · generalize lastLine before = last at *
    subst hbefore
    rw [List.append_assoc, List.cons_append, List.splitOn_append_cons_self, List.count_append,
      List.count_cons_self, hnone, List.getElem?_append_right (by rw [length_splitOn]),
      length_splitOn, Nat.zero_add, Nat.sub_self,
      ← List.head?_eq_getElem?, head?_splitOn]

theorem lineAt_append (before behind : List Char) :
    lineAt (before ++ behind) (utf8Len before) =
      lastLine before ++ behind.takeWhile (· ≠ '\n') := by
  unfold lineAt
  rw [takeBytes?_append, dropBytes?_append]
  rfl

end Text

open Text Grammar Grammar.Parser

theorem Token.StandsBehind.lineText_eq {source : String} {before : List Char} {t : Token}
    (h : StandsBehind source.toList before t) :
    ∃ more, (t.span.lineText source).toList = lastLine before ++ more ∧
      (source.toList.splitOn '\n')[t.span.line - 1]? = some (t.span.lineText source).toList := by
  obtain ⟨after, hsource⟩ := h.source_eq
  have hline : (t.span.lineText source).toList = lastLine before ++
      (t.kind.text.toList ++ after).takeWhile (· ≠ '\n') := by
    rw [Span.lineText, String.toList_ofList, h.span_eq, Span.start_behind, hsource, lineAt_append]
  refine ⟨_, hline, ?_⟩
  rw [hline, h.isPlace.line_eq, Nat.add_sub_cancel, hsource, getElem?_splitOn]

namespace Grammar

/-! ## The three readers -/

/-- An error of a parser that keeps to a language stands at a token of the source. -/
theorem exists_token_of_run {α : Type} {p : Parser α} {L : Language Token.Kind}
    (hp : ∀ tokens, Keeps L p tokens) {source : String} {error : Error}
    (h : p.run source = .error error) :
    ∃ production message, ∃ t ∈ Token.tokenize source,
      error = .of (.parse production message t.span.start t.span.line t.span.column
        (t.span.lineText source)) := by
  obtain ⟨fault, hfault, rfl⟩ := run_eq_error.1 h
  obtain ⟨before, offending, after, hsource, hrest, -⟩ := exists_offending hp hfault
  have hmem : offending ∈ Token.significant source := by
    rw [hsource]
    exact List.mem_append_right _ (.head _)
  exact ⟨_, _, offending, (List.mem_filter.1 hmem).1, Fault.toError_of_rest hrest source⟩

theorem keeps_whole {α : Type} {p : Parser α} {L : Language Token.Kind}
    (hp : ∀ tokens, Keeps L p tokens) (production : Production) (tokens : List Token) :
    Keeps L (p >>= fun a => endOfInput production >>= fun _ => pure a) tokens := by
  rw [← mul_one L]
  exact (hp tokens).seq (fun a rest _ => (keeps_endOfInput production).map fun _ => a) (.of_mem rfl)

theorem exists_token_of_error {source : String} {error : Error}
    (h : Document.parse source = .error error ∨ Declaration.parse source = .error error ∨
      TypeRef.parse source = .error error) :
    ∃ production message, ∃ t ∈ Token.tokenize source,
      error = .of (.parse production message t.span.start t.span.line t.span.column
        (t.span.lineText source)) := by
  rcases h with h | h | h
  · exact exists_token_of_run Document.keeps_reader h
  · exact exists_token_of_run (keeps_whole Declaration.keeps_reader .declaration) h
  · exact exists_token_of_run (keeps_whole TypeRef.keeps_reader .typeRef) h

/-- **The place of an error is one place.**  Whether a source is read as a document, as a
declaration or as a type reference, the offset of its error lies in the source, between two
characters; its line and its column are counted in the text before the offset; and the line that it
shows is that line of the source, in which the column is at most one behind the last character. -/
theorem fault_place_coherent {source : String} {error : Error}
    (h : Document.parse source = .error error ∨ Declaration.parse source = .error error ∨
      TypeRef.parse source = .error error) :
    ∃ production message offset line column context before,
      error = .of (.parse production message offset line column context) ∧
      offset ≤ source.utf8ByteSize ∧
      IsPlace source.toList before offset line column ∧
      (source.toList.splitOn '\n')[line - 1]? = some context.toList ∧
      column ≤ context.length + 1 ∧
      line ≤ source.length + 1 ∧ column ≤ source.length + 1 := by
  obtain ⟨production, message, t, ht, rfl⟩ := exists_token_of_error h
  obtain ⟨before, hstands⟩ := Token.exists_standsBehind ht
  obtain ⟨more, hcontext, hline⟩ := hstands.lineText_eq
  refine ⟨production, message, _, _, _, _, before, rfl, hstands.start_le, hstands.isPlace, hline,
    ?_, hstands.line_le, hstands.column_le⟩
  rw [hstands.isPlace.column_eq, ← String.length_toList, hcontext, List.length_append]
  omega

/-! ### An unfinished declaration -/

namespace Unfinished

/-- A declaration that is not closed, with a letter of two bytes and a comment behind the last
line break. -/
def source : String := "(defenum Été\n [A B] ; é"

/-- The end of the source is refused, behind the comment. -/
def error : Error :=
  .of (.parse "enum declaration" "expected ')', found end of input" 26 2 11 " [A B] ; é")

theorem end_refused :
    Declaration.parse source = .error error ∧
      ∃ production message offset line column context before,
        error = .of (.parse production message offset line column context) ∧
        offset ≤ source.utf8ByteSize ∧
        IsPlace source.toList before offset line column ∧
        (source.toList.splitOn '\n')[line - 1]? = some context.toList ∧
        column ≤ context.length + 1 ∧
        line ≤ source.length + 1 ∧ column ≤ source.length + 1 :=
  have hparse : Declaration.parse source = .error error := by decide +kernel
  ⟨hparse, fault_place_coherent (.inr (.inl hparse))⟩

end Unfinished

end Grammar

end DomainForms
