import DomainForms.Proofs.Grammar.Reads
import DomainForms.TypeRef.Parser

/-!
# Types are read as the grammar has them

The parser of types counts opening parentheses, reads what is inside, and then takes as many closing
ones; the grammar nests.  The two agree because reading can be cut at any parenthesis: behind the
phrase of a type inside `n` further parentheses, what remains is to close `n` of them.

A type does not close itself: brackets or a question mark behind it would be read as a part of it.

* `TypeRef.reader_sound`: what is read as a type is a phrase of a type.
* `TypeRef.reader_complete`: every phrase of a type is read, unless a bracket or a question mark
  stands behind it.
* `TypeRef.skip?_of_reader`: what is read as a type has the shape of a type.
-/

namespace DomainForms.TypeRef

open Grammar Grammar.Parser
open Token (Kind)

/-! ## Names of types -/

theorem not_reserved_of_primitive {name : String} {p : Primitive}
    (h : Primitive.ofName? name = some p) : isReserved name = false := by
  have hall : ∀ word ∈ reservedWords, Primitive.ofName? word = none := by decide
  rw [Bool.eq_false_iff]
  intro hr
  have hnone := hall name (List.contains_iff_mem.1 hr)
  rw [hnone] at h
  cases h

theorem eq_of_isStringName {name : String} (h : isStringName name = true) :
    name = "string" ∨ name = "String" ∨ name = "System.String" := by
  simpa [isStringName, or_assoc] using h

theorem not_reserved_of_string {name : String} (h : isStringName name = true) :
    isReserved name = false := by
  rcases eq_of_isStringName h with rfl | rfl | rfl <;> decide

theorem not_primitive_of_string {name : String} (h : isStringName name = true) :
    Primitive.ofName? name = none := by
  rcases eq_of_isStringName h with rfl | rfl | rfl <;> decide

theorem ofWritten_primitive {name : String} {p : Primitive} (h : Primitive.ofName? name = some p) :
    ofWritten name = .simple p := by
  simp only [ofWritten, h]

theorem ofWritten_string {name : String} (h : isStringName name = true) :
    ofWritten name = .string := by
  simp only [ofWritten, not_primitive_of_string h, h, if_true]

theorem ofWritten_named {name : String} (hp : Primitive.ofName? name = none)
    (hs : isStringName name = false) : ofWritten name = .ofName name := by
  simp only [ofWritten, hp, hs, Bool.false_eq_true, if_false]

theorem typeForm_ofWritten {name : String} (h : isReserved name = false) :
    TypeForm .base [.ident name] (ofWritten name) := by
  cases hp : Primitive.ofName? name with
  | some p =>
    rw [ofWritten_primitive hp]
    exact .primitive hp
  | none =>
    cases hs : isStringName name with
    | true =>
      rw [ofWritten_string hs]
      exact .string hs
    | false =>
      rw [ofWritten_named hp hs]
      exact .named h hp hs

/-- Only a primitive type spells a type that takes a question mark. -/
theorem ofName?_of_ofWritten {name : String} {p : Primitive} (h : ofWritten name = .simple p) :
    Primitive.ofName? name = some p := by
  cases hp : Primitive.ofName? name with
  | some q =>
    rw [ofWritten_primitive hp] at h
    cases h
    rfl
  | none =>
    cases hs : isStringName name with
    | true =>
      rw [ofWritten_string hs] at h
      cases h
    | false =>
      rw [ofWritten_named hp hs] at h
      cases h

/-! ## Bases -/

theorem nullableSuffix_of_front {base : TypeRef} {tokens : List Token}
    (h : front tokens ≠ .question) : nullableSuffix base tokens = .ok (base, tokens) := by
  unfold nullableSuffix
  rw [peek_bind, branch_apply, if_pos h]
  rfl

theorem nullableSuffix_simple {p : Primitive} {mark : Token} (hm : mark.kind = .question)
    (rest : List Token) :
    nullableSuffix (.simple p) (mark :: rest) =
      (if front rest = .question then fail .typeRef .nestedNullable
        else pure (.nullable p) : Parser TypeRef) rest := by
  obtain ⟨kind, span⟩ := mark
  cases hm
  rfl

theorem nullableSuffix_eq_ok {base t : TypeRef} {tokens rest : List Token}
    (h : nullableSuffix base tokens = .ok (t, rest)) :
    (front tokens ≠ .question ∧ t = base ∧ rest = tokens) ∨
      ∃ p mark, base = .simple p ∧ t = .nullable p ∧ mark.kind = .question ∧
        tokens = mark :: rest := by
  by_cases hq : front tokens = .question
  · obtain ⟨mark, others, rfl, hm⟩ := exists_of_front hq nofun
    cases base with
    | simple p =>
      rw [nullableSuffix_simple hm, branch_apply] at h
      by_cases hn : front others = .question
      · rw [if_pos hn] at h
        exact absurd h fail_ne_ok
      · rw [if_neg hn] at h
        obtain ⟨rfl, rfl⟩ := pure_eq_ok.1 h
        exact .inr ⟨p, mark, rfl, rfl, hm, rfl⟩
    | _ =>
      unfold nullableSuffix at h
      rw [peek_bind, branch_apply, if_neg (not_not_intro hq)] at h
      exact absurd h fail_ne_ok
  · rw [nullableSuffix_of_front hq] at h
    cases h
    exact .inl ⟨hq, rfl, rfl⟩

theorem baseType_ident {t : Token} {name : String} {others : List Token}
    (ht : t.kind = .ident name) (hn : isReserved name = false) :
    baseType (t :: others) = nullableSuffix (ofWritten name) others := by
  obtain ⟨kind, span⟩ := t
  cases ht
  show (if isReserved name then fail .typeRef (.reservedType name)
    else advance >>= fun _ => nullableSuffix (ofWritten name) : Parser TypeRef) _ = _
  rw [branch_apply, hn]
  rfl

theorem baseType_eq_ok {tokens rest : List Token} {base : TypeRef}
    (h : baseType tokens = .ok (base, rest)) :
    ∃ t name others, tokens = t :: others ∧ t.kind = .ident name ∧ isReserved name = false ∧
      nullableSuffix (ofWritten name) others = .ok (base, rest) := by
  cases tokens with
  | nil => exact absurd h nofun
  | cons t others =>
    obtain ⟨kind, span⟩ := t
    cases kind with
    | ident name =>
      cases hr : isReserved name with
      | true =>
        replace h : (if isReserved name then fail .typeRef (.reservedType name)
          else advance >>= fun _ => nullableSuffix (ofWritten name) : Parser TypeRef) _ =
            .ok (base, rest) := h
        rw [branch_apply, hr] at h
        exact absurd h fail_ne_ok
      | false =>
        rw [baseType_ident rfl hr] at h
        exact ⟨_, name, others, rfl, rfl, hr, h⟩
    | _ => exact absurd h nofun

theorem baseType_sound {tokens rest : List Token} {base : TypeRef}
    (h : baseType tokens = .ok (base, rest)) :
    ∃ kinds, Spells kinds tokens rest ∧ TypeForm .base kinds base := by
  obtain ⟨t, name, others, rfl, ht, hn, h⟩ := baseType_eq_ok h
  rcases nullableSuffix_eq_ok h with ⟨-, rfl, rfl⟩ | ⟨p, mark, hp, rfl, hm, rfl⟩
  · exact ⟨_, .single ht, typeForm_ofWritten hn⟩
  · exact ⟨_, .cons ht (.single hm), .nullable (ofName?_of_ofWritten hp)⟩

/-! ## Brackets -/

theorem arraySuffix_of_front {base : TypeRef} {tokens : List Token}
    (h : front tokens ≠ .lbracket) : arraySuffix base tokens = .ok (base, tokens) := by
  unfold arraySuffix
  rw [peek_bind, branch_apply, if_pos h]
  rfl

theorem arraySuffix_brackets {base : TypeRef} {first last : Token} (hf : first.kind = .lbracket)
    (hl : last.kind = .rbracket) (hb : base.isArray = false) (rest : List Token) :
    arraySuffix base (first :: last :: rest) =
      (if front rest = .lbracket then fail .arrayRank .nestedArray
        else pure (.arrayOf base) : Parser TypeRef) rest := by
  obtain ⟨kind, span⟩ := first
  cases hf
  obtain ⟨kind, span'⟩ := last
  cases hl
  unfold arraySuffix
  rw [hb]
  rfl

theorem arraySuffix_eq_ok {base t : TypeRef} {tokens rest : List Token}
    (h : arraySuffix base tokens = .ok (t, rest)) :
    (front tokens ≠ .lbracket ∧ t = base ∧ rest = tokens) ∨
      (base.isArray = false ∧ t = .arrayOf base ∧
        Spells [.lbracket, .rbracket] tokens rest) := by
  by_cases hf : front tokens = .lbracket
  · obtain ⟨first, others, rfl, hfirst⟩ := exists_of_front hf nofun
    obtain ⟨kind, span⟩ := first
    cases hfirst
    cases hb : base.isArray with
    | true =>
      unfold arraySuffix at h
      rw [hb] at h
      exact absurd h fail_ne_ok
    | false =>
      cases others with
      | nil =>
        unfold arraySuffix at h
        rw [hb] at h
        exact absurd h nofun
      | cons last others =>
        by_cases hl : last.kind = .rbracket
        · rw [arraySuffix_brackets rfl hl hb, branch_apply] at h
          by_cases hn : front others = .lbracket
          · rw [if_pos hn] at h
            exact absurd h fail_ne_ok
          · rw [if_neg hn] at h
            obtain ⟨rfl, rfl⟩ := pure_eq_ok.1 h
            exact .inr ⟨rfl, rfl, .cons rfl (.single hl)⟩
        · obtain ⟨kind, span'⟩ := last
          unfold arraySuffix at h
          rw [hb] at h
          cases kind with
          | rbracket => exact absurd rfl hl
          | _ => exact absurd h nofun
  · rw [arraySuffix_of_front hf] at h
    cases h
    exact .inl ⟨hf, rfl, rfl⟩

theorem arraySuffix_sound {base t : TypeRef} {kinds : List Kind} {tokens rest : List Token}
    (hb : TypeForm .base kinds base) (h : arraySuffix base tokens = .ok (t, rest)) :
    ∃ more, Spells more tokens rest ∧ TypeForm .type (kinds ++ more) t := by
  rcases arraySuffix_eq_ok h with ⟨-, rfl, rfl⟩ | ⟨ha, rfl, hs⟩
  · refine ⟨[], rfl, ?_⟩
    rw [List.append_nil]
    exact .plain hb
  · exact ⟨_, hs, .array hb ha⟩

/-! ## Parentheses -/

theorem openings_lparen {t : Token} (ht : t.kind = .lparen) (tokens : List Token) :
    openings (t :: tokens) = ((openings tokens).1 + 1, (openings tokens).2) := by
  rw [openings, if_pos ht]

theorem openings_of_front {tokens : List Token} (h : front tokens ≠ .lparen) :
    openings tokens = (0, tokens) := by
  cases tokens with
  | nil => rfl
  | cons t tokens => rw [openings, if_neg (show ¬ t.kind = .lparen from h)]

theorem spells_openings (tokens : List Token) :
    Spells (List.replicate (openings tokens).1 .lparen) tokens (openings tokens).2 := by
  induction tokens with
  | nil => rfl
  | cons t tokens ih =>
    by_cases ht : t.kind = .lparen
    · rw [openings_lparen ht]
      exact .cons ht ih
    · rw [openings_of_front (show front (t :: tokens) ≠ .lparen from ht)]
      rfl

theorem closings_sound :
    ∀ {depth : Nat} {kinds : List Kind} {t t' : TypeRef} {tokens rest : List Token},
      TypeForm .type kinds t → closings depth t tokens = .ok (t', rest) →
      ∃ more, Spells more tokens rest ∧
        TypeForm .type (List.replicate depth .lparen ++ kinds ++ more) t' := by
  intro depth
  induction depth with
  | zero =>
    intro kinds t t' tokens rest ht h
    obtain ⟨rfl, rfl⟩ := pure_eq_ok.1 h
    refine ⟨[], rfl, ?_⟩
    rw [List.append_nil]
    exact ht
  | succ depth ih =>
    intro kinds t t' tokens rest ht h
    obtain ⟨s, middle, hclose, hrest⟩ := bind_eq_ok.1 h
    obtain ⟨t₁, behind, hsuffix, hmore⟩ := bind_eq_ok.1 hrest
    obtain ⟨close, rfl, hc, -⟩ := exists_of_expect hclose nofun
    obtain ⟨suffix, hs, ht₁⟩ := arraySuffix_sound (.parens ht) hsuffix
    obtain ⟨more, hm, ht'⟩ := ih ht₁ hmore
    refine ⟨.rparen :: (suffix ++ more), .cons hc (hs.append hm), ?_⟩
    rw [List.replicate_succ']
    simpa using ht'

/-- What is read behind `depth` parentheses. -/
def inside (depth : Nat) : Parser TypeRef := do
  closings depth (← arraySuffix (← baseType))

theorem reader_eq_inside (tokens : List Token) :
    reader tokens = inside (openings tokens).1 (openings tokens).2 :=
  rfl

/-- The last parenthesis may as well be closed behind all others. -/
theorem closings_succ (depth : Nat) (type : TypeRef) :
    closings (depth + 1) type =
      closings depth type >>= fun t => expect .rparen .typeRef >>= fun _ => arraySuffix t := by
  induction depth generalizing type with
  | zero =>
    show (expect .rparen .typeRef >>= fun _ => arraySuffix type >>= pure) = _
    simp [closings]
  | succ depth ih =>
    show (expect .rparen .typeRef >>= fun _ => arraySuffix type >>= closings (depth + 1)) =
      (expect .rparen .typeRef >>= fun _ => arraySuffix type >>= closings depth) >>= _
    simp only [bind_assoc, funext ih]

/-- A type in parentheses is read as the grammar has it: the type inside, the closing parenthesis,
and the brackets behind it. -/
theorem reader_lparen {t : Token} (ht : t.kind = .lparen) (tokens : List Token) :
    reader (t :: tokens) =
      (reader >>= fun type => expect .rparen .typeRef >>= fun _ => arraySuffix type) tokens := by
  have hinside : ∀ depth, inside (depth + 1) =
      inside depth >>= fun type => expect .rparen .typeRef >>= fun _ => arraySuffix type := by
    intro depth
    simp only [inside, closings_succ, bind_assoc]
  rw [reader_eq_inside, openings_lparen ht, hinside]
  rfl

theorem reader_of_front {tokens : List Token} (h : front tokens ≠ .lparen) :
    reader tokens = (baseType >>= arraySuffix) tokens := by
  rw [reader_eq_inside, openings_of_front h]
  show (baseType >>= fun base => arraySuffix base >>= pure) tokens = _
  simp only [bind_pure]

/-- A type is read in three parts: a base, the brackets behind it, and closing parentheses. -/
theorem reader_eq_ok {tokens rest : List Token} {t : TypeRef}
    (h : reader tokens = .ok (t, rest)) :
    ∃ base inner r₁ r₂, baseType (openings tokens).2 = .ok (base, r₁) ∧
      arraySuffix base r₁ = .ok (inner, r₂) ∧
      closings (openings tokens).1 inner r₂ = .ok (t, rest) := by
  rw [reader_eq_inside] at h
  obtain ⟨base, r₁, hbase, hrest⟩ := bind_eq_ok.1 h
  obtain ⟨inner, r₂, hsuffix, hmore⟩ := bind_eq_ok.1 hrest
  exact ⟨base, inner, r₁, r₂, hbase, hsuffix, hmore⟩

/-- **What is read as a type is a phrase of a type.** -/
theorem reader_sound {tokens rest : List Token} {t : TypeRef}
    (h : reader tokens = .ok (t, rest)) :
    ∃ kinds, Spells kinds tokens rest ∧ TypeForm .type kinds t := by
  obtain ⟨base, inner, r₁, r₂, hbase, hsuffix, hmore⟩ := reader_eq_ok h
  obtain ⟨kinds, hk, hb⟩ := baseType_sound hbase
  obtain ⟨suffix, hs, ht⟩ := arraySuffix_sound hb hsuffix
  obtain ⟨more, hm, ht'⟩ := closings_sound ht hmore
  refine ⟨_, (spells_openings tokens).append ((hk.append hs).append hm), ?_⟩
  rw [← List.append_assoc]
  exact ht'

/-! ## Every phrase is read -/

theorem inside_of_baseType {depth : Nat} {tokens rest : List Token} {base : TypeRef}
    (h : baseType tokens = .ok (base, rest)) :
    inside depth tokens = (arraySuffix base >>= closings depth) rest :=
  bind_of_ok h

/-- Behind the phrase of a type inside further parentheses, those are closed; behind the phrase of a
base, brackets may come first.  The parentheses that open in front of the phrase are the ones that
it closes, so their number does not show. -/
theorem inside_of_typeForm {symbol : TypeSymbol} {kinds : List Kind} {t : TypeRef}
    (h : TypeForm symbol kinds t) :
    ∀ {n : Nat} {tokens rest : List Token}, Spells kinds tokens rest → front rest ≠ .question →
      (symbol = .type → front rest ≠ .lbracket) →
      inside ((openings tokens).1 + n) (openings tokens).2 =
        (arraySuffix t >>= closings n) rest := by
  have named : ∀ {name : String} {n : Nat} {tokens rest : List Token}, isReserved name = false →
      Spells [.ident name] tokens rest → front rest ≠ .question →
      inside ((openings tokens).1 + n) (openings tokens).2 =
        (arraySuffix (ofWritten name) >>= closings n) rest := by
    rintro name n tokens rest hn hs hq
    have hfront := hs.front_eq
    obtain ⟨t, others, rfl, ht, rfl⟩ := hs
    rw [openings_of_front (by rw [hfront]; nofun), Nat.zero_add]
    apply inside_of_baseType
    rw [baseType_ident ht hn, nullableSuffix_of_front hq]
  induction h with
  | @primitive name p hp =>
    intro n tokens rest hs hq _
    have := named (n := n) (not_reserved_of_primitive hp) hs hq
    rwa [ofWritten_primitive hp] at this
  | @nullable name p hp =>
    intro n tokens rest hs hq _
    have hfront := hs.front_eq
    obtain ⟨t, others, rfl, ht, mark, rest, rfl, hm, rfl⟩ := hs
    rw [openings_of_front (by rw [hfront]; nofun), Nat.zero_add]
    apply inside_of_baseType
    rw [baseType_ident ht (not_reserved_of_primitive hp), ofWritten_primitive hp,
      nullableSuffix_simple hm, branch_apply, if_neg hq]
    rfl
  | @string name hname =>
    intro n tokens rest hs hq _
    have := named (n := n) (not_reserved_of_string hname) hs hq
    rwa [ofWritten_string hname] at this
  | @named name hr hp hname =>
    intro n tokens rest hs hq _
    have := named (n := n) hr hs hq
    rwa [ofWritten_named hp hname] at this
  | @parens kinds t _ ih =>
    intro n tokens rest hs hq _
    obtain ⟨first, others, rfl, hfirst, hs⟩ := hs
    obtain ⟨middle, hk, close, behind, rfl, hclose, rfl⟩ := spells_append.1 hs
    have hfront : front (close :: behind) = .rparen := hclose
    -- The parenthesis that this phrase opens is the first of those that are still to close.
    rw [openings_lparen hfirst, Nat.add_assoc, Nat.add_comm 1 n,
      ih hk (by rw [hfront]; nofun) (fun _ => by rw [hfront]; nofun),
      bind_of_ok (arraySuffix_of_front (by rw [hfront]; nofun))]
    exact bind_of_ok (expect_of_kind hclose .typeRef behind)
  | @plain kinds t _ ih =>
    intro n tokens rest hs hq hl
    exact ih hs hq nofun
  | @array kinds t _ ha ih =>
    intro n tokens rest hs hq hl
    obtain ⟨middle, hk, first, others, rfl, hfirst, last, behind, rfl, hlast, rfl⟩ :=
      spells_append.1 hs
    have hsuffix : arraySuffix t (first :: last :: behind) = .ok (.arrayOf t, behind) := by
      rw [arraySuffix_brackets hfirst hlast ha, branch_apply, if_neg (hl rfl)]
      rfl
    rw [ih hk (by rw [show front (first :: _) = _ from hfirst]; nofun) nofun, bind_of_ok hsuffix,
      bind_of_ok (arraySuffix_of_front (hl rfl))]

/-- **Every phrase of a type is read**, unless what stands behind it would be read as a part. -/
theorem reader_complete {kinds : List Kind} {t : TypeRef} {tokens rest : List Token}
    (h : TypeForm .type kinds t) (hs : Spells kinds tokens rest) (hq : front rest ≠ .question)
    (hl : front rest ≠ .lbracket) : reader tokens = .ok (t, rest) := by
  have hinside := inside_of_typeForm h (n := 0) hs hq fun _ => hl
  rw [reader_eq_inside, ← Nat.add_zero (openings tokens).1, hinside,
    bind_of_ok (arraySuffix_of_front hl)]
  rfl

theorem head_of_typeForm {symbol : TypeSymbol} {kinds : List Kind} {t : TypeRef}
    (h : TypeForm symbol kinds t) :
    ∃ kind more, kinds = kind :: more ∧ (kind = .lparen ∨ ∃ name, kind = .ident name) := by
  induction h with
  | primitive _ => exact ⟨_, _, rfl, .inr ⟨_, rfl⟩⟩
  | nullable _ => exact ⟨_, _, rfl, .inr ⟨_, rfl⟩⟩
  | string _ => exact ⟨_, _, rfl, .inr ⟨_, rfl⟩⟩
  | named _ _ _ => exact ⟨_, _, rfl, .inr ⟨_, rfl⟩⟩
  | parens _ _ => exact ⟨_, _, rfl, .inl rfl⟩
  | plain _ ih => exact ih
  | array _ _ ih =>
    obtain ⟨kind, more, rfl, hk⟩ := ih
    exact ⟨kind, _, rfl, hk⟩

theorem front_of_typeForm {symbol : TypeSymbol} {kinds : List Kind} {t : TypeRef}
    {tokens rest : List Token} (h : TypeForm symbol kinds t) (hs : Spells kinds tokens rest) :
    front tokens = .lparen ∨ ∃ name, front tokens = .ident name := by
  obtain ⟨kind, more, rfl, hk⟩ := head_of_typeForm h
  rw [hs.front_eq]
  exact hk

/-! ## The shape of a type -/

theorem skipQuestion_of_nullableSuffix {base t : TypeRef} {tokens rest : List Token}
    (h : nullableSuffix base tokens = .ok (t, rest)) : skipQuestion tokens = rest := by
  rcases nullableSuffix_eq_ok h with ⟨hq, -, rfl⟩ | ⟨p, mark, -, -, hm, rfl⟩
  · cases rest with
    | nil => rfl
    | cons t rest => rw [skipQuestion, if_neg (show ¬ t.kind = .question from hq)]
  · rw [skipQuestion, if_pos hm]

theorem skipBrackets?_of_arraySuffix {base t : TypeRef} {tokens rest : List Token}
    (h : arraySuffix base tokens = .ok (t, rest)) : skipBrackets? tokens = some rest := by
  rcases arraySuffix_eq_ok h with ⟨hl, -, rfl⟩ | ⟨-, -, first, _, rfl, hf, last, _, rfl, hl, rfl⟩
  · cases rest with
    | nil => rfl
    | cons t rest =>
      unfold skipBrackets?
      exact if_neg (show ¬ t.kind = .lbracket from hl)
  · simp only [skipBrackets?, if_pos hf, if_pos hl]

theorem skipClosings?_of_closings :
    ∀ {depth : Nat} {t t' : TypeRef} {tokens rest : List Token},
      closings depth t tokens = .ok (t', rest) → skipClosings? depth tokens = some rest := by
  intro depth
  induction depth with
  | zero =>
    intro t t' tokens rest h
    obtain ⟨-, rfl⟩ := pure_eq_ok.1 h
    rfl
  | succ depth ih =>
    intro t t' tokens rest h
    obtain ⟨s, middle, hclose, hrest⟩ := bind_eq_ok.1 h
    obtain ⟨t₁, behind, hsuffix, hmore⟩ := bind_eq_ok.1 hrest
    obtain ⟨close, rfl, hc, -⟩ := exists_of_expect hclose nofun
    rw [skipClosings?, if_pos hc, skipBrackets?_of_arraySuffix hsuffix, Option.bind_some,
      ih hmore]

theorem skip?_eq {tokens others : List Token} {t : Token} {name : String}
    (h : (openings tokens).2 = t :: others) (ht : t.kind = .ident name) :
    skip? tokens =
      (skipBrackets? (skipQuestion others)).bind (skipClosings? (openings tokens).1) := by
  obtain ⟨kind, span⟩ := t
  cases ht
  unfold skip?
  rw [show openings tokens = ((openings tokens).1, (openings tokens).2) from rfl, h]

/-- **What is read as a type has the shape of a type**, and the same tokens are left behind it. -/
theorem skip?_of_reader {tokens rest : List Token} {t : TypeRef}
    (h : reader tokens = .ok (t, rest)) : skip? tokens = some rest := by
  obtain ⟨base, inner, r₁, r₂, hbase, hsuffix, hmore⟩ := reader_eq_ok h
  obtain ⟨first, name, others, hopen, hf, -, hnull⟩ := baseType_eq_ok hbase
  rw [skip?_eq hopen hf, skipQuestion_of_nullableSuffix hnull,
    skipBrackets?_of_arraySuffix hsuffix, Option.bind_some, skipClosings?_of_closings hmore]

theorem exists_skipClosings? :
    ∀ {depth : Nat} {tokens rest : List Token}, skipClosings? (depth + 1) tokens = some rest →
      ∃ middle, skipClosings? depth tokens = some middle ∧ front middle = .rparen := by
  intro depth
  induction depth with
  | zero =>
    intro tokens rest h
    refine ⟨tokens, rfl, ?_⟩
    cases tokens with
    | nil => exact absurd h nofun
    | cons t tokens =>
      rw [skipClosings?] at h
      split at h
      · assumption
      · cases h
  | succ depth ih =>
    intro tokens rest h
    cases tokens with
    | nil => exact absurd h nofun
    | cons t tokens =>
      rw [skipClosings?] at h ⊢
      split at h
      · rename_i ht
        obtain ⟨behind, hb, hmore⟩ := Option.bind_eq_some_iff.1 h
        obtain ⟨middle, hm, hfront⟩ := ih hmore
        refine ⟨middle, ?_, hfront⟩
        rw [if_pos ht, hb, Option.bind_some, hm]
      · cases h

theorem exists_skip?_of_reader {first : Token} {tokens rest : List Token} {t : TypeRef}
    (hf : first.kind = .lparen) (h : reader (first :: tokens) = .ok (t, rest)) :
    ∃ middle, skip? tokens = some middle ∧ front middle = .rparen := by
  obtain ⟨base, inner, r₁, r₂, hbase, hsuffix, hmore⟩ := reader_eq_ok h
  obtain ⟨word, name, others, hopen, hw, -, hnull⟩ := baseType_eq_ok hbase
  rw [openings_lparen hf] at hopen hmore
  obtain ⟨middle, hm, hfront⟩ := exists_skipClosings? (skipClosings?_of_closings hmore)
  refine ⟨middle, ?_, hfront⟩
  rw [skip?_eq hopen hw, skipQuestion_of_nullableSuffix hnull,
    skipBrackets?_of_arraySuffix hsuffix, Option.bind_some, hm]

end DomainForms.TypeRef
