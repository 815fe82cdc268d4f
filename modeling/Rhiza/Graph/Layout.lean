import Rhiza.Graph.Lexer

/-! # The layout of graph queries

Two statements that differ in the whitespace and the comments between their tokens are
read as the same tokens.
-/

namespace Rhiza.Graph

open Core Library

variable [UnicodeTables]

inductive Reads : List Char → List Lexeme → Prop
  | nil : Reads [] []
  | turn {chars rest : List Char} {found : Option Lexeme} {lexemes : List Lexeme}
      (hSome : chars ≠ []) (h : lexStep chars = .ok (found, rest)) (hRest : Reads rest lexemes) :
      Reads chars (found.toList ++ lexemes)

theorem reads_of_lexFrom {turns offset : Nat} {chars : List Char} {tokens : List QueryToken}
    (h : lexFrom turns offset chars = .ok tokens) : Reads chars (tokens.map (·.toLexeme)) := by
  induction turns generalizing offset chars tokens with
  | zero =>
    cases chars with
    | nil =>
      cases h
      exact .nil
    | cons c chars => cases h
  | succ turns ih =>
    cases chars with
    | nil =>
      cases h
      exact .nil
    | cons c chars =>
      obtain ⟨⟨found, rest⟩, hStep, h⟩ := bind_ok_iff.mp h
      obtain ⟨later, hLater, h⟩ := bind_ok_iff.mp h
      cases h
      have hFound : (found.toList.map fun lexeme => { lexeme with start := offset : QueryToken }).map
          (·.toLexeme) = found.toList := by
        cases found <;> rfl
      rw [List.map_append, hFound]
      exact .turn nofun hStep (ih hLater)

theorem Reads.lexFrom {chars : List Char} {lexemes : List Lexeme} (h : Reads chars lexemes)
    {turns : Nat} (hTurns : chars.length ≤ turns) (offset : Nat) :
    ∃ tokens, lexFrom turns offset chars = .ok tokens ∧ tokens.map (·.toLexeme) = lexemes := by
  induction h generalizing turns offset with
  | nil => exact ⟨[], by cases turns <;> rfl, rfl⟩
  | @turn chars rest found lexemes hSome h hRest ih =>
    cases chars with
    | nil => exact absurd rfl hSome
    | cons c chars =>
      obtain ⟨text, hText, hChars, -, -⟩ := lexStep_local h hSome
      have hShorter : rest.length < (c :: chars).length := by
        rw [hChars, List.length_append]
        exact Nat.lt_add_of_pos_left (List.length_pos_of_ne_nil hText)
      cases turns with
      | zero => exact absurd hTurns (Nat.not_succ_le_zero _)
      | succ turns =>
        obtain ⟨later, hLater, hSame⟩ := ih
          (Nat.le_of_lt_succ (Nat.lt_of_lt_of_le hShorter hTurns))
          (offset + (utf8Length (c :: chars) - utf8Length rest))
        refine ⟨_, bind_ok_iff.mpr ⟨_, h, bind_ok_iff.mpr ⟨later, hLater, rfl⟩⟩, ?_⟩
        rw [List.map_append, hSame]
        cases found <;> rfl

theorem lexQuery_iff {statement : List Char} {lexemes : List Lexeme} :
    (∃ tokens, lexQuery statement = .ok tokens ∧ tokens.map (·.toLexeme) = lexemes) ↔
      Reads statement lexemes := by
  constructor
  · rintro ⟨tokens, h, rfl⟩
    exact reads_of_lexFrom h
  · exact fun h => h.lexFrom (Nat.le_refl _) 0

theorem reads_turn_iff {chars rest : List Char} {found : Option Lexeme} {lexemes : List Lexeme}
    (hSome : chars ≠ []) (h : lexStep chars = .ok (found, rest)) :
    Reads chars lexemes ↔ ∃ later, lexemes = found.toList ++ later ∧ Reads rest later := by
  constructor
  · intro hReads
    cases hReads with
    | nil => exact absurd rfl hSome
    | turn _ hStep hRest =>
      cases h.symm.trans hStep
      exact ⟨_, rfl, hRest⟩
  · rintro ⟨later, rfl, hRest⟩
    exact .turn hSome h hRest

/-- Whitespace and comments. A comment without its newline ends the statement. -/
inductive Gap (atEnd : Prop) : List Char → Prop
  | none : Gap atEnd []
  | whitespace {text : List Char} (c : Char) (h : isAsciiWhitespace c = true) (more : Gap atEnd text) :
      Gap atEnd (c :: text)
  | lineComment {text : List Char} (body : List Char) (h : '\n' ∉ body) (more : Gap atEnd text) :
      Gap atEnd ('/' :: '/' :: body ++ '\n' :: text)
  | blockComment {text : List Char} (body : List Char) (h : ¬ ['*', '/'] <:+: body)
      (more : Gap atEnd text) : Gap atEnd ('/' :: '*' :: body ++ '*' :: '/' :: text)
  | lastComment (body : List Char) (h : '\n' ∉ body) (hEnd : atEnd) : Gap atEnd ('/' :: '/' :: body)

omit [UnicodeTables] in
theorem dropWhile_body {body rest : List Char} (h : '\n' ∉ body)
    (hRest : ∀ c ∈ rest.head?, c = '\n') : (body ++ rest).dropWhile (· ≠ '\n') = rest := by
  induction body with
  | nil =>
    cases rest with
    | nil => rfl
    | cons c rest =>
      obtain rfl := hRest c rfl
      rfl
  | cons c body ih =>
    obtain ⟨hFirst, hLater⟩ := List.ne_and_not_mem_of_not_mem_cons h
    rw [List.cons_append, List.dropWhile_cons, if_pos (decide_eq_true (Ne.symm hFirst))]
    exact ih hLater

theorem lexStep_lineComment {body rest : List Char} (h : '\n' ∉ body)
    (hRest : ∀ c ∈ rest.head?, c = '\n') :
    lexStep ('/' :: '/' :: body ++ rest) = .ok (none, rest) := by
  have hDrop := dropWhile_body h hRest
  rw [List.cons_append, List.cons_append, lexStep, if_neg (by decide), if_pos ⟨rfl, rfl⟩,
    List.dropWhile_cons_of_pos (by decide), hDrop]

omit [UnicodeTables] in
theorem skipBlockComment_body {body rest : List Char} (h : ¬ ['*', '/'] <:+: body) :
    skipBlockComment (body ++ '*' :: '/' :: rest) = .ok rest := by
  induction body with
  | nil => exact if_pos ⟨rfl, rfl⟩
  | cons c body ih =>
    have hLater : ¬ ['*', '/'] <:+: body := fun hIn => h (List.infix_cons hIn)
    cases body with
    | nil =>
      rw [List.singleton_append, skipBlockComment, if_neg (fun hBoth => absurd hBoth.2 (by decide))]
      exact ih hLater
    | cons d body =>
      have hOpen : ¬ (c = '*' ∧ d = '/') := by
        rintro ⟨rfl, rfl⟩
        exact h ⟨[], body, rfl⟩
      rw [List.cons_append, List.cons_append, skipBlockComment, if_neg hOpen]
      exact ih hLater

theorem lexStep_blockComment {body rest : List Char} (h : ¬ ['*', '/'] <:+: body) :
    lexStep ('/' :: '*' :: body ++ '*' :: '/' :: rest) = .ok (none, rest) := by
  rw [List.cons_append, List.cons_append, lexStep, if_neg (by decide), if_neg (by simp),
    if_pos ⟨rfl, rfl⟩]
  exact bind_ok_iff.mpr ⟨rest, skipBlockComment_body h, rfl⟩

theorem lexStep_whitespace {c : Char} {rest : List Char} (h : isAsciiWhitespace c = true) :
    lexStep (c :: rest) = .ok (none, rest) := if_pos h

theorem reads_skip_iff {chars rest : List Char} {lexemes : List Lexeme} (hSome : chars ≠ [])
    (h : lexStep chars = .ok (none, rest)) : Reads chars lexemes ↔ Reads rest lexemes := by
  rw [reads_turn_iff hSome h]
  constructor
  · rintro ⟨later, rfl, hRest⟩
    exact hRest
  · exact fun hRest => ⟨lexemes, rfl, hRest⟩

theorem Gap.reads_iff {text post : List Char} {lexemes : List Lexeme} (h : Gap (post = []) text) :
    Reads (text ++ post) lexemes ↔ Reads post lexemes := by
  induction h with
  | none => exact Iff.rfl
  | whitespace c h more ih => exact (reads_skip_iff (List.cons_ne_nil _ _) (lexStep_whitespace h)).trans ih
  | @lineComment text body h more ih =>
    have hStep : lexStep ('/' :: '/' :: body ++ '\n' :: (text ++ post)) =
        .ok (Option.none, '\n' :: (text ++ post)) := lexStep_lineComment h (by simp)
    have hChars : '/' :: '/' :: body ++ '\n' :: text ++ post =
        '/' :: '/' :: body ++ '\n' :: (text ++ post) := by simp
    rw [hChars]
    have hNewline : Reads ('\n' :: (text ++ post)) lexemes ↔ Reads (text ++ post) lexemes :=
      reads_skip_iff (List.cons_ne_nil _ _) (lexStep_whitespace rfl)
    exact (reads_skip_iff (by simp) hStep).trans (hNewline.trans ih)
  | @blockComment text body h more ih =>
    have hStep : lexStep ('/' :: '*' :: body ++ '*' :: '/' :: (text ++ post)) =
        .ok (Option.none, text ++ post) := lexStep_blockComment h
    have hChars : '/' :: '*' :: body ++ '*' :: '/' :: text ++ post =
        '/' :: '*' :: body ++ '*' :: '/' :: (text ++ post) := by simp
    rw [hChars]
    exact (reads_skip_iff (by simp) hStep).trans ih
  | lastComment body h hEnd =>
    subst hEnd
    exact reads_skip_iff (List.cons_ne_nil _ _) (lexStep_lineComment h nofun)

/-- The loop reads `pre` as these tokens and then stands before `post`. The text of its last
turn is `last`. -/
inductive At : List Char → List Char → List Char → List Lexeme → Prop
  | start (post : List Char) : At [] [] post []
  | turn {last text pre post : List Char} {found : Option Lexeme} {lexemes : List Lexeme}
      (hText : text ≠ []) (h : lexStep (text ++ (pre ++ post)) = .ok (found, pre ++ post))
      (hRest : At last pre post lexemes) :
      At (if pre = [] then text else last) (text ++ pre) post (found.toList ++ lexemes)

theorem At.reads_iff {last pre post : List Char} {before lexemes : List Lexeme}
    (h : At last pre post before) :
    Reads (pre ++ post) lexemes ↔ ∃ later, lexemes = before ++ later ∧ Reads post later := by
  induction h generalizing lexemes with
  | start post => simp
  | turn hText h hRest ih =>
    rw [List.append_assoc, reads_turn_iff (List.append_ne_nil_of_left_ne_nil hText _) h]
    simp only [ih, List.append_assoc]
    constructor
    · rintro ⟨_, rfl, later, rfl, hLater⟩
      exact ⟨later, rfl, hLater⟩
    · rintro ⟨later, rfl, hLater⟩
      exact ⟨_, rfl, later, rfl, hLater⟩

theorem At.of_nil {last pre post : List Char} {lexemes : List Lexeme}
    (h : At last pre post lexemes) (hPre : pre = []) : last = [] ∧ lexemes = [] := by
  cases h with
  | start => exact ⟨rfl, rfl⟩
  | turn hText => exact absurd (List.append_eq_nil_iff.mp hPre).1 hText

theorem At.reopen {last pre post post' : List Char} {lexemes : List Lexeme}
    (h : At last pre post lexemes) (hPost : last = [] ∨ Resumes last post post') :
    At last pre post' lexemes := by
  induction h with
  | start post => exact .start post'
  | @turn last text pre post found lexemes hText h hRest ih =>
    obtain ⟨text', hText', hChars, -, hLocal⟩ :=
      lexStep_local h (List.append_ne_nil_of_left_ne_nil hText _)
    obtain rfl : text = text' := List.append_cancel_right hChars
    by_cases hPre : pre = []
    · subst hPre
      rw [if_pos rfl] at hPost ⊢
      have hNext : Resumes text ([] ++ post) ([] ++ post') := hPost.resolve_left hText
      obtain ⟨rfl, rfl⟩ := hRest.of_nil rfl
      exact .turn hText (hLocal _ hNext) (.start post')
    · rw [if_neg hPre] at hPost ⊢
      have hAt := ih hPost
      have hHead : (pre ++ post').head? = (pre ++ post).head? := by
        cases pre with
        | nil => exact absurd rfl hPre
        | cons c pre => rfl
      have hTurn := At.turn hText (hLocal _ (.inl (.inl hHead))) hAt
      rwa [if_neg hPre] at hTurn

/-- One statement is the other with a gap in the place of nothing or of one whitespace
character. Behind a line comment stands its newline, which is part of it, and a comment does
not begin right behind the symbol for division. -/
inductive Relaid : List Char → List Char → Prop
  | intro {last pre post : List Char} {before : List Lexeme} (old new : List Char)
      (hAt : At last pre (old ++ post) before)
      (hOld : old = [] ∨ ∃ c, isAsciiWhitespace c = true ∧ old = [c])
      (hNew : Gap (post = []) new) (hSome : new ≠ []) (hNul : '\x00' ∉ new)
      (hComment : ¬ ['/', '/'] <+: last) (hDivision : last = ['/'] → new.head? ≠ some '/') :
      Relaid (pre ++ old ++ post) (pre ++ new ++ post)

omit [UnicodeTables] in
theorem Gap.opens {atEnd : Prop} {text : List Char} (h : Gap atEnd text) (hSome : text ≠ []) :
    ∃ c more, text = c :: more ∧ (isAsciiWhitespace c = true ∨ c = '/') := by
  cases h with
  | none => exact absurd rfl hSome
  | whitespace c h more => exact ⟨c, _, rfl, .inl h⟩
  | lineComment body h more => exact ⟨'/', _, rfl, .inr rfl⟩
  | blockComment body h more => exact ⟨'/', _, rfl, .inr rfl⟩
  | lastComment body h hEnd => exact ⟨'/', _, rfl, .inr rfl⟩

theorem Relaid.reads_iff {statement statement' : List Char} {lexemes : List Lexeme}
    (h : Relaid statement statement') : Reads statement lexemes ↔ Reads statement' lexemes := by
  obtain ⟨old, new, hAt, hOld, hNew, hSome, -, hComment, hDivision⟩ := h
  rename_i last pre post before
  obtain ⟨c, more, rfl, hOpen⟩ := hNew.opens hSome
  have hAt' : At last pre (c :: more ++ post) before := by
    refine hAt.reopen ?_
    by_cases hStart : last = []
    · exact .inl hStart
    · exact .inr (.inl (.inr ⟨⟨c, more ++ post, rfl, hOpen⟩, hDivision, hComment⟩))
  have hGap : ∀ later, Reads (old ++ post) later ↔ Reads (c :: more ++ post) later := by
    intro later
    rw [hNew.reads_iff]
    rcases hOld with rfl | ⟨d, hWhite, rfl⟩
    · exact Iff.rfl
    · exact reads_skip_iff (List.cons_ne_nil _ _) (lexStep_whitespace hWhite)
  rw [List.append_assoc, List.append_assoc, hAt.reads_iff, hAt'.reads_iff]
  simp only [hGap]

theorem Relaid.nul_iff {statement statement' : List Char} (h : Relaid statement statement') :
    '\x00' ∈ statement ↔ '\x00' ∈ statement' := by
  obtain ⟨old, new, hAt, hOld, hNew, hSome, hNul, hComment, hDivision⟩ := h
  have hOldNul : '\x00' ∉ old := by
    rcases hOld with rfl | ⟨c, hWhite, rfl⟩
    · exact nofun
    · rcases isAsciiWhitespace_cases hWhite with rfl | rfl | rfl | rfl | rfl <;> decide
  simp only [List.mem_append, hNul, hOldNul, or_false]

omit [UnicodeTables] in
theorem isAscii_of_isAlpha {c : Char} (h : c.isAlpha = true) : isAscii c = true := by
  change (decide (65 ≤ c.val ∧ c.val ≤ 90) || decide (97 ≤ c.val) && decide (c.val ≤ 122)) =
    true at h
  have hSame : c.toNat = c.val.toNat := rfl
  refine decide_eq_true (?_ : c.val.toNat < 128)
  simp [UInt32.le_iff_toNat_le] at h
  omega

theorem kind_of_whitespace {c : Char} {chars rest : List Char} {lexeme : Lexeme}
    (hWhite : isWhitespace c = true) (h : lexStep (c :: chars) = .ok (some lexeme, rest)) :
    lexeme.kind = .symbol '\x0b' := by
  by_cases hSkip : isAsciiWhitespace c = true
  · rw [lexStep_whitespace hSkip] at h
    cases h
  cases hAscii : isAscii c with
  | true =>
    have hSmall : c.toNat < 128 := of_decide_eq_true hAscii
    have hTab : c.toNat = '\x0b'.toNat := by
      simp only [isAsciiWhitespace, Bool.or_eq_true, decide_eq_true_eq, not_or,
        ← Char.toNat_inj] at hSkip
      simp only [isWhitespace, Bool.or_eq_true, Bool.and_eq_true, decide_eq_true_eq] at hWhite
      simp at hSkip ⊢
      omega
    obtain rfl := Char.toNat_inj.mp hTab
    cases h
    rfl
  | false =>
    have hNot : ∀ d, isAscii d = true → c ≠ d := by
      rintro d hd rfl
      exact Bool.false_ne_true (hAscii.symm.trans hd)
    have hAlpha : ¬ (c.isAlpha ∨ c = '_') := by
      rintro (hAlpha | hUnderscore)
      · exact Bool.false_ne_true (hAscii.symm.trans (isAscii_of_isAlpha hAlpha))
      · exact hNot '_' rfl hUnderscore
    have hDigit : ¬ c.isDigit := fun hDigit =>
      Bool.false_ne_true (hAscii.symm.trans (isAscii_of_isDigit hDigit))
    have hQuote : ¬ (c = '\'' ∨ c = '"') := not_or.mpr ⟨hNot _ rfl, hNot _ rfl⟩
    rw [lexStep, if_neg hSkip, if_neg fun h => hNot '/' rfl h.1, if_neg fun h => hNot '/' rfl h.1,
      if_neg hQuote, if_neg (hNot '`' rfl), if_neg (hNot '$' rfl), if_neg (hNot ';' rfl),
      if_neg hAlpha, if_neg hDigit, if_neg (by rw [hAscii]; exact Bool.false_ne_true),
      if_neg (by rw [UnicodeTables.notWhitespace c hWhite]; exact Bool.false_ne_true)] at h
    cases h

theorem Reads.of_blank {statement : List Char} {lexemes : List Lexeme} (h : Reads statement lexemes)
    (hBlank : ∀ c ∈ statement, isWhitespace c = true)
    (hTab : ∀ lexeme ∈ lexemes, lexeme.kind ≠ .symbol '\x0b') : lexemes = [] := by
  induction h with
  | nil => rfl
  | @turn chars rest found lexemes hSome h hRest ih =>
    obtain ⟨text, -, hChars, -, -⟩ := lexStep_local h hSome
    cases found with
    | some lexeme =>
      cases chars with
      | nil => exact absurd rfl hSome
      | cons c chars =>
        exact absurd (kind_of_whitespace (hBlank c List.mem_cons_self) h)
          (hTab lexeme List.mem_cons_self)
    | none =>
      refine ih (fun c hc => hBlank c ?_) hTab
      rw [hChars]
      exact List.mem_append_right _ hc

end Rhiza.Graph
