import Rhiza.Graph.RowBound

/-! # The rewriting of a limit

A statement is cut before its last semicolon and before the blanks at its end, and its limit is
left, put in or exchanged, all by the places of its tokens. What is left is read as the same
tokens, for each of them is read apart from what comes next.
-/

namespace Rhiza.Graph

open Core Library

variable [UnicodeTables]

omit [UnicodeTables] in
theorem run_of_rest {p : Char → Bool} {text rest : List Char}
    (h : (text ++ rest).dropWhile p = rest) : ∀ c ∈ text, p c = true := by
  have hWhole := List.takeWhile_append_dropWhile (p := p) (l := text ++ rest)
  rw [h] at hWhole
  have hSame : (text ++ rest).takeWhile p = text := List.append_cancel_right hWhole
  intro c hc
  rw [← hSame] at hc
  exact List.mem_takeWhile_imp hc

omit [UnicodeTables] in
theorem isAlphanum_of_whitespace {c : Char} (h : isWhitespace c = true) : c.isAlphanum = false := by
  refine Bool.eq_false_of_not_eq_true fun hName => ?_
  change (decide (65 ≤ c.val ∧ c.val ≤ 90) || decide (97 ≤ c.val) && decide (c.val ≤ 122) ||
    decide (48 ≤ c.val) && decide (c.val ≤ 57)) = true at hName
  simp only [Bool.or_eq_true, Bool.and_eq_true, decide_eq_true_eq, UInt32.le_iff_toNat_le] at hName
  simp only [isWhitespace, Bool.or_eq_true, Bool.and_eq_true, decide_eq_true_eq] at h
  have hSame : c.toNat = c.val.toNat := rfl
  simp at hName
  omega

omit [UnicodeTables] in
theorem isNameByte_of_blank {c : Char} (h : isWhitespace c = true) : isNameByte c = false := by
  have hUnderscore : c ≠ '_' := by
    rintro rfl
    cases h
  simp only [isNameByte, isAlphanum_of_whitespace h, hUnderscore, decide_false, Bool.or_false]

omit [UnicodeTables] in
theorem isDigit_of_blank {c : Char} (h : isWhitespace c = true) : c.isDigit = false := by
  refine Bool.eq_false_of_not_eq_true fun hDigit => ?_
  exact absurd ((isNameByte_of_digit hDigit).symm.trans (isNameByte_of_blank h)) nofun

theorem isNameCharacter_of_blank {c : Char} (h : isWhitespace c = true) :
    isNameCharacter c = false := by
  have hUnderscore : c ≠ '_' := by
    rintro rfl
    cases h
  have hLetter : isAlphanumeric c = false := by
    unfold isAlphanumeric
    split
    · exact isAlphanum_of_whitespace h
    · exact UnicodeTables.notWhitespace c h
  simp only [isNameCharacter, hLetter, hUnderscore, decide_false, Bool.or_false]

theorem lexStep_ends {text rest : List Char} {found : Option Lexeme} {w : Char}
    (h : lexStep (text ++ rest) = .ok (found, rest)) (hLast : text.getLast? = some w)
    (hWhite : isWhitespace w = true) :
    text = [w] ∨ found = none ∧ ∃ body, text = '/' :: '/' :: body ∧ '\n' ∉ body := by
  cases text with
  | nil => cases hLast
  | cons c tail =>
  by_cases hTail : tail = []
  · subst hTail
    exact .inl (congrArg (fun d => [d]) (Option.some.inj hLast))
  have hLast' : tail.getLast? = some w := by
    cases tail with
    | nil => exact absurd rfl hTail
    | cons d tail => exact hLast
  have hMem := List.mem_of_getLast? hLast'
  have hRest {p : Char → Bool} (hBlank : p w = false) : (tail ++ rest).dropWhile p ≠ rest :=
    fun hDrop => absurd ((run_of_rest hDrop w hMem).symm.trans hBlank) nofun
  have hOne : tail ++ rest ≠ rest := fun hSame => hTail (List.append_left_eq_self.mp hSame)
  rw [List.cons_append, lexStep] at h
  by_cases hSpace : isAsciiWhitespace c = true
  · rw [if_pos hSpace] at h
    exact absurd (Prod.mk.inj (Except.ok.inj h)).2 hOne
  rw [if_neg hSpace] at h
  by_cases hLine : c = '/' ∧ (tail ++ rest).head? = some '/'
  · rw [if_pos hLine] at h
    obtain ⟨hFound, hDrop⟩ := Prod.mk.inj (Except.ok.inj h)
    obtain ⟨rfl, hHead⟩ := hLine
    have hRun := run_of_rest hDrop
    cases tail with
    | nil => exact absurd rfl hTail
    | cons d tail =>
      obtain rfl : d = '/' := Option.some.inj hHead
      refine .inr ⟨hFound.symm, tail, rfl, fun hBreak => ?_⟩
      exact of_decide_eq_true (hRun '\n' (List.mem_cons_of_mem _ hBreak)) rfl
  rw [if_neg hLine] at h
  by_cases hBlock : c = '/' ∧ (tail ++ rest).head? = some '*'
  · rw [if_pos hBlock] at h
    obtain ⟨last, hComment, h⟩ := bind_ok_iff.mp h
    obtain rfl := (Prod.mk.inj (Except.ok.inj h)).2
    obtain ⟨text, hText, hSlash, -⟩ := skipBlockComment_local hComment
    cases tail with
    | nil => exact absurd rfl hTail
    | cons d tail =>
      obtain rfl : tail = text := List.append_cancel_right hText
      have hEnd := getLast_behind [d] hSlash
      rw [List.singleton_append, hLast'] at hEnd
      rw [Option.some.inj hEnd] at hWhite
      cases hWhite
  rw [if_neg hBlock] at h
  by_cases hQuote : c = '\'' ∨ c = '"'
  · rw [if_pos hQuote] at h
    obtain ⟨⟨text, last⟩, hString, h⟩ := bind_ok_iff.mp h
    obtain rfl := (Prod.mk.inj (Except.ok.inj h)).2
    have hOther : c ≠ '\\' ∧ isWhitespace c = false := by rcases hQuote with rfl | rfl <;> decide
    obtain ⟨hText, hEnd, -⟩ := skipQuotedString_local hOther.1 hString
    obtain rfl : tail = text := List.append_cancel_right hText
    rw [hLast'] at hEnd
    rw [Option.some.inj hEnd] at hWhite
    exact absurd (hWhite.symm.trans hOther.2) nofun
  rw [if_neg hQuote] at h
  by_cases hTick : c = '`'
  · rw [if_pos hTick] at h
    obtain ⟨⟨value, text, last⟩, hEscaped, h⟩ := bind_ok_iff.mp h
    obtain rfl := (Prod.mk.inj (Except.ok.inj h)).2
    obtain ⟨hText, hEnd, -⟩ := readEscapedIdentifier_local hEscaped
    obtain rfl : tail = text := List.append_cancel_right hText
    rw [hLast'] at hEnd
    rw [Option.some.inj hEnd] at hWhite
    cases hWhite
  rw [if_neg hTick] at h
  by_cases hDollar : c = '$'
  · rw [if_pos hDollar] at h
    dsimp only at h
    split at h
    · cases h
    · exact absurd (Prod.mk.inj (Except.ok.inj h)).2 (hRest (isNameByte_of_blank hWhite))
  rw [if_neg hDollar] at h
  by_cases hSemicolon : c = ';'
  · rw [if_pos hSemicolon] at h
    exact absurd (Prod.mk.inj (Except.ok.inj h)).2 hOne
  rw [if_neg hSemicolon] at h
  by_cases hAlpha : c.isAlpha ∨ c = '_'
  · rw [if_pos hAlpha] at h
    exact absurd (Prod.mk.inj (Except.ok.inj h)).2 (hRest (isNameByte_of_blank hWhite))
  rw [if_neg hAlpha] at h
  by_cases hDigit : c.isDigit
  · rw [if_pos hDigit] at h
    exact absurd (Prod.mk.inj (Except.ok.inj h)).2 (hRest (isDigit_of_blank hWhite))
  rw [if_neg hDigit] at h
  by_cases hAscii : isAscii c
  · rw [if_pos hAscii] at h
    exact absurd (Prod.mk.inj (Except.ok.inj h)).2 hOne
  rw [if_neg hAscii] at h
  by_cases hLetter : UnicodeTables.isAlphanumeric c
  · rw [if_pos hLetter] at h
    exact absurd (Prod.mk.inj (Except.ok.inj h)).2 (hRest (isNameCharacter_of_blank hWhite))
  · rw [if_neg hLetter] at h
    cases h

theorem lexStep_of_digit {c : Char} (hDigit : c.isDigit = true) (more : List Char) :
    lexStep (c :: more) = .ok (lexRun [c] Char.isDigit .integer more) := by
  have hNot : ∀ d : Char, d.isDigit = false → c ≠ d := by
    rintro d hd rfl
    exact absurd (hDigit.symm.trans hd) nofun
  have hSpace : ¬isAsciiWhitespace c = true := fun hSpace =>
    absurd (hDigit.symm.trans (isDigit_of_whitespace hSpace)) nofun
  have hAlpha : ¬(c.isAlpha = true ∨ c = '_') := by
    rintro (hAlpha | hUnderscore)
    · change (decide (65 ≤ c.val ∧ c.val ≤ 90) || decide (97 ≤ c.val) && decide (c.val ≤ 122)) =
        true at hAlpha
      simp [Char.isDigit, UInt32.le_iff_toNat_le] at hAlpha hDigit
      omega
    · exact hNot '_' rfl hUnderscore
  rw [lexStep, if_neg hSpace, if_neg fun h => hNot '/' rfl h.1, if_neg fun h => hNot '/' rfl h.1,
    if_neg (not_or.mpr ⟨hNot _ rfl, hNot _ rfl⟩), if_neg (hNot '`' rfl), if_neg (hNot '$' rfl),
    if_neg (hNot ';' rfl), if_neg hAlpha, if_pos hDigit]

theorem lexStep_integer {chars rest text : List Char} {value : String}
    (h : lexStep chars = .ok (some ⟨.integer value, text⟩, rest)) :
    text ≠ [] ∧ (∀ c ∈ text, c.isDigit = true) ∧ value = String.ofList text ∧
      chars = text ++ rest ∧ ∀ c ∈ rest.head?, c.isDigit = false := by
  cases chars with
  | nil => cases h
  | cons c more =>
    by_cases hDigit : c.isDigit = true
    · rw [lexStep_of_digit hDigit] at h
      obtain ⟨hFound, rfl⟩ := Prod.mk.inj (Except.ok.inj h)
      obtain ⟨hKind, rfl⟩ := Lexeme.mk.inj (Option.some.inj hFound)
      refine ⟨nofun, ?_, (QueryTokenKind.integer.inj hKind).symm, ?_, head_dropWhile⟩
      · exact List.forall_mem_cons.mpr ⟨hDigit, fun d hd => List.mem_takeWhile_imp hd⟩
      · exact (congrArg (c :: ·) List.takeWhile_append_dropWhile).symm
    · -- the other turns find other tokens
      rw [lexStep] at h
      by_cases hSpace : isAsciiWhitespace c = true
      · rw [if_pos hSpace] at h
        cases h
      rw [if_neg hSpace] at h
      by_cases hLine : c = '/' ∧ more.head? = some '/'
      · rw [if_pos hLine] at h
        cases h
      rw [if_neg hLine] at h
      by_cases hBlock : c = '/' ∧ more.head? = some '*'
      · rw [if_pos hBlock] at h
        obtain ⟨_, -, h⟩ := bind_ok_iff.mp h
        cases h
      rw [if_neg hBlock] at h
      by_cases hQuote : c = '\'' ∨ c = '"'
      · rw [if_pos hQuote] at h
        obtain ⟨⟨_, _⟩, -, h⟩ := bind_ok_iff.mp h
        cases h
      rw [if_neg hQuote] at h
      by_cases hTick : c = '`'
      · rw [if_pos hTick] at h
        obtain ⟨⟨_, _, _⟩, -, h⟩ := bind_ok_iff.mp h
        cases h
      rw [if_neg hTick] at h
      by_cases hDollar : c = '$'
      · rw [if_pos hDollar] at h
        dsimp only at h
        split at h
        · cases h
        · cases h
      rw [if_neg hDollar] at h
      by_cases hSemicolon : c = ';'
      · rw [if_pos hSemicolon] at h
        cases h
      rw [if_neg hSemicolon] at h
      by_cases hAlpha : c.isAlpha ∨ c = '_'
      · rw [if_pos hAlpha] at h
        cases h
      rw [if_neg hAlpha, if_neg hDigit] at h
      by_cases hAscii : isAscii c
      · rw [if_pos hAscii] at h
        cases h
      rw [if_neg hAscii] at h
      by_cases hLetter : UnicodeTables.isAlphanumeric c
      · rw [if_pos hLetter] at h
        cases h
      · rw [if_neg hLetter] at h
        cases h

theorem Reads.trim {chars body blanks : List Char} {lexemes : List Lexeme} (h : Reads chars lexemes)
    (hChars : chars = body ++ blanks) (hBlank : ∀ c ∈ blanks, isWhitespace c = true)
    (hTab : ∀ lexeme ∈ lexemes, lexeme.kind ≠ .symbol '\x0b') : Reads body lexemes := by
  induction h generalizing body with
  | nil =>
    obtain ⟨rfl, -⟩ := List.append_eq_nil_iff.mp hChars.symm
    exact .nil
  | @turn chars rest found lexemes hSome h hRest ih =>
    obtain ⟨text, hText, rfl, -, hLocal⟩ := lexStep_local h hSome
    have hLater : ∀ lexeme ∈ lexemes, lexeme.kind ≠ .symbol '\x0b' := fun lexeme hMem =>
      hTab lexeme (List.mem_append_right _ hMem)
    rcases List.append_eq_append_iff.mp hChars with ⟨more, rfl, rfl⟩ | ⟨cut, rfl, rfl⟩
    · -- the turn ends within the body
      refine .turn (List.append_ne_nil_of_left_ne_nil hText _) (hLocal more ?_) (ih rfl hLater)
      cases more with
      | nil => exact .inr (.inl nofun)
      | cons c more => exact .inl (.inl rfl)
    · cases hCut : cut with
      | nil =>
        subst hCut
        rw [List.append_nil] at hText
        have hEnd := hLocal [] (.inr (.inl nofun))
        rw [List.append_nil, List.append_nil] at hEnd
        exact .turn hText hEnd (ih rfl hLater)
      | cons first cut' =>
        -- it reads blanks, too
        have hNone : lexemes = [] :=
          hRest.of_blank (fun c hc => hBlank c (List.mem_append_right _ hc)) hLater
        subst hNone
        obtain ⟨w, hLast⟩ := List.getLast?_isSome.mpr (hCut ▸ List.cons_ne_nil _ _ : cut ≠ [])
          |> Option.isSome_iff_exists.mp
        have hWhite : isWhitespace w = true :=
          hBlank w (List.mem_append_left _ (List.mem_of_getLast? hLast))
        rcases lexStep_ends h (getLast_behind body hLast) hWhite with
          hOne | ⟨rfl, comment, hComment, hBreak⟩
        · obtain ⟨rfl, rfl⟩ : body = [] ∧ cut = [w] := by
            cases body with
            | nil => exact ⟨rfl, hOne⟩
            | cons c body =>
              rw [hCut] at hOne
              exact absurd (congrArg List.length hOne) (by simp)
          cases found with
          | none => exact .nil
          | some lexeme =>
            exact absurd (kind_of_whitespace hWhite h) (hTab lexeme List.mem_cons_self)
        · have hSlash : ∀ c ∈ cut, c ≠ '/' := by
            rintro c hc rfl
            exact absurd (hBlank '/' (List.mem_append_left _ hc)) nofun
          match body, hComment with
          | [], hComment =>
            have hCut : cut = '/' :: '/' :: comment := hComment
            exact absurd rfl (hSlash '/' (hCut ▸ List.mem_cons_self))
          | [c], hComment =>
            have hCut : cut = '/' :: comment := (List.cons.inj hComment).2
            exact absurd rfl (hSlash '/' (hCut ▸ List.mem_cons_self))
          | c :: d :: body, hComment =>
            obtain ⟨hFirst, hComment⟩ := List.cons.inj hComment
            obtain ⟨hSecond, hComment⟩ := List.cons.inj hComment
            rw [hFirst, hSecond]
            have hBody : '\n' ∉ body := fun hIn => hBreak (hComment ▸ List.mem_append_left _ hIn)
            have hEnd : lexStep ('/' :: '/' :: body ++ []) = .ok (none, []) :=
              lexStep_lineComment hBody nofun
            rw [List.append_nil] at hEnd
            exact .turn nofun hEnd .nil

theorem Reads.newline {body post : List Char} {front later : List Lexeme} (h : Reads body front)
    (hLater : Reads ('\n' :: post) later) : Reads (body ++ '\n' :: post) (front ++ later) := by
  induction h with
  | nil => exact hLater
  | @turn chars rest found lexemes hSome h hRest ih =>
    obtain ⟨text, hText, rfl, -, hLocal⟩ := lexStep_local h hSome
    have hStep := hLocal (rest ++ '\n' :: post) (by
      cases rest with
      | nil => exact .inr (.inl fun c hc => (Option.some.inj hc).symm)
      | cons c rest => exact .inl (.inl rfl))
    rw [List.append_assoc, List.append_assoc]
    exact .turn (List.append_ne_nil_of_left_ne_nil hText _) hStep ih

omit [UnicodeTables] in
theorem utf8Length_append (front back : List Char) :
    utf8Length (front ++ back) = utf8Length front + utf8Length back := by
  simp only [utf8Length, List.map_append, List.sum_append]

theorem lexFrom_at {turns offset : Nat} {chars : List Char} {front back : List QueryToken}
    {token : QueryToken} (h : lexFrom turns offset chars = .ok (front ++ token :: back)) :
    ∃ last pre post turns', chars = pre ++ (token.text ++ post) ∧
      token.start = offset + utf8Length pre ∧
      At last pre (token.text ++ post) (front.map (·.toLexeme)) ∧ token.text ≠ [] ∧
      lexStep (token.text ++ post) = .ok (some token.toLexeme, post) ∧
      lexFrom turns' (token.start + utf8Length token.text) post = .ok back := by
  induction turns generalizing offset chars front with
  | zero =>
    cases chars with
    | nil => exact absurd (Except.ok.inj h) (by simp)
    | cons c chars => cases h
  | succ turns ih =>
    cases chars with
    | nil => exact absurd (Except.ok.inj h) (by simp)
    | cons c chars =>
      obtain ⟨⟨found, rest⟩, hStep, h⟩ := bind_ok_iff.mp h
      obtain ⟨later, hLater, h⟩ := bind_ok_iff.mp h
      obtain ⟨text, hText, hChars, hSame, -⟩ := lexStep_local hStep nofun
      have hBytes : utf8Length (c :: chars) - utf8Length rest = utf8Length text := by
        rw [hChars, utf8Length_append, Nat.add_sub_cancel_right]
      rw [hBytes] at hLater
      have hTokens := Except.ok.inj h
      have hAt {last pre post : List Char} {before : List Lexeme}
          (hRest : rest = pre ++ post) (hBefore : At last pre post before) :
          At (if pre = [] then text else last) (text ++ pre) post (found.toList ++ before) := by
        refine .turn hText ?_ hBefore
        rw [← hRest, ← hChars]
        exact hStep
      cases found with
      | none =>
        rw [Option.toList_none, List.map_nil, List.nil_append] at hTokens
        rw [hTokens] at hLater
        obtain ⟨last, pre, post, turns', hRest, hStart, hBefore, hMore⟩ := ih hLater
        refine ⟨_, text ++ pre, post, turns', by rw [hChars, hRest, List.append_assoc], ?_,
          hAt hRest hBefore, hMore⟩
        rw [hStart, utf8Length_append, Nat.add_assoc]
      | some lexeme =>
        obtain rfl := hSame lexeme rfl
        rw [Option.toList_some, List.map_singleton, List.singleton_append] at hTokens
        cases front with
        | nil =>
          obtain ⟨hToken, rfl⟩ := List.cons.inj hTokens
          refine ⟨[], [], rest, turns, ?_, ?_, .start _, ?_, ?_, ?_⟩
          · rw [← hToken]
            exact hChars
          · rw [← hToken]
            rfl
          · rw [← hToken]
            exact hText
          · rw [← hToken, ← hChars]
            exact hStep
          · rw [← hToken]
            exact hLater
        | cons head front =>
          obtain ⟨rfl, rfl⟩ := List.cons.inj hTokens
          obtain ⟨last, pre, post, turns', hRest, hStart, hBefore, hMore⟩ := ih hLater
          refine ⟨_, lexeme.text ++ pre, post, turns', by rw [hChars, hRest, List.append_assoc], ?_,
            hAt hRest hBefore, hMore⟩
          rw [hStart, utf8Length_append, Nat.add_assoc]

theorem lexFrom_enough {turns offset : Nat} {chars : List Char} (h : chars.length ≤ turns) :
    lexFrom turns offset chars = lexFrom chars.length offset chars := by
  suffices hAny : ∀ turns', chars.length ≤ turns' →
      lexFrom turns offset chars = lexFrom turns' offset chars from hAny _ (Nat.le_refl _)
  have hNil {turns offset : Nat} : lexFrom turns offset [] = .ok [] := by cases turns <;> rfl
  induction turns generalizing offset chars with
  | zero =>
    intro turns' _
    obtain rfl := List.length_eq_zero_iff.mp (Nat.le_zero.mp h)
    rw [hNil, hNil]
  | succ turns ih =>
    intro turns' h'
    cases chars with
    | nil => rw [hNil, hNil]
    | cons c chars =>
      cases turns' with
      | zero => exact absurd h' (Nat.not_succ_le_zero _)
      | succ turns' =>
        rw [lexFrom, lexFrom]
        refine bind_congr_ok fun ⟨found, rest⟩ hStep => ?_
        obtain ⟨text, hText, hChars, -, -⟩ := lexStep_local hStep nofun
        have hShorter : rest.length < (c :: chars).length := by
          rw [hChars, List.length_append]
          exact Nat.lt_add_of_pos_left (List.length_pos_of_ne_nil hText)
        dsimp only
        rw [ih (by omega) turns' (by omega)]

omit [UnicodeTables] in
theorem bytePrefix_append (pre post : List Char) :
    bytePrefix (utf8Length pre) (pre ++ post) = pre := by
  induction pre with
  | nil =>
    cases post with
    | nil => rfl
    | cons c post =>
      rw [List.nil_append, bytePrefix, if_neg]
      exact Nat.not_le_of_lt c.utf8Size_pos
  | cons c pre ih =>
    rw [List.cons_append, bytePrefix, utf8Length, List.map_cons, List.sum_cons,
      if_pos (Nat.le_add_right _ _), Nat.add_sub_cancel_left]
    exact congrArg (c :: ·) ih

omit [UnicodeTables] in
theorem trimEnd_append (chars : List Char) :
    ∃ blanks, chars = trimEnd chars ++ blanks ∧ ∀ c ∈ blanks, isWhitespace c = true := by
  refine ⟨(chars.reverse.takeWhile isWhitespace).reverse, ?_, fun c hc => ?_⟩
  · rw [trimEnd, ← List.reverse_append, List.takeWhile_append_dropWhile, List.reverse_reverse]
  · exact List.mem_takeWhile_imp (List.mem_reverse.mp hc)

def limitKeyword : Lexeme := ⟨.identifier "LIMIT" false, "LIMIT".toList⟩

def integerToken (n : Nat) : Lexeme := ⟨.integer (toString n), (toString n).toList⟩

omit [UnicodeTables] in
theorem digits_toString (n : Nat) :
    (toString n).toList ≠ [] ∧ ∀ c ∈ (toString n).toList, c.isDigit = true := by
  rw [Nat.toString_eq_repr, Nat.toList_repr]
  exact ⟨Nat.toDigits_ne_nil, fun c hc => Nat.isDigit_of_mem_toDigits (by decide) (by decide) hc⟩

omit [UnicodeTables] in
theorem parseDigits_toString (n : Nat) : parseDigits (toString n) = n := by
  rw [parseDigits, Nat.toString_eq_repr, Nat.toList_repr]
  have hSame := Nat.ofDigitChars_ten_toDigits (n := n)
  rw [Nat.ofDigitChars] at hSame
  simpa only [Nat.mul_comm] using hSame

theorem lexStep_digits {digits rest : List Char} (hSome : digits ≠ [])
    (hDigits : ∀ c ∈ digits, c.isDigit = true) (hRest : ∀ c ∈ rest.head?, c.isDigit = false) :
    lexStep (digits ++ rest) = .ok (some ⟨.integer (String.ofList digits), digits⟩, rest) := by
  cases digits with
  | nil => exact absurd rfl hSome
  | cons c more =>
    obtain ⟨hFirst, hMore⟩ := List.forall_mem_cons.mp hDigits
    have hSelf : more.takeWhile Char.isDigit = more := List.takeWhile_eq_self_iff.mpr hMore
    have hRun : lexRun [c] Char.isDigit .integer (more.takeWhile Char.isDigit ++ rest) =
        ((lexRun [c] Char.isDigit .integer more).1, rest) := lexRun_local hRest
    rw [hSelf] at hRun
    rw [List.cons_append, lexStep_of_digit hFirst, hRun, lexRun, hSelf]
    rfl

theorem reads_limit (n : Nat) :
    Reads ('\n' :: ("LIMIT ".toList ++ (toString n).toList)) [limitKeyword, integerToken n] := by
  obtain ⟨hSome, hDigits⟩ := digits_toString n
  have hNumber : lexStep ((toString n).toList ++ []) =
      .ok (some ⟨.integer (String.ofList (toString n).toList), (toString n).toList⟩, []) :=
    lexStep_digits hSome hDigits nofun
  rw [List.append_nil, String.ofList_toList] at hNumber
  have hLast : Reads (toString n).toList [integerToken n] := .turn hSome hNumber .nil
  have hKeyword : lexStep ("LIMIT ".toList ++ (toString n).toList) =
      .ok (some limitKeyword, ' ' :: (toString n).toList) := rfl
  have hSpace : lexStep (' ' :: (toString n).toList) = .ok (none, (toString n).toList) := rfl
  have hBehind : Reads (' ' :: (toString n).toList) [integerToken n] :=
    (reads_skip_iff (List.cons_ne_nil _ _) hSpace).mpr hLast
  have hBoth : Reads ("LIMIT ".toList ++ (toString n).toList) [limitKeyword, integerToken n] :=
    (reads_turn_iff (List.cons_ne_nil _ _) hKeyword).mpr ⟨_, rfl, hBehind⟩
  exact (reads_skip_iff (List.cons_ne_nil _ _) (lexStep_whitespace rfl)).mpr hBoth

def statementTokens (tokens : List QueryToken) : List Lexeme :=
  withoutSemicolon (tokens.map (·.toLexeme))

theorem part_of_semicolon {statement : List Char} {front : List QueryToken} {token : QueryToken}
    (h : lexQuery statement = .ok (front ++ [token])) (hKind : token.kind = .semicolon) :
    ∃ pre post, statement = pre ++ post ∧
      bytePrefix (bodyEnd statement (front ++ [token])) statement = pre ∧
      statementTokens (front ++ [token]) = front.map (·.toLexeme) ∧
      Reads pre (front.map (·.toLexeme)) := by
  obtain ⟨last, pre, post, _, hChars, hStart, hAt, -⟩ := lexFrom_at h
  rw [Nat.zero_add] at hStart
  refine ⟨pre, token.text ++ post, hChars, ?_, ?_, ?_⟩
  · rw [bodyEnd, List.getLast?_append, List.getLast?_singleton, Option.some_or]
    dsimp only
    rw [if_pos hKind, hStart, hChars, bytePrefix_append]
  · have hSemicolon : decide (token.toLexeme.kind = .semicolon) = true := decide_eq_true hKind
    rw [statementTokens, withoutSemicolon, List.map_append, List.map_singleton,
      List.getLast?_append, List.getLast?_singleton, Option.some_or, Option.any_some,
      if_pos hSemicolon, List.dropLast_concat]
  · have hEnd : At last pre [] (front.map (·.toLexeme)) := hAt.reopen (.inr (.inr (.inl nofun)))
    have hReads : Reads (pre ++ []) (front.map (·.toLexeme)) :=
      hEnd.reads_iff.mpr ⟨[], (List.append_nil _).symm, .nil⟩
    rwa [List.append_nil] at hReads

theorem part_without_semicolon {statement : List Char} {tokens : List QueryToken}
    (h : lexQuery statement = .ok tokens) (hKind : ∀ token ∈ tokens.getLast?, token.kind ≠ .semicolon) :
    bytePrefix (bodyEnd statement tokens) statement = statement ∧
      statementTokens tokens = tokens.map (·.toLexeme) ∧ Reads statement (tokens.map (·.toLexeme)) := by
  have hWhole : bytePrefix (utf8Length statement) statement = statement := by
    have hSame := bytePrefix_append statement []
    rwa [List.append_nil] at hSame
  refine ⟨?_, ?_, reads_of_lexFrom h⟩
  · unfold bodyEnd
    split
    · rename_i token hLast
      rw [if_neg (hKind token hLast), hWhole]
    · exact hWhole
  · rw [statementTokens, withoutSemicolon, if_neg]
    rw [List.getLast?_map]
    cases hLast : tokens.getLast? with
    | none => exact nofun
    | some token =>
      rw [Option.map_some, Option.any_some]
      exact fun hSemi => hKind token hLast (of_decide_eq_true hSemi)

theorem reads_body {statement : List Char} {tokens : List QueryToken}
    (h : lexQuery statement = .ok tokens)
    (hTab : ∀ token ∈ tokens, token.kind ≠ .symbol '\x0b') :
    Reads (trimEnd (bytePrefix (bodyEnd statement tokens) statement)) (statementTokens tokens) := by
  obtain ⟨blanks, hTrim, hBlank⟩ := trimEnd_append (bytePrefix (bodyEnd statement tokens) statement)
  have hLexemes : ∀ front : List QueryToken, (∀ token ∈ front, token ∈ tokens) →
      ∀ lexeme ∈ front.map (·.toLexeme), lexeme.kind ≠ .symbol '\x0b' := by
    intro front hFront lexeme hMem
    obtain ⟨token, hToken, rfl⟩ := List.mem_map.mp hMem
    exact hTab token (hFront token hToken)
  by_cases hKind : ∀ token ∈ tokens.getLast?, token.kind ≠ .semicolon
  · obtain ⟨hPart, hTokens, hReads⟩ := part_without_semicolon h hKind
    rw [hTokens]
    refine Reads.trim ?_ hTrim hBlank (hLexemes tokens fun _ => id)
    rw [hPart]
    exact hReads
  · obtain ⟨token, hLast, hSemi⟩ := not_forall₂.mp hKind
    obtain ⟨front, rfl⟩ := List.getLast?_eq_some_iff.mp hLast
    obtain ⟨pre, post, -, hPart, hTokens, hReads⟩ := part_of_semicolon h (not_not.mp hSemi)
    rw [hTokens]
    refine Reads.trim ?_ hTrim hBlank (hLexemes front fun _ => List.mem_append_left _)
    rw [hPart]
    exact hReads

omit [UnicodeTables] in
theorem getLast?_ne_of_digits {text blanks : List Char} (hSome : text ≠ [])
    (hDigits : ∀ c ∈ text, c.isDigit = true) {front body : List Char}
    (hChars : front ++ text = body ++ blanks) (hBlank : ∀ c ∈ blanks, isWhitespace c = true) :
    blanks = [] := by
  obtain ⟨c, hLast⟩ := Option.isSome_iff_exists.mp (List.getLast?_isSome.mpr hSome)
  cases hCase : blanks.getLast? with
  | none => exact List.getLast?_eq_none_iff.mp hCase
  | some w =>
    have hSame := getLast_behind front hLast
    rw [hChars, getLast_behind body hCase] at hSame
    obtain rfl := Option.some.inj hSame
    exact absurd ((isDigit_of_blank (hBlank w (List.mem_of_getLast? hCase))).symm.trans
      (hDigits w (List.mem_of_getLast? hLast))) nofun

theorem body_at {statement : List Char} {front : List QueryToken} {token : QueryToken}
    {back : List QueryToken} {value : String}
    (h : lexQuery statement = .ok (front ++ token :: back)) (hToken : token.kind = .integer value)
    (hBack : back = [] ∨ ∃ last, last.kind = .semicolon ∧ back = [last]) :
    ∃ last pre post mid, token.start = utf8Length pre ∧
      At last pre (token.text ++ post) (front.map (·.toLexeme)) ∧
      lexStep (token.text ++ post) = .ok (some token.toLexeme, post) ∧ mid <+: post ∧
      trimEnd (bytePrefix (bodyEnd statement (front ++ token :: back)) statement) =
        pre ++ (token.text ++ mid) := by
  obtain ⟨last, pre, post, turns, hChars, hStart, hAt, -, hStep, hMore⟩ := lexFrom_at h
  rw [Nat.zero_add] at hStart
  have hInteger : lexStep (token.text ++ post) = .ok (some ⟨.integer value, token.text⟩, post) := by
    rw [hStep, ← hToken]
  obtain ⟨hSome, hDigits, -, -, -⟩ := lexStep_integer hInteger
  have hPart : ∃ mid, mid <+: post ∧
      bytePrefix (bodyEnd statement (front ++ token :: back)) statement =
        pre ++ (token.text ++ mid) := by
    rcases hBack with rfl | ⟨semi, hSemi, rfl⟩
    · have hKind : ∀ found ∈ (front ++ [token]).getLast?, found.kind ≠ .semicolon := by
        intro found hFound
        rw [List.getLast?_append, List.getLast?_singleton, Option.some_or] at hFound
        rw [← Option.some.inj hFound, hToken]
        exact nofun
      exact ⟨post, List.prefix_refl _, (part_without_semicolon h hKind).1.trans hChars⟩
    · have hSemicolon : lexFrom turns (token.start + utf8Length token.text) post =
          .ok ([] ++ semi :: []) := hMore
      obtain ⟨_, pre', post', _, rfl, hStart', -⟩ := lexFrom_at hSemicolon
      refine ⟨pre', List.prefix_append _ _, ?_⟩
      have hEnd : bodyEnd statement (front ++ [token, semi]) =
          utf8Length (pre ++ (token.text ++ pre')) := by
        rw [bodyEnd, List.getLast?_append]
        change (if semi.kind = .semicolon then semi.start else utf8Length statement) = _
        rw [if_pos hSemi, hStart', hStart, utf8Length_append, utf8Length_append, Nat.add_assoc]
      have hSame : statement = pre ++ (token.text ++ pre') ++ (semi.text ++ post') := by
        rw [hChars]
        simp only [List.append_assoc]
      rw [hEnd, hSame, bytePrefix_append]
  obtain ⟨mid, hMid, hPart⟩ := hPart
  obtain ⟨blanks, hTrim, hBlank⟩ := trimEnd_append (pre ++ (token.text ++ mid))
  rw [hPart]
  have hSplit := hTrim
  rw [← List.append_assoc] at hSplit
  rcases List.append_eq_append_iff.mp hSplit with ⟨kept, hBody, hKept⟩ | ⟨cut, hBody, hBlanks⟩
  · refine ⟨last, pre, post, kept, hStart, hAt, hStep, ?_, by
      rw [← List.append_assoc, hBody, List.append_assoc]⟩
    exact List.IsPrefix.trans ⟨blanks, hKept.symm⟩ hMid
  · have hNone : cut = [] := getLast?_ne_of_digits hSome hDigits hBody fun c hc =>
      hBlank c (hBlanks ▸ List.mem_append_left _ hc)
    subst hNone
    rw [List.append_nil] at hBody
    exact ⟨last, pre, post, [], hStart, hAt, hStep, List.nil_prefix, by
      rw [List.append_nil]
      exact (congrArg trimEnd (List.append_assoc pre token.text mid)).symm.trans hBody.symm⟩

theorem reads_replaced {statement : List Char} {front back : List QueryToken} {token : QueryToken}
    {value : String} (h : lexQuery statement = .ok (front ++ token :: back))
    (hToken : token.kind = .integer value)
    (hBack : back = [] ∨ ∃ last, last.kind = .semicolon ∧ back = [last])
    (hReads : Reads (trimEnd (bytePrefix (bodyEnd statement (front ++ token :: back)) statement))
      (front.map (·.toLexeme) ++ [token.toLexeme])) (limit : Nat) :
    Reads ((ReadBound.replaced front.length limit).apply
        (trimEnd (bytePrefix (bodyEnd statement (front ++ token :: back)) statement))
        (front ++ token :: back))
      (front.map (·.toLexeme) ++ [integerToken limit]) := by
  obtain ⟨last, pre, post, mid, hStart, hAt, hStep, hMid, hBody⟩ := body_at h hToken hBack
  rw [hBody] at hReads ⊢
  have hInteger : lexStep (token.text ++ post) = .ok (some ⟨.integer value, token.text⟩, post) := by
    rw [hStep, ← hToken]
  obtain ⟨hSome, hDigits, -, -, -⟩ := lexStep_integer hInteger
  obtain ⟨first, more, hText⟩ := List.exists_cons_of_ne_nil hSome
  -- the text behind the number is read as nothing
  have hHere : At last pre (token.text ++ mid) (front.map (·.toLexeme)) :=
    hAt.reopen (.inr (.inl (.inl (by rw [hText]; rfl))))
  have hLocal : lexStep (token.text ++ mid) = .ok (some ⟨.integer value, token.text⟩, mid) := by
    obtain ⟨text, -, hSame, -, hLocal⟩ := lexStep_local hInteger (by rw [hText]; exact nofun)
    obtain rfl : token.text = text := List.append_cancel_right hSame
    refine hLocal mid ?_
    obtain ⟨tail, rfl⟩ := hMid
    cases mid with
    | nil => exact .inr (.inl nofun)
    | cons c mid => exact .inl (.inl rfl)
  have hNothing : Reads mid [] := by
    obtain ⟨later, hLater, hRest⟩ := hHere.reads_iff.mp hReads
    rw [← List.append_cancel_left hLater] at hRest
    obtain ⟨last', hLast, hMore⟩ := (reads_turn_iff (by rw [hText]; exact nofun) hLocal).mp hRest
    have hNil : last' = [] := by
      have hLength := congrArg List.length hLast
      simp only [List.length_singleton, Option.toList_some, List.length_append] at hLength
      exact List.length_eq_zero_iff.mp (by omega)
    rwa [hNil] at hMore
  -- so is the text behind the new one
  obtain ⟨hNew, hNewDigits⟩ := digits_toString limit
  have hNewStep : lexStep ((toString limit).toList ++ mid) = .ok (some (integerToken limit), mid) := by
    have hRead := lexStep_digits hNew hNewDigits (lexStep_integer hLocal).2.2.2.2
    rw [String.ofList_toList] at hRead
    exact hRead
  have hDigit : ∃ c ∈ ((toString limit).toList ++ mid).head?, c.isDigit = true := by
    obtain ⟨c, later, hLimit⟩ := List.exists_cons_of_ne_nil hNew
    rw [hLimit]
    exact ⟨c, rfl, hNewDigits c (hLimit ▸ List.mem_cons_self)⟩
  have hThere : At last pre ((toString limit).toList ++ mid) (front.map (·.toLexeme)) := by
    refine hAt.reopen (.inr (.inr (.inr ⟨?_, hDigit⟩)))
    rw [hText]
    exact ⟨first, rfl, hDigits first (hText ▸ List.mem_cons_self)⟩
  have hApply : (ReadBound.replaced front.length limit).apply (pre ++ (token.text ++ mid))
      (front ++ token :: back) = pre ++ ((toString limit).toList ++ mid) := by
    have hAtToken : (front ++ token :: back)[front.length]? = some token := by
      rw [List.getElem?_append_right (Nat.le_refl _), Nat.sub_self]
      rfl
    have hBehind : bytePrefix (token.start + utf8Length token.text) (pre ++ (token.text ++ mid)) =
        pre ++ token.text := by
      rw [hStart, ← utf8Length_append, ← List.append_assoc, bytePrefix_append]
    rw [ReadBound.apply, hAtToken]
    dsimp only
    rw [hBehind, hStart, bytePrefix_append, ← List.append_assoc pre token.text mid, List.drop_left,
      List.append_assoc]
  rw [hApply]
  refine hThere.reads_iff.mpr ⟨[integerToken limit], rfl, ?_⟩
  exact (reads_turn_iff (List.append_ne_nil_of_left_ne_nil hNew _) hNewStep).mpr
    ⟨[], rfl, hNothing⟩

end Rhiza.Graph
