import Rhiza.Graph.Rewrite

/-! # Admitted queries with their limits

An admitted query is read as before but for its limit. It ends in a limit that bounds the rows
of the whole statement, or each branch of its `UNION` does.
-/

namespace Rhiza.Graph

open Core Library

section Ends

variable {tokens : List Lexeme} {parameters : Parameters}

theorem trailingLimitIndex_some {start stop limitIndex : Nat}
    (h : trailingLimitIndex tokens start stop = some limitIndex) :
    stop = limitIndex + 2 ∧ tokenIsKeyword tokens[limitIndex]? "LIMIT" = true ∧
      Depth.after ((tokens.take limitIndex).drop start) = .zero := by
  unfold trailingLimitIndex at h
  dsimp only at h
  split at h
  · rename_i hAll
    obtain rfl := Option.some.inj h
    exact ⟨by omega, hAll.2.2⟩
  · cases h

def branchesOf (tokens : List Lexeme) : Nat → List Nat → List (Nat × Nat)
  | _, [] => []
  | start, stop :: stops =>
    (start, stop) :: branchesOf tokens
      (if tokenIsKeyword tokens[stop + 1]? "ALL" then stop + 2 else stop + 1) stops

def EndsBranch (tokens : List Lexeme) (parameters : Parameters) (branch : Nat × Nat) (limit : Nat) :
    Prop :=
  ∃ limitIndex, trailingLimitIndex tokens branch.1 branch.2 = some limitIndex ∧
    requestedLimit tokens limitIndex branch.2 parameters = .ok limit

theorem totalLimit_ok {total start n : Nat} {stops : List Nat}
    (h : totalLimit tokens parameters total start stops = .ok n) :
    ∃ limits, List.Forall₂ (EndsBranch tokens parameters) (branchesOf tokens start stops) limits ∧
      n = total + limits.sum := by
  induction stops generalizing total start with
  | nil => exact ⟨[], .nil, (Except.ok.inj h).symm⟩
  | cons stop stops ih =>
    rw [totalLimit] at h
    split at h
    · cases h
    · rename_i limitIndex hTrailing
      obtain ⟨requested, hRequested, h⟩ := bind_ok_iff.mp h
      obtain ⟨sum, hSum, h⟩ := bind_ok_iff.mp h
      obtain rfl := checkedUsize_ok (orInvalid_ok_iff.mp hSum)
      obtain ⟨limits, hLimits, rfl⟩ := ih h
      refine ⟨requested :: limits, .cons ⟨limitIndex, hTrailing, hRequested⟩ hLimits, ?_⟩
      rw [List.sum_cons, Nat.add_assoc]

structure EndsInLimit (tokens : List Lexeme) (parameters : Parameters) (limitIndex limit : Nat) :
    Prop where
  length : tokens.length = limitIndex + 2
  keyword : tokenIsKeyword tokens[limitIndex]? "LIMIT" = true
  requested : requestedLimit tokens limitIndex tokens.length parameters = .ok limit

theorem requestedLimit_integerToken {front : List Lexeme} {limitIndex limit : Nat}
    (hFront : front.length = limitIndex + 1) (hLimit : checkedUsize limit = some limit) :
    requestedLimit (front ++ [integerToken limit]) limitIndex (front ++ [integerToken limit]).length
      parameters = .ok limit := by
  unfold requestedLimit
  rw [List.take_length, ← hFront, List.drop_left]
  dsimp only [integerToken]
  rw [parseDigits_toString, hLimit]
  rfl

theorem endsInLimit_appended {limit : Nat} (hLimit : checkedUsize limit = some limit) :
    EndsInLimit (tokens ++ [limitKeyword, integerToken limit]) parameters tokens.length limit where
  length := by rw [List.length_append]; rfl
  keyword := by
    rw [List.getElem?_append_right (Nat.le_refl _), Nat.sub_self]
    change tokenIsKeyword (some limitKeyword) "LIMIT" = true
    decide
  requested := by
    have hFront : (tokens ++ [limitKeyword]).length = tokens.length + 1 := by
      rw [List.length_append, List.length_singleton]
    have hSame : tokens ++ [limitKeyword, integerToken limit] =
        (tokens ++ [limitKeyword]) ++ [integerToken limit] := by
      rw [List.append_assoc]
      rfl
    rw [hSame]
    exact requestedLimit_integerToken hFront hLimit

theorem endsInLimit_replaced (parameters : Parameters) {front : List Lexeme} {last : Lexeme}
    {limitIndex limit : Nat}
    (hTrailing : trailingLimitIndex (front ++ [last]) 0 (front ++ [last]).length = some limitIndex)
    (hLimit : checkedUsize limit = some limit) :
    EndsInLimit (front ++ [integerToken limit]) parameters limitIndex limit ∧
      Depth.after ((front ++ [integerToken limit]).take limitIndex) = .zero := by
  obtain ⟨hLength, hKeyword, hDepth⟩ := trailingLimitIndex_some hTrailing
  rw [List.length_append, List.length_singleton] at hLength
  have hFront : front.length = limitIndex + 1 := by omega
  have hHere : limitIndex < front.length := by omega
  rw [List.getElem?_append_left hHere] at hKeyword
  rw [List.drop_zero, List.take_append_of_le_length (Nat.le_of_lt hHere)] at hDepth
  refine ⟨⟨?_, ?_, requestedLimit_integerToken hFront hLimit⟩, ?_⟩
  · rw [List.length_append, List.length_singleton]
    omega
  · rw [List.getElem?_append_left hHere]
    exact hKeyword
  · rw [List.take_append_of_le_length (Nat.le_of_lt hHere)]
    exact hDepth

end Ends

section Rewritten

variable [UnicodeTables] {statement : List Char} {tokens : List QueryToken} {parameters : Parameters}
  {maxRows : Nat} {bound : ReadBound}

omit [UnicodeTables] in
theorem split_last {front : List Lexeme} {last : Lexeme}
    (h : statementTokens tokens = front ++ [last]) :
    ∃ before token back, tokens = before ++ token :: back ∧ before.map (·.toLexeme) = front ∧
      token.toLexeme = last ∧ (back = [] ∨ ∃ semi, semi.kind = .semicolon ∧ back = [semi]) := by
  have hSplit (body : List QueryToken) (hBody : body.map (·.toLexeme) = front ++ [last]) :
      ∃ before token, body = before ++ [token] ∧ before.map (·.toLexeme) = front ∧
        token.toLexeme = last := by
    obtain ⟨before, one, rfl, hBefore, hOne⟩ := List.map_eq_append_iff.mp hBody
    obtain ⟨token, rfl, hToken⟩ := List.map_eq_singleton_iff.mp hOne
    exact ⟨before, token, rfl, hBefore, hToken⟩
  unfold statementTokens withoutSemicolon at h
  split at h
  · rename_i hSemi
    rw [List.getLast?_map] at hSemi
    cases hLast : tokens.getLast? with
    | none =>
      rw [hLast] at hSemi
      cases hSemi
    | some semi =>
      rw [hLast] at hSemi
      obtain ⟨body, rfl⟩ := List.getLast?_eq_some_iff.mp hLast
      rw [List.map_append, List.map_singleton, List.dropLast_concat] at h
      obtain ⟨before, token, rfl, hBefore, hToken⟩ := hSplit body h
      exact ⟨before, token, [semi], List.append_assoc _ _ _, hBefore, hToken,
        .inr ⟨semi, of_decide_eq_true hSemi, rfl⟩⟩
  · obtain ⟨before, token, rfl, hBefore, hToken⟩ := hSplit tokens h
    exact ⟨before, token, [], rfl, hBefore, hToken, .inl rfl⟩

inductive RewrittenAs (original : List Lexeme) (maxRows : Nat) : List Lexeme → Prop
  | asWritten : RewrittenAs original maxRows original
  | appended : RewrittenAs original maxRows
      (original ++ [limitKeyword, integerToken (maxRows + 1)])
  | replaced {front : List Lexeme} {value : String} {text : List Char}
      (hLast : original = front ++ [⟨.integer value, text⟩]) (hLarge : maxRows < parseDigits value) :
      RewrittenAs original maxRows (front ++ [integerToken (maxRows + 1)])

theorem rewritten_tokens (hTokens : lexQuery statement = .ok tokens)
    (hTab : ∀ token ∈ tokens, token.kind ≠ .symbol '\x0b')
    (hBound : boundedReadStatement (statementTokens tokens) parameters maxRows = .ok bound) :
    ∃ rewritten, RewrittenAs (statementTokens tokens) maxRows rewritten ∧
      Reads (bound.apply (trimEnd (bytePrefix (bodyEnd statement tokens) statement)) tokens) rewritten ∧
      (unionIndices (statementTokens tokens) ≠ [] → rewritten = statementTokens tokens) ∧
      (unionIndices (statementTokens tokens) = [] → ∃ limitIndex limit,
        EndsInLimit rewritten parameters limitIndex limit ∧ limit ≤ maxRows + 1 ∧
        (Depth.after (rewritten.take limitIndex) = .zero ∨
          Depth.after (statementTokens tokens) ≠ .zero ∧
            limitIndex = (statementTokens tokens).length)) := by
  have hReads := reads_body hTokens hTab
  obtain ⟨probe, hProbe, -⟩ := bind_ok_iff.mp hBound
  have hProbe := orInvalid_ok_iff.mp hProbe
  rw [checkedUsize_ok hProbe] at hProbe
  by_cases hUnion : unionIndices (statementTokens tokens) = []
  · rcases bounded_without_union hBound hUnion with ⟨rfl, limitIndex, limit, hTrailing, hLimit, hSmall⟩ |
      ⟨-, ⟨rfl, hNone⟩ | ⟨limitIndex, requested, value, text, hTrailing, hLimit, hLarge, hToken, rfl⟩⟩
    · obtain ⟨hLength, hKeyword, hDepth⟩ := trailingLimitIndex_some hTrailing
      exact ⟨_, .asWritten, hReads, fun _ => rfl, fun _ => ⟨limitIndex, limit,
        ⟨hLength, hKeyword, hLimit⟩, Nat.le_succ_of_le hSmall, .inl hDepth⟩⟩
    · refine ⟨_, .appended, ?_, fun h => absurd hUnion h, fun _ => ⟨_, _, endsInLimit_appended hProbe,
        Nat.le_refl _, ?_⟩⟩
      · have hText : ("\nLIMIT " ++ toString (maxRows + 1)).toList =
            '\n' :: ("LIMIT ".toList ++ (toString (maxRows + 1)).toList) := by
          rw [String.toList_append]
          rfl
        rw [ReadBound.apply, hText]
        exact hReads.newline (reads_limit (maxRows + 1))
      · rw [List.take_left]
        exact (em (Depth.after (statementTokens tokens) = .zero)).imp_right fun hOpen => ⟨hOpen, rfl⟩
    · obtain ⟨token, hHere, hDrop, -⟩ := requestedLimit_token hLimit
      obtain rfl := Option.some.inj (hToken.symm.trans hHere)
      have hSplit : statementTokens tokens =
          (statementTokens tokens).take (limitIndex + 1) ++ [⟨.integer value, text⟩] := by
        rw [← hDrop, List.take_append_drop]
      have hValue : parseDigits value = requested := by
        unfold requestedLimit at hLimit
        rw [List.take_length, hDrop] at hLimit
        exact (checkedUsize_ok (orInvalid_ok_iff.mp hLimit)).symm
      obtain ⟨hLength, -⟩ := trailingLimitIndex_some hTrailing
      obtain ⟨before, found, back, rfl, hBefore, hFound, hBack⟩ := split_last hSplit
      have hPlace : before.length = limitIndex + 1 := by
        have hSame := congrArg List.length hBefore
        rw [List.length_map, List.length_take] at hSame
        omega
      rw [hSplit, ← hFound, ← hBefore] at hReads
      have hNew := reads_replaced hTokens (congrArg Lexeme.kind hFound) hBack hReads (maxRows + 1)
      rw [hPlace, hBefore] at hNew
      rw [hSplit] at hTrailing
      obtain ⟨hEnds, hDepth⟩ := endsInLimit_replaced parameters hTrailing hProbe
      exact ⟨_, .replaced hSplit (hValue ▸ hLarge), hNew, fun h => absurd hUnion h, fun _ =>
        ⟨limitIndex, maxRows + 1, hEnds, Nat.le_refl _, .inl hDepth⟩⟩
  · obtain ⟨rfl, -⟩ := bounded_of_union hBound hUnion
    exact ⟨_, .asWritten, hReads, fun _ => rfl, fun h => absurd h hUnion⟩

theorem token_in_place {text : List Char} (h : lexQuery text = .ok tokens) :
    ∀ token ∈ tokens, ∃ pre post, text = pre ++ (token.text ++ post) ∧
      token.start = utf8Length pre := by
  intro token hMem
  obtain ⟨front, back, rfl⟩ := List.append_of_mem hMem
  obtain ⟨_, pre, post, _, hText, hStart, -⟩ := lexFrom_at h
  exact ⟨pre, post, hText, by rw [hStart, Nat.zero_add]⟩

variable (statement parameters maxRows)

/-- Every text is read to an end, in tokens that stand on whole characters. And a query that is
admitted, with no control character as a token, is read as before but for its limit: it ends
in one of at most a row more than asked for, outside of all brackets that the query itself
closes, or the branches of its `UNION` end in limits that sum up to the rows asked for. -/
theorem queries_are_rewritten_in_their_limit :
    (∀ text : List Char, (∀ turns, text.length ≤ turns → lexFrom turns 0 text = lexQuery text) ∧
      ∀ tokens, lexQuery text = .ok tokens → ∀ token ∈ tokens, ∃ pre post,
        text = pre ++ (token.text ++ post) ∧ token.start = utf8Length pre) ∧
    ∀ maxBytes admitted, admitReadOnlyQuery statement parameters maxRows maxBytes = .ok admitted →
      (∀ tokens, lexQuery statement = .ok tokens → ∀ token ∈ tokens, ∀ c, token.kind = .symbol c →
        32 ≤ c.toNat) →
      ∃ tokens found, lexQuery statement = .ok tokens ∧ lexQuery admitted.statement = .ok found ∧
        let original := statementTokens tokens
        let rewritten := found.map (·.toLexeme)
        RewrittenAs original maxRows rewritten ∧
        (unionIndices original = [] → ∃ limitIndex limit,
          EndsInLimit rewritten parameters limitIndex limit ∧ limit ≤ maxRows + 1 ∧
          (Depth.after (rewritten.take limitIndex) = .zero ∨
            Depth.after original ≠ .zero ∧ limitIndex = original.length)) ∧
        (unionIndices original ≠ [] → ∃ limits, List.Forall₂ (EndsBranch rewritten parameters)
          (branchesOf rewritten 0 (unionIndices rewritten ++ [rewritten.length])) limits ∧
          limits.sum ≤ maxRows) := by
  refine ⟨fun text => ⟨fun turns hTurns => lexFrom_enough hTurns, fun tokens h => token_in_place h⟩, ?_⟩
  intro maxBytes admitted h hControl
  obtain ⟨tokens, bound, _, hTokens, -, -, hBound, hStatement⟩ := passed_of_admitted h
  have hTab : ∀ token ∈ tokens, token.kind ≠ .symbol '\x0b' := fun token hToken hKind =>
    absurd (hControl tokens hTokens token hToken _ hKind) (by decide)
  obtain ⟨rewritten, hRewritten, hReads, hSame, hLimit⟩ := rewritten_tokens hTokens hTab hBound
  rw [← hStatement] at hReads
  obtain ⟨found, hFound, rfl⟩ := lexQuery_iff.mpr hReads
  refine ⟨tokens, found, hTokens, hFound, hRewritten, hLimit, fun hUnion => ?_⟩
  obtain ⟨-, total, hTotal, hSum⟩ := bounded_of_union hBound hUnion
  obtain ⟨limits, hLimits, rfl⟩ := totalLimit_ok hSum
  rw [hSame hUnion]
  exact ⟨limits, hLimits, by rwa [Nat.zero_add] at hTotal⟩

end Rewritten

namespace Bracketed

attribute [local instance] tables

def opened : List Char := "RETURN (1".toList

/-- What is returned for at most ten rows, and where its last limit outside brackets stands. -/
def limitOf (statement : List Char) : Option (List Char × Bool × Option Nat) := do
  let admitted ← (admitReadOnlyQuery statement [] 10 4096).toOption
  let tokens ← (lexQuery admitted.statement).toOption
  let lexemes := tokens.map (·.toLexeme)
  pure (admitted.statement, unionIndices lexemes = [], trailingLimitIndex lexemes 0 lexemes.length)

def isPrinted (token : QueryToken) : Bool :=
  match token.kind with
  | .symbol c => decide (32 ≤ c.toNat)
  | _ => true

theorem no_control {tokens : List QueryToken} (h : tokens.all isPrinted = true) :
    ∀ token ∈ tokens, ∀ c, token.kind = .symbol c → 32 ≤ c.toNat := by
  intro token hToken c hKind
  have hOne := List.all_eq_true.mp h token hToken
  rw [isPrinted, hKind] at hOne
  exact of_decide_eq_true hOne

/-- The limit is put into the open bracket. -/
theorem open_bracket_takes_limit : (∀ token ∈ (lexQuery opened).toOption.getD [], ∀ c,
      token.kind = .symbol c → 32 ≤ c.toNat) ∧
    limitOf opened = some (opened ++ "\nLIMIT 11".toList, true, none) := by
  have hKinds : ((lexQuery opened).toOption.getD []).all isPrinted = true := by decide +kernel
  exact ⟨no_control hKinds, by decide +kernel⟩

/-- A query without a limit is read as before, with a limit behind it. -/
theorem plain_is_rewritten : ∃ admitted, admitReadOnlyQuery plain [] 10 4096 = .ok admitted ∧
    ∃ tokens found, lexQuery plain = .ok tokens ∧ lexQuery admitted.statement = .ok found ∧
      RewrittenAs (statementTokens tokens) 10 (found.map (·.toLexeme)) := by
  have hPlain : (admitReadOnlyQuery plain [] 10 4096).isOk = true := by decide +kernel
  have hKinds : ((lexQuery plain).toOption.getD []).all isPrinted = true := by decide +kernel
  cases hAdmitted : admitReadOnlyQuery plain [] 10 4096 with
  | error error =>
    rw [hAdmitted] at hPlain
    cases hPlain
  | ok admitted =>
    obtain ⟨tokens, found, hTokens, hFound, hRewritten, -⟩ :=
      (queries_are_rewritten_in_their_limit plain [] 10).2 4096 admitted hAdmitted (by
        intro tokens hTokens
        rw [hTokens] at hKinds
        exact no_control hKinds)
    exact ⟨admitted, rfl, tokens, found, hTokens, hFound, hRewritten⟩

end Bracketed

end Rhiza.Graph
