import Rhiza.Graph.Admission

/-! # The rows that a query is reserved for

The size of a result is estimated for a number of rows before the query runs, and the limit
that the query runs with is chosen apart from it. Where a `UNION` stands only in brackets, the
two differ.
-/

namespace Rhiza.Graph

open Core Library

def executedRows (tokens : List Lexeme) (parameters : Parameters) : ReadBound → Result Nat
  | .appended limit => .ok limit
  | .replaced _ limit => .ok limit
  | .asWritten =>
    if unionIndices tokens ≠ [] then
      totalLimit tokens parameters 0 0 (unionIndices tokens ++ [tokens.length])
    else
      match trailingLimitIndex tokens 0 tokens.length with
      | none => invalidCommand "no limit"
      | some limitIndex => requestedLimit tokens limitIndex tokens.length parameters

def hasSmallLimit (tokens : List Lexeme) (parameters : Parameters) (maxRows : Nat) : Prop :=
  ∃ limitIndex requested, trailingLimitIndex tokens 0 tokens.length = some limitIndex ∧
    requestedLimit tokens limitIndex tokens.length parameters = .ok requested ∧ requested ≤ maxRows

def hasNestedUnionOnly (tokens : List Lexeme) : Prop :=
  unionIndices tokens = [] ∧ ∃ index < tokens.length, unionClauseStartsAt tokens index = true

theorem any_union_iff {tokens : List Lexeme} :
    (List.range tokens.length).any (unionClauseStartsAt tokens) = true ↔
      ∃ index < tokens.length, unionClauseStartsAt tokens index = true := by
  simp only [List.any_eq_true, List.mem_range]

theorem any_union_of_top_level {tokens : List Lexeme} (h : unionIndices tokens ≠ []) :
    (List.range tokens.length).any (unionClauseStartsAt tokens) = true := by
  obtain ⟨index, hIndex⟩ := List.exists_mem_of_ne_nil _ h
  obtain ⟨hRange, hUnion⟩ := List.mem_filter.mp hIndex
  exact List.any_eq_true.mpr ⟨index, hRange, (of_decide_eq_true hUnion).2⟩

theorem orInvalid_ok_iff {α : Type} {message : String} {o : Option α} {a : α} :
    orInvalid message o = .ok a ↔ o = some a := elim_ok_iff

theorem checkedUsize_ok {n m : Nat} (h : checkedUsize n = some m) : m = n := by
  unfold checkedUsize at h
  split at h
  · exact (Option.some.inj h).symm
  · cases h

theorem requestedLimit_token {tokens : List Lexeme} {limitIndex requested : Nat}
    {parameters : Parameters}
    (h : requestedLimit tokens limitIndex tokens.length parameters = .ok requested) :
    ∃ token, tokens[limitIndex + 1]? = some token ∧ tokens.drop (limitIndex + 1) = [token] ∧
      ((∃ value, token.kind = .integer value) ∨ ∃ name, token.kind = .parameter name) := by
  unfold requestedLimit at h
  rw [List.take_length] at h
  have hAt (token : Lexeme) (hDrop : tokens.drop (limitIndex + 1) = [token]) :
      tokens[limitIndex + 1]? = some token := by
    rw [← List.head?_drop, hDrop]
    rfl
  split at h
  · rename_i value text hDrop
    exact ⟨_, hAt _ hDrop, hDrop, .inl ⟨value, rfl⟩⟩
  · rename_i name text hDrop
    exact ⟨_, hAt _ hDrop, hDrop, .inr ⟨name, rfl⟩⟩
  · cases h

section Bound

variable {tokens : List Lexeme} {parameters : Parameters} {maxRows rowBound : Nat} {bound : ReadBound}

theorem bounded_of_union (hBound : boundedReadStatement tokens parameters maxRows = .ok bound)
    (hUnion : unionIndices tokens ≠ []) :
    bound = .asWritten ∧ ∃ total ≤ maxRows,
      totalLimit tokens parameters 0 0 (unionIndices tokens ++ [tokens.length]) = .ok total := by
  obtain ⟨_, -, h⟩ := bind_ok_iff.mp hBound
  rw [if_pos hUnion] at h
  obtain ⟨total, hTotal, h⟩ := bind_ok_iff.mp h
  obtain ⟨hSmall, h⟩ := unit_bind_ok_iff.mp h
  exact ⟨(Except.ok.inj h).symm, total, ensure_ok_iff.mp hSmall, hTotal⟩

theorem bounded_without_union (hBound : boundedReadStatement tokens parameters maxRows = .ok bound)
    (hUnion : unionIndices tokens = []) :
    (bound = .asWritten ∧ hasSmallLimit tokens parameters maxRows) ∨
    (¬hasSmallLimit tokens parameters maxRows ∧
      (bound = .appended (maxRows + 1) ∧ trailingLimitIndex tokens 0 tokens.length = none ∨
        ∃ limitIndex requested value text,
          trailingLimitIndex tokens 0 tokens.length = some limitIndex ∧
          requestedLimit tokens limitIndex tokens.length parameters = .ok requested ∧
          maxRows < requested ∧ tokens[limitIndex + 1]? = some ⟨.integer value, text⟩ ∧
          bound = .replaced (limitIndex + 1) (maxRows + 1))) := by
  obtain ⟨limit, hLimit, h⟩ := bind_ok_iff.mp hBound
  obtain rfl := checkedUsize_ok (orInvalid_ok_iff.mp hLimit)
  rw [if_neg (not_not_intro hUnion)] at h
  cases hTrailing : trailingLimitIndex tokens 0 tokens.length with
  | none =>
    rw [hTrailing] at h
    refine .inr ⟨?_, .inl ⟨(Except.ok.inj h).symm, rfl⟩⟩
    rintro ⟨limitIndex, requested, hSome, -⟩
    exact absurd (hTrailing.symm.trans hSome) nofun
  | some limitIndex =>
    rw [hTrailing] at h
    obtain ⟨requested, hRequested, h⟩ := bind_ok_iff.mp h
    by_cases hSmall : requested ≤ maxRows
    · rw [if_pos hSmall] at h
      exact .inl ⟨(Except.ok.inj h).symm, limitIndex, requested, hTrailing, hRequested, hSmall⟩
    · rw [if_neg hSmall] at h
      refine .inr ⟨?_, .inr ?_⟩
      · rintro ⟨limitIndex', requested', hSome, hOk, hLe⟩
        obtain rfl := Option.some.inj (hTrailing.symm.trans hSome)
        obtain rfl := Except.ok.inj (hRequested.symm.trans hOk)
        exact hSmall hLe
      · obtain ⟨⟨kind, text⟩, hToken, -, hKind⟩ := requestedLimit_token hRequested
        dsimp only at hKind
        rcases hKind with ⟨value, rfl⟩ | ⟨name, rfl⟩
        · rw [hToken] at h
          exact ⟨limitIndex, requested, value, text, rfl, hRequested, Nat.lt_of_not_le hSmall, hToken,
            (Except.ok.inj h).symm⟩
        · rw [hToken] at h
          cases h

theorem executedRows_le_iff
    (hRows : staticExecutionRowBound tokens parameters maxRows = .ok rowBound)
    (hBound : boundedReadStatement tokens parameters maxRows = .ok bound) :
    ∃ rows, executedRows tokens parameters bound = .ok rows ∧
      (rows ≤ rowBound ↔ ¬(hasNestedUnionOnly tokens ∧ ¬hasSmallLimit tokens parameters maxRows)) := by
  obtain ⟨probe, hProbe, hRows⟩ := bind_ok_iff.mp hRows
  obtain rfl := checkedUsize_ok (orInvalid_ok_iff.mp hProbe)
  by_cases hUnion : unionIndices tokens = []
  · by_cases hAny : (List.range tokens.length).any (unionClauseStartsAt tokens) = true
    · -- the estimate takes a nested `UNION` for one whose branches are limited
      rw [if_pos hAny] at hRows
      obtain rfl := Except.ok.inj hRows
      have hNested : hasNestedUnionOnly tokens := ⟨hUnion, any_union_iff.mp hAny⟩
      rcases bounded_without_union hBound hUnion with ⟨rfl, hSmall⟩ | ⟨hLarge, hCase⟩
      · obtain ⟨limitIndex, requested, hTrailing, hRequested, hLe⟩ := hSmall
        refine ⟨requested, ?_, fun _ hBoth => hBoth.2 ⟨_, _, hTrailing, hRequested, hLe⟩, fun _ => hLe⟩
        simp only [executedRows, hUnion, ne_eq, not_true_eq_false, if_false, hTrailing, hRequested]
      · have hRows : executedRows tokens parameters bound = .ok (maxRows + 1) := by
          rcases hCase with ⟨rfl, -⟩ | ⟨_, _, _, _, -, -, -, -, rfl⟩ <;> rfl
        exact ⟨maxRows + 1, hRows, fun hLe => absurd hLe (Nat.not_succ_le_self _),
          fun hNot => absurd ⟨hNested, hLarge⟩ hNot⟩
    · rw [if_neg hAny] at hRows
      have hNot : ¬(hasNestedUnionOnly tokens ∧ ¬hasSmallLimit tokens parameters maxRows) :=
        fun hBoth => hAny (any_union_iff.mpr hBoth.1.2)
      suffices hSame : executedRows tokens parameters bound = .ok rowBound from
        ⟨rowBound, hSame, fun _ => hNot, fun _ => Nat.le_refl _⟩
      rcases bounded_without_union hBound hUnion with ⟨rfl, hSmall⟩ | ⟨hLarge, hCase⟩
      · obtain ⟨limitIndex, requested, hTrailing, hRequested, hLe⟩ := hSmall
        rw [hTrailing] at hRows
        obtain ⟨requested', hSame, hRows⟩ := bind_ok_iff.mp hRows
        obtain rfl := Except.ok.inj (hRequested.symm.trans hSame)
        rw [if_pos hLe] at hRows
        rw [← Except.ok.inj hRows]
        simp only [executedRows, hUnion, ne_eq, not_true_eq_false, if_false, hTrailing, hRequested]
      · rcases hCase with ⟨rfl, hNone⟩ |
          ⟨limitIndex, requested, _, _, hTrailing, hRequested, hOver, -, rfl⟩
        · rw [hNone] at hRows
          exact hRows
        · rw [hTrailing] at hRows
          obtain ⟨requested', hSame, hRows⟩ := bind_ok_iff.mp hRows
          obtain rfl := Except.ok.inj (hRequested.symm.trans hSame)
          rw [if_neg (Nat.not_le_of_lt hOver)] at hRows
          exact hRows
  · rw [if_pos (any_union_of_top_level hUnion)] at hRows
    obtain rfl := Except.ok.inj hRows
    obtain ⟨rfl, total, hLe, hTotal⟩ := bounded_of_union hBound hUnion
    exact ⟨total, (if_pos hUnion).trans hTotal, fun _ hBoth => hUnion hBoth.1.1, fun _ => hLe⟩

end Bound

section Admitted

variable [UnicodeTables] {statement : List Char} {parameters : Parameters} {maxRows maxBytes : Nat}
  {admitted : AdmittedQuery}

theorem passed_of_admitted
    (h : admitReadOnlyQuery statement parameters maxRows maxBytes = .ok admitted) :
    ∃ tokens bound rowBound, lexQuery statement = .ok tokens ∧
      staticExecutionRowBound (withoutSemicolon (tokens.map (·.toLexeme))) parameters maxRows =
        .ok rowBound ∧
      rejectUnboundedResultContainers (withoutSemicolon (tokens.map (·.toLexeme))) parameters
        maxBytes rowBound = .ok () ∧
      boundedReadStatement (withoutSemicolon (tokens.map (·.toLexeme))) parameters maxRows =
        .ok bound ∧
      admitted.statement =
        bound.apply (trimEnd (bytePrefix (bodyEnd statement tokens) statement)) tokens := by
  obtain ⟨-, h⟩ := unit_bind_ok_iff.mp h
  obtain ⟨-, h⟩ := unit_bind_ok_iff.mp h
  obtain ⟨tokens, hTokens, h⟩ := bind_ok_iff.mp h
  obtain ⟨bound, hAdmit, h⟩ := bind_ok_iff.mp h
  obtain ⟨-, hAdmit⟩ := unit_bind_ok_iff.mp hAdmit
  obtain ⟨-, hAdmit⟩ := unit_bind_ok_iff.mp hAdmit
  obtain ⟨-, hAdmit⟩ := unit_bind_ok_iff.mp hAdmit
  obtain ⟨-, hAdmit⟩ := unit_bind_ok_iff.mp hAdmit
  obtain ⟨rowBound, hRows, hAdmit⟩ := bind_ok_iff.mp hAdmit
  obtain ⟨hContainers, hBound⟩ := unit_bind_ok_iff.mp hAdmit
  refine ⟨tokens, bound, rowBound, hTokens, hRows, hContainers, hBound, ?_⟩
  rw [← Except.ok.inj h]

/-- The rows that an admitted statement may produce are covered by its estimate unless it has
a `UNION` in brackets only and no limit that is small enough. Where they are covered, each value
of a result is reserved for as many rows. -/
theorem estimate_covers_rows_iff
    (h : admitReadOnlyQuery statement parameters maxRows maxBytes = .ok admitted) :
    ∃ tokens bound rowBound rows, lexQuery statement = .ok tokens ∧
      admitted.statement =
        bound.apply (trimEnd (bytePrefix (bodyEnd statement tokens) statement)) tokens ∧
      let lexemes := withoutSemicolon (tokens.map (·.toLexeme))
      staticExecutionRowBound lexemes parameters maxRows = .ok rowBound ∧
      rejectUnboundedResultContainers lexemes parameters maxBytes rowBound = .ok () ∧
      boundedReadStatement lexemes parameters maxRows = .ok bound ∧
      executedRows lexemes parameters bound = .ok rows ∧
      (rows ≤ rowBound ↔
        ¬(hasNestedUnionOnly lexemes ∧ ¬hasSmallLimit lexemes parameters maxRows)) ∧
      (rows ≤ rowBound → ∀ index, isResultClauseAt lexemes index = true →
        rows ≤ resultExpansionMultiplier lexemes index rowBound) := by
  obtain ⟨tokens, bound, rowBound, hTokens, hRows, hContainers, hBound, hStatement⟩ :=
    passed_of_admitted h
  obtain ⟨rows, hExecuted, hIff⟩ := executedRows_le_iff hRows hBound
  refine ⟨tokens, bound, rowBound, rows, hTokens, hStatement, hRows, hContainers, hBound, hExecuted,
    hIff, fun hLe index hClause => ?_⟩
  rw [resultExpansionMultiplier, if_pos hClause]
  exact Nat.le_trans hLe (Nat.le_max_left _ _)

end Admitted

namespace Bracketed

@[reducible] def tables : UnicodeTables := ⟨fun _ => false, fun _ _ => rfl⟩

attribute [local instance] tables

def plain : List Char := "MATCH (n:Person) RETURN n.name".toList

def named : List Char :=
  "WITH true AS union RETURN (CASE WHEN union THEN 1 ELSE 2 END)".toList

def rowsOf (statement : List Char) : Option (Nat × Nat) := do
  let tokens ← (lexQuery statement).toOption
  let lexemes := withoutSemicolon (tokens.map (·.toLexeme))
  let rowBound ← (staticExecutionRowBound lexemes [] 10).toOption
  let bound ← (boundedReadStatement lexemes [] 10).toOption
  let rows ← (executedRows lexemes [] bound).toOption
  pure (rowBound, rows)

/-- Ten rows are reserved, and eleven may be produced. -/
theorem nested_union_is_underestimated :
    (admitReadOnlyQuery named [] 10 4096).toOption.map (·.statement) =
      some (named ++ "\nLIMIT 11".toList) ∧
    rowsOf named = some (10, 11) := by
  constructor <;> decide +kernel

/-- A statement without a `UNION` is estimated by its own limit. -/
theorem plain_is_covered : ∃ admitted, admitReadOnlyQuery plain [] 10 4096 = .ok admitted ∧
    ∃ tokens bound rowBound rows, lexQuery plain = .ok tokens ∧
      executedRows (withoutSemicolon (tokens.map (·.toLexeme))) [] bound = .ok rows ∧
      (rows ≤ rowBound ↔ ¬(hasNestedUnionOnly (withoutSemicolon (tokens.map (·.toLexeme))) ∧
        ¬hasSmallLimit (withoutSemicolon (tokens.map (·.toLexeme))) [] 10)) := by
  have hPlain : (admitReadOnlyQuery plain [] 10 4096).isOk = true := by decide +kernel
  cases hAdmitted : admitReadOnlyQuery plain [] 10 4096 with
  | error error =>
    rw [hAdmitted] at hPlain
    cases hPlain
  | ok admitted =>
    obtain ⟨tokens, bound, rowBound, rows, hTokens, -, -, -, -, hRows, hIff, -⟩ :=
      estimate_covers_rows_iff hAdmitted
    exact ⟨admitted, rfl, tokens, bound, rowBound, rows, hTokens, hRows, hIff⟩

end Bracketed

end Rhiza.Graph
