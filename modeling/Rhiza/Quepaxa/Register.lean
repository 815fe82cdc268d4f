import Mathlib.Data.List.TakeWhile
import Rhiza.Quepaxa.Isr

/-! # What the interval-summary register computes

The register forgets everything but its current step and the one before it. This
module says what it holds after any sequence of calls, in terms of the calls.
-/

namespace Rhiza.Quepaxa

open Core Library

abbrev RecordCall := Nat × Proposal

def registerAfter (calls : List RecordCall) : IsrState :=
  calls.foldl (fun isr call => (isr.record call.1 call.2).1) .empty

def topStep (calls : List RecordCall) : Nat := calls.foldl (fun top call => max top call.1) 0

def offeredAt (s : Nat) (calls : List RecordCall) : List Proposal :=
  (calls.filter (·.1 = s)).map (·.2)

def approach (calls : List RecordCall) : List RecordCall := calls.takeWhile (·.1 < topStep calls)

@[simp] theorem topStep_append_singleton (calls : List RecordCall) (call : RecordCall) :
    topStep (calls ++ [call]) = max (topStep calls) call.1 := by
  rw [topStep, List.foldl_append]
  rfl

@[simp] theorem registerAfter_append_singleton (calls : List RecordCall) (call : RecordCall) :
    registerAfter (calls ++ [call]) = (registerAfter calls).next call.1 call.2 := by
  rw [registerAfter, List.foldl_append]
  rfl

theorem offeredAt_append (s : Nat) (calls calls' : List RecordCall) :
    offeredAt s (calls ++ calls') = offeredAt s calls ++ offeredAt s calls' := by
  rw [offeredAt, List.filter_append, List.map_append]
  rfl

theorem mem_offeredAt {s : Nat} {calls : List RecordCall} {p : Proposal} :
    p ∈ offeredAt s calls ↔ (s, p) ∈ calls := by
  simp only [offeredAt, List.mem_map, List.mem_filter, decide_eq_true_eq]
  constructor
  · rintro ⟨⟨s', p'⟩, ⟨hMem, rfl⟩, rfl⟩
    exact hMem
  · intro hMem
    exact ⟨(s, p), ⟨hMem, rfl⟩, rfl⟩

theorem le_topStep {calls : List RecordCall} {call : RecordCall} (h : call ∈ calls) :
    call.1 ≤ topStep calls := by
  induction calls using List.reverseRecOn with
  | nil => cases h
  | append_singleton calls last ih =>
    rw [topStep_append_singleton]
    rcases List.mem_append.mp h with h | h
    · exact Nat.le_trans (ih h) (Nat.le_max_left _ _)
    · rw [List.mem_singleton.mp h]
      exact Nat.le_max_right _ _

theorem topStep_attained {calls : List RecordCall} (h : topStep calls ≠ 0) :
    ∃ call ∈ calls, call.1 = topStep calls := by
  induction calls using List.reverseRecOn with
  | nil => exact absurd rfl h
  | append_singleton calls last ih =>
    rw [topStep_append_singleton] at h ⊢
    rcases Nat.le_total (topStep calls) last.1 with hLast | hLast
    · exact ⟨last, List.mem_append_right _ (List.mem_singleton_self _), (Nat.max_eq_right hLast).symm⟩
    · rw [Nat.max_eq_left hLast] at h ⊢
      obtain ⟨call, hCall, hTop⟩ := ih h
      exact ⟨call, List.mem_append_left _ hCall, hTop⟩

theorem offeredAt_of_topStep_lt {s : Nat} {calls : List RecordCall} (h : topStep calls < s) :
    offeredAt s calls = [] := by
  refine List.eq_nil_iff_forall_not_mem.mpr fun p hp => ?_
  exact Nat.not_lt.mpr (le_topStep (mem_offeredAt.mp hp)) h

theorem takeWhile_append_singleton_of_not {α : Type} {p : α → Bool} {items : List α} {item : α}
    (h : p item = false) : (items ++ [item]).takeWhile p = items.takeWhile p := by
  rw [List.takeWhile_append]
  split
  · rename_i hAll
    rw [List.takeWhile_cons, h, if_neg (by decide), List.append_nil,
      List.takeWhile_eq_self_iff.mpr fun x hx => ?_]
    exact List.takeWhile_eq_self_iff.mp ((List.takeWhile_prefix p).eq_of_length hAll) x hx
  · rfl

theorem takeWhile_append_of_exists {α : Type} {p : α → Bool} {items items' : List α} {item : α}
    (hMem : item ∈ items) (h : p item = false) :
    (items ++ items').takeWhile p = items.takeWhile p := by
  rw [List.takeWhile_append, if_neg]
  intro hAll
  have hEvery := List.takeWhile_eq_self_iff.mp ((List.takeWhile_prefix p).eq_of_length hAll)
  rw [hEvery item hMem] at h
  cases h

structure Meaning (calls : List RecordCall) (isr : IsrState) : Prop where
  step_eq : isr.step = topStep calls
  first : isr.firstCurrent = (offeredAt (topStep calls) calls).head?
  current : Ledger.Greatest Proposal.cmp (offeredAt (topStep calls) calls) isr.aggregateCurrent
  prior : if topStep (approach calls) + 1 = topStep calls
    then Ledger.Greatest Proposal.cmp (offeredAt (topStep calls - 1) (approach calls)) isr.aggregatePrior
    else isr.aggregatePrior = none

theorem meaning_registerAfter (calls : List RecordCall) : Meaning calls (registerAfter calls) := by
  induction calls using List.reverseRecOn with
  | nil => exact ⟨rfl, rfl, rfl, by simp [approach, topStep, registerAfter, IsrState.empty]⟩
  | append_singleton calls call ih =>
    obtain ⟨s, p⟩ := call
    have hStep := ih.step_eq
    rw [registerAfter_append_singleton]
    rcases Nat.lt_trichotomy s (topStep calls) with hLess | hEqual | hMore
    · -- a stale call changes nothing
      have hTop : topStep (calls ++ [(s, p)]) = topStep calls := by
        rw [topStep_append_singleton]
        exact Nat.max_eq_left (Nat.le_of_lt hLess)
      have hOffered : offeredAt (topStep calls) (calls ++ [(s, p)]) = offeredAt (topStep calls) calls := by
        simp [offeredAt, Nat.ne_of_lt hLess]
      have hNonzero : topStep calls ≠ 0 := Nat.ne_of_gt (Nat.zero_lt_of_lt hLess)
      obtain ⟨last, hLast, hAttained⟩ := topStep_attained hNonzero
      have hApproach : approach (calls ++ [(s, p)]) = approach calls := by
        rw [approach, hTop]
        exact takeWhile_append_of_exists hLast (by simp [hAttained])
      rw [IsrState.next_of_stale (by rw [hStep]; exact hLess)]
      exact ⟨by rw [hTop, hStep], by rw [hTop, hOffered]; exact ih.first,
        by rw [hTop, hOffered]; exact ih.current, by rw [hApproach, hTop]; exact ih.prior⟩
    · subst hEqual
      have hTop : topStep (calls ++ [(topStep calls, p)]) = topStep calls := by
        rw [topStep_append_singleton]
        exact Nat.max_self _
      have hOffered : offeredAt (topStep calls) (calls ++ [(topStep calls, p)]) =
          offeredAt (topStep calls) calls ++ [p] := by
        simp [offeredAt]
      have hApproach : approach (calls ++ [(topStep calls, p)]) = approach calls := by
        rw [approach, hTop]
        exact takeWhile_append_singleton_of_not (by simp)
      unfold IsrState.next
      rw [if_pos hStep.symm]
      refine ⟨by rw [hTop]; exact hStep, ?_, ?_, by rw [hApproach, hTop]; exact ih.prior⟩
      · rw [hTop, hOffered, List.head?_append, ← ih.first]
        cases (registerAfter calls).firstCurrent <;> rfl
      · rw [hTop, hOffered]
        exact greatest_append ih.current
    · have hTop : topStep (calls ++ [(s, p)]) = s := by
        rw [topStep_append_singleton]
        exact Nat.max_eq_right (Nat.le_of_lt hMore)
      have hOffered : offeredAt s (calls ++ [(s, p)]) = [p] := by
        rw [offeredAt_append, offeredAt_of_topStep_lt hMore]
        simp [offeredAt]
      have hApproach : approach (calls ++ [(s, p)]) = calls := by
        rw [approach, hTop, takeWhile_append_singleton_of_not (by simp)]
        refine List.takeWhile_eq_self_iff.mpr fun call hCall => ?_
        exact decide_eq_true (Nat.lt_of_le_of_lt (le_topStep hCall) hMore)
      unfold IsrState.next
      rw [if_neg (by omega), if_pos (by omega)]
      refine ⟨hTop.symm, by rw [hTop, hOffered]; rfl, ?_, ?_⟩
      · rw [hTop, hOffered]
        refine ⟨List.mem_singleton_self p, fun q hq => ?_⟩
        rw [List.mem_singleton.mp hq, Proposal.cmp_self]
        rfl
      · rw [hApproach, hTop]
        by_cases hNext : topStep calls + 1 = s
        · have hBefore : s - 1 = topStep calls := by omega
          rw [if_pos hNext, hStep, if_pos hNext.symm, hBefore]
          exact ih.current
        · rw [if_neg hNext, hStep, if_neg (by omega)]

/-- Two sequences that differ by the order of two calls at one step or by a call made
again, with no call at a larger step in between. -/
inductive Exchanged : List RecordCall → List RecordCall → Prop
  | swapped {pre mid post : List RecordCall} {s : Nat} {p q : Proposal}
      (hMid : ∀ call ∈ mid, call.1 ≤ s) :
      Exchanged (pre ++ ((s, p) :: mid ++ (s, q) :: post)) (pre ++ ((s, q) :: mid ++ (s, p) :: post))
  | repeated {pre mid post : List RecordCall} {s : Nat} {p : Proposal}
      (hMid : ∀ call ∈ mid, call.1 ≤ s) :
      Exchanged (pre ++ ((s, p) :: mid ++ post)) (pre ++ ((s, p) :: mid ++ (s, p) :: post))

def SameRank : Option Proposal → Option Proposal → Prop
  | none, none => True
  | some p, some q => Proposal.cmp p q = .eq
  | _, _ => False

theorem sameRank_of_greatest {ps qs : List Proposal} {a b : Option Proposal}
    (ha : Ledger.Greatest Proposal.cmp ps a) (hb : Ledger.Greatest Proposal.cmp qs b)
    (h : ∀ p, p ∈ ps ↔ p ∈ qs) : SameRank a b := by
  cases a with
  | none =>
    obtain rfl : ps = [] := ha
    cases b with
    | none => trivial
    | some q => exact absurd ((h q).mpr hb.1) List.not_mem_nil
  | some p =>
    cases b with
    | none =>
      obtain rfl : qs = [] := hb
      exact absurd ((h p).mp ha.1) List.not_mem_nil
    | some q =>
      have hLe := hb.2 p ((h p).mp ha.1)
      have hGe := ha.2 q ((h q).mpr hb.1)
      exact @Std.OrientedCmp.isLE_antisymm _ Proposal.cmp _ p q hLe hGe

theorem SameRank.eq {a b : Option Proposal} (h : SameRank a b)
    (hValued : ∀ p, a = some p → p.isNil = false) : a = b := by
  cases a with
  | none =>
    cases b with
    | none => rfl
    | some q => exact h.elim
  | some p =>
    cases b with
    | none => exact h.elim
    | some q =>
      have hp := hValued p rfl
      have hEq : Proposal.cmp p q = .eq := h
      unfold Proposal.cmp at hEq
      cases hq : q.isNil with
      | true => simp only [hp, hq] at hEq; cases hEq
      | false =>
        simp only [hp, hq] at hEq
        rw [Std.LawfulEqCmp.eq_of_compare hEq]

theorem topStep_congr {calls calls' : List RecordCall} (h : ∀ call, call ∈ calls ↔ call ∈ calls') :
    topStep calls = topStep calls' := by
  have hLe : ∀ {a b : List RecordCall}, (∀ call ∈ a, call ∈ b) → topStep a ≤ topStep b := by
    intro a b hMem
    by_cases hZero : topStep a = 0
    · omega
    · obtain ⟨call, hCall, hTop⟩ := topStep_attained hZero
      rw [← hTop]
      exact le_topStep (hMem call hCall)
  exact Nat.le_antisymm (hLe fun call => (h call).mp) (hLe fun call => (h call).mpr)

theorem Exchanged.mem_iff {calls calls' : List RecordCall} (h : Exchanged calls calls')
    (call : RecordCall) : call ∈ calls ↔ call ∈ calls' := by
  cases h with
  | swapped hMid => simp only [List.mem_append, List.mem_cons]; tauto
  | repeated hMid => simp only [List.mem_append, List.mem_cons]; tauto

theorem Exchanged.mem_takeWhile_iff {calls calls' : List RecordCall} (h : Exchanged calls calls')
    (top : Nat) (call : RecordCall) :
    call ∈ calls.takeWhile (·.1 < top) ↔ call ∈ calls'.takeWhile (·.1 < top) := by
  have hPre : ∀ {pre rest rest' : List RecordCall},
      (call ∈ rest.takeWhile (·.1 < top) ↔ call ∈ rest'.takeWhile (·.1 < top)) →
      (call ∈ (pre ++ rest).takeWhile (·.1 < top) ↔ call ∈ (pre ++ rest').takeWhile (·.1 < top)) := by
    intro pre rest rest' hRest
    by_cases hAll : ∀ c ∈ pre, decide (c.1 < top) = true
    · rw [List.takeWhile_append_of_pos hAll, List.takeWhile_append_of_pos hAll, List.mem_append,
        List.mem_append, hRest]
    · simp only [not_forall] at hAll
      obtain ⟨c, hc, hNot⟩ := hAll
      rw [takeWhile_append_of_exists hc (by simpa using hNot),
        takeWhile_append_of_exists hc (by simpa using hNot)]
  cases h with
  | @swapped pre mid post s p q hMid =>
    apply hPre
    by_cases hBelow : s < top
    · have hFirst : ∀ r, ∀ c ∈ (s, r) :: mid, decide (c.1 < top) = true := by
        intro r c hc
        rcases List.mem_cons.mp hc with rfl | hc
        · exact decide_eq_true hBelow
        · exact decide_eq_true (Nat.lt_of_le_of_lt (hMid c hc) hBelow)
      rw [List.takeWhile_append_of_pos (hFirst p), List.takeWhile_append_of_pos (hFirst q)]
      simp only [List.takeWhile_cons, hBelow, decide_true, if_true, List.mem_append, List.mem_cons]
      tauto
    · rw [List.cons_append, List.cons_append, List.takeWhile_cons_of_neg (by simpa using hBelow),
        List.takeWhile_cons_of_neg (by simpa using hBelow)]
  | @repeated pre mid post s p hMid =>
    apply hPre
    by_cases hBelow : s < top
    · have hFirst : ∀ c ∈ (s, p) :: mid, decide (c.1 < top) = true := by
        intro c hc
        rcases List.mem_cons.mp hc with rfl | hc
        · exact decide_eq_true hBelow
        · exact decide_eq_true (Nat.lt_of_le_of_lt (hMid c hc) hBelow)
      rw [List.takeWhile_append_of_pos hFirst, List.takeWhile_append_of_pos hFirst]
      simp only [List.takeWhile_cons, hBelow, decide_true, if_true, List.mem_append, List.mem_cons]
      tauto
    · rw [List.cons_append, List.cons_append, List.takeWhile_cons_of_neg (by simpa using hBelow),
        List.takeWhile_cons_of_neg (by simpa using hBelow)]

theorem registerAfter_exchanged {calls calls' : List RecordCall} (h : Exchanged calls calls') :
    (registerAfter calls).step = (registerAfter calls').step ∧
      SameRank (registerAfter calls).aggregateCurrent (registerAfter calls').aggregateCurrent ∧
      SameRank (registerAfter calls).aggregatePrior (registerAfter calls').aggregatePrior := by
  have hHere := meaning_registerAfter calls
  have hThere := meaning_registerAfter calls'
  have hTop := topStep_congr h.mem_iff
  have hApproach : ∀ call, call ∈ approach calls ↔ call ∈ approach calls' := by
    intro call
    rw [approach, approach, ← hTop]
    exact h.mem_takeWhile_iff _ call
  have hOffered : ∀ p, p ∈ offeredAt (topStep calls) calls ↔ p ∈ offeredAt (topStep calls) calls' :=
    fun p => by rw [mem_offeredAt, mem_offeredAt, h.mem_iff]
  have hBefore : ∀ p, p ∈ offeredAt (topStep calls - 1) (approach calls) ↔
      p ∈ offeredAt (topStep calls - 1) (approach calls') :=
    fun p => by rw [mem_offeredAt, mem_offeredAt, hApproach]
  have hCurrent := hThere.current
  have hPrior := hThere.prior
  rw [← hTop] at hCurrent hPrior
  refine ⟨by rw [hHere.step_eq, hThere.step_eq, hTop],
    sameRank_of_greatest hHere.current hCurrent hOffered, ?_⟩
  have hPrior' := hHere.prior
  rw [topStep_congr hApproach] at hPrior'
  split at hPrior
  · rename_i hNext
    rw [if_pos hNext] at hPrior'
    exact sameRank_of_greatest hPrior' hPrior hBefore
  · rename_i hNext
    rw [if_neg hNext] at hPrior'
    rw [hPrior, hPrior']
    trivial

theorem aggregates_mem {calls : List RecordCall} {isr : IsrState} (h : Meaning calls isr)
    {p : Proposal} (hp : isr.aggregateCurrent = some p ∨ isr.aggregatePrior = some p) :
    ∃ s, (s, p) ∈ calls := by
  rcases hp with hp | hp
  · have hCurrent := h.current
    rw [hp] at hCurrent
    exact ⟨_, mem_offeredAt.mp hCurrent.1⟩
  · have hPrior := h.prior
    rw [hp] at hPrior
    split at hPrior
    · exact ⟨_, List.takeWhile_subset _ (mem_offeredAt.mp hPrior.1)⟩
    · cases hPrior

/-- The register is a summary of the calls made, and only the first proposal of its step
depends on the order of calls at one step. -/
theorem register_summarizes_calls (calls : List RecordCall) :
    Meaning calls (registerAfter calls) ∧
      ∀ calls', Exchanged calls calls' →
        (registerAfter calls').step = (registerAfter calls).step ∧
        SameRank (registerAfter calls).aggregateCurrent (registerAfter calls').aggregateCurrent ∧
        SameRank (registerAfter calls).aggregatePrior (registerAfter calls').aggregatePrior ∧
        ((∀ call ∈ calls, call.2.isNil = false) →
          (registerAfter calls').aggregateCurrent = (registerAfter calls).aggregateCurrent ∧
          (registerAfter calls').aggregatePrior = (registerAfter calls).aggregatePrior) := by
  have hMeaning := meaning_registerAfter calls
  refine ⟨hMeaning, fun calls' h => ?_⟩
  obtain ⟨hStep, hCurrent, hPrior⟩ := registerAfter_exchanged h
  refine ⟨hStep.symm, hCurrent, hPrior, fun hValued => ⟨?_, ?_⟩⟩
  · refine (hCurrent.eq fun p hp => ?_).symm
    obtain ⟨s, hMem⟩ := aggregates_mem hMeaning (.inl hp)
    exact hValued _ hMem
  · refine (hPrior.eq fun p hp => ?_).symm
    obtain ⟨s, hMem⟩ := aggregates_mem hMeaning (.inr hp)
    exact hValued _ hMem

def nilProposal (proposerId : NodeId) : Proposal := ⟨.zero, proposerId, 1, none⟩

def valuedProposal (proposerId : NodeId) : Proposal :=
  ⟨.zero, proposerId, 1, some ⟨.zero, .zero, .zero⟩⟩

/-- The order of two nil proposals shows in the aggregate. The order of two calls at one
step shows in the aggregate of the step before when a later step came between them. -/
theorem order_of_calls_shows :
    (registerAfter [(4, nilProposal "a"), (4, nilProposal "b")]).aggregateCurrent ≠
        (registerAfter [(4, nilProposal "b"), (4, nilProposal "a")]).aggregateCurrent ∧
      (registerAfter [(4, valuedProposal "a"), (5, valuedProposal "c"), (4, valuedProposal "b")]).aggregatePrior ≠
        (registerAfter [(4, valuedProposal "b"), (5, valuedProposal "c"), (4, valuedProposal "a")]).aggregatePrior := by
  decide

end Rhiza.Quepaxa
