import Rhiza.Library.Interval
import Rhiza.Quepaxa.Proposal

/-! # The interval-summary register of a recorder

`IsrState::record` is the only transition of the register. `Summarizes` relates
a register to the ledger of everything recorded so far: the register is a
summary of its current step and of the one just before it.
-/

namespace Rhiza.Quepaxa

open Core Library

structure IsrState where
  step : Nat
  firstCurrent : Option Proposal
  aggregateCurrent : Option Proposal
  aggregatePrior : Option Proposal
  deriving DecidableEq

structure IsrReply where
  step : Nat
  firstCurrent : Option Proposal
  aggregatePrior : Option Proposal
  deriving DecidableEq

namespace IsrState

def empty : IsrState := ⟨0, none, none, none⟩

def reply (isr : IsrState) : IsrReply := ⟨isr.step, isr.firstCurrent, isr.aggregatePrior⟩

/-- `Option<&Proposal> <`, where an absent proposal is below every other. -/
def exceeds (current : Option Proposal) (proposal : Proposal) : Bool :=
  match current with
  | none => true
  | some best => Proposal.cmp best proposal == .lt

/-- The register after `IsrState::record`; a stale input leaves it unchanged. -/
def next (isr : IsrState) (step : Nat) (proposal : Proposal) : IsrState :=
  if step = isr.step then
    { isr with
      firstCurrent := isr.firstCurrent.orElse fun _ => some proposal
      aggregateCurrent :=
        if exceeds isr.aggregateCurrent proposal then some proposal else isr.aggregateCurrent }
  else if isr.step < step then
    -- `saturating_add` only differs from `+` where no larger step exists
    { step := step
      firstCurrent := some proposal
      aggregateCurrent := some proposal
      aggregatePrior := if step = isr.step + 1 then isr.aggregateCurrent else none }
  else isr

def record (isr : IsrState) (step : Nat) (proposal : Proposal) : IsrState × IsrReply :=
  let next := isr.next step proposal
  (next, next.reply)

theorem next_of_stale {isr : IsrState} {step : Nat} (h : step < isr.step) (proposal : Proposal) :
    isr.next step proposal = isr := by
  unfold next
  rw [if_neg (by omega), if_neg (by omega)]

theorem step_le_next (isr : IsrState) (step : Nat) (proposal : Proposal) :
    isr.step ≤ (isr.next step proposal).step ∧ step ≤ (isr.next step proposal).step := by
  unfold next
  split
  · rename_i h
    exact ⟨le_rfl, h.le⟩
  · split
    · rename_i h
      exact ⟨h.le, le_rfl⟩
    · rename_i h
      exact ⟨le_rfl, by omega⟩

theorem step_next_of_le {isr : IsrState} {step : Nat} (proposal : Proposal)
    (h : isr.step ≤ step) : (isr.next step proposal).step = step := by
  unfold next
  split
  · rename_i hEq
    exact hEq.symm
  · rw [if_pos (by omega)]

end IsrState

structure Summarizes (L : Ledger NodeId Proposal) (k : NodeId) (isr : IsrState) : Prop where
  step_eq : L.step k = isr.step
  first : isr.firstCurrent = L.first k isr.step
  current : Ledger.Greatest Proposal.cmp (L.recorded k isr.step) isr.aggregateCurrent
  prior : ∀ s, s + 1 = isr.step → Ledger.Greatest Proposal.cmp (L.recorded k s) isr.aggregatePrior
  clear : L.Clear k
  present : isr.step ≠ 0 → isr.firstCurrent.isSome

structure Seen (L : Ledger NodeId Proposal) (k : NodeId) (isr : IsrState) : Prop where
  step_le : isr.step ≤ L.step k
  first : ∀ p, isr.firstCurrent = some p → L.first k isr.step = some p
  current : ∀ p, isr.aggregateCurrent = some p → p ∈ L.recorded k isr.step
  prior : ∀ s, s + 1 = isr.step → Ledger.Greatest Proposal.cmp (L.recorded k s) isr.aggregatePrior
  present : isr.step ≠ 0 → isr.firstCurrent.isSome

theorem Seen.mono {L L' : Ledger NodeId Proposal} (h : L.Extends L') {k : NodeId} {isr : IsrState}
    (hSeen : Seen L k isr) : Seen L' k isr where
  step_le := hSeen.step_le.trans (h.step_le k)
  first p hp := h.first_eq (hSeen.first p hp)
  current p hp := h.mem (hSeen.current p hp)
  prior s hs := by
    rw [h.closed k s (by have := hSeen.step_le; omega)]
    exact hSeen.prior s hs
  present := hSeen.present

theorem Summarizes.seen {L : Ledger NodeId Proposal} {k : NodeId} {isr : IsrState}
    (h : Summarizes L k isr) : Seen L k isr where
  step_le := h.step_eq.ge
  first p hp := h.first ▸ hp
  current p hp := by
    have hGreatest := h.current
    rw [hp] at hGreatest
    exact hGreatest.1
  prior := h.prior
  present := h.present

def emptyLedger : Ledger NodeId Proposal := ⟨fun _ => 0, fun _ _ => []⟩

theorem Summarizes.empty (k : NodeId) : Summarizes emptyLedger k IsrState.empty where
  step_eq := rfl
  first := rfl
  current := rfl
  prior s h := by cases h
  clear _ _ := rfl
  present h := absurd rfl h

theorem greatest_append {ps : List Proposal} {current : Option Proposal} {p : Proposal}
    (h : Ledger.Greatest Proposal.cmp ps current) :
    Ledger.Greatest Proposal.cmp (ps ++ [p])
      (if IsrState.exceeds current p then some p else current) := by
  cases current with
  | none =>
    obtain rfl : ps = [] := h
    exact ⟨List.mem_singleton_self p, by simp⟩
  | some best =>
    obtain ⟨hMem, hTop⟩ := h
    by_cases hLt : Proposal.cmp best p = .lt
    · have hLe : (Proposal.cmp best p).isLE := by rw [hLt]; rfl
      simp only [IsrState.exceeds, hLt, beq_self_eq_true, if_true]
      refine ⟨by simp, ?_⟩
      intro q hq
      rcases List.mem_append.mp hq with hq | hq
      · exact Proposal.cmp_trans (hTop q hq) hLe
      · rw [List.mem_singleton.mp hq, Proposal.cmp_self]
        rfl
    · simp only [IsrState.exceeds, beq_iff_eq, hLt, if_false]
      refine ⟨List.mem_append_left _ hMem, ?_⟩
      intro q hq
      rcases List.mem_append.mp hq with hq | hq
      · exact hTop q hq
      · rw [List.mem_singleton.mp hq, Proposal.cmp_swap]
        revert hLt
        cases Proposal.cmp best p <;> simp

theorem Summarizes.record {L : Ledger NodeId Proposal} {k : NodeId} {isr : IsrState}
    (h : Summarizes L k isr) (step : Nat) (proposal : Proposal) :
    Summarizes (L.record k step proposal) k (isr.next step proposal) := by
  rcases Nat.lt_trichotomy step isr.step with hlt | heq | hgt
  · rw [IsrState.next_of_stale hlt, Ledger.record, if_pos (by rw [h.step_eq]; exact hlt)]
    exact h
  · have hClear := h.clear.record k step proposal
    have hNot : ¬ step < L.step k := by rw [h.step_eq]; omega
    unfold IsrState.next
    rw [if_pos heq]
    subst heq
    refine ⟨?_, ?_, ?_, ?_, hClear, ?_⟩
    rotate_right
    · intro _
      cases isr.firstCurrent <;> rfl
    · simp [Ledger.record, hNot]
    · simp only [Ledger.first, Ledger.record, hNot, if_false, and_self, if_true, List.head?_append]
      rw [h.first, Ledger.first]
      cases (L.recorded k isr.step).head? <;> rfl
    · simpa [Ledger.record, hNot] using greatest_append h.current
    · intro s hs
      have hne : s ≠ isr.step := by simp only at hs; omega
      simpa [Ledger.record, hNot, hne] using h.prior s hs
  · have hClear := h.clear.record k step proposal
    have hNot : ¬ step < L.step k := by rw [h.step_eq]; omega
    have hNone : L.recorded k step = [] := h.clear step (by rw [h.step_eq]; exact hgt)
    unfold IsrState.next
    rw [if_neg (by omega), if_pos hgt]
    refine ⟨?_, ?_, ?_, ?_, hClear, fun _ => rfl⟩
    · simp [Ledger.record, hNot]
    · simp [Ledger.first, Ledger.record, hNot, hNone]
    · refine ⟨by simp [Ledger.record, hNot, hNone], ?_⟩
      intro q hq
      rcases Ledger.mem_record hq with hq | ⟨-, -, rfl⟩
      · rw [hNone] at hq
        cases hq
      · rw [Proposal.cmp_self]
        rfl
    · intro s hs
      have hne : s ≠ step := by simp only at hs; omega
      have hRecorded : (L.record k step proposal).recorded k s = L.recorded k s := by
        simp [Ledger.record, hNot, hne]
      rw [hRecorded]
      simp only at hs ⊢
      by_cases hNext : step = isr.step + 1
      · rw [if_pos hNext, show s = isr.step by omega]
        exact h.current
      -- the register skipped step `s`, so nothing was recorded there
      · rw [if_neg hNext]
        exact h.clear s (by rw [h.step_eq]; omega)

theorem Summarizes.record_other {L : Ledger NodeId Proposal} {j k : NodeId} {isr : IsrState}
    (h : Summarizes L j isr) (hjk : j ≠ k) (step : Nat) (proposal : Proposal) :
    Summarizes (L.record k step proposal) j isr := by
  have hStep : (L.record k step proposal).step j = L.step j := by
    unfold Ledger.record
    split <;> simp [hjk]
  have hRecorded (s : Nat) : (L.record k step proposal).recorded j s = L.recorded j s := by
    unfold Ledger.record
    split <;> simp [hjk]
  refine ⟨hStep.trans h.step_eq, ?_, ?_, ?_, h.clear.record k step proposal, h.present⟩
  · rw [Ledger.first, hRecorded]
    exact h.first
  · rw [hRecorded]
    exact h.current
  · intro s hs
    rw [hRecorded]
    exact h.prior s hs

theorem mem_recorded_of_next {L : Ledger NodeId Proposal} {k : NodeId} {isr : IsrState}
    (h : Summarizes L k isr) {step : Nat} {proposal : Proposal}
    (hStep : (isr.next step proposal).step = step) :
    proposal ∈ (L.record k step proposal).recorded k step := by
  have hNot : ¬ step < L.step k := by
    rw [h.step_eq]
    have := (isr.step_le_next step proposal).1
    omega
  simp [Ledger.record, hNot]

end Rhiza.Quepaxa
