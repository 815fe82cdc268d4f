import Rhiza.Node.BarrierRounds

/-! # What barrier reads are answered

The rounds run one after the other, and whoever takes part in one is answered with what
its leader published. Nobody sleeps on a round that is complete, and as long as a caller
waits, some caller can go on or waits for the world outside.
-/

namespace Rhiza.Node

open Rhiza.Core Rhiza.Library
open Admin (OperationError Outcome)

variable {α : Type}

namespace BarrierSystem

variable {s : BarrierSystem α}

/-! ## Runs -/

def Reached (collectionWindow : Nat) (s : BarrierSystem α) : Prop :=
  Run step (fun _ _ => True) (initial α collectionWindow) s

theorem Reached.invariant {collectionWindow : Nat} (h : Reached collectionWindow s) :
    BarrierInvariant s :=
  Run.invariant (initial_invariant α collectionWindow)
    (fun _ _ _ hInv _ hStep => step_invariant hInv hStep) h

/-- In every reachable state: at most one round runs, a round that still collects is the
last one, whoever takes part in a round that was started joined before its start, a
leader that comes to close its round finds it collecting, and while nobody has cancelled
a round runs only after all earlier rounds are complete. -/
theorem rounds_run_in_turn {collectionWindow : Nat} (h : Reached collectionWindow s) :
    (∀ j k, s.rounds.phaseOf j = some .running → s.rounds.phaseOf k = some .running → j = k) ∧
    (∀ k, s.rounds.phaseOf k = some .collecting → k + 1 = s.rounds.made.length) ∧
    (∀ (i : Nat) (caller : BarrierCaller α), s.callers[i]? = some caller →
      ∃ round, s.rounds.made[caller.round]? = some round ∧
      (∀ t, round.startedAt = some t → caller.joinedAt ≤ t) ∧
      (caller.phase = .collecting ∨ caller.phase = .starting → round.phase = .collecting)) ∧
    (s.cancelled = false → ∀ j k, s.rounds.phaseOf k = some .running → j < k →
      ∃ result, s.rounds.phaseOf j = some (.complete result)) := by
  have hInv := h.invariant
  constructor
  · exact hInv.rounds.running_unique
  constructor
  · intro k hk
    obtain ⟨round, hMade, hPhase⟩ := phaseOf_eq_some.mp hk
    exact (hInv.rounds.superseded k round hMade hPhase).1
  constructor
  · intro i caller hCaller
    obtain ⟨round, hMade, hHere⟩ := (hInv.callers i caller hCaller).participates
    refine ⟨round, hMade, fun t ht => (hHere.before t ht).1, ?_⟩
    rintro (hPhase | hPhase)
    · obtain ⟨-, -, hLeads⟩ := leader_of_phase hInv hCaller hMade (by rw [hPhase]; exact id)
      rw [hPhase] at hLeads
      exact hLeads
    · obtain ⟨-, -, hLeads⟩ := leader_of_phase hInv hCaller hMade (by rw [hPhase]; exact id)
      rw [hPhase] at hLeads
      exact hLeads
  · intro hLive j k hk hj
    obtain ⟨round, hMade, hRunning⟩ := phaseOf_eq_some.mp hk
    obtain ⟨hLess, -⟩ := List.getElem?_eq_some_iff.mp hMade
    obtain ⟨i, caller, hCaller, hLeader, rfl⟩ := leader_exists hInv hLess
    have hHere := hInv.callers i caller hCaller
    obtain ⟨round', hMade', hParticipates⟩ := hHere.participates
    obtain rfl := Option.some.inj (hMade'.symm.trans hMade)
    have hLeads := hParticipates.leads hLeader
    have hPassed : caller.phase.passed = true := by
      rw [hRunning] at hLeads
      cases hPhase : caller.phase <;> rw [hPhase] at hLeads <;> first | rfl | cases hLeads
    obtain ⟨result, hResult⟩ :=
      Option.ne_none_iff_exists'.mp (hHere.passed hLive hLeader hPassed j hj)
    obtain ⟨found, hFound, hComplete⟩ := resultOf_eq_some.mp hResult
    exact ⟨result, phaseOf_eq_some.mpr ⟨found, hFound, hComplete⟩⟩

/-- A leader is answered with what it published for its round, and a follower with the
same or, after a cancellation, with the error of the shutdown. A round whose leader
panicked is complete as well. -/
theorem answers_agree {collectionWindow : Nat} (h : Reached collectionWindow s) {i : Nat}
    {caller : BarrierCaller α} (hCaller : s.callers[i]? = some caller) :
    (∀ result, caller.phase = .answered result →
      s.rounds.phaseOf caller.round = some (.complete result) ∨
      caller.leader = false ∧ s.cancelled = true ∧ result = .error barrierCancelled) ∧
    (caller.phase = .terminated →
      s.rounds.phaseOf caller.round = some (.complete (.error leaderTerminated))) := by
  have hInv := h.invariant
  obtain ⟨round, hMade, hHere⟩ := (hInv.callers i caller hCaller).participates
  have hPhaseOf : ∀ {phase}, round.phase = phase → s.rounds.phaseOf caller.round = some phase :=
    fun hPhase => phaseOf_eq_some.mpr ⟨round, hMade, hPhase⟩
  cases hLeader : caller.leader with
  | true =>
    have hLeads := hHere.leads hLeader
    constructor
    · intro result hPhase
      rw [hPhase] at hLeads
      exact .inl (hPhaseOf hLeads)
    · intro hPhase
      rw [hPhase] at hLeads
      exact hPhaseOf hLeads
  | false =>
    have hFollows := hHere.follows hLeader
    constructor
    · intro result hPhase
      rw [hPhase] at hFollows
      rcases hFollows with hComplete | ⟨hCancelled, hShutdown⟩
      · exact .inl (hPhaseOf hComplete)
      · exact .inr ⟨rfl, hCancelled, hShutdown⟩
    · intro hPhase
      rw [hPhase] at hFollows
      exact hFollows.elim

/-! ## Nobody is forgotten -/

end BarrierSystem

def BarrierPhase.returned : BarrierPhase α → Bool
  | .answered _ => true
  | .terminated => true
  | _ => false

namespace BarrierSystem

/-- A caller can go on, or it waits for its work, for someone else who holds the commit
lock, or for the end of its collection window. -/
inductive CanGoOn (s : BarrierSystem α) : Prop
  | proceeds (i : Nat) (s' : BarrierSystem α) (h : s.step (.proceed i) = some s')
  | works (i : Nat) (caller : BarrierCaller α) (h : s.callers[i]? = some caller)
      (hPhase : caller.phase = .working)
  | locked (h : s.commit = some .other)
  | collects (i : Nat) (caller : BarrierCaller α) (round : ReadBarrierRound α)
      (h : s.callers[i]? = some caller) (hPhase : caller.phase = .collecting)
      (hMade : s.rounds.made[caller.round]? = some round)
      (hDeadline : s.now < round.collectionDeadline)

theorem canGoOn_of_proceed {i : Nat} {caller : BarrierCaller α} {round : ReadBarrierRound α}
    (hCaller : s.callers[i]? = some caller) (hMade : s.rounds.made[caller.round]? = some round)
    (h : (s.proceed i caller round).isSome) : CanGoOn s := by
  obtain ⟨s', hs'⟩ := Option.isSome_iff_exists.mp h
  apply CanGoOn.proceeds i s'
  simp only [step, hCaller, Option.bind_some, hMade]
  exact hs'

theorem canGoOn_of_holder (hInv : BarrierInvariant s) {i : Nat} (h : s.commit = some (.caller i)) :
    CanGoOn s := by
  obtain ⟨caller, hCaller⟩ : ∃ caller, s.callers[i]? = some caller :=
    ⟨_, List.getElem?_eq_getElem (hInv.holder i h)⟩
  have hHere := hInv.callers i caller hCaller
  obtain ⟨round, hMade, -⟩ := hHere.participates
  have hHolds := hHere.holder.mpr h
  cases hPhase : caller.phase <;> rw [hPhase] at hHolds <;> cases hHolds
  · apply canGoOn_of_proceed hCaller hMade
    simp [proceed, hPhase]
  · exact .works i _ hCaller hPhase

theorem canGoOn_of_round (hInv : BarrierInvariant s) (k : Nat) (hk : k < s.rounds.made.length)
    (hOpen : s.rounds.resultOf k = none) : CanGoOn s := by
  induction k using Nat.strongRecOn with
  | _ k ih =>
    obtain ⟨i, caller, hCaller, hLeader, rfl⟩ := leader_exists hInv hk
    have hHere := hInv.callers i caller hCaller
    obtain ⟨round, hMade, hParticipates⟩ := hHere.participates
    have hLeads := hParticipates.leads hLeader
    have hComplete : ∀ result, round.phase ≠ .complete result := by
      intro result hResult
      rw [resultOf_eq_some.mpr ⟨round, hMade, hResult⟩] at hOpen
      cases hOpen
    cases hPhase : caller.phase with
    | awaitingAsleep p =>
      have hNext := hHere.awaits p (.inr hPhase)
      apply ih p (by omega) (by omega) (hHere.asleep p hPhase)
    | collecting =>
      rw [hPhase] at hLeads
      cases hCancelled : s.cancelled with
      | true =>
        apply canGoOn_of_proceed hCaller hMade
        simp [proceed, hPhase, waitTurn, hCancelled]
      | false =>
        rcases Nat.lt_or_ge s.now round.collectionDeadline with hEarly | hDue
        · exact .collects i caller round hCaller hPhase hMade hEarly
        · apply canGoOn_of_proceed hCaller hMade
          have hRound : round.phase = .collecting := hLeads
          simp [proceed, hPhase, waitTurn, hCancelled, hRound, hDue]
    | locking =>
      cases hCommit : s.commit with
      | none =>
        apply canGoOn_of_proceed hCaller hMade
        cases hPoisoned : s.poisoned <;> simp [proceed, hPhase, lockCommit, hCommit, hPoisoned]
      | some holder =>
        cases holder with
        | caller j => exact canGoOn_of_holder hInv hCommit
        | other => exact .locked hCommit
    | working => exact .works i caller hCaller hPhase
    | answered result =>
      rw [hPhase] at hLeads
      exact absurd hLeads (hComplete result)
    | terminated =>
      rw [hPhase] at hLeads
      exact absurd hLeads (hComplete _)
    | waiting => rw [hPhase] at hLeads; exact hLeads.elim
    | asleep => rw [hPhase] at hLeads; exact hLeads.elim
    | turn =>
      apply canGoOn_of_proceed hCaller hMade
      cases hPredecessor : round.predecessor <;> simp [proceed, hPhase, hPredecessor]
    | awaiting p =>
      apply canGoOn_of_proceed hCaller hMade
      cases hResult : s.rounds.resultOf p <;> cases hCancelled : s.cancelled <;>
        simp [proceed, hPhase, hResult, hCancelled]
    | taking =>
      apply canGoOn_of_proceed hCaller hMade
      simp [proceed, hPhase]
    | starting =>
      apply canGoOn_of_proceed hCaller hMade
      simp [proceed, hPhase]
    | publishing result =>
      apply canGoOn_of_proceed hCaller hMade
      simp [proceed, hPhase]
    | dropping =>
      apply canGoOn_of_proceed hCaller hMade
      simp [proceed, hPhase]

/-- No wake-up is lost and no caller is left behind: in every reachable state nobody sleeps
on a round that is complete, and as long as a call has not returned someone can go on. -/
theorem nobody_is_forgotten {collectionWindow : Nat} (h : Reached collectionWindow s) {i : Nat}
    {caller : BarrierCaller α} (hCaller : s.callers[i]? = some caller)
    (hWaits : caller.phase.returned = false) :
    CanGoOn s ∧ (caller.phase = .asleep → s.rounds.resultOf caller.round = none) ∧
      ∀ p, caller.phase = .awaitingAsleep p → s.rounds.resultOf p = none := by
  have hInv := h.invariant
  have hHere := hInv.callers i caller hCaller
  obtain ⟨round, hMade, hParticipates⟩ := hHere.participates
  obtain ⟨hLess, -⟩ := List.getElem?_eq_some_iff.mp hMade
  have hNone : (∀ result, round.phase ≠ .complete result) → s.rounds.resultOf caller.round = none := by
    intro hOpen
    apply Option.eq_none_iff_forall_ne_some.mpr
    intro result hSome
    obtain ⟨found, hFound, hComplete⟩ := resultOf_eq_some.mp hSome
    obtain rfl := Option.some.inj (hFound.symm.trans hMade)
    exact hOpen result hComplete
  have hAsleep : caller.phase = .asleep → s.rounds.resultOf caller.round = none := by
    intro hPhase
    apply hNone
    cases hLeader : caller.leader with
    | true =>
      have hLeads := hParticipates.leads hLeader
      rw [hPhase] at hLeads
      exact hLeads.elim
    | false =>
      have hFollows := hParticipates.follows hLeader
      rw [hPhase] at hFollows
      exact hFollows
  refine ⟨?_, hAsleep, hHere.asleep⟩
  cases hResult : s.rounds.resultOf caller.round with
  | none => exact canGoOn_of_round hInv caller.round hLess hResult
  | some result =>
    obtain ⟨found, hFound, hComplete⟩ := resultOf_eq_some.mp hResult
    obtain rfl := Option.some.inj (hFound.symm.trans hMade)
    cases hLeader : caller.leader with
    | true =>
      have hLeads := hParticipates.leads hLeader
      rw [hComplete] at hLeads
      cases hPhase : caller.phase with
      | publishing result =>
        apply canGoOn_of_proceed hCaller hMade
        simp [proceed, hPhase]
      | _ => rw [hPhase] at hLeads hWaits; first | exact (Bool.true_eq_false.mp hWaits).elim | cases hLeads
    | false =>
      have hFollows := hParticipates.follows hLeader
      cases hPhase : caller.phase with
      | waiting =>
        apply canGoOn_of_proceed hCaller hMade
        simp [proceed, hPhase, hComplete]
      | asleep =>
        rw [hAsleep hPhase] at hResult
        cases hResult
      | _ => rw [hPhase] at hFollows hWaits; first | exact (Bool.true_eq_false.mp hWaits).elim | cases hFollows

/-! ## A round that is shared -/

/-- Two callers share a round, and a third one opens the next while it runs. -/
def sharedRound : List (BarrierEvent Nat) :=
  [BarrierEvent.call, BarrierEvent.call, BarrierEvent.proceed 1, BarrierEvent.advance 5,
    BarrierEvent.proceed 0, BarrierEvent.proceed 0, BarrierEvent.proceed 0, BarrierEvent.proceed 0,
    BarrierEvent.call, BarrierEvent.proceed 2, BarrierEvent.proceed 2,
    BarrierEvent.finish 0 (.ok 7), BarrierEvent.proceed 0, BarrierEvent.proceed 1]

def sharedRoundState : BarrierSystem Nat :=
  (execute step (initial Nat 0) sharedRound).getD (initial Nat 0)

theorem sharedRound_reached : Reached 0 sharedRoundState :=
  Run.of_execute (fun _ _ _ => trivial) (show execute step (initial Nat 0) sharedRound = some _ from rfl)

theorem sharedRound_in_turn : sharedRoundState.rounds.phaseOf 1 = some .collecting ∧
    1 + 1 = sharedRoundState.rounds.made.length :=
  ⟨rfl, (rounds_run_in_turn sharedRound_reached).2.1 1 rfl⟩

theorem sharedRound_answers : sharedRoundState.rounds.phaseOf 0 = some (.complete (.ok 7)) ∨
    false = true ∧ sharedRoundState.cancelled = true ∧
      (.ok 7 : Outcome Nat) = .error barrierCancelled := by
  have hCaller : sharedRoundState.callers[1]? = some ⟨0, false, 0, .answered (.ok 7)⟩ := rfl
  have hAnswer := (answers_agree sharedRound_reached hCaller).1 (.ok 7) rfl
  exact hAnswer.imp_right fun hGone => by cases hGone.2.1

theorem sharedRound_goes_on : CanGoOn sharedRoundState := by
  have hCaller : sharedRoundState.callers[2]? = some ⟨1, true, 5, .awaiting 0⟩ := rfl
  exact (nobody_is_forgotten sharedRound_reached hCaller rfl).1

end BarrierSystem

end Rhiza.Node
