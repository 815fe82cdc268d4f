import Rhiza.Library.Parties
import Rhiza.Node.Admin

/-! # Rounds of read barriers

Reads that want a barrier share rounds. A read joins the last round as long as that
round is collecting, and opens a new one otherwise and leads it. A leader waits for
the round before its own and for the end of the collection window, takes the commit
lock, closes the round, and publishes what it finds to everyone who joined.
-/

namespace Rhiza.Node

open Rhiza.Core Rhiza.Library
open Admin (OperationError Outcome)

variable {α : Type}

inductive ReadBarrierRoundPhase (α : Type)
  | collecting
  | running
  | complete (result : Outcome α)

structure ReadBarrierRound (α : Type) where
  collectionDeadline : Nat
  predecessor : Option Nat
  phase : ReadBarrierRoundPhase α
  /-- The world when it was started. -/
  startedAt : Option Nat

/-- `ReadBarrierRounds` and the rounds it has made. Rounds are named by their place,
and the generation of a round is the number after its place. -/
structure ReadBarrierRounds (α : Type) where
  collectionWindow : Nat
  tail : Option Nat
  nextGeneration : Nat
  made : List (ReadBarrierRound α)

def ReadBarrierRounds.new (collectionWindow : Nat) : ReadBarrierRounds α where
  collectionWindow
  tail := none
  nextGeneration := 0
  made := []

def ReadBarrierRounds.phaseOf (rounds : ReadBarrierRounds α) (k : Nat) :
    Option (ReadBarrierRoundPhase α) :=
  rounds.made[k]?.map (·.phase)

def ReadBarrierRounds.isCollecting (rounds : ReadBarrierRounds α) (k : Nat) : Bool :=
  match rounds.phaseOf k with
  | some .collecting => true
  | _ => false

/-- What a round has been completed with. -/
def ReadBarrierRounds.resultOf (rounds : ReadBarrierRounds α) (k : Nat) : Option (Outcome α) :=
  match rounds.phaseOf k with
  | some (.complete result) => some result
  | _ => none

/-- The round of the participant, whether it leads the round, and the rounds after `join`. -/
def ReadBarrierRounds.join (rounds : ReadBarrierRounds α) (now : Nat) :
    Outcome (Nat × Bool × ReadBarrierRounds α) :=
  match rounds.tail.filter rounds.isCollecting with
  | some tail => .ok (tail, false, rounds)
  | none =>
    match checkedSucc rounds.nextGeneration with
    | none => .error (.invariant "read barrier generation is exhausted")
    | some generation =>
      .ok (rounds.made.length, true,
        { rounds with
          nextGeneration := generation
          tail := some rounds.made.length
          made := rounds.made ++
            [{ collectionDeadline := now + rounds.collectionWindow
               predecessor := rounds.tail
               phase := .collecting
               startedAt := none }] })

def ReadBarrierRounds.modify (rounds : ReadBarrierRounds α) (k : Nat)
    (f : ReadBarrierRound α → ReadBarrierRound α) : ReadBarrierRounds α :=
  { rounds with made := rounds.made.modify k f }

def ReadBarrierRound.complete (round : ReadBarrierRound α) (result : Outcome α) :
    ReadBarrierRound α :=
  match round.phase with
  | .complete _ => round
  | _ => { round with phase := .complete result }

def barrierCancelled : OperationError := .unavailable "read barrier cancelled during shutdown"
def leaderTerminated : OperationError := .unavailable "read barrier generation leader terminated"
def leftEarly : OperationError := .invariant "read barrier leader left the collecting phase early"
def startedTwice : OperationError := .invariant "read barrier generation cannot start twice"
def commitPoisoned : OperationError := .invariant "commit mutex is poisoned"

/-! ## Calls of `establish_read_barrier` -/

inductive BarrierPhase (α : Type)
  /-- In `wait_turn`, before the predecessor is read. -/
  | turn
  /-- In `wait_complete` of the predecessor, before it looks at its phase. -/
  | awaiting (predecessor : Nat)
  | awaitingAsleep (predecessor : Nat)
  /-- Before the predecessor is let go. -/
  | taking
  /-- In the loop of `wait_turn`, which sleeps with a timeout. -/
  | collecting
  /-- In `lock_commit`. -/
  | locking
  | starting
  /-- In `ensure_ready` and `commit_read_barrier_locked`. -/
  | working
  | publishing (result : Outcome α)
  /-- The leader unwinds, and its publication has not been dropped yet. -/
  | dropping
  /-- A follower in `result`, before it looks at the phase of its round. -/
  | waiting
  | asleep
  | answered (result : Outcome α)
  | terminated

structure BarrierCaller (α : Type) where
  round : Nat
  leader : Bool
  /-- The world when it joined. -/
  joinedAt : Nat
  phase : BarrierPhase α

/-- The condition variable of round `k` wakes a caller. -/
def BarrierCaller.notify (k : Nat) (caller : BarrierCaller α) : BarrierCaller α :=
  match caller.phase with
  | .awaitingAsleep predecessor =>
    if predecessor = k then { caller with phase := .awaiting predecessor } else caller
  | .asleep => if caller.round = k then { caller with phase := .waiting } else caller
  | _ => caller

/-- A thread in `cancel_waiters`. -/
inductive CancellerPhase
  /-- Its flag is up and it has not read the tail. -/
  | raised
  | notifying (round : Nat)
  /-- Before it reads the predecessor of the round. -/
  | following (round : Nat)
  | finished

inductive CommitHolder
  | caller (i : Nat)
  | other
  deriving DecidableEq

/-- `world` measures what has happened outside; only the history looks at it. -/
structure BarrierSystem (α : Type) where
  rounds : ReadBarrierRounds α
  now : Nat
  world : Nat
  cancelled : Bool
  commit : Option CommitHolder
  poisoned : Bool
  callers : List (BarrierCaller α)
  cancellers : List CancellerPhase

inductive BarrierEvent (α : Type)
  | tick (now : Nat)
  | advance (world : Nat)
  /-- `establish_read_barrier` is called. -/
  | call
  /-- `cancel_operations` raises its flag. -/
  | cancel
  | cancelWaiters (canceller : Nat)
  /-- Someone else takes the commit lock. -/
  | otherLocks
  | otherUnlocks (panicking : Bool)
  /-- A caller wakes without having been notified. -/
  | wake (caller : Nat)
  /-- The next critical section of a caller. -/
  | proceed (caller : Nat)
  /-- The work of a leader returns. -/
  | finish (caller : Nat) (result : Outcome α)
  /-- The work of a leader panics. -/
  | unwind (caller : Nat)

namespace BarrierSystem

def initial (α : Type) (collectionWindow : Nat) : BarrierSystem α where
  rounds := .new collectionWindow
  now := 0
  world := 0
  cancelled := false
  commit := none
  poisoned := false
  callers := []
  cancellers := []

def setPhase (s : BarrierSystem α) (i : Nat) (phase : BarrierPhase α) : BarrierSystem α :=
  { s with callers := s.callers.modify i fun caller => { caller with phase } }

def notifyAll (s : BarrierSystem α) (k : Nat) : BarrierSystem α :=
  { s with callers := s.callers.map (·.notify k) }

/-- `ReadBarrierRound::complete` by the leader of the round. -/
def complete (s : BarrierSystem α) (i k : Nat) (result : Outcome α) (phase : BarrierPhase α) :
    BarrierSystem α :=
  ({ s with rounds := s.rounds.modify k (·.complete result) }.notifyAll k).setPhase i phase

/-- A leader that holds the commit lock fails, which drops its guard. -/
def refuse (s : BarrierSystem α) (i : Nat) (error : OperationError) : BarrierSystem α :=
  { s.setPhase i (.publishing (.error error)) with commit := none }

def waitTurn (s : BarrierSystem α) (i : Nat) (round : ReadBarrierRound α) :
    Option (BarrierSystem α) :=
  if s.cancelled then some (s.setPhase i (.publishing (.error barrierCancelled)))
  else
    match round.phase with
    | .collecting => if round.collectionDeadline ≤ s.now then some (s.setPhase i .locking) else none
    | _ => some (s.setPhase i (.publishing (.error leftEarly)))

def lockCommit (s : BarrierSystem α) (i : Nat) : Option (BarrierSystem α) :=
  if s.commit.isSome then none
  else if s.poisoned then some (s.setPhase i (.publishing (.error commitPoisoned)))
  else some { s.setPhase i .starting with commit := some (.caller i) }

def start (s : BarrierSystem α) (i k : Nat) (round : ReadBarrierRound α) : BarrierSystem α :=
  if s.cancelled then s.refuse i barrierCancelled
  else
    match round.phase with
    | .collecting =>
      { s with
        rounds := s.rounds.modify k fun round =>
          { round with phase := .running, startedAt := some s.world } }.setPhase i .working
    | _ => s.refuse i startedTwice

/-- The next critical section of a caller, if there is one that it can enter. -/
def proceed (s : BarrierSystem α) (i : Nat) (caller : BarrierCaller α)
    (round : ReadBarrierRound α) : Option (BarrierSystem α) :=
  match caller.phase with
  | .turn =>
    match round.predecessor with
    | none => some (s.setPhase i .collecting)
    | some predecessor => some (s.setPhase i (.awaiting predecessor))
  | .awaiting predecessor =>
    match s.rounds.resultOf predecessor with
    | some _ => some (s.setPhase i .taking)
    | none =>
      if s.cancelled then some (s.setPhase i (.publishing (.error barrierCancelled)))
      else some (s.setPhase i (.awaitingAsleep predecessor))
  | .taking =>
    some ({ s with
      rounds := s.rounds.modify caller.round fun round =>
        { round with predecessor := none } }.setPhase i .collecting)
  | .collecting => s.waitTurn i round
  | .locking => s.lockCommit i
  | .starting => some (s.start i caller.round round)
  | .publishing result => some (s.complete i caller.round result (.answered result))
  | .dropping => some (s.complete i caller.round (.error leaderTerminated) .terminated)
  | .waiting =>
    match round.phase with
    | .complete result => some (s.setPhase i (.answered result))
    | _ =>
      if s.cancelled then some (s.setPhase i (.answered (.error barrierCancelled)))
      else some (s.setPhase i .asleep)
  | .awaitingAsleep _ => none
  | .working => none
  | .asleep => none
  | .answered _ => none
  | .terminated => none

def cancelWaiters (s : BarrierSystem α) (c : Nat) : CancellerPhase → Option (BarrierSystem α)
  | .raised =>
    some { s with
      cancellers := s.cancellers.set c
        (match s.rounds.tail with
        | some tail => .notifying tail
        | none => .finished) }
  | .notifying k =>
    some { s.notifyAll k with cancellers := s.cancellers.set c (.following k) }
  | .following k =>
    some { s with
      cancellers := s.cancellers.set c
        (match s.rounds.made[k]?.bind (·.predecessor) with
        | some predecessor => .notifying predecessor
        | none => .finished) }
  | .finished => none

def step (s : BarrierSystem α) : BarrierEvent α → Option (BarrierSystem α)
  | .tick now => if s.now ≤ now then some { s with now } else none
  | .advance world => if s.world ≤ world then some { s with world } else none
  | .call =>
    match s.rounds.join s.now with
    | .error _ => some s
    | .ok (round, leader, rounds) =>
      some { s with
        rounds
        callers := s.callers ++
          [{ round, leader, joinedAt := s.world, phase := if leader then .turn else .waiting }] }
  | .cancel => some { s with cancelled := true, cancellers := s.cancellers ++ [.raised] }
  | .cancelWaiters c => s.cancellers[c]?.bind (s.cancelWaiters c)
  | .otherLocks => if s.commit = none then some { s with commit := some .other } else none
  | .otherUnlocks panicking =>
    if s.commit = some .other then
      some { s with commit := none, poisoned := s.poisoned || panicking }
    else none
  | .wake i =>
    match s.callers[i]? with
    | some ⟨_, _, _, .awaitingAsleep predecessor⟩ => some (s.setPhase i (.awaiting predecessor))
    | some ⟨_, _, _, .asleep⟩ => some (s.setPhase i .waiting)
    | _ => none
  | .proceed i =>
    s.callers[i]?.bind fun caller => s.rounds.made[caller.round]?.bind (s.proceed i caller)
  | .finish i result =>
    match s.callers[i]? with
    | some ⟨_, _, _, .working⟩ =>
      some { s.setPhase i (.publishing result) with commit := none }
    | _ => none
  | .unwind i =>
    match s.callers[i]? with
    | some ⟨_, _, _, .working⟩ =>
      some { s.setPhase i .dropping with commit := none, poisoned := true }
    | _ => none

/-! ## What a step does -/

/-- A step of a caller that touches nothing but its own phase. -/
inductive Move (s : BarrierSystem α) (caller : BarrierCaller α) (round : ReadBarrierRound α) :
    BarrierPhase α → Prop
  | first (h : caller.phase = .turn) (hNone : round.predecessor = none) : Move s caller round .collecting
  | await (p : Nat) (h : caller.phase = .turn) (hSome : round.predecessor = some p) :
      Move s caller round (.awaiting p)
  | passed (p : Nat) (result : Outcome α) (h : caller.phase = .awaiting p)
      (hResult : s.rounds.resultOf p = some result) : Move s caller round .taking
  | awaits (p : Nat) (h : caller.phase = .awaiting p) (hResult : s.rounds.resultOf p = none)
      (hLive : s.cancelled = false) : Move s caller round (.awaitingAsleep p)
  | gaveUp (h : (∃ p, caller.phase = .awaiting p) ∨ caller.phase = .collecting)
      (hCancelled : s.cancelled = true) :
      Move s caller round (.publishing (.error barrierCancelled))
  | early (h : caller.phase = .collecting) (hRound : round.phase ≠ .collecting) :
      Move s caller round (.publishing (.error leftEarly))
  | due (h : caller.phase = .collecting) (hRound : round.phase = .collecting)
      (hLive : s.cancelled = false) : Move s caller round .locking
  | poisoned (h : caller.phase = .locking) : Move s caller round (.publishing (.error commitPoisoned))
  | found (result : Outcome α) (h : caller.phase = .waiting) (hRound : round.phase = .complete result) :
      Move s caller round (.answered result)
  | abandoned (h : caller.phase = .waiting) (hCancelled : s.cancelled = true) :
      Move s caller round (.answered (.error barrierCancelled))
  | sleep (h : caller.phase = .waiting) (hRound : ∀ result, round.phase ≠ .complete result)
      (hLive : s.cancelled = false) : Move s caller round .asleep

/-- A caller that slept looks again. -/
inductive Rouse (caller : BarrierCaller α) : BarrierPhase α → Prop
  | awaiting (p : Nat) (h : caller.phase = .awaitingAsleep p) : Rouse caller (.awaiting p)
  | waiting (h : caller.phase = .asleep) : Rouse caller .waiting

/-- How the holder of the commit lock lets go of it. -/
inductive Release (caller : BarrierCaller α) : BarrierPhase α → Prop
  | refused (error : OperationError) (h : caller.phase = .starting) :
      Release caller (.publishing (.error error))
  | finished (result : Outcome α) (h : caller.phase = .working) : Release caller (.publishing result)
  | unwound (h : caller.phase = .working) : Release caller .dropping

/-- How a leader completes its round. -/
inductive Completion (caller : BarrierCaller α) : Outcome α → BarrierPhase α → Prop
  | published (result : Outcome α) (h : caller.phase = .publishing result) :
      Completion caller result (.answered result)
  | dropped (h : caller.phase = .dropping) : Completion caller (.error leaderTerminated) .terminated

/-- Everything that a step can do. -/
inductive Change (s : BarrierSystem α) (event : BarrierEvent α) : BarrierSystem α → Prop
  | outside (now world : Nat) (cancelled : Bool) (commit : Option CommitHolder) (poisoned : Bool)
      (cancellers : List CancellerPhase) (hWorld : s.world ≤ world)
      (hEvent : world = s.world ∨ event = .advance world)
      (hCancelled : s.cancelled = true → cancelled = true)
      (hCommit : commit = s.commit ∨ ∀ i, commit ≠ some (.caller i) ∧ s.commit ≠ some (.caller i)) :
      Change s event { s with now, world, cancelled, commit, poisoned, cancellers }
  | joined (k : Nat) (hTail : s.rounds.tail = some k) (hCollecting : s.rounds.isCollecting k = true) :
      Change s event { s with callers := s.callers ++ [⟨k, false, s.world, .waiting⟩] }
  | opened (generation deadline : Nat)
      (hTail : ∀ k, s.rounds.tail = some k → s.rounds.isCollecting k = false) :
      Change s event { s with
        rounds := { s.rounds with
          nextGeneration := generation
          tail := some s.rounds.made.length
          made := s.rounds.made ++ [⟨deadline, s.rounds.tail, .collecting, none⟩] }
        callers := s.callers ++ [⟨s.rounds.made.length, true, s.world, .turn⟩] }
  | woken (k : Nat) (cancellers : List CancellerPhase) :
      Change s event { s.notifyAll k with cancellers }
  | moved (i : Nat) (caller : BarrierCaller α) (round : ReadBarrierRound α) (phase : BarrierPhase α)
      (h : s.callers[i]? = some caller) (hRound : s.rounds.made[caller.round]? = some round)
      (hMove : Move s caller round phase) : Change s event (s.setPhase i phase)
  | roused (i : Nat) (caller : BarrierCaller α) (phase : BarrierPhase α)
      (h : s.callers[i]? = some caller) (hRouse : Rouse caller phase) : Change s event (s.setPhase i phase)
  | took (i : Nat) (caller : BarrierCaller α) (h : s.callers[i]? = some caller)
      (hPhase : caller.phase = .taking) :
      Change s event ({ s with
        rounds := s.rounds.modify caller.round fun round =>
          { round with predecessor := none } }.setPhase i .collecting)
  | locked (i : Nat) (caller : BarrierCaller α) (h : s.callers[i]? = some caller)
      (hPhase : caller.phase = .locking) (hFree : s.commit = none) :
      Change s event { s.setPhase i .starting with commit := some (.caller i) }
  | started (i : Nat) (caller : BarrierCaller α) (h : s.callers[i]? = some caller)
      (hPhase : caller.phase = .starting) (hLive : s.cancelled = false) :
      Change s event ({ s with
        rounds := s.rounds.modify caller.round fun round =>
          { round with phase := .running, startedAt := some s.world } }.setPhase i .working)
  | released (i : Nat) (caller : BarrierCaller α) (phase : BarrierPhase α) (poisoned : Bool)
      (h : s.callers[i]? = some caller) (hRelease : Release caller phase)
      (hEvent : ∀ a, phase = .publishing (.ok a) → event = .finish i (.ok a)) :
      Change s event { s.setPhase i phase with commit := none, poisoned }
  | completed (i : Nat) (caller : BarrierCaller α) (result : Outcome α) (phase : BarrierPhase α)
      (h : s.callers[i]? = some caller) (hCompletion : Completion caller result phase) :
      Change s event (s.complete i caller.round result phase)

section Changes

variable {s s' : BarrierSystem α} {event : BarrierEvent α} {i : Nat} {caller : BarrierCaller α}
  {round : ReadBarrierRound α}

theorem waitTurn_changes (h : s.callers[i]? = some caller)
    (hRound : s.rounds.made[caller.round]? = some round) (hPhase : caller.phase = .collecting)
    (hStep : s.waitTurn i round = some s') : Change s event s' := by
  unfold waitTurn at hStep
  split at hStep
  · rename_i hCancelled
    obtain rfl := Option.some.inj hStep
    exact .moved i caller round _ h hRound (.gaveUp (.inr hPhase) hCancelled)
  · rename_i hLive
    split at hStep
    · rename_i hCollecting
      split at hStep
      · obtain rfl := Option.some.inj hStep
        exact .moved i caller round _ h hRound (.due hPhase hCollecting (Bool.eq_false_of_not_eq_true hLive))
      · cases hStep
    · rename_i hOther
      obtain rfl := Option.some.inj hStep
      exact .moved i caller round _ h hRound (.early hPhase hOther)

theorem lockCommit_changes (h : s.callers[i]? = some caller)
    (hRound : s.rounds.made[caller.round]? = some round) (hPhase : caller.phase = .locking)
    (hStep : s.lockCommit i = some s') : Change s event s' := by
  unfold lockCommit at hStep
  split at hStep
  · cases hStep
  · rename_i hFree
    split at hStep
    · obtain rfl := Option.some.inj hStep
      exact .moved i caller round _ h hRound (.poisoned hPhase)
    · obtain rfl := Option.some.inj hStep
      exact .locked i caller h hPhase (Option.not_isSome_iff_eq_none.mp hFree)

theorem start_changes (h : s.callers[i]? = some caller) (hPhase : caller.phase = .starting) :
    Change s event (s.start i caller.round round) := by
  unfold start
  split
  · exact .released i caller _ _ h (.refused _ hPhase) (by simp)
  · rename_i hLive
    split
    · exact .started i caller h hPhase (Bool.eq_false_of_not_eq_true hLive)
    · exact .released i caller _ _ h (.refused _ hPhase) (by simp)

theorem proceed_changes (h : s.callers[i]? = some caller)
    (hRound : s.rounds.made[caller.round]? = some round) (hStep : s.proceed i caller round = some s') :
    Change s event s' := by
  unfold proceed at hStep
  split at hStep
  case h_1 hPhase =>
    split at hStep
    · rename_i hNone
      obtain rfl := Option.some.inj hStep
      exact .moved i caller round _ h hRound (.first hPhase hNone)
    · rename_i p hSome
      obtain rfl := Option.some.inj hStep
      exact .moved i caller round _ h hRound (.await p hPhase hSome)
  case h_2 p hPhase =>
    split at hStep
    · rename_i result hResult
      obtain rfl := Option.some.inj hStep
      exact .moved i caller round _ h hRound (.passed p result hPhase hResult)
    · rename_i hResult
      split at hStep
      · rename_i hCancelled
        obtain rfl := Option.some.inj hStep
        exact .moved i caller round _ h hRound (.gaveUp (.inl ⟨p, hPhase⟩) hCancelled)
      · rename_i hLive
        obtain rfl := Option.some.inj hStep
        exact .moved i caller round _ h hRound
          (.awaits p hPhase hResult (Bool.eq_false_of_not_eq_true hLive))
  case h_3 hPhase =>
    obtain rfl := Option.some.inj hStep
    exact .took i caller h hPhase
  case h_4 hPhase => exact waitTurn_changes h hRound hPhase hStep
  case h_5 hPhase => exact lockCommit_changes h hRound hPhase hStep
  case h_6 hPhase =>
    obtain rfl := Option.some.inj hStep
    exact start_changes h hPhase
  case h_7 result hPhase =>
    obtain rfl := Option.some.inj hStep
    exact .completed i caller _ _ h (.published result hPhase)
  case h_8 hPhase =>
    obtain rfl := Option.some.inj hStep
    exact .completed i caller _ _ h (.dropped hPhase)
  case h_9 hPhase =>
    split at hStep
    · rename_i result hResult
      obtain rfl := Option.some.inj hStep
      exact .moved i caller round _ h hRound (.found result hPhase hResult)
    · rename_i hOther
      split at hStep
      · rename_i hCancelled
        obtain rfl := Option.some.inj hStep
        exact .moved i caller round _ h hRound (.abandoned hPhase hCancelled)
      · rename_i hLive
        obtain rfl := Option.some.inj hStep
        exact .moved i caller round _ h hRound
          (.sleep hPhase (fun result => hOther result) (Bool.eq_false_of_not_eq_true hLive))
  all_goals cases hStep

theorem cancelWaiters_changes {c : Nat} {phase : CancellerPhase}
    (hStep : s.cancelWaiters c phase = some s') : Change s event s' := by
  cases phase with
  | raised =>
    obtain rfl := Option.some.inj hStep
    exact .outside _ _ _ _ _ _ le_rfl (.inl rfl) id (.inl rfl)
  | notifying k =>
    obtain rfl := Option.some.inj hStep
    exact .woken k _
  | following k =>
    obtain rfl := Option.some.inj hStep
    exact .outside _ _ _ _ _ _ le_rfl (.inl rfl) id (.inl rfl)
  | finished => cases hStep

theorem call_changes (hStep : s.step .call = some s') : s' = s ∨ Change s event s' := by
  simp only [step] at hStep
  split at hStep
  · exact .inl (Option.some.inj hStep).symm
  · rename_i k leader rounds hJoin
    obtain rfl := Option.some.inj hStep
    right
    unfold ReadBarrierRounds.join at hJoin
    split at hJoin
    · rename_i tail hTail
      obtain ⟨hTail, hCollecting⟩ := Option.filter_eq_some_iff.mp hTail
      cases hJoin
      exact .joined k hTail hCollecting
    · rename_i hTail
      split at hJoin
      · cases hJoin
      · cases hJoin
        refine .opened _ _ fun k hk => ?_
        rw [hk, Option.filter_some] at hTail
        cases hCollecting : s.rounds.isCollecting k with
        | false => rfl
        | true => simp [hCollecting] at hTail

theorem step_changes (hStep : s.step event = some s') :
    s' = s ∨ Change s event s' := by
  cases event with
  | call => exact call_changes hStep
  | tick now =>
    right
    simp only [step] at hStep
    split at hStep
    · obtain rfl := Option.some.inj hStep
      exact .outside _ _ _ _ _ _ le_rfl (.inl rfl) id (.inl rfl)
    · cases hStep
  | advance world =>
    right
    simp only [step] at hStep
    split at hStep
    · rename_i hWorld
      obtain rfl := Option.some.inj hStep
      exact .outside _ _ _ _ _ _ hWorld (.inr rfl) id (.inl rfl)
    · cases hStep
  | cancel =>
    right
    obtain rfl := Option.some.inj hStep
    exact .outside _ _ _ _ _ _ le_rfl (.inl rfl) (fun _ => rfl) (.inl rfl)
  | cancelWaiters c =>
    right
    obtain ⟨phase, -, hStep⟩ := Option.bind_eq_some_iff.mp hStep
    exact cancelWaiters_changes hStep
  | otherLocks =>
    right
    simp only [step] at hStep
    split at hStep
    · rename_i hFree
      obtain rfl := Option.some.inj hStep
      exact .outside _ _ _ _ _ _ le_rfl (.inl rfl) id (.inr fun i => by simp [hFree])
    · cases hStep
  | otherUnlocks panicking =>
    right
    simp only [step] at hStep
    split at hStep
    · rename_i hOther
      obtain rfl := Option.some.inj hStep
      exact .outside _ _ _ _ _ _ le_rfl (.inl rfl) id (.inr fun i => by simp [hOther])
    · cases hStep
  | wake i =>
    right
    simp only [step] at hStep
    split at hStep
    · rename_i p h
      obtain rfl := Option.some.inj hStep
      exact .roused i _ _ h (.awaiting p rfl)
    · rename_i h
      obtain rfl := Option.some.inj hStep
      exact .roused i _ _ h (.waiting rfl)
    · cases hStep
  | proceed i =>
    right
    obtain ⟨caller, h, hStep⟩ := Option.bind_eq_some_iff.mp hStep
    obtain ⟨round, hRound, hStep⟩ := Option.bind_eq_some_iff.mp hStep
    exact proceed_changes h hRound hStep
  | finish i result =>
    right
    simp only [step] at hStep
    split at hStep
    · rename_i h
      obtain rfl := Option.some.inj hStep
      refine .released i _ _ _ h (.finished result rfl) fun a hOk => ?_
      cases hOk
      rfl
    · cases hStep
  | unwind i =>
    right
    simp only [step] at hStep
    split at hStep
    · rename_i h
      obtain rfl := Option.some.inj hStep
      exact .released i _ _ _ h (.unwound rfl) (by simp)
    · cases hStep

end Changes

end BarrierSystem

end Rhiza.Node
