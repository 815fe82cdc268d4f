import Rhiza.Archive.Manifest
import Rhiza.Library.Run

/-! # The state of a checkpoint coordinator

Commits are noted, flushes report how far the archive is, and a bounded write path asks
whether the archive lags too far behind. Every call holds the lock, so that the calls
come one after the other, at instants that do not go back.
-/

namespace Rhiza.Node.Accounting

open Core Archive Library

inductive DurabilityMode
  | sync
  | bounded (maxLag : Nat)
  | periodic (interval : Nat)
  deriving DecidableEq

inductive DurabilityHealth
  | available
  | unavailable
  deriving DecidableEq

/-- What is not durable yet was committed since an instant, or found after a restart. -/
inductive PendingLag
  | new (instant : Nat)
  | recovered
  deriving DecidableEq

inductive DurabilityError
  | unavailable
  | lagExceeded (committedIndex durableIndex maxLag : Nat)
  | snapshotVerification (message : String)
  deriving DecidableEq

structure CoordinatorState where
  durableTip : CheckpointTip
  committedIndex : Nat
  pendingLag : Option PendingLag
  health : DurabilityHealth
  deriving DecidableEq

namespace CoordinatorState

def opened (durableTip : CheckpointTip) : CoordinatorState :=
  ⟨durableTip, durableTip.index, none, .available⟩

def noteCommitted (state : CoordinatorState) (index now : Nat) : CoordinatorState :=
  if index ≤ state.committedIndex then state
  else
    { state with
      committedIndex := index
      pendingLag :=
        if state.durableTip.index < index ∧ state.pendingLag.isNone then some (.new now)
        else state.pendingLag }

def noteRecoveredCommitted (state : CoordinatorState) (index : Nat) : CoordinatorState :=
  let committedIndex := max state.committedIndex index
  { state with
    committedIndex
    pendingLag :=
      if state.durableTip.index < committedIndex then some .recovered else state.pendingLag }

def furthest (state : CoordinatorState) (durableTip : CheckpointTip) : CheckpointTip :=
  if state.durableTip.index < durableTip.index then durableTip else state.durableTip

/-- `mark_durable_state`. -/
def markDurable (state : CoordinatorState) (durableTip : CheckpointTip) : CoordinatorState :=
  if state.committedIndex ≤ (state.furthest durableTip).index then
    { state with
      durableTip := state.furthest durableTip
      pendingLag := none
      health := .available }
  else { state with durableTip := state.furthest durableTip }

def markUnavailable (state : CoordinatorState) : CoordinatorState :=
  if state.durableTip.index < state.committedIndex then { state with health := .unavailable } else state

/-- `observe_durable_tip`; the state is only changed when there is no error. -/
def observeDurableTip (state : CoordinatorState) (observed : CheckpointTip) :
    Except DurabilityError CoordinatorState :=
  if observed.index < state.durableTip.index then
    .error (.snapshotVerification ("checkpoint tip rolled back from index " ++
      toString state.durableTip.index ++ " to " ++ toString observed.index))
  else if observed.index = state.durableTip.index ∧ observed.hash ≠ state.durableTip.hash then
    .error (.snapshotVerification
      ("checkpoint tip hash changed at index " ++ toString observed.index))
  else .ok (state.markDurable observed)

def exceeded (state : CoordinatorState) (maxLag now : Nat) : Bool :=
  decide (state.durableTip.index < state.committedIndex) &&
    match state.pendingLag with
    | some .recovered => true
    | some (.new pending) => decide (maxLag ≤ now - pending)
    | none => false

def writeAllowed (state : CoordinatorState) (mode : DurabilityMode) (now : Nat) :
    Except DurabilityError Unit :=
  match mode with
  | .sync => if state.health = .unavailable then .error .unavailable else .ok ()
  | .bounded maxLag =>
    if state.exceeded maxLag now then
      .error (.lagExceeded state.committedIndex state.durableTip.index maxLag)
    else .ok ()
  | .periodic _ => .ok ()

end CoordinatorState

inductive Call
  | noteCommitted (index : Nat)
  | noteRecoveredCommitted (index : Nat)
  | markDurable (tip : CheckpointTip)
  | markUnavailable
  | observeDurableTip (tip : CheckpointTip)
  deriving DecidableEq

def Call.tip? : Call → Option CheckpointTip
  | markDurable tip => some tip
  | observeDurableTip tip => some tip
  | _ => none

def CoordinatorState.after (state : CoordinatorState) (now : Nat) : Call → CoordinatorState
  | .noteCommitted index => state.noteCommitted index now
  | .noteRecoveredCommitted index => state.noteRecoveredCommitted index
  | .markDurable tip => state.markDurable tip
  | .markUnavailable => state.markUnavailable
  | .observeDurableTip tip => (state.observeDurableTip tip).toOption.getD state

/-- A coordinator, the instant of its last call, and when each index was noted. -/
structure Observed where
  state : CoordinatorState
  clock : Nat
  noted : List (Nat × Nat)
  deriving DecidableEq

namespace Observed

def opened (durableTip : CheckpointTip) (now : Nat) : Observed := ⟨.opened durableTip, now, []⟩

def step (o : Observed) (timed : Nat × Call) : Option Observed :=
  if o.clock ≤ timed.1 then
    some ⟨o.state.after timed.1 timed.2, timed.1,
      match timed.2 with
      | .noteCommitted index => (index, timed.1) :: o.noted
      | _ => o.noted⟩
  else none

end Observed

def OnChain (chain : Nat → Option LogHash) (tip : CheckpointTip) : Prop := chain tip.index = some tip.hash

def Reports (chain : Nat → Option LogHash) (timed : Nat × Call) : Prop :=
  ∀ tip ∈ timed.2.tip?, OnChain chain tip

def Outstanding (state : CoordinatorState) (index : Nat) : Prop := state.durableTip.index < index

structure Sound (chain : Nat → Option LogHash) (o : Observed) : Prop where
  tip : OnChain chain o.state.durableTip
  lag : o.state.pendingLag.isSome ↔ o.state.durableTip.index < o.state.committedIndex
  health : o.state.committedIndex ≤ o.state.durableTip.index → o.state.health = .available
  committed : ∀ entry ∈ o.noted, entry.1 ≤ o.state.committedIndex
  since : ∀ pending, o.state.pendingLag = some (.new pending) →
    ∀ entry ∈ o.noted, Outstanding o.state entry.1 → pending ≤ entry.2
  past : ∀ entry ∈ o.noted, entry.2 ≤ o.clock
  stored : ∀ pending, o.state.pendingLag = some (.new pending) → pending ≤ o.clock

variable {chain : Nat → Option LogHash} {o o' : Observed} {state : CoordinatorState}
  {tip : CheckpointTip} {now index : Nat}

theorem le_furthest (state : CoordinatorState) (tip : CheckpointTip) :
    state.durableTip.index ≤ (state.furthest tip).index := by
  unfold CoordinatorState.furthest
  split
  · exact Nat.le_of_lt ‹_›
  · exact Nat.le_refl _

theorem onChain_furthest (hState : OnChain chain state.durableTip) (hTip : OnChain chain tip) :
    OnChain chain (state.furthest tip) := by
  unfold CoordinatorState.furthest
  split
  · exact hTip
  · exact hState

theorem sound_opened (h : OnChain chain tip) : Sound chain (.opened tip now) := by
  constructor
  · exact h
  · simp [Observed.opened, CoordinatorState.opened]
  · intro _
    rfl
  · intro entry hEntry
    cases hEntry
  · intro pending hPending
    cases hPending
  · intro entry hEntry
    cases hEntry
  · intro pending hPending
    cases hPending

namespace Sound

theorem later (h : Sound chain o) (hClock : o.clock ≤ now) : Sound chain ⟨o.state, now, o.noted⟩ :=
  ⟨h.tip, h.lag, h.health, h.committed, h.since,
    fun entry hEntry => (h.past entry hEntry).trans hClock,
    fun pending hPending => (h.stored pending hPending).trans hClock⟩

theorem noteCommitted (h : Sound chain o) (hClock : o.clock ≤ now) :
    Sound chain ⟨o.state.noteCommitted index now, now, (index, now) :: o.noted⟩ := by
  have hLater := h.later hClock
  have hLag := h.lag
  have hPast : ∀ entry ∈ (index, now) :: o.noted, entry.2 ≤ now :=
    List.forall_mem_cons.mpr ⟨Nat.le_refl now, hLater.past⟩
  have hSince : ∀ pending, o.state.pendingLag = some (.new pending) →
      ∀ entry ∈ (index, now) :: o.noted, Outstanding o.state entry.1 → pending ≤ entry.2 := by
    intro pending hPending
    exact List.forall_mem_cons.mpr ⟨fun _ => hLater.stored pending hPending, h.since pending hPending⟩
  unfold CoordinatorState.noteCommitted
  split
  · rename_i hOld
    have hCommitted : ∀ entry ∈ (index, now) :: o.noted, entry.1 ≤ o.state.committedIndex :=
      List.forall_mem_cons.mpr ⟨hOld, h.committed⟩
    exact ⟨h.tip, hLag, h.health, hCommitted, hSince, hPast, hLater.stored⟩
  · rename_i hNew
    have hCommitted : ∀ entry ∈ (index, now) :: o.noted, entry.1 ≤ index := by
      refine List.forall_mem_cons.mpr ⟨Nat.le_refl index, fun entry hEntry => ?_⟩
      have := h.committed entry hEntry
      omega
    by_cases hBehind : o.state.durableTip.index < index
    · have hHealth : index ≤ o.state.durableTip.index → o.state.health = .available :=
        fun hDurable => absurd hDurable (Nat.not_le.mpr hBehind)
      by_cases hNone : o.state.pendingLag.isNone
      · rw [if_pos ⟨hBehind, hNone⟩]
        have hDurable : o.state.committedIndex ≤ o.state.durableTip.index := by
          rw [← Nat.not_lt, ← hLag, Option.isNone_iff_eq_none.mp hNone]
          exact Bool.false_ne_true
        refine ⟨h.tip, iff_of_true rfl hBehind, hHealth, hCommitted, ?_, hPast, ?_⟩
        · intro pending hPending
          obtain rfl : now = pending := by simpa using hPending
          refine List.forall_mem_cons.mpr ⟨fun _ => Nat.le_refl now, fun entry hEntry hOut => ?_⟩
          have hEarlier := h.committed entry hEntry
          exact absurd (hEarlier.trans hDurable) (Nat.not_le.mpr hOut)
        · intro pending hPending
          obtain rfl : now = pending := by simpa using hPending
          exact Nat.le_refl now
      · rw [if_neg fun hBoth => hNone hBoth.2]
        have hSome : o.state.pendingLag.isSome :=
          Option.isSome_iff_ne_none.mpr fun hNil => hNone (Option.isNone_iff_eq_none.mpr hNil)
        exact ⟨h.tip, iff_of_true hSome hBehind, hHealth, hCommitted, hSince, hPast, hLater.stored⟩
    · rw [if_neg fun hBoth => hBehind hBoth.1]
      have hDurable : o.state.committedIndex ≤ o.state.durableTip.index := by omega
      have hNone : ¬ o.state.pendingLag.isSome := by
        rw [hLag]
        exact Nat.not_lt.mpr hDurable
      exact ⟨h.tip, iff_of_false hNone hBehind, fun _ => h.health hDurable, hCommitted, hSince, hPast,
        hLater.stored⟩

theorem noteRecoveredCommitted (h : Sound chain o) (hClock : o.clock ≤ now) :
    Sound chain ⟨o.state.noteRecoveredCommitted index, now, o.noted⟩ := by
  have hLag := h.lag
  have hCommitted : ∀ entry ∈ o.noted, entry.1 ≤ max o.state.committedIndex index :=
    fun entry hEntry => (h.committed entry hEntry).trans (le_max_left _ _)
  unfold CoordinatorState.noteRecoveredCommitted
  dsimp only
  split
  · rename_i hBehind
    refine ⟨h.tip, iff_of_true rfl hBehind, fun hDurable => ?_, hCommitted, ?_,
      (h.later hClock).past, ?_⟩
    · exact absurd hDurable (Nat.not_le.mpr hBehind)
    · intro pending hPending
      cases hPending
    · intro pending hPending
      cases hPending
  · rename_i hDurable
    have hBefore : o.state.committedIndex ≤ o.state.durableTip.index :=
      (le_max_left _ _).trans (Nat.not_lt.mp hDurable)
    have hNone : ¬ o.state.pendingLag.isSome := by
      rw [hLag]
      exact Nat.not_lt.mpr hBefore
    exact ⟨h.tip, iff_of_false hNone hDurable, fun _ => h.health hBefore, hCommitted, h.since,
      (h.later hClock).past, (h.later hClock).stored⟩

theorem markDurable (h : Sound chain o) (hClock : o.clock ≤ now) (hTip : OnChain chain tip) :
    Sound chain ⟨o.state.markDurable tip, now, o.noted⟩ := by
  have hLag := h.lag
  have hForward := le_furthest o.state tip
  have hChain : OnChain chain (o.state.furthest tip) := onChain_furthest h.tip hTip
  unfold CoordinatorState.markDurable
  split
  · rename_i hReached
    refine ⟨hChain, iff_of_false nofun (Nat.not_lt.mpr hReached), fun _ => rfl, h.committed, ?_,
      (h.later hClock).past, ?_⟩
    · intro pending hPending
      cases hPending
    · intro pending hPending
      cases hPending
  · rename_i hBehind
    have hBefore : o.state.durableTip.index < o.state.committedIndex := by omega
    refine ⟨hChain, iff_of_true (hLag.mpr hBefore) (Nat.not_le.mp hBehind), ?_, h.committed, ?_,
      (h.later hClock).past, (h.later hClock).stored⟩
    · intro hDurable
      exact absurd hDurable hBehind
    · intro pending hPending entry hEntry hOut
      exact h.since pending hPending entry hEntry (lt_of_le_of_lt hForward hOut)

theorem markUnavailable (h : Sound chain o) (hClock : o.clock ≤ now) :
    Sound chain ⟨o.state.markUnavailable, now, o.noted⟩ := by
  unfold CoordinatorState.markUnavailable
  split
  · rename_i hBehind
    refine ⟨h.tip, h.lag, fun hDurable => ?_, h.committed, h.since, (h.later hClock).past,
      (h.later hClock).stored⟩
    exact absurd hDurable (Nat.not_le.mpr hBehind)
  · exact h.later hClock

theorem step {timed : Nat × Call} (h : Sound chain o) (hReports : Reports chain timed)
    (hStep : o.step timed = some o') : Sound chain o' := by
  obtain ⟨now, call⟩ := timed
  unfold Observed.step at hStep
  split at hStep
  · rename_i hClock
    cases hStep
    cases call with
    | noteCommitted index => exact h.noteCommitted hClock
    | noteRecoveredCommitted index => exact h.noteRecoveredCommitted hClock
    | markDurable tip => exact h.markDurable hClock (hReports tip rfl)
    | markUnavailable => exact h.markUnavailable hClock
    | observeDurableTip tip =>
      dsimp only [CoordinatorState.after]
      unfold CoordinatorState.observeDurableTip
      split
      · exact h.later hClock
      · split
        · exact h.later hClock
        · exact h.markDurable hClock (hReports tip rfl)
  · cases hStep

end Sound

theorem le_markDurable (state : CoordinatorState) (tip : CheckpointTip) :
    state.durableTip.index ≤ (state.markDurable tip).durableTip.index := by
  unfold CoordinatorState.markDurable
  split
  · exact le_furthest state tip
  · exact le_furthest state tip

theorem le_step {timed : Nat × Call} (h : o.step timed = some o') :
    o.state.durableTip.index ≤ o'.state.durableTip.index := by
  obtain ⟨now, call⟩ := timed
  unfold Observed.step at h
  split at h
  · cases h
    cases call with
    | noteCommitted index =>
      dsimp only [CoordinatorState.after, CoordinatorState.noteCommitted]
      split <;> exact Nat.le_refl _
    | noteRecoveredCommitted index => exact Nat.le_refl _
    | markDurable tip => exact le_markDurable o.state tip
    | markUnavailable =>
      dsimp only [CoordinatorState.after, CoordinatorState.markUnavailable]
      split <;> exact Nat.le_refl _
    | observeDurableTip tip =>
      dsimp only [CoordinatorState.after]
      unfold CoordinatorState.observeDurableTip
      split
      · exact Nat.le_refl _
      · split
        · exact Nat.le_refl _
        · exact le_markDurable o.state tip
  · cases h

def Calls (chain : Nat → Option LogHash) (o o' : Observed) : Prop :=
  Run Observed.step (fun _ timed => Reports chain timed) o o'

theorem Calls.sound (h : Calls chain o o') (hSound : Sound chain o) : Sound chain o' :=
  Run.invariant hSound (fun _ _ _ hHere hReports hStep => hHere.step hReports hStep) h

theorem Calls.le (h : Calls chain o o') :
    o.state.durableTip.index ≤ o'.state.durableTip.index := by
  induction h with
  | refl => exact Nat.le_refl _
  | step timed _ _ hStep ih => exact ih.trans (le_step hStep)

theorem Sound.young {maxLag : Nat} (h : Sound chain o)
    (hAllowed : o.state.writeAllowed (.bounded maxLag) now = .ok ()) :
    ∀ entry ∈ o.noted, Outstanding o.state entry.1 → now - entry.2 < maxLag := by
  intro entry hEntry hOut
  have hBehind : o.state.durableTip.index < o.state.committedIndex :=
    lt_of_lt_of_le hOut (h.committed entry hEntry)
  unfold CoordinatorState.writeAllowed at hAllowed
  dsimp only at hAllowed
  split at hAllowed
  · cases hAllowed
  · rename_i hNot
    unfold CoordinatorState.exceeded at hNot
    obtain ⟨lag, hLag⟩ := Option.isSome_iff_exists.mp (h.lag.mpr hBehind)
    rw [decide_eq_true hBehind, hLag, Bool.true_and] at hNot
    cases lag with
    | recovered => exact absurd rfl hNot
    | new pending =>
      have hSince := h.since pending hLag entry hEntry hOut
      have hShort : ¬ maxLag ≤ now - pending := by simpa using hNot
      omega

/-- The accounting of a coordinator over all its calls. -/
theorem accounting_holds {opened : CheckpointTip} {start : Nat} (hOpened : OnChain chain opened)
    (h : Calls chain (.opened opened start) o) :
    OnChain chain o.state.durableTip ∧
    (∀ later, Calls chain o later → o.state.durableTip.index ≤ later.state.durableTip.index) ∧
    (o.state.pendingLag.isSome ↔ o.state.durableTip.index < o.state.committedIndex) ∧
    (o.state.committedIndex ≤ o.state.durableTip.index → o.state.health = .available) ∧
    ∀ maxLag now, o.state.writeAllowed (.bounded maxLag) now = .ok () →
      ∀ entry ∈ o.noted, Outstanding o.state entry.1 → now - entry.2 < maxLag := by
  have hSound := h.sound (sound_opened hOpened)
  exact ⟨hSound.tip, fun later hLater => hLater.le, hSound.lag, hSound.health,
    fun maxLag now hAllowed => hSound.young hAllowed⟩

namespace Sample

def tipAt (index : Nat) : CheckpointTip := ⟨index, .zero⟩

/-- Commits 1 and 2, the first becomes durable, and a write comes in time for the second. -/
def calls : List (Nat × Call) :=
  [(10, .noteCommitted 1), (12, .noteCommitted 2), (15, .markDurable (tipAt 1)),
    (16, .markUnavailable), (17, .observeDurableTip (tipAt 1))]

def last : Observed :=
  ⟨⟨tipAt 1, 2, some (.new 10), .unavailable⟩, 17, [(2, 12), (1, 10)]⟩

theorem calls_last : Calls (fun _ => some .zero) (.opened (tipAt 0) 0) last := by
  have hRun : execute Observed.step (.opened (tipAt 0) 0) calls = some last := by decide
  refine Run.of_execute (fun timed hTimed _ tip hTip => ?_) hRun
  simp only [calls, List.mem_cons, List.not_mem_nil, or_false] at hTimed
  rcases hTimed with rfl | rfl | rfl | rfl | rfl <;> cases hTip <;> rfl

/-- The commit that is not durable is younger than the bound when the write is let through. -/
theorem second_is_young : last.state.pendingLag.isSome ∧ 18 - (2, 12).2 < 9 := by
  have hOpened : OnChain (fun _ => some .zero) (tipAt 0) := rfl
  have hHolds := accounting_holds hOpened calls_last
  exact ⟨hHolds.2.2.1.mpr (by decide),
    hHolds.2.2.2.2 9 18 (by decide) (2, 12) (by decide) Nat.one_lt_two⟩

end Sample

end Rhiza.Node.Accounting
