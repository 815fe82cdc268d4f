import Rhiza.Library.Run
import Rhiza.Node.ReadBarrier

/-! # Rounds run one after the other

Only the last round collects. A leader moves its own round, and while nobody has
cancelled it closes the round after all earlier rounds are complete.
-/

namespace Rhiza.Node

open Rhiza.Core Rhiza.Library
open Admin (OperationError Outcome)

variable {α : Type}

/-- Whether a leader has seen its predecessor complete. -/
def BarrierPhase.passed : BarrierPhase α → Bool
  | .turn => false
  | .awaiting _ => false
  | .awaitingAsleep _ => false
  | _ => true

def BarrierPhase.holdsCommit : BarrierPhase α → Bool
  | .starting => true
  | .working => true
  | _ => false

/-- The phase of a leader, and the phase of its round. -/
def Leads (round : ReadBarrierRoundPhase α) : BarrierPhase α → Prop
  | .working => round = .running
  | .publishing (.ok _) => round = .running
  | .publishing (.error _) => ∀ result, round ≠ .complete result
  | .dropping => round = .running
  | .answered result => round = .complete result
  | .terminated => round = .complete (.error leaderTerminated)
  | .waiting => False
  | .asleep => False
  | _ => round = .collecting

/-- The same of a follower. -/
def Follows (cancelled : Bool) (round : ReadBarrierRoundPhase α) : BarrierPhase α → Prop
  | .waiting => True
  | .asleep => ∀ result, round ≠ .complete result
  | .answered result =>
    round = .complete result ∨ cancelled = true ∧ result = .error barrierCancelled
  | _ => False

/-- What holds of a caller and its round. -/
structure Participates (s : BarrierSystem α) (caller : BarrierCaller α)
    (round : ReadBarrierRound α) : Prop where
  joined : caller.joinedAt ≤ s.world
  before : ∀ t, round.startedAt = some t → caller.joinedAt ≤ t ∧ t ≤ s.world
  leads : caller.leader = true → Leads round.phase caller.phase
  follows : caller.leader = false → Follows s.cancelled round.phase caller.phase
  first : caller.phase = .turn → round.predecessor = none → caller.round = 0

structure CallerInvariant (s : BarrierSystem α) (i : Nat) (caller : BarrierCaller α) : Prop where
  participates : ∃ round, s.rounds.made[caller.round]? = some round ∧ Participates s caller round
  holder : caller.phase.holdsCommit = true ↔ s.commit = some (.caller i)
  awaits : ∀ p, caller.phase = .awaiting p ∨ caller.phase = .awaitingAsleep p → p + 1 = caller.round
  asleep : ∀ p, caller.phase = .awaitingAsleep p → s.rounds.resultOf p = none
  passed : s.cancelled = false → caller.leader = true → caller.phase.passed = true →
    ∀ k, k < caller.round → s.rounds.resultOf k ≠ none

structure RoundsInvariant (rounds : ReadBarrierRounds α) : Prop where
  tail : ∀ k, rounds.tail = some k ↔ k + 1 = rounds.made.length
  predecessor : ∀ k round p, rounds.made[k]? = some round → round.predecessor = some p → p + 1 = k
  superseded : ∀ k round, rounds.made[k]? = some round → round.phase = .collecting →
    k + 1 = rounds.made.length ∧ round.startedAt = none
  running_unique : ∀ j k, rounds.phaseOf j = some .running → rounds.phaseOf k = some .running → j = k
  started : ∀ (k : Nat) (round : ReadBarrierRound α), rounds.made[k]? = some round → round.phase = .running →
    round.startedAt ≠ none

def BarrierCaller.key (caller : BarrierCaller α) : Nat × Bool := (caller.round, caller.leader)

/-- Every round has one leader. -/
structure LeadersInvariant (keys : List (Nat × Bool)) (made : Nat) : Prop where
  unique : ∀ i j k : Nat, keys[i]? = some (k, true) → keys[j]? = some (k, true) → i = j
  led : ∀ k, k < made → ∃ i : Nat, keys[i]? = some (k, true)

structure BarrierInvariant (s : BarrierSystem α) : Prop where
  rounds : RoundsInvariant s.rounds
  leaders : LeadersInvariant (s.callers.map (·.key)) s.rounds.made.length
  holder : ∀ i, s.commit = some (.caller i) → i < s.callers.length
  callers : ∀ i caller, s.callers[i]? = some caller → CallerInvariant s i caller

namespace BarrierSystem

variable {s s' : BarrierSystem α} {i j k : Nat} {caller other : BarrierCaller α}
  {round : ReadBarrierRound α} {phase : BarrierPhase α} {result : Outcome α} {event : BarrierEvent α}

/-! ## Lookups -/

theorem getElem?_setPhase (h : s.callers[i]? = some caller) (phase : BarrierPhase α) (j : Nat) :
    (s.setPhase i phase).callers[j]? =
      if j = i then some { caller with phase } else s.callers[j]? :=
  getElem?_modify_of h _ j

theorem getElem?_modify {rounds : ReadBarrierRounds α} (h : rounds.made[k]? = some round)
    (f : ReadBarrierRound α → ReadBarrierRound α) (j : Nat) :
    (rounds.modify k f).made[j]? = if j = k then some (f round) else rounds.made[j]? :=
  getElem?_modify_of h f j

theorem resultOf_eq_some {rounds : ReadBarrierRounds α} :
    rounds.resultOf k = some result ↔
      ∃ round, rounds.made[k]? = some round ∧ round.phase = .complete result := by
  unfold ReadBarrierRounds.resultOf ReadBarrierRounds.phaseOf
  cases h : rounds.made[k]? with
  | none => simp
  | some round => cases hPhase : round.phase <;> simp [hPhase]

theorem phaseOf_eq_some {rounds : ReadBarrierRounds α} {phase : ReadBarrierRoundPhase α} :
    rounds.phaseOf k = some phase ↔ ∃ round, rounds.made[k]? = some round ∧ round.phase = phase :=
  Option.map_eq_some_iff

theorem complete_open (hOpen : ∀ result, round.phase ≠ .complete result) (result : Outcome α) :
    round.complete result = { round with phase := .complete result } := by
  unfold ReadBarrierRound.complete
  split
  · rename_i found hComplete
    exact absurd hComplete (hOpen found)
  · rfl

@[simp] theorem key_notify (k : Nat) (caller : BarrierCaller α) : (caller.notify k).key = caller.key := by
  unfold BarrierCaller.notify
  split
  · split <;> rfl
  · split <;> rfl
  · rfl

@[simp] theorem length_setPhase (s : BarrierSystem α) (i : Nat) (phase : BarrierPhase α) :
    (s.setPhase i phase).callers.length = s.callers.length :=
  List.length_modify ..

theorem keys_setPhase (s : BarrierSystem α) (i : Nat) (phase : BarrierPhase α) :
    (s.setPhase i phase).callers.map (·.key) = s.callers.map (·.key) := by
  apply List.ext_getElem?
  intro j
  simp only [setPhase, List.getElem?_map, List.getElem?_modify]
  cases s.callers[j]? with
  | none => rfl
  | some caller => by_cases h : i = j <;> simp [h, BarrierCaller.key]

theorem keys_notifyAll (s : BarrierSystem α) (k : Nat) :
    (s.notifyAll k).callers.map (·.key) = s.callers.map (·.key) := by
  simp [notifyAll, Function.comp_def]

theorem getElem?_keys (h : s.callers[i]? = some caller) :
    (s.callers.map (·.key))[i]? = some (caller.round, caller.leader) := by
  rw [List.getElem?_map, h]
  rfl

/-! ## What a caller keeps -/

theorem participates_mono (h : Participates s caller round) (hWorld : s.world ≤ s'.world)
    (hCancelled : s.cancelled = true → s'.cancelled = true) : Participates s' caller round where
  joined := h.joined.trans hWorld
  before t ht := ⟨(h.before t ht).1, (h.before t ht).2.trans hWorld⟩
  leads := h.leads
  first := h.first
  follows hFollower := by
    have hHere := h.follows hFollower
    cases hPhase : caller.phase with
    | answered result =>
      rw [hPhase] at hHere
      exact hHere.imp_right fun hGone => ⟨hCancelled hGone.1, hGone.2⟩
    | waiting => trivial
    | asleep =>
      rw [hPhase] at hHere
      exact hHere
    | _ =>
      rw [hPhase] at hHere
      exact hHere.elim

theorem caller_mono (h : CallerInvariant s i caller)
    (hRound : ∀ round, s.rounds.made[caller.round]? = some round → Participates s caller round →
      ∃ round', s'.rounds.made[caller.round]? = some round' ∧ Participates s' caller round')
    (hCancelled : s.cancelled = true → s'.cancelled = true)
    (hCommit : s'.commit = some (.caller i) ↔ s.commit = some (.caller i))
    (hAsleep : ∀ p, caller.phase = .awaitingAsleep p → s.rounds.resultOf p = none →
      s'.rounds.resultOf p = none)
    (hResults : ∀ k, s.rounds.resultOf k ≠ none → s'.rounds.resultOf k ≠ none) :
    CallerInvariant s' i caller where
  participates := by
    obtain ⟨round, hMade, hHere⟩ := h.participates
    exact hRound round hMade hHere
  holder := h.holder.trans hCommit.symm
  awaits := h.awaits
  asleep p hPhase := hAsleep p hPhase (h.asleep p hPhase)
  passed hLive hLeader hPassed k hk := by
    refine hResults k (h.passed ?_ hLeader hPassed k hk)
    cases hBefore : s.cancelled with
    | false => rfl
    | true => rw [hCancelled hBefore] at hLive; cases hLive

theorem caller_of_eq (h : CallerInvariant s i caller) (hRounds : s'.rounds = s.rounds)
    (hWorld : s.world ≤ s'.world) (hCancelled : s.cancelled = true → s'.cancelled = true)
    (hCommit : s'.commit = some (.caller i) ↔ s.commit = some (.caller i)) :
    CallerInvariant s' i caller := by
  refine caller_mono h (fun round hMade hHere => ⟨round, ?_, participates_mono hHere hWorld hCancelled⟩)
    hCancelled hCommit ?_ ?_
  · rw [hRounds]; exact hMade
  · rw [hRounds]; exact fun _ _ h => h
  · rw [hRounds]; exact fun _ h => h

theorem caller_phase (h : CallerInvariant s i caller) (hMade : s.rounds.made[caller.round]? = some round)
    (hLeads : Leads round.phase caller.phase → Leads round.phase phase)
    (hFollows : Follows s.cancelled round.phase caller.phase → Follows s.cancelled round.phase phase)
    (hHolds : phase.holdsCommit = caller.phase.holdsCommit) (hFirst : phase ≠ .turn)
    (hAwaits : ∀ p, phase = .awaiting p ∨ phase = .awaitingAsleep p → p + 1 = caller.round)
    (hAsleep : ∀ p, phase = .awaitingAsleep p → s.rounds.resultOf p = none)
    (hPassed : s.cancelled = false → caller.leader = true → phase.passed = true →
      ∀ k, k < caller.round → s.rounds.resultOf k ≠ none) :
    CallerInvariant s i { caller with phase } where
  participates := by
    obtain ⟨round', hMade', hHere⟩ := h.participates
    obtain rfl := Option.some.inj (hMade'.symm.trans hMade)
    exact ⟨round', hMade, hHere.joined, hHere.before, fun hLeader => hLeads (hHere.leads hLeader),
      fun hFollower => hFollows (hHere.follows hFollower), fun hTurn => absurd hTurn hFirst⟩
  holder := by
    rw [show ({ caller with phase } : BarrierCaller α).phase = phase from rfl, hHolds]
    exact h.holder
  awaits := hAwaits
  asleep := hAsleep
  passed := hPassed

theorem caller_rouse (h : CallerInvariant s i caller) (hRouse : Rouse caller phase) :
    CallerInvariant s i { caller with phase } := by
  obtain ⟨round, hMade, hHere⟩ := h.participates
  cases hRouse with
  | awaiting p hPhase =>
    refine caller_phase h hMade ?_ ?_ ?_ ?_ ?_ ?_ ?_
    · rw [hPhase]; exact id
    · rw [hPhase]; exact id
    · rw [hPhase]; rfl
    · simp
    · intro q hq
      refine h.awaits q (.inr ?_)
      rcases hq with hq | hq <;> cases hq
      exact hPhase
    · intro q hq; cases hq
    · intro _ _ hPassed; cases hPassed
  | waiting hPhase =>
    refine caller_phase h hMade ?_ ?_ ?_ ?_ ?_ ?_ ?_
    · rw [hPhase]; exact id
    · exact fun _ => trivial
    · rw [hPhase]; rfl
    · simp
    · intro q hq; rcases hq with hq | hq <;> cases hq
    · intro q hq; cases hq
    · intro hLive hLeader _
      exact h.passed hLive hLeader (by rw [hPhase]; rfl)

theorem caller_notify (h : CallerInvariant s i caller) (k : Nat) :
    CallerInvariant s i (caller.notify k) := by
  unfold BarrierCaller.notify
  split
  · rename_i p hPhase
    split
    · exact caller_rouse h (.awaiting p hPhase)
    · exact h
  · rename_i hPhase
    split
    · exact caller_rouse h (.waiting hPhase)
    · exact h
  · exact h

theorem leader_exists (hInv : BarrierInvariant s) (hk : k < s.rounds.made.length) :
    ∃ (i : Nat) (caller : BarrierCaller α), s.callers[i]? = some caller ∧ caller.leader = true ∧
      caller.round = k := by
  obtain ⟨i, hKey⟩ := hInv.leaders.led k hk
  rw [List.getElem?_map] at hKey
  obtain ⟨caller, hCaller, hKey⟩ := Option.map_eq_some_iff.mp hKey
  obtain ⟨hRound, hLeader⟩ := Prod.mk.inj hKey
  exact ⟨i, caller, hCaller, hLeader, hRound⟩

theorem complete_earlier (hInv : BarrierInvariant s) (hLive : s.cancelled = false)
    (h : s.rounds.resultOf k = some result) (hj : j < k) : s.rounds.resultOf j ≠ none := by
  obtain ⟨round, hMade, hComplete⟩ := resultOf_eq_some.mp h
  obtain ⟨hk, -⟩ := List.getElem?_eq_some_iff.mp hMade
  obtain ⟨i, caller, hCaller, hLeader, rfl⟩ := leader_exists hInv hk
  have hHere := hInv.callers i caller hCaller
  obtain ⟨round', hMade', hParticipates⟩ := hHere.participates
  obtain rfl := Option.some.inj (hMade'.symm.trans hMade)
  refine hHere.passed hLive hLeader ?_ j hj
  have hLeads := hParticipates.leads hLeader
  rw [hComplete] at hLeads
  cases hPhase : caller.phase <;> rw [hPhase] at hLeads <;> first | rfl | cases hLeads

theorem caller_move (hInv : BarrierInvariant s) (hCaller : s.callers[i]? = some caller)
    (hMade : s.rounds.made[caller.round]? = some round) (hMove : Move s caller round phase) :
    CallerInvariant s i { caller with phase } := by
  have h := hInv.callers i caller hCaller
  have hPassed : caller.phase.passed = true → s.cancelled = false → caller.leader = true →
      phase.passed = true → ∀ k, k < caller.round → s.rounds.resultOf k ≠ none :=
    fun hPassed hLive hLeader _ => h.passed hLive hLeader hPassed
  cases hMove with
  | first hPhase hNone =>
    obtain ⟨round', hMade', hHere⟩ := h.participates
    obtain rfl := Option.some.inj (hMade'.symm.trans hMade)
    refine caller_phase h hMade (by rw [hPhase]; exact id) (by rw [hPhase]; exact id)
      (by rw [hPhase]; rfl) (by simp) (by simp) (by simp) fun _ _ _ k hk => ?_
    rw [hHere.first hPhase hNone] at hk
    exact absurd hk (Nat.not_lt_zero k)
  | await p hPhase hSome =>
    refine caller_phase h hMade (by rw [hPhase]; exact id) (by rw [hPhase]; exact id)
      (by rw [hPhase]; rfl) (by simp) ?_ (by simp) (by simp [BarrierPhase.passed])
    intro q hq
    rcases hq with hq | hq
    · cases hq
      exact hInv.rounds.predecessor _ round _ hMade hSome
    · cases hq
  | passed p result hPhase hResult =>
    refine caller_phase h hMade (by rw [hPhase]; exact id) (by rw [hPhase]; exact id)
      (by rw [hPhase]; rfl) (by simp) (by simp) (by simp) fun hLive _ _ k hk => ?_
    have hNext := h.awaits p (.inl hPhase)
    rcases Nat.lt_or_ge k p with hLess | hMore
    · exact complete_earlier hInv hLive hResult hLess
    · obtain rfl : k = p := by omega
      rw [hResult]
      exact Option.some_ne_none _
  | awaits p hPhase hResult hLive =>
    refine caller_phase h hMade (by rw [hPhase]; exact id) (by rw [hPhase]; exact id)
      (by rw [hPhase]; rfl) (by simp) ?_ ?_ (by simp [BarrierPhase.passed])
    · intro q hq
      rcases hq with hq | hq
      · cases hq
      · cases hq
        exact h.awaits p (.inl hPhase)
    · intro q hq
      cases hq
      exact hResult
  | gaveUp hPhase hCancelled =>
    refine caller_phase h hMade ?_ ?_ ?_ (by simp) (by simp) (by simp) (by simp [hCancelled])
    · rcases hPhase with ⟨p, hPhase⟩ | hPhase <;> rw [hPhase] <;> rintro (hRound : _ = _) result <;>
        rw [hRound] <;> simp
    · rcases hPhase with ⟨p, hPhase⟩ | hPhase <;> rw [hPhase] <;> exact id
    · rcases hPhase with ⟨p, hPhase⟩ | hPhase <;> rw [hPhase] <;> rfl
  | early hPhase hRound =>
    refine caller_phase h hMade ?_ (by rw [hPhase]; exact id)
      (by rw [hPhase]; rfl) (by simp) (by simp) (by simp) (hPassed (by rw [hPhase]; rfl))
    rw [hPhase]
    exact fun hCollecting => absurd hCollecting hRound
  | due hPhase hRound hLive =>
    exact caller_phase h hMade (by rw [hPhase]; exact id) (by rw [hPhase]; exact id)
      (by rw [hPhase]; rfl) (by simp) (by simp) (by simp) (hPassed (by rw [hPhase]; rfl))
  | poisoned hPhase =>
    refine caller_phase h hMade ?_ (by rw [hPhase]; exact id)
      (by rw [hPhase]; rfl) (by simp) (by simp) (by simp) (hPassed (by rw [hPhase]; rfl))
    rw [hPhase]
    rintro (hRound : _ = _) result
    rw [hRound]
    simp
  | found result hPhase hRound =>
    exact caller_phase h hMade (by rw [hPhase]; exact False.elim) (fun _ => .inl hRound)
      (by rw [hPhase]; rfl) (by simp) (by simp) (by simp) (hPassed (by rw [hPhase]; rfl))
  | abandoned hPhase hCancelled =>
    exact caller_phase h hMade (by rw [hPhase]; exact False.elim) (fun _ => .inr ⟨hCancelled, rfl⟩)
      (by rw [hPhase]; rfl) (by simp) (by simp) (by simp) (hPassed (by rw [hPhase]; rfl))
  | sleep hPhase hRound hLive =>
    exact caller_phase h hMade (by rw [hPhase]; exact False.elim) (fun _ => hRound)
      (by rw [hPhase]; rfl) (by simp) (by simp) (by simp) (hPassed (by rw [hPhase]; rfl))

/-! ## What a step keeps -/

theorem setPhase_invariant (hInv : BarrierInvariant s) (h : s.callers[i]? = some caller)
    (hCaller : CallerInvariant s i { caller with phase }) : BarrierInvariant (s.setPhase i phase) where
  rounds := hInv.rounds
  leaders := by
    rw [keys_setPhase]
    exact hInv.leaders
  holder j hj := by
    rw [length_setPhase]
    exact hInv.holder j hj
  callers j other hOther := by
    rw [getElem?_setPhase h] at hOther
    split at hOther
    · rename_i hj
      subst hj
      obtain rfl := Option.some.inj hOther
      exact caller_of_eq hCaller rfl le_rfl id Iff.rfl
    · exact caller_of_eq (hInv.callers j other hOther) rfl le_rfl id Iff.rfl

theorem leader_unique (hInv : BarrierInvariant s) (h : s.callers[i]? = some caller)
    (hOther : s.callers[j]? = some other) (hLeader : caller.leader = true)
    (hLeader' : other.leader = true) (hRound : other.round = caller.round) : j = i := by
  refine hInv.leaders.unique j i caller.round ?_ ?_
  · rw [getElem?_keys hOther, hLeader', hRound]
  · rw [getElem?_keys h, hLeader]

theorem made_modify (rounds : ReadBarrierRounds α) (k : Nat)
    (f : ReadBarrierRound α → ReadBarrierRound α) :
    (rounds.modify k f).made.length = rounds.made.length := by
  simp [ReadBarrierRounds.modify]

theorem resultOf_modify {rounds : ReadBarrierRounds α} (hMade : rounds.made[k]? = some round)
    {f : ReadBarrierRound α → ReadBarrierRound α}
    (hResult : ∀ result, round.phase = .complete result → (f round).phase = .complete result)
    (j : Nat) (h : rounds.resultOf j ≠ none) : (rounds.modify k f).resultOf j ≠ none := by
  obtain ⟨result, h⟩ := Option.ne_none_iff_exists'.mp h
  obtain ⟨found, hFound, hComplete⟩ := resultOf_eq_some.mp h
  refine Option.ne_none_iff_exists'.mpr ⟨result, resultOf_eq_some.mpr ?_⟩
  rw [getElem?_modify hMade]
  split
  · rename_i hj
    subst hj
    obtain rfl := Option.some.inj (hFound.symm.trans hMade)
    exact ⟨_, rfl, hResult result hComplete⟩
  · exact ⟨found, hFound, hComplete⟩

theorem rounds_modify {rounds : ReadBarrierRounds α} (h : RoundsInvariant rounds)
    (hMade : rounds.made[k]? = some round) {f : ReadBarrierRound α → ReadBarrierRound α}
    (hPredecessor : ∀ p, (f round).predecessor = some p → round.predecessor = some p)
    (hCollecting : (f round).phase = .collecting →
      round.phase = .collecting ∧ (f round).startedAt = round.startedAt)
    (hRunning : (f round).phase = .running →
      round.phase = .running ∨ ∀ j, rounds.phaseOf j ≠ some .running)
    (hStarted : (f round).phase = .running →
      (f round).startedAt ≠ none ∨ round.phase = .running ∧ (f round).startedAt = round.startedAt) :
    RoundsInvariant (rounds.modify k f) where
  tail j := by
    rw [made_modify]
    exact h.tail j
  predecessor j found p hFound hSome := by
    rw [getElem?_modify hMade] at hFound
    split at hFound
    · rename_i hj
      subst hj
      obtain rfl := Option.some.inj hFound
      exact h.predecessor j round p hMade (hPredecessor p hSome)
    · exact h.predecessor j found p hFound hSome
  superseded j found hFound hPhase := by
    rw [made_modify]
    rw [getElem?_modify hMade] at hFound
    split at hFound
    · rename_i hj
      subst hj
      obtain rfl := Option.some.inj hFound
      obtain ⟨hPhase, hStarted⟩ := hCollecting hPhase
      exact ⟨(h.superseded j round hMade hPhase).1,
        hStarted.trans (h.superseded j round hMade hPhase).2⟩
    · exact h.superseded j found hFound hPhase
  started j found hFound hPhase := by
    rw [getElem?_modify hMade] at hFound
    split at hFound
    · obtain rfl := Option.some.inj hFound
      rcases hStarted hPhase with hSome | ⟨hBefore, hSame⟩
      · exact hSome
      · rw [hSame]
        exact h.started k round hMade hBefore
    · exact h.started j found hFound hPhase
  running_unique j l hj hl := by
    obtain ⟨found, hFound, hPhase⟩ := phaseOf_eq_some.mp hj
    obtain ⟨found', hFound', hPhase'⟩ := phaseOf_eq_some.mp hl
    rw [getElem?_modify hMade] at hFound hFound'
    by_cases hjk : j = k
    · by_cases hlk : l = k
      · exact hjk.trans hlk.symm
      · rw [if_pos hjk] at hFound
        rw [if_neg hlk] at hFound'
        obtain rfl := Option.some.inj hFound
        have hRuns := phaseOf_eq_some.mpr ⟨found', hFound', hPhase'⟩
        rcases hRunning hPhase with hHere | hNone
        · rw [hjk]
          exact h.running_unique k l (phaseOf_eq_some.mpr ⟨round, hMade, hHere⟩) hRuns
        · exact absurd hRuns (hNone l)
    · rw [if_neg hjk] at hFound
      have hRuns := phaseOf_eq_some.mpr ⟨found, hFound, hPhase⟩
      by_cases hlk : l = k
      · rw [if_pos hlk] at hFound'
        obtain rfl := Option.some.inj hFound'
        rcases hRunning hPhase' with hHere | hNone
        · rw [hlk]
          exact h.running_unique j k hRuns (phaseOf_eq_some.mpr ⟨round, hMade, hHere⟩)
        · exact absurd hRuns (hNone j)
      · rw [if_neg hlk] at hFound'
        exact h.running_unique j l hRuns (phaseOf_eq_some.mpr ⟨found', hFound', hPhase'⟩)

theorem caller_modify (h : CallerInvariant s j other) (hMade : s.rounds.made[k]? = some round)
    {f : ReadBarrierRound α → ReadBarrierRound α} (hRounds : s'.rounds = s.rounds.modify k f)
    (hWorld : s'.world = s.world) (hCancelled : s'.cancelled = s.cancelled)
    (hCommit : s'.commit = s.commit)
    (hResult : ∀ result, round.phase = .complete result → (f round).phase = .complete result)
    (hHere : other.round = k → Participates s other round → Participates s other (f round))
    (hAsleep : other.phase = .awaitingAsleep k → ∀ result, (f round).phase ≠ .complete result) :
    CallerInvariant s' j other := by
  refine caller_mono h ?_ (by rw [hCancelled]; exact id) (by rw [hCommit]) ?_ ?_
  · intro found hFound hParticipates
    have hMono : ∀ {round}, Participates s other round → Participates s' other round :=
      fun h => participates_mono h (Nat.le_of_eq hWorld.symm) (by rw [hCancelled]; exact id)
    rw [hRounds, getElem?_modify hMade]
    split
    · rename_i hj
      rw [hj] at hFound
      obtain rfl := Option.some.inj (hFound.symm.trans hMade)
      exact ⟨_, rfl, hMono (hHere hj hParticipates)⟩
    · exact ⟨found, hFound, hMono hParticipates⟩
  · intro p hPhase hNone
    rw [hRounds]
    cases hSome : (s.rounds.modify k f).resultOf p with
    | none => rfl
    | some result =>
      obtain ⟨found, hFound, hComplete⟩ := resultOf_eq_some.mp hSome
      rw [getElem?_modify hMade] at hFound
      split at hFound
      · rename_i hp
        subst hp
        obtain rfl := Option.some.inj hFound
        exact absurd hComplete (hAsleep hPhase result)
      · exact absurd (resultOf_eq_some.mpr ⟨found, hFound, hComplete⟩) (by rw [hNone]; simp)
  · intro l hl
    rw [hRounds]
    exact resultOf_modify hMade hResult l hl

theorem leader_of_phase (hInv : BarrierInvariant s) (h : s.callers[i]? = some caller)
    (hMade : s.rounds.made[caller.round]? = some round)
    (hPhase : ¬ Follows s.cancelled round.phase caller.phase) :
    caller.leader = true ∧ Participates s caller round ∧ Leads round.phase caller.phase := by
  obtain ⟨round', hMade', hHere⟩ := (hInv.callers i caller h).participates
  obtain rfl := Option.some.inj (hMade'.symm.trans hMade)
  cases hLeader : caller.leader with
  | false => exact absurd (hHere.follows hLeader) hPhase
  | true => exact ⟨rfl, hHere, hHere.leads hLeader⟩

theorem took_invariant (hInv : BarrierInvariant s) (h : s.callers[i]? = some caller)
    (hPhase : caller.phase = .taking) :
    BarrierInvariant ({ s with
      rounds := s.rounds.modify caller.round fun round =>
        { round with predecessor := none } }.setPhase i .collecting) := by
  obtain ⟨round, hMade, -⟩ := (hInv.callers i caller h).participates
  obtain ⟨hLeader, hHere, hLeads⟩ :=
    leader_of_phase hInv h hMade (by rw [hPhase]; exact id)
  rw [hPhase] at hLeads
  constructor
  · exact rounds_modify hInv.rounds hMade (fun p hp => by cases hp) (fun hp => ⟨hp, rfl⟩) .inl
      fun hp => .inr ⟨hp, rfl⟩
  · rw [keys_setPhase]
    exact (made_modify s.rounds caller.round _).symm ▸ hInv.leaders
  · rw [length_setPhase]
    exact hInv.holder
  · intro j other hOther
    replace hOther := (getElem?_setPhase h .collecting j).symm.trans hOther
    split at hOther
    · rename_i hj
      subst hj
      obtain rfl := Option.some.inj hOther
      have hTaken : CallerInvariant s j { caller with phase := .collecting } := by
        refine caller_phase (hInv.callers j caller h) hMade (fun _ => hLeads) ?_ ?_ (by simp)
          (by simp) (by simp) fun hLive hLeader _ => ?_
        · rw [hPhase]; exact id
        · rw [hPhase]; rfl
        · exact (hInv.callers j caller h).passed hLive hLeader (by rw [hPhase]; rfl)
      exact caller_modify hTaken hMade rfl rfl rfl rfl (fun _ => id)
        (fun _ hThere => ⟨hThere.joined, hThere.before, hThere.leads, hThere.follows,
          fun hTurn => by cases hTurn⟩)
        (fun hAsleep => by cases hAsleep)
    · rename_i hj
      refine caller_modify (hInv.callers j other hOther) hMade rfl rfl rfl rfl (fun _ => id) ?_ ?_
      · intro hRound hThere
        refine ⟨hThere.joined, hThere.before, hThere.leads, hThere.follows, fun hTurn _ => ?_⟩
        cases hOtherLeader : other.leader with
        | true => exact absurd (leader_unique hInv h hOther hLeader hOtherLeader hRound) hj
        | false =>
          have hFollows := hThere.follows hOtherLeader
          rw [hTurn] at hFollows
          exact hFollows.elim
      · intro _ result hComplete
        cases hLeads.symm.trans hComplete

theorem locked_invariant (hInv : BarrierInvariant s) (h : s.callers[i]? = some caller)
    (hPhase : caller.phase = .locking) (hFree : s.commit = none) :
    BarrierInvariant { s.setPhase i .starting with commit := some (.caller i) } := by
  constructor
  · exact hInv.rounds
  · exact (keys_setPhase s i .starting).symm ▸ hInv.leaders
  · intro j hj
    cases hj
    rw [length_setPhase]
    exact (List.getElem?_eq_some_iff.mp h).1
  · intro j other hOther
    replace hOther := (getElem?_setPhase h .starting j).symm.trans hOther
    split at hOther
    · rename_i hj
      subst hj
      obtain rfl := Option.some.inj hOther
      have hHere := hInv.callers j caller h
      obtain ⟨round, hMade, hParticipates⟩ := hHere.participates
      constructor
      · refine ⟨round, hMade, hParticipates.joined, hParticipates.before, ?_, ?_, by simp⟩
        · intro hLeader
          have hLeads := hParticipates.leads hLeader
          rw [hPhase] at hLeads
          exact hLeads
        · intro hFollower
          have hFollows := hParticipates.follows hFollower
          rw [hPhase] at hFollows
          exact hFollows
      · exact ⟨fun _ => rfl, fun _ => rfl⟩
      · simp
      · simp
      · exact fun hLive hLeader _ => hHere.passed hLive hLeader (by rw [hPhase]; rfl)
    · rename_i hj
      refine caller_mono (hInv.callers j other hOther)
        (fun round hMade hParticipates => ⟨round, hMade, participates_mono hParticipates le_rfl id⟩)
        id ?_ (fun _ _ => id) (fun _ => id)
      constructor
      · intro hCommit
        cases hCommit
        exact absurd rfl hj
      · intro hCommit
        rw [hFree] at hCommit
        cases hCommit

theorem released_invariant (hInv : BarrierInvariant s) (h : s.callers[i]? = some caller)
    (hRelease : Release caller phase) (poisoned : Bool) :
    BarrierInvariant { s.setPhase i phase with commit := none, poisoned } := by
  have hHere := hInv.callers i caller h
  obtain ⟨round, hMade, hParticipates⟩ := hHere.participates
  have hHolds : caller.phase.holdsCommit = true := by
    cases hRelease with
    | refused error hPhase => rw [hPhase]; rfl
    | finished result hPhase => rw [hPhase]; rfl
    | unwound hPhase => rw [hPhase]; rfl
  constructor
  · exact hInv.rounds
  · exact (keys_setPhase s i phase).symm ▸ hInv.leaders
  · intro j hj
    cases hj
  · intro j other hOther
    replace hOther := (getElem?_setPhase h phase j).symm.trans hOther
    split at hOther
    · rename_i hj
      subst hj
      obtain rfl := Option.some.inj hOther
      have hPassed : caller.phase.passed = true := by
        cases hPhase : caller.phase <;> rw [hPhase] at hHolds <;> first | rfl | cases hHolds
      constructor
      · refine ⟨round, hMade, hParticipates.joined, hParticipates.before, ?_, ?_, ?_⟩
        · intro hLeader
          have hLeads := hParticipates.leads hLeader
          cases hRelease with
          | refused error hPhase =>
            rw [hPhase] at hLeads
            intro result
            rw [show round.phase = .collecting from hLeads]
            simp
          | finished result hPhase =>
            rw [hPhase] at hLeads
            cases result with
            | ok a => exact hLeads
            | error error =>
              intro result
              rw [show round.phase = .running from hLeads]
              simp
          | unwound hPhase =>
            rw [hPhase] at hLeads
            exact hLeads
        · intro hFollower
          have hFollows := hParticipates.follows hFollower
          cases hRelease <;> rename_i hPhase <;> rw [hPhase] at hFollows <;> exact hFollows.elim
        · cases hRelease <;> simp
      · cases hRelease <;> simp [BarrierPhase.holdsCommit]
      · cases hRelease <;> simp
      · cases hRelease <;> simp
      · exact fun hLive hLeader _ => hHere.passed hLive hLeader hPassed
    · rename_i hj
      refine caller_mono (hInv.callers j other hOther)
        (fun round hMade hParticipates => ⟨round, hMade, participates_mono hParticipates le_rfl id⟩)
        id ?_ (fun _ _ => id) (fun _ => id)
      constructor
      · intro hCommit
        cases hCommit
      · intro hCommit
        have hHolder := hHere.holder.mp hHolds
        rw [hCommit] at hHolder
        cases hHolder
        exact absurd rfl hj

theorem started_invariant (hInv : BarrierInvariant s) (h : s.callers[i]? = some caller)
    (hPhase : caller.phase = .starting) (hLive : s.cancelled = false) :
    BarrierInvariant ({ s with
      rounds := s.rounds.modify caller.round fun round =>
        { round with phase := .running, startedAt := some s.world } }.setPhase i .working) := by
  have hCaller := hInv.callers i caller h
  obtain ⟨round, hMade, -⟩ := hCaller.participates
  obtain ⟨hLeader, hHere, hLeads⟩ := leader_of_phase hInv h hMade (by rw [hPhase]; exact id)
  rw [hPhase] at hLeads
  replace hLeads : round.phase = .collecting := hLeads
  have hPassed := hCaller.passed hLive hLeader (by rw [hPhase]; rfl)
  obtain ⟨hLast, -⟩ := hInv.rounds.superseded _ round hMade hLeads
  -- every earlier round is complete and this one is the last
  have hNone : ∀ j, s.rounds.phaseOf j ≠ some .running := by
    intro j hj
    obtain ⟨found, hFound, hRunning⟩ := phaseOf_eq_some.mp hj
    obtain ⟨hLess, -⟩ := List.getElem?_eq_some_iff.mp hFound
    rcases Nat.lt_or_ge j caller.round with hBefore | hNot
    · obtain ⟨result, hResult⟩ := Option.ne_none_iff_exists'.mp (hPassed j hBefore)
      obtain ⟨found', hFound', hComplete⟩ := resultOf_eq_some.mp hResult
      obtain rfl := Option.some.inj (hFound'.symm.trans hFound)
      cases hRunning.symm.trans hComplete
    · obtain rfl : j = caller.round := by omega
      obtain rfl := Option.some.inj (hFound.symm.trans hMade)
      cases hRunning.symm.trans hLeads
  have hResult : ∀ result, round.phase = .complete result →
      (ReadBarrierRoundPhase.running : ReadBarrierRoundPhase α) = .complete result :=
    fun result hComplete => by cases hLeads.symm.trans hComplete
  constructor
  · exact rounds_modify hInv.rounds hMade (fun _ => id) (fun hp => by cases hp) (fun _ => .inr hNone)
      fun _ => .inl (by simp)
  · rw [keys_setPhase]
    exact (made_modify s.rounds caller.round _).symm ▸ hInv.leaders
  · rw [length_setPhase]
    exact hInv.holder
  · intro j other hOther
    replace hOther := (getElem?_setPhase h .working j).symm.trans hOther
    split at hOther
    · rename_i hj
      subst hj
      obtain rfl := Option.some.inj hOther
      constructor
      · refine ⟨_, (getElem?_modify hMade _ caller.round).trans (if_pos rfl), ?_⟩
        refine ⟨hHere.joined, ?_, fun _ => rfl, ?_, by simp⟩
        · intro t ht
          obtain rfl := Option.some.inj ht
          exact ⟨hHere.joined, le_rfl⟩
        · intro hFollower
          exact absurd (hLeader.symm.trans hFollower) Bool.true_eq_false.mp
      · exact ⟨fun _ => hCaller.holder.mp (by rw [hPhase]; rfl), fun _ => rfl⟩
      · simp
      · simp
      · exact fun _ _ _ k hk => resultOf_modify hMade hResult k (hPassed k hk)
    · rename_i hj
      refine caller_modify (hInv.callers j other hOther) hMade rfl rfl rfl rfl hResult ?_ ?_
      · intro hRound hThere
        have hFollower : other.leader = false := by
          cases hOtherLeader : other.leader with
          | true => exact absurd (leader_unique hInv h hOther hLeader hOtherLeader hRound) hj
          | false => rfl
        have hFollows := hThere.follows hFollower
        constructor
        · exact hThere.joined
        · intro t ht
          obtain rfl := Option.some.inj ht
          exact ⟨hThere.joined, le_rfl⟩
        · intro hOtherLeader
          exact absurd (hOtherLeader.symm.trans hFollower) Bool.true_eq_false.mp
        · intro _
          cases hThere : other.phase with
          | waiting => trivial
          | asleep => exact fun result hComplete => by cases hComplete
          | answered result =>
            rw [hThere] at hFollows
            rcases hFollows with hComplete | hGone
            · cases hLeads.symm.trans hComplete
            · exact .inr hGone
          | _ =>
            rw [hThere] at hFollows
            exact hFollows.elim
        · intro hTurn
          rw [hTurn] at hFollows
          exact hFollows.elim
      · exact fun _ result hComplete => by cases hComplete

theorem notify_awake (k : Nat) (caller : BarrierCaller α) :
    (caller.notify k).phase ≠ .awaitingAsleep k ∧
      ((caller.notify k).phase = .asleep → (caller.notify k).round ≠ k) := by
  unfold BarrierCaller.notify
  split
  · rename_i p hPhase
    split
    · simp
    · rename_i hp
      constructor
      · intro hAsleep
        cases hPhase.symm.trans hAsleep
        exact hp rfl
      · intro hAsleep
        cases hPhase.symm.trans hAsleep
  · rename_i hPhase
    split
    · simp
    · rename_i hk
      constructor
      · intro hAsleep
        cases hPhase.symm.trans hAsleep
      · exact fun _ => hk
  · rename_i hNotAwaiting hNotAsleep
    exact ⟨hNotAwaiting k, fun hAsleep => absurd hAsleep hNotAsleep⟩

theorem completed_invariant (hInv : BarrierInvariant s) (h : s.callers[i]? = some caller)
    (hCompletion : Completion caller result phase) :
    BarrierInvariant (s.complete i caller.round result phase) := by
  have hCaller := hInv.callers i caller h
  obtain ⟨round, hMade, -⟩ := hCaller.participates
  obtain ⟨hLeader, hHere, hLeads⟩ := leader_of_phase hInv h hMade (by
    cases hCompletion with
    | published result hPhase => rw [hPhase]; exact id
    | dropped hPhase => rw [hPhase]; exact id)
  have hOpen : ∀ result, round.phase ≠ .complete result := by
    intro found hComplete
    cases hCompletion with
    | published result hPhase =>
      rw [hPhase, hComplete] at hLeads
      cases result with
      | ok a => cases hLeads
      | error error => exact hLeads found rfl
    | dropped hPhase =>
      rw [hPhase, hComplete] at hLeads
      cases hLeads
  have hDone := complete_open hOpen result
  have hResult : ∀ found, round.phase = .complete found →
      (round.complete result).phase = .complete found :=
    fun found hComplete => absurd hComplete (hOpen found)
  have hNotified : (s.notifyAll caller.round).callers[i]? = some caller := by
    rw [notifyAll, List.getElem?_map, h, Option.map_some]
    congr 1
    unfold BarrierCaller.notify
    cases hCompletion with
    | published result hPhase => rw [hPhase]
    | dropped hPhase => rw [hPhase]
  constructor
  · refine rounds_modify hInv.rounds hMade ?_ ?_ ?_ ?_
    · exact fun p hp => by rw [hDone] at hp; exact hp
    · exact fun hp => by rw [hDone] at hp; cases hp
    · exact fun hp => by rw [hDone] at hp; cases hp
    · exact fun hp => by rw [hDone] at hp; cases hp
  · rw [complete, keys_setPhase, keys_notifyAll]
    exact (made_modify s.rounds caller.round _).symm ▸ hInv.leaders
  · rw [complete, length_setPhase, notifyAll, List.length_map]
    exact hInv.holder
  · intro j other hOther
    replace hOther := (getElem?_setPhase hNotified phase j).symm.trans hOther
    split at hOther
    · rename_i hj
      subst hj
      obtain rfl := Option.some.inj hOther
      have hIdle : s.commit ≠ some (.caller j) := by
        intro hCommit
        have hHolds := hCaller.holder.mpr hCommit
        cases hCompletion <;> rename_i hPhase <;> rw [hPhase] at hHolds <;> cases hHolds
      have hPassed : caller.phase.passed = true := by
        cases hCompletion <;> rename_i hPhase <;> rw [hPhase] <;> rfl
      constructor
      · refine ⟨_, (getElem?_modify hMade _ caller.round).trans (if_pos rfl), ?_⟩
        rw [hDone]
        refine ⟨hHere.joined, hHere.before, fun _ => ?_, fun hFollower => ?_, ?_⟩
        · cases hCompletion with
          | published result hPhase => exact rfl
          | dropped hPhase => exact rfl
        · exact absurd (hLeader.symm.trans hFollower) Bool.true_eq_false.mp
        · cases hCompletion <;> simp
      · constructor
        · intro hHolds
          cases hCompletion <;> cases hHolds
        · exact fun hCommit => absurd hCommit hIdle
      · cases hCompletion <;> simp
      · cases hCompletion <;> simp
      · exact fun hLive _ _ k hk =>
          resultOf_modify hMade hResult k (hCaller.passed hLive hLeader hPassed k hk)
    · rename_i hj
      rw [notifyAll, List.getElem?_map] at hOther
      obtain ⟨before, hBefore, rfl⟩ := Option.map_eq_some_iff.mp hOther
      obtain ⟨hAwake, hWoken⟩ := notify_awake caller.round before
      refine caller_modify (caller_notify (hInv.callers j before hBefore) caller.round) hMade
        rfl rfl rfl rfl hResult ?_ ?_
      · intro hRound hThere
        have hKey := key_notify caller.round before
        have hFollower : (before.notify caller.round).leader = false := by
          cases hOtherLeader : (before.notify caller.round).leader with
          | true =>
            refine absurd (leader_unique hInv h hBefore hLeader ?_ ?_) hj
            · rw [← hOtherLeader]
              exact (Prod.mk.inj hKey).2.symm
            · rw [← hRound]
              exact (Prod.mk.inj hKey).1.symm
          | false => rfl
        have hFollows := hThere.follows hFollower
        rw [hDone]
        refine ⟨hThere.joined, hThere.before, fun hOtherLeader => ?_, fun _ => ?_, fun hTurn => ?_⟩
        · exact absurd (hOtherLeader.symm.trans hFollower) Bool.true_eq_false.mp
        · cases hThere : (before.notify caller.round).phase with
          | waiting => trivial
          | asleep => exact absurd hRound (hWoken hThere)
          | answered found =>
            rw [hThere] at hFollows
            exact hFollows.imp_left fun hComplete => absurd hComplete (hOpen found)
          | _ =>
            rw [hThere] at hFollows
            exact hFollows.elim
        · rw [hTurn] at hFollows
          exact hFollows.elim
      · exact fun hAsleep => absurd hAsleep hAwake

theorem joined_invariant (hInv : BarrierInvariant s) (hTail : s.rounds.tail = some k)
    (hCollecting : s.rounds.isCollecting k = true) :
    BarrierInvariant { s with callers := s.callers ++ [⟨k, false, s.world, .waiting⟩] } := by
  have hLast := (hInv.rounds.tail k).mp hTail
  constructor
  · exact hInv.rounds
  · rw [List.map_append]
    constructor
    · intro i j l hi hj
      rw [List.map_singleton, getElem?_concat] at hi hj
      split at hi
      · cases hi
      · split at hj
        · cases hj
        · exact hInv.leaders.unique i j l hi hj
    · intro l hl
      obtain ⟨i, hi⟩ := hInv.leaders.led l hl
      refine ⟨i, ?_⟩
      obtain ⟨hLess, -⟩ := List.getElem?_eq_some_iff.mp hi
      rw [List.getElem?_append_left hLess]
      exact hi
  · intro i hi
    rw [List.length_append]
    exact Nat.lt_add_right _ (hInv.holder i hi)
  · intro j other hOther
    rw [getElem?_concat] at hOther
    split at hOther
    · rename_i hj
      obtain rfl := Option.some.inj hOther
      have hk : k < s.rounds.made.length := by omega
      have hMade := List.getElem?_eq_getElem hk
      have hPhase : s.rounds.made[k].phase = .collecting := by
        unfold ReadBarrierRounds.isCollecting ReadBarrierRounds.phaseOf at hCollecting
        rw [hMade, Option.map_some] at hCollecting
        split at hCollecting
        · rename_i hPhase
          exact Option.some.inj hPhase
        · cases hCollecting
      constructor
      · refine ⟨_, hMade, le_rfl, ?_, fun hLeader => (by cases hLeader), fun _ => trivial, by simp⟩
        intro t ht
        rw [(hInv.rounds.superseded k _ hMade hPhase).2] at ht
        cases ht
      · constructor
        · intro hHolds
          cases hHolds
        · intro hCommit
          exact absurd (hInv.holder j hCommit) (by omega)
      · simp
      · simp
      · exact fun _ hLeader => by cases hLeader
    · exact caller_of_eq (hInv.callers j other hOther) rfl le_rfl id Iff.rfl

theorem opened_rounds {rounds : ReadBarrierRounds α} (h : RoundsInvariant rounds)
    (generation deadline : Nat) (hTail : ∀ k, rounds.tail = some k → rounds.isCollecting k = false) :
    RoundsInvariant { rounds with
      nextGeneration := generation
      tail := some rounds.made.length
      made := rounds.made ++ [⟨deadline, rounds.tail, .collecting, none⟩] } := by
  constructor
  · intro k
    rw [List.length_append, List.length_singleton]
    constructor
    · intro hk
      cases hk
      rfl
    · intro hk
      rw [Nat.add_right_cancel hk]
  · intro k round p hRound hPredecessor
    rw [getElem?_concat] at hRound
    split at hRound
    · rename_i hk
      obtain rfl := Option.some.inj hRound
      rw [hk]
      exact (h.tail p).mp hPredecessor
    · exact h.predecessor k round p hRound hPredecessor
  · intro k round hRound hCollecting
    rw [getElem?_concat] at hRound
    split at hRound
    · rename_i hk
      obtain rfl := Option.some.inj hRound
      rw [hk, List.length_append]
      exact ⟨rfl, rfl⟩
    · obtain ⟨hLast, -⟩ := h.superseded k round hRound hCollecting
      have hOpen := hTail k ((h.tail k).mpr hLast)
      unfold ReadBarrierRounds.isCollecting ReadBarrierRounds.phaseOf at hOpen
      rw [hRound, Option.map_some, hCollecting] at hOpen
      cases hOpen
  · have hBefore : ∀ j, ((rounds.made ++
        [(⟨deadline, rounds.tail, .collecting, none⟩ : ReadBarrierRound α)])[j]?.map (·.phase)) =
          some .running → rounds.phaseOf j = some .running := by
      intro j hj
      rw [getElem?_concat] at hj
      split at hj
      · cases hj
      · exact hj
    exact fun j k hj hk => h.running_unique j k (hBefore j hj) (hBefore k hk)
  · intro k round hRound hRunning
    rw [getElem?_concat] at hRound
    split at hRound
    · obtain rfl := Option.some.inj hRound
      cases hRunning
    · exact h.started k round hRound hRunning

theorem opened_leaders {keys : List (Nat × Bool)} {made : Nat} (h : LeadersInvariant keys made)
    (hKeys : ∀ j k : Nat, keys[j]? = some (k, true) → k < made) :
    LeadersInvariant (keys ++ [(made, true)]) (made + 1) := by
  constructor
  · intro i j k hi hj
    rw [getElem?_concat] at hi hj
    split at hi
    · rename_i hLast
      cases hi
      split at hj
      · rename_i hLast'
        exact hLast.trans hLast'.symm
      · exact absurd (hKeys j _ hj) (Nat.lt_irrefl _)
    · split at hj
      · cases hj
        exact absurd (hKeys i _ hi) (Nat.lt_irrefl _)
      · exact h.unique i j k hi hj
  · intro k hk
    rcases Nat.lt_succ_iff_lt_or_eq.mp hk with hLess | rfl
    · obtain ⟨i, hi⟩ := h.led k hLess
      refine ⟨i, ?_⟩
      obtain ⟨hLess, -⟩ := List.getElem?_eq_some_iff.mp hi
      rw [List.getElem?_append_left hLess]
      exact hi
    · exact ⟨keys.length, List.getElem?_concat_length⟩

theorem complete_concat {made : List (ReadBarrierRound α)} {deadline : Nat} {tail : Option Nat}
    (k : Nat) (result : Outcome α) :
    (∃ round, (made ++ [(⟨deadline, tail, .collecting, none⟩ : ReadBarrierRound α)])[k]? =
        some round ∧ round.phase = .complete result) ↔
      ∃ round, made[k]? = some round ∧ round.phase = .complete result := by
  constructor
  · rintro ⟨round, hRound, hComplete⟩
    rw [getElem?_concat] at hRound
    split at hRound
    · cases hRound
      cases hComplete
    · exact ⟨round, hRound, hComplete⟩
  · rintro ⟨round, hRound, hComplete⟩
    obtain ⟨hLess, -⟩ := List.getElem?_eq_some_iff.mp hRound
    exact ⟨round, by rw [List.getElem?_append_left hLess, hRound], hComplete⟩

theorem opened_invariant (hInv : BarrierInvariant s) (generation deadline : Nat)
    (hTail : ∀ k, s.rounds.tail = some k → s.rounds.isCollecting k = false) :
    BarrierInvariant { s with
      rounds := { s.rounds with
        nextGeneration := generation
        tail := some s.rounds.made.length
        made := s.rounds.made ++ [⟨deadline, s.rounds.tail, .collecting, none⟩] }
      callers := s.callers ++ [⟨s.rounds.made.length, true, s.world, .turn⟩] } := by
  have hKeys : ∀ (j k : Nat), (s.callers.map (·.key))[j]? = some (k, true) →
      k < s.rounds.made.length := by
    intro j k hKey
    rw [List.getElem?_map] at hKey
    obtain ⟨caller, hCaller, hKey⟩ := Option.map_eq_some_iff.mp hKey
    obtain ⟨rfl, -⟩ := Prod.mk.inj hKey
    obtain ⟨round, hMade, -⟩ := (hInv.callers j caller hCaller).participates
    exact (List.getElem?_eq_some_iff.mp hMade).1
  constructor
  · exact opened_rounds hInv.rounds generation deadline hTail
  · rw [List.map_append, List.length_append]
    exact opened_leaders hInv.leaders hKeys
  · intro i hi
    rw [List.length_append]
    exact Nat.lt_add_right _ (hInv.holder i hi)
  · intro j other hOther
    rw [getElem?_concat] at hOther
    split at hOther
    · rename_i hj
      obtain rfl := Option.some.inj hOther
      constructor
      · refine ⟨_, List.getElem?_concat_length, le_rfl, ?_, fun _ => rfl, fun hFollower => ?_, ?_⟩
        · intro t ht
          cases ht
        · cases hFollower
        · intro _ hNone
          cases hMade : s.rounds.made.length with
          | zero => rfl
          | succ k => rw [(hInv.rounds.tail k).mpr hMade.symm] at hNone; cases hNone
      · constructor
        · intro hHolds
          cases hHolds
        · intro hCommit
          exact absurd (hInv.holder j hCommit) (by omega)
      · simp
      · simp
      · intro _ _ hPassed
        cases hPassed
    · refine caller_mono (hInv.callers j other hOther) ?_ id Iff.rfl ?_ ?_
      · intro round hMade hHere
        refine ⟨round, ?_, participates_mono hHere le_rfl id⟩
        obtain ⟨hLess, -⟩ := List.getElem?_eq_some_iff.mp hMade
        rw [List.getElem?_append_left hLess]
        exact hMade
      · intro p _ hNone
        apply Option.eq_none_iff_forall_ne_some.mpr
        intro result hSome
        have hBefore := resultOf_eq_some.mpr ((complete_concat p result).mp (resultOf_eq_some.mp hSome))
        rw [hNone] at hBefore
        cases hBefore
      · intro k hk
        obtain ⟨result, hSome⟩ := Option.ne_none_iff_exists'.mp hk
        exact Option.ne_none_iff_exists'.mpr
          ⟨result, resultOf_eq_some.mpr ((complete_concat k result).mpr (resultOf_eq_some.mp hSome))⟩

theorem step_invariant (hInv : BarrierInvariant s)
    (hStep : s.step event = some s') : BarrierInvariant s' := by
  rcases step_changes hStep with rfl | hChange
  · exact hInv
  cases hChange with
  | outside now world cancelled commit poisoned cancellers hWorld hEvent hCancelled hCommit =>
    have hSame : ∀ i, commit = some (.caller i) ↔ s.commit = some (.caller i) := by
      intro i
      rcases hCommit with rfl | hOther
      · exact Iff.rfl
      · exact ⟨fun h => absurd h (hOther i).1, fun h => absurd h (hOther i).2⟩
    constructor
    · exact hInv.rounds
    · exact hInv.leaders
    · exact fun i hi => hInv.holder i ((hSame i).mp hi)
    · exact fun i caller h => caller_of_eq (hInv.callers i caller h) rfl hWorld hCancelled (hSame i)
  | joined k hTail hCollecting => exact joined_invariant hInv hTail hCollecting
  | opened generation deadline hTail => exact opened_invariant hInv generation deadline hTail
  | woken k cancellers =>
    constructor
    · exact hInv.rounds
    · exact (keys_notifyAll s k).symm ▸ hInv.leaders
    · intro i hi
      rw [notifyAll, List.length_map]
      exact hInv.holder i hi
    · intro i other hOther
      rw [notifyAll, List.getElem?_map] at hOther
      obtain ⟨caller, hCaller, rfl⟩ := Option.map_eq_some_iff.mp hOther
      exact caller_of_eq (caller_notify (hInv.callers i caller hCaller) k) rfl le_rfl id Iff.rfl
  | moved i caller round phase h hRound hMove =>
    exact setPhase_invariant hInv h (caller_move hInv h hRound hMove)
  | roused i caller phase h hRouse =>
    exact setPhase_invariant hInv h (caller_rouse (hInv.callers i caller h) hRouse)
  | took i caller h hPhase => exact took_invariant hInv h hPhase
  | locked i caller h hPhase hFree => exact locked_invariant hInv h hPhase hFree
  | started i caller h hPhase hLive => exact started_invariant hInv h hPhase hLive
  | released i caller phase poisoned h hRelease hEvent => exact released_invariant hInv h hRelease poisoned
  | completed i caller result phase h hCompletion => exact completed_invariant hInv h hCompletion

theorem initial_invariant (α : Type) (collectionWindow : Nat) :
    BarrierInvariant (initial α collectionWindow) := by
  constructor
  · constructor <;> simp [initial, ReadBarrierRounds.new, ReadBarrierRounds.phaseOf]
  · constructor <;> simp [initial, ReadBarrierRounds.new]
  · simp [initial]
  · simp [initial]

end BarrierSystem

end Rhiza.Node
