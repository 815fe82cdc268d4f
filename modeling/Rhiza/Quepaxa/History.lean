import Mathlib.Data.List.Chain
import Rhiza.Quepaxa.Decided
import Rhiza.Quepaxa.Recorder

/-! # Configurations over the life of a recorder

A recorder visits configurations in the order of their ids. What it has accepted
in one of them can be read off the maximal slot that the configuration had when
the recorder left it.
-/

namespace Rhiza.Quepaxa

open Core Library

namespace Recorder

def history (r : Recorder) : List ConfigurationState := r.configuration :: r.retired

def Reached (r : Recorder) (configId slot : Nat) : Prop :=
  ∃ c ∈ r.history, c.configId = configId ∧ ∃ m, c.maxAcceptedOrDecidedSlot = some m ∧ slot ≤ m

def ClosedUntilActive (c : ConfigurationState) : Prop :=
  c.activated = false → c.sealed = none ∧ ∃ predecessor, c.predecessor = some predecessor ∧
    (c.maxAcceptedOrDecidedSlot = none ∨
      c.maxAcceptedOrDecidedSlot = some (predecessor.stopSlot + 1))

def SealedLast (c : ConfigurationState) : Prop :=
  ∀ mark, c.sealed = some mark → c.maxAcceptedOrDecidedSlot = some mark.stopSlot

structure Sound (r : Recorder) : Prop where
  ids : r.history.IsChain fun newer older => newer.configId = older.configId + 1
  closed : ClosedUntilActive r.configuration
  sealedLast : ∀ c ∈ r.history, SealedLast c
  slots : ∀ slot state, r.slots slot = some state → state.slot = slot ∧
    r.Reached state.configId slot

theorem Sound.new [Sha256] (recorderId : NodeId) (clusterId : ClusterId) (epoch configId : Nat)
    (membership : Membership) : Sound (.new recorderId clusterId epoch configId membership) where
  ids := by simp [history, Recorder.new]
  closed := by simp [ClosedUntilActive, Recorder.new, ConfigurationState.initial]
  sealedLast := by simp [history, SealedLast, Recorder.new, ConfigurationState.initial]
  slots := by simp [Recorder.new]

theorem Sound.eq_of_configId {r : Recorder} (h : r.Sound) {c c' : ConfigurationState}
    (hc : c ∈ r.history) (hc' : c' ∈ r.history) (hId : c.configId = c'.configId) : c = c' := by
  have hChain : (r.history.map (·.configId)).IsChain (· > ·) := by
    rw [List.isChain_map]
    exact h.ids.imp fun newer older hNext => by omega
  have hNodup : (r.history.map (·.configId)).Nodup :=
    (List.isChain_iff_pairwise.mp hChain).imp fun hlt => Nat.ne_of_gt hlt
  exact List.inj_on_of_nodup_map hNodup hc hc' hId

theorem Sound.current_of_configId {r : Recorder} (h : r.Sound) {c : ConfigurationState}
    (hc : c ∈ r.history) (hId : c.configId = r.configuration.configId) : c = r.configuration :=
  h.eq_of_configId hc List.mem_cons_self hId

structure SameInstallation (c c' : ConfigurationState) : Prop where
  configId_eq : c'.configId = c.configId
  configDigest_eq : c'.configDigest = c.configDigest
  membership_eq : c'.membership = c.membership
  predecessor_eq : c'.predecessor = c.predecessor

theorem SameInstallation.refl (c : ConfigurationState) : SameInstallation c c := ⟨rfl, rfl, rfl, rfl⟩

theorem SameInstallation.symm {c c' : ConfigurationState} (h : SameInstallation c c') :
    SameInstallation c' c :=
  ⟨h.configId_eq.symm, h.configDigest_eq.symm, h.membership_eq.symm, h.predecessor_eq.symm⟩

theorem SameInstallation.trans {a b c : ConfigurationState} (h : SameInstallation a b)
    (h' : SameInstallation b c) : SameInstallation a c :=
  ⟨h'.configId_eq.trans h.configId_eq, h'.configDigest_eq.trans h.configDigest_eq,
    h'.membership_eq.trans h.membership_eq, h'.predecessor_eq.trans h.predecessor_eq⟩

theorem Applied.sameInstallation {configuration next : ConfigurationState}
    {state : RecorderSlotState} {change : Option ConfigChange} {value : AcceptedValue}
    (h : Applied configuration state change value next) : SameInstallation configuration next :=
  ⟨h.configId_eq, h.configDigest_eq, h.membership_eq, h.predecessor_eq⟩

section Takes

variable [Sha256] {r r' : Recorder} {move : Move}

omit [Sha256] in
theorem applied_max {configuration next : ConfigurationState} {state : RecorderSlotState}
    {change : Option ConfigChange} {value : AcceptedValue}
    (h : Applied configuration state change value next) :
    ∃ m, next.maxAcceptedOrDecidedSlot = some m ∧ state.slot ≤ m ∧
      (m = state.slot ∨ configuration.maxAcceptedOrDecidedSlot = some m) ∧
      ∀ old, configuration.maxAcceptedOrDecidedSlot = some old → old ≤ m := by
  refine ⟨_, h.raised, ?_⟩
  cases hMax : configuration.maxAcceptedOrDecidedSlot with
  | none => simp
  | some old =>
    refine ⟨Nat.le_max_right .., ?_, ?_⟩
    · rcases Nat.le_total old state.slot with hLe | hLe
      · exact .inl (Nat.max_eq_right hLe)
      · exact .inr (congrArg some (Nat.max_eq_left hLe).symm)
    · rintro _ ⟨⟩
      exact Nat.le_max_left ..

theorem sealedLast_applied {clusterId : ClusterId} {configuration next : ConfigurationState}
    {state : RecorderSlotState} {change : Option ConfigChange} {value : AcceptedValue}
    (hAdmitted : Admitted clusterId configuration state.slot change)
    (hApplied : Applied configuration state change value next) (h : SealedLast configuration) :
    SealedLast next := by
  rintro mark hMark
  obtain ⟨m, hMax, hSlot, hWhich, hOld⟩ := applied_max hApplied
  by_cases hStop : change.any (·.isStop)
  · rw [hApplied.stopped hStop] at hMark
    obtain rfl := Option.some.inj hMark
    rcases hWhich with rfl | hSame
    · exact hMax
    · have := hAdmitted.notLate hStop m hSame
      rw [hMax, show m = state.slot by omega]
  · rw [hApplied.unstopped (by simpa using hStop)] at hMark
    have hSealed := sealed_of_sealAfterProof hMark
    have hWithin := hAdmitted.within mark hSealed
    have hKept := h mark hSealed
    have := hOld mark.stopSlot hKept
    rcases hWhich with rfl | hSame
    · rw [hMax, show mark.stopSlot = state.slot by omega]
    · rw [hMax, ← hSame, hKept]

theorem closed_applied {clusterId : ClusterId} {configuration next : ConfigurationState}
    {state : RecorderSlotState} {change : Option ConfigChange} {value : AcceptedValue}
    (hAdmitted : Admitted clusterId configuration state.slot change)
    (hApplied : Applied configuration state change value next)
    (h : ClosedUntilActive configuration) : ClosedUntilActive next := by
  intro hInactive
  have hWas : configuration.activated = false := by
    have := hApplied.activated
    rw [hInactive] at this
    exact (Bool.or_eq_false_iff.mp this.symm).1
  obtain ⟨hSealed, predecessor, hPredecessor, hMax⟩ := h hWas
  obtain ⟨predecessor', hPredecessor', hSlot, hChange⟩ := hAdmitted.opens hWas
  obtain rfl := Option.some.inj (hPredecessor.symm.trans hPredecessor')
  have hStop : change.any (·.isStop) = false := by
    cases change with
    | none => rfl
    | some c => cases c <;> simp_all [activates, ConfigChange.isStop]
  refine ⟨?_, predecessor, ?_, .inr ?_⟩
  · rw [hApplied.unstopped hStop, hSealed]
    rfl
  · rw [hApplied.predecessor_eq]
    exact hPredecessor
  · rw [hApplied.raised]
    rcases hMax with hMax | hMax <;> simp [hMax, hSlot]

theorem Reached.takes (hSound : r.Sound) (hTakes : Takes r move r') {configId slot : Nat}
    (h : r.Reached configId slot) : r'.Reached configId slot := by
  obtain ⟨c, hc, hId, m, hMax, hm⟩ := h
  -- only the current configuration can change, and its maximal slot does not decrease
  have hCurrent : ∀ {next : Recorder}, next.retired = r.retired →
      next.configuration.configId = r.configuration.configId →
      (∀ old, r.configuration.maxAcceptedOrDecidedSlot = some old →
        ∃ new, next.configuration.maxAcceptedOrDecidedSlot = some new ∧ old ≤ new) →
      next.Reached configId slot := by
    intro next hRetired hNextId hNextMax
    rcases List.mem_cons.mp hc with rfl | hOld
    · obtain ⟨new, hNew, hLe⟩ := hNextMax m hMax
      exact ⟨next.configuration, List.mem_cons_self, hNextId.trans hId, new, hNew, by omega⟩
    · exact ⟨c, List.mem_cons_of_mem _ (hRetired ▸ hOld), hId, m, hMax, hm⟩
  have hSame : ∀ {next : Recorder}, next.retired = r.retired →
      next.configuration = r.configuration → next.Reached configId slot := by
    intro next hRetired hConfiguration
    refine hCurrent hRetired (by rw [hConfiguration]) fun old hOld => ⟨old, ?_, le_rfl⟩
    rw [hConfiguration]
    exact hOld
  cases hTakes with
  | idle => exact ⟨c, hc, hId, m, hMax, hm⟩
  | store => exact hSame (by simp) (by simp)
  | stage => exact hSame (by simp) (by simp)
  | record replaces hPasses hLoad hRecords =>
    obtain ⟨new, hNew, -, -, hOld⟩ := applied_max hRecords.applied
    exact hCurrent (by simp) hRecords.applied.configId_eq fun old h => ⟨new, hNew, hOld old h⟩
  | install replaces hLoad hInstalls =>
    obtain ⟨new, hNew, -, -, hOld⟩ := applied_max hInstalls.applied
    exact hCurrent (by simp) hInstalls.applied.configId_eq fun old h => ⟨new, hNew, hOld old h⟩
  | stageStop => exact hSame (by simp) (by simp)
  | succeed => exact ⟨c, List.mem_cons_of_mem _ hc, hId, m, hMax, hm⟩
  | activate hPredecessor hInactive hStop hTip =>
    refine hCurrent rfl rfl fun old hOld => ⟨_, rfl, ?_⟩
    obtain ⟨-, predecessor', hPredecessor', hNone | hFirst⟩ := hSound.closed hInactive
    · cases hNone.symm.trans hOld
    · obtain rfl := Option.some.inj (hPredecessor.symm.trans hPredecessor')
      obtain rfl := Option.some.inj (hFirst.symm.trans hOld)
      omega

omit [Sha256] in
theorem Sound.replace {next : Recorder} (h : r.Sound) (hRetired : next.retired = r.retired)
    (hId : next.configuration.configId = r.configuration.configId)
    (hClosed : ClosedUntilActive next.configuration) (hSealed : SealedLast next.configuration)
    (hSlots : ∀ slot state, next.slots slot = some state → state.slot = slot ∧
      next.Reached state.configId slot) : next.Sound where
  ids := by
    have hIds := h.ids
    rw [history] at hIds ⊢
    rw [hRetired]
    cases hCase : r.retired with
    | nil => simp
    | cons older rest =>
      rw [hCase, List.isChain_cons_cons] at hIds
      rw [List.isChain_cons_cons, hId]
      exact hIds
  closed := hClosed
  sealedLast c hc := by
    rcases List.mem_cons.mp hc with rfl | hOld
    · exact hSealed
    · exact h.sealedLast c (List.mem_cons_of_mem _ (hRetired ▸ hOld))
  slots := hSlots

omit [Sha256] in
theorem slots_apply (h : r.Sound) {replaces : Bool} {transition : Transition}
    {change : Option ConfigChange} {value : AcceptedValue}
    (hKeeps : ∀ configId slot, r.Reached configId slot →
      (r.apply replaces transition).Reached configId slot)
    (hConfig : transition.state.configId = r.configuration.configId)
    (hApplied : Applied r.configuration transition.state change value transition.configuration)
    (slot : Nat) (state : RecorderSlotState)
    (hState : (r.apply replaces transition).slots slot = some state) :
    state.slot = slot ∧ (r.apply replaces transition).Reached state.configId slot := by
  by_cases hAt : slot = transition.state.slot
  · subst hAt
    obtain rfl : transition.state = state := by simpa using hState
    obtain ⟨m, hMax, hm, -⟩ := applied_max hApplied
    refine ⟨rfl, transition.configuration, List.mem_cons_self, ?_, m, hMax, hm⟩
    rw [hApplied.configId_eq, hConfig]
  · obtain ⟨hSlot, hReached⟩ := h.slots slot state (by simpa [hAt] using hState)
    exact ⟨hSlot, hKeeps _ _ hReached⟩

theorem Sound.takes (h : r.Sound) (hTakes : Takes r move r') : r'.Sound := by
  have hSame : ∀ next : Recorder, next.retired = r.retired →
      next.configuration = r.configuration → next.slots = r.slots → next.Sound := by
    intro next hRetired hConfiguration hSlots
    refine h.replace hRetired (by rw [hConfiguration]) (hConfiguration ▸ h.closed)
      (hConfiguration ▸ h.sealedLast _ List.mem_cons_self) ?_
    simp only [Reached, history, hRetired, hConfiguration, hSlots]
    exact h.slots
  have hKeeps : ∀ configId slot, r.Reached configId slot → r'.Reached configId slot :=
    fun _ _ hReached => hReached.takes h hTakes
  cases hTakes with
  | idle => exact h
  | store => exact hSame _ (by simp) (by simp) (by simp)
  | stage => exact hSame _ (by simp) (by simp) (by simp)
  | @record request value command change state transition replaces hPasses hLoad hRecords =>
    obtain ⟨hSlot, -, -, hConfig, -⟩ := load_eq_ok hLoad
    have hApplied := hRecords.applied
    have hAdmitted : Admitted r.clusterId r.configuration
        (RecorderView.nextState state request).slot change := by
      change Admitted r.clusterId r.configuration state.slot change
      rw [hSlot]
      exact hPasses.admitted
    refine h.replace (by simp) hApplied.configId_eq
      (closed_applied hAdmitted hApplied h.closed)
      (sealedLast_applied hAdmitted hApplied (h.sealedLast _ List.mem_cons_self)) ?_
    exact slots_apply h hKeeps (by rw [hRecords.state_eq]; exact hConfig)
      (by rw [hRecords.state_eq]; exact hApplied)
  | @install proof membership value command change state transition replaces hLoad hInstalls =>
    obtain ⟨hSlot, -, -, hConfig, -⟩ := load_eq_ok hLoad
    obtain ⟨decided, hState, -⟩ := hInstalls.installed
    have hApplied := hInstalls.applied
    have hAdmitted : Admitted r.clusterId r.configuration transition.state.slot change := by
      rw [hState]
      change Admitted r.clusterId r.configuration state.slot change
      rw [hSlot]
      exact hInstalls.admitted
    refine h.replace (by simp) hApplied.configId_eq
      (closed_applied hAdmitted hApplied h.closed)
      (sealedLast_applied hAdmitted hApplied (h.sealedLast _ List.mem_cons_self)) ?_
    exact slots_apply h hKeeps (by rw [hState]; exact hConfig) hApplied
  | stageStop => exact hSame _ (by simp) (by simp) (by simp)
  | @succeed membership stopProof installed stopCommand hSucceeds hStored =>
    have hNext := checkedSucc_eq_some hSucceeds.next
    constructor
    · simp only [history, List.isChain_cons_cons]
      exact ⟨hNext, h.ids⟩
    · intro hInactive
      obtain ⟨prevHash, -, hPredecessor⟩ := hSucceeds.value_eq
      refine ⟨?_, _, hPredecessor, .inl ?_⟩
      · rw [hSucceeds.installed_eq]
      · rw [hSucceeds.installed_eq]
    · intro c hc
      rcases List.mem_cons.mp hc with hNew | hOld
      · rintro mark hMark
        rw [hNew] at hMark
        dsimp only at hMark
        rw [hSucceeds.installed_eq] at hMark
        cases hMark
      · exact h.sealedLast c hOld
    · intro slot state hState
      obtain ⟨hSlot, hReached⟩ := h.slots slot state (by simpa using hState)
      exact ⟨hSlot, hKeeps _ _ hReached⟩
  | @activate stopSlot prefixHash recoveredTip recoveredHash predecessor hPredecessor hInactive
      hStop hTip =>
    refine h.replace rfl rfl (by simp [ClosedUntilActive]) ?_ ?_
    · intro mark hMark
      cases (h.closed hInactive).1.symm.trans hMark
    · intro slot state hState
      obtain ⟨hSlot, hReached⟩ := h.slots slot state hState
      exact ⟨hSlot, hKeeps _ _ hReached⟩

theorem takes_identity (h : Takes r move r') : r'.clusterId = r.clusterId ∧ r'.epoch = r.epoch := by
  cases h with
  | idle => exact ⟨rfl, rfl⟩
  | activate => exact ⟨rfl, rfl⟩
  | _ => simp

theorem takes_history (h : Takes r move r') :
    (r'.retired = r.retired ∧ SameInstallation r.configuration r'.configuration) ∨
    ∃ membership stopProof stopCommand, move = .succeed membership stopProof ∧
      r.view.Succeeds membership stopProof r'.configuration stopCommand ∧
      r'.retired = r.configuration :: r.retired ∧ r'.slots = r.slots := by
  cases h with
  | idle => exact .inl ⟨rfl, .refl _⟩
  | store => exact .inl ⟨by simp, by simpa using .refl _⟩
  | stage => exact .inl ⟨by simp, by simpa using .refl _⟩
  | record replaces hPasses hLoad hRecords =>
    exact .inl ⟨by simp, Applied.sameInstallation hRecords.applied⟩
  | install replaces hLoad hInstalls =>
    exact .inl ⟨by simp, Applied.sameInstallation hInstalls.applied⟩
  | stageStop => exact .inl ⟨by simp, by simpa using .refl _⟩
  | succeed hSucceeds hStored => exact .inr ⟨_, _, _, rfl, hSucceeds, rfl, by simp⟩
  | activate => exact .inl ⟨rfl, ⟨rfl, rfl, rfl, rfl⟩⟩

theorem exists_of_mem_history (h : Takes r move r') {c : ConfigurationState} (hc : c ∈ r.history) :
    ∃ c' ∈ r'.history, SameInstallation c c' := by
  rcases takes_history h with ⟨hRetired, hSame⟩ | ⟨-, -, -, -, -, hRetired, -⟩
  · rcases List.mem_cons.mp hc with rfl | hOld
    · exact ⟨_, List.mem_cons_self, hSame⟩
    · exact ⟨c, List.mem_cons_of_mem _ (hRetired ▸ hOld), .refl c⟩
  · exact ⟨c, List.mem_cons_of_mem _ (hRetired ▸ hc), .refl c⟩

omit [Sha256] in
theorem slot_ne_of_load {slot other : Nat} {configDigest : LogHash}
    {state stored : RecorderSlotState} (hLoad : r.load slot configDigest = .ok state)
    (hStored : r.slots other = some stored) (hDiffers : stored ≠ state) : other ≠ slot := by
  rintro rfl
  obtain ⟨-, -, -, -, -, hHere | ⟨hNone, -⟩⟩ := load_eq_ok hLoad
  · exact hDiffers (Option.some.inj (hStored.symm.trans hHere))
  · cases hNone.symm.trans hStored

theorem takes_slots (h : Takes r move r') {slot : Nat} {state : RecorderSlotState}
    (hState : r'.slots slot = some state) :
    r.slots slot = some state ∨
    (∃ request value command change old, move = .record request ∧ request.slot = slot ∧
      r.view.Passes request value command change ∧
      r.load request.slot request.configDigest = .ok old ∧ old.decidedProof = none ∧
      request.context = old.context ∧ state = RecorderView.nextState old request) ∨
    ∃ proof membership value command change old transition, move = .install proof membership ∧
      proof.slot = slot ∧ r.load proof.slot proof.configDigest = .ok old ∧
      r.view.Installs proof membership value command change old transition ∧
      r'.configuration = transition.configuration ∧ state = transition.state := by
  cases h with
  | idle => exact .inl hState
  | store => exact .inl (by simpa using hState)
  | stage => exact .inl (by simpa using hState)
  | @record request value command change old transition replaces hPasses hLoad hRecords =>
    by_cases hAt : slot = transition.state.slot
    · subst hAt
      obtain rfl : transition.state = state := by simpa using hState
      obtain ⟨hSlot, -⟩ := load_eq_ok hLoad
      refine .inr (.inl ⟨request, value, command, change, old, rfl, ?_, hPasses, hLoad,
        hRecords.undecided, hRecords.context_eq, hRecords.state_eq⟩)
      rw [hRecords.state_eq]
      exact hSlot.symm
    · exact .inl (by simpa [hAt] using hState)
  | @install proof membership value command change old transition replaces hLoad hInstalls =>
    by_cases hAt : slot = transition.state.slot
    · subst hAt
      obtain rfl : transition.state = state := by simpa using hState
      obtain ⟨hSlot, -⟩ := load_eq_ok hLoad
      obtain ⟨decided, hStored, -⟩ := hInstalls.installed
      refine .inr (.inr ⟨proof, membership, value, command, change, old, transition, rfl, ?_, hLoad,
        hInstalls, rfl, rfl⟩)
      rw [hStored]
      exact hSlot.symm
    · exact .inl (by simpa [hAt] using hState)
  | stageStop => exact .inl (by simpa using hState)
  | succeed => exact .inl (by simpa using hState)
  | activate => exact .inl hState

theorem takes_decidedProof (h : Takes r move r') {slot : Nat} {state : RecorderSlotState}
    {proof : DecisionProof} (hState : r.slots slot = some state)
    (hProof : state.decidedProof = some proof) :
    ∃ state', r'.slots slot = some state' ∧ state'.decidedProof = some proof := by
  have hOther : ∀ {other : Nat} {configDigest : LogHash} {old next : RecorderSlotState},
      r.load other configDigest = .ok old → old.decidedProof = none → next.slot = old.slot →
      ∃ state', Function.update r.slots next.slot (some next) slot = some state' ∧
        state'.decidedProof = some proof := by
    intro other configDigest old next hLoad hUndecided hNext
    obtain ⟨hSlot, -⟩ := load_eq_ok hLoad
    have hNe : slot ≠ other := by
      apply slot_ne_of_load hLoad hState
      rintro rfl
      cases hUndecided.symm.trans hProof
    rw [hNext, hSlot, Function.update_of_ne hNe]
    exact ⟨state, hState, hProof⟩
  cases h with
  | idle => exact ⟨state, hState, hProof⟩
  | record replaces hPasses hLoad hRecords =>
    exact hOther hLoad hRecords.undecided (by rw [hRecords.state_eq]; rfl)
  | install replaces hLoad hInstalls =>
    obtain ⟨decided, hNext, -⟩ := hInstalls.installed
    exact hOther hLoad hInstalls.undecided (by rw [hNext])
  | activate => exact ⟨state, hState, hProof⟩
  | _ => exact ⟨state, by simpa using hState, hProof⟩

structure Orderly (r : Recorder) (slot : Nat) (state : RecorderSlotState) : Prop where
  accepted : state.accepted = none
  decided : ∀ certificate, state.decided = some certificate →
    ∃ proof, state.decidedProof = some proof ∧ proof.proposal.value = some certificate.value
  proof : ∀ proof, state.decidedProof = some proof → proof.slot = slot ∧
    proof.configId = state.configId ∧
    ∃ c ∈ r.history, c.configId = state.configId ∧ proof.configDigest = c.configDigest

theorem Orderly.later {slot : Nat} {state : RecorderSlotState} (h : Orderly r slot state)
    (hTakes : Takes r move r') : Orderly r' slot state where
  accepted := h.accepted
  decided := h.decided
  proof proof hProof := by
    obtain ⟨hSlot, hConfig, c, hc, hId, hDigest⟩ := h.proof proof hProof
    obtain ⟨c', hc', hSame⟩ := exists_of_mem_history hTakes hc
    exact ⟨hSlot, hConfig, c', hc', hSame.configId_eq.trans hId,
      hDigest.trans hSame.configDigest_eq.symm⟩

omit [Sha256] in
theorem orderly_of_load (h : ∀ slot state, r.slots slot = some state → Orderly r slot state)
    {slot : Nat} {configDigest : LogHash} {state : RecorderSlotState}
    (hLoad : r.load slot configDigest = .ok state) : Orderly r slot state := by
  obtain ⟨-, -, -, -, -, hStored | ⟨-, rfl⟩⟩ := load_eq_ok hLoad
  · exact h slot state hStored
  · constructor
    · rfl
    · intro certificate hCertificate
      cases hCertificate
    · intro proof hProof
      cases hProof

theorem orderly_takes (h : ∀ slot state, r.slots slot = some state → Orderly r slot state)
    (hTakes : Takes r move r') (slot : Nat) (state : RecorderSlotState)
    (hState : r'.slots slot = some state) : Orderly r' slot state := by
  rcases takes_slots hTakes hState with hOld | ⟨request, value, command, change, old, -, hSlot, -,
    hLoad, hUndecided, -, rfl⟩ | ⟨proof, membership, value, command, change, old, transition, -,
    hSlot, hLoad, hInstalls, -, rfl⟩
  · exact (h slot state hOld).later hTakes
  · rw [hSlot] at hLoad
    obtain ⟨-, hDecided, hProof⟩ := (orderly_of_load h hLoad).later hTakes
    exact ⟨rfl, hDecided, hProof⟩
  · rw [hSlot] at hLoad
    obtain ⟨hAccepted, -, -⟩ := orderly_of_load h hLoad
    obtain ⟨decided, hStored, hValue⟩ := hInstalls.installed
    rw [hStored]
    refine ⟨hAccepted, ?_, ?_⟩
    · rintro certificate ⟨⟩
      exact ⟨proof, rfl, hValue ▸ hInstalls.value_eq⟩
    · rintro installed ⟨⟩
      obtain ⟨-, -, -, hConfig, -⟩ := load_eq_ok hLoad
      obtain ⟨c', hc', hSame⟩ := exists_of_mem_history hTakes (c := r.configuration) List.mem_cons_self
      exact ⟨hSlot, hInstalls.config_eq.trans hConfig.symm, c', hc',
        hSame.configId_eq.trans hConfig.symm, hInstalls.digest_eq.trans hSame.configDigest_eq.symm⟩

theorem reached_of_accepts {conduct : Conduct} {request : RecordRequest}
    (h : Accepts r conduct request) :
    (r.record conduct request).1.Reached request.configId request.slot := by
  obtain ⟨value, command, change, state, transition, replaces, hPasses, hLoad, hRecords, hDone⟩ :=
    record_of_accepts h
  obtain ⟨hSlot, -⟩ := load_eq_ok hLoad
  obtain ⟨m, hMax, hm, -⟩ := applied_max hRecords.applied
  have hAt : (RecorderView.nextState state request).slot = request.slot := hSlot
  rw [hDone]
  refine ⟨transition.configuration, List.mem_cons_self, ?_, m, hMax, by omega⟩
  rw [hRecords.applied.configId_eq]
  exact hPasses.config_eq.symm

end Takes

end Recorder

section Worlds

variable [Sha256]

open Recorder

def Causes (w : World Recorder) (a : Action Conduct RecorderEvent) (k : NodeId) : Move → Prop
  | .record request => (∃ index worker conduct, a = .deliver index worker conduct) ∧
      ∃ call ∈ w.calls, request ∈ call.requests
  | .install proof membership => ∃ conduct, a = .install k conduct proof membership
  | .store hash command => ∃ conduct, a = .occur k (.storeCommand conduct hash command)
  | .succeed membership stopProof =>
    ∃ conduct, a = .occur k (.installSuccessor conduct membership stopProof)
  | .activate stopSlot prefixHash recoveredTip recoveredHash =>
    ∃ conduct, a = .occur k
      (.recoverActivation conduct stopSlot prefixHash recoveredTip recoveredHash)

theorem step_recorders {w w' : World Recorder} {a : Action Conduct RecorderEvent}
    (h : w.step a = some w') (k : NodeId) :
    w'.recorders k = w.recorders k ∨
      ∃ move, Takes (w.recorders k) move (w'.recorders k) ∧ Causes w a k move := by
  have hUpdate : ∀ {j : NodeId} {r : Recorder} {move : Move},
      w'.recorders = Function.update w.recorders j r → Takes (w.recorders j) move r →
      Causes w a j move → w'.recorders k = w.recorders k ∨
        ∃ move, Takes (w.recorders k) move (w'.recorders k) ∧ Causes w a k move := by
    intro j r move hRecorders hTakes hCauses
    by_cases hjk : k = j
    · subst hjk
      rw [hRecorders, Function.update_self]
      exact .inr ⟨move, hTakes, hCauses⟩
    · rw [hRecorders, Function.update_of_ne hjk]
      exact .inl rfl
  cases a with
  | start engine slot proposal command =>
    obtain rfl := Option.some.inj h
    exact .inl rfl
  | broadcast index fetched sample =>
    rcases World.step_broadcast h with rfl | ⟨driver, -, progress, requests, -, rfl⟩
    · exact .inl rfl
    · exact .inl rfl
  | deliver index worker conduct =>
    obtain ⟨call, j, request, hCall, -, hRequest, rfl⟩ := World.step_deliver h
    exact hUpdate rfl (record_takes (w.recorders j) conduct request)
      ⟨⟨index, worker, conduct, rfl⟩, call, List.mem_of_getElem? hCall,
        List.mem_of_getElem? hRequest⟩
  | resume index saturatedWorkers arrivals fetched installs =>
    obtain ⟨call, answers, -, -, rfl⟩ := World.step_resume h
    exact .inl rfl
  | install j conduct proof membership =>
    obtain rfl := Option.some.inj h
    exact hUpdate rfl (installDecisionProof_takes (w.recorders j) conduct proof membership)
      ⟨conduct, rfl⟩
  | inspect j conduct slot =>
    obtain rfl := Option.some.inj h
    left
    change Function.update w.recorders j (settle conduct (w.recorders j) _ _ _).1 k = _
    rw [settle_same, Function.update_eq_self]
  | occur j event =>
    obtain rfl := Option.some.inj h
    refine hUpdate rfl (occur_takes (w.recorders j) event) ?_
    cases event <;> exact ⟨_, rfl⟩
  | openFence engine slot =>
    rw [World.step_openFence h]
    exact .inl rfl
  | observe index worker conduct =>
    obtain ⟨fence, j, -, -, rfl⟩ := World.step_observe h
    left
    change Function.update w.recorders j (settle conduct (w.recorders j) _ _ _).1 k = _
    rw [settle_same, Function.update_eq_self]
  | closeFence index saturated arrivals =>
    obtain ⟨fence, results, -, -, -, rfl | ⟨-, rfl⟩⟩ := World.step_closeFence h
    · exact .inl rfl
    · exact .inl rfl

def Group.fresh (G : Group) (k : NodeId) : Recorder :=
  .new k G.clusterId G.epoch G.configId G.membership

def Group.configuration (G : Group) : ConfigurationState :=
  .initial G.configId G.membership.digest (some G.membership)

def Group.inConfiguration (G : Group) (configId : Nat) (membership : Membership) : Group :=
  { G with configId := configId, membership := membership }

theorem sound_run {G : Group} {allowed : World Recorder → Action Conduct RecorderEvent → Prop}
    {w : World Recorder} (h : Run World.step allowed (World.init G.fresh) w) (k : NodeId) :
    (w.recorders k).Sound := by
  refine h.invariant (P := fun w => ∀ k, (w.recorders k).Sound) ?_ ?_ k
  · exact fun k => .new k G.clusterId G.epoch G.configId G.membership
  · intro w a w' hSound _ hStep k
    rcases step_recorders hStep k with hSame | ⟨move, hTakes, -⟩
    · rw [hSame]
      exact hSound k
    · exact (hSound k).takes hTakes

theorem identity_run {G : Group} {allowed : World Recorder → Action Conduct RecorderEvent → Prop}
    {w : World Recorder} (h : Run World.step allowed (World.init G.fresh) w) (k : NodeId) :
    (w.recorders k).clusterId = G.clusterId ∧ (w.recorders k).epoch = G.epoch := by
  refine h.invariant (P := fun w => ∀ k, (w.recorders k).clusterId = G.clusterId ∧
    (w.recorders k).epoch = G.epoch) (fun k => ⟨rfl, rfl⟩) ?_ k
  intro w a w' hIdentity _ hStep k
  rcases step_recorders hStep k with hSame | ⟨move, hTakes, -⟩
  · rw [hSame]
    exact hIdentity k
  · obtain ⟨hCluster, hEpoch⟩ := takes_identity hTakes
    rw [hCluster, hEpoch]
    exact hIdentity k

theorem orderly_run {G : Group} {allowed : World Recorder → Action Conduct RecorderEvent → Prop}
    {w : World Recorder} (h : Run World.step allowed (World.init G.fresh) w) (k : NodeId)
    (slot : Nat) (state : RecorderSlotState) (hState : (w.recorders k).slots slot = some state) :
    Orderly (w.recorders k) slot state := by
  refine h.invariant (P := fun w => ∀ k slot state, (w.recorders k).slots slot = some state →
    Orderly (w.recorders k) slot state) ?_ ?_ k slot state hState
  · intro k slot state hState
    cases hState
  · intro w a w' hOrderly _ hStep k
    rcases step_recorders hStep k with hSame | ⟨move, hTakes, -⟩
    · rw [hSame]
      exact hOrderly k
    · exact orderly_takes (hOrderly k) hTakes

theorem attested_run {G : Group} {allowed : World Recorder → Action Conduct RecorderEvent → Prop}
    (hInstalls : ∀ w a, allowed w a → InstallsFormed w a) {w : World Recorder}
    (h : Run World.step allowed (World.init G.fresh) w) : Attested w := by
  refine Attested.run hInstalls ?_ h
  rintro k proof ⟨slot, state, hState, -⟩
  cases hState

end Worlds

section Bound

variable [Sha256] {R Fault Event : Type} [RecorderRpc R Fault Event] [LawfulRecorder R Fault Event]

omit [Sha256] in
theorem quorum_of_decides {G : Group} {L : Ledger NodeId Proposal} {p : Proposal}
    (h : G.Decides L p) : ∃ Q, G.Quorum Q ∧ ∀ k ∈ Q, ∃ s, p ∈ L.recorded k s := by
  rcases h with ⟨Q, hFast⟩ | ⟨r, Q, -, hSlow⟩
  · exact ⟨Q, hFast.isQuorum, fun k hk => ⟨4, List.mem_of_head? (hFast.first k hk)⟩⟩
  · exact ⟨Q, hSlow.isQuorum, fun k hk => ⟨_, hSlow.recorded k hk⟩⟩

theorem Tracks.run_bound (G : Group) (slot : Nat) (I : World R → Prop)
    (Bound : World R → NodeId → Proposal → Prop) {recorders : NodeId → R}
    {allowed : World R → Action Fault Event → Prop} {w : World R}
    (hStart : I (World.init recorders))
    (hFresh : ∀ k, RecorderRpc.register (recorders k) (G.context slot) = .empty)
    (hCoherent : ∀ w a, allowed w a → Coherent G a)
    (hStep : ∀ w a w', I w → allowed w a → w.step a = some w' → I w' ∧
      (∀ k p, Bound w k p → Bound w' k p) ∧ ∀ k p, AcceptedBy G slot w a w' k p → Bound w' k p)
    (hRun : Run World.step allowed (World.init recorders) w) :
    I w ∧ ∃ L, Tracks G slot w L ∧ ∀ k s p, p ∈ L.recorded k s → Bound w k p := by
  refine hRun.invariant (P := fun w => I w ∧ ∃ L, Tracks G slot w L ∧
    ∀ k s p, p ∈ L.recorded k s → Bound w k p) ⟨hStart, emptyLedger, init hFresh, ?_⟩ ?_
  · intro k s p hp
    cases hp
  · rintro w a w' ⟨hI, L, hL, hBound⟩ hAllowed hNext
    obtain ⟨hI', hKeeps, hAccepts⟩ := hStep w a w' hI hAllowed hNext
    obtain ⟨L', hL', hGrows⟩ := hL.step (hCoherent w a hAllowed) hNext
    refine ⟨hI', L', hL', fun k s p hp => ?_⟩
    rcases hGrows k s p hp with hOld | hNew
    · exact hKeeps k p (hBound k s p hOld)
    · exact hAccepts k p hNew

end Bound

section Formed

variable [Sha256]

open Recorder

theorem Group.register_fresh (G : Group) (k : NodeId) (context : Context) :
    RecorderRpc.register (G.fresh k) context = .empty := rfl

theorem reached_of_formed {G₀ G : Group}
    {allowed : World Recorder → Action Conduct RecorderEvent → Prop}
    (hCoherent : ∀ w a, allowed w a → Coherent G a) {w : World Recorder}
    (hRun : Run World.step allowed (World.init G₀.fresh) w) {proof : DecisionProof}
    (hProof : proof ∈ w.formed) (hContext : proof.context = G.context proof.slot) :
    ∃ Q, G.Quorum Q ∧ ∀ k ∈ Q, (w.recorders k).Reached G.configId proof.slot := by
  have hStep : ∀ w a w', (∀ k, (w.recorders k).Sound) → allowed w a → w.step a = some w' →
      (∀ k, (w'.recorders k).Sound) ∧
      (∀ k (_ : Proposal), (w.recorders k).Reached G.configId proof.slot →
        (w'.recorders k).Reached G.configId proof.slot) ∧
      ∀ k p, Tracks.AcceptedBy G proof.slot w a w' k p →
        (w'.recorders k).Reached G.configId proof.slot := by
    intro w a w' hSound _ hStep
    refine ⟨fun k => ?_, fun k _ hReached => ?_, ?_⟩
    · rcases step_recorders hStep k with hSame | ⟨move, hTakes, -⟩
      · exact hSame ▸ hSound k
      · exact (hSound k).takes hTakes
    · rcases step_recorders hStep k with hSame | ⟨move, hTakes, -⟩
      · exact hSame ▸ hReached
      · exact hReached.takes (hSound k) hTakes
    · rintro k p ⟨index, worker, conduct, request, -, hRequest, -, -, hRecorder, hAccepts⟩
      rw [hRecorder, ← show request.configId = G.configId from congrArg Context.configId hRequest,
        ← show request.slot = proof.slot from congrArg Context.slot hRequest]
      exact reached_of_accepts hAccepts
  obtain ⟨-, L, hTracks, hBound⟩ := Tracks.run_bound G proof.slot
    (fun w => ∀ k, (w.recorders k).Sound)
    (fun w k _ => (w.recorders k).Reached G.configId proof.slot)
    (fun k => .new k G₀.clusterId G₀.epoch G₀.configId G₀.membership)
    (fun k => G₀.register_fresh k _) hCoherent hStep hRun
  obtain ⟨Q, hQuorum, hAccepted⟩ := quorum_of_decides (hTracks.formed proof hProof hContext)
  refine ⟨Q, hQuorum, fun k hk => ?_⟩
  obtain ⟨s, hs⟩ := hAccepted k hk
  exact hBound k s _ hs

end Formed

end Rhiza.Quepaxa
