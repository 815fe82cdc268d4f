import Rhiza.Quepaxa.History

/-! # Activation of a successor configuration

A recorder that installed a successor admits one slot, the one after the stop,
until it has seen a proof there; from then on the slot keeps that proof. So what
a quorum accepted in that slot was accepted before the activation, and the gate
let nothing pass but a barrier that names the stop.
-/

namespace Rhiza.Quepaxa

open Core Library

section Barriers

variable [Sha256]

inductive Names (clusterId : ClusterId) (configId : Nat) (configDigest : LogHash)
    (predecessor : ConfigurationSeal) : ConfigChange → Prop
  | barrier (successor : SuccessorDescriptor) (hCluster : successor.clusterId = clusterId)
      (hConfig : successor.configId = configId) (hDigest : successor.digest = configDigest) :
      Names clusterId configId configDigest predecessor (.boundActivationBarrier successor
        predecessor.stopSlot predecessor.prefixHash predecessor.commandHash)

def BarrierValue (clusterId : ClusterId) (epoch configId : Nat) (configDigest : LogHash)
    (predecessor : ConfigurationSeal) (value : AcceptedValue) : Prop :=
  ∃ command change, ConfigChange.recognize command = some change ∧
    Names clusterId configId configDigest predecessor change ∧
    AcceptedValue.fromCommand clusterId (predecessor.stopSlot + 1) epoch configId value.prevHash
      command = value

theorem names_of_activates {clusterId : ClusterId} {configuration : ConfigurationState}
    {predecessor : ConfigurationSeal} {change : ConfigChange}
    (h : activates clusterId configuration predecessor change) :
    Names clusterId configuration.configId configuration.configDigest predecessor change := by
  cases change with
  | boundActivationBarrier successor stopSlot prefixHash stopCommandHash =>
    simp only [activates, decide_eq_true_eq] at h
    obtain ⟨hCluster, hConfig, hDigest, -, rfl, rfl, rfl⟩ := h
    exact .barrier successor hCluster hConfig hDigest
  | _ => cases h

theorem recognize_of_changeForCommand {command : StoredCommand} {change : ConfigChange}
    (h : changeForCommand command = .ok (some change)) :
    ConfigChange.recognize command = some change := by
  unfold changeForCommand at h
  split at h
  · cases h
  · split at h
    · cases h
    · rename_i found hFound
      rw [hFound, Option.some.inj (Except.ok.inj h)]

theorem barrierValue_of_resolves {v : RecorderView} {slot : Nat} {value : AcceptedValue}
    {command : StoredCommand} {change : ConfigChange} {predecessor : ConfigurationSeal}
    (hResolves : v.Resolves slot value command (some change))
    (hSlot : slot = predecessor.stopSlot + 1)
    (hActivates : activates v.clusterId v.configuration predecessor change) :
    BarrierValue v.clusterId v.epoch v.configuration.configId v.configuration.configDigest
      predecessor value :=
  ⟨command, change, recognize_of_changeForCommand hResolves.change_eq,
    names_of_activates hActivates, hSlot ▸ hResolves.resolved⟩

end Barriers

def IsrState.Holds (isr : IsrState) (p : Proposal) : Prop :=
  isr.firstCurrent = some p ∨ isr.aggregateCurrent = some p ∨ isr.aggregatePrior = some p

theorem IsrState.holds_next {isr : IsrState} {step : Nat} {proposal p : Proposal}
    (h : (isr.next step proposal).Holds p) : isr.Holds p ∨ p = proposal := by
  unfold next at h
  split at h
  · rcases h with hFirst | hCurrent | hPrior
    · cases hOld : isr.firstCurrent with
      | none =>
        simp only [hOld] at hFirst
        exact .inr (Option.some.inj hFirst).symm
      | some first =>
        simp only [hOld] at hFirst
        exact .inl (.inl (hOld.trans hFirst))
    · dsimp only at hCurrent
      split at hCurrent
      · exact .inr (Option.some.inj hCurrent).symm
      · exact .inl (.inr (.inl hCurrent))
    · exact .inl (.inr (.inr hPrior))
  · split at h
    · rcases h with hFirst | hCurrent | hPrior
      · exact .inr (Option.some.inj hFirst).symm
      · exact .inr (Option.some.inj hCurrent).symm
      · dsimp only at hPrior
        split at hPrior
        · exact .inl (.inr (.inl hPrior))
        · cases hPrior
    · exact .inl h

namespace Recorder

section Takes

variable [Sha256] {r r' : Recorder} {move : Move}

structure Guarded (r : Recorder) (configId : Nat) (configDigest : LogHash)
    (predecessor : ConfigurationSeal) : Prop where
  proven : ∀ c ∈ r.history, c.configId = configId → c.activated → ∃ state proof value,
    r.slots (predecessor.stopSlot + 1) = some state ∧ state.configId = configId ∧
      state.decidedProof = some proof ∧ proof.proposal.value = some value ∧
      BarrierValue r.clusterId r.epoch configId configDigest predecessor value ∧
      proof.context = ⟨configId, configDigest, predecessor.stopSlot + 1⟩
  closed : ∀ c ∈ r.history, c.configId = configId → c.activated = false →
    (∀ m, c.maxAcceptedOrDecidedSlot = some m → m ≤ predecessor.stopSlot + 1) ∧
    ∀ slot state, r.slots slot = some state → state.configId = configId →
      slot = predecessor.stopSlot + 1
  recorded : ∀ state, r.slots (predecessor.stopSlot + 1) = some state →
    state.configId = configId → ∀ p, state.isr.Holds p → ∃ value, p.value = some value ∧
      BarrierValue r.clusterId r.epoch configId configDigest predecessor value

def InstalledWith (r : Recorder) (configId : Nat) (configDigest : LogHash)
    (predecessor : ConfigurationSeal) : Prop :=
  ∀ c ∈ r.history, c.configId = configId →
    c.configDigest = configDigest ∧ c.predecessor = some predecessor

theorem InstalledWith.of_takes (h : Takes r move r') {configId : Nat} {configDigest : LogHash}
    {predecessor : ConfigurationSeal} (hLater : r'.InstalledWith configId configDigest predecessor) :
    r.InstalledWith configId configDigest predecessor := by
  intro c hc hId
  obtain ⟨c', hc', hSame⟩ := exists_of_mem_history h hc
  obtain ⟨hDigest, hPredecessor⟩ := hLater c' hc' (hSame.configId_eq.trans hId)
  exact ⟨hSame.configDigest_eq.symm.trans hDigest, hSame.predecessor_eq.symm.trans hPredecessor⟩

theorem barrier_of_passes {configId : Nat} {configDigest : LogHash}
    {predecessor : ConfigurationSeal} (hInstalled : r.InstalledWith configId configDigest predecessor)
    (hHere : r.configuration.configId = configId) (hInactive : r.configuration.activated = false)
    {request : RecordRequest} {value : AcceptedValue} {command : StoredCommand}
    {change : Option ConfigChange} (hPasses : r.view.Passes request value command change) :
    request.slot = predecessor.stopSlot + 1 ∧
      BarrierValue r.clusterId r.epoch configId configDigest predecessor value := by
  obtain ⟨hDigest, hPredecessor⟩ := hInstalled _ List.mem_cons_self hHere
  obtain ⟨predecessor', hPredecessor', hFirst, hAll⟩ := hPasses.admitted.opens hInactive
  obtain rfl := Option.some.inj (hPredecessor.symm.trans hPredecessor')
  have hSome : change.isSome := by
    rcases hPasses.active with hActive | hSome
    · cases hInactive.symm.trans hActive
    · exact hSome
  obtain ⟨c, rfl⟩ := Option.isSome_iff_exists.mp hSome
  have hBarrier := barrierValue_of_resolves hPasses.toResolves hFirst (by simpa using hAll)
  rw [show r.view.configuration.configId = configId from hHere,
    show r.view.configuration.configDigest = configDigest from hDigest] at hBarrier
  exact ⟨hFirst, hBarrier⟩

namespace Guarded

variable {configId : Nat} {configDigest : LogHash} {predecessor : ConfigurationSeal}

theorem congr (h : r.Guarded configId configDigest predecessor) (hCluster : r'.clusterId = r.clusterId)
    (hEpoch : r'.epoch = r.epoch) (hHistory : r'.history = r.history) (hSlots : r'.slots = r.slots) :
    r'.Guarded configId configDigest predecessor := by
  obtain ⟨hProven, hClosed, hRecorded⟩ := h
  constructor
  · rw [hHistory, hSlots, hCluster, hEpoch]
    exact hProven
  · rw [hHistory, hSlots]
    exact hClosed
  · rw [hSlots, hCluster, hEpoch]
    exact hRecorded

theorem slot_ne (h : r.Guarded configId configDigest predecessor)
    (hId : r.configuration.configId = configId) (hActive : r.configuration.activated)
    {slot : Nat} {digest : LogHash} {state : RecorderSlotState}
    (hLoad : r.load slot digest = .ok state) (hUndecided : state.decidedProof = none) :
    predecessor.stopSlot + 1 ≠ slot := by
  obtain ⟨stored, proof, -, hStored, -, hProof, -⟩ :=
    h.proven _ List.mem_cons_self hId hActive
  refine slot_ne_of_load hLoad hStored ?_
  rintro rfl
  cases hUndecided.symm.trans hProof

theorem apply_other (h : r.Guarded configId configDigest predecessor)
    (hOther : r.configuration.configId ≠ configId) {slot : Nat} {digest : LogHash}
    {state : RecorderSlotState} {transition : Transition} (replaces : Bool)
    (hLoad : r.load slot digest = .ok state) (hContext : transition.state.context = state.context)
    (hId : transition.configuration.configId = r.configuration.configId) :
    (r.apply replaces transition).Guarded configId configDigest predecessor := by
  obtain ⟨hSlot, -, -, hConfig, -⟩ := load_eq_ok hLoad
  have hAt : transition.state.slot = slot := (congrArg Context.slot hContext).trans hSlot
  have hIn : transition.state.configId = r.configuration.configId :=
    (congrArg Context.configId hContext).trans hConfig
  have hOld : ∀ c ∈ (r.apply replaces transition).history, c.configId = configId →
      c ∈ r.history := by
    intro c hc hHere
    rcases List.mem_cons.mp hc with rfl | hRetired
    · exact absurd (hId.symm.trans hHere) hOther
    · exact List.mem_cons_of_mem _ (by simpa using hRetired)
  have hSlots : ∀ s stored, (r.apply replaces transition).slots s = some stored →
      stored.configId = configId → r.slots s = some stored := by
    intro s stored hStored hHere
    by_cases hs : s = transition.state.slot
    · subst hs
      obtain rfl : transition.state = stored := by simpa using hStored
      exact absurd (hIn.symm.trans hHere) hOther
    · simpa [hs] using hStored
  constructor
  · intro c hc hHere hActive
    obtain ⟨stored, proof, value, hStored, hStoredId, hRest⟩ :=
      h.proven c (hOld c hc hHere) hHere hActive
    have hNe : predecessor.stopSlot + 1 ≠ slot := by
      refine slot_ne_of_load hLoad hStored ?_
      rintro rfl
      exact hOther (hConfig.symm.trans hStoredId)
    refine ⟨stored, proof, value, ?_, hStoredId, by simpa using hRest⟩
    rw [apply_slots, Function.update_of_ne (hAt ▸ hNe)]
    exact hStored
  · intro c hc hHere hInactive
    obtain ⟨hMax, hOnly⟩ := h.closed c (hOld c hc hHere) hHere hInactive
    exact ⟨hMax, fun s stored hStored hStoredId =>
      hOnly s stored (hSlots s stored hStored hStoredId) hStoredId⟩
  · intro stored hStored hStoredId
    simpa using h.recorded stored (hSlots _ stored hStored hStoredId) hStoredId

theorem apply_active (h : r.Guarded configId configDigest predecessor)
    (hHere : r.configuration.configId = configId) (hActive : r.configuration.activated)
    {slot : Nat} {digest : LogHash} {state : RecorderSlotState} {transition : Transition}
    (replaces : Bool) (hSound : (r.apply replaces transition).Sound)
    (hLoad : r.load slot digest = .ok state) (hUndecided : state.decidedProof = none)
    (hContext : transition.state.context = state.context)
    (hId : transition.configuration.configId = r.configuration.configId)
    (hStill : transition.configuration.activated) :
    (r.apply replaces transition).Guarded configId configDigest predecessor := by
  obtain ⟨hSlot, -⟩ := load_eq_ok hLoad
  have hAt : transition.state.slot = slot := (congrArg Context.slot hContext).trans hSlot
  have hNe := h.slot_ne hHere hActive hLoad hUndecided
  have hSame : (r.apply replaces transition).slots (predecessor.stopSlot + 1) =
      r.slots (predecessor.stopSlot + 1) := by
    rw [apply_slots, Function.update_of_ne (hAt ▸ hNe)]
  have hCurrent : ∀ c ∈ (r.apply replaces transition).history, c.configId = configId →
      c = transition.configuration := fun c hc hId' =>
    hSound.current_of_configId hc (hId'.trans (hHere.symm.trans hId.symm))
  constructor
  · intro c hc hId' _
    rw [hSame, apply_clusterId, apply_epoch]
    exact h.proven _ List.mem_cons_self hHere hActive
  · intro c hc hId' hInactive
    rw [hCurrent c hc hId', hStill] at hInactive
    cases hInactive
  · rw [hSame, apply_clusterId, apply_epoch]
    exact h.recorded

theorem apply_inactive (h : r.Guarded configId configDigest predecessor)
    (hHere : r.configuration.configId = configId) (hInactive : r.configuration.activated = false)
    {slot : Nat} {digest : LogHash} {state : RecorderSlotState} {transition : Transition}
    {change : Option ConfigChange} {value : AcceptedValue}
    (replaces : Bool) (hSound : (r.apply replaces transition).Sound)
    (hLoad : r.load slot digest = .ok state) (hContext : transition.state.context = state.context)
    (hApplied : Applied r.configuration transition.state change value transition.configuration)
    (hFirst : slot = predecessor.stopSlot + 1)
    (hHolds : ∀ p, transition.state.isr.Holds p → state.isr.Holds p ∨ p.value = some value ∧
      BarrierValue r.clusterId r.epoch configId configDigest predecessor value)
    (hProven : transition.configuration.activated → ∃ proof,
      transition.state.decidedProof = some proof ∧ proof.proposal.value = some value ∧
      BarrierValue r.clusterId r.epoch configId configDigest predecessor value ∧
      proof.context = ⟨configId, configDigest, predecessor.stopSlot + 1⟩) :
    (r.apply replaces transition).Guarded configId configDigest predecessor := by
  obtain ⟨hSlot, -, -, hConfig, -, hStored⟩ := load_eq_ok hLoad
  have hAt : transition.state.slot = predecessor.stopSlot + 1 :=
    (congrArg Context.slot hContext).trans (hSlot.trans hFirst)
  have hIn : transition.state.configId = configId :=
    (congrArg Context.configId hContext).trans (hConfig.trans hHere)
  have hNew : (r.apply replaces transition).slots (predecessor.stopSlot + 1) =
      some transition.state := by
    rw [apply_slots, hAt, Function.update_self]
  obtain ⟨hMax, hOnly⟩ := h.closed _ List.mem_cons_self hHere hInactive
  have hCurrent : ∀ c ∈ (r.apply replaces transition).history, c.configId = configId →
      c = transition.configuration := fun c hc hId =>
    hSound.current_of_configId hc (hId.trans (hHere.symm.trans hApplied.configId_eq.symm))
  constructor
  · intro c hc hId hActive
    rw [hCurrent c hc hId] at hActive
    obtain ⟨proof, hProof, hValue, hBarrier, hProofContext⟩ := hProven hActive
    rw [apply_clusterId, apply_epoch]
    exact ⟨transition.state, proof, value, hNew, hIn, hProof, hValue, hBarrier, hProofContext⟩
  · intro c hc hId _
    rw [hCurrent c hc hId]
    constructor
    · intro m hm
      obtain ⟨m', hMax', -, hWhich, -⟩ := applied_max hApplied
      obtain rfl := Option.some.inj (hm.symm.trans hMax')
      rcases hWhich with rfl | hOld
      · exact hAt.le
      · exact hMax m hOld
    · intro s stored hs hStoredId
      by_cases hEq : s = transition.state.slot
      · exact hEq.trans hAt
      · exact hOnly s stored (by simpa [hEq] using hs) hStoredId
  · rw [hNew, apply_clusterId, apply_epoch]
    rintro stored ⟨⟩ - p hp
    rcases hHolds p hp with hOld | ⟨hValue, hBarrier⟩
    · rcases hStored with hStored | ⟨-, rfl⟩
      · exact h.recorded state (hFirst ▸ hStored) (hConfig.trans hHere) p hOld
      · rcases hOld with hOld | hOld | hOld <;> cases hOld
    · exact ⟨value, hValue, hBarrier⟩

theorem of_record (h : r.Guarded configId configDigest predecessor) (hSound : r.Sound)
    (hInstalled : r.InstalledWith configId configDigest predecessor) {request : RecordRequest}
    {value : AcceptedValue} {command : StoredCommand} {change : Option ConfigChange}
    {state : RecorderSlotState} {transition : Transition} (replaces : Bool)
    (hPasses : r.view.Passes request value command change)
    (hLoad : r.load request.slot request.configDigest = .ok state)
    (hRecords : r.view.Records request change value state transition) :
    (r.apply replaces transition).Guarded configId configDigest predecessor := by
  have hNextSound := hSound.takes (.record replaces hPasses hLoad hRecords)
  have hContext : transition.state.context = state.context := by
    rw [hRecords.state_eq, context_nextState]
  have hApplied := hRecords.applied
  rw [← hRecords.state_eq] at hApplied
  by_cases hHere : r.configuration.configId = configId
  · cases hActive : r.configuration.activated with
    | true =>
      refine h.apply_active hHere hActive replaces hNextSound hLoad hRecords.undecided hContext
        hApplied.configId_eq ?_
      have hStill : r.view.configuration.activated = true := hActive
      rw [hApplied.activated, hStill, Bool.true_or]
    | false =>
      obtain ⟨hFirst, hBarrier⟩ := barrier_of_passes hInstalled hHere hActive hPasses
      refine h.apply_inactive hHere hActive replaces hNextSound hLoad hContext hApplied hFirst ?_ ?_
      · intro p hp
        rw [hRecords.state_eq] at hp
        rcases IsrState.holds_next hp with hOld | rfl
        · exact .inl hOld
        · exact .inr ⟨hPasses.value_eq, hBarrier⟩
      · intro hActivated
        have hUndecided : transition.state.decidedProof = none := by
          rw [hRecords.state_eq]
          exact hRecords.undecided
        rw [hApplied.activated, hUndecided, show r.view.configuration.activated = false from hActive]
          at hActivated
        simp at hActivated
  · exact h.apply_other hHere replaces hLoad hContext hApplied.configId_eq

theorem of_install (h : r.Guarded configId configDigest predecessor) (hSound : r.Sound)
    (hInstalled : r.InstalledWith configId configDigest predecessor) {proof : DecisionProof}
    {membership : Membership} {value : AcceptedValue} {command : StoredCommand}
    {change : Option ConfigChange} {state : RecorderSlotState} {transition : Transition}
    (replaces : Bool) (hLoad : r.load proof.slot proof.configDigest = .ok state)
    (hInstalls : r.view.Installs proof membership value command change state transition) :
    (r.apply replaces transition).Guarded configId configDigest predecessor := by
  have hNextSound := hSound.takes (.install replaces hLoad hInstalls)
  obtain ⟨decided, hState, -⟩ := hInstalls.installed
  have hContext : transition.state.context = state.context := by
    rw [hState]
    rfl
  have hApplied := hInstalls.applied
  by_cases hHere : r.configuration.configId = configId
  · cases hActive : r.configuration.activated with
    | true =>
      refine h.apply_active hHere hActive replaces hNextSound hLoad hInstalls.undecided hContext
        hApplied.configId_eq ?_
      have hStill : r.view.configuration.activated = true := hActive
      rw [hApplied.activated, hStill, Bool.true_or]
    | false =>
      obtain ⟨hDigest, hPredecessor⟩ := hInstalled _ List.mem_cons_self hHere
      obtain ⟨predecessor', hPredecessor', hFirst, hAll⟩ := hInstalls.admitted.opens hActive
      obtain rfl := Option.some.inj (hPredecessor.symm.trans hPredecessor')
      refine h.apply_inactive hHere hActive replaces hNextSound hLoad hContext hApplied hFirst ?_ ?_
      · intro p hp
        rw [hState] at hp
        exact .inl hp
      · intro hActivated
        rw [hApplied.activated, show r.view.configuration.activated = false from hActive,
          Bool.false_or, Bool.and_eq_true] at hActivated
        obtain ⟨c, rfl, -⟩ := (Option.any_eq_true _ _).mp hActivated.1
        have hBarrier := barrierValue_of_resolves hInstalls.toResolves hFirst
          (by simpa using hAll)
        rw [show r.view.configuration.configId = configId from hHere,
          show r.view.configuration.configDigest = configDigest from hDigest] at hBarrier
        refine ⟨proof, by rw [hState], hInstalls.value_eq, hBarrier, ?_⟩
        rw [DecisionProof.context, hInstalls.config_eq, hInstalls.digest_eq, hFirst]
        exact congrArg₂ (fun i d => Context.mk i d _) hHere hDigest
  · exact h.apply_other hHere replaces hLoad hContext hApplied.configId_eq

theorem takes (h : r.Guarded configId configDigest predecessor) (hSound : r.Sound)
    (hTakes : Takes r move r') (hInstalled : r'.InstalledWith configId configDigest predecessor)
    (hProofs : ∀ stopSlot prefixHash recoveredTip recoveredHash,
      move = .activate stopSlot prefixHash recoveredTip recoveredHash →
        r.configuration.configId ≠ configId) :
    r'.Guarded configId configDigest predecessor := by
  have hBefore := hInstalled.of_takes hTakes
  have hNextSound := hSound.takes hTakes
  cases hTakes with
  | idle => exact h
  | store => exact h.congr (by simp) (by simp) (by simp [history]) (by simp)
  | stage => exact h.congr (by simp) (by simp) (by simp [history]) (by simp)
  | record replaces hPasses hLoad hRecords =>
    exact h.of_record hSound hBefore replaces hPasses hLoad hRecords
  | install replaces hLoad hInstalls =>
    exact h.of_install hSound hBefore replaces hLoad hInstalls
  | stageStop => exact h.congr (by simp) (by simp) (by simp [history]) (by simp)
  | @succeed membership stopProof installed stopCommand hSucceeds hStored =>
    have hInactive : installed.activated = false := by rw [hSucceeds.installed_eq]
    have hEmpty : installed.maxAcceptedOrDecidedSlot = none := by rw [hSucceeds.installed_eq]
    constructor
    · intro c hc hHere hActive
      rcases List.mem_cons.mp hc with rfl | hOld
      · cases hInactive.symm.trans hActive
      · simpa using h.proven c hOld hHere hActive
    · intro c hc hHere hClosed
      rcases List.mem_cons.mp hc with rfl | hOld
      · refine ⟨fun m hm => (Option.some_ne_none m (hm.symm.trans hEmpty)).elim, ?_⟩
        -- a state of the new configuration would have been reached by an older one
        intro slot state hState hStateId
        obtain ⟨-, c', hc', hId', m, hMax, -⟩ := hSound.slots slot state (by simpa using hState)
        have hSame := hNextSound.current_of_configId (List.mem_cons_of_mem _ hc')
          (hId'.trans (hStateId.trans hHere.symm))
        rw [hSame] at hMax
        exact (Option.some_ne_none m (hMax.symm.trans hEmpty)).elim
      · simpa using h.closed c hOld hHere hClosed
    · intro state hState
      simpa using h.recorded state (by simpa using hState)
  | @activate _ _ recoveredTip =>
    have hOther := hProofs _ _ _ _ rfl
    have hRetired : ∀ c : ConfigurationState, c ∈ history { r with configuration := { r.configuration
        with activated := true, maxAcceptedOrDecidedSlot := some recoveredTip } } →
        c.configId = configId → c ∈ r.history := by
      intro c hc hHere
      rcases List.mem_cons.mp hc with rfl | hOld
      · exact absurd hHere hOther
      · exact List.mem_cons_of_mem _ hOld
    exact ⟨fun c hc hHere => h.proven c (hRetired c hc hHere) hHere,
      fun c hc hHere => h.closed c (hRetired c hc hHere) hHere, h.recorded⟩

end Guarded

end Takes

end Recorder

section Worlds

variable [Sha256]

open Recorder

def ActivatedByProof (configId : Nat) (w : World Recorder) : Action Conduct RecorderEvent → Prop
  | .occur k (.recoverActivation ..) => (w.recorders k).configuration.configId ≠ configId
  | _ => True

theorem Guarded.new (G : Group) (configId : Nat) (configDigest : LogHash)
    (predecessor : ConfigurationSeal) (k : NodeId)
    (h : (G.fresh k).InstalledWith configId configDigest predecessor) :
    (G.fresh k).Guarded configId configDigest predecessor := by
  have hOther : ∀ c ∈ (G.fresh k).history, c.configId ≠ configId := by
    intro c hc hHere
    obtain ⟨-, hPredecessor⟩ := h c hc hHere
    obtain rfl := List.mem_singleton.mp hc
    cases hPredecessor
  exact ⟨fun c hc hHere => absurd hHere (hOther c hc), fun c hc hHere => absurd hHere (hOther c hc),
    fun state hState => by cases hState⟩

theorem installedWith_of_step {w w' : World Recorder} {a : Action Conduct RecorderEvent}
    (hStep : w.step a = some w') {k : NodeId} {configId : Nat} {configDigest : LogHash}
    {predecessor : ConfigurationSeal}
    (h : (w'.recorders k).InstalledWith configId configDigest predecessor) :
    (w.recorders k).InstalledWith configId configDigest predecessor := by
  rcases step_recorders hStep k with hSame | ⟨move, hTakes, -⟩
  · exact hSame ▸ h
  · exact h.of_takes hTakes

theorem Guarded.run {G : Group} {configId : Nat} {configDigest : LogHash}
    {predecessor : ConfigurationSeal}
    {allowed : World Recorder → Action Conduct RecorderEvent → Prop}
    (hProofs : ∀ w a, allowed w a → ActivatedByProof configId w a) {w : World Recorder}
    (hRun : Run World.step allowed (World.init G.fresh) w) (k : NodeId)
    (hInstalled : (w.recorders k).InstalledWith configId configDigest predecessor) :
    (w.recorders k).Guarded configId configDigest predecessor := by
  refine hRun.invariant_of_reachable (P := fun w => ∀ k,
    (w.recorders k).InstalledWith configId configDigest predecessor →
      (w.recorders k).Guarded configId configDigest predecessor)
    (Guarded.new G configId configDigest predecessor) ?_ k hInstalled
  intro w a w' hHere hGuarded hAllowed hStep k hLater
  rcases step_recorders hStep k with hSame | ⟨move, hTakes, hCauses⟩
  · rw [hSame] at hLater ⊢
    exact hGuarded k hLater
  · refine (hGuarded k (hLater.of_takes hTakes)).takes (sound_run hHere k) hTakes hLater ?_
    rintro stopSlot prefixHash recoveredTip recoveredHash rfl
    obtain ⟨conduct, rfl⟩ := hCauses
    exact hProofs w _ hAllowed

section Results

variable {G : Group} {configId : Nat} {membership : Membership} {predecessor : ConfigurationSeal}
  {allowed : World Recorder → Action Conduct RecorderEvent → Prop} {w : World Recorder}

theorem barrier_of_formed
    (hCoherent : ∀ w a, allowed w a → Coherent (G.inConfiguration configId membership) a)
    (hProofs : ∀ w a, allowed w a → ActivatedByProof configId w a)
    (hRun : Run World.step allowed (World.init G.fresh) w)
    (hInstalled : ∀ k, (w.recorders k).InstalledWith configId membership.digest predecessor)
    {proof : DecisionProof} (hProof : proof ∈ w.formed)
    (hContext : proof.context =
      (G.inConfiguration configId membership).context (predecessor.stopSlot + 1)) :
    ∃ value, proof.value = some value ∧
      BarrierValue G.clusterId G.epoch configId membership.digest predecessor value := by
  -- acceptance of the slot comes before the activation, so the gate has seen a barrier
  have hAccepted : ∀ w a w', Run World.step allowed (World.init G.fresh) w → allowed w a →
      w.step a = some w' → ∀ k p,
      Tracks.AcceptedBy (G.inConfiguration configId membership) (predecessor.stopSlot + 1) w a w' k p →
      (w'.recorders k).InstalledWith configId membership.digest predecessor →
      ∃ value, p.value = some value ∧
        BarrierValue G.clusterId G.epoch configId membership.digest predecessor value := by
    rintro w a w' hHere hAllowed hStep k p
      ⟨index, worker, conduct, request, -, hRequest, rfl, -, -, hAccepts⟩ hLater
    have hInstalled := installedWith_of_step hStep hLater
    have hGuarded := Guarded.run hProofs hHere k hInstalled
    obtain ⟨value, command, change, state, t, replaces, hPasses, hLoad, hRecords, -⟩ :=
      record_of_accepts hAccepts
    have hId : (w.recorders k).configuration.configId = configId :=
      hPasses.config_eq.symm.trans (congrArg Context.configId hRequest)
    have hSlot : request.slot = predecessor.stopSlot + 1 := congrArg Context.slot hRequest
    cases hActive : (w.recorders k).configuration.activated with
    | true => exact absurd hSlot.symm (hGuarded.slot_ne hId hActive hLoad hRecords.undecided)
    | false =>
      obtain ⟨-, hBarrier⟩ := barrier_of_passes hInstalled hId hActive hPasses
      obtain ⟨hCluster, hEpoch⟩ := identity_run hHere k
      rw [hCluster, hEpoch] at hBarrier
      exact ⟨value, hPasses.value_eq, hBarrier⟩
  obtain ⟨-, L, hTracks, hBound⟩ := Tracks.run_bound (G.inConfiguration configId membership)
    (predecessor.stopSlot + 1) (Run World.step allowed (World.init G.fresh))
    (fun w k p => (w.recorders k).InstalledWith configId membership.digest predecessor →
      ∃ value, p.value = some value ∧
        BarrierValue G.clusterId G.epoch configId membership.digest predecessor value)
    .refl (fun k => G.register_fresh k _) hCoherent
    (fun w a w' hHere hAllowed hStep => ⟨.step a hHere hAllowed hStep,
      fun k p hp hLater => hp (installedWith_of_step hStep hLater),
      hAccepted w a w' hHere hAllowed hStep⟩) hRun
  obtain ⟨Q, hQuorum, hQ⟩ := quorum_of_decides (hTracks.formed proof hProof hContext)
  obtain ⟨k, hk⟩ := List.exists_mem_of_ne_nil _ hQuorum.nonempty
  obtain ⟨s, hs⟩ := hQ k hk
  exact hBound k s _ hs (hInstalled k)

theorem barrier_before_formed
    (hCoherent : ∀ w a, allowed w a → Coherent (G.inConfiguration configId membership) a)
    (hInstalls : ∀ w a, allowed w a → InstallsFormed w a)
    (hProofs : ∀ w a, allowed w a → ActivatedByProof configId w a)
    (hRun : Run World.step allowed (World.init G.fresh) w)
    (hInstalled : ∀ k, (w.recorders k).InstalledWith configId membership.digest predecessor)
    {proof : DecisionProof} (hProof : proof ∈ w.formed)
    (hContext : proof.context = (G.inConfiguration configId membership).context proof.slot)
    (hLater : predecessor.stopSlot + 1 < proof.slot) :
    ∃ barrier ∈ w.formed, barrier.context =
        (G.inConfiguration configId membership).context (predecessor.stopSlot + 1) ∧
      ∃ value, barrier.value = some value ∧
        BarrierValue G.clusterId G.epoch configId membership.digest predecessor value := by
  obtain ⟨Q, hQuorum, hReached⟩ := reached_of_formed hCoherent hRun hProof hContext
  obtain ⟨k, hk⟩ := List.exists_mem_of_ne_nil _ hQuorum.nonempty
  obtain ⟨c, hc, hId, m, hMax, hm⟩ := hReached k hk
  have hGuarded := Guarded.run hProofs hRun k (hInstalled k)
  cases hActive : c.activated with
  | false =>
    have := (hGuarded.closed c hc hId hActive).1 m hMax
    omega
  | true =>
    obtain ⟨state, barrier, value, hState, -, hDecided, hValue, hBarrier, hBarrierContext⟩ :=
      hGuarded.proven c hc hId hActive
    have hAttested := attested_run hInstalls hRun
    obtain ⟨hCluster, hEpoch⟩ := identity_run hRun k
    rw [hCluster, hEpoch] at hBarrier
    exact ⟨barrier, hAttested.recorders k barrier ⟨_, state, hState, hDecided⟩, hBarrierContext,
      value, hValue, hBarrier⟩

omit [Sha256] in
theorem holds_of_mem_values {r : Recorder} {slot : Nat} {state : RecorderSlotState}
    (h : Orderly r slot state) {value : AcceptedValue} (hValue : value ∈ recorderStateValues state) :
    (∃ p, state.isr.Holds p ∧ p.value = some value) ∨
      ∃ proof, state.decidedProof = some proof ∧ proof.proposal.value = some value := by
  simp only [recorderStateValues, List.mem_filterMap, List.mem_cons, List.not_mem_nil, or_false,
    id_eq, exists_eq_right, h.accepted, Option.map_none, reduceCtorEq, false_or] at hValue
  rcases hValue with hDecided | hFirst | hCurrent | hPrior | hProof
  · obtain ⟨certificate, hCertificate, rfl⟩ := Option.map_eq_some_iff.mp hDecided.symm
    exact .inr (h.decided certificate hCertificate)
  · obtain ⟨p, hp, hpValue⟩ := Option.bind_eq_some_iff.mp hFirst.symm
    exact .inl ⟨p, .inl hp, hpValue⟩
  · obtain ⟨p, hp, hpValue⟩ := Option.bind_eq_some_iff.mp hCurrent.symm
    exact .inl ⟨p, .inr (.inl hp), hpValue⟩
  · obtain ⟨p, hp, hpValue⟩ := Option.bind_eq_some_iff.mp hPrior.symm
    exact .inl ⟨p, .inr (.inr hp), hpValue⟩
  · obtain ⟨proof, hProof, hProofValue⟩ := Option.bind_eq_some_iff.mp hProof.symm
    exact .inr ⟨proof, hProof, hProofValue⟩

theorem barrier_of_inactive
    (hCoherent : ∀ w a, allowed w a → Coherent (G.inConfiguration configId membership) a)
    (hInstalls : ∀ w a, allowed w a → InstallsFormed w a)
    (hProofs : ∀ w a, allowed w a → ActivatedByProof configId w a)
    (hRun : Run World.step allowed (World.init G.fresh) w)
    (hInstalled : ∀ k, (w.recorders k).InstalledWith configId membership.digest predecessor)
    {k : NodeId} (hId : (w.recorders k).configuration.configId = configId)
    (hInactive : (w.recorders k).configuration.activated = false) {slot : Nat}
    {state : RecorderSlotState} (hState : (w.recorders k).slots slot = some state)
    (hStateId : state.configId = configId) {value : AcceptedValue}
    (hValue : value ∈ recorderStateValues state) :
    BarrierValue G.clusterId G.epoch configId membership.digest predecessor value := by
  have hGuarded := Guarded.run hProofs hRun k (hInstalled k)
  obtain ⟨-, hOnly⟩ := hGuarded.closed _ List.mem_cons_self hId hInactive
  obtain rfl := hOnly slot state hState hStateId
  have hOrderly := orderly_run hRun k _ state hState
  rcases holds_of_mem_values hOrderly hValue with ⟨p, hHolds, hp⟩ | ⟨proof, hProof, hProofValue⟩
  · obtain ⟨value', hValue', hBarrier⟩ := hGuarded.recorded state hState hStateId p hHolds
    obtain ⟨hCluster, hEpoch⟩ := identity_run hRun k
    rw [hCluster, hEpoch] at hBarrier
    obtain rfl := Option.some.inj (hp.symm.trans hValue')
    exact hBarrier
  · have hAttested := attested_run hInstalls hRun
    obtain ⟨hSlot, hConfig, c, hc, hcId, hDigest⟩ := hOrderly.proof proof hProof
    obtain ⟨hcDigest, -⟩ := hInstalled k c hc (hcId.trans hStateId)
    have hContext : proof.context =
        (G.inConfiguration configId membership).context (predecessor.stopSlot + 1) := by
      rw [DecisionProof.context, hSlot, hConfig, hStateId, hDigest, hcDigest]
      rfl
    obtain ⟨value', hValue', hBarrier⟩ := barrier_of_formed hCoherent hProofs hRun hInstalled
      (hAttested.recorders k proof ⟨_, state, hState, hProof⟩) hContext
    obtain rfl := Option.some.inj (hProofValue.symm.trans hValue')
    exact hBarrier

end Results

end Worlds

end Rhiza.Quepaxa
