import Rhiza.Quepaxa.Activation
import Rhiza.Quepaxa.Commit

/-! # The changes that an operation asks for

What an operation reads from memory and files is what the content says, as far as
it is read at all. The change it asks for then leads from a content that the
store accepts to another one.
-/

namespace Rhiza.Quepaxa

open Core Library

structure RecorderView.Shows (v v' : RecorderView) : Prop where
  recorderId_eq : v'.recorderId = v.recorderId
  clusterId_eq : v'.clusterId = v.clusterId
  epoch_eq : v'.epoch = v.epoch
  configuration_eq : v'.configuration = v.configuration
  holdsSlot_eq : v'.holdsSlot = v.holdsSlot
  load : ∀ slot configDigest state, v.load slot configDigest = .ok state →
    v'.load slot configDigest = .ok state
  fetch : ∀ hash command, v.fetch hash = .ok command → v'.fetch hash = .ok command

namespace RecorderView.Shows

variable [Sha256] {v v' : RecorderView}

omit [Sha256] in
theorem commandForValue (h : v.Shows v') {value : AcceptedValue} {command : StoredCommand}
    (hOk : v.commandForValue value = .ok command) : v'.commandForValue value = .ok command :=
  commandForValue_eq_ok.mpr (h.fetch _ _ (commandForValue_eq_ok.mp hOk))

theorem validateValue (h : v.Shows v') {slot : Nat} {value : AcceptedValue}
    (hOk : v.validateValue slot value = .ok ()) : v'.validateValue slot value = .ok () := by
  obtain ⟨command, hCommand, hOk⟩ := bind_ok_iff.mp hOk
  refine bind_ok_iff.mpr ⟨command, h.commandForValue hCommand, ?_⟩
  rw [validateResolvedCommandForValue, h.clusterId_eq, h.epoch_eq, h.configuration_eq]
  exact hOk

theorem resolveCommand (h : v.Shows v') {request : RecordRequest} {value : AcceptedValue}
    {command : StoredCommand} (hOk : v.resolveCommand request value = .ok command) :
    v'.resolveCommand request value = .ok command := by
  unfold RecorderView.resolveCommand at hOk ⊢
  split
  · rename_i own hOwn
    rw [hOwn] at hOk
    rw [validateResolvedCommandForValue, h.clusterId_eq, h.epoch_eq, h.configuration_eq]
    exact hOk
  · rename_i hNone
    rw [hNone] at hOk
    exact h.commandForValue hOk

theorem admitRequest (h : v.Shows v') {request : RecordRequest}
    {result : AcceptedValue × Option ConfigChange} (hOk : v.admitRequest request = .ok result) :
    v'.admitRequest request = .ok result := by
  simp only [RecorderView.admitRequest, unit_bind_ok_iff] at hOk ⊢
  obtain ⟨hContext, hOk⟩ := hOk
  constructor
  · rw [validateRecordContext, ensureEpoch, h.clusterId_eq, h.epoch_eq, h.configuration_eq]
    exact hContext
  · obtain ⟨value, hValue, hOk⟩ := bind_ok_iff.mp hOk
    obtain ⟨command, hCommand, hOk⟩ := bind_ok_iff.mp hOk
    obtain ⟨change, hChange, hOk⟩ := bind_ok_iff.mp hOk
    refine bind_ok_iff.mpr ⟨value, hValue, bind_ok_iff.mpr ⟨command, h.resolveCommand hCommand,
      bind_ok_iff.mpr ⟨change, hChange, ?_⟩⟩⟩
    rw [recheckCommand, validateResolvedCommandForValue, h.clusterId_eq, h.epoch_eq,
      h.configuration_eq]
    exact hOk

theorem recordProposal (h : v.Shows v') {request : RecordRequest}
    {result : RecordSummary × Option Transition} (hOk : v.recordProposal request = .ok result) :
    v'.recordProposal request = .ok result := by
  obtain ⟨⟨value, change⟩, hAdmit, hOk⟩ := bind_ok_iff.mp hOk
  obtain ⟨state, hLoad, hOk⟩ := bind_ok_iff.mp hOk
  refine bind_ok_iff.mpr ⟨(value, change), h.admitRequest hAdmit, bind_ok_iff.mpr ⟨state,
    h.load _ _ _ hLoad, ?_⟩⟩
  rw [recordInSlot, h.recorderId_eq, h.configuration_eq]
  exact hOk

theorem admitProof (h : v.Shows v') {proof : DecisionProof} {membership : Membership}
    {value : AcceptedValue} (hOk : v.admitProof proof membership = .ok value) :
    v'.admitProof proof membership = .ok value := by
  simp only [RecorderView.admitProof, unit_bind_ok_iff] at hOk ⊢
  rw [h.clusterId_eq, h.epoch_eq, h.configuration_eq]
  obtain ⟨hCluster, hConfig, hValid, hOk⟩ := hOk
  obtain ⟨found, hValue, hOk⟩ := bind_ok_iff.mp hOk
  obtain ⟨hChecked, hOk⟩ := unit_bind_ok_iff.mp hOk
  exact ⟨hCluster, hConfig, hValid, bind_ok_iff.mpr ⟨found, hValue,
    unit_bind_ok_iff.mpr ⟨h.validateValue hChecked, hOk⟩⟩⟩

theorem installDecisionProofRecord (h : v.Shows v') {proof : DecisionProof}
    {membership : Membership} {transition : Option Transition}
    (hOk : v.installDecisionProofRecord proof membership = .ok transition) :
    v'.installDecisionProofRecord proof membership = .ok transition := by
  obtain ⟨value, hAdmit, hOk⟩ := bind_ok_iff.mp hOk
  obtain ⟨state, hLoad, hOk⟩ := bind_ok_iff.mp hOk
  refine bind_ok_iff.mpr ⟨value, h.admitProof hAdmit, bind_ok_iff.mpr ⟨state,
    h.load _ _ _ hLoad, ?_⟩⟩
  cases hProof : state.decidedProof with
  | some existing =>
    simp only [installInSlot, hProof] at hOk ⊢
    exact hOk
  | none =>
    simp only [installInSlot, hProof] at hOk ⊢
    obtain ⟨change, hChange, hOk⟩ := bind_ok_iff.mp hOk
    obtain ⟨command, hCommand, hChange⟩ := bind_ok_iff.mp hChange
    refine bind_ok_iff.mpr ⟨change, bind_ok_iff.mpr ⟨command, h.commandForValue hCommand, hChange⟩, ?_⟩
    rw [h.clusterId_eq, h.configuration_eq]
    exact hOk

theorem installSuccessorFromProof (h : v.Shows v') (membership : Membership)
    (stopProof : DecisionProof) : v'.installSuccessorFromProof membership stopProof =
      v.installSuccessorFromProof membership stopProof := by
  simp only [RecorderView.installSuccessorFromProof, successorStop, h.recorderId_eq,
    h.clusterId_eq, h.epoch_eq, h.configuration_eq]

omit [Sha256] in
theorem recoverSuccessorActivation (h : v.Shows v') (stopSlot : Nat) (prefixHash : LogHash)
    (recoveredTip : Nat) (recoveredHash : LogHash) :
    v'.recoverSuccessorActivationFromCheckpoint stopSlot prefixHash recoveredTip recoveredHash =
      v.recoverSuccessorActivationFromCheckpoint stopSlot prefixHash recoveredTip recoveredHash := by
  simp only [recoverSuccessorActivationFromCheckpoint, h.configuration_eq]

omit [Sha256] in
theorem inspectRecordSummary (h : v.Shows v') {slot : Nat} {summary : Option RecordSummary}
    (hOk : v.inspectRecordSummary slot = .ok summary) :
    v'.inspectRecordSummary slot = .ok summary := by
  unfold RecorderView.inspectRecordSummary at hOk ⊢
  rw [h.holdsSlot_eq, h.configuration_eq, h.recorderId_eq]
  split
  · rename_i hHolds
    rw [if_pos hHolds] at hOk
    obtain ⟨state, hLoad, hOk⟩ := bind_ok_iff.mp hOk
    exact bind_ok_iff.mpr ⟨state, h.load _ _ _ hLoad, hOk⟩
  · rename_i hHolds
    rw [if_neg hHolds] at hOk
    exact hOk

omit [Sha256] in
theorem observeReadFence (h : v.Shows v') {request : ReadFenceRequest}
    {observation : ReadFenceObservation} (hOk : v.observeReadFence request = .ok observation) :
    v'.observeReadFence request = .ok observation := by
  simp only [RecorderView.observeReadFence, unit_bind_ok_iff, ensureEpoch] at hOk ⊢
  rw [h.clusterId_eq, h.epoch_eq, h.configuration_eq, h.recorderId_eq]
  obtain ⟨hCluster, hEpoch, hConfig, hOk⟩ := hOk
  obtain ⟨summary, hSummary, hOk⟩ := bind_ok_iff.mp hOk
  exact ⟨hCluster, hEpoch, hConfig, bind_ok_iff.mpr ⟨summary, h.inspectRecordSummary hSummary, hOk⟩⟩

end RecorderView.Shows

section Reading

variable [Sha256] {K : StoredCommand → Prop} {node : Identity} {strict : Prop} {L : Content}
  {d : Disk} {m : Memory}

theorem fetchCommand_eq_ok {hash : LogHash} {found : Option StoredCommand}
    (h : m.fetchCommand d hash = .ok found) :
    found = Assoc.layered m.wal.commands d.commands hash := by
  unfold Memory.fetchCommand at h
  unfold Assoc.layered
  cases hGet : Assoc.get m.wal.commands hash with
  | some command =>
    rw [hGet] at h
    exact (Except.ok.inj h).symm
  | none =>
    rw [hGet] at h
    exact fetchCommandCache_eq_ok h

theorem loadUnlocked_eq_ok {slot : Nat} {configDigest : LogHash} {state : RecorderSlotState}
    (h : m.loadUnlocked node d slot configDigest = .ok state) :
    Assoc.layered m.wal.slots d.slots slot = some state ∨
      state = .newWithDigest slot node.clusterId node.epoch m.configuration.configId
        configDigest := by
  unfold Memory.loadUnlocked at h
  rw [Assoc.layered]
  cases hGet : Assoc.get m.wal.slots slot with
  | some own =>
    simp only [hGet, unit_bind_ok_iff] at h
    exact .inl (congrArg some (Except.ok.inj h.2))
  | none =>
    simp only [hGet] at h
    cases hFile : d.slots slot with
    | none =>
      simp only [hFile] at h
      exact .inr (Except.ok.inj h).symm
    | some stored =>
      simp only [hFile, unit_bind_ok_iff] at h
      exact .inl (congrArg some (Except.ok.inj h.2.2))

theorem Live.shows (h : Live K node strict L d m) (retired : List ConfigurationState) :
    (m.view node d).Shows (L.recorder node retired).view := by
  have hConfiguration := h.configuration_eq
  have hSlots := h.slots_eq
  have hCommands := h.commands_eq
  obtain ⟨⟨c, head, frames, hs, -⟩, -, -⟩ := h
  refine ⟨rfl, rfl, rfl, hConfiguration.symm, ?_, ?_, ?_⟩
  · funext slot
    change (L.slots slot).isSome = ((Assoc.get m.wal.slots slot).isSome || (d.slots slot).isSome)
    rw [← hSlots, Assoc.layered]
    cases Assoc.get m.wal.slots slot <;> simp
  · intro slot configDigest state hLoad
    change m.loadUnlocked node d slot configDigest = .ok state at hLoad
    change (L.recorder node retired).load slot configDigest = .ok state
    have hHere : L.slots slot = (Assoc.get m.wal.slots slot).or (d.slots slot) := by
      rw [← hSlots]
      rfl
    have hOwns : ∀ stored : RecorderSlotState, L.slots slot = some stored →
        stored.slot = slot → (stored.clusterId = node.clusterId ∧ stored.epoch = node.epoch ∧
          stored.configId = m.configuration.configId ∧
          (configDigest ≠ .zero → stored.configDigest = configDigest)) →
        (L.recorder node retired).load slot configDigest = .ok stored := by
      intro stored hStored hSlot hOwned
      rw [hConfiguration] at hOwned
      have hOwns : (L.recorder node retired).owns slot configDigest stored := by
        simp only [Recorder.owns, decide_eq_true_eq]
        exact ⟨hSlot, hOwned⟩
      unfold Recorder.load
      rw [show (L.recorder node retired).slots slot = some stored from hStored]
      exact if_pos hOwns
    unfold Memory.loadUnlocked at hLoad
    cases hGet : Assoc.get m.wal.slots slot with
    | some own =>
      simp only [hGet, unit_bind_ok_iff, checkDecode_eq_ok, decide_eq_true_eq] at hLoad
      obtain ⟨hOwned, hOk⟩ := hLoad
      obtain rfl := Except.ok.inj hOk
      exact hOwns own (by rw [hHere, hGet]; rfl)
        (hs.slot_of_mem _ (Assoc.mem_of_get hGet)) hOwned
    | none =>
      simp only [hGet] at hLoad
      cases hFile : d.slots slot with
      | none =>
        simp only [hFile] at hLoad
        unfold Recorder.load
        rw [show (L.recorder node retired).slots slot = none by
          change L.slots slot = none
          rw [hHere, hGet, hFile]
          rfl]
        rw [hConfiguration] at hLoad
        exact hLoad
      | some stored =>
        simp only [hFile, unit_bind_ok_iff, checkDecode_eq_ok, decide_eq_true_eq] at hLoad
        obtain ⟨-, ⟨hSlot, hOwned⟩, hOk⟩ := hLoad
        obtain rfl := Except.ok.inj hOk
        exact hOwns stored (by rw [hHere, hGet, hFile]; rfl) hSlot hOwned
  · intro hash command hFetch
    change Except.ok (L.commands hash) = _
    rw [fetchCommand_eq_ok (m := m) (d := d) hFetch, hCommands]

end Reading

structure RecorderSlotState.Voiced (state : RecorderSlotState) : Prop where
  held : ∀ p, state.isr.Holds p → ∃ value, p.value = some value
  first : state.isr.step ≠ 0 → state.isr.firstCurrent ≠ none

theorem mem_recorderStateValues {state : RecorderSlotState} {value : AcceptedValue} :
    value ∈ recorderStateValues state ↔
      (∃ accepted, state.accepted = some accepted ∧ accepted.value = value) ∨
      (∃ certificate, state.decided = some certificate ∧ certificate.value = value) ∨
      (∃ p, state.isr.Holds p ∧ p.value = some value) ∨
      ∃ proof, state.decidedProof = some proof ∧ proof.proposal.value = some value := by
  simp only [recorderStateValues, List.mem_filterMap, List.mem_cons, List.not_mem_nil, or_false,
    id_eq, exists_eq_right, IsrState.Holds]
  simp only [eq_comm (a := some value), Option.map_eq_some_iff, Option.bind_eq_some_iff]
  constructor
  · rintro (h | h | ⟨p, hp, h⟩ | ⟨p, hp, h⟩ | ⟨p, hp, h⟩ | h)
    · exact .inl h
    · exact .inr (.inl h)
    · exact .inr (.inr (.inl ⟨p, .inl hp, h⟩))
    · exact .inr (.inr (.inl ⟨p, .inr (.inl hp), h⟩))
    · exact .inr (.inr (.inl ⟨p, .inr (.inr hp), h⟩))
    · exact .inr (.inr (.inr h))
  · rintro (h | h | ⟨p, hp | hp | hp, h⟩ | h)
    · exact .inl h
    · exact .inr (.inl h)
    · exact .inr (.inr (.inl ⟨p, hp, h⟩))
    · exact .inr (.inr (.inr (.inl ⟨p, hp, h⟩)))
    · exact .inr (.inr (.inr (.inr (.inl ⟨p, hp, h⟩))))
    · exact .inr (.inr (.inr (.inr (.inr h))))

theorem IsrState.firstCurrent_next {isr : IsrState} (h : isr.step ≠ 0 → isr.firstCurrent ≠ none)
    (step : Nat) (proposal : Proposal) : (isr.next step proposal).firstCurrent ≠ none := by
  unfold next
  split
  · cases hFirst : isr.firstCurrent <;> simp
  · split
    · simp
    · rename_i hOther hNotLater
      exact h (by omega)

section Voiced

variable [Sha256] {r r' : Recorder} {move : Recorder.Move}

omit [Sha256] in
theorem RecorderSlotState.Voiced.next {state : RecorderSlotState} (h : state.Voiced)
    {request : RecordRequest} {value : AcceptedValue}
    (hValue : request.proposal.value = some value) :
    (RecorderView.nextState state request).Voiced := by
  constructor
  · intro p hp
    rcases IsrState.holds_next hp with hOld | rfl
    · exact h.held p hOld
    · exact ⟨value, hValue⟩
  · intro _
    exact IsrState.firstCurrent_next h.first _ _

omit [Sha256] in
theorem voiced_of_load (h : ∀ slot state, r.slots slot = some state → state.Voiced) {slot : Nat}
    {configDigest : LogHash} {state : RecorderSlotState}
    (hLoad : r.load slot configDigest = .ok state) : state.Voiced := by
  obtain ⟨-, -, -, -, -, hStored | ⟨-, rfl⟩⟩ := Recorder.load_eq_ok hLoad
  · exact h slot state hStored
  · constructor
    · rintro p (hp | hp | hp) <;> cases hp
    · exact fun hStep => absurd rfl hStep

theorem voiced_takes (h : ∀ slot state, r.slots slot = some state → state.Voiced)
    (hTakes : Recorder.Takes r move r') (slot : Nat) (state : RecorderSlotState)
    (hState : r'.slots slot = some state) : state.Voiced := by
  rcases Recorder.takes_slots hTakes hState with hOld | ⟨request, value, command, change, old, -, -,
    hPasses, hLoad, -, -, rfl⟩ | ⟨proof, membership, value, command, change, old, transition, -, -,
    hLoad, hInstalls, -, rfl⟩
  · exact h slot state hOld
  · exact (voiced_of_load h hLoad).next hPasses.value_eq
  · obtain ⟨decided, hNext, -⟩ := hInstalls.installed
    have hOld := voiced_of_load h hLoad
    rw [hNext]
    exact ⟨hOld.held, hOld.first⟩

end Voiced

section Applying

variable [Sha256] {K : StoredCommand → Prop} {node : Identity} {strict : Prop} {L : Content}
  {t : Transition} {change : Option ConfigChange} {value : AcceptedValue}

theorem Content.keyed_stage (hKeyed : Keyed K L.commands)
    {command : Option (LogHash × StoredCommand)}
    (hKnown : ∀ hash c, command = some (hash, c) → c.hash = hash ∧ K c) :
    Keyed K (L.stage false command).commands := by
  cases command with
  | none => exact hKeyed
  | some entry =>
    obtain ⟨other, c⟩ := entry
    change Keyed K (L.keepCommand false other c).commands
    cases hOld : L.commands other with
    | some old =>
      rw [keepCommand_of_some hOld]
      exact hKeyed
    | none =>
      rw [keepCommand_of_none hOld]
      intro hash command hCommand
      change Function.update L.commands other (some c) hash = some command at hCommand
      by_cases hSame : hash = other
      · subst hSame
        rw [Function.update_self] at hCommand
        obtain rfl := Option.some.inj hCommand
        exact hKnown _ _ rfl
      · rw [Function.update_of_ne hSame] at hCommand
        exact hKeyed _ _ hCommand

theorem Content.Good.stage (h : L.Good K node) {command : Option (LogHash × StoredCommand)}
    (hKnown : ∀ hash c, command = some (hash, c) → c.hash = hash ∧ K c) :
    (L.stage false command).Good K node := by
  refine ⟨?_, keyed_stage h.keyed hKnown, ?_, ?_⟩
  · rw [stage_configuration]
    exact h.installed
  · rw [stage_slots]
    exact h.resolved.mono fun hash command hCommand => commands_stage hCommand _
  · rw [stage_configuration, stage_slots, stage_head]
    exact h.evidence

omit [Sha256] in
theorem raised_of_applied {clusterId : ClusterId} {configuration next : ConfigurationState}
    {state : RecorderSlotState} (hClosed : Recorder.ClosedUntilActive configuration)
    (hSealed : Recorder.SealedLast configuration) [Sha256]
    (hAdmitted : Admitted clusterId configuration state.slot change)
    (hApplied : Applied configuration state change value next)
    (hChanged : configurationStructureChanged configuration next = true) :
    next.maxAcceptedOrDecidedSlot = some state.slot := by
  obtain ⟨m, hMax, hm, rfl | hOld, -⟩ := Recorder.applied_max hApplied
  · exact hMax
  by_cases hAt : m = state.slot
  · rw [hMax, hAt]
  -- the slot is not the maximal one, so that nothing but the maximum can have changed
  exfalso
  have hStop : change.any (·.isStop) = false := by
    rw [Bool.eq_false_iff]
    intro hStop
    have := hAdmitted.notLate hStop m hOld
    omega
  have hSeal : next.sealed = configuration.sealed := by
    rw [hApplied.unstopped hStop]
    cases hMark : configuration.sealed with
    | none => rfl
    | some mark =>
      apply sealAfterProof_eq_some
      rintro ⟨-, hSlot, -⟩
      have hLast := (hSealed mark hMark).symm.trans hOld
      rw [hSlot] at hLast
      exact hAt (Option.some.inj hLast).symm
  have hActive : next.activated = configuration.activated := by
    cases hHere : configuration.activated with
    | true => rw [hApplied.activated, hHere, Bool.true_or]
    | false =>
      obtain ⟨-, predecessor, hPredecessor, hNone | hFirst⟩ := hClosed hHere
      · cases hNone.symm.trans hOld
      · obtain ⟨predecessor', hPredecessor', hSlot, -⟩ := hAdmitted.opens hHere
        obtain rfl := Option.some.inj (hPredecessor.symm.trans hPredecessor')
        rw [hFirst] at hOld
        exact absurd ((Option.some.inj hOld).symm.trans hSlot.symm) hAt
  rw [hApplied.same, hSeal, hActive] at hChanged
  simp [configurationStructureChanged] at hChanged

theorem Installed.applied {configuration next : ConfigurationState} {state : RecorderSlotState}
    (h : Installed configuration) (hApplied : Applied configuration state change value next) :
    Installed next := by
  obtain ⟨hNonzero, membership, hMembership, hDigest⟩ := h
  refine ⟨hApplied.configDigest_eq ▸ hNonzero, membership, ?_, ?_⟩
  · rw [hApplied.membership_eq, hMembership]
  · rw [hApplied.configDigest_eq, hDigest]

omit [Sha256] in
theorem Owned.applied {configuration next : ConfigurationState} {state changed : RecorderSlotState}
    {slot : Nat} (h : Owned node configuration slot state)
    (hApplied : Applied configuration changed change value next) : Owned node next slot state :=
  ⟨h.slot_eq, h.cluster_eq, h.epoch_eq, h.config_eq.trans hApplied.configId_eq.symm,
    h.digest_eq.trans hApplied.configDigest_eq.symm⟩

omit [Sha256] in
theorem evidence_of_applied (hEvidence : Evidence node L.configuration L.slots L.head)
    (hMatched : L.head.recoveredMax = L.configuration.maxAcceptedOrDecidedSlot)
    (hRaised : configurationStructureChanged L.configuration t.configuration = true →
      t.configuration.maxAcceptedOrDecidedSlot = some t.state.slot)
    (hApplied : Applied L.configuration t.state change value t.configuration)
    (hValued : recorderStateValues t.state ≠ [])
    (hOwned : Owned node L.configuration t.state.slot t.state) :
    Evidence node t.configuration (Function.update L.slots t.state.slot (some t.state))
      (headAfterSlotState L.head t.configuration t.state) := by
  by_cases hMax : t.configuration.maxAcceptedOrDecidedSlot = some t.state.slot
  · rw [headAfterSlotState_of_max _ hMax hValued]
    exact ⟨t.state, Function.update_self .., hOwned.applied hApplied⟩
  · have hUnchanged : configurationStructureChanged L.configuration t.configuration = false :=
      Bool.eq_false_iff.mpr fun hChanged => hMax (hRaised hChanged)
    rw [headAfterSlotState, if_neg fun h => hMax h.1]
    refine (hEvidence.update hOwned).congr hUnchanged ?_
    intro stopSlot prefixHash recoveredTip recoveredHash hHead
    obtain ⟨m, hm, -, rfl | hOld, -⟩ := Recorder.applied_max hApplied
    · exact absurd hm hMax
    · rw [hm, ← hOld, ← hMatched, hHead]
      rfl

theorem fitting_of_applied (hApart : TellsApart K) (hGood : strict → L.Good K node)
    (hMatched : L.head.recoveredMax = L.configuration.maxAcceptedOrDecidedSlot)
    (hClosed : Recorder.ClosedUntilActive L.configuration)
    (hSealed : Recorder.SealedLast L.configuration)
    (hAdmitted : Admitted node.clusterId L.configuration t.state.slot change)
    (hApplied : Applied L.configuration t.state change value t.configuration)
    (hValued : recorderStateValues t.state ≠ [])
    (hUndecided : ∀ state, L.slots t.state.slot = some state → state.decidedProof = none)
    (hOwned : strict → Owned node L.configuration t.state.slot t.state)
    (hKnown : strict → ∀ hash command, t.command = some (hash, command) →
      command.hash = hash ∧ K command)
    (hSmall : strict → sizeOf (encodeRecorderState t.state) ≤ maxRecorderStateBytes)
    (hValues : strict → ∀ v ∈ recorderStateValues t.state,
      Backs node t.state.slot t.state.configId (L.stage false t.command).commands v) :
    Fitting K node strict L t := by
  have hRaised := raised_of_applied hClosed hSealed hAdmitted hApplied
  refine ⟨hValued, ?_, hRaised, hUndecided, fun h => (hOwned h).applied hApplied, hKnown,
    fun h => (hGood h).stage (hKnown h), fun h replaces => ?_⟩
  · by_cases hMax : t.configuration.maxAcceptedOrDecidedSlot = some t.state.slot
    · rw [headAfterSlotState_of_max _ hMax hValued, hMax]
      rfl
    · rw [headAfterSlotState, if_neg fun h => hMax h.1, hMatched]
      obtain ⟨m, hm, -, rfl | hOld, -⟩ := Recorder.applied_max hApplied
      · exact absurd hm hMax
      · rw [hm, hOld]
  · have hL := hGood h
    have hStage := Content.stage_of_known hApart hL.keyed (hKnown h) replaces
    have hStaged := hL.stage (hKnown h)
    refine ⟨hL.installed.applied hApplied, ?_, ?_, evidence_of_applied hL.evidence hMatched hRaised
      hApplied hValued (hOwned h)⟩
    · change Keyed K (L.stage replaces t.command).commands
      rw [hStage]
      exact hStaged.keyed
    · change Resolved node _ (L.stage replaces t.command).commands
      rw [hStage]
      have hResolved := hStaged.resolved
      rw [Content.stage_slots] at hResolved
      exact hResolved.update ⟨hValued, hSmall h, hValues h⟩

end Applying

structure Recorder.Tidy (r : Recorder) : Prop where
  sound : r.Sound
  orderly : ∀ slot state, r.slots slot = some state → Orderly r slot state
  voiced : ∀ slot state, r.slots slot = some state → state.Voiced

theorem Recorder.Tidy.takes [Sha256] {r r' : Recorder} {move : Recorder.Move} (h : r.Tidy)
    (hTakes : Takes r move r') : r'.Tidy :=
  ⟨h.sound.takes hTakes, orderly_takes h.orderly hTakes, voiced_takes h.voiced hTakes⟩

theorem Recorder.Tidy.new [Sha256] (recorderId : NodeId) (clusterId : ClusterId)
    (epoch configId : Nat) (membership : Membership) :
    Tidy (.new recorderId clusterId epoch configId membership) := by
  refine ⟨.new recorderId clusterId epoch configId membership, ?_, ?_⟩
  · intro slot state hState
    cases hState
  · intro slot state hState
    cases hState

section Fitting

variable [Sha256] {K : StoredCommand → Prop} {node : Identity} {strict : Prop} {L : Content}
  {retired : List ConfigurationState} {t : Transition}

structure Ready (K : StoredCommand → Prop) (node : Identity) (strict : Prop)
    (retired : List ConfigurationState) (L : Content) : Prop extends Setting K node strict L where
  tidy : (L.recorder node retired).Tidy
  matched : L.head.recoveredMax = L.configuration.maxAcceptedOrDecidedSlot

theorem backs_of_load (hGood : L.Good K node) {slot : Nat} {configDigest : LogHash}
    {state : RecorderSlotState}
    (hLoad : (L.recorder node retired).load slot configDigest = .ok state) {value : AcceptedValue}
    (hValue : value ∈ recorderStateValues state) :
    Backs node state.slot state.configId L.commands value := by
  obtain ⟨hSlot, -, -, -, -, hStored | ⟨-, rfl⟩⟩ := Recorder.load_eq_ok hLoad
  · rw [hSlot]
    exact (hGood.resolved slot state hStored).backed value hValue
  · cases hValue

theorem owned_of_load (hGood : L.Good K node) {slot : Nat} {configDigest : LogHash}
    {state : RecorderSlotState}
    (hLoad : (L.recorder node retired).load slot configDigest = .ok state)
    (hDigest : configDigest = L.configuration.configDigest) :
    Owned node L.configuration state.slot state := by
  obtain ⟨hSlot, hCluster, hEpoch, hConfig, hSame, -⟩ := Recorder.load_eq_ok hLoad
  exact ⟨rfl, hCluster, hEpoch, hConfig, (hSame (hDigest ▸ hGood.installed.1)).trans hDigest⟩

omit [Sha256] in
theorem undecided_of_load {slot : Nat} {configDigest : LogHash} {state : RecorderSlotState}
    (hLoad : (L.recorder node retired).load slot configDigest = .ok state)
    (hUndecided : state.decidedProof = none) :
    ∀ stored, L.slots slot = some stored → stored.decidedProof = none := by
  intro stored hStored
  obtain ⟨-, -, -, -, -, hSame | ⟨hNone, -⟩⟩ := Recorder.load_eq_ok hLoad
  · obtain rfl := Option.some.inj (hStored.symm.trans hSame)
    exact hUndecided
  · cases hNone.symm.trans hStored

theorem staged_of_passes (hApart : TellsApart K) (hGood : L.Good K node) {request : RecordRequest}
    {value : AcceptedValue} {command : StoredCommand} {change : Option ConfigChange}
    (hPasses : (L.recorder node retired).view.Passes request value command change)
    (hKnown : ∀ command, request.command = some command → K command) :
    (L.stage false (request.command.map (value.commandHash, ·))).commands value.commandHash =
      some command := by
  rcases hPasses.source with hOwn | ⟨hNone, hStored⟩
  · rw [hOwn]
    change (L.keepCommand false value.commandHash command).commands value.commandHash = some command
    cases hOld : L.commands value.commandHash with
    | none =>
      rw [Content.keepCommand_of_none hOld]
      exact Function.update_self ..
    | some old =>
      obtain ⟨hOldHash, hOldKnown⟩ := hGood.keyed _ _ hOld
      obtain rfl := hApart old command hOldKnown (hKnown command hOwn)
        (hOldHash.trans hPasses.hash_eq.symm)
      rw [Content.keepCommand_of_some hOld]
      exact hOld
  · rw [hNone]
    exact Except.ok.inj hStored

theorem fitting_of_records (hReady : Ready K node strict retired L) {request : RecordRequest}
    {value : AcceptedValue} {command : StoredCommand} {change : Option ConfigChange}
    {state : RecorderSlotState}
    (hPasses : (L.recorder node retired).view.Passes request value command change)
    (hLoad : (L.recorder node retired).load request.slot request.configDigest = .ok state)
    (hRecords : (L.recorder node retired).view.Records request change value state t)
    (hKnown : strict → ∀ command, request.command = some command → K command)
    (hSmall : strict → sizeOf (encodeRecorderState t.state) ≤ maxRecorderStateBytes) :
    Fitting K node strict L t := by
  have hTidy := hReady.tidy
  have hOrderly := Recorder.orderly_of_load hTidy.orderly hLoad
  have hVoiced := (voiced_of_load hTidy.voiced hLoad).next hPasses.value_eq
  obtain ⟨hSlot, -, -, hConfig, -⟩ := Recorder.load_eq_ok hLoad
  have hAt : t.state.slot = request.slot := by
    rw [hRecords.state_eq]
    exact hSlot
  have hAdmitted : Admitted node.clusterId L.configuration t.state.slot change :=
    hAt ▸ hPasses.admitted
  have hApplied : Applied L.configuration t.state change value t.configuration :=
    hRecords.state_eq ▸ hRecords.applied
  refine fitting_of_applied hReady.apart hReady.good hReady.matched hTidy.sound.closed
    (hTidy.sound.sealedLast _ List.mem_cons_self) hAdmitted hApplied ?_ ?_ ?_ ?_ hSmall ?_
  · have hFirst := IsrState.firstCurrent_next (voiced_of_load hTidy.voiced hLoad).first
      request.step request.proposal
    obtain ⟨p, hp⟩ := Option.ne_none_iff_exists'.mp hFirst
    obtain ⟨v, hv⟩ := hVoiced.held p (.inl hp)
    rw [hRecords.state_eq]
    exact List.ne_nil_of_mem (mem_recorderStateValues.mpr (.inr (.inr (.inl ⟨p, .inl hp, hv⟩))))
  · rw [hAt]
    exact undecided_of_load hLoad hRecords.undecided
  · intro hStrict
    have hOwned := owned_of_load (hReady.good hStrict) hLoad
      (hPasses.digest_eq (hReady.good hStrict).installed.1)
    rw [hRecords.state_eq]
    exact ⟨rfl, hOwned.cluster_eq, hOwned.epoch_eq, hOwned.config_eq, hOwned.digest_eq⟩
  · intro hStrict hash own hOwn
    rw [hRecords.command_eq] at hOwn
    obtain ⟨c, hc, hEntry⟩ := Option.map_eq_some_iff.mp hOwn
    obtain ⟨rfl, rfl⟩ := Prod.mk.inj hEntry
    refine ⟨?_, hKnown hStrict c hc⟩
    rcases hPasses.source with hSource | ⟨hNone, -⟩
    · obtain rfl := Option.some.inj (hc.symm.trans hSource)
      exact hPasses.hash_eq
    · cases hNone.symm.trans hc
  · intro hStrict v hv
    have hGood := hReady.good hStrict
    have hStaged := staged_of_passes hReady.apart hGood hPasses (hKnown hStrict)
    rw [← hRecords.command_eq] at hStaged
    rw [hRecords.state_eq] at hv
    have hOld : ∀ v ∈ recorderStateValues state, Backs node t.state.slot t.state.configId
        (L.stage false t.command).commands v := by
      intro v hv
      rw [hRecords.state_eq]
      exact (backs_of_load hGood hLoad hv).mono fun _ _ h => Content.commands_stage h _
    rcases mem_recorderStateValues.mp hv with ⟨_, hAccepted, -⟩ | ⟨certificate, hDecided, -⟩ |
      ⟨p, hHolds, hp⟩ | ⟨proof, hProof, -⟩
    · cases hAccepted
    · obtain ⟨proof, hProof, -⟩ := hOrderly.decided certificate hDecided
      cases hRecords.undecided.symm.trans hProof
    · rcases IsrState.holds_next hHolds with hBefore | rfl
      · exact hOld v (mem_recorderStateValues.mpr (.inr (.inr (.inl ⟨p, hBefore, hp⟩))))
      · obtain rfl := Option.some.inj (hp.symm.trans hPasses.value_eq)
        refine ⟨command, hStaged, ?_⟩
        rw [hAt, hRecords.state_eq]
        change AcceptedValue.fromCommand node.clusterId request.slot node.epoch state.configId _ _ = _
        rw [hConfig]
        exact hPasses.resolved
    · cases hRecords.undecided.symm.trans hProof

theorem fitting_of_installs (hReady : Ready K node strict retired L) {proof : DecisionProof}
    {membership : Membership} {value : AcceptedValue} {command : StoredCommand}
    {change : Option ConfigChange} {state : RecorderSlotState}
    (hLoad : (L.recorder node retired).load proof.slot proof.configDigest = .ok state)
    (hInstalls : (L.recorder node retired).view.Installs proof membership value command change
      state t)
    (hSmall : strict → sizeOf (encodeRecorderState t.state) ≤ maxRecorderStateBytes) :
    Fitting K node strict L t := by
  have hTidy := hReady.tidy
  have hOrderly := Recorder.orderly_of_load hTidy.orderly hLoad
  obtain ⟨hSlot, -, -, hConfig, -⟩ := Recorder.load_eq_ok hLoad
  obtain ⟨decided, hState, hDecided⟩ := hInstalls.installed
  have hAt : t.state.slot = proof.slot := by
    rw [hState]
    exact hSlot
  have hAdmitted : Admitted node.clusterId L.configuration t.state.slot change :=
    hAt ▸ hInstalls.admitted
  refine fitting_of_applied hReady.apart hReady.good hReady.matched hTidy.sound.closed
    (hTidy.sound.sealedLast _ List.mem_cons_self) hAdmitted hInstalls.applied ?_ ?_ ?_ ?_ hSmall ?_
  · rw [hState]
    exact List.ne_nil_of_mem (mem_recorderStateValues.mpr (.inr (.inl ⟨decided, rfl, rfl⟩)))
  · rw [hAt]
    exact undecided_of_load hLoad hInstalls.undecided
  · intro hStrict
    have hOwned := owned_of_load (hReady.good hStrict) hLoad hInstalls.digest_eq
    rw [hState]
    exact ⟨rfl, hOwned.cluster_eq, hOwned.epoch_eq, hOwned.config_eq, hOwned.digest_eq⟩
  · intro _ hash own hOwn
    cases hInstalls.command_eq.symm.trans hOwn
  · intro hStrict v hv
    have hGood := hReady.good hStrict
    rw [hInstalls.command_eq]
    have hHere : v = value → Backs node t.state.slot t.state.configId L.commands v := by
      rintro rfl
      refine ⟨command, Except.ok.inj hInstalls.stored, ?_⟩
      rw [hAt, hState]
      change AcceptedValue.fromCommand node.clusterId proof.slot node.epoch state.configId _ _ = _
      rw [hConfig]
      exact hInstalls.resolved
    have hOld : ∀ v ∈ recorderStateValues state,
        Backs node t.state.slot t.state.configId L.commands v := by
      intro v hv
      rw [hState]
      exact backs_of_load hGood hLoad hv
    rw [hState] at hv
    rcases mem_recorderStateValues.mp hv with ⟨accepted, hAccepted, -⟩ | ⟨_, hNew, rfl⟩ |
      ⟨p, hHolds, hp⟩ | ⟨_, hProof, hp⟩
    · cases hOrderly.accepted.symm.trans hAccepted
    · obtain rfl := Option.some.inj hNew
      exact hHere hDecided
    · exact hOld v (mem_recorderStateValues.mpr (.inr (.inr (.inl ⟨p, hHolds, hp⟩))))
    · obtain rfl := Option.some.inj hProof
      exact hHere (Option.some.inj (hp.symm.trans hInstalls.value_eq))

theorem good_of_succeeds (hGood : L.Good K node) {membership : Membership}
    {stopProof : DecisionProof} {installed : ConfigurationState} {stopCommand : StoredCommand}
    (hSucceeds : (L.recorder node retired).view.Succeeds membership stopProof installed stopCommand)
    (hNonzero : membership.digest ≠ .zero) : (L.install installed .empty).Good K node := by
  refine ⟨?_, hGood.keyed, hGood.resolved, trivial⟩
  change Installed installed
  rw [hSucceeds.installed_eq]
  exact ⟨hNonzero, membership, rfl, rfl⟩

theorem good_of_activates (hGood : L.Good K node) {predecessor : ConfigurationSeal}
    (hPredecessor : L.configuration.predecessor = some predecessor) {recoveredTip : Nat}
    {recoveredHash : LogHash} (hTip : predecessor.stopSlot < recoveredTip)
    (hHash : recoveredHash ≠ .zero) :
    (L.install { L.configuration with
        activated := true, maxAcceptedOrDecidedSlot := some recoveredTip }
      (.checkpointBacked predecessor.stopSlot predecessor.prefixHash recoveredTip
        recoveredHash)).Good K node :=
  ⟨hGood.installed, hGood.keyed, hGood.resolved,
    ⟨predecessor, hPredecessor, rfl, rfl, rfl, hTip, hHash, rfl⟩⟩

end Fitting

end Rhiza.Quepaxa
