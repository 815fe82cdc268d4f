import Rhiza.Quepaxa.Configuration

/-! # What the operations of a recorder compute

Every operation reads the configuration, slot states and commands, and then
either fails, answers, or asks for one change to be made durable. The reads are
collected in a view; how a change is made durable is not part of this module.
-/

namespace Rhiza.Quepaxa

open Core Library

structure RecorderView where
  recorderId : NodeId
  clusterId : ClusterId
  epoch : Nat
  configuration : ConfigurationState
  load : Nat → LogHash → Result RecorderSlotState
  holdsSlot : Nat → Bool
  fetch : LogHash → Result (Option StoredCommand)

structure Transition where
  state : RecorderSlotState
  configuration : ConfigurationState
  command : Option (LogHash × StoredCommand)

inductive RecordedHeadProvenance
  | empty
  | slotBacked (slot : Nat)
  | checkpointBacked (stopSlot : Nat) (prefixHash : LogHash) (recoveredTip : Nat)
      (recoveredHash : LogHash)
  deriving DecidableEq

def liftReject {α : Type} : Except RejectReason α → Result α
  | .ok a => .ok a
  | .error reason => .error (.rejected reason)

@[simp] theorem liftReject_eq_ok {α : Type} {x : Except RejectReason α} {a : α} :
    liftReject x = .ok a ↔ x = .ok a := by
  cases x <;> simp [liftReject]

def okOr {α : Type} (error : Error) : Option α → Result α
  | some a => .ok a
  | none => .error error

@[simp] theorem okOr_eq_ok {α : Type} {error : Error} {x : Option α} {a : α} :
    okOr error x = .ok a ↔ x = some a := by
  cases x <;> simp [okOr]

namespace RecorderView

variable [Sha256] (v : RecorderView)

def ensureEpoch (epoch : Nat) : Result Unit :=
  ensure (epoch = v.epoch) (if epoch < v.epoch then .staleEpoch else .futureEpoch)

def validateRecordContext (request : RecordRequest) : Result Unit := do
  ensure (request.clusterId = v.clusterId) .wrongCluster
  v.ensureEpoch request.epoch
  ensure (request.configId = v.configuration.configId ∧
    (v.configuration.configDigest ≠ .zero →
      request.configDigest = v.configuration.configDigest)) .wrongConfig

def validateResolvedCommandForValue (slot configId : Nat) (value : AcceptedValue)
    (command : StoredCommand) : Result Unit :=
  ensure (AcceptedValue.fromCommand v.clusterId slot v.epoch configId value.prevHash command =
    value) .invalidValue

/-- `command_for_value_unlocked`. -/
def commandForValue (value : AcceptedValue) : Result StoredCommand := do
  okOr .commandUnavailable (← v.fetch value.commandHash)

/-- `validate_value_unlocked`. -/
def validateValue (slot : Nat) (value : AcceptedValue) : Result Unit := do
  let command ← v.commandForValue value
  v.validateResolvedCommandForValue slot v.configuration.configId value command

/-- `change_for_value_unlocked`. -/
def changeForValue (value : AcceptedValue) : Result (Option ConfigChange) := do
  changeForCommand (← v.commandForValue value)

def resolveCommand (request : RecordRequest) (value : AcceptedValue) : Result StoredCommand :=
  match request.command with
  | some command => do
    v.validateResolvedCommandForValue request.slot v.configuration.configId value command
    .ok command
  | none => v.commandForValue value

def recheckCommand (request : RecordRequest) (value : AcceptedValue) (command : StoredCommand) :
    Result Unit :=
  match request.command with
  | some _ => .ok ()
  | none => v.validateResolvedCommandForValue request.slot v.configuration.configId value command

/-- The checks of `record_proposal` before it reads the slot. -/
def admitRequest (request : RecordRequest) : Result (AcceptedValue × Option ConfigChange) := do
  v.validateRecordContext request
  let value ← okOr (.rejected .invalidRequest) request.proposal.value
  let command ← v.resolveCommand request value
  let change ← changeForCommand command
  ensure (v.configuration.activated || change.isSome) .activationRequired
  validateSlotGate v.clusterId v.configuration request.slot change
  v.recheckCommand request value command
  .ok (value, change)

/-- The part of `record_proposal` that works on the slot state. -/
def recordInSlot (request : RecordRequest) (value : AcceptedValue) (change : Option ConfigChange)
    (state : RecorderSlotState) : Result (RecordSummary × Option Transition) :=
  match state.decidedProof with
  | some proof => .ok (recordSummary v.recorderId state (some proof), none)
  | none => do
    let (recorded, _) ← liftReject (state.record request)
    let next := { recorded with
      highestPromised := recorded.isr.firstCurrent.bind proposalBallot
      accepted := none }
    let configuration ← transitionAfterApply v.configuration next change (some value)
    .ok (recordSummary v.recorderId next none,
      some ⟨next, configuration, request.command.map (value.commandHash, ·)⟩)

/-- `record_proposal`, up to the change it makes durable. -/
def recordProposal (request : RecordRequest) : Result (RecordSummary × Option Transition) := do
  let (value, change) ← v.admitRequest request
  let state ← v.load request.slot request.configDigest
  v.recordInSlot request value change state

def withCertificate (state : RecorderSlotState) (certificate : DecisionCertificate) :
    Result RecorderSlotState :=
  match state.decided with
  | some existing =>
    if existing.value ≠ certificate.value then .error (.rejected .alreadyDecided) else .ok state
  | none => .ok { state with decided := some certificate }

/-- The checks of `install_decision_proof_record` before it reads the slot. -/
def admitProof (proof : DecisionProof) (membership : Membership) : Result AcceptedValue := do
  ensure (proof.clusterId = v.clusterId) .wrongCluster
  ensure (proof.epoch = v.epoch ∧ proof.configId = v.configuration.configId ∧
    proof.configDigest = v.configuration.configDigest ∧
    v.configuration.membership = some membership) .wrongConfig
  liftReject (proof.validateForCluster v.clusterId proof.slot proof.epoch proof.configId membership)
  let value ← okOr (.rejected .invalidCertificate) proof.proposal.value
  v.validateValue proof.slot value
  .ok value

/-- The part of `install_decision_proof_record` that works on the slot state. -/
def installInSlot (proof : DecisionProof) (value : AcceptedValue) (state : RecorderSlotState) :
    Result (Option Transition) :=
  match state.decidedProof with
  | some _ => do
    let _ ← liftReject (state.installProof proof)
    .ok none
  | none => do
    let change ← v.changeForValue value
    validateSlotGate v.clusterId v.configuration proof.slot change
    let installed ← liftReject (state.installProof proof)
    let certificate ← certificateFromProof proof
    let next ← withCertificate installed certificate
    let configuration ← transitionAfterApply v.configuration next change (some value)
    .ok (some ⟨next, configuration, none⟩)

/-- `install_decision_proof_record`, up to the change it makes durable. -/
def installDecisionProofRecord (proof : DecisionProof) (membership : Membership) :
    Result (Option Transition) := do
  let value ← v.admitProof proof membership
  let state ← v.load proof.slot proof.configDigest
  v.installInSlot proof value state

/-- The stop command that `install_successor_from_proof` expects for a membership. -/
def successorStop (membership : Membership) (nextConfigId : Nat) : Result StoredCommand := do
  let change ← okOr (.rejected .invalidTransition) (ConfigChange.newBoundStop v.clusterId
    v.configuration.configId v.configuration.configDigest nextConfigId membership.members)
  .ok change.toStoredCommand

/-- `install_successor_from_proof`, up to the change it makes durable: the new
configuration and the stop command that goes with it. -/
def installSuccessorFromProof (membership : Membership) (stopProof : DecisionProof) :
    Result (ConfigurationState × StoredCommand) := do
  let current := v.configuration
  let oldMembership ← okOr (.rejected .configurationNotInstalled) current.membership
  let nextConfigId ← okOr (.rejected .invalidTransition) (checkedSucc current.configId)
  ensure (current.predecessor.isNone || current.activated) .transitionInProgress
  ensure (membership.contains v.recorderId) .localVoterRequired
  ensure (stopProof.clusterId = v.clusterId) .wrongCluster
  ensure (stopProof.epoch = v.epoch ∧ stopProof.configId = current.configId ∧
    stopProof.configDigest = current.configDigest) .invalidTransition
  liftReject (stopProof.validateForCluster v.clusterId stopProof.slot v.epoch current.configId
    oldMembership)
  let stopCommand ← v.successorStop membership nextConfigId
  let stopValue ← okOr (.rejected .invalidCertificate) stopProof.proposal.value
  let expectedStop := AcceptedValue.fromCommand v.clusterId stopProof.slot v.epoch
    current.configId stopValue.prevHash stopCommand
  ensure (stopValue = expectedStop) .invalidTransition
  let expectedSeal : ConfigurationSeal :=
    ⟨stopProof.slot, expectedStop.commandHash, expectedStop.entryHash⟩
  ensure (current.sealed.all (· = expectedSeal)) .invalidTransition
  .ok (⟨nextConfigId, membership.digest, some membership, some expectedSeal, none, none, false⟩,
    stopCommand)

omit [Sha256] in
/-- `recover_successor_activation_from_checkpoint`, up to the change it makes
durable: an activated configuration is answered as it stands. -/
def recoverSuccessorActivationFromCheckpoint (stopSlot : Nat) (prefixHash : LogHash)
    (recoveredTip : Nat) (recoveredHash : LogHash) :
    Result (ConfigurationState × Option RecordedHeadProvenance) := do
  let current := v.configuration
  let predecessor ← okOr (.rejected .invalidTransition) current.predecessor
  ensure (predecessor.stopSlot = stopSlot ∧ predecessor.prefixHash = prefixHash ∧
    stopSlot < recoveredTip) .invalidTransition
  if current.activated then
    ensure (current.maxAcceptedOrDecidedSlot.all (· ≤ recoveredTip)) .invalidTransition
    .ok (current, none)
  else
    .ok ({ current with activated := true, maxAcceptedOrDecidedSlot := some recoveredTip },
      some (.checkpointBacked stopSlot prefixHash recoveredTip recoveredHash))

def inspectRecordSummary (slot : Nat) : Result (Option RecordSummary) :=
  if v.holdsSlot slot then do
    let state ← v.load slot v.configuration.configDigest
    .ok (some (recordSummary v.recorderId state state.decidedProof))
  else .ok none

def observeReadFence (request : ReadFenceRequest) : Result ReadFenceObservation := do
  ensure (request.clusterId = v.clusterId) .wrongCluster
  v.ensureEpoch request.epoch
  ensure (request.configId = v.configuration.configId ∧
    request.configDigest = v.configuration.configDigest) .wrongConfig
  let maxHead := v.configuration.maxAcceptedOrDecidedSlot
  let summary ← v.inspectRecordSummary request.slot
  let slotState :=
    if summary.isNone ∧ maxHead.all (· < request.slot) then ReadFenceSlotState.empty
    else .occupied summary
  .ok ⟨v.recorderId, request.clusterId, request.epoch, request.configId, request.configDigest,
    request.slot, maxHead, slotState⟩

section Specs

variable {v} {request : RecordRequest}

omit [Sha256] in
theorem commandForValue_eq_ok {value : AcceptedValue} {command : StoredCommand} :
    v.commandForValue value = .ok command ↔ v.fetch value.commandHash = .ok (some command) := by
  simp [commandForValue, bind_ok_iff]

structure Resolves (v : RecorderView) (slot : Nat) (value : AcceptedValue)
    (command : StoredCommand) (change : Option ConfigChange) : Prop where
  resolved : AcceptedValue.fromCommand v.clusterId slot v.epoch v.configuration.configId
    value.prevHash command = value
  change_eq : changeForCommand command = .ok change

theorem Resolves.hash_eq {slot : Nat} {value : AcceptedValue} {command : StoredCommand}
    {change : Option ConfigChange} (h : v.Resolves slot value command change) :
    command.hash = value.commandHash :=
  congrArg AcceptedValue.commandHash h.resolved

structure Passes (v : RecorderView) (request : RecordRequest) (value : AcceptedValue)
    (command : StoredCommand) (change : Option ConfigChange) : Prop
    extends v.Resolves request.slot value command change where
  cluster_eq : request.clusterId = v.clusterId
  epoch_eq : request.epoch = v.epoch
  config_eq : request.configId = v.configuration.configId
  digest_eq : v.configuration.configDigest ≠ .zero →
    request.configDigest = v.configuration.configDigest
  value_eq : request.proposal.value = some value
  source : request.command = some command ∨
    request.command = none ∧ v.fetch value.commandHash = .ok (some command)
  active : v.configuration.activated ∨ change.isSome
  admitted : Admitted v.clusterId v.configuration request.slot change

theorem resolveCommand_eq_ok {value : AcceptedValue} {command : StoredCommand}
    (h : v.resolveCommand request value = .ok command)
    (hRecheck : v.recheckCommand request value command = .ok ()) :
    (request.command = some command ∨
      request.command = none ∧ v.fetch value.commandHash = .ok (some command)) ∧
    AcceptedValue.fromCommand v.clusterId request.slot v.epoch v.configuration.configId
      value.prevHash command = value := by
  cases hCommand : request.command with
  | none =>
    simp only [resolveCommand, recheckCommand, hCommand, commandForValue_eq_ok,
      validateResolvedCommandForValue, ensure_eq_ok, decide_eq_true_eq] at h hRecheck
    exact ⟨.inr ⟨rfl, h⟩, hRecheck⟩
  | some own =>
    simp only [resolveCommand, hCommand, unit_bind_ok_iff, validateResolvedCommandForValue,
      ensure_eq_ok, decide_eq_true_eq, Except.ok.injEq] at h
    obtain ⟨hResolved, rfl⟩ := h
    exact ⟨.inl rfl, hResolved⟩

theorem admitRequest_eq_ok {value : AcceptedValue} {change : Option ConfigChange}
    (h : v.admitRequest request = .ok (value, change)) :
    ∃ command, v.Passes request value command change := by
  simp only [admitRequest, unit_bind_ok_iff] at h
  obtain ⟨hContext, h⟩ := h
  obtain ⟨value', hValue, h⟩ := bind_ok_iff.mp h
  obtain ⟨command, hCommand, h⟩ := bind_ok_iff.mp h
  obtain ⟨change', hChange, h⟩ := bind_ok_iff.mp h
  simp only [unit_bind_ok_iff, ensure_eq_ok, Except.ok.injEq, Prod.mk.injEq] at h
  obtain ⟨hActive, hGate, hRecheck, rfl, rfl⟩ := h
  simp only [validateRecordContext, ensureEpoch, unit_bind_ok_iff, ensure_eq_ok,
    decide_eq_true_eq] at hContext
  obtain ⟨hCluster, hEpoch, hConfig, hDigest⟩ := hContext
  obtain ⟨hSource, hResolved⟩ := resolveCommand_eq_ok hCommand hRecheck
  refine ⟨command, ⟨hResolved, hChange⟩, hCluster, hEpoch, hConfig, hDigest,
    okOr_eq_ok.mp hValue, hSource, ?_, admitted_of_validateSlotGate hGate⟩
  simpa using hActive

/-- The slot state that `record_proposal` stores. -/
def nextState (state : RecorderSlotState) (request : RecordRequest) : RecorderSlotState :=
  let isr := state.isr.next request.step request.proposal
  { state with
    isr := isr
    highestPromised := isr.firstCurrent.bind proposalBallot
    accepted := none }

structure Records (v : RecorderView) (request : RecordRequest) (change : Option ConfigChange)
    (value : AcceptedValue) (state : RecorderSlotState) (transition : Transition) : Prop where
  undecided : state.decidedProof = none
  context_eq : request.context = state.context
  state_eq : transition.state = nextState state request
  applied : Applied v.configuration (nextState state request) change value transition.configuration
  command_eq : transition.command = request.command.map (value.commandHash, ·)

omit [Sha256] in
theorem recordInSlot_eq_ok {value : AcceptedValue} {change : Option ConfigChange}
    {state : RecorderSlotState} {summary : RecordSummary} {transition : Option Transition}
    (h : v.recordInSlot request value change state = .ok (summary, transition)) :
    (∃ proof, state.decidedProof = some proof ∧
      summary = recordSummary v.recorderId state (some proof) ∧ transition = none) ∨
    ∃ t, transition = some t ∧ summary = recordSummary v.recorderId t.state none ∧
      v.Records request change value state t := by
  cases hProof : state.decidedProof with
  | some proof =>
    simp only [recordInSlot, hProof, Except.ok.injEq, Prod.mk.injEq] at h
    exact .inl ⟨proof, rfl, h.1.symm, h.2.symm⟩
  | none =>
    simp only [recordInSlot, hProof] at h
    obtain ⟨⟨recorded, reply⟩, hRecorded, h⟩ := bind_ok_iff.mp h
    obtain ⟨configuration, hConfiguration, h⟩ := bind_ok_iff.mp h
    obtain ⟨hContext, -, -, rfl⟩ := RecorderSlotState.record_eq_ok (liftReject_eq_ok.mp hRecorded)
    obtain ⟨rfl, rfl⟩ := Prod.mk.inj (Except.ok.inj h)
    exact .inr ⟨_, rfl, rfl, hProof, hContext, rfl, applied_of_transitionAfterApply hConfiguration,
      rfl⟩

theorem recordProposal_eq_ok {summary : RecordSummary} {transition : Option Transition}
    (h : v.recordProposal request = .ok (summary, transition)) :
    ∃ value command change state, v.Passes request value command change ∧
      v.load request.slot request.configDigest = .ok state ∧
      ((∃ proof, state.decidedProof = some proof ∧
        summary = recordSummary v.recorderId state (some proof) ∧ transition = none) ∨
      ∃ t, transition = some t ∧ summary = recordSummary v.recorderId t.state none ∧
        v.Records request change value state t) := by
  obtain ⟨⟨value, change⟩, hAdmit, h⟩ := bind_ok_iff.mp h
  obtain ⟨state, hLoad, h⟩ := bind_ok_iff.mp h
  obtain ⟨command, hPasses⟩ := admitRequest_eq_ok hAdmit
  exact ⟨value, command, change, state, hPasses, hLoad, recordInSlot_eq_ok h⟩

structure Installs (v : RecorderView) (proof : DecisionProof) (membership : Membership)
    (value : AcceptedValue) (command : StoredCommand) (change : Option ConfigChange)
    (state : RecorderSlotState) (transition : Transition) : Prop
    extends v.Resolves proof.slot value command change where
  config_eq : proof.configId = v.configuration.configId
  digest_eq : proof.configDigest = v.configuration.configDigest
  valid : proof.ValidFor v.clusterId proof.slot v.epoch proof.configId membership
  value_eq : proof.proposal.value = some value
  stored : v.fetch value.commandHash = .ok (some command)
  admitted : Admitted v.clusterId v.configuration proof.slot change
  undecided : state.decidedProof = none
  installed : ∃ decided, transition.state =
    { state with decidedProof := some proof, decided := some decided } ∧ decided.value = value
  applied : Applied v.configuration transition.state change value transition.configuration
  command_eq : transition.command = none

theorem admitProof_eq_ok {proof : DecisionProof} {membership : Membership} {value : AcceptedValue}
    (h : v.admitProof proof membership = .ok value) :
    proof.configId = v.configuration.configId ∧
    proof.configDigest = v.configuration.configDigest ∧
    proof.ValidFor v.clusterId proof.slot v.epoch proof.configId membership ∧
    proof.proposal.value = some value ∧
    ∃ command, v.fetch value.commandHash = .ok (some command) ∧
      AcceptedValue.fromCommand v.clusterId proof.slot v.epoch v.configuration.configId
        value.prevHash command = value := by
  simp only [admitProof, unit_bind_ok_iff, ensure_eq_ok, decide_eq_true_eq, liftReject_eq_ok,
    DecisionProof.validateForCluster_eq_ok] at h
  obtain ⟨-, ⟨hEpoch, hConfig, hDigest, -⟩, hValid, h⟩ := h
  obtain ⟨value', hValue, h⟩ := bind_ok_iff.mp h
  simp only [unit_bind_ok_iff, Except.ok.injEq] at h
  obtain ⟨hChecked, rfl⟩ := h
  obtain ⟨command, hCommand, hResolved⟩ := bind_ok_iff.mp hChecked
  simp only [validateResolvedCommandForValue, ensure_eq_ok, decide_eq_true_eq] at hResolved
  exact ⟨hConfig, hDigest, hEpoch ▸ hValid, okOr_eq_ok.mp hValue, command,
    commandForValue_eq_ok.mp hCommand, hResolved⟩

omit [Sha256] in
theorem installProof_eq_ok {state next : RecorderSlotState} {proof : DecisionProof}
    (hNone : state.decidedProof = none) (h : state.installProof proof = .ok next) :
    next = { state with decidedProof := some proof } := by
  simp only [RecorderSlotState.installProof, hNone] at h
  exact (Except.ok.inj h).symm

omit [Sha256] in
theorem withCertificate_eq_ok {state next : RecorderSlotState} {certificate : DecisionCertificate}
    (h : withCertificate state certificate = .ok next) :
    ∃ decided, next = { state with decided := some decided } ∧
      decided.value = certificate.value := by
  cases hDecided : state.decided with
  | none =>
    simp only [withCertificate, hDecided] at h
    exact ⟨certificate, (Except.ok.inj h).symm, rfl⟩
  | some existing =>
    simp only [withCertificate, hDecided] at h
    split at h
    · cases h
    · rename_i hSame
      push Not at hSame
      obtain rfl := Except.ok.inj h
      exact ⟨existing, by rw [← hDecided], hSame⟩

omit [Sha256] in
theorem certificateFromProof_eq_ok {proof : DecisionProof} {certificate : DecisionCertificate}
    (h : certificateFromProof proof = .ok certificate) :
    proof.proposal.value = some certificate.value := by
  unfold certificateFromProof at h
  split at h
  · cases h
  · rename_i value hValue
    cases h
    exact hValue

theorem installDecisionProofRecord_eq_ok {proof : DecisionProof} {membership : Membership}
    {transition : Option Transition}
    (h : v.installDecisionProofRecord proof membership = .ok transition) :
    transition = none ∨ ∃ value command change state t, transition = some t ∧
      v.load proof.slot proof.configDigest = .ok state ∧
      v.Installs proof membership value command change state t := by
  obtain ⟨value, hAdmit, h⟩ := bind_ok_iff.mp h
  obtain ⟨state, hLoad, h⟩ := bind_ok_iff.mp h
  obtain ⟨hConfig, hDigest, hValid, hValue, command, hCommand, hResolved⟩ :=
    admitProof_eq_ok hAdmit
  cases hProof : state.decidedProof with
  | some existing =>
    simp only [installInSlot, hProof] at h
    obtain ⟨-, -, h⟩ := bind_ok_iff.mp h
    exact .inl (Except.ok.inj h).symm
  | none =>
    simp only [installInSlot, hProof] at h
    obtain ⟨change, hChange, h⟩ := bind_ok_iff.mp h
    obtain ⟨hGate, h⟩ := unit_bind_ok_iff.mp h
    obtain ⟨installed, hInstalled, h⟩ := bind_ok_iff.mp h
    obtain ⟨certificate, hCertificate, h⟩ := bind_ok_iff.mp h
    obtain ⟨next, hNext, h⟩ := bind_ok_iff.mp h
    obtain ⟨configuration, hConfiguration, h⟩ := bind_ok_iff.mp h
    obtain ⟨command', hCommand', hChange⟩ := bind_ok_iff.mp hChange
    obtain rfl : command' = command := by
      simpa using (commandForValue_eq_ok.mp hCommand').symm.trans hCommand
    obtain rfl := installProof_eq_ok hProof (liftReject_eq_ok.mp hInstalled)
    obtain ⟨decided, rfl, hDecided⟩ := withCertificate_eq_ok hNext
    have hSame := (certificateFromProof_eq_ok hCertificate).symm.trans hValue
    refine .inr ⟨value, command', change, state, _, (Except.ok.inj h).symm, hLoad,
      ⟨hResolved, hChange⟩, hConfig, hDigest, hValid, hValue, hCommand,
      admitted_of_validateSlotGate hGate, hProof, ⟨decided, rfl, ?_⟩,
      applied_of_transitionAfterApply hConfiguration, rfl⟩
    rw [hDecided, Option.some.inj hSame]

theorem installDecisionProofRecord_eq_none {proof : DecisionProof} {membership : Membership}
    (h : v.installDecisionProofRecord proof membership = .ok none) :
    ∃ state existing, v.load proof.slot proof.configDigest = .ok state ∧
      state.decidedProof = some existing ∧ existing.proposal.value = proof.proposal.value := by
  obtain ⟨value, -, h⟩ := bind_ok_iff.mp h
  obtain ⟨state, hLoad, h⟩ := bind_ok_iff.mp h
  cases hProof : state.decidedProof with
  | some existing =>
    simp only [installInSlot, hProof] at h
    obtain ⟨next, hNext, -⟩ := bind_ok_iff.mp h
    rw [liftReject_eq_ok, RecorderSlotState.installProof, hProof] at hNext
    refine ⟨state, existing, hLoad, hProof, ?_⟩
    by_contra hDiffers
    simp [hDiffers] at hNext
  | none =>
    simp only [installInSlot, hProof] at h
    obtain ⟨_, -, h⟩ := bind_ok_iff.mp h
    obtain ⟨-, h⟩ := unit_bind_ok_iff.mp h
    obtain ⟨_, -, h⟩ := bind_ok_iff.mp h
    obtain ⟨_, -, h⟩ := bind_ok_iff.mp h
    obtain ⟨_, -, h⟩ := bind_ok_iff.mp h
    obtain ⟨_, -, h⟩ := bind_ok_iff.mp h
    cases h

/-- What `install_successor_from_proof` checks and installs. -/
structure Succeeds (v : RecorderView) (membership : Membership) (stopProof : DecisionProof)
    (installed : ConfigurationState) (stopCommand : StoredCommand) : Prop where
  config_eq : stopProof.configId = v.configuration.configId
  digest_eq : stopProof.configDigest = v.configuration.configDigest
  next : checkedSucc v.configuration.configId = some installed.configId
  active : v.configuration.predecessor = none ∨ v.configuration.activated
  member : membership.contains v.recorderId
  stop : ∃ successor, SuccessorDescriptor.new v.clusterId v.configuration.configId
    v.configuration.configDigest installed.configId membership.members = some successor ∧
      stopCommand = (ConfigChange.boundStop successor).toStoredCommand
  valid : ∃ old, v.configuration.membership = some old ∧
    stopProof.ValidFor v.clusterId stopProof.slot v.epoch v.configuration.configId old
  value_eq : ∃ prevHash, stopProof.proposal.value = some (AcceptedValue.fromCommand v.clusterId
    stopProof.slot v.epoch v.configuration.configId prevHash stopCommand) ∧
    installed.predecessor = some ⟨stopProof.slot, stopCommand.hash,
      (AcceptedValue.fromCommand v.clusterId stopProof.slot v.epoch v.configuration.configId
        prevHash stopCommand).entryHash⟩
  seal_eq : v.configuration.sealed = none ∨ v.configuration.sealed = installed.predecessor
  installed_eq : installed = ⟨installed.configId, membership.digest, some membership,
    installed.predecessor, none, none, false⟩

theorem installSuccessorFromProof_eq_ok {membership : Membership} {stopProof : DecisionProof}
    {installed : ConfigurationState} {stopCommand : StoredCommand}
    (h : v.installSuccessorFromProof membership stopProof = .ok (installed, stopCommand)) :
    v.Succeeds membership stopProof installed stopCommand := by
  obtain ⟨old, hOld, h⟩ := bind_ok_iff.mp h
  obtain ⟨nextConfigId, hNext, h⟩ := bind_ok_iff.mp h
  simp only [unit_bind_ok_iff, ensure_eq_ok, decide_eq_true_eq, liftReject_eq_ok,
    DecisionProof.validateForCluster_eq_ok] at h
  obtain ⟨hActive, hMember, -, ⟨-, hConfig, hDigest⟩, hValid, h⟩ := h
  obtain ⟨command, hCommand, h⟩ := bind_ok_iff.mp h
  obtain ⟨value, hValue, h⟩ := bind_ok_iff.mp h
  simp only [unit_bind_ok_iff, ensure_eq_ok, decide_eq_true_eq, Except.ok.injEq,
    Prod.mk.injEq] at h
  obtain ⟨hExpected, hSeal, rfl, rfl⟩ := h
  obtain ⟨change, hChange, hStored⟩ := bind_ok_iff.mp hCommand
  obtain ⟨successor, hSuccessor, rfl⟩ := Option.map_eq_some_iff.mp (okOr_eq_ok.mp hChange)
  refine ⟨hConfig, hDigest, okOr_eq_ok.mp hNext, ?_, hMember,
    ⟨successor, hSuccessor, (Except.ok.inj hStored).symm⟩, ⟨old, okOr_eq_ok.mp hOld, hValid⟩,
    ⟨value.prevHash, ?_, rfl⟩, ?_, rfl⟩
  · simpa using hActive
  · rw [← hExpected]
    exact okOr_eq_ok.mp hValue
  · cases hSealed : v.configuration.sealed with
    | none => exact .inl rfl
    | some mark =>
      rw [hSealed] at hSeal
      right
      simpa using hSeal

omit [Sha256] in
theorem recoverSuccessorActivation_eq_ok {stopSlot : Nat} {prefixHash : LogHash}
    {recoveredTip : Nat} {recoveredHash : LogHash} {configuration : ConfigurationState}
    {head : Option RecordedHeadProvenance}
    (h : v.recoverSuccessorActivationFromCheckpoint stopSlot prefixHash recoveredTip
      recoveredHash = .ok (configuration, head)) :
    (configuration = v.configuration ∧ head = none) ∨
    ∃ predecessor, v.configuration.predecessor = some predecessor ∧
      v.configuration.activated = false ∧ predecessor.stopSlot = stopSlot ∧
      predecessor.prefixHash = prefixHash ∧ stopSlot < recoveredTip ∧
      configuration = { v.configuration with
        activated := true, maxAcceptedOrDecidedSlot := some recoveredTip } ∧
      head = some (.checkpointBacked stopSlot prefixHash recoveredTip recoveredHash) := by
  obtain ⟨predecessor, hPredecessor, h⟩ := bind_ok_iff.mp h
  simp only [unit_bind_ok_iff, ensure_eq_ok, decide_eq_true_eq] at h
  obtain ⟨⟨hStop, hPrefix, hTip⟩, h⟩ := h
  split at h
  · simp only [unit_bind_ok_iff, Except.ok.injEq, Prod.mk.injEq] at h
    exact .inl ⟨h.2.1.symm, h.2.2.symm⟩
  · rename_i hInactive
    obtain ⟨rfl, rfl⟩ := Prod.mk.inj (Except.ok.inj h)
    exact .inr ⟨predecessor, okOr_eq_ok.mp hPredecessor, by simpa using hInactive, hStop, hPrefix,
      hTip, rfl, rfl⟩

end Specs

end RecorderView

end Rhiza.Quepaxa
