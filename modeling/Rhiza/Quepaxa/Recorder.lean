import Rhiza.Quepaxa.Operations

/-! # The recorder without its files

The state that a recorder stands for, whatever part of it is in memory, in the
write-ahead log or in files. A call either makes its whole change, or fails and
leaves nothing, only the command it came with, or the whole change behind.
-/

namespace Rhiza.Quepaxa

open Core Library

/-- `retired` lists the configurations that the recorder has left, as they were
when it left them. Nothing reads it; it is there to speak about past decisions. -/
structure Recorder where
  recorderId : NodeId
  clusterId : ClusterId
  epoch : Nat
  configuration : ConfigurationState
  retired : List ConfigurationState
  slots : Nat → Option RecorderSlotState
  commands : LogHash → Option StoredCommand

inductive Stage
  | nothing
  | command
  | everything
  deriving DecidableEq

/-- What a call meets besides its arguments. A command that comes with a request
may replace a stored one of the same hash. -/
structure Conduct where
  replaces : Bool
  failure : Option (Stage × Error)

def Conduct.good : Conduct := ⟨false, none⟩

inductive RecorderEvent
  | storeCommand (conduct : Conduct) (hash : LogHash) (command : StoredCommand)
  | installSuccessor (conduct : Conduct) (membership : Membership) (stopProof : DecisionProof)
  | recoverActivation (conduct : Conduct) (stopSlot : Nat) (prefixHash : LogHash)
      (recoveredTip : Nat) (recoveredHash : LogHash)

namespace Recorder

def new [Sha256] (recorderId : NodeId) (clusterId : ClusterId) (epoch configId : Nat)
    (membership : Membership) : Recorder where
  recorderId := recorderId
  clusterId := clusterId
  epoch := epoch
  configuration := .initial configId membership.digest (some membership)
  retired := []
  slots := fun _ => none
  commands := fun _ => none

/-- The identity that `load_unlocked` expects of a stored state. -/
def owns (r : Recorder) (slot : Nat) (configDigest : LogHash) (state : RecorderSlotState) : Bool :=
  state.slot = slot ∧ state.clusterId = r.clusterId ∧ state.epoch = r.epoch ∧
    state.configId = r.configuration.configId ∧
    (configDigest ≠ .zero → state.configDigest = configDigest)

/-- `load_unlocked`. -/
def load (r : Recorder) (slot : Nat) (configDigest : LogHash) : Result RecorderSlotState :=
  match r.slots slot with
  | none => .ok (.newWithDigest slot r.clusterId r.epoch r.configuration.configId configDigest)
  | some state =>
    if r.owns slot configDigest state then .ok state
    else .error (.decode "recorder state identity mismatch")

def view (r : Recorder) : RecorderView where
  recorderId := r.recorderId
  clusterId := r.clusterId
  epoch := r.epoch
  configuration := r.configuration
  load := r.load
  holdsSlot slot := (r.slots slot).isSome
  fetch hash := .ok (r.commands hash)

def keepCommand (r : Recorder) (replaces : Bool) (hash : LogHash) (command : StoredCommand) :
    Recorder :=
  if (r.commands hash).isSome ∧ ¬ replaces then r
  else { r with commands := Function.update r.commands hash (some command) }

def stage (r : Recorder) (replaces : Bool) : Option (LogHash × StoredCommand) → Recorder
  | some (hash, command) => r.keepCommand replaces hash command
  | none => r

def apply (r : Recorder) (replaces : Bool) (transition : Transition) : Recorder :=
  { r.stage replaces transition.command with
    configuration := transition.configuration
    slots := Function.update r.slots transition.state.slot (some transition.state) }

/-- How a call ends that wants to answer `reply` after going from `r` over `staged` to `done`. -/
def settle {α : Type} (conduct : Conduct) (r staged done : Recorder) (reply : Result α) :
    Recorder × Result α :=
  match conduct.failure with
  | none => (done, reply)
  | some (.nothing, error) => (r, .error error)
  | some (.command, error) => (staged, .error error)
  | some (.everything, error) => (done, .error error)

section Calls

variable [Sha256]

def record (r : Recorder) (conduct : Conduct) (request : RecordRequest) :
    Recorder × Result RecordSummary :=
  match r.view.recordProposal request with
  | .error error => settle conduct r r r (.error error)
  | .ok (summary, none) => settle conduct r r r (.ok summary)
  | .ok (summary, some transition) =>
    settle conduct r (r.stage conduct.replaces transition.command)
      (r.apply conduct.replaces transition) (.ok summary)

def installDecisionProof (r : Recorder) (conduct : Conduct) (proof : DecisionProof)
    (membership : Membership) : Recorder × Result Unit :=
  match r.view.installDecisionProofRecord proof membership with
  | .error error => settle conduct r r r (.error error)
  | .ok none => settle conduct r r r (.ok ())
  | .ok (some transition) => settle conduct r r (r.apply conduct.replaces transition) (.ok ())

/-- `store_command_unlocked`. -/
def storeCommand (r : Recorder) (conduct : Conduct) (hash : LogHash) (command : StoredCommand) :
    Recorder × Result Unit :=
  if command.hash ≠ hash then settle conduct r r r (.error .commandHashMismatch)
  else
    match r.commands hash with
    | some existing =>
      settle conduct r r r (if existing = command then .ok () else .error .commandHashMismatch)
    | none => settle conduct r r (r.keepCommand false hash command) (.ok ())

def installSuccessor (r : Recorder) (conduct : Conduct) (membership : Membership)
    (stopProof : DecisionProof) : Recorder × Result ConfigurationState :=
  match r.view.installSuccessorFromProof membership stopProof with
  | .error error => settle conduct r r r (.error error)
  | .ok (installed, stopCommand) =>
    match r.storeCommand .good stopCommand.hash stopCommand with
    | (_, .error error) => settle conduct r r r (.error error)
    | (staged, .ok ()) =>
      settle conduct r staged
        { staged with configuration := installed, retired := r.configuration :: r.retired }
        (.ok installed)

omit [Sha256] in
def recoverActivation (r : Recorder) (conduct : Conduct) (stopSlot : Nat) (prefixHash : LogHash)
    (recoveredTip : Nat) (recoveredHash : LogHash) : Recorder × Result ConfigurationState :=
  match r.view.recoverSuccessorActivationFromCheckpoint stopSlot prefixHash recoveredTip
      recoveredHash with
  | .error error => settle conduct r r r (.error error)
  | .ok (configuration, _) =>
    settle conduct r r { r with configuration := configuration } (.ok configuration)

def occur (r : Recorder) : RecorderEvent → Recorder
  | .storeCommand conduct hash command => (r.storeCommand conduct hash command).1
  | .installSuccessor conduct membership stopProof =>
    (r.installSuccessor conduct membership stopProof).1
  | .recoverActivation conduct stopSlot prefixHash recoveredTip recoveredHash =>
    (r.recoverActivation conduct stopSlot prefixHash recoveredTip recoveredHash).1

end Calls

def register (r : Recorder) (context : Context) : IsrState :=
  match r.slots context.slot with
  | some state => if state.context = context then state.isr else .empty
  | none => .empty

instance [Sha256] : RecorderRpc Recorder Conduct RecorderEvent where
  record := record
  installDecisionProof := installDecisionProof
  inspectRecordSummary r conduct slot := settle conduct r r r (r.view.inspectRecordSummary slot)
  supportsContextReadFence _ := true
  observeReadFence r conduct request := settle conduct r r r (r.view.observeReadFence request)
  occur := occur
  register := register
  holds r proof := ∃ slot state, r.slots slot = some state ∧ state.decidedProof = some proof

section Fields

variable (r : Recorder) (replaces : Bool) (hash : LogHash) (command : StoredCommand)
  (staged : Option (LogHash × StoredCommand)) (transition : Transition)

@[simp] theorem keepCommand_slots : (r.keepCommand replaces hash command).slots = r.slots := by
  unfold keepCommand
  split <;> rfl

@[simp] theorem keepCommand_configuration :
    (r.keepCommand replaces hash command).configuration = r.configuration := by
  unfold keepCommand
  split <;> rfl

@[simp] theorem keepCommand_retired :
    (r.keepCommand replaces hash command).retired = r.retired := by
  unfold keepCommand
  split <;> rfl

@[simp] theorem keepCommand_clusterId :
    (r.keepCommand replaces hash command).clusterId = r.clusterId := by
  unfold keepCommand
  split <;> rfl

@[simp] theorem keepCommand_epoch : (r.keepCommand replaces hash command).epoch = r.epoch := by
  unfold keepCommand
  split <;> rfl

@[simp] theorem stage_slots : (r.stage replaces staged).slots = r.slots := by
  cases staged <;> simp [stage]

@[simp] theorem stage_retired : (r.stage replaces staged).retired = r.retired := by
  cases staged <;> simp [stage]

@[simp] theorem stage_clusterId : (r.stage replaces staged).clusterId = r.clusterId := by
  cases staged <;> simp [stage]

@[simp] theorem stage_epoch : (r.stage replaces staged).epoch = r.epoch := by
  cases staged <;> simp [stage]

@[simp] theorem apply_slots : (r.apply replaces transition).slots =
    Function.update r.slots transition.state.slot (some transition.state) := rfl

@[simp] theorem apply_configuration :
    (r.apply replaces transition).configuration = transition.configuration := rfl

@[simp] theorem apply_retired : (r.apply replaces transition).retired = r.retired := by
  simp [apply]

@[simp] theorem apply_commands : (r.apply replaces transition).commands =
    (r.stage replaces transition.command).commands := rfl

@[simp] theorem apply_clusterId : (r.apply replaces transition).clusterId = r.clusterId := by
  simp [apply]

@[simp] theorem apply_epoch : (r.apply replaces transition).epoch = r.epoch := by
  simp [apply]

end Fields

inductive Move
  | store (hash : LogHash) (command : StoredCommand)
  | record (request : RecordRequest)
  | install (proof : DecisionProof) (membership : Membership)
  | succeed (membership : Membership) (stopProof : DecisionProof)
  | activate (stopSlot : Nat) (prefixHash : LogHash) (recoveredTip : Nat) (recoveredHash : LogHash)

section Takes

variable [Sha256]

inductive Takes (r : Recorder) : Move → Recorder → Prop
  | idle (move : Move) : Takes r move r
  | store {hash : LogHash} {command : StoredCommand} (hHash : command.hash = hash)
      (hAbsent : r.commands hash = none) :
      Takes r (.store hash command) (r.keepCommand false hash command)
  | stage {request : RecordRequest} {value : AcceptedValue} {command : StoredCommand}
      {change : Option ConfigChange} (replaces : Bool)
      (hPasses : r.view.Passes request value command change)
      (hCommand : request.command = some command) :
      Takes r (.record request) (r.keepCommand replaces value.commandHash command)
  | record {request : RecordRequest} {value : AcceptedValue} {command : StoredCommand}
      {change : Option ConfigChange} {state : RecorderSlotState} {transition : Transition}
      (replaces : Bool) (hPasses : r.view.Passes request value command change)
      (hLoad : r.load request.slot request.configDigest = .ok state)
      (hRecords : r.view.Records request change value state transition) :
      Takes r (.record request) (r.apply replaces transition)
  | install {proof : DecisionProof} {membership : Membership} {value : AcceptedValue}
      {command : StoredCommand} {change : Option ConfigChange} {state : RecorderSlotState}
      {transition : Transition} (replaces : Bool)
      (hLoad : r.load proof.slot proof.configDigest = .ok state)
      (hInstalls : r.view.Installs proof membership value command change state transition) :
      Takes r (.install proof membership) (r.apply replaces transition)
  | stageStop {membership : Membership} {stopProof : DecisionProof}
      {installed : ConfigurationState} {stopCommand : StoredCommand}
      (hSucceeds : r.view.Succeeds membership stopProof installed stopCommand)
      (hStored : r.commands stopCommand.hash = none ∨
        r.commands stopCommand.hash = some stopCommand) :
      Takes r (.succeed membership stopProof) (r.keepCommand false stopCommand.hash stopCommand)
  | succeed {membership : Membership} {stopProof : DecisionProof}
      {installed : ConfigurationState} {stopCommand : StoredCommand}
      (hSucceeds : r.view.Succeeds membership stopProof installed stopCommand)
      (hStored : r.commands stopCommand.hash = none ∨
        r.commands stopCommand.hash = some stopCommand) :
      Takes r (.succeed membership stopProof)
        { r.keepCommand false stopCommand.hash stopCommand with
          configuration := installed, retired := r.configuration :: r.retired }
  | activate {stopSlot : Nat} {prefixHash : LogHash} {recoveredTip : Nat} {recoveredHash : LogHash}
      {predecessor : ConfigurationSeal} (hPredecessor : r.configuration.predecessor = some predecessor)
      (hInactive : r.configuration.activated = false) (hStop : predecessor.stopSlot = stopSlot)
      (hTip : stopSlot < recoveredTip) :
      Takes r (.activate stopSlot prefixHash recoveredTip recoveredHash)
        { r with configuration := { r.configuration with
            activated := true, maxAcceptedOrDecidedSlot := some recoveredTip } }

omit [Sha256] in
theorem settle_cases {α : Type} (conduct : Conduct) (r staged done : Recorder) (reply : Result α) :
    (settle conduct r staged done reply).1 = r ∨ (settle conduct r staged done reply).1 = staged ∨
      (settle conduct r staged done reply).1 = done := by
  unfold settle
  split <;> simp

omit [Sha256] in
theorem settle_eq_ok {α : Type} {conduct : Conduct} {r staged done : Recorder} {reply : Result α}
    {a : α} (h : (settle conduct r staged done reply).2 = .ok a) :
    reply = .ok a ∧ (settle conduct r staged done reply).1 = done := by
  unfold settle at h ⊢
  split at h
  · exact ⟨h, rfl⟩
  all_goals cases h

omit [Sha256] in
@[simp] theorem settle_same {α : Type} (conduct : Conduct) (r : Recorder) (reply : Result α) :
    (settle conduct r r r reply).1 = r := by
  rcases settle_cases conduct r r r reply with h | h | h <;> exact h

theorem record_takes (r : Recorder) (conduct : Conduct) (request : RecordRequest) :
    Takes r (.record request) (r.record conduct request).1 := by
  cases hResult : r.view.recordProposal request with
  | error error =>
    simp only [record, hResult, settle_same]
    exact .idle _
  | ok result =>
    obtain ⟨summary, transition⟩ := result
    obtain ⟨value, command, change, state, hPasses, hLoad, ⟨proof, -, -, rfl⟩ | ⟨t, rfl, -, hRecords⟩⟩ :=
      RecorderView.recordProposal_eq_ok hResult
    · simp only [record, hResult, settle_same]
      exact .idle _
    · simp only [record, hResult]
      rcases settle_cases conduct r (r.stage conduct.replaces t.command)
        (r.apply conduct.replaces t) (.ok summary) with h | h | h <;> rw [h]
      · exact .idle _
      · rw [hRecords.command_eq]
        rcases hPasses.source with hOwn | ⟨hNone, -⟩
        · rw [hOwn]
          exact .stage conduct.replaces hPasses hOwn
        · rw [hNone]
          exact .idle _
      · exact .record conduct.replaces hPasses hLoad hRecords

theorem installDecisionProof_takes (r : Recorder) (conduct : Conduct) (proof : DecisionProof)
    (membership : Membership) :
    Takes r (.install proof membership) (r.installDecisionProof conduct proof membership).1 := by
  cases hResult : r.view.installDecisionProofRecord proof membership with
  | error error =>
    simp only [installDecisionProof, hResult, settle_same]
    exact .idle _
  | ok transition =>
    obtain rfl | ⟨value, command, change, state, t, rfl, hLoad, hInstalls⟩ :=
      RecorderView.installDecisionProofRecord_eq_ok hResult
    · simp only [installDecisionProof, hResult, settle_same]
      exact .idle _
    · simp only [installDecisionProof, hResult]
      rcases settle_cases conduct r r (r.apply conduct.replaces t) (.ok ()) with h | h | h <;> rw [h]
      · exact .idle _
      · exact .idle _
      · exact .install conduct.replaces hLoad hInstalls

theorem storeCommand_takes (r : Recorder) (conduct : Conduct) (hash : LogHash)
    (command : StoredCommand) :
    Takes r (.store hash command) (r.storeCommand conduct hash command).1 := by
  unfold storeCommand
  split
  · rw [settle_same]
    exact .idle _
  · rename_i hHash
    push Not at hHash
    split
    · rw [settle_same]
      exact .idle _
    · rename_i hAbsent
      rcases settle_cases conduct r r (r.keepCommand false hash command) (.ok ()) with h | h | h <;>
        rw [h]
      · exact .idle _
      · exact .idle _
      · exact .store hHash hAbsent

theorem storeCommand_eq_ok {r staged : Recorder} {command : StoredCommand}
    (h : r.storeCommand .good command.hash command = (staged, .ok ())) :
    staged = r.keepCommand false command.hash command ∧
      (r.commands command.hash = none ∨ r.commands command.hash = some command) := by
  simp only [storeCommand, ne_eq, not_true_eq_false, if_false] at h
  split at h
  · rename_i existing hExisting
    simp only [settle, Conduct.good, Prod.mk.injEq] at h
    obtain ⟨rfl, hSame⟩ := h
    have hSame : existing = command := by
      by_contra hNe
      simp [hNe] at hSame
    exact ⟨by simp [keepCommand, hExisting], .inr (hSame ▸ hExisting)⟩
  · rename_i hAbsent
    simp only [settle, Conduct.good, Prod.mk.injEq] at h
    exact ⟨h.1.symm, .inl hAbsent⟩

theorem installSuccessor_takes (r : Recorder) (conduct : Conduct) (membership : Membership)
    (stopProof : DecisionProof) :
    Takes r (.succeed membership stopProof) (r.installSuccessor conduct membership stopProof).1 := by
  cases hResult : r.view.installSuccessorFromProof membership stopProof with
  | error error =>
    simp only [installSuccessor, hResult, settle_same]
    exact .idle _
  | ok result =>
    obtain ⟨installed, stopCommand⟩ := result
    have hSucceeds := RecorderView.installSuccessorFromProof_eq_ok hResult
    simp only [installSuccessor, hResult]
    split
    · rw [settle_same]
      exact .idle _
    · rename_i staged hStore
      obtain ⟨rfl, hStored⟩ := storeCommand_eq_ok hStore
      rcases settle_cases conduct r (r.keepCommand false stopCommand.hash stopCommand)
        { r.keepCommand false stopCommand.hash stopCommand with
          configuration := installed, retired := r.configuration :: r.retired }
        (.ok installed) with h | h | h <;> rw [h]
      · exact .idle _
      · exact .stageStop hSucceeds hStored
      · exact .succeed hSucceeds hStored

theorem recoverActivation_takes (r : Recorder) (conduct : Conduct) (stopSlot : Nat)
    (prefixHash : LogHash) (recoveredTip : Nat) (recoveredHash : LogHash) :
    Takes r (.activate stopSlot prefixHash recoveredTip recoveredHash)
      (r.recoverActivation conduct stopSlot prefixHash recoveredTip recoveredHash).1 := by
  cases hResult : r.view.recoverSuccessorActivationFromCheckpoint stopSlot prefixHash recoveredTip
      recoveredHash with
  | error error =>
    simp only [recoverActivation, hResult, settle_same]
    exact .idle _
  | ok result =>
    obtain ⟨configuration, head⟩ := result
    simp only [recoverActivation, hResult]
    rcases settle_cases conduct r r { r with configuration := configuration } (.ok configuration)
      with h | h | h <;> rw [h]
    · exact .idle _
    · exact .idle _
    · obtain ⟨rfl, -⟩ | ⟨predecessor, hPredecessor, hInactive, hStop, -, hTip, rfl, -⟩ :=
        RecorderView.recoverSuccessorActivation_eq_ok hResult
      · exact .idle _
      · exact .activate hPredecessor hInactive hStop hTip

omit [Sha256] in
def moveOf : RecorderEvent → Move
  | .storeCommand _ hash command => .store hash command
  | .installSuccessor _ membership stopProof => .succeed membership stopProof
  | .recoverActivation _ stopSlot prefixHash recoveredTip recoveredHash =>
    .activate stopSlot prefixHash recoveredTip recoveredHash

theorem occur_takes (r : Recorder) (event : RecorderEvent) : Takes r (moveOf event) (r.occur event) := by
  cases event with
  | storeCommand conduct hash command => exact storeCommand_takes r conduct hash command
  | installSuccessor conduct membership stopProof =>
    exact installSuccessor_takes r conduct membership stopProof
  | recoverActivation conduct stopSlot prefixHash recoveredTip recoveredHash =>
    exact recoverActivation_takes r conduct stopSlot prefixHash recoveredTip recoveredHash

section Laws

variable {r r' : Recorder} {move : Move}

omit [Sha256] in
theorem load_eq_ok {slot : Nat} {configDigest : LogHash} {state : RecorderSlotState}
    (h : r.load slot configDigest = .ok state) :
    state.slot = slot ∧ state.clusterId = r.clusterId ∧ state.epoch = r.epoch ∧
      state.configId = r.configuration.configId ∧
      (configDigest ≠ .zero → state.configDigest = configDigest) ∧
      (r.slots slot = some state ∨ r.slots slot = none ∧ state = .newWithDigest slot r.clusterId
        r.epoch r.configuration.configId configDigest) := by
  unfold load at h
  split at h
  · rename_i hNone
    obtain rfl := Except.ok.inj h
    exact ⟨rfl, rfl, rfl, rfl, fun _ => rfl, .inr ⟨hNone, rfl⟩⟩
  · rename_i stored hStored
    split at h
    · rename_i hOwns
      obtain rfl := Except.ok.inj h
      obtain ⟨hSlot, hCluster, hEpoch, hConfig, hDigest⟩ := of_decide_eq_true hOwns
      exact ⟨hSlot, hCluster, hEpoch, hConfig, hDigest, .inl hStored⟩
    · cases h

omit [Sha256] in
theorem register_of_load {slot : Nat} {configDigest : LogHash} {state : RecorderSlotState}
    (h : r.load slot configDigest = .ok state) : r.register state.context = state.isr := by
  obtain ⟨hSlot, -, -, -, -, hStored | ⟨hNone, rfl⟩⟩ := load_eq_ok h
  · have hSlot : state.context.slot = slot := hSlot
    simp [register, hSlot, hStored]
  · have hSlot : (RecorderSlotState.newWithDigest slot r.clusterId r.epoch
      r.configuration.configId configDigest).context.slot = slot := rfl
    simp only [register, hSlot, hNone]
    rfl

omit [Sha256] in
theorem register_apply {slot : Nat} {configDigest : LogHash} {state : RecorderSlotState}
    {transition : Transition} (replaces : Bool) (hLoad : r.load slot configDigest = .ok state)
    (hContext : transition.state.context = state.context) (context : Context) :
    (r.apply replaces transition).register context =
      if context = state.context then transition.state.isr else r.register context := by
  obtain ⟨hSlot, -, -, -, -, hStored⟩ := load_eq_ok hLoad
  have hSlot' : transition.state.slot = slot := (congrArg Context.slot hContext).trans hSlot
  by_cases hHere : context = state.context
  · subst hHere
    have hAt : state.context.slot = slot := hSlot
    simp [register, hAt, hSlot', hContext]
  · rw [if_neg hHere]
    by_cases hAt : context.slot = slot
    · have hNot : ¬ transition.state.context = context := by
        rw [hContext]
        exact fun h => hHere h.symm
      simp only [register, apply_slots, hAt, hSlot', Function.update_self, hNot, if_false]
      rcases hStored with hStored | ⟨hNone, -⟩
      · rw [hStored]
        simp [show ¬ state.context = context from fun h => hHere h.symm]
      · rw [hNone]
    · simp only [register, apply_slots, hSlot', Function.update_of_ne hAt]

omit [Sha256] in
theorem context_nextState (state : RecorderSlotState) (request : RecordRequest) :
    (RecorderView.nextState state request).context = state.context := rfl

theorem takes_register (h : Takes r move r') (context : Context) :
    r'.register context = r.register context ∨ ∃ request, move = .record request ∧
      context = request.context ∧
      r'.register context = (r.register context).next request.step request.proposal := by
  cases h with
  | idle => exact .inl rfl
  | store => exact .inl (by simp [register])
  | stage => exact .inl (by simp [register])
  | @record request value command change state transition replaces hPasses hLoad hRecords =>
    rw [register_apply replaces hLoad (by rw [hRecords.state_eq, context_nextState])]
    split
    · rename_i hHere
      refine .inr ⟨request, rfl, hHere.trans hRecords.context_eq.symm, ?_⟩
      rw [hHere, register_of_load hLoad, hRecords.state_eq]
      rfl
    · exact .inl rfl
  | @install proof membership value command change state transition replaces hLoad hInstalls =>
    obtain ⟨decided, hState, -⟩ := hInstalls.installed
    left
    rw [register_apply replaces hLoad (by rw [hState]; rfl)]
    split
    · rename_i hHere
      rw [hHere, register_of_load hLoad, hState]
    · rfl
  | stageStop => exact .inl (by simp [register])
  | succeed => exact .inl (by simp [register])
  | activate => exact .inl rfl

theorem takes_holds (h : Takes r move r') {slot : Nat} {state : RecorderSlotState}
    {proof : DecisionProof} (hState : r'.slots slot = some state)
    (hProof : state.decidedProof = some proof) :
    (∃ old, r.slots slot = some old ∧ old.decidedProof = some proof) ∨
      ∃ membership, move = .install proof membership := by
  cases h with
  | idle => exact .inl ⟨state, hState, hProof⟩
  | store => exact .inl ⟨state, by simpa using hState, hProof⟩
  | stage => exact .inl ⟨state, by simpa using hState, hProof⟩
  | @record request value command change old transition replaces hPasses hLoad hRecords =>
    by_cases hAt : slot = transition.state.slot
    · subst hAt
      simp only [apply_slots, Function.update_self, Option.some.injEq] at hState
      rw [← hState, hRecords.state_eq] at hProof
      cases hRecords.undecided.symm.trans hProof
    · exact .inl ⟨state, by simpa [hAt] using hState, hProof⟩
  | @install installed membership value command change old transition replaces hLoad hInstalls =>
    by_cases hAt : slot = transition.state.slot
    · subst hAt
      simp only [apply_slots, Function.update_self, Option.some.injEq] at hState
      obtain ⟨decided, hStored, -⟩ := hInstalls.installed
      rw [← hState, hStored] at hProof
      exact .inr ⟨membership, by rw [Option.some.inj hProof]⟩
    · exact .inl ⟨state, by simpa [hAt] using hState, hProof⟩
  | stageStop => exact .inl ⟨state, by simpa using hState, hProof⟩
  | succeed => exact .inl ⟨state, by simpa using hState, hProof⟩
  | activate => exact .inl ⟨state, hState, hProof⟩

theorem record_answered {conduct : Conduct} {request : RecordRequest} {summary : RecordSummary}
    (h : (r.record conduct request).2 = .ok summary) :
    ∃ value command change state, r.view.Passes request value command change ∧
      r.load request.slot request.configDigest = .ok state ∧
      ((∃ proof, state.decidedProof = some proof ∧
        summary = recordSummary r.recorderId state (some proof) ∧
        (r.record conduct request).1 = r) ∨
      ∃ t, r.view.Records request change value state t ∧
        summary = recordSummary r.recorderId t.state none ∧
        (r.record conduct request).1 = r.apply conduct.replaces t) := by
  cases hResult : r.view.recordProposal request with
  | error error =>
    simp only [record, hResult] at h
    cases (settle_eq_ok h).1
  | ok result =>
    obtain ⟨answer, transition⟩ := result
    obtain ⟨value, command, change, state, hPasses, hLoad, ⟨proof, hProof, hAnswer, rfl⟩ |
      ⟨t, rfl, hAnswer, hRecords⟩⟩ := RecorderView.recordProposal_eq_ok hResult
    · simp only [record, hResult] at h ⊢
      obtain rfl := Except.ok.inj (settle_eq_ok h).1
      exact ⟨value, command, change, state, hPasses, hLoad,
        .inl ⟨proof, hProof, hAnswer, settle_same ..⟩⟩
    · simp only [record, hResult] at h ⊢
      obtain ⟨hReply, hDone⟩ := settle_eq_ok h
      obtain rfl := Except.ok.inj hReply
      exact ⟨value, command, change, state, hPasses, hLoad, .inr ⟨t, hRecords, hAnswer, hDone⟩⟩

theorem record_of_accepts {conduct : Conduct} {request : RecordRequest}
    (h : Accepts r conduct request) :
    ∃ value command change state transition replaces, r.view.Passes request value command change ∧
      r.load request.slot request.configDigest = .ok state ∧
      r.view.Records request change value state transition ∧
      (r.record conduct request).1 = r.apply replaces transition := by
  rcases h with hChanged | ⟨summary, hReply, hUndecided⟩
  · have hTakes := record_takes r conduct request
    change (r.record conduct request).1.register request.context ≠
      r.register request.context at hChanged
    generalize (r.record conduct request).1 = r' at hTakes hChanged ⊢
    cases hTakes with
    | idle => exact absurd rfl hChanged
    | stage => exact absurd (by simp [register]) hChanged
    | record replaces hPasses hLoad hRecords =>
      exact ⟨_, _, _, _, _, replaces, hPasses, hLoad, hRecords, rfl⟩
  · obtain ⟨value, command, change, state, hPasses, hLoad, ⟨proof, -, rfl, -⟩ |
      ⟨t, hRecords, -, hDone⟩⟩ := record_answered hReply
    · cases hUndecided
    · exact ⟨value, command, change, state, t, conduct.replaces, hPasses, hLoad, hRecords, hDone⟩

instance : LawfulRecorder Recorder Conduct RecorderEvent where
  record_register r conduct request context := by
    rcases takes_register (record_takes r conduct request) context with
      hSame | ⟨request', hMove, hContext, hNext⟩
    · exact .inl hSame
    · cases hMove
      exact .inr ⟨hContext, hNext⟩
  record_reply r conduct request summary h := by
    obtain ⟨value, command, change, state, -, hLoad, ⟨proof, -, rfl, hSame⟩ |
      ⟨t, hRecords, rfl, hDone⟩⟩ := record_answered h
    · change (recordSummary _ _ _).Shows ((r.record conduct request).1.register state.context)
      rw [hSame, register_of_load hLoad]
      exact recordSummary_shows ..
    · change (recordSummary _ _ _).Shows ((r.record conduct request).1.register t.state.context)
      have hContext : t.state.context = state.context := by rw [hRecords.state_eq, context_nextState]
      rw [hDone, register_apply _ hLoad hContext, if_pos hContext]
      exact recordSummary_shows ..
  record_undecided r conduct request summary h hDecided := by
    obtain ⟨value, command, change, state, -, hLoad, ⟨proof, -, rfl, -⟩ |
      ⟨t, hRecords, -, hDone⟩⟩ := record_answered h
    · cases hDecided
    · change (r.record conduct request).1.register request.context = _
      rw [hDone, register_apply _ hLoad (by rw [hRecords.state_eq, context_nextState]),
        if_pos hRecords.context_eq, hRecords.state_eq]
      change _ = (r.register request.context).next _ _
      rw [hRecords.context_eq, register_of_load hLoad]
      rfl
  install_register r conduct proof membership := by
    funext context
    rcases takes_register (installDecisionProof_takes r conduct proof membership) context with
      hSame | ⟨request, hMove, -⟩
    · exact hSame
    · cases hMove
  inspect_register r conduct slot := by
    change (settle conduct r r r _).1.register = r.register
    rw [settle_same]
  inspect_reply r conduct slot summary h := by
    change summary.Shows ((settle conduct r r r _).1.register summary.context)
    rw [settle_same]
    obtain ⟨hReply, -⟩ := settle_eq_ok h
    unfold RecorderView.inspectRecordSummary at hReply
    split at hReply
    · obtain ⟨state, hLoad, hReply⟩ := bind_ok_iff.mp hReply
      obtain rfl := Option.some.inj (Except.ok.inj hReply)
      change (recordSummary _ _ _).Shows (r.register state.context)
      rw [register_of_load hLoad]
      exact recordSummary_shows ..
    · cases hReply
  observe_register r conduct request := by
    change (settle conduct r r r _).1.register = r.register
    rw [settle_same]
  occur_register r event := by
    funext context
    rcases takes_register (occur_takes r event) context with hSame | ⟨request, hMove, -⟩
    · exact hSame
    · cases event <;> cases hMove
  record_decided r conduct request summary proof h hDecided := by
    obtain ⟨value, command, change, state, -, hLoad, ⟨installed, hProof, rfl, -⟩ |
      ⟨t, -, rfl, -⟩⟩ := record_answered h
    · obtain rfl := Option.some.inj hDecided
      obtain ⟨-, -, -, -, -, hStored | ⟨-, rfl⟩⟩ := load_eq_ok hLoad
      · exact ⟨request.slot, state, hStored, hProof⟩
      · cases hProof
    · cases hDecided
  record_holds r conduct request proof := by
    rintro ⟨slot, state, hState, hProof⟩
    rcases takes_holds (record_takes r conduct request) hState hProof with
      ⟨old, hOld, hOldProof⟩ | ⟨membership, hMove⟩
    · exact ⟨slot, old, hOld, hOldProof⟩
    · cases hMove
  install_holds r conduct installed proof membership := by
    rintro ⟨slot, state, hState, hProof⟩
    rcases takes_holds (installDecisionProof_takes r conduct installed membership) hState hProof
      with ⟨old, hOld, hOldProof⟩ | ⟨membership', hMove⟩
    · exact .inl ⟨slot, old, hOld, hOldProof⟩
    · cases hMove
      exact .inr rfl
  inspect_holds r conduct slot proof := by
    change (∃ slot state, (settle conduct r r r _).1.slots slot = some state ∧ _) → _
    rw [settle_same]
    exact id
  observe_holds r conduct request proof := by
    change (∃ slot state, (settle conduct r r r _).1.slots slot = some state ∧ _) → _
    rw [settle_same]
    exact id
  occur_holds r event proof := by
    rintro ⟨slot, state, hState, hProof⟩
    rcases takes_holds (occur_takes r event) hState hProof with
      ⟨old, hOld, hOldProof⟩ | ⟨membership, hMove⟩
    · exact ⟨slot, old, hOld, hOldProof⟩
    · cases event <;> cases hMove

end Laws

end Takes

end Recorder

end Rhiza.Quepaxa
