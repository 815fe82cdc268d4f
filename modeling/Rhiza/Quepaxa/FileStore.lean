import Rhiza.Quepaxa.Files

/-! # The operations of the store on its files

Each operation first finishes an intent that an earlier one left behind, then
computes its change from what it reads, and makes the change durable: an
ordinary change by one frame of the log, a change of the configuration by an
intent and the files that it names. The log is emptied into the files before.
-/

namespace Rhiza.Quepaxa

open Core Library

section Programs

variable (self : Identity)

/-- `encode_recorded_head` with the identity of the store. -/
def Identity.head (configuration : ConfigurationState) (provenance : RecordedHeadProvenance)
    (checkpoint : WalCheckpoint) : Result RecordedHead :=
  encodeRecordedHead self.clusterId self.epoch configuration provenance checkpoint

def recoverConfigurationHeadIntent : Io Unit := do
  match (← Program.disk).headIntent with
  | none => pure ()
  | some intent => do
    Program.perform (FileStep.write .recoverHeadConfiguration fun d =>
      { d with configuration := some intent.configuration })
    Program.perform (FileStep.write .recoverHeadHead fun d => { d with recordedHead := some intent.head })
    Program.perform (FileStep.remove .recoverHeadRemove fun d => { d with headIntent := none })
    Program.perform (FileStep.sync .recoverHeadSync)

/-- The part of `recover_intent` that follows `configuration.intent`. -/
def recoverTransition (intent : TransitionIntent) : Io Unit := do
  let m ← Program.memory
  let head := headAfterSlotState m.recordedHead intent.configuration intent.state
  Program.perform (FileStep.write .recoverSlot fun d =>
    { d with slots := Function.update d.slots intent.slot (some intent.state) })
  Program.perform (FileStep.write .recoverConfiguration fun d =>
    { d with configuration := some intent.configuration })
  let encoded ← Program.lift (self.head intent.configuration head m.wal.checkpoint)
  Program.perform (FileStep.write .recoverHead fun d => { d with recordedHead := some encoded })
  Program.perform (FileStep.remove .recoverRemove fun d => { d with intent := none })
  Program.perform (FileStep.sync .recoverSync)
  Program.setMemory fun m => { m with configuration := intent.configuration, recordedHead := head }

def recoverIntent : Io Unit := do
  recoverConfigurationHeadIntent
  match (← Program.disk).intent with
  | none => pure ()
  | some intent => recoverTransition self intent

/-- `commit_configuration_head_unlocked`. -/
def commitConfigurationHead [Sha256] (configuration : ConfigurationState)
    (provenance : RecordedHeadProvenance) : Io Unit := do
  let m ← Program.memory
  let _ ← Program.lift (encodeConfigurationState configuration)
  let head ← Program.lift (self.head configuration provenance m.wal.checkpoint)
  Program.perform (FileStep.write .headIntentWrite fun d => { d with headIntent := some ⟨configuration, head⟩ })
  Program.perform (FileStep.write .commitConfiguration fun d => { d with configuration := some configuration })
  Program.perform (FileStep.write .commitHead fun d => { d with recordedHead := some head })
  Program.perform (FileStep.remove .headIntentRemove fun d => { d with headIntent := none })
  Program.perform (FileStep.sync .commitSync)

def walFailed : Error := .io "recorder WAL is unavailable after an I/O failure"

def RecorderWal.nextCheckpoint (wal : RecorderWal) : WalCheckpoint :=
  ⟨wal.checkpoint.generation + 1, wal.nextSequence - 1⟩

def RecorderWal.emptied (wal : RecorderWal) : RecorderWal :=
  { wal with
    checkpoint := wal.nextCheckpoint
    lastDigest := .zero
    frameCount := 0
    byteCount := 0
    slots := []
    commands := [] }

def Memory.poisoned (m : Memory) : Memory := { m with wal := { m.wal with failed := true } }

/-- The durable steps of `checkpoint_wal_unlocked`. -/
def checkpointFiles [Sha256] (m : Memory) : Io Unit := do
  Program.performAll (fun entry : LogHash × StoredCommand =>
    FileStep.replace .checkpointCommand fun d =>
      { d with commands := Function.update d.commands entry.1 (some entry.2) }) m.wal.commands
  Program.performAll (fun entry : Nat × RecorderSlotState =>
    FileStep.replace .checkpointSlot fun d =>
      { d with slots := Function.update d.slots entry.1 (some entry.2) }) m.wal.slots
  let _ ← Program.lift (encodeConfigurationState m.configuration)
  Program.perform (FileStep.replace .checkpointConfiguration fun d =>
    { d with configuration := some m.configuration })
  let head ← Program.lift (self.head m.configuration m.recordedHead m.wal.nextCheckpoint)
  Program.perform (FileStep.write .checkpointHead fun d => { d with recordedHead := some head })
  (Program.perform (FileStep.cut .checkpointTruncate ⟨[], 0⟩)).onError Memory.poisoned
  Program.setMemory fun m => { m with wal := m.wal.emptied }

/-- `checkpoint_wal_unlocked`. -/
def checkpointWal [Sha256] : Io Unit := do
  let m ← Program.memory
  if m.wal.failed then Program.lift (.error walFailed)
  else if m.wal.frameCount = 0 then pure ()
  else checkpointFiles self m

def insertCommand (commands : List (LogHash × StoredCommand)) :
    Option (LogHash × StoredCommand) → List (LogHash × StoredCommand)
  | some (hash, command) => Assoc.insertNew hash command commands
  | none => commands

def RecorderWal.appended (wal : RecorderWal) (frame : WalFrame) : RecorderWal :=
  { wal with
    slots := Assoc.insert frame.slot frame.state wal.slots
    commands := insertCommand wal.commands frame.command
    nextSequence := frame.sequence + 1
    lastDigest := frame.digest
    frameCount := wal.frameCount + 1
    byteCount := wal.byteCount + frame.size }

/-- The part of `append_wal_unlocked` after the checkpoint. -/
def appendFrame [Sha256] (state : RecorderSlotState) (configuration : ConfigurationState)
    (head : RecordedHeadProvenance) (command : Option (LogHash × StoredCommand)) : Io Unit := do
  let m ← Program.memory
  let frame ← Program.lift (encodeWalFrame m.wal.checkpoint.generation m.wal.nextSequence
    m.wal.lastDigest state configuration head command)
  (Program.perform (FileStep.append frame)).onError Memory.poisoned
  Program.setMemory fun m => { m with wal := m.wal.appended frame }

/-- `append_wal_unlocked`. -/
def appendWal [Sha256] (state : RecorderSlotState) (configuration : ConfigurationState)
    (head : RecordedHeadProvenance) (command : Option (LogHash × StoredCommand)) : Io Unit := do
  let m ← Program.memory
  if m.wal.failed then Program.lift (.error walFailed)
  else do
    if recorderWalHardFrameLimit ≤ m.wal.frameCount ∨ recorderWalSoftByteLimit ≤ m.wal.byteCount then
      checkpointWal self
    appendFrame state configuration head command

/-- `stage_command_unlocked`. -/
def stageCommand [Sha256] (hash : LogHash) (command : StoredCommand) : Io Unit := do
  let d ← Program.disk
  if (d.commands hash).isSome then do
    let existing ← Program.lift (d.fetchCommandCache hash)
    if existing = some command then pure () else Program.lift (.error .commandHashMismatch)
  else
    Program.perform (FileStep.replace .commandFile fun d =>
      { d with commands := Function.update d.commands hash (some command) })

/-- `store_command_unlocked`. -/
def storeCommand [Sha256] (hash : LogHash) (command : StoredCommand) : Io Unit := do
  if command.hash ≠ hash then Program.lift (.error .commandHashMismatch)
  else
    match Assoc.get (← Program.memory).wal.commands hash with
    | some existing =>
      if existing = command then pure () else Program.lift (.error .commandHashMismatch)
    | none => do
      stageCommand hash command
      Program.perform (FileStep.sync .commandSync)

/-- `commit_transition_unlocked`. -/
def commitTransition [Sha256] (state : RecorderSlotState) (configuration : ConfigurationState) :
    Io Unit := do
  let m ← Program.memory
  let head := headAfterSlotState m.recordedHead configuration state
  let _ ← Program.lift (encodeRecorderState state)
  let _ ← Program.lift (encodeConfigurationState configuration)
  let encoded ← Program.lift (self.head configuration head m.wal.checkpoint)
  let intent ← Program.lift (encodeTransitionIntent state configuration)
  Program.perform (FileStep.write .intentWrite fun d => { d with intent := some intent })
  Program.perform (FileStep.write .transitionSlot fun d =>
    { d with slots := Function.update d.slots state.slot (some state) })
  Program.perform (FileStep.write .transitionConfiguration fun d =>
    { d with configuration := some configuration })
  Program.perform (FileStep.write .transitionHead fun d => { d with recordedHead := some encoded })
  Program.perform (FileStep.remove .intentRemove fun d => { d with intent := none })
  Program.perform (FileStep.sync .transitionSync)
  Program.setMemory fun m => { m with configuration := configuration, recordedHead := head }

/-- `persist_state_transition_with_command_unlocked`. -/
def persistStateTransition [Sha256] (previous : ConfigurationState) (transition : Transition) :
    Io Unit :=
  if configurationStructureChanged previous transition.configuration then do
    checkpointWal self
    match transition.command with
    | some (hash, command) => storeCommand hash command
    | none => pure ()
    commitTransition self transition.state transition.configuration
  else do
    let m ← Program.memory
    let head := headAfterSlotState m.recordedHead transition.configuration transition.state
    appendWal self transition.state transition.configuration head transition.command
    Program.setMemory fun m =>
      { m with configuration := transition.configuration, recordedHead := head }

def readView [Sha256] : Io RecorderView := do
  let d ← Program.disk
  let m ← Program.memory
  pure (m.view self d)

def recordProposal [Sha256] (request : RecordRequest) : Io RecordSummary := do
  Program.lift ((← readView self).validateRecordContext request)
  let _ ← Program.lift (okOr (.rejected .invalidRequest) request.proposal.value)
  recoverIntent self
  let v ← readView self
  let (summary, transition) ← Program.lift (v.recordProposal request)
  match transition with
  | some transition => persistStateTransition self v.configuration transition
  | none => pure ()
  pure summary

def installDecisionProofRecord [Sha256] (proof : DecisionProof) (membership : Membership) :
    Io Unit := do
  Program.lift (ensure (proof.clusterId = self.clusterId) .wrongCluster)
  recoverIntent self
  let v ← readView self
  match ← Program.lift (v.installDecisionProofRecord proof membership) with
  | some transition => persistStateTransition self v.configuration transition
  | none => pure ()

def installSuccessorFromProof [Sha256] (membership : Membership) (stopProof : DecisionProof) :
    Io ConfigurationState := do
  recoverIntent self
  let v ← readView self
  let (installed, stopCommand) ← Program.lift (v.installSuccessorFromProof membership stopProof)
  checkpointWal self
  storeCommand stopCommand.hash stopCommand
  commitConfigurationHead self installed .empty
  Program.setMemory fun m => { m with configuration := installed, recordedHead := .empty }
  pure installed

def recoverSuccessorActivationFromCheckpoint [Sha256] (stopSlot : Nat) (prefixHash : LogHash)
    (recoveredTip : Nat) (recoveredHash : LogHash) : Io ConfigurationState := do
  recoverIntent self
  let v ← readView self
  let (recovered, head) ← Program.lift
    (v.recoverSuccessorActivationFromCheckpoint stopSlot prefixHash recoveredTip recoveredHash)
  match head with
  | some head => do
    checkpointWal self
    commitConfigurationHead self recovered head
    Program.setMemory fun m => { m with configuration := recovered, recordedHead := head }
  | none => pure ()
  pure recovered

def inspectRecordSummary [Sha256] (slot : Nat) : Io (Option RecordSummary) := do
  recoverIntent self
  Program.lift ((← readView self).inspectRecordSummary slot)

def observeReadFence [Sha256] (request : ReadFenceRequest) : Io ReadFenceObservation := do
  recoverIntent self
  Program.lift ((← readView self).observeReadFence request)

def migrationRequired : Error := .migrationRequired "recorder durable head" 2

def Disk.existingFormat (d : Disk) : Bool := d.recordedHead.isSome || d.configuration.isSome

def missesFile (error : Error) : Bool :=
  error = missingFile "configuration.rec" ∨ error = missingFile "recorded-head.rec" ∨
    error = missingFile "recorder.wal"

/-- What `open_with_membership` makes of its preflight. -/
def acceptPreflight (existingOnly existingFormat : Bool) : Result RecorderPreflight → Result Unit
  | .ok .missing =>
    if existingOnly then .error (.decode "recorder root is missing durable state") else .ok ()
  | .ok _ => .ok ()
  | .error error => if existingFormat ∧ missesFile error then .ok () else .error error

def openConfiguration [Sha256] (existingFormat : Bool) (configId : Nat) (membership : Membership) :
    Io ConfigurationState := do
  match (← Program.disk).configuration with
  | some configuration => pure configuration
  | none =>
    if existingFormat then Program.lift (.error migrationRequired)
    else do
      let configured := ConfigurationState.initial configId membership.digest (some membership)
      commitConfigurationHead self configured .empty
      pure configured

def checkEvidence [Sha256] (m : Memory) (d : Disk) (configuration : ConfigurationState) :
    RecordedHeadProvenance → Result Unit
  | .empty => .ok ()
  | .slotBacked slot => do
    let state ← m.loadUnlocked self d slot configuration.configDigest
    checkDecode (recorderStateValues state ≠ [])
      "slot-backed recorder head references a state without a value"
    validateAll ((m.view self d).validateValue slot) (recorderStateValues state)
  | .checkpointBacked stopSlot prefixHash recoveredTip recoveredHash => do
    let predecessor ← okOr (.decode "checkpoint-backed head has no predecessor binding")
      configuration.predecessor
    checkDecode (configuration.activated ∧ predecessor.stopSlot = stopSlot ∧
      predecessor.prefixHash = prefixHash ∧ stopSlot < recoveredTip ∧ recoveredHash ≠ .zero ∧
      configuration.maxAcceptedOrDecidedSlot = some recoveredTip)
      "checkpoint-backed recorder head evidence is invalid"

def installRecordedHead [Sha256] (configuration : ConfigurationState) (head : RecordedHead) :
    Io Unit := do
  let d ← Program.disk
  let m ← Program.memory
  Program.lift (checkEvidence self m d configuration head.provenance)
  Program.setMemory fun m =>
    { m with
      configuration := { m.configuration with
        maxAcceptedOrDecidedSlot := head.provenance.recoveredMax }
      recordedHead := head.provenance
      wal := { m.wal with
        checkpoint := head.checkpoint
        nextSequence := head.checkpoint.throughSequence + 1 } }

def openOrInitializeRecordedHead [Sha256] (existingFormat : Bool) : Io Unit := do
  let configuration := (← Program.memory).configuration
  match (← Program.disk).recordedHead with
  | some head => do
    Program.lift (validateRecordedHead self configuration head)
    installRecordedHead self configuration head
  | none =>
    if existingFormat then Program.lift (.error migrationRequired)
    else do
      let head ← Program.lift (self.head configuration .empty .default)
      Program.perform (FileStep.write .initialHead fun d => { d with recordedHead := some head })
      installRecordedHead self configuration head

/-- `fetch_command_cache_unlocked(..).ok().flatten()` of the replay. -/
def Disk.cachedCommand [Sha256] (d : Disk) (hash : LogHash) : Result StoredCommand :=
  match d.fetchCommandCache hash with
  | .ok (some command) => .ok command
  | _ => .error .commandUnavailable

def Memory.replayed (m : Memory) (s : Replay) (byteCount : Nat) : Memory :=
  ⟨s.configuration, s.head, ⟨m.wal.checkpoint, s.nextSequence, s.lastDigest, s.frameCount, byteCount,
    s.slots, s.commands, false⟩⟩

/-- The frames of the log are read back, and a torn one is cut off. -/
def replayWal [Sha256] (wal : WalFile) : Io Unit := do
  let d ← Program.disk
  let m ← Program.memory
  Program.lift (checkBounded wal.bytes maxRecorderWalBytes "recorder.wal")
  let s ← Program.lift (replayFrames self m.wal.checkpoint d.cachedCommand
    (.start m.configuration m.recordedHead m.wal.checkpoint) wal.frames)
  if wal.torn ≠ 0 then Program.perform (FileStep.cut .walTrim ⟨wal.frames, 0⟩)
  Program.setMemory fun m => m.replayed s (wal.frames.map (·.size)).sum

def openOrReplayWal [Sha256] : Io Unit := do
  match (← Program.disk).wal with
  | some wal => replayWal self wal
  | none => do
    Program.perform (FileStep.replace .walCreate fun d => { d with wal := some ⟨[], 0⟩ })
    Program.perform (FileStep.sync .walCreateSync)
    replayWal self ⟨[], 0⟩

def openWithMembership [Sha256] (existingOnly : Bool) (configId : Nat) (membership : Membership) :
    Io Unit := do
  let d ← Program.disk
  let existingFormat := d.existingFormat
  Program.lift (acceptPreflight existingOnly existingFormat (preflight self configId membership d))
  recoverConfigurationHeadIntent
  let configured ← openConfiguration self existingFormat configId membership
  Program.lift (checkDecode (configured.membership.all fun current =>
    current.digest = configured.configDigest) "installed membership digest mismatch")
  Program.setMemory fun m => { m with configuration := configured }
  recoverIntent self
  openOrInitializeRecordedHead self existingFormat
  openOrReplayWal self

end Programs

end Rhiza.Quepaxa
