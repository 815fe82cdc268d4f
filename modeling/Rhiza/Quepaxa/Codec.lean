import Rhiza.Quepaxa.Operations

/-! # The encoders of the recorder's files

A file is modelled by what it says; the encoders give its size, which the bounded
reads of the store check, and the digest by which the frames of the write-ahead
log are chained. An encoder fails on a string that is too long for its length
field.
-/

namespace Rhiza.Quepaxa

open Core Library

structure WalCheckpoint where
  generation : Nat
  throughSequence : Nat
  deriving DecidableEq

def WalCheckpoint.default : WalCheckpoint := ⟨1, 0⟩

section Encoders

def putBytes (value : Bytes) : Result Bytes :=
  if value.length ≤ 65535 then .ok (toBeBytes 2 value.length ++ value)
  else .error (.decode "recorder string is too long")

def putBlob (value : Bytes) : Bytes := toBeBytes 8 value.length ++ value

def encodeFlag {α : Type} (encode : α → Result Bytes) : Option α → Result Bytes
  | none => .ok [0]
  | some a => do .ok (1 :: (← encode a))

def encodeAll {α : Type} (encode : α → Result Bytes) : List α → Result Bytes
  | [] => .ok []
  | a :: rest => do
    let first ← encode a
    let others ← encodeAll encode rest
    .ok (first ++ others)

def encodeValue (value : AcceptedValue) : Bytes :=
  value.commandHash.bytes ++ value.prevHash.bytes ++ value.entryHash.bytes

def encodeBallot (ballot : Ballot) : Result Bytes := do
  .ok (toBeBytes 8 ballot.round ++ toBeBytes 16 ballot.priority ++
    (← putBytes (utf8 ballot.proposerId)))

def encodeProposal (proposal : Proposal) : Result Bytes := do
  let proposerId ← putBytes (utf8 proposal.proposerId)
  let value ← encodeFlag (fun value => .ok (encodeValue value)) proposal.value
  .ok (proposal.priority.bytes ++ proposerId ++ toBeBytes 8 proposal.proposalId ++ value)

def encodeOptionalProposal : Option Proposal → Result Bytes := encodeFlag encodeProposal

def encodeSummary (summary : RecorderSummary) : Result Bytes := do
  let recorderId ← putBytes (utf8 summary.recorderId)
  let firstCurrent ← encodeOptionalProposal summary.firstCurrent
  let aggregatePrior ← encodeOptionalProposal summary.aggregatePrior
  .ok (recorderId ++ toBeBytes 8 summary.slot ++ toBeBytes 8 summary.step ++ firstCurrent ++
    aggregatePrior)

def encodeProof (proof : DecisionProof) : Result Bytes := do
  let clusterId ← putBytes (utf8 proof.clusterId)
  let proposal ← encodeOptionalProposal (some proof.proposal)
  let summaries ← encodeAll encodeSummary proof.summaries
  if proof.summaries.length ≤ 65535 then
    .ok (clusterId ++ toBeBytes 8 proof.slot ++ toBeBytes 8 proof.epoch ++
      toBeBytes 8 proof.configId ++ proof.configDigest.bytes ++ toBeBytes 8 proof.step ++
      proposal ++ toBeBytes 2 proof.summaries.length ++ summaries)
  else .error (.decode "too many proof summaries")

def encodeOptionalProof : Option DecisionProof → Result Bytes
  | none => .ok [0]
  | some proof => do
    let tag : UInt8 := match proof with
      | .fastPath .. => 1
      | .phase2 .. => 2
    .ok (tag :: (← encodeProof proof))

def encodeCertificate (decision : DecisionCertificate) : Result Bytes := do
  let ballot ← encodeBallot decision.ballot
  let recorderIds ← encodeAll (fun recorderId => putBytes (utf8 recorderId)) decision.recorderIds
  if decision.recorderIds.length ≤ 65535 then
    .ok (toBeBytes 8 decision.slot ++ toBeBytes 8 decision.epoch ++ toBeBytes 8 decision.configId ++
      decision.configDigest.bytes ++ ballot ++ encodeValue decision.value ++
      toBeBytes 2 decision.recorderIds.length ++ recorderIds)
  else .error (.decode "too many certificate recorders")

def encodeSeal (mark : ConfigurationSeal) : Bytes :=
  toBeBytes 8 mark.stopSlot ++ mark.commandHash.bytes ++ mark.prefixHash.bytes

variable [Sha256]

def withDigest (body : Bytes) : Bytes := body ++ (LogHash.digest [body]).bytes

def encodeStoredCommand (command : StoredCommand) : Bytes :=
  withDigest (utf8 "QCMD" ++ toBeBytes 2 1 ++ [command.entryType.asU8] ++
    putBlob command.payload)

def encodeRecorderState (state : RecorderSlotState) : Result Bytes := do
  let clusterId ← putBytes (utf8 state.clusterId)
  let highestPromised ← encodeFlag encodeBallot state.highestPromised
  let accepted ← encodeFlag (fun accepted : AcceptedSummary => do
    .ok ((← encodeBallot accepted.ballot) ++ encodeValue accepted.value)) state.accepted
  let decided ← encodeFlag encodeCertificate state.decided
  let firstCurrent ← encodeOptionalProposal state.isr.firstCurrent
  let aggregateCurrent ← encodeOptionalProposal state.isr.aggregateCurrent
  let aggregatePrior ← encodeOptionalProposal state.isr.aggregatePrior
  let decidedProof ← encodeOptionalProof state.decidedProof
  .ok (withDigest (utf8 "QREC" ++ toBeBytes 2 4 ++ toBeBytes 8 state.slot ++
    toBeBytes 8 state.epoch ++ toBeBytes 8 state.configId ++ state.configDigest.bytes ++
    clusterId ++ highestPromised ++ accepted ++ decided ++ toBeBytes 8 state.isr.step ++
    firstCurrent ++ aggregateCurrent ++ aggregatePrior ++ decidedProof))

def encodeConfigurationState (state : ConfigurationState) : Result Bytes := do
  let slot ← encodeFlag (fun slot => .ok (toBeBytes 8 slot)) state.maxAcceptedOrDecidedSlot
  let members ← match state.membership with
    | some membership => do
      .ok (toBeBytes 1 membership.members.length ++
        (← encodeAll (fun member => putBytes (utf8 member)) membership.members))
    | none => .ok [0]
  let predecessor ← encodeFlag (fun mark => .ok (encodeSeal mark)) state.predecessor
  let mark ← encodeFlag (fun mark => .ok (encodeSeal mark)) state.sealed
  .ok (withDigest (utf8 "QCON" ++ toBeBytes 2 3 ++ toBeBytes 8 state.configId ++
    state.configDigest.bytes ++ [if state.activated then 1 else 0] ++ slot ++ members ++
    predecessor ++ mark))

omit [Sha256] in
def encodeHeadProvenance : RecordedHeadProvenance → Bytes
  | .empty => [0]
  | .slotBacked slot => 1 :: toBeBytes 8 slot
  | .checkpointBacked stopSlot prefixHash recoveredTip recoveredHash =>
    2 :: (toBeBytes 8 stopSlot ++ prefixHash.bytes ++ toBeBytes 8 recoveredTip ++
      recoveredHash.bytes)

end Encoders

structure RecordedHead where
  clusterId : ClusterId
  epoch : Nat
  configId : Nat
  configDigest : LogHash
  provenance : RecordedHeadProvenance
  checkpoint : WalCheckpoint
  deriving DecidableEq

/-- `encode_recorded_head`, up to its bytes: only the name of the cluster can be too long. -/
def encodeRecordedHead (clusterId : ClusterId) (epoch : Nat) (configuration : ConfigurationState)
    (provenance : RecordedHeadProvenance) (checkpoint : WalCheckpoint) : Result RecordedHead := do
  let _ ← putBytes (utf8 clusterId)
  .ok ⟨clusterId, epoch, configuration.configId, configuration.configDigest, provenance,
    checkpoint⟩

structure TransitionIntent where
  slot : Nat
  state : RecorderSlotState
  configuration : ConfigurationState
  deriving DecidableEq

structure ConfigurationHeadIntent where
  configuration : ConfigurationState
  head : RecordedHead
  deriving DecidableEq

structure WalFrame where
  generation : Nat
  sequence : Nat
  prevDigest : LogHash
  digest : LogHash
  slot : Nat
  state : RecorderSlotState
  configuration : ConfigurationState
  head : RecordedHeadProvenance
  command : Option (LogHash × StoredCommand)
  size : Nat
  deriving DecidableEq

section Frames

variable [Sha256]

/-- `encode_transition_intent`, up to its bytes: both parts carry a length of two bytes. -/
def encodeTransitionIntent (state : RecorderSlotState) (configuration : ConfigurationState) :
    Result TransitionIntent := do
  let _ ← putBytes (← encodeRecorderState state)
  let _ ← putBytes (← encodeConfigurationState configuration)
  .ok ⟨state.slot, state, configuration⟩

def encodeWalFrame (generation sequence : Nat) (prevDigest : LogHash) (state : RecorderSlotState)
    (configuration : ConfigurationState) (head : RecordedHeadProvenance)
    (command : Option (LogHash × StoredCommand)) : Result WalFrame := do
  let slotBytes ← encodeRecorderState state
  let configurationBytes ← encodeConfigurationState configuration
  let commandBytes := match command with
    | some (hash, command) => 1 :: (hash.bytes ++ putBlob (encodeStoredCommand command))
    | none => [0]
  let payload := toBeBytes 8 generation ++ toBeBytes 8 sequence ++ prevDigest.bytes ++
    toBeBytes 8 state.slot ++ putBlob slotBytes ++ putBlob configurationBytes ++
    encodeHeadProvenance head ++ commandBytes
  let size := 4 + 2 + 8 + payload.length + 32
  let frame := utf8 "QWAL" ++ toBeBytes 2 1 ++ toBeBytes 8 size ++ payload
  .ok ⟨generation, sequence, prevDigest, LogHash.digest [frame], state.slot, state, configuration,
    head, command, size⟩

def sizeOf (encoded : Result Bytes) : Nat :=
  match encoded with
  | .ok bytes => bytes.length
  | .error _ => 0

theorem encodeWalFrame_eq_ok {generation sequence : Nat} {prevDigest : LogHash}
    {state : RecorderSlotState} {configuration : ConfigurationState} {head : RecordedHeadProvenance}
    {command : Option (LogHash × StoredCommand)} {frame : WalFrame}
    (h : encodeWalFrame generation sequence prevDigest state configuration head command =
      .ok frame) :
    ∃ digest size, 0 < size ∧ frame = ⟨generation, sequence, prevDigest, digest, state.slot, state,
      configuration, head, command, size⟩ := by
  obtain ⟨slotBytes, -, h⟩ := bind_ok_iff.mp h
  obtain ⟨configurationBytes, -, h⟩ := bind_ok_iff.mp h
  refine ⟨_, _, ?_, (Except.ok.inj h).symm⟩
  omega

theorem encodeTransitionIntent_eq_ok {state : RecorderSlotState}
    {configuration : ConfigurationState} {intent : TransitionIntent}
    (h : encodeTransitionIntent state configuration = .ok intent) :
    intent = ⟨state.slot, state, configuration⟩ := by
  obtain ⟨slotBytes, -, h⟩ := bind_ok_iff.mp h
  obtain ⟨_, -, h⟩ := bind_ok_iff.mp h
  obtain ⟨configurationBytes, -, h⟩ := bind_ok_iff.mp h
  obtain ⟨_, -, h⟩ := bind_ok_iff.mp h
  exact (Except.ok.inj h).symm

omit [Sha256] in
theorem encodeRecordedHead_eq_ok {clusterId : ClusterId} {epoch : Nat}
    {configuration : ConfigurationState} {provenance : RecordedHeadProvenance}
    {checkpoint : WalCheckpoint} {head : RecordedHead}
    (h : encodeRecordedHead clusterId epoch configuration provenance checkpoint = .ok head) :
    head = ⟨clusterId, epoch, configuration.configId, configuration.configDigest, provenance,
      checkpoint⟩ := by
  obtain ⟨_, -, h⟩ := bind_ok_iff.mp h
  exact (Except.ok.inj h).symm

end Frames

end Rhiza.Quepaxa
