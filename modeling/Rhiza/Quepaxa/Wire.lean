import Rhiza.Library.Decoder
import Rhiza.Quepaxa.Codec

/-! # The bytes of the recorder's files

The decoders of the recorder, and the encoders of those files that the store keeps
by what they say. The position of a cursor is given by the bytes that follow it.
Lengths fit their types, so that no cursor overflows.
-/

namespace Rhiza.Quepaxa.Wire

open Core Library

abbrev Reading (α : Type) := Decoder UInt8 Error α

def readU8 : Reading UInt8
  | [] => .error (.decode "short recorder u8")
  | byte :: rest => .ok (byte, rest)

def readExactly (count : Nat) (message : String) : Reading Bytes := fun input =>
  match takeExactly count input with
  | some result => .ok result
  | none => .error (.decode message)

def readUint (width : Nat) (message : String) : Reading Nat := do
  let bytes ← readExactly width message
  pure (fromBeBytes bytes)

def readU16 : Reading Nat := readUint 2 "short recorder u16"
def readU64 : Reading Nat := readUint 8 "short recorder u64"
def readU128 : Reading Nat := readUint 16 "short recorder u128"

def readHash : Reading LogHash := fun input =>
  match h : takeExactly 32 input with
  | some (bytes, rest) => .ok (⟨bytes, (takeExactly_eq_some h).2⟩, rest)
  | none => .error (.decode "short recorder hash")

def readBytes : Reading Bytes := do
  let length ← readU16
  readExactly length "short recorder bytes"

def readBlob : Reading Bytes := do
  let length ← readU64
  readExactly length "short recorder blob"

def fromUtf8 (bytes : Bytes) : Result String :=
  (String.fromUTF8? ⟨bytes.toArray⟩).elim (.error (.decode "invalid utf-8 sequence")) .ok

def readString : Reading String := do
  let bytes ← readBytes
  Decoder.check (fromUtf8 bytes)

def decodeFlag {α : Type} (message : String) (read : Reading α) : Reading (Option α) := do
  match ← readU8 with
  | 0 => pure none
  | 1 => do
    let a ← read
    pure (some a)
  | _ => Decoder.fail (.decode message)

def decodeValue : Reading AcceptedValue := do
  let commandHash ← readHash
  let prevHash ← readHash
  let entryHash ← readHash
  pure ⟨commandHash, prevHash, entryHash⟩

def decodeBallot : Reading Ballot := do
  let round ← readU64
  let priority ← readU128
  let proposerId ← readString
  pure ⟨round, priority, proposerId⟩

def decodeOptionalBallot : Reading (Option Ballot) := decodeFlag "invalid ballot flag" decodeBallot

def readPriority : Reading ProposalPriority := fun input =>
  match h : takeExactly 32 input with
  | some (bytes, rest) => .ok (⟨bytes, (takeExactly_eq_some h).2⟩, rest)
  | none => .error (.decode "truncated priority")

def decodeProposal : Reading Proposal := do
  let priority ← readPriority
  let proposerId ← readString
  let proposalId ← readU64
  let value ← decodeFlag "invalid proposal value flag" decodeValue
  pure ⟨priority, proposerId, proposalId, value⟩

def decodeOptionalProposal : Reading (Option Proposal) :=
  decodeFlag "invalid proposal flag" decodeProposal

def decodeSummary : Reading RecorderSummary := do
  let recorderId ← readString
  let slot ← readU64
  let step ← readU64
  let firstCurrent ← decodeOptionalProposal
  let aggregatePrior ← decodeOptionalProposal
  pure ⟨recorderId, slot, step, firstCurrent, aggregatePrior⟩

def proofOfTag (tag : UInt8) (clusterId : ClusterId) (slot epoch configId : Nat)
    (configDigest : LogHash) (step : Nat) (proposal : Proposal)
    (summaries : List RecorderSummary) : Result DecisionProof :=
  if tag = 1 ∧ step = 4 then
    .ok (.fastPath clusterId slot epoch configId configDigest proposal summaries)
  else if tag = 2 then
    .ok (.phase2 clusterId slot epoch configId configDigest step proposal summaries)
  else .error (.decode "invalid decision proof tag")

/-- The part of `decode_optional_proof` after the tag. -/
def decodeProof (tag : UInt8) : Reading DecisionProof := do
  let clusterId ← readString
  let slot ← readU64
  let epoch ← readU64
  let configId ← readU64
  let configDigest ← readHash
  let step ← readU64
  let found ← decodeOptionalProposal
  let proposal ← Decoder.check (okOr (.decode "nil decision proposal") found)
  let count ← readU16
  let summaries ← Decoder.many decodeSummary count
  Decoder.check (proofOfTag tag clusterId slot epoch configId configDigest step proposal summaries)

def decodeOptionalProof : Reading (Option DecisionProof) := do
  let tag ← readU8
  if tag = 0 then pure none
  else do
    let proof ← decodeProof tag
    pure (some proof)

def decodeCertificate : Reading DecisionCertificate := do
  let slot ← readU64
  let epoch ← readU64
  let configId ← readU64
  let configDigest ← readHash
  let ballot ← decodeBallot
  let value ← decodeValue
  let count ← readU16
  let recorderIds ← Decoder.many readString count
  pure ⟨slot, epoch, configId, configDigest, ballot, value, recorderIds⟩

def decodeAccepted : Reading AcceptedSummary := do
  let ballot ← decodeBallot
  let value ← decodeValue
  pure ⟨ballot, value⟩

def readVersion (expected : Nat) (error : Nat → Error) : Reading Unit := do
  let version ← readU16
  Decoder.check (Library.ensure (version = expected) (error version))

def readRecorderState : Reading RecorderSlotState := do
  readVersion 4 (.migrationRequired "QREC")
  let slot ← readU64
  let epoch ← readU64
  let configId ← readU64
  let configDigest ← readHash
  let clusterId ← readString
  let highestPromised ← decodeOptionalBallot
  let accepted ← decodeFlag "invalid accepted flag" decodeAccepted
  let decided ← decodeFlag "invalid decided flag" decodeCertificate
  let step ← readU64
  let firstCurrent ← decodeOptionalProposal
  let aggregateCurrent ← decodeOptionalProposal
  let aggregatePrior ← decodeOptionalProposal
  let decidedProof ← decodeOptionalProof
  pure ⟨slot, clusterId, epoch, configId, configDigest, highestPromised, accepted, decided,
    ⟨step, firstCurrent, aggregateCurrent, aggregatePrior⟩, decidedProof⟩

instance : Ord Ballot :=
  ⟨compareLex (compareOn (·.round)) (compareLex (compareOn (·.priority))
    (compareOn (·.proposerId)))⟩

/-- `highest_promised < Some(ballot)`. -/
def promisedBelow (highestPromised : Option Ballot) (ballot : Ballot) : Bool :=
  match highestPromised with
  | none => true
  | some promised => compare promised ballot = .lt

/-- The checks of `decode_recorder_state` across the fields. -/
def checkAccepted (state : RecorderSlotState) : Result Unit :=
  match state.accepted with
  | none => .ok ()
  | some accepted => Library.ensure (promisedBelow state.highestPromised accepted.ballot = false)
    (.decode "accepted ballot exceeds promise")

def checkDecided (state : RecorderSlotState) : Result Unit :=
  match state.decided with
  | none => .ok ()
  | some decided => Library.ensure (decided.slot = state.slot ∧ decided.epoch = state.epoch ∧
      decided.configId = state.configId ∧ decided.configDigest = state.configDigest)
    (.decode "invalid decision certificate")

def checkDecidedProof (state : RecorderSlotState) : Result Unit :=
  match state.decidedProof with
  | none => .ok ()
  | some proof => Library.ensure ((proof.slot = state.slot ∧ proof.epoch = state.epoch ∧
      proof.configId = state.configId ∧ proof.configDigest = state.configDigest) ∧
      proof.clusterId = state.clusterId ∧
      (state.decided.isSome ∧ state.decided.map (·.value) = proof.proposal.value))
    (.decode "invalid persisted decision proof")

variable [Sha256]

def checkedBody (message : String) (bytes : Bytes) : Result Bytes := do
  let body := bytes.take (bytes.length - 32)
  Library.ensure ((LogHash.digest [body]).bytes = bytes.drop (bytes.length - 32)) (.decode message)
  pure body

def decodeRecorderState (bytes : Bytes) : Result RecorderSlotState := do
  Library.ensure (4 + 2 + 32 ≤ bytes.length ∧ bytes.take 4 = utf8 "QREC")
    (.decode "invalid recorder magic")
  let body ← checkedBody "recorder digest mismatch" bytes
  let state ← readRecorderState.whole (.decode "trailing recorder bytes") (body.drop 4)
  checkAccepted state
  checkDecided state
  checkDecidedProof state
  pure state

omit [Sha256] in
def decodeSeal : Reading ConfigurationSeal := do
  let stopSlot ← readU64
  let commandHash ← readHash
  let prefixHash ← readHash
  pure ⟨stopSlot, commandHash, prefixHash⟩

omit [Sha256] in
def decodeOptionalSeal : Reading (Option ConfigurationSeal) :=
  decodeFlag "invalid configuration seal flag" decodeSeal

omit [Sha256] in
def readActivated : Reading Bool := do
  match ← readU8 with
  | 0 => pure false
  | 1 => pure true
  | _ => Decoder.fail (.decode "invalid activation flag")

def readMembership (configDigest : LogHash) : Reading (Option Membership) := do
  let count ← readU8
  if count = 0 then pure none
  else do
    let members ← Decoder.many readString count.toNat
    let membership ← Decoder.check (Membership.fromMembers members)
    let _ ← Decoder.check (Library.ensure (membership.digest = configDigest)
      (.decode "membership digest mismatch"))
    pure (some membership)

def readConfigurationState : Reading ConfigurationState := do
  readVersion 3 (.migrationRequired "QCON")
  let configId ← readU64
  let configDigest ← readHash
  let activated ← readActivated
  let slot ← decodeFlag "invalid accepted-slot flag" readU64
  let membership ← readMembership configDigest
  let predecessor ← decodeOptionalSeal
  let mark ← decodeOptionalSeal
  pure ⟨configId, configDigest, membership, predecessor, mark, slot, activated⟩

def decodeConfigurationState (bytes : Bytes) : Result ConfigurationState := do
  Library.ensure (4 + 2 + 32 ≤ bytes.length ∧ bytes.take 4 = utf8 "QCON")
    (.decode "invalid configuration state")
  let body ← checkedBody "configuration digest mismatch" bytes
  readConfigurationState.whole (.decode "trailing configuration bytes") (body.drop 4)

omit [Sha256] in
def readStoredCommand : Reading StoredCommand := do
  readVersion 1 fun _ => .decode "unsupported command version"
  let kind ← readU8
  let entryType ← Decoder.check (okOr (.decode "invalid command entry type") (EntryType.fromU8 kind))
  let length ← readU64
  let payload ← readExactly length "short command payload"
  pure ⟨entryType, payload⟩

def decodeStoredCommand (bytes : Bytes) : Result StoredCommand := do
  Library.ensure (4 + 2 + 1 + 8 + 32 ≤ bytes.length ∧ bytes.take 4 = utf8 "QCMD")
    (.decode "invalid command magic")
  let body ← checkedBody "command digest mismatch" bytes
  readStoredCommand.whole (.decode "trailing command bytes") (body.drop 4)

structure DurableSlotSnapshot where
  slot : Nat
  bytes : Bytes
  deriving DecidableEq

omit [Sha256] in
def encodeSnapshot (snapshot : DurableSlotSnapshot) : Result Bytes := do
  .ok (toBeBytes 8 snapshot.slot ++ (← putBytes snapshot.bytes))

def encodeRecordedHead (clusterId : ClusterId) (epoch : Nat) (configuration : ConfigurationState)
    (provenance : RecordedHeadProvenance) (recentSlots : List DurableSlotSnapshot)
    (checkpoint : WalCheckpoint) : Result Bytes := do
  Library.ensure (recentSlots.length ≤ 2)
    (.io "recorder manifest can retain at most two slot snapshots")
  let name ← putBytes (utf8 clusterId)
  let snapshots ← encodeAll encodeSnapshot recentSlots
  .ok (withDigest (utf8 "QRHD" ++ toBeBytes 2 3 ++ name ++ toBeBytes 8 epoch ++
    toBeBytes 8 configuration.configId ++ configuration.configDigest.bytes ++
    encodeHeadProvenance provenance ++ toBeBytes 8 checkpoint.generation ++
    toBeBytes 8 checkpoint.throughSequence ++ toBeBytes 2 recentSlots.length ++ snapshots))

omit [Sha256] in
/-- `decode_head_provenance`, and the same in `decode_recorded_head`. -/
def decodeHeadProvenance (error : UInt8 → Error) : Reading RecordedHeadProvenance := do
  match ← readU8 with
  | 0 => pure .empty
  | 1 => do
    let slot ← readU64
    pure (.slotBacked slot)
  | 2 => do
    let stopSlot ← readU64
    let prefixHash ← readHash
    let recoveredTip ← readU64
    let recoveredHash ← readHash
    pure (.checkpointBacked stopSlot prefixHash recoveredTip recoveredHash)
  | tag => Decoder.fail (error tag)

omit [Sha256] in
def readSnapshots : Nat → List DurableSlotSnapshot → Reading (List DurableSlotSnapshot)
  | 0, recentSlots => pure recentSlots
  | count + 1, recentSlots => do
    let slot ← readU64
    let _ ← Decoder.check (Library.ensure (slot ∉ recentSlots.map (·.slot))
      (.decode "recorder manifest contains duplicate slot snapshots"))
    let bytes ← readBytes
    readSnapshots count (recentSlots ++ [⟨slot, bytes⟩])

omit [Sha256] in
def readRecordedHead (expectedClusterId : ClusterId) (expectedEpoch : Nat)
    (configuration : ConfigurationState) :
    Reading (RecordedHeadProvenance × List DurableSlotSnapshot × WalCheckpoint) := do
  let _ ← readU16
  let clusterId ← readString
  let epoch ← readU64
  let configId ← readU64
  let configDigest ← readHash
  let _ ← Decoder.check (Library.ensure (clusterId = expectedClusterId ∧ epoch = expectedEpoch ∧
    configId = configuration.configId ∧ configDigest = configuration.configDigest)
    (.decode "recorder durable head identity mismatch"))
  let provenance ← decodeHeadProvenance fun tag =>
    .decode (s!"invalid recorder durable head provenance {tag.toNat}")
  let generation ← readU64
  let throughSequence ← readU64
  let _ ← Decoder.check (Library.ensure (generation ≠ 0)
    (.decode "recorder durable head has zero WAL generation"))
  let count ← readU16
  let _ ← Decoder.check (Library.ensure (count ≤ 2)
    (.decode "recorder manifest contains too many slot snapshots"))
  let recentSlots ← readSnapshots count []
  pure (provenance, recentSlots, ⟨generation, throughSequence⟩)

def decodeRecordedHead (bytes : Bytes) (expectedClusterId : ClusterId) (expectedEpoch : Nat)
    (configuration : ConfigurationState) :
    Result (RecordedHeadProvenance × List DurableSlotSnapshot × WalCheckpoint) := do
  Library.ensure (bytes.take 4 = utf8 "QRHD") (.decode "invalid recorder durable head magic")
  let _ ← readVersion 3 (fun _ => .migrationRequired "recorder durable head" 3) (bytes.drop 4)
  Library.ensure (32 ≤ bytes.length) (.decode "truncated recorder durable head")
  let body ← checkedBody "recorder durable head digest mismatch" bytes
  (readRecordedHead expectedClusterId expectedEpoch configuration).whole
    (.decode "trailing recorder durable head bytes") (body.drop 4)

def encodeTransitionIntent (slot : Nat) (slotBytes configurationBytes : Bytes) : Result Bytes := do
  let state ← putBytes slotBytes
  let configuration ← putBytes configurationBytes
  .ok (withDigest (utf8 "QINT" ++ toBeBytes 2 1 ++ toBeBytes 8 slot ++ state ++ configuration))

omit [Sha256] in
def readTransitionIntent : Reading (Nat × Bytes × Bytes) := do
  readVersion 1 fun _ => .decode "unsupported transition intent version"
  let slot ← readU64
  let slotBytes ← readBytes
  let configurationBytes ← readBytes
  pure (slot, slotBytes, configurationBytes)

def decodeTransitionIntent (bytes : Bytes) : Result (Nat × Bytes × Bytes) := do
  Library.ensure (4 + 2 + 32 ≤ bytes.length ∧ bytes.take 4 = utf8 "QINT")
    (.decode "invalid transition intent")
  let body ← checkedBody "transition intent digest mismatch" bytes
  readTransitionIntent.whole (.decode "trailing transition intent bytes") (body.drop 4)

omit [Sha256] in
def encodeConfigurationHeadIntent (configuration head : Bytes) : Bytes :=
  utf8 "QCHI" ++ toBeBytes 2 1 ++ toBeBytes 8 configuration.length ++ configuration ++
    toBeBytes 8 head.length ++ head

omit [Sha256] in
def readConfigurationHeadIntent : Reading (Bytes × Bytes) := do
  readVersion 1 fun _ => .decode "unsupported configuration-head intent version"
  let configurationLength ← readU64
  let configuration ← readExactly configurationLength "truncated configuration-head intent"
  let headLength ← readU64
  let head ← readExactly headLength "truncated configuration-head intent"
  pure (configuration, head)

omit [Sha256] in
def decodeConfigurationHeadIntent (bytes : Bytes) : Result (Bytes × Bytes) := do
  Library.ensure (bytes.take 4 = utf8 "QCHI") (.decode "invalid configuration-head intent magic")
  readConfigurationHeadIntent.whole (.decode "trailing configuration-head intent bytes")
    (bytes.drop 4)

structure Frame where
  generation : Nat
  sequence : Nat
  prevDigest : LogHash
  digest : LogHash
  slot : Nat
  slotBytes : Bytes
  configurationBytes : Bytes
  head : RecordedHeadProvenance
  command : Option (LogHash × StoredCommand)
  deriving DecidableEq

def encodeFrameCommand : Option (LogHash × StoredCommand) → Bytes
  | some (hash, command) => 1 :: (hash.bytes ++ putBlob (encodeStoredCommand command))
  | none => [0]

def encodeWalFrame (generation sequence : Nat) (prevDigest : LogHash) (state : RecorderSlotState)
    (configuration : ConfigurationState) (head : RecordedHeadProvenance)
    (command : Option (LogHash × StoredCommand)) : Result (Bytes × LogHash × Bytes) := do
  let slotBytes ← encodeRecorderState state
  let configurationBytes ← encodeConfigurationState configuration
  let payload := toBeBytes 8 generation ++ toBeBytes 8 sequence ++ prevDigest.bytes ++
    toBeBytes 8 state.slot ++ putBlob slotBytes ++ putBlob configurationBytes ++
    encodeHeadProvenance head ++ encodeFrameCommand command
  let totalLen := 4 + 2 + 8 + payload.length + 32
  let frame := utf8 "QWAL" ++ toBeBytes 2 1 ++ toBeBytes 8 totalLen ++ payload
  .ok (withDigest frame, LogHash.digest [frame], slotBytes)

def readFrameCommand : Reading (Option (LogHash × StoredCommand)) :=
  decodeFlag "recorder WAL command flag is invalid" do
    let hash ← readHash
    let bytes ← readBlob
    let command ← Decoder.check (decodeStoredCommand bytes)
    pure (hash, command)

def readFrame (digest : LogHash) : Reading Frame := do
  let generation ← readU64
  let sequence ← readU64
  let prevDigest ← readHash
  let slot ← readU64
  let slotBytes ← readBlob
  let configurationBytes ← readBlob
  let head ← decodeHeadProvenance fun _ => .decode "recorder WAL head provenance is invalid"
  let command ← readFrameCommand
  pure ⟨generation, sequence, prevDigest, digest, slot, slotBytes, configurationBytes, head,
    command⟩

/-- `decode_wal_frame`: nothing where the log ends within a frame. -/
def decodeWalFrame (bytes : Bytes) (offset : Nat) : Result (Option (Frame × Nat)) := do
  Library.ensure (offset ≤ bytes.length) (.decode "recorder WAL offset overflow")
  let remaining := bytes.drop offset
  if remaining.length < 4 + 2 + 8 then .ok none
  else do
    Library.ensure (remaining.take 4 = utf8 "QWAL") (.decode "recorder WAL frame magic mismatch")
    let (_, rest) ← readVersion 1 (fun _ => .decode "recorder WAL frame version mismatch")
      (remaining.drop 4)
    let (frameLen, rest) ← readU64 rest
    Library.ensure (4 + 2 + 8 + 32 ≤ frameLen) (.decode "recorder WAL frame length is invalid")
    if remaining.length < frameLen then .ok none
    else do
      let (digest, _) ← readHash (remaining.drop (frameLen - 32))
      Library.ensure (digest = LogHash.digest [remaining.take (frameLen - 32)])
        (.decode "recorder WAL frame checksum mismatch")
      let (frame, rest) ← readFrame digest rest
      Library.ensure (remaining.length - rest.length = frameLen - 32)
        (.decode "recorder WAL frame has trailing bytes")
      .ok (some (frame, offset + frameLen))

end Rhiza.Quepaxa.Wire
