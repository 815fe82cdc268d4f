import Rhiza.Core.Configuration
import Rhiza.Library.Fallible

/-! # Checkpoint manifests of `rhiza-archive`

A manifest lists immutable objects: a snapshot of the state at some index, or
nothing, and the log segments from there to the tip. It is replaced as a whole.
The keys of objects carry their meaning here; as texts they are distinct as well.
-/

namespace Rhiza.Archive

open Core

structure CheckpointIdentity where
  clusterId : ClusterId
  epoch : Nat
  configId : Nat
  recoveryGeneration : Nat
  deriving DecidableEq

structure CheckpointTip where
  index : Nat
  hash : LogHash
  deriving DecidableEq

inductive ObjectKey
  | segment (startIndex endIndex : Nat)
  | snapshot (index : Nat) (hash digest : LogHash) (executorFingerprint : Option LogHash)
  deriving DecidableEq

structure CheckpointSegmentRecord where
  formatVersion : Nat
  startIndex : Nat
  endIndex : Nat
  firstPrevHash : LogHash
  lastHash : LogHash
  objectKey : ObjectKey
  sha256 : LogHash
  sizeBytes : Nat
  deriving DecidableEq

structure RecoveryAnchor where
  formatVersion : Nat
  clusterId : ClusterId
  epoch : Nat
  configId : Nat
  configurationState : ConfigurationState
  recoveryGeneration : Nat
  compacted : LogAnchor
  snapshotDigest : LogHash
  snapshotSizeBytes : Nat
  executorFingerprint : Option LogHash
  deriving DecidableEq

structure CheckpointSnapshotBase where
  anchor : RecoveryAnchor
  objectKey : ObjectKey
  digest : LogHash
  sizeBytes : Nat
  executorFingerprint : Option LogHash
  deriving DecidableEq

inductive CheckpointBase
  | genesis
  | snapshot (snapshot : CheckpointSnapshotBase)
  deriving DecidableEq

def CheckpointBase.tip : CheckpointBase → CheckpointTip
  | genesis => ⟨0, .zero⟩
  | snapshot base => ⟨base.anchor.compacted.index, base.anchor.compacted.hash⟩

structure CheckpointSuccessorTransition where
  predecessor : CheckpointIdentity
  successor : SuccessorDescriptor
  stopEntry : LogEntry
  deriving DecidableEq

structure CheckpointManifest where
  formatVersion : Nat
  identity : CheckpointIdentity
  successorTransition : Option CheckpointSuccessorTransition
  base : CheckpointBase
  segments : List CheckpointSegmentRecord
  tip : CheckpointTip
  deriving DecidableEq

def checkpointFormatVersion : Nat := 2
def checkpointV1FormatVersion : Nat := 1
def checkpointSegmentFormatVersion : Nat := 1
def maxCheckpointCasAttempts : Nat := 16

def CheckpointManifest.new (identity : CheckpointIdentity) : CheckpointManifest :=
  ⟨checkpointFormatVersion, identity, none, .genesis, [], ⟨0, .zero⟩⟩

inductive Error
  | invalidCheckpoint (message : String)
  | unsupportedFormatVersion (object : String) (version : Nat)
  | identityMismatch (field : String)
  | publicationConflict (index : Nat) (expected actual : LogHash)
  | checkpointBaseConflict (index : Nat)
  | checkpointBaseRegression (current proposed : Nat)
  | checksumMismatch (key : ObjectKey)
  | sizeMismatch (key : ObjectKey)
  | logDecode
  | notFound (key : ObjectKey)
  | alreadyExists (key : ObjectKey)
  | compareAndSwapRetriesExhausted (attempts : Nat)
  deriving DecidableEq

abbrev Result := Except Error

def check (condition : Bool) (error : Error) : Result Unit :=
  if condition then .ok () else .error error

@[simp] theorem check_eq_ok {condition : Bool} {error : Error} :
    check condition error = .ok () ↔ condition := by
  cases condition <;> simp [check]

def checkpointSnapshotKey (anchor : RecoveryAnchor) : ObjectKey :=
  .snapshot anchor.compacted.index anchor.compacted.hash anchor.snapshotDigest
    anchor.executorFingerprint

def validateCheckpointIdentity (expected actual : CheckpointIdentity) : Result Unit := do
  check (expected.clusterId = actual.clusterId) (.identityMismatch "cluster_id")
  check (expected.epoch = actual.epoch) (.identityMismatch "epoch")
  check (expected.configId = actual.configId) (.identityMismatch "config_id")
  check (expected.recoveryGeneration = actual.recoveryGeneration)
    (.identityMismatch "recovery_generation")

def validateEntryIdentity (identity : CheckpointIdentity) (entry : LogEntry) : Result Unit := do
  check (identity.clusterId = entry.clusterId) (.identityMismatch "cluster_id")
  check (identity.epoch = entry.epoch) (.identityMismatch "epoch")
  check (identity.configId = entry.configId) (.identityMismatch "config_id")

def validateRecoveryAnchor (identity : CheckpointIdentity) (anchor : RecoveryAnchor) :
    Result Unit := do
  check (anchor.formatVersion = 1 ∨ anchor.formatVersion = 2)
    (.unsupportedFormatVersion "recovery anchor" anchor.formatVersion)
  check (anchor.clusterId = identity.clusterId) (.identityMismatch "cluster_id")
  check (anchor.epoch = identity.epoch) (.identityMismatch "epoch")
  check (anchor.configId = identity.configId) (.identityMismatch "config_id")
  check (anchor.recoveryGeneration = identity.recoveryGeneration)
    (.identityMismatch "recovery_generation")
  check (anchor.configurationState.configId = anchor.configId ∧
      anchor.configurationState.stop?.all (· = anchor.compacted))
    (.invalidCheckpoint "recovery anchor configuration state is invalid")

def validSnapshotMetadata (snapshot : CheckpointSnapshotBase) : Bool :=
  snapshot.digest = snapshot.anchor.snapshotDigest ∧
    snapshot.executorFingerprint = snapshot.anchor.executorFingerprint ∧
    snapshot.sizeBytes ≠ 0 ∧ snapshot.sizeBytes = snapshot.anchor.snapshotSizeBytes

def validateSnapshotKey (snapshot : CheckpointSnapshotBase) : Result Unit :=
  check (snapshot.objectKey = checkpointSnapshotKey snapshot.anchor)
    (.invalidCheckpoint "snapshot object key mismatch")

def validateCheckpointSnapshotBase (identity : CheckpointIdentity)
    (snapshot : CheckpointSnapshotBase) : Result Unit := do
  validateRecoveryAnchor identity snapshot.anchor
  check (validSnapshotMetadata snapshot)
    (.invalidCheckpoint "snapshot base does not match its recovery anchor")
  validateSnapshotKey snapshot

def validateTransitionSnapshotBase (identity : CheckpointIdentity)
    (snapshot : CheckpointSnapshotBase) : Result Unit := do
  check (snapshot.anchor.clusterId = identity.clusterId ∧ snapshot.anchor.epoch = identity.epoch ∧
      snapshot.anchor.recoveryGeneration = identity.recoveryGeneration)
    (.invalidCheckpoint "successor transition snapshot identity is invalid")
  check (validSnapshotMetadata snapshot)
    (.invalidCheckpoint "successor transition snapshot metadata is invalid")
  validateSnapshotKey snapshot

section Validation

variable [Sha256]

def validateTransitionBase (transition : CheckpointSuccessorTransition) :
    CheckpointBase → Result Unit
  | .genesis =>
    .error (.invalidCheckpoint "successor transition requires a stopped snapshot base")
  | .snapshot snapshot =>
    if snapshot.anchor.configurationState.configId ≠ transition.predecessor.configId then .ok ()
    else
      match (ConfigurationState.active transition.predecessor.configId
          transition.successor.predecessorConfigDigest).validateEntry transition.stopEntry with
      | .error _ => .error (.invalidCheckpoint "successor transition Stop state is invalid")
      | .ok expected =>
        check (snapshot.anchor.configurationState = expected ∧
            snapshot.anchor.compacted = ⟨transition.stopEntry.index, transition.stopEntry.hash⟩)
          (.invalidCheckpoint "successor transition snapshot is not the exact predecessor Stop")

def validateSuccessorTransition (identity : CheckpointIdentity)
    (transition : CheckpointSuccessorTransition) (base : CheckpointBase) : Result Unit := do
  check (transition.predecessor.clusterId = identity.clusterId ∧
      transition.predecessor.epoch = identity.epoch ∧
      checkedSucc transition.predecessor.configId = some identity.configId ∧
      transition.successor.clusterId = identity.clusterId ∧
      transition.successor.predecessorConfigId = transition.predecessor.configId ∧
      transition.successor.configId = identity.configId)
    (.invalidCheckpoint "successor transition identity is invalid")
  validateEntryIdentity transition.predecessor transition.stopEntry
  let command : StoredCommand := ⟨transition.stopEntry.entryType, transition.stopEntry.payload⟩
  check (transition.stopEntry.recomputeHash = transition.stopEntry.hash ∧
      (ConfigChange.recognize command).bind ConfigChange.successor? = some transition.successor)
    (.invalidCheckpoint "successor transition Stop entry is invalid")
  validateTransitionBase transition base

/-- The loop of `validate_checkpoint_manifest` over the segments. -/
def validateSegments : Nat → LogHash → List CheckpointSegmentRecord → Result Unit
  | _, _, [] => .ok ()
  | expectedStart, expectedHash, record :: records => do
    check (record.formatVersion = checkpointSegmentFormatVersion)
      (.unsupportedFormatVersion "checkpoint segment record" record.formatVersion)
    check (record.startIndex ≤ record.endIndex)
      (.invalidCheckpoint "segment has an inverted range")
    check (record.startIndex ≤ expectedStart) (.invalidCheckpoint "segment gap")
    check (expectedStart ≤ record.startIndex) (.invalidCheckpoint "segment overlap")
    check (record.firstPrevHash = expectedHash)
      (.invalidCheckpoint "segment hash chain mismatch")
    check (record.objectKey = .segment record.startIndex record.endIndex)
      (.invalidCheckpoint "segment object key mismatch")
    check (record.sizeBytes ≠ 0)
      (.invalidCheckpoint "segment has invalid size or checksum metadata")
    match checkedSucc record.endIndex with
    | none => .error (.invalidCheckpoint "segment end index overflow")
    | some next => validateSegments next record.lastHash records

def CheckpointManifest.lastTip (manifest : CheckpointManifest) : CheckpointTip :=
  match manifest.segments.getLast? with
  | some record => ⟨record.endIndex, record.lastHash⟩
  | none => manifest.base.tip

def validateBase (identity : CheckpointIdentity) (manifest : CheckpointManifest) : Result Unit :=
  match manifest.base with
  | .genesis => .ok ()
  | .snapshot snapshot =>
    if manifest.successorTransition.any fun transition =>
        snapshot.anchor.configurationState.configId = transition.predecessor.configId then
      validateTransitionSnapshotBase identity snapshot
    else validateCheckpointSnapshotBase identity snapshot

def validateTransition (identity : CheckpointIdentity) (manifest : CheckpointManifest) :
    Result Unit :=
  match manifest.successorTransition with
  | none => .ok ()
  | some transition => validateSuccessorTransition identity transition manifest.base

def validateCheckpointManifest (identity : CheckpointIdentity) (manifest : CheckpointManifest) :
    Result Unit := do
  check (manifest.formatVersion = checkpointFormatVersion ∨
      manifest.formatVersion = checkpointV1FormatVersion)
    (.unsupportedFormatVersion "checkpoint manifest" manifest.formatVersion)
  check (manifest.formatVersion = checkpointV1FormatVersion →
      manifest.base = .genesis ∧ manifest.successorTransition.isNone)
    (.invalidCheckpoint
      "V1 checkpoint manifest cannot have a snapshot base or successor transition")
  validateCheckpointIdentity identity manifest.identity
  validateTransition identity manifest
  validateBase identity manifest
  match checkedSucc manifest.base.tip.index with
  | none => .error (.invalidCheckpoint "checkpoint base index overflow")
  | some start => do
    validateSegments start manifest.base.tip.hash manifest.segments
    check (manifest.tip = manifest.lastTip)
      (.invalidCheckpoint "manifest tip does not match its immutable segments")

end Validation

end Rhiza.Archive
