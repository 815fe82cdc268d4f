import Rhiza.Core.Configuration
import Rhiza.Log.Segment

/-! # The recovery anchor on disk

The anchor says where the compacted part of a log ends, in which configuration, and
which snapshot stands for it. Four versions of its file are read and two are written.
-/

namespace Rhiza.Log

open Core Library

structure SnapshotIdentity where
  snapshotId : String
  digest : LogHash
  sizeBytes : Nat
  executorFingerprint : Option LogHash
  deriving DecidableEq

structure RecoveryAnchor where
  formatVersion : Nat
  clusterId : ClusterId
  epoch : Nat
  configId : Nat
  configurationState : ConfigurationState
  recoveryGeneration : Nat
  compacted : LogAnchor
  snapshot : SnapshotIdentity
  deriving DecidableEq

def recoveryAnchorFormatVersion : Nat := 2
def recoveryAnchorV1FormatVersion : Nat := 1
def anchorMagic : Bytes := utf8 "QANC"
def anchorVersion : Nat := 4
def anchorV3Version : Nat := 3
def anchorV2Version : Nat := 2
def anchorV1Version : Nat := 1

namespace RecoveryAnchor

def newWithConfiguration (clusterId : ClusterId) (epoch : Nat)
    (configurationState : ConfigurationState) (recoveryGeneration : Nat) (compacted : LogAnchor)
    (snapshot : SnapshotIdentity) : RecoveryAnchor :=
  ⟨recoveryAnchorFormatVersion, clusterId, epoch, configurationState.configId, configurationState,
    recoveryGeneration, compacted, snapshot⟩

def fromV1 (clusterId : ClusterId) (epoch configId recoveryGeneration : Nat) (compacted : LogAnchor)
    (snapshot : SnapshotIdentity) : RecoveryAnchor :=
  ⟨recoveryAnchorV1FormatVersion, clusterId, epoch, configId, .active configId .zero,
    recoveryGeneration, compacted, snapshot⟩

/-- The constructor that `decode_anchor` takes for a version. -/
def ofVersion (version : Nat) (clusterId : ClusterId) (epoch configId : Nat)
    (configurationState : ConfigurationState) (recoveryGeneration : Nat) (compacted : LogAnchor)
    (snapshot : SnapshotIdentity) : RecoveryAnchor :=
  if version = anchorV1Version then
    fromV1 clusterId epoch configId recoveryGeneration compacted snapshot
  else
    newWithConfiguration clusterId epoch configurationState recoveryGeneration compacted snapshot

end RecoveryAnchor

def validateAnchor (anchor : RecoveryAnchor) : Result Unit := do
  ensure (anchor.formatVersion = recoveryAnchorV1FormatVersion ∨
      anchor.formatVersion = recoveryAnchorFormatVersion)
    (.decode "unsupported recovery anchor version")
  ensure (anchor.clusterId ≠ "" ∧ anchor.recoveryGeneration ≠ 0 ∧ anchor.compacted.index ≠ 0 ∧
      anchor.snapshot.snapshotId ≠ "" ∧ anchor.snapshot.sizeBytes ≠ 0)
    (.decode "invalid recovery anchor identity")
  ensure (anchor.configurationState.configId = anchor.configId ∧
      ∀ stop ∈ anchor.configurationState.stop?, stop = anchor.compacted)
    (.decode "invalid recovery anchor configuration state")

def putString (value field : String) : Result Bytes := do
  ensure ((utf8 value).length < 65536) (.decode (field ++ " is too long"))
  pure (toBeBytes 2 (utf8 value).length ++ utf8 value)

section Writing

variable [Sha256]

def encodeSuccessorDescriptor (successor : SuccessorDescriptor) : Result Bytes := do
  let clusterId ← putString successor.clusterId "successor cluster_id"
  let members ← successor.members.mapM (putString · "successor member")
  pure (clusterId ++ (toBeBytes 8 successor.predecessorConfigId ++
    (successor.predecessorConfigDigest.bytes ++ (toBeBytes 8 successor.configId ++
    (successor.digest.bytes ++ (toBeBytes 2 successor.members.length ++ members.flatten))))))

def encodeStopBinding : StopBinding → Result Bytes
  | .unknown => .ok [0]
  | .unbound => .ok [1]
  | .bound successor stopCommandHash => do
    let descriptor ← encodeSuccessorDescriptor successor
    pure ([2] ++ (descriptor ++ stopCommandHash.bytes))

def encodeConfigurationState : ConfigurationState → Result Bytes
  | .active _ digest => .ok ([1] ++ digest.bytes)
  | .stopped _ digest stop binding => do
    let encoded ← encodeStopBinding binding
    pure ([2] ++ (digest.bytes ++ (toBeBytes 8 stop.index ++ (stop.hash.bytes ++ encoded))))

omit [Sha256] in
def encodeFingerprint : Option LogHash → Bytes
  | some fingerprint => [1] ++ fingerprint.bytes
  | none => [0] ++ LogHash.zero.bytes

omit [Sha256] in
/-- The fields of `encode_anchor` that every version has at the same offsets. -/
def anchorPrefix (anchor : RecoveryAnchor) : Bytes :=
  anchorMagic ++ (toBeBytes 2 (if anchor.formatVersion = recoveryAnchorV1FormatVersion then
      anchorV1Version else anchorVersion) ++
    (toBeBytes 2 0 ++ (toBeBytes 8 anchor.epoch ++ (toBeBytes 8 anchor.configId ++
    (toBeBytes 8 anchor.recoveryGeneration ++ (toBeBytes 8 anchor.compacted.index ++
    (anchor.compacted.hash.bytes ++ (anchor.snapshot.digest.bytes ++
    toBeBytes 8 anchor.snapshot.sizeBytes))))))))

def encodeStateOf (anchor : RecoveryAnchor) : Result Bytes :=
  if anchor.formatVersion = recoveryAnchorFormatVersion then
    encodeConfigurationState anchor.configurationState
  else .ok []

def encodeAnchor (anchor : RecoveryAnchor) : Result Bytes := do
  validateAnchor anchor
  let state ← encodeStateOf anchor
  let clusterId ← putString anchor.clusterId "anchor cluster_id"
  let snapshotId ← putString anchor.snapshot.snapshotId "anchor snapshot_id"
  let out := anchorPrefix anchor ++ (encodeFingerprint anchor.snapshot.executorFingerprint ++
    (state ++ (clusterId ++ snapshotId)))
  pure (out ++ toBeBytes 4 (crc32c out).toNat)

end Writing

section Reading

variable (bytes : Bytes) (cursor stop : Nat)

def readIntentName : Result (String × Nat) := do
  let length ← readU16 bytes cursor
  ensure (cursor + 2 + length ≤ stop) (.decode "short truncate intent name")
  let name ← (String.fromUTF8? ⟨(window bytes (cursor + 2) length).toArray⟩).elim
    (.error (.decode "invalid utf-8")) .ok
  pure (name, cursor + 2 + length)

def readString (field : String) : Result (String × Nat) := do
  let (value, next) ← readIntentName bytes cursor stop
  ensure (value ≠ "") (.decode (field ++ " is empty"))
  pure (value, next)

def readState {α : Type} (width : Nat) (read : Bytes → Nat → Result α) : Result (α × Nat) := do
  ensure (cursor + width ≤ stop) (.decode "short recovery anchor configuration state")
  let value ← read bytes cursor
  pure (value, cursor + width)

def readStateU8 : Result (Nat × Nat) :=
  readState bytes cursor stop 1 (readUint 1 "short recovery anchor configuration state")

def readStateU16 : Result (Nat × Nat) := readState bytes cursor stop 2 readU16
def readStateU64 : Result (Nat × Nat) := readState bytes cursor stop 8 readU64
def readStateHash : Result (LogHash × Nat) := readState bytes cursor stop 32 readHash

def readMembers (bytes : Bytes) (stop : Nat) : Nat → Nat → Result (List String × Nat)
  | 0, cursor => .ok ([], cursor)
  | count + 1, cursor => do
    let (member, cursor) ← readString bytes cursor stop "successor member"
    let (members, cursor) ← readMembers bytes stop count cursor
    pure (member :: members, cursor)

variable [Sha256]

def decodeSuccessorDescriptor : Result (SuccessorDescriptor × Nat) := do
  let (clusterId, cursor) ← readString bytes cursor stop "successor cluster_id"
  let (predecessorConfigId, cursor) ← readStateU64 bytes cursor stop
  let (predecessorConfigDigest, cursor) ← readStateHash bytes cursor stop
  let (successorConfigId, cursor) ← readStateU64 bytes cursor stop
  let (encodedDigest, cursor) ← readStateHash bytes cursor stop
  let (memberCount, cursor) ← readStateU16 bytes cursor stop
  let (members, cursor) ← readMembers bytes stop memberCount cursor
  let successor ← (SuccessorDescriptor.new clusterId predecessorConfigId predecessorConfigDigest
    successorConfigId members).elim
      (.error (.decode "invalid recovery anchor successor descriptor")) .ok
  ensure (successor.digest = encodedDigest) (.decode "recovery anchor successor digest mismatch")
  pure (successor, cursor)

def decodeStopBinding : Result (StopBinding × Nat) := do
  let (kind, cursor) ← readStateU8 bytes cursor stop
  match kind with
  | 0 => pure (.unknown, cursor)
  | 1 => pure (.unbound, cursor)
  | 2 => do
    let (successor, cursor) ← decodeSuccessorDescriptor bytes cursor stop
    let (stopCommandHash, cursor) ← readStateHash bytes cursor stop
    pure (.bound successor stopCommandHash, cursor)
  | _ => .error (.decode "invalid recovery anchor stop binding")

def decodeBindingOf (version : Nat) : Result (StopBinding × Nat) :=
  if version = anchorVersion then decodeStopBinding bytes cursor stop else .ok (.unknown, cursor)

def decodeConfigurationState (configId version : Nat) : Result (ConfigurationState × Nat) := do
  let (kind, cursor) ← readStateU8 bytes cursor stop
  let (digest, cursor) ← readStateHash bytes cursor stop
  match kind with
  | 1 => pure (.active configId digest, cursor)
  | 2 => do
    let (stopIndex, cursor) ← readStateU64 bytes cursor stop
    let (stopHash, cursor) ← readStateHash bytes cursor stop
    let (binding, cursor) ← decodeBindingOf bytes cursor stop version
    pure (.stopped configId digest ⟨stopIndex, stopHash⟩ binding, cursor)
  | _ => .error (.decode "invalid recovery anchor configuration state")

def decodeFingerprint (bytes : Bytes) : Result (Option LogHash) := do
  let present ← readUint 1 "truncated executor fingerprint flag" bytes 112
  let fingerprint ← readHash bytes 113
  match present with
  | 0 =>
    if fingerprint = .zero then pure none
    else .error (.decode "invalid executor fingerprint encoding")
  | 1 => pure (some fingerprint)
  | _ => .error (.decode "invalid executor fingerprint encoding")

def isFingerprinted (version : Nat) : Bool :=
  version = anchorV3Version ∨ version = anchorVersion

def decodeFingerprintOf (bytes : Bytes) (version : Nat) : Result (Option LogHash) :=
  if isFingerprinted version then decodeFingerprint bytes else .ok none

def decodeStateOf (configId version : Nat) : Result (ConfigurationState × Nat) :=
  if version ≠ anchorV1Version then decodeConfigurationState bytes cursor stop configId version
  else .ok (.active configId .zero, cursor)

def decodeAnchor (bytes : Bytes) : Result RecoveryAnchor := do
  ensure (120 ≤ bytes.length ∧ window bytes 0 4 = anchorMagic)
    (.decode "invalid recovery anchor magic")
  let crcOffset := bytes.length - 4
  let expectedCrc ← readU32 bytes crcOffset
  ensure ((crc32c (bytes.take crcOffset)).toNat = expectedCrc)
    (.decode "recovery anchor crc mismatch")
  let version ← readU16 bytes 4
  let reserved ← readU16 bytes 6
  ensure ((version = anchorV1Version ∨ version = anchorV2Version ∨ version = anchorV3Version ∨
      version = anchorVersion) ∧ reserved = 0)
    (.decode "unsupported recovery anchor version")
  let executorFingerprint ← decodeFingerprintOf bytes version
  let cursor := if isFingerprinted version then 145 else 112
  let configId ← readU64 bytes 16
  let (configurationState, cursor) ← decodeStateOf bytes cursor crcOffset configId version
  let (clusterId, cursor) ← readString bytes cursor crcOffset "anchor cluster_id"
  let (snapshotId, cursor) ← readString bytes cursor crcOffset "anchor snapshot_id"
  ensure (cursor = crcOffset) (.decode "trailing recovery anchor bytes")
  let index ← readU64 bytes 32
  let hash ← readHash bytes 40
  let digest ← readHash bytes 72
  let sizeBytes ← readU64 bytes 104
  let snapshot : SnapshotIdentity := ⟨snapshotId, digest, sizeBytes, executorFingerprint⟩
  let epoch ← readU64 bytes 8
  let recoveryGeneration ← readU64 bytes 24
  let anchor := RecoveryAnchor.ofVersion version clusterId epoch configId configurationState
    recoveryGeneration ⟨index, hash⟩ snapshot
  validateAnchor anchor
  pure anchor

end Reading

end Rhiza.Log
