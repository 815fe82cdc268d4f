import Rhiza.Kv.Materialize

/-! # Snapshots and the embedded log

A snapshot is a copy of the database without its entries, so that a restored machine
starts with an empty embedded log. Compaction drops the entries before an anchor.
-/

namespace Rhiza.Kv

open Core Library

class Redb where
  image : Database → Bytes

inductive SnapshotError
  | invalidSnapshot (message : String)
  | materializer (error : Error)
  deriving DecidableEq

structure RedbSnapshot where
  clusterId : ClusterId
  createdBy : NodeId
  epoch : Nat
  configId : Nat
  appliedIndex : Nat
  appliedHash : LogHash
  materializerFingerprint : LogHash
  digest : LogHash
  database : Database
  deriving DecidableEq

def lengthPrefixed (value : Bytes) : Bytes := toBeBytes 8 value.length ++ value

def snapshotDomain : Bytes := utf8 "rhiza-kv-snapshot-v1" ++ [0]

def snapshotMeta (progress : List (String × Bytes)) (key : String) (expected : Bytes) :
    Except SnapshotError Unit := do
  let actual ← (Assoc.get progress key).elim
    (.error (.invalidSnapshot ("missing progress metadata " ++ key))) .ok
  ensure (actual = expected)
    (.invalidSnapshot ("progress metadata " ++ key ++ " does not match the snapshot identity"))

def snapshotU64Meta (progress : List (String × Bytes)) (key : String) : Except SnapshotError Nat := do
  let value ← (Assoc.get progress key).elim
    (.error (.invalidSnapshot ("missing progress metadata " ++ key))) .ok
  ensure (value.length = 8) (.invalidSnapshot ("invalid u64 progress metadata " ++ key))
  .ok (fromBeBytes value)

def snapshotHashMeta (progress : List (String × Bytes)) (key : String) :
    Except SnapshotError LogHash := do
  let value ← (Assoc.get progress key).elim
    (.error (.invalidSnapshot ("missing progress metadata " ++ key))) .ok
  if hSize : value.length = 32 then .ok ⟨value, hSize⟩
  else .error (.invalidSnapshot ("invalid hash progress metadata " ++ key))

/-- The loop of `embedded_log_entries`, with the index that is expected after it. -/
def readEmbedded [Sha256] (clusterId : ClusterId) :
    Nat → List (Nat × Bytes) → Result (List LogEntry × Nat)
  | expected, [] => .ok ([], expected)
  | expected, (index, encoded) :: rest => do
    ensure (index = expected)
      (.invalidEntry ("embedded qlog is missing index " ++ toString expected))
    let entry ← decodeEmbeddedLogEntry encoded clusterId
    ensure (entry.index = expected)
      (.invalidEntry "embedded qlog key does not match its entry index")
    let next ← (checkedSucc expected).elim
      (.error (.invalidEntry "embedded qlog index overflow")) .ok
    let (entries, last) ← readEmbedded clusterId next rest
    .ok (entry :: entries, last)

section Machine

variable [Sha256]

def validateSnapshotIdentity (progress : List (String × Bytes)) (clusterId : ClusterId)
    (nodeId : NodeId) (epoch configId : Nat) : Except SnapshotError Unit := do
  snapshotMeta progress metaClusterId (utf8 clusterId)
  snapshotMeta progress metaNodeId (utf8 nodeId)
  snapshotMeta progress metaEpoch (toBeBytes 8 epoch)
  snapshotMeta progress metaConfigId (toBeBytes 8 configId)
  snapshotMeta progress metaMaterializerFingerprint kvMaterializerFingerprint.bytes

def RedbSnapshot.recomputeDigest [Redb] (snapshot : RedbSnapshot) : LogHash :=
  LogHash.digest [snapshotDomain, lengthPrefixed (utf8 snapshot.clusterId),
    lengthPrefixed (utf8 snapshot.createdBy), toBeBytes 8 snapshot.epoch,
    toBeBytes 8 snapshot.configId, toBeBytes 8 snapshot.appliedIndex, snapshot.appliedHash.bytes,
    snapshot.materializerFingerprint.bytes, toBeBytes 8 (Redb.image snapshot.database).length, Redb.image snapshot.database]

namespace RedbStateMachine

def embeddedLogEntries (m : RedbStateMachine) (start through : Nat) : Result (List LogEntry) :=
  if through < start then .ok []
  else do
    let (entries, expected) ← readEmbedded m.clusterId start
      (m.tables.embeddedLog.filter fun row => start ≤ row.1 ∧ row.1 ≤ through)
    ensure (¬ expected ≤ through)
      (.invalidEntry ("embedded qlog is missing index " ++ toString expected))
    .ok entries

def compactEmbeddedLogBefore (m : RedbStateMachine) (anchorIndex : Nat) :
    Result RedbStateMachine := do
  let appliedIndex ← readU64Meta m.tables.progress metaAppliedIndex
  ensure (anchorIndex ≤ appliedIndex)
    (.invalidEntry ("cannot compact embedded qlog before anchor " ++ toString anchorIndex ++
      " beyond applied index " ++ toString appliedIndex))
  .ok { m with tables := { m.tables with
    embeddedLog := m.tables.embeddedLog.filter fun row => ¬ row.1 < anchorIndex } }

def snapshotTables (m : RedbStateMachine) : Tables := { m.tables with embeddedLog := [] }

def createSnapshot [Redb] (m : RedbStateMachine) (targetIndex : Nat) :
    Except SnapshotError RedbSnapshot := do
  validateSnapshotIdentity m.tables.progress m.clusterId m.nodeId m.epoch m.configId
  let appliedIndex ← snapshotU64Meta m.tables.progress metaAppliedIndex
  ensure (appliedIndex = targetIndex)
    (.invalidSnapshot ("snapshot target " ++ toString targetIndex ++
      " does not match applied index " ++ toString appliedIndex))
  let appliedHash ← snapshotHashMeta m.tables.progress metaAppliedHash
  let snapshot : RedbSnapshot := ⟨m.clusterId, m.nodeId, m.epoch, m.configId, appliedIndex,
    appliedHash, kvMaterializerFingerprint, LogHash.zero, .whole m.snapshotTables⟩
  .ok { snapshot with digest := snapshot.recomputeDigest }

end RedbStateMachine

def validateRestoredDatabase (database : Database) (snapshot : RedbSnapshot)
    (expectedNodeId : NodeId) : Except SnapshotError Tables := do
  ensure (snapshot.materializerFingerprint = kvMaterializerFingerprint)
    (.invalidSnapshot "materializer fingerprint does not match this binary")
  match database with
  | .whole tables => do
    validateSnapshotIdentity tables.progress snapshot.clusterId expectedNodeId snapshot.epoch
      snapshot.configId
    let appliedIndex ← snapshotU64Meta tables.progress metaAppliedIndex
    ensure (appliedIndex = snapshot.appliedIndex)
      (.invalidSnapshot "inner applied index does not match snapshot metadata")
    let appliedHash ← snapshotHashMeta tables.progress metaAppliedHash
    ensure (appliedHash = snapshot.appliedHash)
      (.invalidSnapshot "inner applied hash does not match snapshot metadata")
    .ok tables
  | _ => .error (.invalidSnapshot "snapshot is missing a required KV table")

def rebindSnapshotNode (tables : Tables) (targetNodeId : NodeId) : Tables :=
  { tables with progress := Assoc.insert metaNodeId (utf8 targetNodeId) tables.progress }

def restoreSnapshotFile [Redb] (path : Option Database) (snapshot : RedbSnapshot)
    (targetNodeId : NodeId) : Except SnapshotError Database := do
  ensure (targetNodeId ≠ "") (.invalidSnapshot "target node id is empty")
  ensure (snapshot.recomputeDigest = snapshot.digest)
    (.invalidSnapshot "snapshot digest does not match its contents")
  ensure path.isNone (.invalidSnapshot "restore target already exists")
  let tables ← validateRestoredDatabase snapshot.database snapshot snapshot.createdBy
  let rebound ← validateRestoredDatabase (.whole (rebindSnapshotNode tables targetNodeId)) snapshot
    targetNodeId
  .ok (.whole rebound)

end Machine

end Rhiza.Kv
