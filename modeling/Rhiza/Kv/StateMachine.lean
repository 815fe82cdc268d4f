import Rhiza.Kv.Command
import Rhiza.Library.Assoc
import Rhiza.Log.Segment

/-! # The key-value materializer

The database has four tables: the keys, one receipt for each request, the
progress with the identity of the database, and the entries themselves. An
entry is applied in one transaction; a call that fails changes nothing.
-/

namespace Rhiza.Kv

open Core Library

def metaClusterId : String := "cluster_id"
def metaNodeId : String := "node_id"
def metaEpoch : String := "epoch"
def metaConfigId : String := "config_id"
def metaAppliedIndex : String := "applied_index"
def metaAppliedHash : String := "applied_hash"
def metaMaterializerFingerprint : String := "materializer_fingerprint"

structure Tables where
  data : List (Bytes × Bytes)
  requests : List (Bytes × Bytes)
  progress : List (String × Bytes)
  embeddedLog : List (Nat × Bytes)
  deriving DecidableEq

inductive Database
  | fresh
  | partly
  | whole (tables : Tables)
  deriving DecidableEq

structure RedbStateMachine where
  tables : Tables
  clusterId : ClusterId
  nodeId : NodeId
  epoch : Nat
  configId : Nat
  deriving DecidableEq

inductive KvCommandResultV1
  | put (replaced : Bool)
  | delete (existed : Bool)
  deriving DecidableEq

structure KvRequestRecord where
  payloadHash : LogHash
  originalLogIndex : Nat
  originalLogHash : LogHash
  result : KvCommandResultV1
  deriving DecidableEq

structure ApplyOutcome where
  appliedIndex : Nat
  appliedHash : LogHash
  result : Option KvCommandResultV1
  deriving DecidableEq

def receiptMagic : Bytes := utf8 "RHKR" ++ [0, 1]

def takeHash (input : Bytes) : Result (LogHash × Bytes) :=
  (readHash input).elim (.error (.codec "truncated encoding")) .ok

def takeFlag (input : Bytes) : Result (Bool × Bytes) := do
  let (value, rest) ← takeUint 1 input
  ensure (value ≤ 1) (.codec ("invalid receipt boolean " ++ toString value))
  .ok (value = 1, rest)

def KvCommandResultV1.encode : KvCommandResultV1 → Bytes
  | put replaced => [1, if replaced then 1 else 0]
  | delete existed => [2, if existed then 1 else 0]

def KvCommandResultV1.fromTag (tag : Nat) (flag : Bool) : Result KvCommandResultV1 :=
  if tag = 1 then .ok (put flag)
  else if tag = 2 then .ok (delete flag)
  else .error (.codec ("invalid receipt result tag " ++ toString tag))

namespace KvRequestRecord

def encode (record : KvRequestRecord) : Bytes :=
  receiptMagic ++ record.payloadHash.bytes ++ toBeBytes 8 record.originalLogIndex ++
    record.originalLogHash.bytes ++ record.result.encode

def decode (encoded : Bytes) : Result KvRequestRecord := do
  let (magic, rest) ← takeBytes receiptMagic.length encoded
  ensure (magic = receiptMagic) (.codec "invalid request receipt magic or version")
  let (payloadHash, rest) ← takeHash rest
  let (originalLogIndex, rest) ← takeUint 8 rest
  let (originalLogHash, rest) ← takeHash rest
  let (tag, rest) ← takeUint 1 rest
  let (flag, rest) ← takeFlag rest
  let result ← KvCommandResultV1.fromTag tag flag
  finish rest
  .ok ⟨payloadHash, originalLogIndex, originalLogHash, result⟩

end KvRequestRecord

def readRequest (requests : List (Bytes × Bytes)) (requestId : String) :
    Result (Option KvRequestRecord) :=
  match Assoc.get requests (utf8 requestId) with
  | none => .ok none
  | some value => do .ok (some (← KvRequestRecord.decode value))

def readMeta (progress : List (String × Bytes)) (key : String) : Result Bytes :=
  (Assoc.get progress key).elim (.error (.database ("missing progress metadata " ++ key))) .ok

def requireMeta (progress : List (String × Bytes)) (key : String) (expected : Bytes) :
    Result Unit := do
  let actual ← readMeta progress key
  ensure (actual = expected)
    (.invalidEntry ("database metadata " ++ key ++ " does not match open parameters"))

def readU64Meta (progress : List (String × Bytes)) (key : String) : Result Nat := do
  let value ← readMeta progress key
  ensure (value.length = 8) (.database ("invalid u64 progress metadata " ++ key))
  .ok (fromBeBytes value)

def readHashMeta (progress : List (String × Bytes)) (key : String) : Result LogHash := do
  let value ← readMeta progress key
  if hSize : value.length = 32 then .ok ⟨value, hSize⟩
  else .error (.database ("invalid hash progress metadata " ++ key))

section Opening

variable [Sha256]

def kvMaterializerFingerprint : LogHash :=
  LogHash.digest [utf8 "rhiza-kv-materializer-v3" ++ [0], utf8 "redb=4.1.0",
    utf8 "schema=2;embedded_qlog=qlog_segment_v3", commandMagic, toBeBytes 2 commandVersion,
    batchCommandMagic, toBeBytes 2 batchCommandVersion]

def initialProgress (clusterId : ClusterId) (nodeId : NodeId) (epoch configId : Nat) :
    List (String × Bytes) :=
  [(metaClusterId, utf8 clusterId), (metaNodeId, utf8 nodeId), (metaEpoch, toBeBytes 8 epoch),
    (metaConfigId, toBeBytes 8 configId), (metaAppliedIndex, toBeBytes 8 0),
    (metaAppliedHash, LogHash.zero.bytes),
    (metaMaterializerFingerprint, kvMaterializerFingerprint.bytes)]

/-- The checks of `initialize_or_validate` on an initialized database. -/
def validateProgress (progress : List (String × Bytes)) (clusterId : ClusterId) (nodeId : NodeId)
    (epoch configId : Nat) : Result Unit := do
  ensure (Assoc.get progress metaClusterId).isSome .partialInitialization
  requireMeta progress metaClusterId (utf8 clusterId)
  requireMeta progress metaNodeId (utf8 nodeId)
  requireMeta progress metaEpoch (toBeBytes 8 epoch)
  requireMeta progress metaConfigId (toBeBytes 8 configId)
  requireMeta progress metaMaterializerFingerprint kvMaterializerFingerprint.bytes
  let _ ← readU64Meta progress metaAppliedIndex
  let _ ← readHashMeta progress metaAppliedHash
  .ok ()

def initializeOrValidate (clusterId : ClusterId) (nodeId : NodeId) (epoch configId : Nat) :
    Database → Result Tables
  | .fresh => .ok ⟨[], [], initialProgress clusterId nodeId epoch configId, []⟩
  | .partly => .error .partialInitialization
  | .whole tables => do
    validateProgress tables.progress clusterId nodeId epoch configId
    .ok tables

def RedbStateMachine.open (database : Database) (clusterId : ClusterId) (nodeId : NodeId)
    (epoch configId : Nat) : Result RedbStateMachine := do
  ensure (clusterId ≠ "" ∧ nodeId ≠ "") (.invalidEntry "cluster and node ids must not be empty")
  let tables ← initializeOrValidate clusterId nodeId epoch configId database
  .ok ⟨tables, clusterId, nodeId, epoch, configId⟩

end Opening

section Applying

variable [Sha256]

structure Rows where
  requests : List (Bytes × Bytes)
  data : List (Bytes × Bytes)
  deriving DecidableEq

def runOperation (data : List (Bytes × Bytes)) :
    KvOperationV1 → KvCommandResultV1 × List (Bytes × Bytes)
  | .put key value => (.put (Assoc.get data key).isSome, Assoc.insert key value data)
  | .delete key => (.delete (Assoc.get data key).isSome, data.filter (·.1 ≠ key))

/-- A request is carried out once; later on its receipt answers for it. -/
def applyCommand (entry : LogEntry) (rows : Rows) (member : DecodedKvCommand) :
    Result (KvCommandResultV1 × Rows) := do
  let payloadHash := LogHash.digest [member.individualPayload]
  match ← readRequest rows.requests member.command.requestId with
  | some record => do
    ensure (record.payloadHash = payloadHash) (.requestConflict member.command.requestId)
    .ok (record.result, rows)
  | none =>
    let (result, data) := runOperation rows.data member.command.operation
    let record : KvRequestRecord := ⟨payloadHash, entry.index, entry.hash, result⟩
    .ok (result, ⟨Assoc.insert (utf8 member.command.requestId) record.encode rows.requests, data⟩)

def applyCommands (entry : LogEntry) : Rows → List DecodedKvCommand →
    Result (List KvCommandResultV1 × Rows)
  | rows, [] => .ok ([], rows)
  | rows, member :: members => do
    let (result, rows) ← applyCommand entry rows member
    let (results, rows) ← applyCommands entry rows members
    .ok (result :: results, rows)

def singleResult (results : List KvCommandResultV1) : Option KvCommandResultV1 :=
  if results.length = 1 then results.head? else none

def applyByType (entry : LogEntry) (rows : Rows) (commands : List DecodedKvCommand) :
    Result (Option KvCommandResultV1 × Rows) :=
  match entry.entryType with
  | .command => do
    let (results, rows) ← applyCommands entry rows commands
    .ok (singleResult results, rows)
  | .noop => do
    ensure (entry.payload = []) (.invalidEntry "noop entry payload must be empty")
    .ok (none, rows)
  | .configChange => do
    ensure (ConfigChange.recognizeParts entry.entryType entry.payload).isSome
      (.invalidEntry "invalid configuration change")
    .ok (none, rows)
  | _ => .ok (none, rows)

def decodedCommands (entry : LogEntry) : Result (List DecodedKvCommand) :=
  if entry.entryType = .command then decodeReplicatedKvCommands entry.payload else .ok []

def logErrorText : Log.Error → String
  | .invalidIndexRange start stop =>
    "invalid index range: start " ++ toString start ++ " is after end " ++ toString stop
  | .compactionAboveTip target tip =>
    "compaction target " ++ toString target ++ " is above log tip " ++
      tip.elim "None" fun index => "Some(" ++ toString index ++ ")"
  | .compactionHashMismatch index =>
    "compaction hash does not match log entry " ++ toString index
  | .compactionRegression target anchor =>
    "compaction target " ++ toString target ++ " regresses persisted anchor " ++ toString anchor
  | .compactionConflict index => "compaction replay conflicts at index " ++ toString index
  | .decode message => "qlog decode failed: " ++ message

def decodeEmbeddedLogEntry (encoded : Bytes) (clusterId : ClusterId) : Result LogEntry :=
  match Log.decodeSegmentForCluster encoded clusterId with
  | .ok [entry] => .ok entry
  | .ok _ => .error (.invalidEntry "embedded qlog value must contain exactly one entry")
  | .error error => .error (.invalidEntry (logErrorText error))

def replayedResults (requests : List (Bytes × Bytes)) :
    List DecodedKvCommand → Result (List KvCommandResultV1)
  | [] => .ok []
  | member :: members => do
    let record ← (← readRequest requests member.command.requestId).elim
      (.error (.invalidEntry "replayed command has no durable receipt")) .ok
    ensure (record.payloadHash = LogHash.digest [member.individualPayload])
      (.requestConflict member.command.requestId)
    let results ← replayedResults requests members
    .ok (record.result :: results)

namespace RedbStateMachine

def validateEntryIdentity (m : RedbStateMachine) (entry : LogEntry) : Result Unit := do
  ensure (entry.clusterId = m.clusterId) (.invalidEntry "entry belongs to another cluster")
  ensure (entry.epoch = m.epoch) (.invalidEntry "entry epoch does not match")
  ensure (entry.configId = m.configId) (.invalidEntry "entry configuration id does not match")

/-- The branch of `apply_entry` for the entry that was applied last. -/
def replayEntry (m : RedbStateMachine) (entry : LogEntry) (commands : List DecodedKvCommand)
    (currentHash : LogHash) : Result (ApplyOutcome × RedbStateMachine) := do
  ensure (entry.hash = currentHash) (.invalidEntry "replayed index has a different hash")
  let stored ← (Assoc.get m.tables.embeddedLog entry.index).elim
    (.error (.invalidEntry "replayed entry is missing from embedded qlog")) .ok
  let decoded ← decodeEmbeddedLogEntry stored m.clusterId
  ensure (decoded = entry) (.invalidEntry "replayed entry differs from embedded qlog")
  let results ← replayedResults m.tables.requests commands
  .ok (⟨entry.index, currentHash, singleResult results⟩, m)

def stored (m : RedbStateMachine) (entry : LogEntry) (rows : Rows) : RedbStateMachine :=
  { m with tables := {
      data := rows.data
      requests := rows.requests
      progress := Assoc.insert metaAppliedHash entry.hash.bytes
        (Assoc.insert metaAppliedIndex (toBeBytes 8 entry.index) m.tables.progress)
      embeddedLog :=
        Assoc.insert entry.index (Log.encodeSegment [entry]) m.tables.embeddedLog } }

/-- The branch of `apply_entry` for every other entry. -/
def applyNext (m : RedbStateMachine) (entry : LogEntry) (commands : List DecodedKvCommand)
    (currentIndex : Nat) (currentHash : LogHash) : Result (ApplyOutcome × RedbStateMachine) := do
  let expectedIndex ← (checkedSucc currentIndex).elim
    (.error (.invalidEntry "applied index overflow")) .ok
  ensure (entry.index = expectedIndex)
    (.invalidEntry ("expected log index " ++ toString expectedIndex ++ ", got " ++
      toString entry.index))
  ensure (entry.prevHash = currentHash)
    (.invalidEntry "entry previous hash does not match applied hash")
  let (result, rows) ← applyByType entry ⟨m.tables.requests, m.tables.data⟩ commands
  ensure (Assoc.get m.tables.embeddedLog entry.index).isNone
    (.invalidEntry "next entry already exists in embedded qlog")
  .ok (⟨entry.index, entry.hash, result⟩, m.stored entry rows)

def applyEntry (m : RedbStateMachine) (entry : LogEntry) :
    Result (ApplyOutcome × RedbStateMachine) := do
  m.validateEntryIdentity entry
  ensure (entry.recomputeHash = entry.hash) (.invalidEntry "entry hash does not match content")
  let commands ← decodedCommands entry
  let currentIndex ← readU64Meta m.tables.progress metaAppliedIndex
  let currentHash ← readHashMeta m.tables.progress metaAppliedHash
  if entry.index = currentIndex then m.replayEntry entry commands currentHash
  else m.applyNext entry commands currentIndex currentHash

end RedbStateMachine

end Applying

end Rhiza.Kv
