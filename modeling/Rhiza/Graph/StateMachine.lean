import Rhiza.Graph.Command
import Rhiza.Library.Assoc

/-! # The graph materializer

The database holds metadata, one record for each request, and the documents. It
is reached by a few fixed statements; here the tables are typed and a statement
is what it does to them. Every call runs in one transaction, so that a call that
fails changes nothing.
-/

namespace Rhiza.Graph

open Core Library

class Ladybug where
  storageVersion : Nat

inductive GraphCommandResultV1
  | putDocument (created : Bool)
  | deleteDocument (existed : Bool)
  deriving DecidableEq

structure RequestRow where
  commandHash : LogHash
  originalLogIndex : Nat
  originalLogHash : LogHash
  result : GraphCommandResultV1
  deriving DecidableEq

structure Metadata where
  clusterId : Option ClusterId
  nodeId : Option NodeId
  epoch : Option Nat
  configId : Option Nat
  appliedIndex : Option Nat
  appliedHash : Option LogHash
  schemaVersion : Option String
  materializerFingerprint : Option LogHash
  deriving DecidableEq

structure Database where
  metadata : Metadata
  requests : List (String × RequestRow)
  documents : List (String × GraphValueV1)
  deriving DecidableEq

structure Identity where
  clusterId : ClusterId
  nodeId : NodeId
  epoch : Nat
  configId : Nat
  deriving DecidableEq

structure LadybugStateMachine where
  database : Database
  identity : Identity
  deriving DecidableEq

structure ApplyOutcome where
  appliedIndex : Nat
  appliedHash : LogHash
  result : Option GraphCommandResultV1
  deriving DecidableEq

def schemaVersion : String := "1"

def Database.fresh : Database := ⟨⟨none, none, none, none, none, none, none, none⟩, [], []⟩

def readMeta {α : Type} (key : String) (value : Option α) : Result α :=
  value.elim (.error (.identityMismatch ("missing " ++ key))) .ok

def validateMeta {α : Type} [DecidableEq α] (key : String) (value : Option α) (expected : α) :
    Result Unit := do
  let actual ← readMeta key value
  ensure (actual = expected) (.identityMismatch key)

section Opening

variable [Sha256] [Ladybug]

def graphMaterializerFingerprint : LogHash :=
  LogHash.digest [utf8 "rhiza-graph-materializer-v1" ++ [0], utf8 "lbug=0.18.1",
    toBeBytes 8 Ladybug.storageVersion, utf8 schemaVersion, commandMagic, batchCommandMagic,
    toBeBytes 2 batchCommandVersion]

def validateIdentity (metadata : Metadata) (identity : Identity) : Result Unit := do
  validateMeta "cluster_id" metadata.clusterId identity.clusterId
  validateMeta "node_id" metadata.nodeId identity.nodeId
  validateMeta "epoch" metadata.epoch identity.epoch
  validateMeta "config_id" metadata.configId identity.configId
  validateMeta "schema_version" metadata.schemaVersion schemaVersion
  validateMeta "materializer_fingerprint" metadata.materializerFingerprint
    graphMaterializerFingerprint

/-- The metadata that `initialize_or_validate` creates. -/
def initialMetadata (identity : Identity) : Metadata :=
  ⟨some identity.clusterId, some identity.nodeId, some identity.epoch, some identity.configId,
    some 0, some .zero, some schemaVersion, some graphMaterializerFingerprint⟩

def Metadata.untouched (metadata : Metadata) : Bool :=
  metadata.nodeId.isNone && metadata.epoch.isNone && metadata.configId.isNone &&
    metadata.appliedIndex.isNone && metadata.appliedHash.isNone && metadata.schemaVersion.isNone &&
    metadata.materializerFingerprint.isNone

def initializeMetadata (metadata : Metadata) (identity : Identity) : Result Metadata :=
  if metadata.clusterId.isNone then do
    ensure metadata.untouched (.identityMismatch "partially initialized metadata")
    .ok (initialMetadata identity)
  else .ok metadata

def initializeOrValidate (database : Database) (identity : Identity) : Result Database := do
  let metadata ← initializeMetadata database.metadata identity
  validateIdentity metadata identity
  .ok { database with metadata := metadata }

def LadybugStateMachine.open (database : Database) (identity : Identity) :
    Result LadybugStateMachine := do
  let database ← initializeOrValidate database identity
  .ok ⟨database, identity⟩

end Opening

section Applying

variable [Sha256]

def commandDigest (payload : Bytes) : LogHash :=
  LogHash.digest [utf8 "rhiza-graph-command-digest-v1" ++ [0], payload]

def matchingRequest (requests : List (String × RequestRow)) (requestId : String)
    (commandPayload : Bytes) : Result (Option RequestRow) :=
  match Assoc.get requests requestId with
  | none => .ok none
  | some row => do
    ensure (row.commandHash = commandDigest commandPayload)
      (.requestConflict requestId row.originalLogIndex row.originalLogHash)
    .ok (some row)

/-- `apply_command`. -/
def runOperation (documents : List (String × GraphValueV1)) :
    GraphOperationV1 → GraphCommandResultV1 × List (String × GraphValueV1)
  | .putDocument id value =>
    (.putDocument (Assoc.get documents id).isNone, Assoc.insert id value documents)
  | .deleteDocument id =>
    (.deleteDocument (Assoc.get documents id).isSome, documents.filter (·.1 ≠ id))

/-- A request is carried out once; later on its record answers for it. -/
def applyCommand (entry : LogEntry) (database : Database) (member : DecodedGraphCommand) :
    Result (GraphCommandResultV1 × Database) := do
  match ← matchingRequest database.requests member.command.requestId member.individualPayload with
  | some row => .ok (row.result, database)
  | none =>
    let (result, documents) := runOperation database.documents member.command.operation
    let row : RequestRow :=
      ⟨commandDigest member.individualPayload, entry.index, entry.hash, result⟩
    .ok (result, { database with
      requests := Assoc.insert member.command.requestId row database.requests
      documents := documents })

def applyCommands (entry : LogEntry) : Database → List DecodedGraphCommand →
    Result (List GraphCommandResultV1 × Database)
  | database, [] => .ok ([], database)
  | database, member :: members => do
    let (result, database) ← applyCommand entry database member
    let (results, database) ← applyCommands entry database members
    .ok (result :: results, database)

def singleResult (results : List GraphCommandResultV1) : Option GraphCommandResultV1 :=
  if results.length = 1 then results.head? else none

def decodedCommands (entry : LogEntry) : Result (List DecodedGraphCommand) :=
  if entry.entryType = .command then decodeReplicatedGraphCommands entry.payload else .ok []

def replayedResults (requests : List (String × RequestRow)) :
    List DecodedGraphCommand → Result (List GraphCommandResultV1)
  | [] => .ok []
  | member :: members => do
    let row ← (← matchingRequest requests member.command.requestId member.individualPayload).elim
      (.error (.invalidEntry "applied graph command is missing its request record")) .ok
    let results ← replayedResults requests members
    .ok (row.result :: results)

/-- `set_meta` for the two rows of the tip. -/
def setTip (database : Database) (entry : LogEntry) : Result Database := do
  let _ ← readMeta "applied_index" database.metadata.appliedIndex
  let _ ← readMeta "applied_hash" database.metadata.appliedHash
  .ok { database with metadata := { database.metadata with
    appliedIndex := some entry.index
    appliedHash := some entry.hash } }

def applyByType (entry : LogEntry) (database : Database) (commands : List DecodedGraphCommand) :
    Result (Option GraphCommandResultV1 × Database) :=
  if entry.entryType = .command then do
    let (results, database) ← applyCommands entry database commands
    .ok (singleResult results, database)
  else .ok (none, database)

namespace LadybugStateMachine

variable [Ladybug]

def validateEntryIdentity (m : LadybugStateMachine) (entry : LogEntry) : Result Unit := do
  ensure (entry.clusterId = m.identity.clusterId) (.identityMismatch "cluster_id")
  ensure (entry.epoch = m.identity.epoch) (.identityMismatch "epoch")
  ensure (entry.configId = m.identity.configId) (.identityMismatch "config_id")

/-- The branch of `apply_in_transaction` for the entry that was applied last. -/
def replayEntry (m : LadybugStateMachine) (entry : LogEntry) (commands : List DecodedGraphCommand)
    (currentHash : LogHash) : Result (ApplyOutcome × LadybugStateMachine) := do
  ensure (entry.hash = currentHash)
    (.invalidEntry "current index was reapplied with a different hash")
  let results ← replayedResults m.database.requests commands
  .ok (⟨entry.index, currentHash, singleResult results⟩, m)

/-- The branch of `apply_in_transaction` for every other entry. -/
def applyNext (m : LadybugStateMachine) (entry : LogEntry) (commands : List DecodedGraphCommand)
    (currentIndex : Nat) (currentHash : LogHash) :
    Result (ApplyOutcome × LadybugStateMachine) := do
  let expected ← (checkedSucc currentIndex).elim
    (.error (.invalidEntry "applied index is exhausted")) .ok
  ensure (entry.index = expected)
    (.invalidEntry ("expected index " ++ toString expected ++ ", got " ++ toString entry.index))
  ensure (entry.prevHash = currentHash)
    (.invalidEntry "prev_hash does not match the materialized graph tip")
  let (result, database) ← applyByType entry m.database commands
  let database ← setTip database entry
  .ok (⟨entry.index, entry.hash, result⟩, { m with database := database })

def applyInTransaction (m : LadybugStateMachine) (entry : LogEntry)
    (commands : List DecodedGraphCommand) : Result (ApplyOutcome × LadybugStateMachine) := do
  validateIdentity m.database.metadata m.identity
  m.validateEntryIdentity entry
  let currentIndex ← readMeta "applied_index" m.database.metadata.appliedIndex
  let currentHash ← readMeta "applied_hash" m.database.metadata.appliedHash
  if entry.index = currentIndex then m.replayEntry entry commands currentHash
  else m.applyNext entry commands currentIndex currentHash

def applyEntry (m : LadybugStateMachine) (entry : LogEntry) :
    Result (ApplyOutcome × LadybugStateMachine) := do
  ensure (entry.recomputeHash = entry.hash) (.invalidEntry "hash does not match entry contents")
  let commands ← decodedCommands entry
  m.applyInTransaction entry commands

end LadybugStateMachine

end Applying

end Rhiza.Graph
