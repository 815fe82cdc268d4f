import Rhiza.Graph.RoundTrip
import Rhiza.Kv.RoundTrip
import Rhiza.Node.SqlBatch

/-! # Writes of the key-value and the graph profile

A write looks for the record of its request, and if there is none it proposes its
command for the next slot. A batch does so for many writes at once: the commands that
have no record become as few entries as fit. Here every slot goes to the proposal made
for it.
-/

namespace Rhiza.Kv

open Core Library

section Requests

variable [Sha256]

def Error.display : Error → String
  | codec message => "KV codec error: " ++ message
  | invalidCommand message => "invalid KV command: " ++ message
  | invalidEntry message => "invalid log entry: " ++ message
  | partialInitialization => "partial or corrupt KV initialization"
  | requestConflict requestId =>
    "request id " ++ requestId.quote ++ " was reused with another command"
  | database message => "redb error: " ++ message

/-- `check_request_in_table`. -/
def RedbStateMachine.checkRequest (m : RedbStateMachine) (requestId : String) (payload : Bytes) :
    Result (Option KvRequestRecord) := do
  let command ← decodeReplicatedKvCommand payload
  ensure (command.requestId = requestId) (.invalidCommand "provided and encoded request ids differ")
  let record ← readRequest m.tables.requests requestId
  ensure (record.all (·.payloadHash = LogHash.digest [payload])) (.requestConflict requestId)
  .ok record

def RedbStateMachine.appliedTip (m : RedbStateMachine) : Result LogAnchor := do
  let index ← readU64Meta m.tables.progress metaAppliedIndex
  let hash ← readHashMeta m.tables.progress metaAppliedHash
  .ok ⟨index, hash⟩

end Requests

end Rhiza.Kv

namespace Rhiza.Graph

open Core Library

section Requests

variable [Sha256]

def Error.display : Error → String
  | codec message => "invalid graph command encoding: " ++ message
  | invalidCommand message => "invalid graph command: " ++ message
  | invalidEntry message => "invalid log entry: " ++ message
  | identityMismatch field => "Ladybug database identity mismatch for " ++ field
  | requestConflict requestId _ _ => "request id reused with a different graph command: " ++ requestId

/-- `check_request`. -/
def LadybugStateMachine.checkRequest (m : LadybugStateMachine) (requestId : String)
    (payload : Bytes) : Result (Option RequestRow) := do
  let command ← decodeReplicatedGraphCommand payload
  ensure (command.requestId = requestId)
    (.invalidCommand "request id does not match the encoded graph command")
  matchingRequest m.database.requests requestId payload

def LadybugStateMachine.appliedTip (m : LadybugStateMachine) : Result LogAnchor := do
  let index ← readMeta "applied_index" m.database.metadata.appliedIndex
  let hash ← readMeta "applied_hash" m.database.metadata.appliedHash
  .ok ⟨index, hash⟩

end Requests

end Rhiza.Graph

namespace Rhiza.Node

open Rhiza.Core Rhiza.Library

structure MutationOutcome (R : Type) where
  appliedIndex : Nat
  hash : LogHash
  result : R
  deriving DecidableEq

structure ProfileMember (C : Type) where
  payload : Bytes
  command : C
  deriving DecidableEq

/-- The materializer and the codec of a profile, as the write paths use them. `looksUpFirst`
says whether a batch looks for the records of its members before it sorts out repeated
requests. -/
structure Profile (M C R : Type) where
  requestId : C → String
  checkRequest : M → String → Bytes → Except NodeError (Option (MutationOutcome R))
  encodeBatch : List C → Except NodeError Bytes
  fittingPrefix : List C → Option (Nat × Bytes)
  appliedTip : M → Except NodeError LogAnchor
  ownEntry : M → LogAnchor → Nat → Bytes → LogEntry
  applyEntry : M → LogEntry → Except NodeError M
  looksUpFirst : Bool
  requestNotRecorded : String
  batchNotRecorded : String
  resultOmitted : String

/-- The runtime: `refusal` is what `ensure_ready` and `ensure_writes_active` return. -/
structure ProfileNode (M : Type) where
  machine : M
  refusal : Option NodeError
  deriving DecidableEq

/-- `NodeError::to_string`, for the errors that are latched. -/
def fatalReason : NodeError → String
  | .storage message => "node storage failed: " ++ message
  | .reconciliation message => "node reconciliation failed: " ++ message
  | .invariant message => "node invariant failed: " ++ message
  | _ => "fatal state is latched"

def ProfileNode.latch {M : Type} (node : ProfileNode M) (error : NodeError) : ProfileNode M :=
  match node.refusal with
  | some (.fatal _) => node
  | _ => { node with refusal := some (.fatal (fatalReason error)) }

variable {M C R : Type}

section Paths

variable (p : Profile M C R)

def Profile.commit (m : M) (payload : Bytes) : Except NodeError M := do
  let tip ← p.appliedTip m
  let slot ← (checkedSucc tip.index).elim (.error (.invariant "qlog index is exhausted")) .ok
  p.applyEntry m (p.ownEntry m tip slot payload)

def Profile.check (m : M) (member : ProfileMember C) :
    Except NodeError (Option (MutationOutcome R)) :=
  p.checkRequest m (p.requestId member.command) member.payload

/-- `mutate_kv_payload_locked` and `mutate_graph_payload_locked`. The slot goes to the own
entry, and the loop ends in its first turn. -/
def Profile.mutatePayloadLocked (node : ProfileNode M) (member : ProfileMember C) :
    Except NodeError (MutationOutcome R) × ProfileNode M :=
  match node.refusal with
  | some refusal => (.error refusal, node)
  | none =>
    match p.check node.machine member with
    | .error error => (.error error, node)
    | .ok (some outcome) => (.ok outcome, node)
    | .ok none =>
      match p.commit node.machine member.payload with
      | .error error => (.error error, node.latch error)
      | .ok machine =>
        let committed := { node with machine }
        match p.check machine member with
        | .error error => (.error error, committed)
        | .ok (some outcome) => (.ok outcome, committed)
        | .ok none =>
          (.error (.invariant p.requestNotRecorded),
            committed.latch (.invariant p.requestNotRecorded))

def Profile.oneByOne : ProfileNode M → List (ProfileMember C) →
    List (Except NodeError (MutationOutcome R)) × ProfileNode M
  | node, [] => ([], node)
  | node, member :: rest =>
    let (answer, node) := p.mutatePayloadLocked node member
    let (answers, node) := oneByOne node rest
    (answer :: answers, node)

/-- `classify_pending_request`, with the map after it. -/
def classifyPendingRequest (canonicalByRequest : List (String × Nat))
    (members : List (ProfileMember C)) (index : Nat) (requestId : String) (payload : Bytes) :
    Except NodeError (Option Nat) × List (String × Nat) :=
  match Assoc.get canonicalByRequest requestId with
  | none => (.ok none, (requestId, index) :: canonicalByRequest)
  | some canonical =>
    if members[canonical]?.any (·.payload = payload) then (.ok (some canonical), canonicalByRequest)
    else
      (.error (.invalidRequest ("request id " ++ requestId.quote ++
        " was reused with another command in the same writer batch")), canonicalByRequest)

/-- The first loop of a batch, after some of its members. `queued` is what is looked up next
or, after lookups, what is pending. -/
structure Scan (R : Type) where
  results : List (Option (Except NodeError (MutationOutcome R)))
  aliases : List (Option Nat)
  canonicalByRequest : List (String × Nat)
  queued : List Nat

def Scan.enqueue (members : List (ProfileMember C)) (scan : Scan R) (member : ProfileMember C) :
    Scan R :=
  let index := scan.aliases.length
  let (verdict, canonicalByRequest) := classifyPendingRequest scan.canonicalByRequest members index
    (p.requestId member.command) member.payload
  match verdict with
  | .ok none =>
    ⟨scan.results ++ [none], scan.aliases ++ [none], canonicalByRequest, scan.queued ++ [index]⟩
  | .ok (some canonical) =>
    ⟨scan.results ++ [none], scan.aliases ++ [some canonical], canonicalByRequest, scan.queued⟩
  | .error error =>
    ⟨scan.results ++ [some (.error error)], scan.aliases ++ [none], canonicalByRequest, scan.queued⟩

def Scan.add (m : M) (members : List (ProfileMember C)) (scan : Scan R) (member : ProfileMember C) :
    Scan R :=
  if p.looksUpFirst then
    match p.check m member with
    | .ok none => scan.enqueue p members member
    | .ok (some outcome) =>
      { scan with
        results := scan.results ++ [some (.ok outcome)]
        aliases := scan.aliases ++ [none] }
    | .error error =>
      { scan with
        results := scan.results ++ [some (.error error)]
        aliases := scan.aliases ++ [none] }
  else scan.enqueue p members member

def Profile.scan (m : M) (members : List (ProfileMember C)) : Scan R :=
  members.foldl (Scan.add p m members) ⟨[], [], [], []⟩

structure ProfileBatch (M R : Type) where
  node : ProfileNode M
  results : List (Option (Except NodeError (MutationOutcome R)))
  pending : List Nat

namespace ProfileBatch

variable (members : List (ProfileMember C)) (batch : ProfileBatch M R)

def answer (index : Nat) (answer : Except NodeError (MutationOutcome R)) : ProfileBatch M R :=
  { batch with results := batch.results.set index (some answer) }

def failPending (error : NodeError) : ProfileBatch M R :=
  { batch.pending.foldl (fun batch index => batch.answer index (.error error)) batch with
    pending := [] }

def settle : ProfileBatch M R → List Nat → ProfileBatch M R
  | batch, [] => batch
  | batch, index :: rest =>
    match members[index]? with
    | none => batch.settle rest
    | some member =>
      match p.check batch.node.machine member with
      | .ok (some outcome) => (batch.answer index (.ok outcome)).settle rest
      | .ok none => { batch with pending := batch.pending ++ [index] }.settle rest
      | .error error => (batch.answer index (.error error)).settle rest

def executeAlone (index : Nat) : ProfileBatch M R :=
  match members[index]? with
  | none => batch
  | some member =>
    let (answer, node) := p.mutatePayloadLocked batch.node member
    { batch with node }.answer index answer

def commands (indices : List Nat) : List C :=
  indices.filterMap fun index => members[index]?.map (·.command)

def proposal (full : Bytes) : Option (Nat × Bytes) :=
  if full.length ≤ maxCommandBytes then some ((commands members batch.pending).length, full)
  else p.fittingPrefix (commands members batch.pending)

def propose (count : Nat) (payload : Bytes) : ProfileBatch M R :=
  match p.commit batch.node.machine payload with
  | .error error => { batch with node := batch.node.latch error }.failPending error
  | .ok machine =>
    let proposed := batch.pending.take count
    let settled := settle p members
      { batch with node := { batch.node with machine }, pending := [] } batch.pending
    if settled.pending.any (proposed.contains ·) then
      { settled with node := settled.node.latch (.invariant p.batchNotRecorded) }.failPending
        (.invariant p.batchNotRecorded)
    else settled

def turn : ProfileBatch M R :=
  match batch.pending with
  | [] => batch
  | [index] => { batch.executeAlone p members index with pending := [] }
  | index :: rest =>
    match p.encodeBatch (commands members batch.pending) with
    | .error error => batch.failPending error
    | .ok full =>
      match batch.proposal p members full with
      | none => { batch.executeAlone p members index with pending := rest }
      | some (count, payload) => batch.propose p members count payload

/-- The turns of the loop; each of them answers one of the pending members at least. -/
def loop : Nat → ProfileBatch M R → ProfileBatch M R
  | 0, batch => batch
  | turns + 1, batch => if batch.pending = [] then batch else loop turns (batch.turn p members)

end ProfileBatch

def Profile.start (node : ProfileNode M) (members : List (ProfileMember C)) : ProfileBatch M R :=
  let scan := p.scan node.machine members
  if p.looksUpFirst then ⟨node, scan.results, scan.queued⟩
  else ProfileBatch.settle p members ⟨node, scan.results, []⟩ scan.queued

/-- `execute_kv_client_batch_locked`, and `execute_graph_client_batch` once it has the
commit lock. -/
def Profile.executeClientBatchLocked (node : ProfileNode M) (members : List (ProfileMember C)) :
    List (Except NodeError (MutationOutcome R)) × ProfileNode M :=
  let batch := ProfileBatch.loop p members members.length (p.start node members)
  let results := copyAliases batch.results (p.scan node.machine members).aliases.zipIdx
  (results.map fun result => result.getD (.error (.invariant p.resultOmitted)),
    if results.any Option.isNone then batch.node.latch (.invariant p.resultOmitted) else batch.node)

end Paths

section Profiles

variable [Sha256]

def deterministicEntry (clusterId : ClusterId) (epoch configId : Nat) (tip : LogAnchor) (slot : Nat)
    (payload : Bytes) : LogEntry where
  clusterId
  epoch
  configId
  index := slot
  entryType := .command
  payload
  prevHash := tip.hash
  hash := calculateHash clusterId slot epoch configId .command tip.hash payload

/-- The binary search of `largest_fitting_kv_batch_prefix`. A prefix of commands that could be
encoded can be encoded, too. -/
def searchKvPrefix (commands : List Kv.KvCommandV1) (lower upper : Nat) (hLower : 0 < lower)
    (largest : Option (Nat × Bytes)) : Option (Nat × Bytes) :=
  if lower ≤ upper then
    let count := lower + (upper - lower) / 2
    match Kv.encodeReplicatedKvBatch (commands.take count) with
    | .error _ => largest
    | .ok payload =>
      if payload.length ≤ maxCommandBytes then
        searchKvPrefix commands (count + 1) upper (Nat.succ_pos count) (some (count, payload))
      else searchKvPrefix commands lower (count - 1) hLower largest
  else largest
termination_by upper + 1 - lower
decreasing_by all_goals omega

def largestFittingKvBatchPrefix (commands : List Kv.KvCommandV1) : Option (Nat × Bytes) :=
  if commands.length < 3 then none
  else searchKvPrefix commands 2 (commands.length - 1) (by decide) none

def kvProfile : Profile Kv.RedbStateMachine Kv.KvCommandV1 Kv.KvCommandResultV1 where
  requestId := Kv.KvCommandV1.requestId
  checkRequest m requestId payload :=
    match m.checkRequest requestId payload with
    | .error error => .error (.invalidRequest error.display)
    | .ok record => .ok (record.map fun record =>
        ⟨record.originalLogIndex, record.originalLogHash, record.result⟩)
  encodeBatch commands :=
    (Kv.encodeReplicatedKvBatch commands).mapError fun error => .invalidRequest error.display
  fittingPrefix := largestFittingKvBatchPrefix
  appliedTip m := m.appliedTip.mapError fun error => .storage error.display
  ownEntry m := deterministicEntry m.clusterId m.epoch m.configId
  applyEntry m entry :=
    match m.applyEntry entry with
    | .error error => .error (.invariant error.display)
    | .ok (_, machine) => .ok machine
  looksUpFirst := false
  requestNotRecorded := "committed KV request was not recorded by redb"
  batchNotRecorded := "committed KV batch did not record every request"
  resultOmitted := "KV writer batch omitted a request result"

def largestFittingGraphBatchPrefix (commands : List Graph.GraphCommandV1) : Option (Nat × Bytes) :=
  (List.range' 2 (commands.length - 2)).reverse.findSome? fun count =>
    match Graph.encodeReplicatedGraphBatch (commands.take count) with
    | .error _ => none
    | .ok payload => if payload.length ≤ maxCommandBytes then some (count, payload) else none

variable [Graph.Ladybug]

def graphProfile :
    Profile Graph.LadybugStateMachine Graph.GraphCommandV1 Graph.GraphCommandResultV1 where
  requestId := Graph.GraphCommandV1.requestId
  checkRequest m requestId payload :=
    match m.checkRequest requestId payload with
    | .error error => .error (.invalidRequest error.display)
    | .ok row => .ok (row.map fun row => ⟨row.originalLogIndex, row.originalLogHash, row.result⟩)
  encodeBatch commands :=
    (Graph.encodeReplicatedGraphBatch commands).mapError fun error => .invalidRequest error.display
  fittingPrefix := largestFittingGraphBatchPrefix
  appliedTip m := m.appliedTip.mapError fun error => .storage error.display
  ownEntry m := deterministicEntry m.identity.clusterId m.identity.epoch m.identity.configId
  applyEntry m entry :=
    match m.applyEntry entry with
    | .error error => .error (.invariant error.display)
    | .ok (_, machine) => .ok machine
  looksUpFirst := true
  requestNotRecorded := "committed graph request was not recorded by Ladybug"
  batchNotRecorded := "committed graph batch did not record every request"
  resultOmitted := "graph writer batch omitted a request result"

def executeKvClientBatchLocked (node : ProfileNode Kv.RedbStateMachine)
    (members : List (ProfileMember Kv.KvCommandV1)) :
    List (Except NodeError (MutationOutcome Kv.KvCommandResultV1)) ×
      ProfileNode Kv.RedbStateMachine :=
  kvProfile.executeClientBatchLocked node members

/-- `execute_graph_client_batch`. -/
def executeGraphClientBatch (node : ProfileNode Graph.LadybugStateMachine)
    (members : List (ProfileMember Graph.GraphCommandV1)) :
    List (Except NodeError (MutationOutcome Graph.GraphCommandResultV1)) ×
      ProfileNode Graph.LadybugStateMachine :=
  match node.refusal with
  | some refusal => (members.map fun _ => .error refusal, node)
  | none => graphProfile.executeClientBatchLocked node members

end Profiles

end Rhiza.Node
