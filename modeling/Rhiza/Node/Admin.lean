import Rhiza.Core.Configuration
import Rhiza.Library.Run
import Rhiza.Quepaxa.Recorder

/-! # Administrative requests of `rhiza-node`

An operator stops a configuration, installs its successor on the recorders and
activates the successor. Every request names the configuration it is meant for.
An operation runs under the commit lock of its node; what consensus answers, and
what other nodes do meanwhile, is left open. Completed operations are kept in a
ledger and replayed.
-/

namespace Rhiza.Node.Admin

open Core Library

structure SuccessorBundle where
  configId : Nat
  members : List NodeId
  digest : LogHash
  deriving DecidableEq

structure StopInformation where
  version : Nat
  entry : LogEntry
  proof : Quepaxa.DecisionProof
  deriving DecidableEq

structure StopRequest where
  operationId : String
  expectedConfigId : Nat
  successor : SuccessorBundle
  deriving DecidableEq

structure InstallSuccessorRequest where
  operationId : String
  expectedConfigId : Nat
  expectedStoppedAnchor : LogAnchor
  oldMembers : List NodeId
  stop : StopInformation
  successor : SuccessorBundle
  deriving DecidableEq

structure ActivateRequest where
  operationId : String
  expectedConfigId : Nat
  deriving DecidableEq

inductive Request
  | stop (request : StopRequest)
  | installSuccessor (request : InstallSuccessorRequest)
  | activate (request : ActivateRequest)
  deriving DecidableEq

def Request.operationId : Request → String
  | stop request => request.operationId
  | installSuccessor request => request.operationId
  | activate request => request.operationId

inductive ErrorCode
  | invalidRequest
  | operationConflict
  | preconditionFailed
  | unavailable
  | internal
  deriving DecidableEq

inductive Body
  | stop (operationId : String) (stop : StopInformation) (successor : SuccessorBundle)
  | installSuccessor (operationId : String) (configId : Nat) (digest : LogHash)
      (activated : Bool)
  | activate (operationId : String) (entry : LogEntry)
  | error (code : ErrorCode)
  deriving DecidableEq

inductive OperationError
  | invalidRequest (message : String)
  | preconditionFailed (message : String)
  | configurationTransition (state : ConfigurationState)
  | unavailable (message : String)
  | storage (message : String)
  | reconciliation (message : String)
  | invariant (message : String)
  | fatal (message : String)
  deriving DecidableEq

abbrev Outcome := Except OperationError

/-- `node_admin_status`. -/
def OperationError.status : OperationError → Nat × ErrorCode
  | invalidRequest _ => (400, .invalidRequest)
  | preconditionFailed _ => (409, .preconditionFailed)
  | configurationTransition _ => (409, .preconditionFailed)
  | unavailable _ => (503, .unavailable)
  | storage _ => (500, .internal)
  | reconciliation _ => (500, .internal)
  | invariant _ => (500, .internal)
  | fatal _ => (500, .internal)

structure OperationRecord where
  fingerprint : Request
  status : Nat
  body : Body
  deriving DecidableEq

/-- The record that `store_result` makes. -/
def OperationRecord.of (request : Request) : Outcome Body → OperationRecord
  | .ok body => ⟨request, 200, body⟩
  | .error error => ⟨request, error.status.1, .error error.status.2⟩

abbrev Ledger := List (String × OperationRecord)

def replay (ledger : Ledger) (request : Request) : Option (Nat × Body) :=
  (ledger.lookup request.operationId).map fun record =>
    if record.fingerprint = request then (record.status, record.body)
    else (409, .error .operationConflict)

/-- `validate_operation_id`, where trimming leaves nothing of blanks. -/
def validOperationId (operationId : String) : Bool :=
  ¬ operationId.toList.all isWhitespace ∧ (utf8 operationId).length ≤ 256

/-- The open runtime of a node. `ready` is lowered by every error that is latched;
`acceptsCommand` is the profile's check of the payload of a command. -/
structure Runtime where
  clusterId : ClusterId
  epoch : Nat
  consensusConfigId : Nat
  membership : Quepaxa.Membership
  acceptsCommand : Bytes → Bool
  predecessorStopEntry : Option LogEntry
  configuration : ConfigurationState
  root : LogAnchor
  log : List LogEntry
  ready : Bool

namespace Runtime

def tip (n : Runtime) : LogAnchor :=
  match n.log.getLast? with
  | some entry => ⟨entry.index, entry.hash⟩
  | none => n.root

def latch (n : Runtime) : Runtime := { n with ready := false }

def append (n : Runtime) (entry : LogEntry) (next : ConfigurationState) : Runtime :=
  { n with log := n.log ++ [entry], configuration := next }

def ensureReady (n : Runtime) : Outcome Unit :=
  if n.ready then .ok () else .error (.fatal "fatal state is latched")

def ensureWritesActive (n : Runtime) : Outcome Unit :=
  if n.configuration.isActive then .ok ()
  else .error (.configurationTransition n.configuration)

def require (check : Bool) (error : OperationError) : Outcome Unit :=
  if check then .ok () else .error error

@[simp] theorem require_eq_ok {check : Bool} {error : OperationError} :
    require check error = .ok () ↔ check := by
  cases check <;> simp [require]

def maxCommandBytes : Nat := 512 * 1024

section Checks

variable [Sha256]

/-- `validate_entry_shape` and the profile's own check. -/
def validEntryShape (n : Runtime) (entry : LogEntry) : Bool :=
  match entry.entryType with
  | .command => entry.payload.length ≤ maxCommandBytes ∧ n.acceptsCommand entry.payload
  | .noop => entry.payload.isEmpty
  | .configChange => (ConfigChange.recognize ⟨.configChange, entry.payload⟩).isSome
  | _ => false

def validateEntryEnvelope (n : Runtime) (entry : LogEntry) (expectedIndex : Nat)
    (expectedPrevHash : LogHash) : Outcome Unit := do
  require (entry.index = expectedIndex) (.reconciliation "unexpected decision index")
  require (entry.clusterId = n.clusterId ∧ entry.epoch = n.epoch)
    (.reconciliation "decision has a foreign identity")
  require (entry.prevHash = expectedPrevHash)
    (.reconciliation "decision has a conflicting predecessor")
  require (entry.recomputeHash = entry.hash) (.reconciliation "decision has an invalid hash")
  require (n.validEntryShape entry) (.invariant "unsupported runtime entry")

/-- `validate_runtime_entry`, with the configuration that the entry leads to. -/
def validateRuntimeEntry (n : Runtime) (entry : LogEntry) (expectedIndex : Nat)
    (expectedPrevHash : LogHash) : Outcome ConfigurationState := do
  n.validateEntryEnvelope entry expectedIndex expectedPrevHash
  match n.configuration.validateEntry entry with
  | .ok next => .ok next
  | .error _ => .error (.reconciliation "invalid configuration transition")

inductive PersistFault
  | append
  | apply
  deriving DecidableEq

def persistEntry (n : Runtime) (fault : Option PersistFault) (entry : LogEntry)
    (expectedIndex : Nat) (expectedPrevHash : LogHash) : Runtime × Outcome Unit :=
  match n.validateRuntimeEntry entry expectedIndex expectedPrevHash with
  | .error error => (n.latch, .error error)
  | .ok next =>
    match fault with
    | none => (n.append entry next, .ok ())
    | some .append => (n.latch, .error (.storage "qlog append failed"))
    | some .apply => ((n.append entry next).latch, .error (.invariant "entry was not applied"))

/-- `Membership::from_voters`, with the error that the admin surface gives it. -/
def fromVoters (members : List NodeId) (message : String) : Outcome Quepaxa.Membership :=
  match Quepaxa.Membership.fromMembers members with
  | .ok membership => .ok membership
  | .error _ => .error (.invalidRequest message)

def validateSuccessor (bundle : SuccessorBundle) (predecessorConfigId : Nat)
    (clusterId : ClusterId) : Outcome Quepaxa.Membership := do
  let membership ← fromVoters bundle.members "successor membership is invalid"
  require (checkedSucc predecessorConfigId = some bundle.configId ∧
      membership.digest = bundle.digest ∧ clusterId ≠ "")
    (.preconditionFailed "successor descriptor does not match the active configuration")
  .ok membership

/-- The command of `stop_current_configuration_locked`: it stops the configuration
that the log is in. -/
def stopCommand (n : Runtime) (successor : Quepaxa.Membership) : Outcome StoredCommand := do
  n.ensureReady
  n.ensureWritesActive
  match checkedSucc n.configuration.configId with
  | none => .error (.invariant "successor config id is exhausted")
  | some nextConfigId =>
    match ConfigChange.newBoundStop n.clusterId n.configuration.configId n.configuration.digest
        nextConfigId successor.members with
    | some change => .ok change.toStoredCommand
    | none => .error (.invariant "invalid configuration change")

/-- The part of `handle_stop` before its first proposal. -/
def prepareStop (n : Runtime) (request : StopRequest) : Outcome StoredCommand := do
  let successor ← validateSuccessor request.successor request.expectedConfigId n.clusterId
  n.stopCommand successor

def successorFromEntry (entry : LogEntry) : Outcome SuccessorBundle :=
  match (ConfigChange.recognize ⟨entry.entryType, entry.payload⟩).bind
      ConfigChange.successor? with
  | some successor => .ok ⟨successor.configId, successor.members, successor.digest⟩
  | none => .error (.preconditionFailed "legacy unbound Stop is rejected")

def readAt (n : Runtime) (index : Nat) : Option LogEntry :=
  n.log.find? fun entry => entry.index = index

/-- The checks of `install_successor` against the runtime, with the membership that
the recorder is asked to install. -/
def checkInstall (n : Runtime) (request : InstallSuccessorRequest) :
    Outcome Quepaxa.Membership := do
  n.ensureReady
  require (¬ n.configuration.isActive ∧ n.configuration.configId = request.expectedConfigId ∧
      n.configuration.stop? = some request.expectedStoppedAnchor)
    (.preconditionFailed "stopped configuration anchor does not match")
  let oldMembership ← fromVoters request.oldMembers "old membership is invalid"
  let entry := request.stop.entry
  require (oldMembership.digest = n.configuration.digest ∧ entry.clusterId = n.clusterId ∧
      entry.epoch = n.epoch ∧ entry.configId = request.expectedConfigId ∧
      entry.index = request.expectedStoppedAnchor.index ∧
      entry.hash = request.expectedStoppedAnchor.hash)
    (.preconditionFailed "old decision material does not match the stopped runtime")
  require (n.readAt entry.index = some entry)
    (.preconditionFailed "old stop entry is not the exact local qlog entry")
  let successor ← fromVoters request.successor.members "successor membership is invalid"
  let recorded ← successorFromEntry entry
  require (successor.digest = request.successor.digest ∧
      checkedSucc request.expectedConfigId = some request.successor.configId ∧
      recorded = request.successor)
    (.preconditionFailed "successor bundle or digest does not match")
  require (request.stop.version = 2 ∧
      checkedSucc entry.configId = some request.successor.configId)
    (.preconditionFailed "successor identity does not match the Stop proof")
  .ok successor

/-- `recover_stop_entry`; the last resort is what consensus still knows. -/
def recoverStopEntry (n : Runtime) (inspected : Outcome LogEntry) (stop : LogAnchor) :
    Outcome LogEntry :=
  match (n.readAt stop.index).filter fun entry => entry.hash = stop.hash with
  | some entry => .ok entry
  | none =>
    match n.predecessorStopEntry.filter fun entry =>
        entry.index = stop.index ∧ entry.hash = stop.hash with
    | some entry => do
      n.validateEntryEnvelope entry entry.index entry.prevHash
      .ok entry
    | none => do
      let entry ← inspected
      require (entry.hash = stop.hash)
        (.reconciliation "Stop decision differs from compacted anchor")
      .ok entry

/-- The checks of `activate_successor_locked` and the stop that the barrier follows. -/
def prepareActivation (n : Runtime) (inspected : Outcome LogEntry) (request : ActivateRequest) :
    Outcome (LogAnchor × LogEntry) := do
  n.ensureReady
  match n.configuration.stop? with
  | none => .error (.configurationTransition n.configuration)
  | some stop => do
    require (n.configuration.configId ≠ n.consensusConfigId)
      (.configurationTransition n.configuration)
    match checkedSucc n.configuration.configId with
    | none => .error (.invariant "successor configuration id is exhausted")
    | some successorConfigId => do
      require (request.expectedConfigId = successorConfigId)
        (.preconditionFailed "successor configuration does not match expected_config_id")
      let entry ← n.recoverStopEntry inspected stop
      .ok (stop, entry)

/-- The barrier that `propose_activation_for_stop_entry` offers, if the stop names the
configuration that the node runs in. -/
def activationBarrier (n : Runtime) (stop : LogEntry) : Option StoredCommand := do
  let command : StoredCommand := ⟨stop.entryType, stop.payload⟩
  let change ← ConfigChange.recognize command
  let successor ← change.successor?
  if successor.clusterId = n.clusterId ∧ successor.configId = n.consensusConfigId ∧
      successor.digest = n.membership.digest ∧ successor.members = n.membership.members then
    some (ConfigChange.boundActivationBarrier successor stop.index stop.hash
      command.hash).toStoredCommand
  else none

end Checks

end Runtime

inductive Task
  /-- At the head of the loop of `stop_current_configuration_locked`. -/
  | stopping (request : StopRequest) (command : StoredCommand)
  /-- The stop is proposed at the slot. -/
  | stopProposed (request : StopRequest) (command : StoredCommand) (slot : Nat)
      (prevHash : LogHash)
  /-- The stop is persisted and its proof is asked for. -/
  | proving (request : StopRequest) (entry : LogEntry)
  /-- The barrier is proposed in the slot after the stop. -/
  | barrierProposed (request : ActivateRequest) (slot : Nat) (prevHash : LogHash)

def Task.request : Task → Request
  | .stopping request _ => .stop request
  | .stopProposed request _ _ _ => .stop request
  | .proving request _ => .stop request
  | .barrierProposed request _ _ => .activate request

/-- `ledger` is what the process holds, and is given up when it cannot be written;
`ledgerFile` is what a later process reads. -/
structure Member where
  runtime : Runtime
  recorder : Quepaxa.Recorder
  ledger : Option Ledger
  ledgerFile : Ledger
  task : Option Task

inductive Happening
  | stopProposed (request : StopRequest) (configuration : ConfigurationState)
      (command : StoredCommand)
  | barrierWritten (request : ActivateRequest) (entry : LogEntry)
  | recorderCalled (request : InstallSuccessorRequest) (before after : Quepaxa.Recorder)
  | answered (request : Request) (status : Nat) (body : Body)

structure Effect where
  node : Member
  finished : Option (Request × Outcome Body)
  shown : Option Happening

namespace Member

def finish (n : Member) (request : Request) (result : Outcome Body) : Effect :=
  ⟨{ n with task := none }, some (request, result), none⟩

section Operations

variable [Sha256]

/-- `handle_stop` after it has the commit lock. -/
def beginStop (n : Member) (request : StopRequest) : Effect :=
  match n.runtime.prepareStop request with
  | .error error => n.finish (.stop request) (.error error)
  | .ok command => ⟨{ n with task := some (.stopping request command) }, none, none⟩

def installSuccessor (n : Member) (conduct : Quepaxa.Conduct) (request : InstallSuccessorRequest) :
    Effect :=
  match n.runtime.checkInstall request with
  | .error error => n.finish (.installSuccessor request) (.error error)
  | .ok membership =>
    let (recorder, reply) := n.recorder.installSuccessor conduct membership request.stop.proof
    let result : Outcome Body := match reply with
      | .ok installed => .ok (.installSuccessor request.operationId installed.configId
          installed.configDigest installed.activated)
      | .error _ => .error (.reconciliation "successor was not installed")
    ⟨{ n with recorder := recorder, task := none }, some (.installSuccessor request, result),
      some (.recorderCalled request n.recorder recorder)⟩

/-- `activate_successor_locked` up to its proposal. A barrier that consensus refuses
to offer is a latched error. -/
def beginActivate (n : Member) (inspected : Outcome LogEntry) (request : ActivateRequest) :
    Effect :=
  match n.runtime.prepareActivation inspected request with
  | .error error => n.finish (.activate request) (.error error)
  | .ok (stop, entry) =>
    match n.runtime.activationBarrier entry with
    | none => { n with runtime := n.runtime.latch }.finish (.activate request)
        (.error (.invariant "invalid transition"))
    | some _ => ⟨{ n with
        task := some (.barrierProposed request (stop.index + 1) stop.hash) }, none, none⟩

omit [Sha256] in
def propose (n : Member) : Option Effect :=
  match n.task with
  | some (.stopping request command) =>
    some (match checkedSucc n.runtime.tip.index with
      | none => n.finish (.stop request) (.error (.invariant "qlog index is exhausted"))
      | some slot => ⟨{ n with
          task := some (.stopProposed request command slot n.runtime.tip.hash) }, none,
          some (.stopProposed request n.runtime.configuration command)⟩)
  | _ => none

def stopDecided (n : Member) (fault : Option Runtime.PersistFault) (request : StopRequest)
    (command : StoredCommand) (slot : Nat) (prevHash : LogHash) (entry : LogEntry) : Effect :=
  match n.runtime.persistEntry fault entry slot prevHash with
  | (runtime, .error error) => { n with runtime := runtime }.finish (.stop request) (.error error)
  | (runtime, .ok ()) =>
    if (⟨entry.entryType, entry.payload⟩ : StoredCommand) = command then
      ⟨{ n with runtime := runtime, task := some (.proving request entry) }, none, none⟩
    else if runtime.configuration.isActive then
      ⟨{ n with runtime := runtime, task := some (.stopping request command) }, none, none⟩
    else { n with runtime := runtime }.finish (.stop request)
      (.error (.configurationTransition runtime.configuration))

def barrierDecided (n : Member) (fault : Option Runtime.PersistFault) (request : ActivateRequest)
    (slot : Nat) (prevHash : LogHash) (entry : LogEntry) : Effect :=
  match n.runtime.persistEntry fault entry slot prevHash with
  | (runtime, .error error) =>
    { n with runtime := runtime }.finish (.activate request) (.error error)
  | (runtime, .ok ()) =>
    ⟨{ n with runtime := runtime, task := none },
      some (.activate request, .ok (.activate request.operationId entry)),
      some (.barrierWritten request entry)⟩

def decided (n : Member) (fault : Option Runtime.PersistFault) (entry : LogEntry) :
    Option Effect :=
  match n.task with
  | some (.stopProposed request command slot prevHash) =>
    some (n.stopDecided fault request command slot prevHash entry)
  | some (.barrierProposed request slot prevHash) =>
    some (n.barrierDecided fault request slot prevHash entry)
  | _ => none

omit [Sha256] in
/-- The end of `stop_current_configuration_locked`. -/
def proved (n : Member) (proof : Option Quepaxa.DecisionProof) : Option Effect :=
  match n.task with
  | some (.proving request entry) =>
    some (match proof with
      | none => n.finish (.stop request)
          (.error (.unavailable "durable Stop proof is unavailable"))
      | some proof =>
        if proof.proposal.value.map (·.entryHash) = some entry.hash then
          n.finish (.stop request)
            (.ok (.stop request.operationId ⟨2, entry, proof⟩ request.successor))
        else { n with runtime := n.runtime.latch }.finish (.stop request)
          (.error (.reconciliation "Stop proof differs from committed stop entry")))
  | _ => none

omit [Sha256] in
/-- An operation that gives up: consensus or storage returned an error. -/
def refused (n : Member) (error : OperationError) (latched : Bool) : Option Effect :=
  n.task.map fun task =>
    { n with runtime := if latched then n.runtime.latch else n.runtime }.finish
      task.request (.error error)

/-- Another path of the node persists an entry under the commit lock. -/
def learn (n : Member) (fault : Option Runtime.PersistFault) (entry : LogEntry) :
    Option Effect :=
  if n.task.isNone then
    some ⟨{ n with runtime := (n.runtime.persistEntry fault entry (n.runtime.tip.index + 1)
      n.runtime.tip.hash).1 }, none, none⟩
  else none

end Operations

end Member

inductive RecorderCall
  | record (conduct : Quepaxa.Conduct) (request : Quepaxa.RecordRequest)
  | installDecisionProof (conduct : Quepaxa.Conduct) (proof : Quepaxa.DecisionProof)
      (membership : Quepaxa.Membership)
  | occur (event : Quepaxa.RecorderEvent)

def RecorderCall.on [Sha256] (recorder : Quepaxa.Recorder) : RecorderCall → Quepaxa.Recorder
  | record conduct request => (recorder.record conduct request).1
  | installDecisionProof conduct proof membership =>
    (recorder.installDecisionProof conduct proof membership).1
  | occur event => recorder.occur event

/-- The nodes with the operations that were started and not yet run, and those that
were run and are not yet in the ledger. -/
structure World where
  nodes : NodeId → Member
  spawned : List (NodeId × Request)
  results : List (NodeId × Request × Outcome Body)
  happenings : List Happening

inductive LedgerWrite
  | done
  | failed
  | failedAfterRename
  deriving DecidableEq

inductive LedgerRead
  | found
  | absent
  | unreadable
  deriving DecidableEq

inductive Event
  /-- A request arrives: it is answered from the ledger, or its operation is started. -/
  | submit (k : NodeId) (request : Request)
  /-- A started operation gets the commit lock. -/
  | begin (position : Nat) (conduct : Quepaxa.Conduct) (inspected : Outcome LogEntry)
  | propose (k : NodeId)
  | decided (k : NodeId) (fault : Option Runtime.PersistFault) (entry : LogEntry)
  | proved (k : NodeId) (proof : Option Quepaxa.DecisionProof)
  | refused (k : NodeId) (error : OperationError) (latched : Bool)
  /-- A result goes into the ledger. -/
  | store (position : Nat) (write : LedgerWrite)
  | learn (k : NodeId) (fault : Option Runtime.PersistFault) (entry : LogEntry)
  | recorder (k : NodeId) (call : RecorderCall)
  /-- Some path of the node fails for good. -/
  | latch (k : NodeId)
  /-- The process is started again, with what it finds on its disk or restores. -/
  | reopen (k : NodeId) (runtime : Runtime) (read : LedgerRead)

namespace World

def start (runtimes : NodeId → Runtime) (recorders : NodeId → Quepaxa.Recorder) : World where
  nodes k := ⟨runtimes k, recorders k, some [], [], none⟩
  spawned := []
  results := []
  happenings := []

def setNode (w : World) (k : NodeId) (node : Member) : World :=
  { w with nodes := Function.update w.nodes k node }

def apply (w : World) (k : NodeId) (effect : Effect) : World where
  nodes := Function.update w.nodes k effect.node
  spawned := w.spawned
  results := effect.finished.toList.map (fun finished => (k, finished)) ++ w.results
  happenings := effect.shown.toList ++ w.happenings

def answer (w : World) (request : Request) (status : Nat) (body : Body) : World :=
  { w with happenings := .answered request status body :: w.happenings }

/-- `run_async_operation` up to the start of the operation. A client whose operation
was run gets its answer in the same way. -/
def submit (w : World) (k : NodeId) (request : Request) : World :=
  match (w.nodes k).ledger with
  | none => w.answer request 503 (.error .unavailable)
  | some ledger =>
    match replay ledger request with
    | some (status, body) => w.answer request status body
    | none =>
      if validOperationId request.operationId then
        { w with spawned := (k, request) :: w.spawned }
      else w.answer request 400 (.error .invalidRequest)

/-- `store_result` and `persist_operations` at a node. -/
def storeAt (n : Member) (request : Request) (result : Outcome Body) (write : LedgerWrite) :
    Member :=
  match n.ledger with
  | none => n
  | some ledger =>
    let stored := (request.operationId, OperationRecord.of request result) :: ledger
    match write with
    | .done => { n with ledger := some stored, ledgerFile := stored }
    | .failed => { n with ledger := none }
    | .failedAfterRename => { n with ledger := none, ledgerFile := stored }

/-- A new process at a node, with `load_operations`. -/
def reopenAt (n : Member) (runtime : Runtime) (read : LedgerRead) : Member where
  runtime := runtime
  recorder := n.recorder
  ledger := match read with
    | .found => some n.ledgerFile
    | .absent => some []
    | .unreadable => none
  ledgerFile := n.ledgerFile
  task := none

def reopen (w : World) (k : NodeId) (runtime : Runtime) (read : LedgerRead) : World where
  nodes := Function.update w.nodes k (reopenAt (w.nodes k) runtime read)
  spawned := w.spawned.filter fun operation => operation.1 ≠ k
  results := w.results.filter fun result => result.1 ≠ k
  happenings := w.happenings

variable [Sha256]

def begin (n : Member) (conduct : Quepaxa.Conduct) (inspected : Outcome LogEntry) :
    Request → Effect
  | .stop request => n.beginStop request
  | .installSuccessor request => n.installSuccessor conduct request
  | .activate request => n.beginActivate inspected request

def step (w : World) : Event → Option World
  | .submit k request => some (w.submit k request)
  | .begin position conduct inspected => do
    let (k, request) ← w.spawned[position]?
    if (w.nodes k).task.isNone then
      some ({ w with spawned := w.spawned.eraseIdx position }.apply k
        (begin (w.nodes k) conduct inspected request))
    else none
  | .propose k => (w.nodes k).propose.map (w.apply k)
  | .decided k fault entry => ((w.nodes k).decided fault entry).map (w.apply k)
  | .proved k proof => ((w.nodes k).proved proof).map (w.apply k)
  | .refused k error latched => ((w.nodes k).refused error latched).map (w.apply k)
  | .store position write => do
    let (k, request, result) ← w.results[position]?
    some ({ w with results := w.results.eraseIdx position }.setNode k
      (storeAt (w.nodes k) request result write))
  | .learn k fault entry => ((w.nodes k).learn fault entry).map (w.apply k)
  | .recorder k call => some (w.setNode k
      { w.nodes k with recorder := call.on (w.nodes k).recorder })
  | .latch k => some (w.setNode k { w.nodes k with runtime := (w.nodes k).runtime.latch })
  | .reopen k runtime read => some (w.reopen k runtime read)

end World

end Rhiza.Node.Admin
