import Rhiza.Archive.Whole

/-! # Checkpoint coordinators

Every node keeps a local log and flushes it to the shared archive. A checkpoint
flushes the log, publishes a snapshot, reads it back and then cuts the local log. The
steps of several calls, nodes and archive operations come in any order.
-/

namespace Rhiza.Node.Coordinator

open Core Archive Library

def flushBatchEntries : Nat := 32

inductive DurabilityError
  | unavailable
  | archiveAheadOfLocal (durableIndex localIndex : Nat)
  | snapshotRequired (anchor : RecoveryAnchor)
  | localLogGap (expected : Nat) (actual : Option Nat)
  | localLogConflict (index : Nat)
  | snapshotVerification (message : String)
  | archive (error : Archive.Error)
  | log (message : String)
  deriving DecidableEq

structure LocalLog where
  clusterId : ClusterId
  epoch : Nat
  initial : ConfigurationState
  anchor : Option RecoveryAnchor
  entries : List LogEntry

namespace LocalLog

def base (log : LocalLog) : LogAnchor :=
  match log.anchor with
  | some anchor => anchor.compacted
  | none => ⟨0, .zero⟩

def tip (log : LocalLog) : LogAnchor :=
  match log.entries.getLast? with
  | some last => ⟨last.index, last.hash⟩
  | none => log.base

def readRange (log : LocalLog) (start last : Nat) : List LogEntry :=
  log.entries.filter fun entry => start ≤ entry.index ∧ entry.index ≤ last

section Compaction

variable [Sha256]

/-- The loop of `configuration_state_at`. -/
def configurationFrom (target : Nat) : ConfigurationState → Bool → List LogEntry →
    Except String ConfigurationState
  | state, found, [] => if found then .ok state else .error "compaction target is above tip"
  | state, found, entry :: entries =>
    if target < entry.index then
      if found then .ok state else .error "compaction target is above tip"
    else
      match state.validateEntry entry with
      | .error _ => .error "invalid configuration transition"
      | .ok next => configurationFrom target next (entry.index = target) entries

def configurationStateAt (log : LocalLog) (target : Nat) : Except String ConfigurationState :=
  let state := (log.anchor.map (·.configurationState)).getD log.initial
  if target = log.base.index then .ok state
  else configurationFrom target state false log.entries

/-- `validate_anchor` and `validate_anchor_identity`. -/
def validAnchor (log : LocalLog) (anchor : RecoveryAnchor) : Bool :=
  (anchor.formatVersion = 1 ∨ anchor.formatVersion = 2) ∧ anchor.clusterId ≠ "" ∧
    anchor.recoveryGeneration ≠ 0 ∧ anchor.compacted.index ≠ 0 ∧ anchor.snapshotSizeBytes ≠ 0 ∧
    anchor.configurationState.configId = anchor.configId ∧
    anchor.configurationState.stop?.all (· = anchor.compacted) ∧
    anchor.clusterId = log.clusterId ∧ anchor.epoch = log.epoch

/-- `validate_compaction`: whether there is something to cut. -/
def validateCompaction (log : LocalLog) (anchor : RecoveryAnchor) : Except String Bool :=
  let target := anchor.compacted.index
  if ¬ log.validAnchor anchor then .error "invalid recovery anchor"
  else if log.tip.index < target then .error "compaction target is above tip"
  else
    match log.configurationStateAt target with
    | .error message => .error message
    | .ok state =>
      if state ≠ anchor.configurationState then .error "compaction conflict"
      else if log.anchor.any fun current => target < current.compacted.index then
        .error "compaction regression"
      else if log.anchor.any fun current => target = current.compacted.index then
        if log.anchor = some anchor then .ok false else .error "compaction conflict"
      else if log.anchor.any fun current =>
          anchor.recoveryGeneration ≠ current.recoveryGeneration then
        .error "compaction conflict"
      else
        match log.entries.find? fun entry => entry.index = target with
        | none => .error "compaction target is above tip"
        | some entry =>
          if entry.hash ≠ anchor.compacted.hash then .error "compaction hash mismatch"
          else .ok true

def compactPrefix (log : LocalLog) (anchor : RecoveryAnchor) : Except String LocalLog :=
  match log.validateCompaction anchor with
  | .error message => .error message
  | .ok false => .ok log
  | .ok true => .ok { log with
      anchor := some anchor
      entries := log.entries.filter fun entry => anchor.compacted.index < entry.index }

end Compaction

end LocalLog

structure Member where
  log : LocalLog
  durableTip : CheckpointTip

def Member.markDurable (node : Member) (tip : CheckpointTip) : Member :=
  if node.durableTip.index < tip.index then { node with durableTip := tip } else node

inductive Task
  /-- `confirm_write_durability` in `Sync` mode. -/
  | confirm (index : Nat)
  /-- `flush_runtime`. -/
  | flush (index : Nat)
  /-- `checkpoint_compact`, after its snapshot was created. -/
  | checkpoint (anchor : RecoveryAnchor) (bytes : Bytes)
  deriving DecidableEq

def Task.isCheckpoint : Task → Bool
  | checkpoint _ _ => true
  | _ => false

inductive CallPhase
  /-- The start of `flush_runtime_inner`. -/
  | flushing (target : Nat)
  /-- The head of its loop. -/
  | batching (durableTip : CheckpointTip) (target : Nat)
  /-- A batch is with the publisher, and after `drive_flushes` with a call of the archive. -/
  | publishing (target : Nat) (entries : List LogEntry) (position : Option Nat)
  | answered (target : Nat) (result : Result CheckpointManifest)
  /-- The log is flushed, and the snapshot is published next. -/
  | flushed
  | snapshotting (position : Nat)
  | restoring (position : Nat)
  | verifying (restored : RestoredCheckpoint)
  | returned (result : Except DurabilityError Unit)

structure Call where
  node : Nat
  task : Task
  phase : CallPhase

structure Cluster where
  world : World
  nodes : Nat → Member
  calls : List Call

inductive Event
  /-- An operation of the archive, also for callers that are no node of the cluster. -/
  | archive (event : Archive.Event)
  | write (node : Nat) (entry : LogEntry)
  /-- The coordinator of a node is opened or refreshed from the cache of its publisher. -/
  | observe (node : Nat)
  | begin (node : Nat) (task : Task)
  /-- `drive_flushes` takes the batches that wait. -/
  | drive (node : Nat)
  | advance (call : Nat)
  | crash (node : Nat)
  /-- A node with an empty log installs what was restored. -/
  | install (node : Nat) (restored : RestoredCheckpoint)

namespace Cluster

def start (world : World) (logs : Nat → LocalLog) : Cluster where
  world := world
  nodes node := ⟨logs node, ⟨0, .zero⟩⟩
  calls := []

def setPhase (w : Cluster) (position : Nat) (call : Call) (phase : CallPhase) : Cluster :=
  { w with calls := w.calls.set position { call with phase := phase } }

def setNode (w : Cluster) (id : Nat) (node : Member) : Cluster :=
  { w with nodes := Function.update w.nodes id node }

def phaseAt (world : World) (place : Nat) : Option Phase := world.processes[place]?.map (·.phase)

variable [Sha256] (archive : ObjectArchiveStore)

/-- `validate_local_batch`, entry by entry. -/
def validateEntries : Nat → LogHash → List LogEntry → Except DurabilityError Unit
  | _, _, [] => .ok ()
  | expectedIndex, expectedHash, entry :: entries =>
    if entry.index ≠ expectedIndex then .error (.localLogGap expectedIndex (some entry.index))
    else if entry.prevHash ≠ expectedHash ∨ entry.recomputeHash ≠ entry.hash then
      .error (.localLogConflict entry.index)
    else validateEntries (expectedIndex + 1) entry.hash entries

def firstMisplaced : Nat → List LogEntry → Option Nat
  | _, [] => none
  | expected, entry :: entries =>
    if entry.index ≠ expected then some entry.index else firstMisplaced (expected + 1) entries

def validateLocalBatch (entries : List LogEntry) (start last : Nat) (durableTip : CheckpointTip) :
    Except DurabilityError Unit :=
  if entries.length ≠ last - start + 1 then
    .error (.localLogGap (start + entries.length) (firstMisplaced start entries))
  else validateEntries start durableTip.hash entries

/-- What a task does when its flush has returned. A confirmation tries again after an
error of the archive. -/
def afterFlush (task : Task) (result : Except DurabilityError CheckpointTip) : CallPhase :=
  match task, result with
  | .confirm index, .ok tip =>
    if index ≤ tip.index then .returned (.ok ())
    else .returned (.error (.localLogGap index (some tip.index)))
  | .confirm index, .error (.archive _) => .flushing index
  | .flush _, .ok _ => .returned (.ok ())
  | .checkpoint _ _, .ok _ => .flushed
  | _, .error error => .returned (.error error)

/-- The start of `flush_runtime_inner`. -/
def beginFlush (node : Member) (task : Task) (target : Nat) : CallPhase :=
  let localIndex := node.log.tip.index
  if localIndex < node.durableTip.index then
    afterFlush task (.error (.archiveAheadOfLocal node.durableTip.index localIndex))
  else if min target localIndex ≤ node.durableTip.index then afterFlush task (.ok node.durableTip)
  else
    match node.log.anchor with
    | none => .batching node.durableTip (min target localIndex)
    | some anchor =>
      if node.durableTip.index < anchor.compacted.index then
        afterFlush task (.error (.snapshotRequired anchor))
      else .batching node.durableTip (min target localIndex)

/-- The head of the loop of `flush_runtime_inner` with the checks of `publish_committed`. -/
def publishBatch (node : Member) (task : Task) (durableTip : CheckpointTip) (target : Nat) :
    CallPhase :=
  match checkedSucc durableTip.index with
  | none => afterFlush task (.error (.localLogGap durableTip.index none))
  | some next =>
    if next ≤ target then
      let last := min (next + (flushBatchEntries - 1)) target
      let entries := node.log.readRange next last
      match validateLocalBatch entries next last durableTip with
      | .error error => afterFlush task (.error error)
      | .ok () =>
        match archive.validatePublicationEntries none entries with
        | .error error => .answered target (.error error)
        | .ok () => .publishing target entries none
    else afterFlush task (.ok durableTip)

def finishCheckpoint (node : Member) (anchor : RecoveryAnchor) (bytes : Bytes)
    (restored : RestoredCheckpoint) : Except DurabilityError Member :=
  match restored.snapshot with
  | none => .error (.snapshotVerification "published V2 root has no snapshot")
  | some published =>
    if published ≠ (anchor, bytes) then
      .error (.snapshotVerification "read-back anchor or snapshot bytes differ")
    else
      match node.log.compactPrefix anchor with
      | .error message => .error (.log message)
      | .ok log => .ok ({ node with log := log }.markDurable
          ⟨anchor.compacted.index, anchor.compacted.hash⟩)

/-- The next step of a call of a node. A call that waits for the archive sees that the
archive has failed, or that a snapshot is published. -/
def advance (w : Cluster) (position : Nat) (call : Call) : Option Cluster :=
  let node := w.nodes call.node
  match call.phase with
  | .flushing target => some (w.setPhase position call (beginFlush node call.task target))
  | .batching durableTip target =>
    some (w.setPhase position call (publishBatch archive node call.task durableTip target))
  | .publishing target _ (some place) =>
    match phaseAt w.world place with
    | some (.finished (.error error)) =>
      some (w.setPhase position call (.answered target (.error error)))
    | _ => none
  | .publishing _ _ none => none
  | .answered _ (.error error) =>
    some (w.setPhase position call (afterFlush call.task (.error (.archive error))))
  | .answered target (.ok manifest) =>
    let w := w.setNode call.node (node.markDurable manifest.tip)
    if target ≤ manifest.tip.index then
      some (w.setPhase position call (afterFlush call.task (.ok manifest.tip)))
    else some (w.setPhase position call (.batching manifest.tip target))
  | .flushed =>
    match call.task with
    | .checkpoint anchor bytes =>
      match World.step archive w.world (.publisherSnapshot call.node anchor bytes) with
      | none => some (w.setPhase position call (.returned (.error .unavailable)))
      | some world => some ({ w with world := world }.setPhase position call
          (.snapshotting w.world.processes.length))
    | _ => none
  | .snapshotting place =>
    match phaseAt w.world place with
    | some (.finished (.error error)) =>
      some (w.setPhase position call (.returned (.error (.archive error))))
    | some (.finished (.ok ())) =>
      match World.step archive w.world (.call .restore) with
      | none => none
      | some world => some ({ w with world := world }.setPhase position call
          (.restoring w.world.processes.length))
    | _ => none
  | .restoring place =>
    match phaseAt w.world place with
    | some (.finished (.error error)) =>
      some (w.setPhase position call (.returned (.error (.archive error))))
    | _ => none
  | .verifying restored =>
    match call.task with
    | .checkpoint anchor bytes =>
      match finishCheckpoint node anchor bytes restored with
      | .error error => some (w.setPhase position call (.returned (.error error)))
      | .ok node => some ((w.setNode call.node node).setPhase position call (.returned (.ok ())))
    | _ => none
  | .returned _ => none

/-- The answer of `drive_flushes` to one of its callers. -/
def told (objects : Objects) (loaded : CheckpointManifest) (entries : List LogEntry) :
    Result CheckpointManifest :=
  match archive.publicationSuffixStart objects loaded entries with
  | .ok none => .ok loaded
  | .ok (some _) => .error
      (.invalidCheckpoint "coalesced publication did not reach the requested index")
  | .error error => .error error

/-- What a call hears of a step of the archive: the answer to its batch, or what its
restore has found. -/
def hear (before after : World) (place : Nat) (call : Call) : Call :=
  match call.phase with
  | .publishing target entries (some waiting) =>
    match phaseAt before place with
    | some (.answering loaded (first :: _)) =>
      if waiting = place ∧ first = entries then
        { call with phase := .answered target (told archive before.objects loaded entries) }
      else call
    | _ => call
  | .restoring waiting =>
    match after.restores.head? with
    | some restored =>
      if waiting = place ∧ before.restores.length < after.restores.length then
        { call with phase := .verifying restored.1 }
      else call
    | none => call
  | _ => call

def hearEvent (before after : World) (event : Archive.Event) (call : Call) : Call :=
  match event with
  | .advance place _ => hear archive before after place call
  | _ => call

def pending (w : Cluster) (node : Nat) : List (List LogEntry) :=
  w.calls.filterMap fun call =>
    match call.phase with
    | .publishing _ entries none => if call.node = node then some entries else none
    | _ => none

def take (node place : Nat) (call : Call) : Call :=
  match call.phase with
  | .publishing target entries none =>
    if call.node = node then { call with phase := .publishing target entries (some place) }
    else call
  | _ => call

def stop (node : Nat) (call : Call) : Call :=
  if call.node = node then { call with phase := .returned (.error .unavailable) } else call

/-- Where a task starts. A checkpoint is about the tip of the log, and a node makes one at
a time. -/
def firstPhase (w : Cluster) (node : Nat) : Task → Option CallPhase
  | .confirm index => some (.flushing index)
  | .flush index => some (.flushing index)
  | .checkpoint anchor _ =>
    if anchor.compacted = (w.nodes node).log.tip ∧ w.calls.all fun call =>
        ¬ (call.node = node ∧ call.task.isCheckpoint ∧ ¬ call.phase matches .returned _) then
      some (.flushing anchor.compacted.index)
    else none

/-- The log that `install_restored_checkpoint` writes. -/
def installed (log : LocalLog) (restored : RestoredCheckpoint) : LocalLog :=
  { log with anchor := restored.snapshot.map (·.1), entries := restored.suffix }

def step (w : Cluster) : Event → Option Cluster
  | .archive event =>
    match World.step archive w.world event with
    | none => none
    | some world => some { w with
        world := world, calls := w.calls.map (hearEvent archive w.world world event) }
  | .write id entry =>
    let node := w.nodes id
    if entry.index = node.log.tip.index + 1 then
      some (w.setNode id { node with log := { node.log with entries := node.log.entries ++ [entry] } })
    else none
  | .observe id =>
    match w.world.publishers id with
    | none => none
    | some loaded => some (w.setNode id ((w.nodes id).markDurable loaded.tip))
  | .begin node task =>
    match w.firstPhase node task with
    | none => none
    | some phase => some { w with calls := w.calls ++ [⟨node, task, phase⟩] }
  | .drive node =>
    match World.step archive w.world (.flush node (w.pending node)) with
    | none => none
    | some world => some { w with
        world := world, calls := w.calls.map (take node w.world.processes.length) }
  | .advance position =>
    match w.calls[position]? with
    | none => none
    | some call => advance archive w position call
  | .crash node => some { w with calls := w.calls.map (stop node) }
  | .install id restored =>
    let node := w.nodes id
    if node.log.anchor.isNone ∧ node.log.entries = [] ∧
        w.world.restores.any fun found => found.1 = restored then
      some (w.setNode id { node with log := installed node.log restored })
    else none

end Cluster

end Rhiza.Node.Coordinator
