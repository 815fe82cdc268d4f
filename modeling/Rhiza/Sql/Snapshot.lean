import Mathlib.Data.List.Basic
import Rhiza.Sql.Apply

/-! # Snapshots of the control sidecar

A snapshot carries the replicated rows of one sidecar to another: the text of their
JSON behind its digest, with the receipts in the order of their ids. The receiving
sidecar takes all of them over in one transaction and keeps its own node id.
-/

namespace Rhiza.Sql

open Rhiza.Core Rhiza.Library

structure ReplicatedSnapshot where
  clusterId : ClusterId
  epoch : Nat
  configurationState : ConfigurationState
  recoveryGeneration : Nat
  materializerFingerprint : String
  userState : StateIdentity
  appliedTip : LogAnchor
  receipts : List RequestReceipt
  deriving DecidableEq

/-! The derived readers find the fields of a snapshot as they stand in the text. Only the reader
of a successor is written by hand: it makes the descriptor anew and compares. -/

structure SuccessorWire where
  clusterId : ClusterId
  predecessorConfigId : Nat
  predecessorConfigDigest : LogHash
  configId : Nat
  configDigest : LogHash
  members : List NodeId
  deriving DecidableEq

inductive StopBindingWire
  | unknown
  | unbound
  | bound (successor : SuccessorWire) (stopCommandHash : LogHash)
  deriving DecidableEq

inductive ConfigurationWire
  | active (configId : Nat) (digest : LogHash)
  | stopped (configId : Nat) (digest : LogHash) (stop : LogAnchor) (binding : StopBindingWire)
  deriving DecidableEq

structure SnapshotWire where
  clusterId : ClusterId
  epoch : Nat
  configurationState : ConfigurationWire
  recoveryGeneration : Nat
  materializerFingerprint : String
  userState : StateIdentity
  appliedTip : LogAnchor
  receipts : List RequestReceipt
  deriving DecidableEq

/-- The JSON text of the fields, by the `serde_json` crate. -/
class SnapshotJson where
  fromSlice : Bytes → Except String SnapshotWire
  toVec : SnapshotWire → Except String Bytes

/-- `serde_json` reads what it writes of these fields. -/
def SnapshotWire.ReadsBack [SnapshotJson] (wire : SnapshotWire) : Prop :=
  ∃ body, SnapshotJson.toVec wire = .ok body ∧ SnapshotJson.fromSlice body = .ok wire

section Serde

variable [Sha256]

def successorWire (successor : SuccessorDescriptor) : SuccessorWire where
  clusterId := successor.clusterId
  predecessorConfigId := successor.predecessorConfigId
  predecessorConfigDigest := successor.predecessorConfigDigest
  configId := successor.configId
  configDigest := successor.digest
  members := successor.members

/-- `deserialize` of `SuccessorDescriptor`. -/
def SuccessorWire.deserialize (wire : SuccessorWire) : Except String SuccessorDescriptor := do
  ensure (wire.members.IsChain (· < ·)) "successor members are not canonical"
  let descriptor ← (SuccessorDescriptor.new wire.clusterId wire.predecessorConfigId
    wire.predecessorConfigDigest wire.configId wire.members).elim
      (.error "invalid ConfigChange payload") .ok
  ensure (descriptor.digest = wire.configDigest) "successor membership digest mismatch"
  pure descriptor

def bindingWire : StopBinding → StopBindingWire
  | .unknown => .unknown
  | .unbound => .unbound
  | .bound successor stopCommandHash => .bound (successorWire successor) stopCommandHash

def StopBindingWire.deserialize : StopBindingWire → Except String StopBinding
  | .unknown => .ok .unknown
  | .unbound => .ok .unbound
  | .bound successor stopCommandHash => do
    let successor ← successor.deserialize
    pure (.bound successor stopCommandHash)

def configurationWire : ConfigurationState → ConfigurationWire
  | .active configId digest => .active configId digest
  | .stopped configId digest stop binding => .stopped configId digest stop (bindingWire binding)

def ConfigurationWire.deserialize : ConfigurationWire → Except String ConfigurationState
  | .active configId digest => .ok (.active configId digest)
  | .stopped configId digest stop binding => do
    let binding ← binding.deserialize
    pure (.stopped configId digest stop binding)

def ReplicatedSnapshot.wire (snapshot : ReplicatedSnapshot) : SnapshotWire :=
  { snapshot with configurationState := configurationWire snapshot.configurationState }

def SnapshotWire.deserialize (wire : SnapshotWire) : Except String ReplicatedSnapshot := do
  let configurationState ← wire.configurationState.deserialize
  pure { wire with configurationState }

theorem SuccessorWire.deserialize_wire (successor : SuccessorDescriptor) :
    (successorWire successor).deserialize = .ok successor := by
  refine unit_bind_ok_iff.mpr ⟨ensure_of successor.canonical.increasing, bind_ok_iff.mpr
    ⟨successor, ?_, unit_bind_ok_iff.mpr ⟨ensure_of rfl, rfl⟩⟩⟩
  exact congrArg (Option.elim · _ _) successor.new_self

theorem ConfigurationWire.deserialize_wire (state : ConfigurationState) :
    (configurationWire state).deserialize = .ok state := by
  cases state with
  | active configId digest => rfl
  | stopped configId digest stop binding =>
    have hBinding : (bindingWire binding).deserialize = .ok binding := by
      cases binding with
      | unknown => rfl
      | unbound => rfl
      | bound successor stopCommandHash =>
        exact bind_ok_iff.mpr ⟨successor, SuccessorWire.deserialize_wire successor, rfl⟩
    exact bind_ok_iff.mpr ⟨binding, hBinding, rfl⟩

theorem SnapshotWire.deserialize_wire (snapshot : ReplicatedSnapshot) :
    snapshot.wire.deserialize = .ok snapshot :=
  bind_ok_iff.mpr ⟨_, ConfigurationWire.deserialize_wire snapshot.configurationState, rfl⟩

end Serde

inductive ControlError
  | invalidSnapshot (message : String)
  | control (error : Error)
  deriving DecidableEq

def snapshotMagic : Bytes := utf8 "QCTL" ++ [0, 6]

structure ControlStore where
  nodeId : NodeId
  rows : Control
  deriving DecidableEq

section Codec

variable [Sha256] [SnapshotJson]

def encodeSnapshot (snapshot : ReplicatedSnapshot) : Except ControlError Bytes := do
  let body ← (SnapshotJson.toVec snapshot.wire).mapError .invalidSnapshot
  pure (snapshotMagic ++ (LogHash.digest [body]).bytes ++ body)

variable [SqlResultJson]

/-- The loop over the receipts in `decode_snapshot`, after the id `previous`. -/
def checkSnapshotReceipts : Option String → List RequestReceipt → Except ControlError Unit
  | _, [] => .ok ()
  | previous, receipt :: receipts => do
    receipt.validate.mapError .control
    ensure (∀ requestId ∈ previous, utf8 requestId < utf8 receipt.requestId)
      (.invalidSnapshot "control snapshot receipts are not uniquely sorted")
    checkSnapshotReceipts (some receipt.requestId) receipts

def decodeSnapshot (encoded : Bytes) : Except ControlError ReplicatedSnapshot := do
  ensure (encoded.take snapshotMagic.length = snapshotMagic)
    (.invalidSnapshot "control snapshot magic/version is invalid")
  let payload := encoded.drop snapshotMagic.length
  ensure (32 ≤ payload.length) (.invalidSnapshot "control snapshot is truncated")
  let body := payload.drop 32
  ensure ((LogHash.digest [body]).bytes = payload.take 32)
    (.invalidSnapshot "control snapshot digest mismatch")
  let wire ← (SnapshotJson.fromSlice body).mapError .invalidSnapshot
  let snapshot ← wire.deserialize.mapError .invalidSnapshot
  let canonical ← (SnapshotJson.toVec snapshot.wire).mapError .invalidSnapshot
  ensure (canonical = body) (.invalidSnapshot "control snapshot encoding is not canonical")
  checkSnapshotReceipts none snapshot.receipts
  pure snapshot

end Codec

/-- `pending_from` -/
def Control.pendingFrom (control : Control) : Except Error (Option PendingApply) :=
  match control.pending with
  | none => .ok none
  | some pending => do
    validateState pending.baseState
    validateState pending.targetState
    pure (some pending)

/-- The rows of the receipts, `ORDER BY request_id`. -/
def orderedByRequestId (receipts : List RequestReceipt) : List RequestReceipt :=
  receipts.mergeSort fun a b => utf8 a.requestId ≤ utf8 b.requestId

def Control.replicatedSnapshot (control : Control) : ReplicatedSnapshot where
  clusterId := control.clusterId
  epoch := control.epoch
  configurationState := control.configuration
  recoveryGeneration := control.recoveryGeneration
  materializerFingerprint := control.materializerFingerprint
  userState := control.userState
  appliedTip := control.appliedTip
  receipts := orderedByRequestId control.receipts

def ControlStore.exportReplicatedSnapshot [Sha256] [SnapshotJson] (store : ControlStore) :
    Except ControlError Bytes := do
  let pending ← store.rows.pendingFrom.mapError .control
  ensure (pending = none)
    (.invalidSnapshot "cannot export control state while apply is pending")
  encodeSnapshot store.rows.replicatedSnapshot

inductive ImportStatement
  | identity
  | begin
  | deleteReceipts
  | insertReceipt (requestId : String)
  | putConfiguration
  | putRecoveryGeneration
  | putState
  | putAppliedTip
  | deletePending
  | deleteEmbedded
  | commit
  deriving DecidableEq

abbrev Sqlite := ImportStatement → Except ControlError Unit

def insertOrValidateReceipt (sqlite : Sqlite) (stored : List RequestReceipt)
    (receipt : RequestReceipt) : Except ControlError (List RequestReceipt) :=
  match stored.find? (·.requestId = receipt.requestId) with
  | some existing =>
    if existing = receipt then .ok stored
    else .error (.control (.requestConflict receipt.requestId existing.originalAnchor.index
      existing.originalAnchor.hash))
  | none => do
    (u64ToSql receipt.originalAnchor.index).mapError .control
    sqlite (.insertReceipt receipt.requestId)
    pure (stored ++ [receipt])

def Control.importSnapshot (sqlite : Sqlite) (snapshot : ReplicatedSnapshot)
    (recoveryGeneration : Nat) (rows : Control) : Except ControlError Control := do
  sqlite .begin
  sqlite .deleteReceipts
  let receipts ← snapshot.receipts.foldlM (insertOrValidateReceipt sqlite) []
  sqlite .putConfiguration
  sqlite .putRecoveryGeneration
  (validateState snapshot.userState).mapError .control
  sqlite .putState
  sqlite .putAppliedTip
  sqlite .deletePending
  sqlite .deleteEmbedded
  sqlite .commit
  pure
    { rows with
      receipts
      configuration := snapshot.configurationState
      recoveryGeneration
      userState := snapshot.userState
      appliedTip := snapshot.appliedTip
      pending := none
      embeddedQlog := [] }

def ControlStore.transaction (store : ControlStore)
    (change : Control → Except ControlError Control) : Except ControlError Unit × ControlStore :=
  match change store.rows with
  | .error error => (.error error, store)
  | .ok rows => (.ok (), { store with rows })

section Import

variable [Sha256] [SqlResultJson] [SnapshotJson]

def Control.admitSnapshot (rows : Control) (sqlite : Sqlite) (encoded : Bytes)
    (recoveryGeneration : Option Nat) : Except ControlError (ReplicatedSnapshot × Nat) := do
  let snapshot ← decodeSnapshot encoded
  let recoveryGeneration := recoveryGeneration.getD snapshot.recoveryGeneration
  ensure (recoveryGeneration ≠ 0)
    (.invalidSnapshot "control snapshot recovery generation must be positive")
  sqlite .identity
  ensure (snapshot.clusterId = rows.clusterId) (.control (.identityMismatch "cluster_id"))
  ensure (snapshot.epoch = rows.epoch) (.control (.identityMismatch "epoch"))
  ensure (snapshot.materializerFingerprint = rows.materializerFingerprint)
    (.control (.identityMismatch "materializer_fingerprint"))
  (snapshot.receipts.forM RequestReceipt.validate).mapError .control
  pure (snapshot, recoveryGeneration)

def ControlStore.importReplicatedSnapshotWithRecoveryGeneration (store : ControlStore)
    (sqlite : Sqlite) (encoded : Bytes) (recoveryGeneration : Option Nat) :
    Except ControlError Unit × ControlStore :=
  match store.rows.admitSnapshot sqlite encoded recoveryGeneration with
  | .error error => (.error error, store)
  | .ok (snapshot, recoveryGeneration) =>
    store.transaction (Control.importSnapshot sqlite snapshot recoveryGeneration)

end Import

def ControlStore.create (clusterId : ClusterId) (nodeId : NodeId) (epoch : Nat)
    (configuration : ConfigurationState) (materializerFingerprint : String)
    (userState : StateIdentity) : Except Error ControlStore := do
  let rows : Control :=
    { clusterId, epoch, recoveryGeneration := 1, materializerFingerprint
      appliedTip := ⟨0, .zero⟩, configuration, userState, receipts := [], pending := none
      embeddedQlog := [] }
  require (nodeId ≠ "") (.identityMismatch "node_id")
  rows.validateNewIdentity
  pure { nodeId, rows }

def Control.compactEmbeddedLogBefore (rows : Control) (anchorIndex : Nat) :
    Except Error Control := do
  require (anchorIndex ≤ rows.appliedTip.index)
    (.invalidEntry s!"cannot compact embedded qlog before anchor {anchorIndex}")
  u64ToSql anchorIndex
  pure { rows with embeddedQlog := rows.embeddedQlog.filter fun entry => anchorIndex ≤ entry.index }

section Reachable

variable [Sha256] [SqlResultJson] [SnapshotJson]

inductive ControlStore.Reachable : ControlStore → Prop
  | created {store : ControlStore} (clusterId : ClusterId) (nodeId : NodeId) (epoch : Nat)
      (configuration : ConfigurationState) (materializerFingerprint : String)
      (userState : StateIdentity)
      (h : create clusterId nodeId epoch configuration materializerFingerprint userState =
        .ok store) : Reachable store
  | metadataOnly {store : ControlStore} {rows : Control} (expectedBase : LogAnchor)
      (entry : LogEntry) (expectedConfiguration : ConfigurationState)
      (expectedUserState : StateIdentity) (before : Reachable store)
      (h : store.rows.commitMetadataOnlyEntryWithLog expectedBase entry expectedConfiguration
        expectedUserState = .ok rows) : Reachable { store with rows }
  | begun {store : ControlStore} {rows : Control} (pending : PendingApply) (entry : LogEntry)
      (before : Reachable store) (h : store.rows.beginPendingWithEntry pending entry = .ok rows) :
      Reachable { store with rows }
  | applied {store : ControlStore} {rows : Control} (pending : PendingApply)
      (configuration : ConfigurationState) (receipts : List RequestReceipt)
      (before : Reachable store)
      (h : store.rows.commitApplied pending configuration receipts = .ok rows) :
      Reachable { store with rows }
  | rebuildable {store : ControlStore} {rows : Control} (pending : PendingApply)
      (entry : LogEntry) (configuration : ConfigurationState) (receipts : List RequestReceipt)
      (before : Reachable store)
      (h : store.rows.commitRebuildableApply pending entry configuration receipts = .ok rows) :
      Reachable { store with rows }
  | compacted {store : ControlStore} {rows : Control} (anchorIndex : Nat)
      (before : Reachable store) (h : store.rows.compactEmbeddedLogBefore anchorIndex = .ok rows) :
      Reachable { store with rows }
  | imported {store store' : ControlStore} (sqlite : Sqlite) (encoded : Bytes)
      (recoveryGeneration : Option Nat) (before : Reachable store)
      (h : store.importReplicatedSnapshotWithRecoveryGeneration sqlite encoded recoveryGeneration =
        (.ok (), store')) : Reachable store'

end Reachable

theorem mapError_ok_iff {ε ε' α : Type} {f : ε → ε'} {x : Except ε α} {a : α} :
    x.mapError f = .ok a ↔ x = .ok a := by
  cases x with
  | error error => exact ⟨nofun, nofun⟩
  | ok b => exact ⟨fun h => by cases h; rfl, fun h => by cases h; rfl⟩

section Codec

variable [SqlResultJson]

theorem checkSnapshotReceipts_iff {previous : Option String} {receipts : List RequestReceipt} :
    checkSnapshotReceipts previous receipts = .ok () ↔
      (∀ receipt ∈ receipts, receipt.validate = .ok ()) ∧
      (∀ requestId ∈ previous, ∀ receipt ∈ receipts, utf8 requestId < utf8 receipt.requestId) ∧
      receipts.Pairwise fun a b => utf8 a.requestId < utf8 b.requestId := by
  induction receipts generalizing previous with
  | nil => simp [checkSnapshotReceipts]
  | cons first rest ih =>
    simp only [checkSnapshotReceipts, unit_bind_ok_iff, mapError_ok_iff, ensure_ok_iff, ih,
      List.forall_mem_cons, List.pairwise_cons, Option.mem_def, Option.some.injEq,
      forall_eq']
    constructor
    · rintro ⟨hFirst, hPrevious, hValid, hAbove, hSorted⟩
      refine ⟨⟨hFirst, hValid⟩, fun requestId hId => ⟨hPrevious requestId hId, ?_⟩, hAbove, hSorted⟩
      exact fun receipt hReceipt => List.lt_trans (hPrevious requestId hId) (hAbove receipt hReceipt)
    · rintro ⟨⟨hFirst, hValid⟩, hPrevious, hAbove, hSorted⟩
      exact ⟨hFirst, fun requestId hId => (hPrevious requestId hId).1, hValid, hAbove, hSorted⟩

variable [Sha256] [SnapshotJson]

theorem decodeSnapshot_encodeSnapshot {snapshot : ReplicatedSnapshot}
    (hJson : snapshot.wire.ReadsBack)
    (hReceipts : checkSnapshotReceipts none snapshot.receipts = .ok ()) :
    ∃ encoded, encodeSnapshot snapshot = .ok encoded ∧ decodeSnapshot encoded = .ok snapshot := by
  obtain ⟨body, hWritten, hRead⟩ := hJson
  refine ⟨_, bind_ok_iff.mpr ⟨body, mapError_ok_iff.mpr hWritten, rfl⟩, ?_⟩
  have hDigest := (LogHash.digest [body]).size
  have hPayload : (snapshotMagic ++ (LogHash.digest [body]).bytes ++ body).drop snapshotMagic.length =
      (LogHash.digest [body]).bytes ++ body := by
    rw [List.append_assoc, List.drop_left]
  have hBody : ((LogHash.digest [body]).bytes ++ body).drop 32 = body := List.drop_left' hDigest
  unfold decodeSnapshot
  simp only [hPayload, hBody]
  refine unit_bind_ok_iff.mpr ⟨ensure_of ?_, unit_bind_ok_iff.mpr ⟨ensure_of ?_,
    unit_bind_ok_iff.mpr ⟨ensure_of (List.take_left' hDigest).symm,
    bind_ok_iff.mpr ⟨snapshot.wire, mapError_ok_iff.mpr hRead,
    bind_ok_iff.mpr ⟨snapshot, mapError_ok_iff.mpr (SnapshotWire.deserialize_wire snapshot),
    bind_ok_iff.mpr ⟨body, mapError_ok_iff.mpr hWritten,
    unit_bind_ok_iff.mpr ⟨ensure_of rfl, unit_bind_ok_iff.mpr ⟨hReceipts, rfl⟩⟩⟩⟩⟩⟩⟩⟩
  · rw [List.append_assoc, List.take_left]
  · rw [List.length_append, hDigest]
    exact Nat.le_add_right _ _

theorem decodeSnapshot_receipts {encoded : Bytes} {snapshot : ReplicatedSnapshot}
    (h : decodeSnapshot encoded = .ok snapshot) :
    ∀ receipt ∈ snapshot.receipts, receipt.validate = .ok () := by
  obtain ⟨-, h⟩ := unit_bind_ok_iff.mp h
  obtain ⟨-, h⟩ := unit_bind_ok_iff.mp h
  obtain ⟨-, h⟩ := unit_bind_ok_iff.mp h
  obtain ⟨wire, -, h⟩ := bind_ok_iff.mp h
  obtain ⟨read, -, h⟩ := bind_ok_iff.mp h
  obtain ⟨canonical, -, h⟩ := bind_ok_iff.mp h
  obtain ⟨-, h⟩ := unit_bind_ok_iff.mp h
  obtain ⟨hReceipts, h⟩ := unit_bind_ok_iff.mp h
  cases h
  exact (checkSnapshotReceipts_iff.mp hReceipts).1

end Codec

theorem orderedByRequestId_perm (receipts : List RequestReceipt) :
    (orderedByRequestId receipts).Perm receipts := List.mergeSort_perm _ _

theorem orderedByRequestId_sorted {receipts : List RequestReceipt}
    (hUnique : (receipts.map (·.requestId)).Nodup) :
    (orderedByRequestId receipts).Pairwise fun a b => utf8 a.requestId < utf8 b.requestId := by
  have hOrdered : (orderedByRequestId receipts).Pairwise fun a b =>
      decide (utf8 a.requestId ≤ utf8 b.requestId) = true := by
    refine List.pairwise_mergeSort (fun a b c hab hbc => ?_) (fun a b => ?_) receipts
    · exact decide_eq_true (List.le_trans (of_decide_eq_true hab) (of_decide_eq_true hbc))
    · simpa using List.le_total (utf8 a.requestId) (utf8 b.requestId)
  have hApart : (orderedByRequestId receipts).Pairwise fun a b => a.requestId ≠ b.requestId :=
    List.pairwise_map.mp (((orderedByRequestId_perm receipts).map _).nodup_iff.mpr hUnique)
  refine (hOrdered.and hApart).imp fun h => ?_
  exact Std.lt_of_le_of_ne (of_decide_eq_true h.1) fun hSame => h.2 (utf8_inj.mp hSame)

structure Control.Portable [SqlResultJson] (rows : Control) : Prop where
  unique : (rows.receipts.map (·.requestId)).Nodup
  valid : ∀ receipt ∈ rows.receipts, receipt.validate = .ok ()
  bounded : ∀ receipt ∈ rows.receipts, u64ToSql receipt.originalAnchor.index = .ok ()
  state : validateState rows.userState = .ok ()
  generation : rows.recoveryGeneration ≠ 0

section Applying

variable [SqlResultJson]

theorem checkAppliedReceipts_valid {anchor : LogAnchor} {receipts : List RequestReceipt}
    {counted counted' : Nat × List String}
    (h : receipts.foldlM (checkAppliedReceipt anchor) counted = .ok counted') :
    ∀ receipt ∈ receipts, receipt.validate = .ok () := by
  induction receipts generalizing counted with
  | nil => exact nofun
  | cons first rest ih =>
    obtain ⟨resultBytes, requestIds⟩ := counted
    obtain ⟨next, hFirst, hRest⟩ := bind_ok_iff.mp h
    obtain ⟨hValid, -⟩ := unit_bind_ok_iff.mp hFirst
    exact List.forall_mem_cons.mpr ⟨hValid, ih hRest⟩

omit [SqlResultJson] in
theorem absentReceipts_sublist {stored receipts absent : List RequestReceipt}
    (h : absentReceipts stored receipts = .ok absent) :
    absent.Sublist receipts ∧
      ∀ receipt ∈ absent, receipt.requestId ∉ stored.map (·.requestId) := by
  induction receipts generalizing absent with
  | nil =>
    cases h
    exact ⟨.slnil, nofun⟩
  | cons first rest ih =>
    obtain ⟨found, hFound, h⟩ := bind_ok_iff.mp h
    cases found with
    | none =>
      obtain ⟨later, hLater, h⟩ := bind_ok_iff.mp h
      cases h
      obtain ⟨hSublist, hFresh⟩ := ih hLater
      exact ⟨hSublist.cons_cons first, List.forall_mem_cons.mpr ⟨lookupOne_none hFound, hFresh⟩⟩
    | some existing =>
      obtain ⟨_, -, h⟩ := bind_ok_iff.mp h
      obtain ⟨hSublist, hFresh⟩ := ih h
      exact ⟨hSublist.cons first, hFresh⟩

theorem Control.Portable.commitApplied {rows rows' : Control} {pending : PendingApply}
    {configuration : ConfigurationState} {receipts : List RequestReceipt} (h : rows.Portable)
    (hCommit : rows.commitAppliedTransaction pending configuration receipts = .ok rows') :
    rows'.Portable := by
  obtain ⟨_, -, hCommit⟩ := bind_ok_iff.mp hCommit
  obtain ⟨_, -, hCommit⟩ := bind_ok_iff.mp hCommit
  obtain ⟨counted, hCounted, hCommit⟩ := bind_ok_iff.mp hCommit
  obtain ⟨_, -, hCommit⟩ := bind_ok_iff.mp hCommit
  obtain ⟨absent, hAbsent, hCommit⟩ := bind_ok_iff.mp hCommit
  obtain ⟨hEach, hUnique⟩ := checkAppliedReceipts_eq_ok hCounted
  have hValid := checkAppliedReceipts_valid hCounted
  obtain ⟨hSublist, hFresh⟩ := absentReceipts_sublist hAbsent
  -- an empty batch is not checked against the range of SQLite's integers
  have hDone : (∀ receipt ∈ absent, u64ToSql receipt.originalAnchor.index = .ok ()) ∧
      validateState pending.targetState = .ok () ∧
      rows' =
        { rows with
          receipts := rows.receipts ++ absent
          appliedTip := pending.entry
          configuration
          userState := pending.targetState
          pending := none } := by
    split at hCommit
    · obtain ⟨_, hBounded, hCommit⟩ := bind_ok_iff.mp hCommit
      obtain ⟨_, hState, hCommit⟩ := bind_ok_iff.mp hCommit
      cases hCommit
      refine ⟨fun receipt hReceipt => ?_, hState, rfl⟩
      rw [(hEach receipt (hSublist.subset hReceipt)).1]
      exact hBounded
    · rename_i hEmpty
      obtain ⟨_, hState, hCommit⟩ := bind_ok_iff.mp hCommit
      cases hCommit
      refine ⟨fun receipt hReceipt => ?_, hState, rfl⟩
      exact absurd (List.ne_nil_of_mem hReceipt) hEmpty
  obtain ⟨hBounded, hState, rfl⟩ := hDone
  refine ⟨?_, ?_, ?_, hState, h.generation⟩
  · rw [List.map_append]
    refine h.unique.append (hUnique.sublist (hSublist.map _)) fun requestId hOld hNew => ?_
    obtain ⟨receipt, hReceipt, rfl⟩ := List.mem_map.mp hNew
    exact hFresh receipt hReceipt hOld
  · exact List.forall_mem_append.mpr ⟨h.valid, fun receipt hReceipt =>
      hValid receipt (hSublist.subset hReceipt)⟩
  · exact List.forall_mem_append.mpr ⟨h.bounded, hBounded⟩

end Applying

theorem insertOrValidateReceipt_cases {sqlite : Sqlite} {stored stored' : List RequestReceipt}
    {receipt : RequestReceipt} (h : insertOrValidateReceipt sqlite stored receipt = .ok stored') :
    stored' = stored ∨ stored' = stored ++ [receipt] ∧
      receipt.requestId ∉ stored.map (·.requestId) ∧
      u64ToSql receipt.originalAnchor.index = .ok () := by
  unfold insertOrValidateReceipt at h
  split at h
  · split at h
    · cases h
      exact .inl rfl
    · cases h
  · rename_i hNone
    obtain ⟨hBounded, h⟩ := unit_bind_ok_iff.mp h
    obtain ⟨-, h⟩ := unit_bind_ok_iff.mp h
    cases h
    refine .inr ⟨rfl, fun hMem => ?_, mapError_ok_iff.mp hBounded⟩
    obtain ⟨existing, hExisting, hId⟩ := List.mem_map.mp hMem
    exact List.find?_eq_none.mp hNone existing hExisting (decide_eq_true hId)

theorem insertReceipts_spec {sqlite : Sqlite} {receipts stored stored' : List RequestReceipt}
    (h : receipts.foldlM (insertOrValidateReceipt sqlite) stored = .ok stored')
    (hUnique : (stored.map (·.requestId)).Nodup) :
    (stored'.map (·.requestId)).Nodup ∧ ∀ receipt ∈ stored', receipt ∈ stored ∨
      receipt ∈ receipts ∧ u64ToSql receipt.originalAnchor.index = .ok () := by
  induction receipts generalizing stored with
  | nil =>
    cases h
    exact ⟨hUnique, fun receipt hReceipt => .inl hReceipt⟩
  | cons first rest ih =>
    obtain ⟨next, hFirst, hRest⟩ := bind_ok_iff.mp h
    rcases insertOrValidateReceipt_cases hFirst with rfl | ⟨rfl, hFresh, hBounded⟩
    · obtain ⟨hNodup, hFrom⟩ := ih hRest hUnique
      exact ⟨hNodup, fun receipt hReceipt => (hFrom receipt hReceipt).imp_right
        fun hLater => ⟨List.mem_cons_of_mem _ hLater.1, hLater.2⟩⟩
    · have hNext : ((stored ++ [first]).map (·.requestId)).Nodup := by
        rw [List.map_append, List.map_singleton]
        exact List.nodup_append.mpr ⟨hUnique, List.nodup_singleton _, fun a ha b hb hEq =>
          hFresh (List.mem_singleton.mp hb ▸ hEq ▸ ha)⟩
      obtain ⟨hNodup, hFrom⟩ := ih hRest hNext
      refine ⟨hNodup, fun receipt hReceipt => ?_⟩
      rcases hFrom receipt hReceipt with hStored | ⟨hLater, hIn⟩
      · rcases List.mem_append.mp hStored with hOld | hNew
        · exact .inl hOld
        · rw [List.mem_singleton.mp hNew]
          exact .inr ⟨List.mem_cons_self, hBounded⟩
      · exact .inr ⟨List.mem_cons_of_mem _ hLater, hIn⟩

theorem insertReceipts_eq {receipts stored : List RequestReceipt}
    (hUnique : ((stored ++ receipts).map (·.requestId)).Nodup)
    (hBounded : ∀ receipt ∈ receipts, u64ToSql receipt.originalAnchor.index = .ok ()) :
    receipts.foldlM (insertOrValidateReceipt fun _ => .ok ()) stored =
      .ok (stored ++ receipts) := by
  induction receipts generalizing stored with
  | nil => rw [List.append_nil]; rfl
  | cons first rest ih =>
    obtain ⟨hFirst, hRest⟩ := List.forall_mem_cons.mp hBounded
    have hNone : stored.find? (·.requestId = first.requestId) = none := by
      refine List.find?_eq_none.mpr fun existing hExisting hId => ?_
      rw [List.map_append] at hUnique
      exact (List.nodup_append.mp hUnique).2.2 _ (List.mem_map_of_mem hExisting) _
        (List.mem_map_of_mem List.mem_cons_self) (of_decide_eq_true hId)
    have hInsert : insertOrValidateReceipt (fun _ => .ok ()) stored first =
        .ok (stored ++ [first]) := by
      rw [insertOrValidateReceipt, hNone, hFirst]
      rfl
    have hSplit : stored ++ first :: rest = stored ++ [first] ++ rest := List.append_cons _ _ _
    rw [hSplit] at hUnique ⊢
    rw [List.foldlM_cons, hInsert, ok_bind]
    exact ih hUnique hRest

theorem Control.importSnapshot_eq_ok {sqlite : Sqlite} {snapshot : ReplicatedSnapshot}
    {recoveryGeneration : Nat} {rows rows' : Control}
    (h : rows.importSnapshot sqlite snapshot recoveryGeneration = .ok rows') :
    validateState snapshot.userState = .ok () ∧ ∃ receipts,
      snapshot.receipts.foldlM (insertOrValidateReceipt sqlite) [] = .ok receipts ∧
      rows' =
        { rows with
          receipts
          configuration := snapshot.configurationState
          recoveryGeneration
          userState := snapshot.userState
          appliedTip := snapshot.appliedTip
          pending := none
          embeddedQlog := [] } := by
  obtain ⟨-, h⟩ := unit_bind_ok_iff.mp h
  obtain ⟨-, h⟩ := unit_bind_ok_iff.mp h
  obtain ⟨receipts, hReceipts, h⟩ := bind_ok_iff.mp h
  obtain ⟨-, h⟩ := unit_bind_ok_iff.mp h
  obtain ⟨-, h⟩ := unit_bind_ok_iff.mp h
  obtain ⟨hState, h⟩ := unit_bind_ok_iff.mp h
  obtain ⟨-, h⟩ := unit_bind_ok_iff.mp h
  obtain ⟨-, h⟩ := unit_bind_ok_iff.mp h
  obtain ⟨-, h⟩ := unit_bind_ok_iff.mp h
  obtain ⟨-, h⟩ := unit_bind_ok_iff.mp h
  obtain ⟨-, h⟩ := unit_bind_ok_iff.mp h
  cases h
  exact ⟨mapError_ok_iff.mp hState, receipts, hReceipts, rfl⟩

theorem Control.importSnapshot_eq {snapshot : ReplicatedSnapshot} {recoveryGeneration : Nat}
    {rows : Control} (hUnique : (snapshot.receipts.map (·.requestId)).Nodup)
    (hBounded : ∀ receipt ∈ snapshot.receipts, u64ToSql receipt.originalAnchor.index = .ok ())
    (hState : validateState snapshot.userState = .ok ()) :
    rows.importSnapshot (fun _ => .ok ()) snapshot recoveryGeneration =
      .ok
        { rows with
          receipts := snapshot.receipts
          configuration := snapshot.configurationState
          recoveryGeneration
          userState := snapshot.userState
          appliedTip := snapshot.appliedTip
          pending := none
          embeddedQlog := [] } := by
  have hReceipts : snapshot.receipts.foldlM (insertOrValidateReceipt fun _ => .ok ()) [] =
      .ok snapshot.receipts := insertReceipts_eq hUnique hBounded
  rw [importSnapshot]
  simp only [hReceipts, hState, ok_bind]
  rfl

section Importing

variable [Sha256] [SqlResultJson] [SnapshotJson]

theorem Control.admitSnapshot_eq_ok {rows : Control} {sqlite : Sqlite} {encoded : Bytes}
    {recoveryGeneration : Option Nat} {admitted : ReplicatedSnapshot × Nat}
    (h : rows.admitSnapshot sqlite encoded recoveryGeneration = .ok admitted) :
    admitted.2 ≠ 0 ∧ ∀ receipt ∈ admitted.1.receipts, receipt.validate = .ok () := by
  obtain ⟨snapshot, hDecoded, h⟩ := bind_ok_iff.mp h
  obtain ⟨hPositive, h⟩ := unit_bind_ok_iff.mp h
  obtain ⟨-, h⟩ := unit_bind_ok_iff.mp h
  obtain ⟨-, h⟩ := unit_bind_ok_iff.mp h
  obtain ⟨-, h⟩ := unit_bind_ok_iff.mp h
  obtain ⟨-, h⟩ := unit_bind_ok_iff.mp h
  obtain ⟨-, h⟩ := unit_bind_ok_iff.mp h
  cases h
  exact ⟨ensure_ok_iff.mp hPositive, decodeSnapshot_receipts hDecoded⟩

omit [Sha256] [SnapshotJson] in
theorem validate_forM {receipts : List RequestReceipt}
    (h : ∀ receipt ∈ receipts, receipt.validate = .ok ()) :
    receipts.forM RequestReceipt.validate = .ok () := by
  induction receipts with
  | nil => rfl
  | cons first rest ih =>
    obtain ⟨hFirst, hRest⟩ := List.forall_mem_cons.mp h
    exact unit_bind_ok_iff.mpr ⟨hFirst, ih hRest⟩

theorem ControlStore.import_cases {store store' : ControlStore} {sqlite : Sqlite} {encoded : Bytes}
    {recoveryGeneration : Option Nat} {result : Except ControlError Unit}
    (h : store.importReplicatedSnapshotWithRecoveryGeneration sqlite encoded recoveryGeneration =
      (result, store')) :
    (∃ error, result = .error error ∧ store' = store) ∨
    ∃ admitted rows, result = .ok () ∧
      store.rows.admitSnapshot sqlite encoded recoveryGeneration = .ok admitted ∧
      store.rows.importSnapshot sqlite admitted.1 admitted.2 = .ok rows ∧
      store' = { store with rows } := by
  unfold importReplicatedSnapshotWithRecoveryGeneration at h
  split at h
  · rename_i error hRefused
    cases h
    exact .inl ⟨error, rfl, rfl⟩
  · rename_i snapshot generation hAdmitted
    unfold transaction at h
    split at h
    · rename_i error hFailed
      cases h
      exact .inl ⟨error, rfl, rfl⟩
    · rename_i rows hRows
      cases h
      exact .inr ⟨(snapshot, generation), rows, rfl, hAdmitted, hRows, rfl⟩

theorem Control.Portable.import {rows rows' : Control} {sqlite : Sqlite} {encoded : Bytes}
    {recoveryGeneration : Option Nat} {admitted : ReplicatedSnapshot × Nat}
    (hAdmitted : rows.admitSnapshot sqlite encoded recoveryGeneration = .ok admitted)
    (hRows : rows.importSnapshot sqlite admitted.1 admitted.2 = .ok rows') : rows'.Portable := by
  obtain ⟨hPositive, hValid⟩ := admitSnapshot_eq_ok hAdmitted
  obtain ⟨hState, receipts, hReceipts, rfl⟩ := importSnapshot_eq_ok hRows
  obtain ⟨hUnique, hFrom⟩ := insertReceipts_spec hReceipts List.nodup_nil
  refine ⟨hUnique, fun receipt hReceipt => ?_, fun receipt hReceipt => ?_, hState, hPositive⟩
  · exact (hFrom receipt hReceipt).elim nofun fun hNew => hValid receipt hNew.1
  · exact (hFrom receipt hReceipt).elim nofun fun hNew => hNew.2

theorem ControlStore.Reachable.portable {store : ControlStore} (h : store.Reachable) :
    store.rows.Portable := by
  induction h with
  | created clusterId nodeId epoch configuration materializerFingerprint userState h =>
    obtain ⟨_, -, h⟩ := bind_ok_iff.mp h
    obtain ⟨_, hIdentity, h⟩ := bind_ok_iff.mp h
    cases h
    obtain ⟨_, -, hIdentity⟩ := bind_ok_iff.mp hIdentity
    obtain ⟨_, -, hState⟩ := bind_ok_iff.mp hIdentity
    exact ⟨List.nodup_nil, nofun, nofun, hState, Nat.one_ne_zero⟩
  | metadataOnly expectedBase entry expectedConfiguration expectedUserState before h ih =>
    obtain ⟨-, embeddedQlog, rfl⟩ := Control.commitMetadataOnlyEntryWithLog_eq_ok h
    exact ⟨ih.unique, ih.valid, ih.bounded, ih.state, ih.generation⟩
  | begun pending entry before h ih =>
    obtain ⟨embeddedQlog, rfl⟩ := Control.beginPendingWithEntry_eq_ok h
    exact ⟨ih.unique, ih.valid, ih.bounded, ih.state, ih.generation⟩
  | applied pending configuration receipts before h ih =>
    obtain ⟨_, -, h⟩ := bind_ok_iff.mp h
    obtain ⟨_, -, h⟩ := bind_ok_iff.mp h
    exact ih.commitApplied h
  | @rebuildable store rows pending entry configuration receipts before h ih =>
    obtain ⟨_, -, h⟩ := bind_ok_iff.mp h
    obtain ⟨inserted, hInserted, h⟩ := bind_ok_iff.mp h
    obtain ⟨embeddedQlog, rfl⟩ := Control.insertOrValidateEmbeddedEntry_eq_ok hInserted
    have hInserted : Control.Portable { store.rows with embeddedQlog } :=
      ⟨ih.unique, ih.valid, ih.bounded, ih.state, ih.generation⟩
    exact hInserted.commitApplied h
  | compacted anchorIndex before h ih =>
    obtain ⟨_, -, h⟩ := bind_ok_iff.mp h
    obtain ⟨_, -, h⟩ := bind_ok_iff.mp h
    cases h
    exact ⟨ih.unique, ih.valid, ih.bounded, ih.state, ih.generation⟩
  | imported sqlite encoded recoveryGeneration before h ih =>
    rcases ControlStore.import_cases h with ⟨error, hError, -⟩ | ⟨admitted, rows, -, hAdmitted,
      hRows, rfl⟩
    · cases hError
    · exact .import hAdmitted hRows

theorem ControlStore.export_eq {store : ControlStore} (h : store.rows.Portable)
    (hNone : store.rows.pending = none) (hJson : store.rows.replicatedSnapshot.wire.ReadsBack) :
    ∃ encoded, store.exportReplicatedSnapshot = .ok encoded ∧
      encodeSnapshot store.rows.replicatedSnapshot = .ok encoded ∧
      decodeSnapshot encoded = .ok store.rows.replicatedSnapshot := by
  have hPerm := orderedByRequestId_perm store.rows.receipts
  have hReceipts : checkSnapshotReceipts none store.rows.replicatedSnapshot.receipts = .ok () :=
    checkSnapshotReceipts_iff.mpr ⟨fun receipt hReceipt => h.valid receipt (hPerm.subset hReceipt),
      nofun, orderedByRequestId_sorted h.unique⟩
  obtain ⟨encoded, hEncoded, hDecoded⟩ := decodeSnapshot_encodeSnapshot hJson hReceipts
  have hPending : store.rows.pendingFrom = .ok none := by
    rw [Control.pendingFrom, hNone]
  refine ⟨encoded, ?_, hEncoded, hDecoded⟩
  exact bind_ok_iff.mpr ⟨none, mapError_ok_iff.mpr hPending,
    unit_bind_ok_iff.mpr ⟨ensure_of rfl, hEncoded⟩⟩

theorem ControlStore.import_eq {store : ControlStore} {rows : Control} {encoded : Bytes}
    {recoveryGeneration : Option Nat} (h : rows.Portable)
    (hDecoded : decodeSnapshot encoded = .ok rows.replicatedSnapshot)
    (hCluster : store.rows.clusterId = rows.clusterId) (hEpoch : store.rows.epoch = rows.epoch)
    (hFingerprint : store.rows.materializerFingerprint = rows.materializerFingerprint)
    (hPositive : recoveryGeneration ≠ some 0) :
    store.importReplicatedSnapshotWithRecoveryGeneration (fun _ => .ok ()) encoded
        recoveryGeneration =
      (.ok (), { store with rows :=
        { rows with
          receipts := orderedByRequestId rows.receipts
          recoveryGeneration := recoveryGeneration.getD rows.recoveryGeneration
          pending := none
          embeddedQlog := [] } }) := by
  have hPerm := orderedByRequestId_perm rows.receipts
  have hValid : (orderedByRequestId rows.receipts).forM RequestReceipt.validate = .ok () := by
    refine validate_forM fun receipt hReceipt => ?_
    exact h.valid receipt (hPerm.subset hReceipt)
  have hGeneration : recoveryGeneration.getD rows.recoveryGeneration ≠ 0 := by
    cases recoveryGeneration with
    | none => exact h.generation
    | some generation => exact fun hZero => hPositive (congrArg some hZero)
  have hAdmitted : store.rows.admitSnapshot (fun _ => .ok ()) encoded recoveryGeneration =
      .ok (rows.replicatedSnapshot, recoveryGeneration.getD rows.recoveryGeneration) :=
    bind_ok_iff.mpr ⟨_, hDecoded, unit_bind_ok_iff.mpr ⟨ensure_of hGeneration,
      unit_bind_ok_iff.mpr ⟨rfl, unit_bind_ok_iff.mpr ⟨ensure_of hCluster.symm,
      unit_bind_ok_iff.mpr ⟨ensure_of hEpoch.symm, unit_bind_ok_iff.mpr
        ⟨ensure_of hFingerprint.symm, unit_bind_ok_iff.mpr ⟨mapError_ok_iff.mpr hValid, rfl⟩⟩⟩⟩⟩⟩⟩
  have hRows : store.rows.importSnapshot (fun _ => .ok ()) rows.replicatedSnapshot
      (recoveryGeneration.getD rows.recoveryGeneration) = _ :=
    Control.importSnapshot_eq ((hPerm.map _).nodup_iff.mpr h.unique)
      (fun receipt hReceipt => h.bounded receipt (hPerm.subset hReceipt)) h.state
  rw [importReplicatedSnapshotWithRecoveryGeneration, hAdmitted]
  simp only [transaction, hRows]
  rw [hCluster, hEpoch, hFingerprint]
  rfl

structure Control.SameOrigin (rows rows' : Control) : Prop where
  clusterId : rows.clusterId = rows'.clusterId
  epoch : rows.epoch = rows'.epoch
  fingerprint : rows.materializerFingerprint = rows'.materializerFingerprint

structure ControlStore.Took (destination imported : ControlStore) (rows : Control) : Prop where
  nodeId : imported.nodeId = destination.nodeId
  receipts : imported.rows.receipts.Perm rows.receipts
  configuration : imported.rows.configuration = rows.configuration
  userState : imported.rows.userState = rows.userState
  appliedTip : imported.rows.appliedTip = rows.appliedTip

/-- Every sidecar that can be reached is carried over by its snapshot, and a refused snapshot
changes nothing. -/
theorem snapshots_are_lossless {store : ControlStore} (h : store.Reachable)
    (hNone : store.rows.pending = none) (hJson : store.rows.replicatedSnapshot.wire.ReadsBack) :
    (∃ encoded, store.exportReplicatedSnapshot = .ok encoded ∧
      encodeSnapshot store.rows.replicatedSnapshot = .ok encoded ∧
      decodeSnapshot encoded = .ok store.rows.replicatedSnapshot ∧
      ∀ (destination : ControlStore) (recoveryGeneration : Option Nat),
        destination.rows.SameOrigin store.rows → recoveryGeneration ≠ some 0 →
        ∃ imported, destination.importReplicatedSnapshotWithRecoveryGeneration (fun _ => .ok ())
            encoded recoveryGeneration = (.ok (), imported) ∧
          destination.Took imported store.rows) ∧
    ∀ (destination after : ControlStore) (sqlite : Sqlite) (encoded : Bytes)
      (recoveryGeneration : Option Nat) (error : ControlError),
      destination.importReplicatedSnapshotWithRecoveryGeneration sqlite encoded
        recoveryGeneration = (.error error, after) → after = destination := by
  constructor
  · obtain ⟨encoded, hExported, hEncoded, hDecoded⟩ := ControlStore.export_eq h.portable hNone hJson
    refine ⟨encoded, hExported, hEncoded, hDecoded, ?_⟩
    intro destination recoveryGeneration hSame hPositive
    refine ⟨_, ControlStore.import_eq h.portable hDecoded hSame.clusterId hSame.epoch
      hSame.fingerprint hPositive, ?_⟩
    exact ⟨rfl, orderedByRequestId_perm _, rfl, rfl, rfl⟩
  · intro destination after sqlite encoded recoveryGeneration error hFailed
    rcases ControlStore.import_cases hFailed with ⟨_, -, hSame⟩ | ⟨admitted, rows, hOk, -, -, -⟩
    · exact hSame
    · cases hOk

end Importing

namespace Carried

def emptyResultJson : Bytes := utf8 "\x7b\"statement_results\":[]\x7d"

@[reducible] def resultJson : SqlResultJson where
  fromSlice bytes :=
    if bytes = emptyResultJson then .ok ⟨[]⟩ else .error "not the result of this sample"
  toVec result :=
    if result = ⟨[]⟩ then .ok emptyResultJson else .error "not the result of this sample"

attribute [local instance] Sha256.rolling resultJson

def page : StateIdentity := ⟨512, 1, LogHash.ofByte 4⟩

def entry : LogEntry :=
  { clusterId := "cluster", index := 1, epoch := 1, configId := 1, entryType := .command,
    payload := [], prevHash := .zero, hash := calculateHash "cluster" 1 1 1 .command .zero [] }

def pending : PendingApply := ⟨⟨0, .zero⟩, ⟨1, entry.hash⟩, page, page⟩

def receipt (requestId : String) : RequestReceipt :=
  ⟨requestId, LogHash.ofByte 9, ⟨1, entry.hash⟩, sqlResultMagic ++ emptyResultJson⟩

def created : ControlStore :=
  { nodeId := "a"
    rows :=
      { clusterId := "cluster", epoch := 1, recoveryGeneration := 1
        materializerFingerprint := String.ofList (List.replicate 64 '0')
        appliedTip := ⟨0, .zero⟩, configuration := .active 1 .zero, userState := page
        receipts := [], pending := none, embeddedQlog := [] } }

def applied : ControlStore :=
  { created with
    rows :=
      { created.rows with
        appliedTip := ⟨1, entry.hash⟩
        receipts := [receipt "second", receipt "first"]
        embeddedQlog := [entry] } }

def cluster : ClusterId := "cluster"
def active : Nat := 1
def members : List NodeId := ["a", "b", "c"]

def successor : SuccessorDescriptor where
  clusterId := cluster
  predecessorConfigId := active
  predecessorConfigDigest := .zero
  configId := 2
  members := members
  clusterNamed := by decide
  clusterBounded := by decide
  next := by decide
  canonical := by decide

def stop : StoredCommand := (ConfigChange.boundStop successor).toStoredCommand

def stopEntry : LogEntry :=
  { clusterId := "cluster", index := 2, epoch := 1, configId := 1, entryType := stop.entryType
    payload := stop.payload, prevHash := entry.hash
    hash := calculateHash "cluster" 2 1 1 stop.entryType entry.hash stop.payload }

def pendingStop : PendingApply := ⟨⟨1, entry.hash⟩, ⟨2, stopEntry.hash⟩, page, page⟩

def begun : ControlStore :=
  { applied with
    rows := { applied.rows with pending := some pendingStop, embeddedQlog := [entry, stopEntry] } }

def stopped : ControlStore :=
  { begun with
    rows :=
      { begun.rows with
        appliedTip := ⟨2, stopEntry.hash⟩
        configuration := .stopped 1 .zero ⟨2, stopEntry.hash⟩ (.bound successor stop.hash)
        pending := none } }

/-! The JSON of the snapshot, as `serde_json` writes it. -/

def numbers (bytes : Bytes) : String :=
  "[" ++ ",".intercalate (bytes.map fun b => toString b.toNat) ++ "]"

def anchorText (anchor : LogAnchor) : String :=
  "\x7b\"index\":" ++ toString anchor.index ++ ",\"hash\":" ++ numbers anchor.hash.bytes ++ "\x7d"

def receiptText (requestId : String) : String :=
  "\x7b\"request_id\":\"" ++ requestId ++ "\",\"request_digest\":" ++
    numbers (LogHash.ofByte 9).bytes ++ ",\"original_anchor\":" ++ anchorText ⟨1, entry.hash⟩ ++
    ",\"result_blob\":" ++ numbers (sqlResultMagic ++ emptyResultJson) ++ "\x7d"

def successorText : String :=
  "\x7b\"cluster_id\":\"cluster\",\"predecessor_config_id\":1,\"predecessor_config_digest\":" ++
    numbers LogHash.zero.bytes ++ ",\"config_id\":2,\"config_digest\":" ++
    numbers successor.digest.bytes ++ ",\"members\":[\"a\",\"b\",\"c\"]\x7d"

def text : Bytes :=
  utf8 ("\x7b\"cluster_id\":\"cluster\",\"epoch\":1,\"configuration_state\":" ++
    "\x7b\"phase\":\"stopped\",\"config_id\":1,\"digest\":" ++ numbers LogHash.zero.bytes ++
    ",\"stop\":" ++ anchorText ⟨2, stopEntry.hash⟩ ++ ",\"binding\":\x7b\"kind\":\"bound\"," ++
    "\"successor\":" ++ successorText ++ ",\"stop_command_hash\":" ++ numbers stop.hash.bytes ++
    "\x7d\x7d,\"recovery_generation\":1,\"materializer_fingerprint\":" ++
    numbers LogHash.zero.bytes ++
    ",\"user_state\":\x7b\"page_size\":512,\"page_count\":1,\"state_root\":" ++
    numbers page.stateRoot.bytes ++ "\x7d,\"applied_tip\":" ++ anchorText ⟨2, stopEntry.hash⟩ ++
    ",\"receipts\":[" ++ receiptText "first" ++ "," ++ receiptText "second" ++ "]\x7d")

@[reducible] def snapshotJson : SnapshotJson where
  fromSlice bytes :=
    if bytes = text then .ok stopped.rows.replicatedSnapshot.wire
    else .error "not the snapshot of this sample"
  toVec wire :=
    if wire = stopped.rows.replicatedSnapshot.wire then .ok text
    else .error "not the snapshot of this sample"

attribute [local instance] snapshotJson

theorem stopped_reachable : stopped.Reachable := by
  have hCreated : ControlStore.create "cluster" "a" 1 (.active 1 .zero)
      (String.ofList (List.replicate 64 '0')) page = .ok created := by decide +kernel
  have hApplied : created.rows.commitRebuildableApply pending entry (.active 1 .zero)
      [receipt "second", receipt "first"] = .ok applied.rows := by decide +kernel
  have hBegun : applied.rows.beginPendingWithEntry pendingStop stopEntry = .ok begun.rows := by
    decide +kernel
  have hStopped : begun.rows.commitApplied pendingStop stopped.rows.configuration [] =
      .ok stopped.rows := by decide +kernel
  have hReached : applied.Reachable :=
    .rebuildable pending entry _ _ (.created _ _ _ _ _ _ hCreated) hApplied
  exact .applied pendingStop _ _ (.begun pendingStop stopEntry hReached hBegun) hStopped

theorem stopped_reads_back : stopped.rows.replicatedSnapshot.wire.ReadsBack :=
  ⟨text, if_pos rfl, if_pos rfl⟩

/-- A new sidecar of another node takes over a bound stop with the receipts before it. -/
theorem second_node_takes_over :
    ∃ encoded imported, stopped.exportReplicatedSnapshot = .ok encoded ∧
      { created with nodeId := "b" }.importReplicatedSnapshotWithRecoveryGeneration
        (fun _ => .ok ()) encoded none = (.ok (), imported) ∧
      imported.nodeId = "b" ∧ imported.rows.receipts.Perm stopped.rows.receipts ∧
      imported.rows.configuration =
        .stopped 1 .zero ⟨2, stopEntry.hash⟩ (.bound successor stop.hash) := by
  obtain ⟨⟨encoded, hExported, -, -, hEvery⟩, -⟩ :=
    snapshots_are_lossless stopped_reachable rfl stopped_reads_back
  obtain ⟨imported, hImported, hTook⟩ :=
    hEvery { created with nodeId := "b" } none ⟨rfl, rfl, rfl⟩ nofun
  exact ⟨encoded, imported, hExported, hImported, hTook.nodeId, hTook.receipts, hTook.configuration⟩

end Carried

end Rhiza.Sql
