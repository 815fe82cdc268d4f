import Rhiza.Core.Configuration
import Rhiza.Sql.PagePatch

/-! # The control sidecar of `rhiza-sql`

Beside the database stands a second one with the applied tip, the configuration,
the identity of the database pages and the receipts of the requests. Each of its
transactions is atomic: it makes all its changes or none.
-/

namespace Rhiza.Sql

open Rhiza.Core Rhiza.Library

structure RequestReceipt where
  requestId : String
  requestDigest : LogHash
  originalAnchor : LogAnchor
  resultBlob : Bytes
  deriving DecidableEq

structure PendingApply where
  base : LogAnchor
  entry : LogAnchor
  baseState : StateIdentity
  targetState : StateIdentity
  deriving DecidableEq

structure Control where
  clusterId : ClusterId
  epoch : Nat
  recoveryGeneration : Nat
  materializerFingerprint : String
  appliedTip : LogAnchor
  configuration : ConfigurationState
  userState : StateIdentity
  receipts : List RequestReceipt
  pending : Option PendingApply
  embeddedQlog : List LogEntry
  deriving DecidableEq

def i64Max : Nat := 2 ^ 63 - 1

def u64ToSql (value : Nat) : Except Error Unit :=
  require (value ≤ i64Max) (.resourceExhausted "control integer exceeds SQLite i64")

def validateState (state : StateIdentity) : Except Error Unit :=
  require (IsPageSize state.pageSize ∧ state.pageCount ≠ 0 ∧ state.stateRoot ≠ .zero)
    (.identityMismatch "user_state")

/-- What the `LEFT JOIN` of `lookup_request_chunk` gives for one request. -/
def lookupOne (receipts : List RequestReceipt) (requestId : String) (requestDigest : LogHash) :
    Except Error (Option RequestReceipt) :=
  match receipts.find? (·.requestId = requestId) with
  | none => .ok none
  | some receipt =>
    if receipt.requestDigest ≠ requestDigest then
      .error (.requestConflict requestId receipt.originalAnchor.index receipt.originalAnchor.hash)
    else .ok (some receipt)

def duplicateId : List String → List String → Option String
  | _, [] => none
  | seen, requestId :: rest =>
    if requestId ∈ seen then some requestId else duplicateId (requestId :: seen) rest

def lookupRequestsFrom (receipts : List RequestReceipt) (requests : List (String × LogHash)) :
    Except Error (List (Except Error (Option RequestReceipt))) := do
  require (requests.length ≤ maxQwalReceipts)
    (.resourceExhausted s!"request lookup exceeds {maxQwalReceipts} members")
  match duplicateId [] (requests.map (·.1)) with
  | some requestId => .error (.invalidCommand s!"duplicate request id in bulk lookup: {requestId}")
  | none => .ok (requests.map fun request => lookupOne receipts request.1 request.2)

section Transactions

variable [Sha256]

def Control.insertOrValidateEmbeddedEntry (control : Control) (entry : LogEntry) :
    Except Error Control := do
  require (entry.clusterId = control.clusterId ∧ entry.epoch = control.epoch ∧
      (control.configuration.validateEntry entry).isOk)
    (.invalidEntry "embedded qlog entry identity is invalid")
  u64ToSql entry.index
  match control.embeddedQlog.find? (·.index = entry.index) with
  | some existing => do
    require (existing = entry) (.invalidEntry "embedded qlog index already contains another entry")
    pure control
  | none => pure { control with embeddedQlog := control.embeddedQlog ++ [entry] }

def Control.commitMetadataOnlyEntryWithLog (control : Control) (expectedBase : LogAnchor)
    (entry : LogEntry) (expectedConfiguration : ConfigurationState)
    (expectedUserState : StateIdentity) : Except Error Control := do
  require (checkedSucc expectedBase.index = some entry.index ∧ entry.recomputeHash = entry.hash)
    (.invalidEntry "metadata-only embedded entry is invalid or not the next slot")
  require (control.pending = none ∧ control.appliedTip = expectedBase ∧
      control.configuration = expectedConfiguration ∧ control.userState = expectedUserState)
    (.invalidEntry "metadata-only embedded commit does not match the committed base")
  let control ← control.insertOrValidateEmbeddedEntry entry
  pure { control with appliedTip := ⟨entry.index, entry.hash⟩ }

def Control.beginPendingWithEntry (control : Control) (pending : PendingApply) (entry : LogEntry) :
    Except Error Control := do
  require (⟨entry.index, entry.hash⟩ = pending.entry ∧ entry.recomputeHash = entry.hash)
    (.invalidEntry "embedded qlog entry does not match the pending apply")
  let control ← control.insertOrValidateEmbeddedEntry entry
  match control.pending with
  | some existing => do
    require (existing = pending) (.invalidEntry "a different physical apply is already pending")
    pure control
  | none => do
    require (pending.base = control.appliedTip ∧ pending.baseState = control.userState)
      (.invalidEntry "pending apply does not match the committed base")
    require (checkedSucc control.appliedTip.index = some pending.entry.index)
      (.invalidEntry "pending apply entry is not the next slot")
    validateState pending.baseState
    validateState pending.targetState
    u64ToSql pending.base.index
    u64ToSql pending.entry.index
    pure { control with pending := some pending }

variable [SqlResultJson]

def RequestReceipt.validate (receipt : RequestReceipt) : Except Error Unit := do
  require (receipt.requestId ≠ "" ∧ (utf8 receipt.requestId).length ≤ 65535)
    (.invalidCommand "request id must contain 1..=65535 bytes")
  require (receipt.resultBlob.length ≤ maxQwalBytes)
    (.resourceExhausted s!"request result exceeds {maxQwalBytes} bytes")
  validateSqlResultBlobBounds receipt.resultBlob

/-- One turn of the loop over the receipts in `commit_applied_transaction`, on the result
bytes counted and the ids seen so far. -/
def checkAppliedReceipt (anchor : LogAnchor) :
    Nat × List String → RequestReceipt → Except Error (Nat × List String)
  | (resultBytes, requestIds), receipt => do
    receipt.validate
    require (resultBytes + receipt.resultBlob.length ≤ maxQwalBytes)
      (.resourceExhausted s!"receipt results exceed {maxQwalBytes} bytes")
    require (receipt.originalAnchor = anchor)
      (.invalidEntry "request receipt anchor does not match applied entry")
    require (receipt.requestId ∉ requestIds)
      (.invalidEntry "applied receipt request ids must be unique")
    pure (resultBytes + receipt.resultBlob.length, receipt.requestId :: requestIds)

def absentReceipts (stored : List RequestReceipt) :
    List RequestReceipt → Except Error (List RequestReceipt)
  | [] => .ok []
  | receipt :: receipts => do
    match ← lookupOne stored receipt.requestId receipt.requestDigest with
    | none => do
      let absent ← absentReceipts stored receipts
      pure (receipt :: absent)
    | some existing => do
      require (existing = receipt) (.requestConflict receipt.requestId existing.originalAnchor.index
        existing.originalAnchor.hash)
      absentReceipts stored receipts

def Control.commitAppliedTransaction (control : Control) (pending : PendingApply)
    (configurationState : ConfigurationState) (receipts : List RequestReceipt) :
    Except Error Control := do
  require (receipts.length ≤ maxQwalReceipts)
    (.resourceExhausted s!"applied receipt batch exceeds {maxQwalReceipts} members")
  require (control.configuration.configId ≤ configurationState.configId)
    (.invalidEntry "configuration state moved backwards")
  let _ ← receipts.foldlM (checkAppliedReceipt pending.entry) (0, [])
  let _ ← lookupRequestsFrom control.receipts
    (receipts.map fun receipt => (receipt.requestId, receipt.requestDigest))
  let absent ← absentReceipts control.receipts receipts
  if absent ≠ [] then u64ToSql pending.entry.index
  validateState pending.targetState
  pure
    { control with
      receipts := control.receipts ++ absent
      appliedTip := pending.entry
      configuration := configurationState
      userState := pending.targetState
      pending := none }

def Control.commitApplied (control : Control) (pending : PendingApply)
    (configurationState : ConfigurationState) (receipts : List RequestReceipt) :
    Except Error Control := do
  require (receipts.length ≤ maxQwalReceipts)
    (.resourceExhausted s!"applied receipt batch exceeds {maxQwalReceipts} members")
  require (control.pending = some pending)
    (.invalidEntry "pending apply intent is missing or different")
  control.commitAppliedTransaction pending configurationState receipts

def Control.commitRebuildableApply (control : Control) (pending : PendingApply) (entry : LogEntry)
    (configurationState : ConfigurationState) (receipts : List RequestReceipt) :
    Except Error Control := do
  require (control.pending.all (· = pending) ∧ control.appliedTip = pending.base ∧
      control.userState = pending.baseState ∧ ⟨entry.index, entry.hash⟩ = pending.entry ∧
      entry.recomputeHash = entry.hash)
    (.invalidEntry "rebuildable apply does not exactly extend the committed base")
  let control ← control.insertOrValidateEmbeddedEntry entry
  control.commitAppliedTransaction pending configurationState receipts

end Transactions

structure Control.WellKept (control : Control) : Prop where
  unique : (control.receipts.map (·.requestId)).Nodup
  anchored : ∀ receipt ∈ control.receipts, receipt.originalAnchor.index ≤ control.appliedTip.index
  pending : ∀ pending, control.pending = some pending → pending.base = control.appliedTip ∧
    pending.baseState = control.userState ∧ pending.targetState = control.userState ∧
    checkedSucc control.appliedTip.index = some pending.entry.index

theorem lookupOne_none {receipts : List RequestReceipt} {requestId : String} {requestDigest : LogHash}
    (h : lookupOne receipts requestId requestDigest = .ok none) :
    requestId ∉ receipts.map (·.requestId) := by
  unfold lookupOne at h
  split at h
  · rename_i hNone
    intro hMem
    obtain ⟨receipt, hReceipt, hId⟩ := List.mem_map.mp hMem
    exact List.find?_eq_none.mp hNone receipt hReceipt (decide_eq_true hId)
  · split at h
    · cases h
    · cases h

theorem lookupOne_some {receipts : List RequestReceipt} {requestId : String} {requestDigest : LogHash}
    {found : RequestReceipt} (h : lookupOne receipts requestId requestDigest = .ok (some found)) :
    found ∈ receipts := by
  unfold lookupOne at h
  split at h
  · cases h
  · rename_i receipt hFound
    split at h
    · cases h
    · cases h
      exact List.mem_of_find?_eq_some hFound

theorem absentReceipts_eq_ok {stored receipts absent : List RequestReceipt}
    (h : absentReceipts stored receipts = .ok absent)
    (hNew : ∀ receipt ∈ receipts, receipt ∉ stored) :
    absent = receipts ∧ ∀ receipt ∈ receipts, receipt.requestId ∉ stored.map (·.requestId) := by
  induction receipts generalizing absent with
  | nil =>
    cases h
    exact ⟨rfl, nofun⟩
  | cons first rest ih =>
    obtain ⟨hFirst, hRest⟩ := List.forall_mem_cons.mp hNew
    obtain ⟨found, hFound, h⟩ := bind_ok_iff.mp h
    cases found with
    | none =>
      obtain ⟨later, hLater, h⟩ := bind_ok_iff.mp h
      cases h
      obtain ⟨rfl, hAbsent⟩ := ih hLater hRest
      exact ⟨rfl, List.forall_mem_cons.mpr ⟨lookupOne_none hFound, hAbsent⟩⟩
    | some existing =>
      -- a receipt that is stored already would have been left by an earlier entry
      obtain ⟨_, hSame, -⟩ := bind_ok_iff.mp h
      obtain rfl := require_eq_ok.mp hSame
      exact absurd (lookupOne_some hFound) hFirst

theorem Control.WellKept.withEmbedded {control : Control} (h : control.WellKept)
    (embeddedQlog : List LogEntry) : WellKept { control with embeddedQlog } :=
  ⟨h.unique, h.anchored, h.pending⟩

theorem Control.WellKept.advance {control : Control} {tip : LogAnchor} {userState : StateIdentity}
    {configuration : ConfigurationState} {receipts : List RequestReceipt}
    {embeddedQlog : List LogEntry} (h : control.WellKept)
    (hNext : control.appliedTip.index < tip.index) (hUnique : (receipts.map (·.requestId)).Nodup)
    (hFresh : ∀ receipt ∈ receipts, receipt.requestId ∉ control.receipts.map (·.requestId))
    (hAnchor : ∀ receipt ∈ receipts, receipt.originalAnchor = tip) :
    WellKept
      { control with
        receipts := control.receipts ++ receipts
        appliedTip := tip
        configuration
        userState
        pending := none
        embeddedQlog } where
  unique := by
    rw [List.map_append]
    refine h.unique.append hUnique fun requestId hOld hNew => ?_
    obtain ⟨receipt, hReceipt, rfl⟩ := List.mem_map.mp hNew
    exact hFresh receipt hReceipt hOld
  anchored receipt hReceipt := by
    rcases List.mem_append.mp hReceipt with hOld | hNew
    · exact Nat.le_trans (h.anchored receipt hOld) (Nat.le_of_lt hNext)
    · rw [hAnchor receipt hNew]
  pending := nofun

section Receipts

variable [SqlResultJson]

theorem checkAppliedReceipts_eq_ok {anchor : LogAnchor} {receipts : List RequestReceipt}
    {counted counted' : Nat × List String}
    (h : receipts.foldlM (checkAppliedReceipt anchor) counted = .ok counted') :
    (∀ receipt ∈ receipts, receipt.originalAnchor = anchor ∧ receipt.requestId ∉ counted.2) ∧
      (receipts.map (·.requestId)).Nodup := by
  induction receipts generalizing counted with
  | nil => exact ⟨nofun, List.nodup_nil⟩
  | cons first rest ih =>
    obtain ⟨next, hFirst, h⟩ := bind_ok_iff.mp h
    obtain ⟨resultBytes, requestIds⟩ := counted
    obtain ⟨_, -, hFirst⟩ := bind_ok_iff.mp hFirst
    obtain ⟨_, -, hFirst⟩ := bind_ok_iff.mp hFirst
    obtain ⟨_, hAnchor, hFirst⟩ := bind_ok_iff.mp hFirst
    obtain ⟨_, hFresh, hFirst⟩ := bind_ok_iff.mp hFirst
    cases hFirst
    obtain ⟨hRest, hUnique⟩ := ih h
    refine ⟨List.forall_mem_cons.mpr ⟨⟨require_eq_ok.mp hAnchor, require_eq_ok.mp hFresh⟩, ?_⟩, ?_⟩
    · intro receipt hReceipt
      obtain ⟨hSame, hNot⟩ := hRest receipt hReceipt
      exact ⟨hSame, fun hMem => hNot (List.mem_cons_of_mem _ hMem)⟩
    · refine List.nodup_cons.mpr ⟨fun hMem => ?_, hUnique⟩
      obtain ⟨receipt, hReceipt, hId⟩ := List.mem_map.mp hMem
      exact (hRest receipt hReceipt).2 (hId ▸ List.mem_cons_self)

/-- `commit_applied` accepts new receipts of the entry only, and sets the rest. -/
structure Commits (control : Control) (pending : PendingApply)
    (configurationState : ConfigurationState) (receipts : List RequestReceipt)
    (control' : Control) : Prop where
  distinct : (receipts.map (·.requestId)).Nodup
  fresh : ∀ receipt ∈ receipts, receipt.requestId ∉ control.receipts.map (·.requestId)
  anchored : ∀ receipt ∈ receipts, receipt.originalAnchor = pending.entry
  control_eq : control' =
    { control with
      receipts := control.receipts ++ receipts
      appliedTip := pending.entry
      configuration := configurationState
      userState := pending.targetState
      pending := none }

theorem Control.commitAppliedTransaction_eq_ok {control control' : Control} {pending : PendingApply}
    {configurationState : ConfigurationState} {receipts : List RequestReceipt}
    (hKept : control.WellKept) (hNext : control.appliedTip.index < pending.entry.index)
    (h : control.commitAppliedTransaction pending configurationState receipts = .ok control') :
    Commits control pending configurationState receipts control' := by
  obtain ⟨_, -, h⟩ := bind_ok_iff.mp h
  obtain ⟨_, -, h⟩ := bind_ok_iff.mp h
  obtain ⟨counted, hCounted, h⟩ := bind_ok_iff.mp h
  obtain ⟨_, -, h⟩ := bind_ok_iff.mp h
  obtain ⟨absent, hAbsent, h⟩ := bind_ok_iff.mp h
  obtain ⟨hEach, hUnique⟩ := checkAppliedReceipts_eq_ok hCounted
  have hNew : ∀ receipt ∈ receipts, receipt ∉ control.receipts := by
    intro receipt hReceipt hStored
    have hBelow := hKept.anchored receipt hStored
    rw [(hEach receipt hReceipt).1] at hBelow
    omega
  obtain ⟨hAll, hFresh⟩ := absentReceipts_eq_ok hAbsent hNew
  refine ⟨hUnique, hFresh, fun receipt hReceipt => (hEach receipt hReceipt).1, ?_⟩
  rw [hAll] at h
  split at h
  · obtain ⟨_, -, h⟩ := bind_ok_iff.mp h
    obtain ⟨_, -, h⟩ := bind_ok_iff.mp h
    cases h
    rfl
  · obtain ⟨_, -, h⟩ := bind_ok_iff.mp h
    cases h
    rfl

theorem Control.commitApplied_eq_ok {control control' : Control} {pending : PendingApply}
    {configurationState : ConfigurationState} {receipts : List RequestReceipt}
    (hKept : control.WellKept) (hNext : control.appliedTip.index < pending.entry.index)
    (h : control.commitApplied pending configurationState receipts = .ok control') :
    Commits control pending configurationState receipts control' := by
  obtain ⟨_, -, h⟩ := bind_ok_iff.mp h
  obtain ⟨_, -, h⟩ := bind_ok_iff.mp h
  exact commitAppliedTransaction_eq_ok hKept hNext h

end Receipts

section Specifications

variable [Sha256]

theorem Control.insertOrValidateEmbeddedEntry_eq_ok {control control' : Control} {entry : LogEntry}
    (h : control.insertOrValidateEmbeddedEntry entry = .ok control') :
    ∃ embeddedQlog, control' = { control with embeddedQlog } := by
  obtain ⟨_, -, h⟩ := bind_ok_iff.mp h
  obtain ⟨_, -, h⟩ := bind_ok_iff.mp h
  split at h
  · obtain ⟨_, -, h⟩ := bind_ok_iff.mp h
    cases h
    exact ⟨control.embeddedQlog, rfl⟩
  · cases h
    exact ⟨_, rfl⟩

theorem Control.commitMetadataOnlyEntryWithLog_eq_ok {control control' : Control}
    {expectedBase : LogAnchor} {entry : LogEntry} {expectedConfiguration : ConfigurationState}
    {expectedUserState : StateIdentity}
    (h : control.commitMetadataOnlyEntryWithLog expectedBase entry expectedConfiguration
      expectedUserState = .ok control') :
    control.pending = none ∧ ∃ embeddedQlog,
      control' = { control with embeddedQlog, appliedTip := ⟨entry.index, entry.hash⟩ } := by
  obtain ⟨_, -, h⟩ := bind_ok_iff.mp h
  obtain ⟨_, hBase, h⟩ := bind_ok_iff.mp h
  obtain ⟨inserted, hInserted, h⟩ := bind_ok_iff.mp h
  obtain ⟨embeddedQlog, rfl⟩ := insertOrValidateEmbeddedEntry_eq_ok hInserted
  cases h
  exact ⟨(require_eq_ok.mp hBase).1, embeddedQlog, rfl⟩

theorem Control.beginPendingWithEntry_eq_ok {control control' : Control} {pending : PendingApply}
    {entry : LogEntry} (h : control.beginPendingWithEntry pending entry = .ok control') :
    ∃ embeddedQlog, control' = { control with embeddedQlog, pending := some pending } := by
  obtain ⟨_, -, h⟩ := bind_ok_iff.mp h
  obtain ⟨inserted, hInserted, h⟩ := bind_ok_iff.mp h
  obtain ⟨embeddedQlog, rfl⟩ := insertOrValidateEmbeddedEntry_eq_ok hInserted
  refine ⟨embeddedQlog, ?_⟩
  split at h
  · rename_i existing hExisting
    obtain ⟨_, hSame, h⟩ := bind_ok_iff.mp h
    cases h
    rw [← require_eq_ok.mp hSame, ← hExisting]
  · obtain ⟨_, -, h⟩ := bind_ok_iff.mp h
    obtain ⟨_, -, h⟩ := bind_ok_iff.mp h
    obtain ⟨_, -, h⟩ := bind_ok_iff.mp h
    obtain ⟨_, -, h⟩ := bind_ok_iff.mp h
    obtain ⟨_, -, h⟩ := bind_ok_iff.mp h
    obtain ⟨_, -, h⟩ := bind_ok_iff.mp h
    cases h
    rfl

theorem Control.commitRebuildableApply_eq_ok [SqlResultJson] {control control' : Control}
    {pending : PendingApply} {entry : LogEntry} {configurationState : ConfigurationState}
    {receipts : List RequestReceipt} (hKept : control.WellKept)
    (hNext : control.appliedTip.index < pending.entry.index)
    (h : control.commitRebuildableApply pending entry configurationState receipts = .ok control') :
    (receipts.map (·.requestId)).Nodup ∧
      (∀ receipt ∈ receipts, receipt.requestId ∉ control.receipts.map (·.requestId)) ∧
      (∀ receipt ∈ receipts, receipt.originalAnchor = pending.entry) ∧
      ∃ embeddedQlog, control' =
        { control with
          embeddedQlog
          receipts := control.receipts ++ receipts
          appliedTip := pending.entry
          configuration := configurationState
          userState := pending.targetState
          pending := none } := by
  obtain ⟨_, -, h⟩ := bind_ok_iff.mp h
  obtain ⟨inserted, hInserted, h⟩ := bind_ok_iff.mp h
  obtain ⟨embeddedQlog, rfl⟩ := insertOrValidateEmbeddedEntry_eq_ok hInserted
  obtain ⟨hUnique, hFresh, hAnchor, hResult⟩ :=
    commitAppliedTransaction_eq_ok (hKept.withEmbedded embeddedQlog) hNext h
  exact ⟨hUnique, hFresh, hAnchor, embeddedQlog, hResult⟩

end Specifications

end Rhiza.Sql
