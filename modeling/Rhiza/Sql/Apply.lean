import Rhiza.Sql.Control

/-! # Applying log entries in `rhiza-sql`

An entry is applied to the database file first and recorded in the control
sidecar afterwards. Every call out of `apply_entry` may fail. What a failed call
leaves behind is fenced: only a retry of the same entry gets past the fence.
-/

namespace Rhiza.Sql

open Rhiza.Core Rhiza.Library

/-- The calls that fail on their own: reads and transactions of the control sidecar, and
operations on the database file and its connection. -/
inductive Op
  | verifySeal
  | readPending
  | readIdentity
  | readTip
  | readReceipts
  | readConfiguration
  | readUserState
  | verifyBase
  | readReplaySeal
  | readPreparedIdentity
  | close
  | targetSeal
  | rename
  | openInstalled
  | checkpoint
  | openCanonical
  | writePages
  | refreshSeal
  | reopen
  | beginPending
  | commit
  deriving DecidableEq

/-- The staging file of a `PreparedTarget`, and what its effect said. The node id in it is the
machine's own. -/
structure PreparedTarget where
  artifact : Bytes
  clusterId : ClusterId
  epoch : Nat
  configurationId : Nat
  recoveryGeneration : Nat
  materializerFingerprint : String
  baseIndex : Nat
  baseHash : LogHash
  baseState : StateIdentity
  targetState : StateIdentity
  effectDigest : LogHash

/-- What one call of `apply_entry` meets: what fails during it (if the page writes do, `written`
pages are in the file already), and the target that a preparation before it left behind. -/
structure Faults where
  fails : Op → Bool
  written : Nat
  prepared : Option PreparedTarget

def Faults.none : Faults := ⟨fun _ => false, 0, .none⟩

def Faults.check (faults : Faults) (op : Op) : Except Error Unit :=
  if faults.fails op then .error (.sqlite "database failure") else .ok ()

/-- `SqliteStateMachine`. The seal is good as long as nothing was written to the file since it
was taken. The slot of the prepared target is filled between the calls and emptied by them,
so what it holds is part of what a call meets. -/
structure Machine where
  control : Control
  canonical : Bytes
  cache : PageStateCache
  isSealed : Bool
  connected : Bool
  pendingFence : Bool
  uncommittedEffect : Option LogHash
  deriving DecidableEq

structure ApplyOutcome where
  progress : LogAnchor
  sqlResult : Option SqlCommandResult
  deriving DecidableEq

class QwalPostcard where
  fromBytes : Bytes → Except String QwalEnvelope
  toAllocvec : QwalEnvelope → Except String Bytes

def qwalMagic : Bytes := utf8 "QWAL" ++ [0, 4]

section Decoding

variable [SqlResultJson] [QwalPostcard]

/-- `decode_qwal_v3`. -/
def decodeQwal (bytes : Bytes) : Except Error QwalEnvelope := do
  require (bytes.length ≤ maxQwalBytes)
    (.resourceExhausted s!"QWAL envelope exceeds {maxQwalBytes} bytes")
  require (bytes.take qwalMagic.length = qwalMagic) (.invalidEntry "invalid QWAL v3 magic")
  let body := bytes.drop qwalMagic.length
  require (body ≠ []) (.invalidEntry "empty QWAL v3 body")
  match QwalPostcard.fromBytes body with
  | .error error => .error (.invalidEntry s!"QWAL decode failed: {error}")
  | .ok effect => do
    effect.validate
    match QwalPostcard.toAllocvec effect with
    | .error error => .error (.invalidEntry s!"QWAL re-encode failed: {error}")
    | .ok canonical => do
      require (canonical = body) (.invalidEntry "QWAL body is not canonically encoded")
      pure effect

def decodeQwalCommand (payload : Bytes) : Except Error QwalEnvelope := do
  require (payload.take qwalMagic.length = qwalMagic)
    (.invalidCommand "QWAL-only SQLite apply requires a QWAL v3 payload")
  decodeQwal payload

end Decoding

def validateQwalIdentity (effect : QwalEnvelope) (control : Control) : Except Error Unit :=
  require (effect.clusterId = control.clusterId ∧ effect.epoch = control.epoch ∧
      effect.configurationId = control.configuration.configId ∧
      effect.recoveryGeneration = control.recoveryGeneration ∧
      effect.materializerFingerprint = control.materializerFingerprint ∧
      effect.baseState = control.userState)
    (.invalidEntry "QWAL effect identity or materializer fingerprint mismatch")

def QwalReceipt.at (receipt : QwalReceipt) (anchor : LogAnchor) : RequestReceipt :=
  ⟨receipt.requestId, receipt.requestDigest, anchor, receipt.resultBlob⟩

def lookupRequest (receipts : List RequestReceipt) (requestId : String) (requestDigest : LogHash) :
    Except Error (Option RequestReceipt) := do
  match ← lookupRequestsFrom receipts [(requestId, requestDigest)] with
  | [found] => found
  | _ => .error .panicked

def decodeResults [SqlResultJson] : List QwalReceipt → Except Error (List SqlCommandResult)
  | [] => .ok []
  | receipt :: receipts => do
    let result ← decodeSqlResult receipt.resultBlob
    let encoded ← encodeSqlResult result
    require (encoded = receipt.resultBlob) (.invalidEntry "QWAL result is not canonically encoded")
    let results ← decodeResults receipts
    pure (result :: results)

def singleResult : List SqlCommandResult → Option SqlCommandResult
  | [result] => some result
  | _ => none

def checkExisting : List RequestReceipt → List (Except Error (Option RequestReceipt)) →
    Except Error Unit
  | expected :: receipts, existing :: found => do
    match ← existing with
    | none => checkExisting receipts found
    | some existing => do
      require (existing = expected)
        (.invalidEntry "QWAL request receipt already belongs to another entry or result")
      checkExisting receipts found
  | _, _ => .ok ()

/-- What `apply_qwal_entry` has found out before it changes anything. -/
inductive Plan
  | replayed (outcome : ApplyOutcome)
  | metadataOnly
  | configure (pending : PendingApply) (next : ConfigurationState)
  | install (effect : QwalEnvelope) (pending : PendingApply) (next : ConfigurationState)
      (receipts : List RequestReceipt) (sqlResult : Option SqlCommandResult)

section Applying

variable [Sha256] [SqlResultJson] [QwalPostcard]

/-- The checks of `apply_entry_with_result`. -/
def Machine.checkEntry (m : Machine) (faults : Faults) (entry : LogEntry) : Except Error Unit := do
  faults.check .verifySeal
  require m.isSealed
    (.invalidEntry "canonical SQLite file no longer matches the cached page-state seal")
  require (entry.recomputeHash = entry.hash) (.invalidEntry "hash does not match entry contents")
  match m.uncommittedEffect with
  | some installed =>
    require (entry.entryType = .command ∧ installed = LogHash.digest [entry.payload])
      (.invalidEntry "only the exact installed QWAL effect may retry after control failure")
  | none =>
    if m.pendingFence then do
      faults.check .readPending
      require (m.control.pending.map (·.entry) = some ⟨entry.index, entry.hash⟩)
        (.invalidEntry "only the exact durable pending entry may retry physical apply")

omit [Sha256] in
def replayedResult (receipts : List RequestReceipt) (faults : Faults) (entry : LogEntry) :
    Except Error (Option SqlCommandResult) :=
  if entry.entryType = .command then do
    let effect ← decodeQwalCommand entry.payload
    match effect.receipts with
    | [receipt] => do
      faults.check .readReceipts
      match ← lookupRequest receipts receipt.requestId receipt.requestDigest with
      | none => pure none
      | some found => do
        let result ← decodeSqlResult found.resultBlob
        pure (some result)
    | _ => pure none
  else pure none

def checkMetadataType (entry : LogEntry) : Except Error Unit :=
  match entry.entryType with
  | .noop => require (entry.payload = []) (.invalidEntry "Noop payload must be empty")
  | .configChange => .ok ()
  | .snapshotBarrier => .error (.invalidEntry "entry type SnapshotBarrier is unsupported by QWAL")
  | .snapshotPublished =>
    .error (.invalidEntry "entry type SnapshotPublished is unsupported by QWAL")
  | .command => .error .panicked

/-- The part of `apply_qwal_entry` for an entry that is no command. -/
def Machine.planMetadata (m : Machine) (faults : Faults) (entry : LogEntry)
    (next : ConfigurationState) : Except Error Plan := do
  checkMetadataType entry
  faults.check .readUserState
  if entry.entryType = .noop ∧ next = m.control.configuration then pure .metadataOnly
  else
    pure (.configure ⟨m.control.appliedTip, ⟨entry.index, entry.hash⟩, m.control.userState,
      m.control.userState⟩ next)

/-- The part of `apply_qwal_entry` for a command, up to the fence. -/
def Machine.planInstall (m : Machine) (faults : Faults) (entry : LogEntry)
    (next : ConfigurationState) : Except Error Plan := do
  let effect ← decodeQwalCommand entry.payload
  validateQwalIdentity effect m.control
  require (effect.baseIndex = m.control.appliedTip.index ∧ effect.baseHash = m.control.appliedTip.hash)
    (.invalidEntry "QWAL effect base does not match the applied tip")
  let results ← decodeResults effect.receipts
  let receipts := effect.receipts.map (·.at ⟨entry.index, entry.hash⟩)
  faults.check .readReceipts
  let existing ← lookupRequestsFrom m.control.receipts
    (effect.receipts.map fun receipt => (receipt.requestId, receipt.requestDigest))
  checkExisting receipts existing
  pure (.install effect
    ⟨m.control.appliedTip, ⟨entry.index, entry.hash⟩, effect.baseState, effect.targetState⟩ next
    receipts (singleResult results))

/-- `apply_qwal_entry` up to its first change. -/
def Machine.plan (m : Machine) (faults : Faults) (entry : LogEntry) : Except Error Plan := do
  faults.check .readIdentity
  require (entry.clusterId = m.control.clusterId)
    (.invalidEntry "cluster_id does not match sidecar")
  require (entry.epoch = m.control.epoch) (.invalidEntry "epoch does not match sidecar")
  faults.check .readTip
  if entry.index = m.control.appliedTip.index then
    require (entry.hash = m.control.appliedTip.hash)
      (.invalidEntry "current index was reapplied with a different hash")
    let sqlResult ← replayedResult m.control.receipts faults entry
    pure (.replayed ⟨m.control.appliedTip, sqlResult⟩)
  else
    match checkedSucc m.control.appliedTip.index with
    | none => .error (.invalidEntry "applied index is exhausted")
    | some nextIndex => do
      require (entry.index = nextIndex ∧ entry.prevHash = m.control.appliedTip.hash)
        (.invalidEntry "entry does not extend the QWAL applied tip")
      faults.check .readConfiguration
      match m.control.configuration.validateEntry entry with
      | .error error => .error (.invalidEntry error.message)
      | .ok next =>
        if entry.entryType = .command then m.planInstall faults entry next
        else m.planMetadata faults entry next

def Machine.preverifyPageStateTransition (m : Machine) (faults : Faults) (effect : QwalEnvelope)
    (effectPayload : Bytes) (entryAnchor : LogAnchor) : Except Error Bool := do
  faults.check .verifyBase
  require m.isSealed
    (.invalidEntry "canonical SQLite file no longer matches the cached page-state seal")
  let current ← m.cache.identity
  if current = effect.targetState ∧ current ≠ effect.baseState then
    if m.uncommittedEffect = some (LogHash.digest [effectPayload]) then pure false
    else if m.pendingFence then do
      faults.check .readReplaySeal
      require (m.control.pending.any fun pending => pending.baseState = effect.baseState ∧
          pending.targetState = effect.targetState ∧ pending.entry = entryAnchor)
        (.invalidEntry "QWAL target is installed without an exact in-process replay seal")
      pure false
    else
      .error (.invalidEntry "QWAL target is installed without an exact in-process replay seal")
  else
    require (current = effect.baseState)
      (.invalidEntry "QWAL base page state does not match the canonical cache")
    let target ← m.cache.overlay effect.targetState.pageCount effect.pages
    require (target = effect.targetState) (.invalidEntry "QWAL target page state mismatch")
    pure (current ≠ effect.targetState)

def Machine.reopenConnection (m : Machine) (faults : Faults) : Except Error Unit × Machine :=
  if faults.fails .reopen then (.error (.sqlite "database failure"), m)
  else (.ok (), { m with connected := true })

def Machine.rememberUncommittedEffect (m : Machine) (effectPayload : Bytes) : Machine :=
  { m with uncommittedEffect := some (LogHash.digest [effectPayload]) }

omit [Sha256] [QwalPostcard] in
/-- The checks of `apply_preverified_qwal_in_place` before it writes. -/
def QwalEnvelope.checkBase (effect : QwalEnvelope) (file : Bytes) : Except Error Unit := do
  effect.validate
  let baseBytes ← stateFileBytes effect.baseState "base"
  require (file.length = baseBytes) (.invalidEntry "QWAL base file size mismatch")
  let pageSize ← sqlitePageSize file
  require (pageSize = effect.baseState.pageSize) (.invalidEntry "QWAL base page size mismatch")

def QwalEnvelope.writeInto (effect : QwalEnvelope) (written : Nat) (file : Bytes) : Bytes :=
  overwrite effect.targetState.pageSize (effect.pages.take written)
    (Paged.setLen (effect.targetState.pageCount * effect.targetState.pageSize) file)

/-- `publish_page_state_after_install` and what `install_qwal_effect` does after it. -/
def Machine.publishInstalled (m : Machine) (faults : Faults) (effect : QwalEnvelope)
    (effectPayload : Bytes) : Except Error Unit × Machine :=
  if faults.fails .refreshSeal then (.error (.io "database failure"), m)
  else
    match m.cache.applyPatch effect.targetState.pageCount effect.pages with
    | (.error error, cache) => (.error error, { m with cache })
    | (.ok target, cache) =>
      let m := { m with cache }
      if target ≠ effect.targetState then
        (.error (.invalidEntry "installed QWAL target page state invariant failed"), m)
      else
        ({ m with isSealed := true }.rememberUncommittedEffect effectPayload).reopenConnection faults

def Machine.installInPlace (m : Machine) (faults : Faults) (effect : QwalEnvelope)
    (effectPayload : Bytes) : Except Error Unit × Machine :=
  match effect.checkBase m.canonical with
  | .error error => (.error error, m)
  | .ok _ =>
    if faults.fails .writePages then
      (.error (.io "database failure"),
        { m with canonical := effect.writeInto faults.written m.canonical, isSealed := false })
    else
      match applyPreverifiedQwalInPlace m.canonical effect with
      | .error error =>
        (.error error,
          { m with canonical := effect.writeInto effect.pages.length m.canonical, isSealed := false })
      | .ok installed =>
        { m with canonical := installed, isSealed := false }.publishInstalled faults effect
          effectPayload

omit [SqlResultJson] [QwalPostcard] in
def PreparedTarget.matches (prepared : PreparedTarget) (effect : QwalEnvelope)
    (effectPayload : Bytes) (control : Control) : Prop :=
  prepared.clusterId = effect.clusterId ∧ prepared.clusterId = control.clusterId ∧
    prepared.epoch = effect.epoch ∧ prepared.epoch = control.epoch ∧
    prepared.configurationId = effect.configurationId ∧
    prepared.recoveryGeneration = effect.recoveryGeneration ∧
    prepared.materializerFingerprint = effect.materializerFingerprint ∧
    prepared.baseIndex = effect.baseIndex ∧ prepared.baseHash = effect.baseHash ∧
    prepared.baseState = effect.baseState ∧ prepared.targetState = effect.targetState ∧
    prepared.effectDigest = LogHash.digest [effectPayload]

instance (prepared : PreparedTarget) (effect : QwalEnvelope) (effectPayload : Bytes)
    (control : Control) : Decidable (prepared.matches effect effectPayload control) :=
  inferInstanceAs (Decidable (_ ∧ _))

/-- The part of `install_qwal_effect` that patches the canonical file. -/
def Machine.patchCanonical (m : Machine) (faults : Faults) (effect : QwalEnvelope)
    (effectPayload : Bytes) : Except Error Unit × Machine :=
  if ¬m.connected then (.error (.sqlite "SQLite connection is closed"), m)
  else if faults.fails .checkpoint then (.error (.sqlite "SQLite WAL checkpoint is busy"), m)
  else
    let m := { m with connected := false }
    if faults.fails .close then (.error (.sqlite "database failure"), m)
    else if faults.fails .openCanonical then (.error (.io "database failure"), m)
    else m.installInPlace faults effect effectPayload

/-- The part of `install_qwal_effect` that renames a prepared target into place. -/
def Machine.promote (m : Machine) (faults : Faults) (prepared : PreparedTarget)
    (effect : QwalEnvelope) (effectPayload : Bytes) : Except Error Unit × Machine :=
  let m := { m with connected := false }
  if faults.fails .close then (.error (.sqlite "database failure"), m)
  else if faults.fails .rename then (.error (.io "database failure"), (m.reopenConnection faults).2)
  else
    match promotePreparedTarget (!faults.fails .targetSeal) prepared.artifact effect with
    | none =>
      match m.reopenConnection faults with
      | (.error error, m) => (.error error, m)
      | (.ok _, m) => m.patchCanonical faults effect effectPayload
    | some installed =>
      let m := { m with canonical := installed, isSealed := false }
      if faults.fails .openInstalled then (.error (.io "database failure"), m)
      else
        match verifyInstalledPages installed effect with
        | .error error => (.error error, m)
        | .ok _ => m.publishInstalled faults effect effectPayload

def Machine.installQwalEffect (m : Machine) (faults : Faults) (effect : QwalEnvelope)
    (effectPayload : Bytes) (entryAnchor : LogAnchor) : Except Error Unit × Machine :=
  match m.preverifyPageStateTransition faults effect effectPayload entryAnchor with
  | .error error => (.error error, m)
  | .ok false =>
    let m := m.rememberUncommittedEffect effectPayload
    if m.connected then (.ok (), m) else m.reopenConnection faults
  | .ok true =>
    if faults.fails .readPreparedIdentity then (.error (.sqlite "database failure"), m)
    else
      match faults.prepared.filter (·.matches effect effectPayload m.control) with
      | none => m.patchCanonical faults effect effectPayload
      | some prepared => m.promote faults prepared effect effectPayload

def Faults.commits (faults : Faults) (op : Op) (transaction : Except Error Control) :
    Except Error Control := do
  faults.check op
  transaction

/-- The rest of `apply_qwal_entry`. -/
def Machine.carryOut (m : Machine) (faults : Faults) (entry : LogEntry) :
    Plan → Except Error ApplyOutcome × Machine
  | .replayed outcome => (.ok outcome, m)
  | .metadataOnly =>
    match faults.commits .commit (m.control.commitMetadataOnlyEntryWithLog m.control.appliedTip entry
        m.control.configuration m.control.userState) with
    | .error error => (.error error, m)
    | .ok control => (.ok ⟨⟨entry.index, entry.hash⟩, none⟩, { m with control })
  | .configure pending next =>
    let m := { m with pendingFence := true }
    match faults.commits .beginPending (m.control.beginPendingWithEntry pending entry) with
    | .error error => (.error error, m)
    | .ok control =>
      let m := { m with control }
      match faults.commits .commit (control.commitApplied pending next []) with
      | .error error => (.error error, m)
      | .ok control =>
        (.ok ⟨⟨entry.index, entry.hash⟩, none⟩, { m with control, pendingFence := false })
  | .install effect pending next receipts sqlResult =>
    match { m with pendingFence := true }.installQwalEffect faults effect entry.payload
        ⟨entry.index, entry.hash⟩ with
    | (.error error, m) => (.error error, m)
    | (.ok _, m) =>
      match faults.commits .commit (m.control.commitRebuildableApply pending entry next receipts) with
      | .error error => (.error error, { m with connected := false })
      | .ok control =>
        (.ok ⟨⟨entry.index, entry.hash⟩, sqlResult⟩,
          { m with control, pendingFence := false, uncommittedEffect := none })

/-- `apply_entry_with_result`. -/
def Machine.applyEntry (m : Machine) (faults : Faults) (entry : LogEntry) :
    Except Error ApplyOutcome × Machine :=
  match m.checkEntry faults entry with
  | .error error => (.error error, m)
  | .ok _ =>
    match m.plan faults entry with
    | .error error => (.error error, m)
    | .ok plan => m.carryOut faults entry plan

/-- `get_value` and the other reads, of what `read` finds in the database file. -/
def Machine.read {α : Type} (m : Machine) (find : Bytes → Except Error α) : Except Error α := do
  require (m.pendingFence = false)
    (.invalidEntry "canonical SQLite state is unavailable while a QWAL apply is pending")
  require m.connected (.sqlite "SQLite connection is closed")
  find m.canonical

/-- `rebuild_sealed_page_state`. -/
def rebuildPageState (file : Bytes) : Except Error PageStateCache := do
  let pageSize ← sqlitePageSize file
  PageStateCache.fromPages pageSize (Paged.chunksExact pageSize file)

def Control.validateNewIdentity (control : Control) : Except Error Unit := do
  require (control.clusterId ≠ "") (.identityMismatch "cluster_id")
  require (control.epoch ≠ 0) (.identityMismatch "epoch")
  validateState control.userState

def Machine.opened (control : Control) (canonical : Bytes) (cache : PageStateCache)
    (pendingFence : Bool) : Machine :=
  { control, canonical, cache, isSealed := true, connected := true, pendingFence,
    uncommittedEffect := none }

/-- `create_new`, on the database file that SQLite made. -/
def Machine.createNew (clusterId : ClusterId) (epoch : Nat) (configuration : ConfigurationState)
    (materializerFingerprint : String) (file : Bytes) : Except Error Machine := do
  let cache ← rebuildPageState file
  let userState ← cache.identity
  let control : Control :=
    { clusterId, epoch, recoveryGeneration := 1, materializerFingerprint
      appliedTip := ⟨0, .zero⟩, configuration, userState, receipts := [], pending := none
      embeddedQlog := [] }
  control.validateNewIdentity
  pure (Machine.opened control file cache false)

def validateControlDatabasePair (control : Control) (file : Bytes) :
    Except Error (PageStateCache × Bool) := do
  let cache ← rebuildPageState file
  let actual ← cache.identity
  match control.pending with
  | some pending =>
    match checkedSucc control.appliedTip.index with
    | none => .error (.invalidEntry "pending QWAL entry index is exhausted")
    | some expectedEntryIndex => do
      require (pending.base = control.appliedTip ∧ pending.baseState = control.userState ∧
          pending.entry.index = expectedEntryIndex)
        (.invalidEntry "pending QWAL intent does not extend the committed control state")
      require (actual = pending.baseState ∨ actual = pending.targetState)
        (.invalidEntry "pending QWAL database state matches neither base nor target")
      pure (cache, true)
  | none => do
    require (actual = control.userState)
      (.invalidEntry "canonical SQLite page state does not match the control sidecar")
    pure (cache, false)

/-- `open_existing_file`. Its SQLite checks of the database may fail on their own. -/
def Machine.openExistingFile (control : Control) (file : Bytes) : Except Error Machine := do
  control.validateNewIdentity
  control.receipts.forM RequestReceipt.validate
  let (cache, pending) ← validateControlDatabasePair control file
  pure (Machine.opened control file cache pending)

omit [SqlResultJson] [QwalPostcard] in
theorem Machine.checkEntry_eq_ok {m : Machine} {faults : Faults} {entry : LogEntry} {u : Unit}
    (h : m.checkEntry faults entry = .ok u) :
    m.isSealed = true ∧ entry.recomputeHash = entry.hash ∧
      (∀ installed, m.uncommittedEffect = some installed →
        entry.entryType = .command ∧ installed = LogHash.digest [entry.payload]) ∧
      (m.uncommittedEffect = none → m.pendingFence = true →
        m.control.pending.map (·.entry) = some ⟨entry.index, entry.hash⟩) := by
  obtain ⟨_, -, h⟩ := bind_ok_iff.mp h
  obtain ⟨_, hSealed, h⟩ := bind_ok_iff.mp h
  obtain ⟨_, hHash, h⟩ := bind_ok_iff.mp h
  refine ⟨require_eq_ok.mp hSealed, require_eq_ok.mp hHash, fun installed hInstalled => ?_,
    fun hNone hFence => ?_⟩
  · rw [hInstalled] at h
    exact require_eq_ok.mp h
  · rw [hNone] at h
    simp only [hFence, if_true] at h
    obtain ⟨_, -, h⟩ := bind_ok_iff.mp h
    exact require_eq_ok.mp h

inductive Machine.Planned (m : Machine) (faults : Faults) (entry : LogEntry) : Plan → Prop
  | replayed (sqlResult : Option SqlCommandResult)
    (hTip : LogAnchor.mk entry.index entry.hash = m.control.appliedTip)
    (hResult : replayedResult m.control.receipts faults entry = .ok sqlResult) :
    Planned m faults entry (.replayed ⟨m.control.appliedTip, sqlResult⟩)
  | metadataOnly (hLog : ExtendsLog m.control.clusterId m.control.epoch m.control.appliedTip entry)
    (hNext : m.control.configuration.validateEntry entry = .ok m.control.configuration)
    (hType : entry.entryType ≠ .command) : Planned m faults entry .metadataOnly
  | configure (next : ConfigurationState)
    (hLog : ExtendsLog m.control.clusterId m.control.epoch m.control.appliedTip entry)
    (hNext : m.control.configuration.validateEntry entry = .ok next)
    (hType : entry.entryType ≠ .command) :
    Planned m faults entry (.configure ⟨m.control.appliedTip, ⟨entry.index, entry.hash⟩,
      m.control.userState, m.control.userState⟩ next)
  | install (effect : QwalEnvelope) (next : ConfigurationState) (results : List SqlCommandResult)
    (hLog : ExtendsLog m.control.clusterId m.control.epoch m.control.appliedTip entry)
    (hNext : m.control.configuration.validateEntry entry = .ok next)
    (hType : entry.entryType = .command) (hEffect : decodeQwalCommand entry.payload = .ok effect)
    (hBase : effect.baseState = m.control.userState)
    (hResults : decodeResults effect.receipts = .ok results) :
    Planned m faults entry (.install effect ⟨m.control.appliedTip, ⟨entry.index, entry.hash⟩,
      effect.baseState, effect.targetState⟩ next
      (effect.receipts.map (·.at ⟨entry.index, entry.hash⟩))
      (singleResult results))

theorem Machine.plan_eq_ok {m : Machine} {faults : Faults} {entry : LogEntry} {plan : Plan}
    (hHash : entry.recomputeHash = entry.hash) (h : m.plan faults entry = .ok plan) :
    m.Planned faults entry plan := by
  obtain ⟨_, -, h⟩ := bind_ok_iff.mp h
  obtain ⟨_, hCluster, h⟩ := bind_ok_iff.mp h
  obtain ⟨_, hEpoch, h⟩ := bind_ok_iff.mp h
  obtain ⟨_, -, h⟩ := bind_ok_iff.mp h
  split at h
  · rename_i hIndex
    obtain ⟨_, hSame, h⟩ := bind_ok_iff.mp h
    obtain ⟨sqlResult, hResult, h⟩ := bind_ok_iff.mp h
    cases h
    refine .replayed sqlResult ?_ hResult
    rw [hIndex, require_eq_ok.mp hSame]
  split at h
  · cases h
  rename_i nextIndex hNextIndex
  obtain ⟨_, hExtends, h⟩ := bind_ok_iff.mp h
  obtain ⟨_, -, h⟩ := bind_ok_iff.mp h
  obtain ⟨hIndex, hPrev⟩ := require_eq_ok.mp hExtends
  have hLog : ExtendsLog m.control.clusterId m.control.epoch m.control.appliedTip entry :=
    ⟨require_eq_ok.mp hCluster, require_eq_ok.mp hEpoch, hIndex ▸ hNextIndex, hPrev, hHash⟩
  split at h
  · cases h
  rename_i next hNext
  split at h
  · rename_i hType
    obtain ⟨effect, hEffect, h⟩ := bind_ok_iff.mp h
    obtain ⟨_, hIdentity, h⟩ := bind_ok_iff.mp h
    obtain ⟨_, -, h⟩ := bind_ok_iff.mp h
    obtain ⟨results, hResults, h⟩ := bind_ok_iff.mp h
    obtain ⟨_, -, h⟩ := bind_ok_iff.mp h
    obtain ⟨existing, -, h⟩ := bind_ok_iff.mp h
    obtain ⟨_, -, h⟩ := bind_ok_iff.mp h
    cases h
    exact .install effect next results hLog hNext hType hEffect
      (require_eq_ok.mp hIdentity).2.2.2.2.2 hResults
  · rename_i hType
    obtain ⟨_, -, h⟩ := bind_ok_iff.mp h
    obtain ⟨_, -, h⟩ := bind_ok_iff.mp h
    split at h
    · rename_i hSame
      cases h
      exact .metadataOnly hLog (hSame.2 ▸ hNext) hType
    · cases h
      exact .configure next hLog hNext hType

theorem Machine.applyEntry_cases {m m' : Machine} {faults : Faults} {entry : LogEntry}
    {result : Except Error ApplyOutcome} (h : m.applyEntry faults entry = (result, m')) :
    (∃ error, result = .error error ∧ m' = m) ∨
      ∃ plan, m.checkEntry faults entry = .ok () ∧ m.Planned faults entry plan ∧
        m.carryOut faults entry plan = (result, m') := by
  unfold applyEntry at h
  split at h
  · rename_i error _
    cases h
    exact .inl ⟨error, rfl, rfl⟩
  rename_i hAdmit
  split at h
  · rename_i error _
    cases h
    exact .inl ⟨error, rfl, rfl⟩
  · rename_i plan hPlan
    exact .inr ⟨plan, hAdmit, plan_eq_ok (checkEntry_eq_ok hAdmit).2.1 hPlan, h⟩

omit [Sha256] [SqlResultJson] [QwalPostcard] in
theorem Faults.commits_eq_ok {faults : Faults} {op : Op} {transaction : Except Error Control}
    {control : Control} (h : faults.commits op transaction = .ok control) :
    transaction = .ok control := by
  obtain ⟨_, -, h⟩ := bind_ok_iff.mp h
  exact h

omit [QwalPostcard] in
theorem Machine.carryOut_metadataOnly {m m' : Machine} {faults : Faults} {entry : LogEntry}
    {result : Except Error ApplyOutcome}
    (h : m.carryOut faults entry .metadataOnly = (result, m')) :
    (∃ error, result = .error error ∧ m' = m) ∨
      ∃ control, m.control.commitMetadataOnlyEntryWithLog m.control.appliedTip entry
          m.control.configuration m.control.userState = .ok control ∧
        result = .ok ⟨⟨entry.index, entry.hash⟩, none⟩ ∧ m' = { m with control } := by
  simp only [carryOut] at h
  split at h
  · rename_i error _
    cases h
    exact .inl ⟨error, rfl, rfl⟩
  · rename_i control hCommit
    cases h
    exact .inr ⟨control, Faults.commits_eq_ok hCommit, rfl, rfl⟩

omit [QwalPostcard] in
theorem Machine.carryOut_configure {m m' : Machine} {faults : Faults} {entry : LogEntry}
    {pending : PendingApply} {next : ConfigurationState} {result : Except Error ApplyOutcome}
    (h : m.carryOut faults entry (.configure pending next) = (result, m')) :
    (∃ error, result = .error error ∧ m' = { m with pendingFence := true }) ∨
      ∃ begun, m.control.beginPendingWithEntry pending entry = .ok begun ∧
        ((∃ error, result = .error error ∧
            m' = { m with control := begun, pendingFence := true }) ∨
          ∃ control, begun.commitApplied pending next [] = .ok control ∧
            result = .ok ⟨⟨entry.index, entry.hash⟩, none⟩ ∧
            m' = { m with control, pendingFence := false }) := by
  simp only [carryOut] at h
  split at h
  · rename_i error _
    cases h
    exact .inl ⟨error, rfl, rfl⟩
  rename_i begun hBegun
  refine .inr ⟨begun, Faults.commits_eq_ok hBegun, ?_⟩
  split at h
  · rename_i error _
    cases h
    exact .inl ⟨error, rfl, rfl⟩
  · rename_i control hCommit
    cases h
    exact .inr ⟨control, Faults.commits_eq_ok hCommit, rfl, rfl⟩

omit [QwalPostcard] in
theorem Machine.carryOut_install {m m' : Machine} {faults : Faults} {entry : LogEntry}
    {effect : QwalEnvelope} {pending : PendingApply} {next : ConfigurationState}
    {receipts : List RequestReceipt} {sqlResult : Option SqlCommandResult}
    {result : Except Error ApplyOutcome}
    (h : m.carryOut faults entry (.install effect pending next receipts sqlResult) = (result, m')) :
    ∃ installed done, { m with pendingFence := true }.installQwalEffect faults effect entry.payload
        ⟨entry.index, entry.hash⟩ = (installed, done) ∧
      ((∃ error, installed = .error error ∧ result = .error error ∧ m' = done) ∨
        installed = .ok () ∧
          ((∃ error, result = .error error ∧ m' = { done with connected := false }) ∨
            ∃ control, done.control.commitRebuildableApply pending entry next receipts = .ok control ∧
              result = .ok ⟨⟨entry.index, entry.hash⟩, sqlResult⟩ ∧
              m' = { done with control, pendingFence := false, uncommittedEffect := none })) := by
  simp only [carryOut] at h
  split at h
  · rename_i error done hInstalled
    cases h
    exact ⟨_, _, hInstalled, .inl ⟨error, rfl, rfl, rfl⟩⟩
  rename_i done hInstalled
  refine ⟨_, done, hInstalled, .inr ⟨rfl, ?_⟩⟩
  split at h
  · rename_i error _
    cases h
    exact .inl ⟨error, rfl, rfl⟩
  · rename_i control hCommit
    cases h
    exact .inr ⟨control, Faults.commits_eq_ok hCommit, rfl, rfl⟩

end Applying

end Rhiza.Sql
