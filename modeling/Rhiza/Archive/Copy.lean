import Rhiza.Archive.Whole
import Rhiza.Library.Action

/-! # Copying a checkpoint

A checkpoint is copied to another identity, its objects first and its manifest last:
to the next recovery generation, or to the successor of a stopped configuration.
Every operation of the copy sees the two archives as others have left them by then.
-/

namespace Rhiza.Archive.Copying

open Core Library

structure Store where
  /-- The manifest and the version that the object store has given it. -/
  manifest : Option (CheckpointManifest × Nat)
  objects : Objects
  retired : Bool
  nextVersion : Nat

inductive CopyError
  | archive (error : Error)
  | checkpointTargetConflict
  | generationRetired (generation : Nat)
  | precondition
  | refused (message : String)
  deriving DecidableEq

inductive Side
  | source
  | target

/-- The two archives. `others` is what happens before each operation to come: the others
change the archives, or the operation is refused. `seen` are the manifests that the source
has had at the operations so far. -/
structure CopyWorld where
  source : Store
  target : Store
  others : List (Except CopyError (Store × Store → Store × Store))
  seen : List (Option CheckpointManifest)

def CopyWorld.store (w : CopyWorld) : Side → Store
  | .source => w.source
  | .target => w.target

def CopyWorld.look (w : CopyWorld) : CopyWorld :=
  { w with seen := w.source.manifest.map (·.1) :: w.seen }

structure LoadedCheckpointManifest where
  manifest : CheckpointManifest
  version : Nat
  deriving DecidableEq

abbrev Copy := Action CopyError CopyWorld

/-- An operation on an object store. The leases and the catalog of generations are in a
control object of their own, and an operation on it is nothing but this. -/
def operation : Copy Unit := fun w =>
  match w.others with
  | [] => (.ok (), w.look)
  | .error error :: others => (.error error, { w with others }.look)
  | .ok change :: others =>
    let stores := change (w.source, w.target)
    (.ok (), { w with source := stores.1, target := stores.2, others }.look)

def read (side : Side) : Copy Store := do
  operation
  fun w => (.ok (w.store side), w)

def result {α : Type} (answer : Result α) : Copy α := Action.lift (answer.mapError .archive)

structure Copier where
  codec : SegmentCodec
  sourceIdentity : CheckpointIdentity
  targetIdentity : CheckpointIdentity

def Copier.source (c : Copier) : ObjectArchiveStore := ⟨c.sourceIdentity, c.codec⟩

def Copier.target (c : Copier) : ObjectArchiveStore := ⟨c.targetIdentity, c.codec⟩

def Copier.archive (c : Copier) : Side → ObjectArchiveStore
  | .source => c.source
  | .target => c.target

def Copier.ensureGenerationNotRetired (c : Copier) (side : Side) : Copy Unit := do
  let store ← read side
  if store.retired then
    Action.raise (.generationRetired (c.archive side).identity.recoveryGeneration)
  else pure ()

section Calls

variable [Sha256] (c : Copier)

def Copier.loadCheckpoint (side : Side) : Copy (Option LoadedCheckpointManifest) := do
  let store ← read side
  match store.manifest with
  | none => pure none
  | some (manifest, version) => do
    result (validateCheckpointManifest (c.archive side).identity manifest)
    pure (some ⟨manifest, version⟩)

def downloadVerified (side : Side) (key : ObjectKey) (sizeBytes : Nat) (sha256 : LogHash) :
    Copy Bytes := do
  let store ← read side
  result (ObjectArchiveStore.downloadVerified store.objects key sizeBytes sha256)

def storeObject (key : ObjectKey) (bytes : Bytes) (w : CopyWorld) : CopyWorld :=
  match w.target.objects key with
  | some _ => w
  | none => { w with
      target := { w.target with objects := Function.update w.target.objects key (some bytes) } }

def createVerifiedCheckpointObject (key : ObjectKey) (bytes : Bytes) (sizeBytes : Nat)
    (sha256 : LogHash) : Copy Unit := do
  operation
  Action.update (storeObject key bytes)
  let _ ← downloadVerified .target key sizeBytes sha256
  pure ()

def restoreBase (side : Side) : CheckpointBase → Copy (Option (RecoveryAnchor × Bytes))
  | .genesis => pure none
  | .snapshot snapshot => do
    operation
    let bytes ← downloadVerified side snapshot.objectKey snapshot.sizeBytes snapshot.digest
    pure (some (snapshot.anchor, bytes))

def Copier.restoreSegments (side : Side) : List CheckpointSegmentRecord → CheckpointTip →
    List LogEntry → Copy (List LogEntry × CheckpointTip)
  | [], tip, restored => pure (restored, tip)
  | record :: records, tip, restored => do
    operation
    let store ← read side
    let segment ← result (World.restoreSegment (c.archive side) store.objects record tip)
    restoreSegments side records segment.2 (restored ++ segment.1)

def Copier.restoreCheckpointUnleased (side : Side) : Copy RestoredCheckpoint := do
  match ← c.loadCheckpoint side with
  | none => pure ⟨none, [], ⟨0, .zero⟩⟩
  | some loaded => do
    let snapshot ← restoreBase side loaded.manifest.base
    let restored ← c.restoreSegments side loaded.manifest.segments loaded.manifest.base.tip []
    result (check (restored.2 = loaded.manifest.tip)
      (.invalidCheckpoint "restored entries do not match manifest tip"))
    pure ⟨snapshot, restored.1, restored.2⟩

/-- The release of the lease is tried in any case; its error counts if nothing else failed. -/
def leased {α : Type} (body : Copy α) : Copy α := do
  operation
  let answer ← body.attempt
  let release ← operation.attempt
  match answer, release with
  | .ok a, .ok () => pure a
  | .error error, _ => Action.raise error
  | _, .error error => Action.raise error

def Copier.restoreCheckpointV2 (side : Side) : Copy RestoredCheckpoint :=
  leased do
    c.ensureGenerationNotRetired side
    c.restoreCheckpointUnleased side

/-- `RecoveryAnchor::new_with_configuration`, with all but the generation taken from an anchor. -/
def newWithConfiguration (anchor : RecoveryAnchor) (recoveryGeneration : Nat) : RecoveryAnchor :=
  { anchor with
    formatVersion := 2
    configId := anchor.configurationState.configId
    recoveryGeneration }

def copiedSnapshot (identity : CheckpointIdentity) (snapshot : CheckpointSnapshotBase) :
    CheckpointSnapshotBase :=
  let anchor := newWithConfiguration snapshot.anchor identity.recoveryGeneration
  { snapshot with anchor, objectKey := checkpointSnapshotKey anchor }

def copiedRecord (record : CheckpointSegmentRecord) : CheckpointSegmentRecord :=
  { record with objectKey := .segment record.startIndex record.endIndex }

def Copier.copyBase : CheckpointBase → Copy CheckpointBase
  | .genesis => pure .genesis
  | .snapshot snapshot => do
    let bytes ← downloadVerified .source snapshot.objectKey snapshot.sizeBytes snapshot.digest
    let copied := copiedSnapshot c.targetIdentity snapshot
    createVerifiedCheckpointObject copied.objectKey bytes copied.sizeBytes copied.digest
    pure (.snapshot copied)

/-- The loop over the segments. Both leases are renewed before each of them. -/
def copySegments : List CheckpointSegmentRecord → Copy (List CheckpointSegmentRecord)
  | [] => pure []
  | record :: records => do
    operation
    operation
    let bytes ← downloadVerified .source record.objectKey record.sizeBytes record.sha256
    let copied := copiedRecord record
    createVerifiedCheckpointObject copied.objectKey bytes copied.sizeBytes copied.sha256
    let segments ← copySegments records
    pure (copied :: segments)

def settle (manifest : CheckpointManifest) (existing : LoadedCheckpointManifest) :
    Copy LoadedCheckpointManifest := do
  if existing.manifest = manifest then do
    operation
    pure existing
  else Action.raise .checkpointTargetConflict

def createManifest (manifest : CheckpointManifest) : Copy (Option Nat) := do
  operation
  fun w =>
    match w.target.manifest with
    | some _ => (.ok none, w)
    | none => (.ok (some w.target.nextVersion), { w with
        target := { w.target with
          manifest := some (manifest, w.target.nextVersion)
          nextVersion := w.target.nextVersion + 1 } })

/-- `delete_exact` of the manifest: whether it was there, unless it is another version. -/
def deleteExact (version : Nat) : Copy Bool := do
  operation
  fun w =>
    match w.target.manifest with
    | none => (.ok false, w)
    | some (_, found) =>
      if found = version then
        (.ok true, { w with target := { w.target with manifest := none } })
      else (.error .precondition, w)

/-- The rest of the copy when the manifest has been created: the source must be as it was. -/
def Copier.confirm (source created : LoadedCheckpointManifest) : Copy LoadedCheckpointManifest := do
  let sourceAfter ← c.loadCheckpoint .source
  if sourceAfter = some source then do
    operation
    pure created
  else do
    let deleted ← deleteExact created.version
    if deleted then
      Action.raise (.archive (.invalidCheckpoint "source checkpoint changed during copy"))
    else Action.raise .checkpointTargetConflict

def Copier.publishCopy (source : LoadedCheckpointManifest) (manifest : CheckpointManifest) :
    Copy LoadedCheckpointManifest := do
  match ← c.loadCheckpoint .target with
  | some existing => settle manifest existing
  | none => do
    match ← createManifest manifest with
    | some version => c.confirm source ⟨manifest, version⟩
    | none => do
      match ← c.loadCheckpoint .target with
      | some existing => settle manifest existing
      | none =>
        Action.raise (.archive (.invalidCheckpoint "target manifest disappeared after create"))

/-- `copy_checkpoint_to_unleased` from the loaded manifest of the source. -/
def Copier.copyLoaded (transition : Option CheckpointSuccessorTransition)
    (source : LoadedCheckpointManifest) : Copy LoadedCheckpointManifest := do
  if source.manifest.formatVersion ≠ checkpointFormatVersion then
    Action.raise (.archive (.invalidCheckpoint "checkpoint copy requires a format-2 source"))
  else do
    let successorTransition := transition.or source.manifest.successorTransition
    let _ ← c.restoreCheckpointUnleased .source
    let base ← c.copyBase source.manifest.base
    let segments ← copySegments source.manifest.segments
    let manifest : CheckpointManifest :=
      ⟨checkpointFormatVersion, c.targetIdentity, successorTransition, base, segments,
        source.manifest.tip⟩
    result (validateCheckpointManifest c.targetIdentity manifest)
    c.publishCopy source manifest

def Copier.copyCheckpointToUnleased (transition : Option CheckpointSuccessorTransition) :
    Copy LoadedCheckpointManifest := do
  c.ensureGenerationNotRetired .source
  c.ensureGenerationNotRetired .target
  match ← c.loadCheckpoint .source with
  | none => Action.raise (.archive (.invalidCheckpoint "source checkpoint is missing"))
  | some source => c.copyLoaded transition source

/-- The reader's lease on the source and the publisher's lease on the target. -/
def Copier.copyCheckpointTo (transition : Option CheckpointSuccessorTransition) :
    Copy LoadedCheckpointManifest := do
  operation
  match ← operation.attempt with
  | .error error => do
    let _ ← operation.attempt
    Action.raise error
  | .ok () => do
    let answer ← (c.copyCheckpointToUnleased transition).attempt
    let sourceRelease ← operation.attempt
    let targetRelease ← operation.attempt
    match answer, sourceRelease, targetRelease with
    | .ok loaded, .ok (), .ok () => pure loaded
    | .error error, _, _ => Action.raise error
    | _, .error error, _ => Action.raise error
    | _, _, .error error => Action.raise error

def Copier.rollRecoveryGeneration : Copy LoadedCheckpointManifest :=
  if c.sourceIdentity.clusterId ≠ c.targetIdentity.clusterId ∨
      c.sourceIdentity.epoch ≠ c.targetIdentity.epoch ∨
      c.sourceIdentity.configId ≠ c.targetIdentity.configId ∨
      checkedSucc c.sourceIdentity.recoveryGeneration ≠
        some c.targetIdentity.recoveryGeneration then
    Action.raise (.archive (.invalidCheckpoint
      "recovery-generation roll requires the same cluster/epoch/config and generation + 1"))
  else c.copyCheckpointTo none

def Copier.loadValidAdvancedSuccessor (transition : CheckpointSuccessorTransition)
    (stopIndex : Nat) : Copy (Option LoadedCheckpointManifest) := do
  match ← c.loadCheckpoint .target with
  | none => pure none
  | some loaded =>
    if loaded.manifest.successorTransition ≠ some transition ∨
        loaded.manifest.tip.index ≤ stopIndex then pure none
    else do
      let _ ← c.restoreCheckpointV2 .target
      match ← c.loadCheckpoint .target with
      | none =>
        Action.raise (.archive (.invalidCheckpoint "advanced successor checkpoint disappeared"))
      | some reloaded =>
        if reloaded.manifest.successorTransition ≠ some transition ∨
            reloaded.manifest.tip.index ≤ stopIndex then
          Action.raise .checkpointTargetConflict
        else pure (some reloaded)

def boundSuccessor (source : CheckpointIdentity) (stopEntry : LogEntry) :
    Result SuccessorDescriptor := do
  validateEntryIdentity source stopEntry
  check (stopEntry.recomputeHash = stopEntry.hash)
    (.invalidCheckpoint "predecessor Stop entry hash is invalid")
  match (ConfigChange.recognize ⟨stopEntry.entryType, stopEntry.payload⟩).bind
      ConfigChange.successor? with
  | some successor => .ok successor
  | none => .error (.invalidCheckpoint
      "predecessor Stop entry is not bound to an exact successor")

def Copier.checkSuccessor (successor : SuccessorDescriptor) : Result Unit :=
  check (c.sourceIdentity.clusterId = c.targetIdentity.clusterId ∧
      c.sourceIdentity.epoch = c.targetIdentity.epoch ∧
      checkedSucc c.sourceIdentity.configId = some c.targetIdentity.configId ∧
      successor.clusterId = c.targetIdentity.clusterId ∧
      successor.predecessorConfigId = c.sourceIdentity.configId ∧
      successor.configId = c.targetIdentity.configId)
    (.invalidCheckpoint "bound successor does not match the target checkpoint identity")

def checkStoppedRoot (source : CheckpointIdentity) (successor : SuccessorDescriptor)
    (stopEntry : LogEntry) (restored : RestoredCheckpoint) : Result Unit :=
  match restored.snapshot with
  | none => .error (.invalidCheckpoint "successor fork requires a stopped snapshot base")
  | some (anchor, _) =>
    match (ConfigurationState.active source.configId
        successor.predecessorConfigDigest).validateEntry stopEntry with
    | .error _ => .error (.invalidCheckpoint "predecessor Stop state is invalid")
    | .ok expectedState =>
      check (anchor.configurationState = expectedState ∧
          anchor.compacted = ⟨stopEntry.index, stopEntry.hash⟩ ∧
          restored.tip = ⟨stopEntry.index, stopEntry.hash⟩ ∧ restored.suffix = [])
        (.invalidCheckpoint "source checkpoint is not the exact bound stopped root")

def Copier.forkTo (transition : CheckpointSuccessorTransition) :
    Copy LoadedCheckpointManifest := do
  match ← c.loadValidAdvancedSuccessor transition transition.stopEntry.index with
  | some advanced => pure advanced
  | none => do
    match ← (c.copyCheckpointTo (some transition)).attempt with
    | .ok loaded => pure loaded
    | .error .checkpointTargetConflict => do
      match ← c.loadValidAdvancedSuccessor transition transition.stopEntry.index with
      | some advanced => pure advanced
      | none => Action.raise .checkpointTargetConflict
    | .error error => Action.raise error

def Copier.forkStoppedSuccessor (stopEntry : LogEntry) : Copy LoadedCheckpointManifest := do
  let successor ← result (boundSuccessor c.sourceIdentity stopEntry)
  result (c.checkSuccessor successor)
  match ← c.loadCheckpoint .source with
  | none => Action.raise (.archive (.invalidCheckpoint "source checkpoint is missing"))
  | some source => do
    if source.manifest.formatVersion ≠ checkpointFormatVersion then
      Action.raise
        (.archive (.invalidCheckpoint "successor fork requires a format-2 source checkpoint"))
    else do
      let restored ← c.restoreCheckpointV2 .source
      result (checkStoppedRoot c.sourceIdentity successor stopEntry restored)
      c.forkTo ⟨c.sourceIdentity, successor, stopEntry⟩

end Calls

end Rhiza.Archive.Copying
