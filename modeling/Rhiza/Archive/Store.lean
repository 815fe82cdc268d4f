import Mathlib.Data.List.Sort
import Rhiza.Archive.Manifest
import Rhiza.Library.Run

/-! # Publishing to a shared archive

Publishers of several nodes share one manifest. Each of them plans a change from
the manifest it knows, stores the object that the change needs, and swaps the
manifest if it is still the one it started from. Every step below is at most one
operation of the object store, so that the steps of different callers may come in
any order.
-/

namespace Rhiza.Archive

open Core Library

/-- `encode_segment` and `decode_segment_for_cluster` of `rhiza-log`. -/
structure SegmentCodec where
  encode : List LogEntry → Bytes
  decode : ClusterId → Bytes → Option (List LogEntry)
  decode_encode : ∀ clusterId entries decoded, (∀ entry ∈ entries, entry.clusterId = clusterId) →
    decode clusterId (encode entries) = some decoded → decoded = entries

abbrev Objects := ObjectKey → Option Bytes

structure ObjectArchiveStore where
  identity : CheckpointIdentity
  codec : SegmentCodec

namespace ObjectArchiveStore

variable [Sha256] (archive : ObjectArchiveStore)

def downloadVerified (objects : Objects) (key : ObjectKey) (sizeBytes : Nat) (sha256 : LogHash) :
    Result Bytes :=
  match objects key with
  | none => .error (.notFound key)
  | some bytes => do
    check (bytes.length = sizeBytes) (.sizeMismatch key)
    check (LogHash.digest [bytes] = sha256) (.checksumMismatch key)
    .ok bytes

def decodeSegment (bytes : Bytes) : Result (List LogEntry) :=
  match archive.codec.decode archive.identity.clusterId bytes with
  | some entries => .ok entries
  | none => .error .logDecode

def validateIdentities : List LogEntry → Result Unit
  | [] => .ok ()
  | entry :: entries => do
    validateEntryIdentity archive.identity entry
    validateIdentities entries

def matchesRecord (record : CheckpointSegmentRecord) (entries : List LogEntry) : Bool :=
  entries.length = record.endIndex - record.startIndex + 1 ∧
    (entries.head?.map fun entry => (entry.index, entry.prevHash)) =
      some (record.startIndex, record.firstPrevHash) ∧
    (entries.getLast?.map fun entry => (entry.index, entry.hash)) =
      some (record.endIndex, record.lastHash)

def loadCheckpointSegment (objects : Objects) (record : CheckpointSegmentRecord) :
    Result (List LogEntry) := do
  let bytes ← downloadVerified objects record.objectKey record.sizeBytes record.sha256
  let entries ← archive.decodeSegment bytes
  archive.validateIdentities entries
  check (record.startIndex ≤ record.endIndex ∧ matchesRecord record entries)
    (.invalidCheckpoint "segment record metadata does not match decoded qlog")
  .ok entries

def archivedHashAt (objects : Objects) (manifest : CheckpointManifest) (index : Nat) :
    Result LogHash :=
  let baseTip := manifest.base.tip
  if index = baseTip.index then .ok baseTip.hash
  else if index < baseTip.index then
    .error (.invalidCheckpoint "manifest base no longer covers index")
  else
    match manifest.segments.find? fun record =>
        record.startIndex ≤ index ∧ index ≤ record.endIndex with
    | none => .error (.invalidCheckpoint "manifest does not cover index")
    | some record => do
      let entries ← archive.loadCheckpointSegment objects record
      match entries[index - record.startIndex]? with
      | some entry => .ok entry.hash
      | none => .error (.invalidCheckpoint "segment does not cover index")

def verifyPublicationHash (index : Nat) (expected actual : LogHash) : Result Unit :=
  check (expected = actual) (.publicationConflict index expected actual)

/-- `publication_suffix_start` for a publication from `first` to `last`. -/
def suffixStartFrom (objects : Objects) (manifest : CheckpointManifest) (entries : List LogEntry)
    (first last : LogEntry) : Result (Option Nat) :=
  let tip := manifest.tip
  if last.index ≤ tip.index then do
    let archived ← archive.archivedHashAt objects manifest last.index
    verifyPublicationHash last.index archived last.hash
    .ok none
  else
    match checkedSucc tip.index with
    | none => .error (.invalidCheckpoint "checkpoint tip index overflow")
    | some nextIndex =>
      if nextIndex < first.index then .error (.invalidCheckpoint "publication gap")
      else if first.index ≤ tip.index then
        match entries[tip.index - first.index]? with
        | none => .error (.invalidCheckpoint "checkpoint tip is outside publication batch")
        | some boundary => do
          let archived ← archive.archivedHashAt objects manifest tip.index
          verifyPublicationHash tip.index archived boundary.hash
          .ok (some (tip.index - first.index + 1))
      else do
        verifyPublicationHash (first.index - 1) tip.hash first.prevHash
        .ok (some 0)

/-- `publication_suffix_start`; the source expects a publication that is not empty. -/
def publicationSuffixStart (objects : Objects) (manifest : CheckpointManifest)
    (entries : List LogEntry) : Result (Option Nat) :=
  match entries.head?, entries.getLast? with
  | some first, some last => archive.suffixStartFrom objects manifest entries first last
  | _, _ => .ok none

def validatePublicationEntries : Option LogEntry → List LogEntry → Result Unit
  | _, [] => .ok ()
  | previous, entry :: entries => do
    validateEntryIdentity archive.identity entry
    check (entry.recomputeHash = entry.hash) (.invalidCheckpoint "entry hash is invalid")
    check (previous.all fun previous => checkedSucc previous.index = some entry.index)
      (.invalidCheckpoint "entry index gap or overlap")
    check (previous.all fun previous => entry.prevHash = previous.hash)
      (.invalidCheckpoint "entry hash chain mismatch")
    validatePublicationEntries (some entry) entries

def validateDecodedEntries : CheckpointTip → List LogEntry → Result Unit
  | _, [] => .ok ()
  | tip, entry :: entries => do
    validateEntryIdentity archive.identity entry
    check (checkedSucc tip.index = some entry.index)
      (.invalidCheckpoint "entry index gap or overlap")
    check (entry.prevHash = tip.hash) (.invalidCheckpoint "entry hash chain mismatch")
    check (entry.recomputeHash = entry.hash) (.invalidCheckpoint "entry hash is invalid")
    validateDecodedEntries ⟨entry.index, entry.hash⟩ entries

def checkpointSegmentRecord (decoded : List LogEntry) (bytes : Bytes) :
    Result CheckpointSegmentRecord :=
  match decoded.head?, decoded.getLast? with
  | some first, some last =>
    .ok ⟨checkpointSegmentFormatVersion, first.index, last.index, first.prevHash, last.hash,
      .segment first.index last.index, LogHash.digest [bytes], bytes.length⟩
  | _, _ => .error (.invalidCheckpoint "refusing to publish empty segment")

structure Change where
  object : Option (ObjectKey × Bytes)
  next : CheckpointManifest

/-- An attempt of `publish_committed_from_loaded_unleased` before its segment is stored.
Nothing is left to do if the manifest covers the publication. -/
def planPublication (objects : Objects) (entries : List LogEntry)
    (loaded : CheckpointManifest) : Result (Option Change) := do
  match ← archive.publicationSuffixStart objects loaded entries with
  | none => .ok none
  | some suffixStart => do
    let bytes := archive.codec.encode (entries.drop suffixStart)
    let decoded ← archive.decodeSegment bytes
    archive.validateDecodedEntries loaded.tip decoded
    let record ← checkpointSegmentRecord decoded bytes
    let next := { loaded with
      tip := ⟨record.endIndex, record.lastHash⟩, segments := loaded.segments ++ [record] }
    validateCheckpointManifest archive.identity next
    .ok (some ⟨some (record.objectKey, bytes), next⟩)

/-- An attempt of `publish_checkpoint_snapshot_from_loaded_unleased` after the snapshot
is stored. -/
def planSnapshot (proposed : CheckpointSnapshotBase) (loaded : CheckpointManifest) :
    Result (Option Change) :=
  let currentTip := loaded.base.tip
  let proposedTip := (CheckpointBase.snapshot proposed).tip
  if currentTip.index = proposedTip.index then
    if loaded.base = .snapshot proposed then .ok none
    else .error (.checkpointBaseConflict proposedTip.index)
  else if proposedTip.index < currentTip.index then
    .error (.checkpointBaseRegression currentTip.index proposedTip.index)
  else
    match loaded.segments.find? fun record => record.endIndex = proposedTip.index with
    | none => .error (.invalidCheckpoint "snapshot anchor is not an exact segment boundary")
    | some boundary => do
      check (boundary.lastHash = proposedTip.hash) (.checkpointBaseConflict proposedTip.index)
      let next := { loaded with
        base := .snapshot proposed
        segments := loaded.segments.filter fun record => proposedTip.index < record.startIndex }
      validateCheckpointManifest archive.identity next
      .ok (some ⟨none, next⟩)

/-- An attempt of `migrate_checkpoint_manifest`. -/
def planMigration (loaded : CheckpointManifest) : Result (Option Change) :=
  if loaded.formatVersion = checkpointFormatVersion then .ok none
  else if loaded.formatVersion ≠ checkpointV1FormatVersion ∨ loaded.base ≠ .genesis then
    .error (.unsupportedFormatVersion "checkpoint manifest" loaded.formatVersion)
  else do
    let migrated := { loaded with formatVersion := checkpointFormatVersion }
    validateCheckpointManifest archive.identity migrated
    .ok (some ⟨none, migrated⟩)

def snapshotBase (anchor : RecoveryAnchor) (bytes : Bytes) : CheckpointSnapshotBase :=
  ⟨anchor, checkpointSnapshotKey anchor, LogHash.digest [bytes], bytes.length,
    anchor.executorFingerprint⟩

def checkSnapshot (anchor : RecoveryAnchor) (bytes : Bytes) : Result Unit := do
  validateRecoveryAnchor archive.identity anchor
  check (anchor.snapshotDigest = LogHash.digest [bytes])
    (.checksumMismatch (checkpointSnapshotKey anchor))
  check (anchor.snapshotSizeBytes = bytes.length) (.sizeMismatch (checkpointSnapshotKey anchor))
  validateCheckpointSnapshotBase archive.identity (snapshotBase anchor bytes)

def coalesce : List LogEntry → List LogEntry → Result (List LogEntry)
  | coalesced, [] => .ok coalesced
  | coalesced, entry :: entries =>
    match coalesced.getLast? with
    | some previous =>
      if previous.index = entry.index then
        if previous ≠ entry then
          .error (.invalidCheckpoint "conflicting concurrent publications")
        else coalesce coalesced entries
      else coalesce (coalesced ++ [entry]) entries
    | none => coalesce [entry] entries

def coalescePendingEntries (pending : List (List LogEntry)) (publishedIndex : Nat) :
    Result (List LogEntry) :=
  coalesce [] ((pending.flatten.filter fun entry => publishedIndex < entry.index).insertionSort
    fun a b => a.index ≤ b.index)

end ObjectArchiveStore

structure RestoredCheckpoint where
  snapshot : Option (RecoveryAnchor × Bytes)
  suffix : List LogEntry
  tip : CheckpointTip
  deriving DecidableEq

/-- What a caller of the archive wants. A publisher flushes the publications of several
callers at once; they are merged into one. -/
inductive Goal
  | open
  | publish (entries : List LogEntry)
  | flush (pending : List (List LogEntry)) (entries : List LogEntry)
  | snapshot (anchor : RecoveryAnchor) (bytes : Bytes)
  | restore

inductive Stage
  | migration
  | main
  deriving DecidableEq

/-- Where a call stands; each of these waits for one operation of the object store. -/
inductive Phase
  /-- `initialize_checkpoint_unleased` creates the manifest. -/
  | initializing
  /-- The manifest is there and is loaded. -/
  | loading
  /-- The head of a loop, with the lost swaps so far. -/
  | planning (stage : Stage) (lost : Nat) (loaded : CheckpointManifest)
  | storing (stage : Stage) (lost : Nat) (loaded : CheckpointManifest) (object : ObjectKey × Bytes)
      (next : CheckpointManifest)
  | swapping (stage : Stage) (lost : Nat) (loaded next : CheckpointManifest)
  /-- The swap was lost. -/
  | reloading (stage : Stage) (lost : Nat)
  /-- A snapshot is created, and then read back. -/
  | uploading (loaded : CheckpointManifest)
  | verifying (loaded : CheckpointManifest)
  /-- A publisher answers its callers. -/
  | answering (loaded : CheckpointManifest) (pending : List (List LogEntry))
  | restoring (loaded : CheckpointManifest) (snapshot : Option (RecoveryAnchor × Bytes))
      (records : List CheckpointSegmentRecord) (tip : CheckpointTip) (restored : List LogEntry)
  | downloading (loaded : CheckpointManifest) (snapshot : CheckpointSnapshotBase)
  | finished (result : Result Unit)

structure Process where
  publisher : Option Nat
  goal : Goal
  phase : Phase

/-- `manifests` lists the manifests that have been current, the current one first;
`answers` and `restores` are what callers were told. -/
structure World where
  objects : Objects
  manifests : List CheckpointManifest
  publishers : Nat → Option CheckpointManifest
  processes : List Process
  answers : List (List LogEntry × CheckpointManifest)
  restores : List (RestoredCheckpoint × Option CheckpointManifest)

inductive Event
  /-- A call of the archive itself. -/
  | call (goal : Goal)
  | openPublisher (publisher : Nat)
  /-- `drive_flushes` on the publications that are pending. -/
  | flush (publisher : Nat) (pending : List (List LogEntry))
  | publisherSnapshot (publisher : Nat) (anchor : RecoveryAnchor) (bytes : Bytes)
  /-- A publisher loads the manifest into its cache. -/
  | reload (publisher : Nat)
  /-- A call takes its next step; `wins` decides a swap that can be won. -/
  | advance (position : Nat) (wins : Bool)
  | crash (position : Nat)

namespace World

def manifest? (w : World) : Option CheckpointManifest := w.manifests.head?

/-- An archive before anyone uses it, perhaps with a manifest from earlier times. -/
def start (objects : Objects) (manifest : Option CheckpointManifest) : World where
  objects := objects
  manifests := manifest.toList
  publishers _ := none
  processes := []
  answers := []
  restores := []

def setPhase (w : World) (position : Nat) (process : Process) (phase : Phase) : World :=
  { w with processes := w.processes.set position { process with phase := phase } }

def cache (w : World) (process : Process) (loaded : CheckpointManifest) : World :=
  match process.publisher with
  | none => w
  | some publisher =>
    { w with publishers := Function.update w.publishers publisher (some loaded) }

def create (w : World) (key : ObjectKey) (bytes : Bytes) : Option World :=
  match w.objects key with
  | none => some { w with objects := Function.update w.objects key (some bytes) }
  | some existing => if existing = bytes then some w else none

variable [Sha256] (archive : ObjectArchiveStore)

def plan (objects : Objects) (goal : Goal) : Stage → CheckpointManifest →
    Result (Option ObjectArchiveStore.Change)
  | .migration, loaded => archive.planMigration loaded
  | .main, loaded =>
    match goal with
    | .publish entries => archive.planPublication objects entries loaded
    | .flush _ entries => archive.planPublication objects entries loaded
    | .snapshot anchor bytes =>
      archive.planSnapshot (ObjectArchiveStore.snapshotBase anchor bytes) loaded
    | _ => .ok none

/-- A loop is left with a manifest: after a migration the call goes on, and after the
main loop it is answered. -/
def leaveLoop (w : World) (position : Nat) (process : Process) (loaded : CheckpointManifest) :
    Stage → World
  | .migration =>
    match process.goal with
    | .publish [] =>
      { w.setPhase position process (.finished (.ok ())) with answers := ([], loaded) :: w.answers }
    | .publish (_ :: _) => w.setPhase position process (.planning .main 0 loaded)
    | .snapshot anchor bytes =>
      match archive.checkSnapshot anchor bytes with
      | .error error => w.setPhase position process (.finished (.error error))
      | .ok () => w.setPhase position process (.uploading loaded)
    | _ => (w.setPhase position process (.finished (.ok ()))).cache process loaded
  | .main =>
    match process.goal with
    | .publish entries =>
      { w.setPhase position process (.finished (.ok ())) with
        answers := (entries, loaded) :: w.answers }
    | .flush pending _ =>
      (w.setPhase position process (.answering loaded pending)).cache process loaded
    | _ => (w.setPhase position process (.finished (.ok ()))).cache process loaded

def advanceLoop (w : World) (position : Nat) (process : Process) (stage : Stage) (lost : Nat)
    (loaded : CheckpointManifest) : World :=
  if maxCheckpointCasAttempts ≤ lost then
    w.setPhase position process (.finished (.error (.compareAndSwapRetriesExhausted
      maxCheckpointCasAttempts)))
  else
    match plan archive w.objects process.goal stage loaded with
    | .error error => w.setPhase position process (.finished (.error error))
    | .ok none => leaveLoop archive w position process loaded stage
    | .ok (some ⟨some object, next⟩) =>
      w.setPhase position process (.storing stage lost loaded object next)
    | .ok (some ⟨none, next⟩) => w.setPhase position process (.swapping stage lost loaded next)

/-- `ObjStore::update`: it can succeed only on the manifest that was loaded, and a call
that does not succeed loads the manifest again. -/
def advanceSwap (w : World) (position : Nat) (process : Process) (stage : Stage) (lost : Nat)
    (loaded next : CheckpointManifest) (wins : Bool) : World :=
  if wins ∧ w.manifest? = some loaded then
    leaveLoop archive { w with manifests := next :: w.manifests } position process next stage
  else w.setPhase position process (.reloading stage (lost + 1))

/-- Loading the manifest, which `validate_checkpoint_manifest` must accept. -/
def load (w : World) : Result CheckpointManifest :=
  match w.manifest? with
  | none => .error (.invalidCheckpoint "manifest disappeared")
  | some manifest => do
    validateCheckpointManifest archive.identity manifest
    .ok manifest

/-- A step of `initialize_checkpoint_unleased`. -/
def initializeCheckpoint (w : World) (position : Nat) (process : Process) : World :=
  let manifest := CheckpointManifest.new archive.identity
  match w.manifest? with
  | none => { w with manifests := [manifest] }.setPhase position process
      (.planning .migration 0 manifest)
  | some current =>
    if current = manifest then w.setPhase position process (.planning .migration 0 manifest)
    else w.setPhase position process .loading

def finishRestore (w : World) (position : Nat) (process : Process) (loaded : CheckpointManifest)
    (snapshot : Option (RecoveryAnchor × Bytes)) (tip : CheckpointTip)
    (restored : List LogEntry) : World :=
  if tip = loaded.tip then
    { w.setPhase position process (.finished (.ok ())) with
      restores := (⟨snapshot, restored, tip⟩, some loaded) :: w.restores }
  else w.setPhase position process (.finished (.error
    (.invalidCheckpoint "restored entries do not match manifest tip")))

/-- One segment of `restore_checkpoint_unleased`. -/
def restoreSegment (objects : Objects) (record : CheckpointSegmentRecord) (tip : CheckpointTip) :
    Result (List LogEntry × CheckpointTip) := do
  let entries ← archive.loadCheckpointSegment objects record
  archive.validateDecodedEntries tip entries
  match entries.getLast? with
  | none => .error (.invalidCheckpoint "empty qlog segment")
  | some last => .ok (entries, ⟨last.index, last.hash⟩)

/-- The start of `restore_checkpoint_unleased`. -/
def beginRestore (w : World) (position : Nat) (process : Process) : World :=
  match w.manifest? with
  | none => { w.setPhase position process (.finished (.ok ())) with
      restores := (⟨none, [], ⟨0, .zero⟩⟩, none) :: w.restores }
  | some manifest =>
    match validateCheckpointManifest archive.identity manifest with
    | .error error => w.setPhase position process (.finished (.error error))
    | .ok () =>
      match manifest.base with
      | .genesis => w.setPhase position process
          (.restoring manifest none manifest.segments manifest.base.tip [])
      | .snapshot snapshot => w.setPhase position process (.downloading manifest snapshot)

def advance (w : World) (position : Nat) (process : Process) (wins : Bool) : Option World :=
  match process.phase with
  | .initializing => some (initializeCheckpoint archive w position process)
  | .loading =>
    match process.goal with
    | .restore => some (beginRestore archive w position process)
    | _ =>
      match load archive w with
      | .error error => some (w.setPhase position process (.finished (.error error)))
      | .ok manifest => some (w.setPhase position process (.planning .migration 0 manifest))
  | .planning stage lost loaded => some (advanceLoop archive w position process stage lost loaded)
  | .storing stage lost loaded object next =>
    match w.create object.1 object.2 with
    | none => some (w.setPhase position process (.finished (.error (.alreadyExists object.1))))
    | some stored => some (stored.setPhase position process (.swapping stage lost loaded next))
  | .swapping stage lost loaded next =>
    some (advanceSwap archive w position process stage lost loaded next wins)
  | .reloading stage lost =>
    match load archive w with
    | .error error => some (w.setPhase position process (.finished (.error error)))
    | .ok manifest => some (w.setPhase position process (.planning stage lost manifest))
  | .uploading loaded =>
    match process.goal with
    | .snapshot anchor bytes =>
      some (((w.create (checkpointSnapshotKey anchor) bytes).getD w).setPhase position process
        (.verifying loaded))
    | _ => none
  | .verifying loaded =>
    match process.goal with
    | .snapshot anchor bytes =>
      match ObjectArchiveStore.downloadVerified w.objects (checkpointSnapshotKey anchor)
          bytes.length (LogHash.digest [bytes]) with
      | .error error => some (w.setPhase position process (.finished (.error error)))
      | .ok _ => some (w.setPhase position process (.planning .main 0 loaded))
    | _ => none
  | .answering loaded pending =>
    match pending with
    | [] => some (w.setPhase position process (.finished (.ok ())))
    | entries :: rest =>
      match archive.publicationSuffixStart w.objects loaded entries with
      | .ok none => some { w.setPhase position process (.answering loaded rest) with
          answers := (entries, loaded) :: w.answers }
      | _ => some (w.setPhase position process (.answering loaded rest))
  | .downloading loaded snapshot =>
    match ObjectArchiveStore.downloadVerified w.objects snapshot.objectKey snapshot.sizeBytes
        snapshot.digest with
    | .error error => some (w.setPhase position process (.finished (.error error)))
    | .ok bytes => some (w.setPhase position process
        (.restoring loaded (some (snapshot.anchor, bytes)) loaded.segments loaded.base.tip []))
  | .restoring loaded snapshot records tip restored =>
    match records with
    | [] => some (finishRestore w position process loaded snapshot tip restored)
    | record :: records =>
      match restoreSegment archive w.objects record tip with
      | .error error => some (w.setPhase position process (.finished (.error error)))
      | .ok (entries, tip) => some (w.setPhase position process
          (.restoring loaded snapshot records tip (restored ++ entries)))
  | .finished _ => none

def spawn (w : World) (process : Process) : World :=
  { w with processes := w.processes ++ [process] }

/-- Where a call of the archive starts, after the checks that need no store. Only
publishers flush. -/
def firstPhase : Goal → Phase
  | .flush _ _ => .finished (.ok ())
  | .publish entries =>
    match archive.validatePublicationEntries none entries with
    | .error error => .finished (.error error)
    | .ok () => .initializing
  | .restore => .loading
  | _ => .initializing

/-- The start of `drive_flushes`. -/
def flushPhase (pending : List (List LogEntry)) (loaded : CheckpointManifest) : Goal × Phase :=
  match ObjectArchiveStore.coalescePendingEntries pending loaded.tip.index with
  | .error error => (.flush pending [], .finished (.error error))
  | .ok [] => (.flush pending [], .answering loaded pending)
  | .ok (entry :: entries) =>
    (.flush pending (entry :: entries), .planning .main 0 loaded)

def publishable (pending : List (List LogEntry)) : Bool :=
  pending.all fun entries => ¬ entries.isEmpty ∧
    archive.validatePublicationEntries none entries = .ok ()

def step (w : World) : Event → Option World
  | .call goal => some (w.spawn ⟨none, goal, firstPhase archive goal⟩)
  | .openPublisher publisher => some (w.spawn ⟨some publisher, .open, .initializing⟩)
  | .flush publisher pending =>
    match w.publishers publisher with
    | none => none
    | some loaded =>
      if publishable archive pending then
        let (goal, phase) := flushPhase pending loaded
        some (w.spawn ⟨some publisher, goal, phase⟩)
      else none
  | .publisherSnapshot publisher anchor bytes =>
    match w.publishers publisher with
    | none => none
    | some loaded =>
      match archive.checkSnapshot anchor bytes with
      | .error _ => none
      | .ok () => some (w.spawn ⟨some publisher, .snapshot anchor bytes, .uploading loaded⟩)
  | .reload publisher =>
    match load archive w with
    | .error _ => none
    | .ok manifest => some { w with
        publishers := Function.update w.publishers publisher (some manifest) }
  | .advance position wins =>
    match w.processes[position]? with
    | none => none
    | some process => advance archive w position process wins
  | .crash position =>
    match w.processes[position]? with
    | none => none
    | some process => some (w.setPhase position process (.finished (.error
        (.invalidCheckpoint "stopped"))))

end World

end Rhiza.Archive
