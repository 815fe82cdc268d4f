import Rhiza.Archive.Faithful

/-! # A copy that nobody disturbs

It succeeds on an empty target, and again when the target has the copy already.
-/

namespace Rhiza.Archive.Copying

open Core Library

structure Calm (source : Store) (found : Option (CheckpointManifest × Nat)) (nextVersion : Nat)
    (keys : List ObjectKey) (w : CopyWorld) : Prop where
  kept : w.source = source
  others : w.others = []
  active : w.target.retired = false
  manifest : w.target.manifest = found
  nextVersion : w.target.nextVersion = nextVersion
  copied : ∀ key bytes, w.target.objects key = some bytes → source.objects key = some bytes
  present : ∀ key ∈ keys, ∃ bytes, w.target.objects key = some bytes

section Quiet

variable {source : Store} {found : Option (CheckpointManifest × Nat)} {nextVersion : Nat}
  {keys keys' : List ObjectKey}

theorem Calm.object {w : CopyWorld} (h : Calm source found nextVersion keys w) {key : ObjectKey}
    (hKey : key ∈ keys) : w.target.objects key = source.objects key := by
  obtain ⟨bytes, hBytes⟩ := h.present key hKey
  rw [hBytes, h.copied key bytes hBytes]

theorem Calm.mono {w : CopyWorld} (h : Calm source found nextVersion keys w)
    (hKeys : ∀ key ∈ keys', key ∈ keys) : Calm source found nextVersion keys' w :=
  { h with present := fun key hKey => h.present key (hKeys key hKey) }

theorem Calm.look {w : CopyWorld} (h : Calm source found nextVersion keys w) :
    Calm source found nextVersion keys w.look := { h with }

abbrev Answers {α : Type} (x : Copy α) (source : Store) (found : Option (CheckpointManifest × Nat))
    (nextVersion : Nat) (keys : List ObjectKey) (a : α) : Prop :=
  Action.Does x (Calm source found nextVersion keys) a (Calm source found nextVersion keys)

theorem answers_operation : Answers operation source found nextVersion keys () := by
  intro w h
  refine ⟨w.look, ?_, h.look⟩
  rw [operation, h.others]

theorem answers_result {α : Type} {answer : Result α} {a : α} (h : answer = .ok a) :
    Answers (result answer) source found nextVersion keys a := by
  refine Action.does_lift ?_
  rw [h]
  rfl

theorem answers_read : Answers (read .source) source found nextVersion keys source := by
  refine answers_operation.bind fun w h => ⟨w, ?_, h⟩
  show (Except.ok w.source, w) = _
  rw [h.kept]

theorem answers_ensure_source {c : Copier} (hActive : source.retired = false) :
    Answers (c.ensureGenerationNotRetired .source) source found nextVersion keys () := by
  refine answers_read.bind ?_
  rw [hActive]
  exact Action.does_pure ()

theorem answers_ensure_target {c : Copier} :
    Answers (c.ensureGenerationNotRetired .target) source found nextVersion keys () := by
  intro w h
  obtain ⟨w₁, hRun, h₁⟩ := answers_operation w h
  refine ⟨w₁, Action.bind_eq_ok.mpr ⟨w₁.target, w₁, ?_, ?_⟩, h₁⟩
  · exact Action.bind_eq_ok.mpr ⟨(), w₁, hRun, rfl⟩
  · rw [h₁.active]
    rfl

variable [Sha256] {c : Copier} {manifest : CheckpointManifest} {version : Nat}

theorem answers_load_source (hManifest : source.manifest = some (manifest, version))
    (hValid : validateCheckpointManifest c.sourceIdentity manifest = .ok ()) :
    Answers (c.loadCheckpoint .source) source found nextVersion keys
      (some ⟨manifest, version⟩) := by
  refine answers_read.bind ?_
  rw [hManifest]
  exact (answers_result hValid).bind (Action.does_pure _)

theorem answers_load_none :
    Answers (c.loadCheckpoint .target) source none nextVersion keys none := by
  intro w h
  obtain ⟨w₁, hRun, h₁⟩ := answers_operation w h
  refine ⟨w₁, Action.bind_eq_ok.mpr ⟨w₁.target, w₁, ?_, ?_⟩, h₁⟩
  · exact Action.bind_eq_ok.mpr ⟨(), w₁, hRun, rfl⟩
  · rw [h₁.manifest]
    rfl

theorem answers_load_some
    (hValid : validateCheckpointManifest c.targetIdentity manifest = .ok ()) :
    Answers (c.loadCheckpoint .target) source (some (manifest, version)) nextVersion keys
      (some ⟨manifest, version⟩) := by
  intro w h
  obtain ⟨w₁, hRun, h₁⟩ := answers_operation w h
  refine ⟨w₁, Action.bind_eq_ok.mpr ⟨w₁.target, w₁, ?_, ?_⟩, h₁⟩
  · exact Action.bind_eq_ok.mpr ⟨(), w₁, hRun, rfl⟩
  · rw [h₁.manifest]
    exact Action.bind_eq_ok.mpr ⟨(), w₁, result_eq_ok.mpr ⟨hValid, rfl⟩, rfl⟩

theorem answers_download {key : ObjectKey} {sizeBytes : Nat} {sha256 : LogHash} {bytes : Bytes}
    (h : ObjectArchiveStore.downloadVerified source.objects key sizeBytes sha256 = .ok bytes) :
    Answers (downloadVerified .source key sizeBytes sha256) source found nextVersion keys bytes :=
  answers_read.bind (answers_result h)

theorem object_of_download {objects : Objects} {key : ObjectKey} {sizeBytes : Nat}
    {sha256 : LogHash} {bytes : Bytes}
    (h : ObjectArchiveStore.downloadVerified objects key sizeBytes sha256 = .ok bytes) :
    objects key = some bytes := by
  unfold ObjectArchiveStore.downloadVerified at h
  split at h
  · cases h
  · rename_i stored hStored
    simp only [unit_bind_ok_iff] at h
    rw [hStored, Except.ok.inj h.2.2]

omit [Sha256] in
theorem Calm.storeObject {w : CopyWorld} (h : Calm source found nextVersion keys w)
    {key : ObjectKey} {bytes : Bytes} (hBytes : source.objects key = some bytes) :
    Calm source found nextVersion (key :: keys) (storeObject key bytes w) := by
  unfold Copying.storeObject
  split
  · rename_i stored hStored
    refine { h with present := fun key' hKey => ?_ }
    rcases List.mem_cons.mp hKey with rfl | hOld
    · exact ⟨stored, hStored⟩
    · exact h.present key' hOld
  · refine { h with copied := fun key' bytes' hFound => ?_, present := fun key' hKey => ?_ }
    · change Function.update w.target.objects key (some bytes) key' = some bytes' at hFound
      by_cases hSame : key' = key
      · subst hSame
        rw [Function.update_self] at hFound
        rw [hBytes, Option.some.inj hFound]
      · rw [Function.update_of_ne hSame] at hFound
        exact h.copied key' bytes' hFound
    · by_cases hSame : key' = key
      · subst hSame
        exact ⟨bytes, Function.update_self ..⟩
      · obtain ⟨stored, hStored⟩ := h.present key' ((List.mem_cons.mp hKey).resolve_left hSame)
        exact ⟨stored, (Function.update_of_ne hSame ..).trans hStored⟩

theorem does_create {key : ObjectKey} {sizeBytes : Nat} {sha256 : LogHash} {bytes : Bytes}
    (h : ObjectArchiveStore.downloadVerified source.objects key sizeBytes sha256 = .ok bytes) :
    Action.Does (createVerifiedCheckpointObject key bytes sizeBytes sha256)
      (Calm source found nextVersion keys) () (Calm source found nextVersion (key :: keys)) := by
  have hStore : Action.Does (Action.update (storeObject key bytes) : Copy Unit)
      (Calm source found nextVersion keys) () (Calm source found nextVersion (key :: keys)) :=
    fun w hCalm => ⟨_, rfl, hCalm.storeObject (object_of_download h)⟩
  have hCheck : Answers (downloadVerified .target key sizeBytes sha256) source found nextVersion
      (key :: keys) bytes := by
    intro w hCalm
    obtain ⟨w₁, hRun, h₁⟩ := answers_operation w hCalm
    refine ⟨w₁, Action.bind_eq_ok.mpr ⟨w₁.target, w₁, ?_, ?_⟩, h₁⟩
    · exact Action.bind_eq_ok.mpr ⟨(), w₁, hRun, rfl⟩
    · refine result_eq_ok.mpr ⟨?_, rfl⟩
      rw [downloadVerified_congr (h₁.object List.mem_cons_self)]
      exact h
  exact answers_operation.bind (hStore.bind (hCheck.bind (Action.does_pure ())))

theorem answers_restoreBase {base : CheckpointBase} {snapshot : Option (RecoveryAnchor × Bytes)}
    (h : Archive.restoreBase source.objects base = .ok snapshot) :
    Answers (restoreBase .source base) source found nextVersion keys snapshot := by
  cases base with
  | genesis =>
    obtain rfl := Except.ok.inj h
    exact Action.does_pure _
  | snapshot snapshot =>
    obtain ⟨bytes, hBytes, h⟩ := bind_ok_iff.mp h
    obtain rfl := Except.ok.inj h
    exact answers_operation.bind ((answers_download hBytes).bind (Action.does_pure _))

theorem answers_restoreSegments {records : List CheckpointSegmentRecord} {tip : CheckpointTip}
    {restored : List LogEntry} {last : List LogEntry × CheckpointTip}
    (h : Archive.restoreSegments c.source source.objects records tip restored = .ok last) :
    Answers (c.restoreSegments .source records tip restored) source found nextVersion keys last := by
  induction records generalizing tip restored with
  | nil =>
    obtain rfl := Except.ok.inj h
    exact Action.does_pure _
  | cons record records ih =>
    obtain ⟨segment, hSegment, h⟩ := bind_ok_iff.mp h
    exact answers_operation.bind (answers_read.bind ((answers_result hSegment).bind (ih h)))

theorem answers_restoreUnleased {restored : RestoredCheckpoint}
    (hManifest : source.manifest = some (manifest, version))
    (h : restoreCheckpoint c.source source.objects (some manifest) = .ok restored) :
    Answers (c.restoreCheckpointUnleased .source) source found nextVersion keys restored := by
  simp only [restoreCheckpoint, bind_ok_iff] at h
  obtain ⟨⟨⟩, hValid, snapshot, hBase, last, hRecords, ⟨⟩, hTip, h⟩ := h
  obtain rfl := Except.ok.inj h
  refine (answers_load_source hManifest hValid).bind ?_
  exact (answers_restoreBase hBase).bind ((answers_restoreSegments hRecords).bind
    ((answers_result hTip).bind (Action.does_pure _)))

omit [Sha256] in
theorem answers_leased {α : Type} {body : Copy α} {a : α}
    (h : Answers body source found nextVersion keys a) :
    Answers (leased body) source found nextVersion keys a :=
  answers_operation.bind (h.attempt.bind (answers_operation.attempt.bind (Action.does_pure a)))

theorem answers_restoreV2 {restored : RestoredCheckpoint}
    (hManifest : source.manifest = some (manifest, version)) (hActive : source.retired = false)
    (h : restoreCheckpoint c.source source.objects (some manifest) = .ok restored) :
    Answers (c.restoreCheckpointV2 .source) source found nextVersion keys restored :=
  answers_leased ((answers_ensure_source hActive).bind (answers_restoreUnleased hManifest h))

theorem does_copyBase {base : CheckpointBase} {snapshot : Option (RecoveryAnchor × Bytes)}
    (hKey : ∀ snapshot, base = .snapshot snapshot →
      snapshot.objectKey = checkpointSnapshotKey snapshot.anchor)
    (h : Archive.restoreBase source.objects base = .ok snapshot) :
    Action.Does (c.copyBase base) (Calm source found nextVersion keys)
      (copiedBase c.targetIdentity base) (Calm source found nextVersion (baseKeys base ++ keys)) := by
  cases base with
  | genesis => exact Action.does_pure _
  | snapshot snapshot =>
    obtain ⟨bytes, hBytes, -⟩ := bind_ok_iff.mp h
    refine (answers_download hBytes).bind ?_
    have hSame : (copiedSnapshot c.targetIdentity snapshot).objectKey = snapshot.objectKey :=
      (hKey snapshot rfl).symm
    dsimp only
    rw [hSame]
    exact (does_create hBytes).bind (Action.does_pure _)

theorem download_of_restoreSegment {archive : ObjectArchiveStore} {objects : Objects}
    {record : CheckpointSegmentRecord} {tip : CheckpointTip}
    {segment : List LogEntry × CheckpointTip}
    (h : World.restoreSegment archive objects record tip = .ok segment) :
    ∃ bytes, ObjectArchiveStore.downloadVerified objects record.objectKey record.sizeBytes
      record.sha256 = .ok bytes := by
  obtain ⟨entries, hLoad, -⟩ := bind_ok_iff.mp h
  obtain ⟨bytes, hBytes, -⟩ := bind_ok_iff.mp hLoad
  exact ⟨bytes, hBytes⟩

theorem does_copySegments {records : List CheckpointSegmentRecord} {tip : CheckpointTip}
    {restored : List LogEntry} {last : List LogEntry × CheckpointTip}
    (hKeys : records.map copiedRecord = records)
    (h : Archive.restoreSegments c.source source.objects records tip restored = .ok last) :
    Action.Does (copySegments records) (Calm source found nextVersion keys)
      (records.map copiedRecord)
      (Calm source found nextVersion (records.map (·.objectKey) ++ keys)) := by
  induction records generalizing tip restored keys with
  | nil => exact Action.does_pure _
  | cons record records ih =>
    obtain ⟨segment, hSegment, h⟩ := bind_ok_iff.mp h
    obtain ⟨bytes, hBytes⟩ := download_of_restoreSegment hSegment
    obtain ⟨hRecord, hRest⟩ := List.cons.inj hKeys
    refine answers_operation.bind (answers_operation.bind ((answers_download hBytes).bind ?_))
    dsimp only
    rw [hRecord]
    refine (does_create hBytes).bind ((ih hRest h).bind ?_)
    rw [List.map_cons, hRecord]
    refine (Action.does_pure _).mono (fun _ hCalm => hCalm) fun w hCalm => hCalm.mono ?_
    intro key hKey
    simp only [List.map_cons, List.cons_append, List.mem_cons, List.mem_append] at hKey ⊢
    tauto

theorem does_publish (hManifest : source.manifest = some (manifest, version))
    (hValid : validateCheckpointManifest c.sourceIdentity manifest = .ok ())
    {copied : CheckpointManifest} :
    Action.Does (c.publishCopy ⟨manifest, version⟩ copied) (Calm source none nextVersion keys)
      ⟨copied, nextVersion⟩ (Calm source (some (copied, nextVersion)) (nextVersion + 1) keys) := by
  have hCreate : Action.Does (createManifest copied) (Calm source none nextVersion keys)
      (some nextVersion) (Calm source (some (copied, nextVersion)) (nextVersion + 1) keys) := by
    refine answers_operation.bind fun w hCalm => ?_
    dsimp only
    rw [hCalm.manifest, hCalm.nextVersion]
    exact ⟨_, rfl, { hCalm with manifest := rfl, nextVersion := rfl }⟩
  have hConfirm : Answers (c.confirm ⟨manifest, version⟩ ⟨copied, nextVersion⟩) source
      (some (copied, nextVersion)) (nextVersion + 1) keys ⟨copied, nextVersion⟩ := by
    refine (answers_load_source hManifest hValid).bind ?_
    rw [if_pos rfl]
    exact answers_operation.bind (Action.does_pure _)
  exact answers_load_none.bind (hCreate.bind hConfirm)

theorem answers_publish {source' : LoadedCheckpointManifest} {copied : CheckpointManifest}
    (hValid : validateCheckpointManifest c.targetIdentity copied = .ok ()) :
    Answers (c.publishCopy source' copied) source (some (copied, version)) nextVersion keys
      ⟨copied, version⟩ := by
  refine (answers_load_some hValid).bind ?_
  dsimp only
  unfold settle
  rw [if_pos rfl]
  exact answers_operation.bind (Action.does_pure _)

structure Intact (c : Copier) (source : Store) (manifest : CheckpointManifest) (version : Nat)
    (restored : RestoredCheckpoint) : Prop where
  stored : source.manifest = some (manifest, version)
  active : source.retired = false
  format : manifest.formatVersion = checkpointFormatVersion
  restores : restoreCheckpoint c.source source.objects (some manifest) = .ok restored

variable {restored : RestoredCheckpoint} {loaded : LoadedCheckpointManifest}
  {found' : Option (CheckpointManifest × Nat)} {nextVersion' : Nat}
  {transition : Option CheckpointSuccessorTransition}

theorem Intact.valid (h : Intact c source manifest version restored) :
    validateCheckpointManifest c.sourceIdentity manifest = .ok () := by
  obtain ⟨⟨⟩, hValid, -⟩ := bind_ok_iff.mp h.restores
  exact hValid

theorem Intact.baseKey (h : Intact c source manifest version restored)
    {snapshot : CheckpointSnapshotBase} (hBase : manifest.base = .snapshot snapshot) :
    snapshot.objectKey = checkpointSnapshotKey snapshot.anchor := by
  have hParts := h.valid
  simp only [validateCheckpointManifest, unit_bind_ok_iff] at hParts
  exact (snapshot_of_validateBase hBase hParts.2.2.2.2.1).2.2.2

theorem Intact.segmentKeys (h : Intact c source manifest version restored) :
    manifest.segments.map copiedRecord = manifest.segments := by
  have hParts := h.valid
  simp only [validateCheckpointManifest, unit_bind_ok_iff] at hParts
  obtain ⟨-, -, -, -, -, hSegments⟩ := hParts
  split at hSegments
  · cases hSegments
  · exact map_copiedRecord (unit_bind_ok_iff.mp hSegments).1

section Copied

variable (h : Intact c source manifest version restored)
  (hValid : validateCheckpointManifest c.targetIdentity
    (copiedManifest c.targetIdentity transition manifest) = .ok ())
  (hPublish : ∀ keys, Action.Does (c.publishCopy ⟨manifest, version⟩
      (copiedManifest c.targetIdentity transition manifest))
    (Calm source found nextVersion keys) loaded (Calm source found' nextVersion' keys))

include h hValid hPublish

theorem does_copyLoaded :
    Action.Does (c.copyLoaded transition ⟨manifest, version⟩) (Calm source found nextVersion keys)
      loaded (Calm source found' nextVersion' (objectKeys manifest)) := by
  have hRestores := h.restores
  simp only [restoreCheckpoint, bind_ok_iff] at hRestores
  obtain ⟨⟨⟩, -, snapshot, hBase, last, hRecords, -⟩ := hRestores
  unfold Copier.copyLoaded
  rw [if_neg (not_not.mpr h.format)]
  refine (answers_restoreUnleased h.stored h.restores).bind ?_
  refine (does_copyBase (fun _ => h.baseKey) hBase).bind ?_
  refine (does_copySegments h.segmentKeys hRecords).bind ?_
  refine (answers_result hValid).bind ((hPublish _).mono (fun _ hCalm => hCalm) fun w hCalm => ?_)
  refine hCalm.mono fun key hKey => ?_
  rcases List.mem_append.mp hKey with hBaseKey | hSegment
  · exact List.mem_append_right _ (List.mem_append_left _ hBaseKey)
  · exact List.mem_append_left _ hSegment

theorem does_copyCheckpointTo :
    Action.Does (c.copyCheckpointTo transition) (Calm source found nextVersion keys) loaded
      (Calm source found' nextVersion' (objectKeys manifest)) := by
  have hCopy : Action.Does (c.copyCheckpointToUnleased transition)
      (Calm source found nextVersion keys) loaded
      (Calm source found' nextVersion' (objectKeys manifest)) :=
    (answers_ensure_source h.active).bind (answers_ensure_target.bind
      ((answers_load_source h.stored h.valid).bind (does_copyLoaded h hValid hPublish)))
  exact answers_operation.bind (answers_operation.attempt.bind (hCopy.attempt.bind
    (answers_operation.attempt.bind (answers_operation.attempt.bind (Action.does_pure loaded)))))

end Copied

theorem does_copy_empty (h : Intact c source manifest version restored)
    (hValid : validateCheckpointManifest c.targetIdentity
      (copiedManifest c.targetIdentity transition manifest) = .ok ()) :
    Action.Does (c.copyCheckpointTo transition) (Calm source none nextVersion keys)
      ⟨copiedManifest c.targetIdentity transition manifest, nextVersion⟩
      (Calm source (some (copiedManifest c.targetIdentity transition manifest, nextVersion))
        (nextVersion + 1) (objectKeys manifest)) :=
  does_copyCheckpointTo h hValid fun _ => does_publish h.stored h.valid

theorem does_copy_again (h : Intact c source manifest version restored) {first : Nat}
    (hValid : validateCheckpointManifest c.targetIdentity
      (copiedManifest c.targetIdentity transition manifest) = .ok ()) :
    Action.Does (c.copyCheckpointTo transition)
      (Calm source (some (copiedManifest c.targetIdentity transition manifest, first)) nextVersion
        keys)
      ⟨copiedManifest c.targetIdentity transition manifest, first⟩
      (Calm source (some (copiedManifest c.targetIdentity transition manifest, first)) nextVersion
        (objectKeys manifest)) :=
  does_copyCheckpointTo h hValid fun _ => answers_publish hValid

structure Copier.Rolls (c : Copier) : Prop where
  same : SameConfiguration c.sourceIdentity c.targetIdentity
  next : checkedSucc c.sourceIdentity.recoveryGeneration =
    some c.targetIdentity.recoveryGeneration

omit [Sha256] in
theorem Copier.Rolls.passes (h : c.Rolls) : ¬ (c.sourceIdentity.clusterId ≠ c.targetIdentity.clusterId ∨
    c.sourceIdentity.epoch ≠ c.targetIdentity.epoch ∨
    c.sourceIdentity.configId ≠ c.targetIdentity.configId ∨
    checkedSucc c.sourceIdentity.recoveryGeneration ≠
      some c.targetIdentity.recoveryGeneration) := by
  rw [h.same.clusterId, h.same.epoch, h.same.configId, h.next]
  simp

theorem Copier.Rolls.roll_eq (h : c.Rolls) :
    c.rollRecoveryGeneration = c.copyCheckpointTo none := if_neg h.passes

structure Copier.Forks (c : Copier) (stopEntry : LogEntry) (successor : SuccessorDescriptor)
    (restored : RestoredCheckpoint) : Prop where
  bound : boundSuccessor c.sourceIdentity stopEntry = .ok successor
  target : c.checkSuccessor successor = .ok ()
  root : checkStoppedRoot c.sourceIdentity successor stopEntry restored = .ok ()

theorem Copier.Forks.spec {stopEntry : LogEntry} {successor : SuccessorDescriptor}
    (h : c.Forks stopEntry successor restored) : ∃ anchor bytes,
      restored.snapshot = some (anchor, bytes) ∧ restored.suffix = [] ∧
        restored.tip = ⟨stopEntry.index, stopEntry.hash⟩ := by
  have hRoot := h.root
  unfold checkStoppedRoot at hRoot
  split at hRoot
  · cases hRoot
  · rename_i anchor bytes hSnapshot
    split at hRoot
    · cases hRoot
    · obtain ⟨-, -, hTip, hSuffix⟩ := of_decide_eq_true (check_eq_ok.mp hRoot)
      exact ⟨anchor, bytes, hSnapshot, hSuffix, hTip⟩

theorem length_of_restoreSegments {archive : ObjectArchiveStore} {objects : Objects}
    {records : List CheckpointSegmentRecord} {tip : CheckpointTip} {entries : List LogEntry}
    {last : List LogEntry × CheckpointTip}
    (h : Archive.restoreSegments archive objects records tip entries = .ok last) :
    entries.length + records.length ≤ last.1.length := by
  induction records generalizing tip entries with
  | nil =>
    obtain rfl := Except.ok.inj h
    exact Nat.le_refl _
  | cons record records ih =>
    obtain ⟨segment, hSegment, h⟩ := bind_ok_iff.mp h
    have hLonger : 0 < segment.1.length := by
      obtain ⟨decoded, -, hSegment⟩ := bind_ok_iff.mp hSegment
      obtain ⟨⟨⟩, -, hSegment⟩ := bind_ok_iff.mp hSegment
      split at hSegment
      · cases hSegment
      · rename_i last hLast
        obtain rfl := Except.ok.inj hSegment
        exact List.length_pos_of_mem (List.mem_of_getLast? hLast)
    have hRest := ih h
    rw [List.length_append] at hRest
    rw [List.length_cons]
    omega

theorem Intact.stoppedRoot (h : Intact c source manifest version restored) {stopEntry : LogEntry}
    {successor : SuccessorDescriptor} (hForks : c.Forks stopEntry successor restored) :
    (∃ snapshot bytes, manifest.base = .snapshot snapshot ∧
      restored.snapshot = some (snapshot.anchor, bytes)) ∧
      manifest.segments = [] ∧ manifest.tip.index = stopEntry.index := by
  obtain ⟨anchor, bytes, hSnapshot, hSuffix, hTip⟩ := hForks.spec
  have hRestores := h.restores
  simp only [restoreCheckpoint, bind_ok_iff] at hRestores
  obtain ⟨⟨⟩, -, snapshot, hBase, last, hRecords, ⟨⟩, hEnd, hRestored⟩ := hRestores
  obtain rfl := Except.ok.inj hRestored
  have hLength := length_of_restoreSegments hRecords
  have hNone : last.1.length = 0 := by
    rw [List.length_eq_zero_iff]
    exact hSuffix
  have hLast : last.2 = manifest.tip := of_decide_eq_true (check_eq_ok.mp hEnd)
  refine ⟨?_, List.length_eq_zero_iff.mp (by omega), ?_⟩
  · cases hFound : manifest.base with
    | genesis =>
      rw [hFound] at hBase
      obtain rfl := Except.ok.inj hBase
      cases hSnapshot
    | snapshot snapshot =>
      rw [hFound] at hBase
      obtain ⟨stored, -, hBase⟩ := bind_ok_iff.mp hBase
      exact ⟨snapshot, stored, rfl, (Except.ok.inj hBase).symm⟩
  · have hSame : last.2 = ⟨stopEntry.index, stopEntry.hash⟩ := hTip
    rw [← hLast, hSame]

theorem Intact.forked_valid (h : Intact c source manifest version restored) {stopEntry : LogEntry}
    {successor : SuccessorDescriptor} (hForks : c.Forks stopEntry successor restored) :
    validateCheckpointManifest c.targetIdentity (copiedManifest c.targetIdentity
      (some ⟨c.sourceIdentity, successor, stopEntry⟩) manifest) = .ok () := by
  obtain ⟨⟨snapshot, bytes, hBase, hSnapshot⟩, -, -⟩ := h.stoppedRoot hForks
  exact validate_forked hForks.bound hForks.target hForks.root hSnapshot hBase h.valid

theorem does_forkTo {stopEntry : LogEntry} {successor : SuccessorDescriptor}
    (hNotYet : Answers (c.loadValidAdvancedSuccessor ⟨c.sourceIdentity, successor, stopEntry⟩
      stopEntry.index) source found nextVersion keys none)
    (hCopy : Action.Does (c.copyCheckpointTo (some ⟨c.sourceIdentity, successor, stopEntry⟩))
      (Calm source found nextVersion keys) loaded (Calm source found' nextVersion' keys')) :
    Action.Does (c.forkTo ⟨c.sourceIdentity, successor, stopEntry⟩)
      (Calm source found nextVersion keys) loaded (Calm source found' nextVersion' keys') :=
  hNotYet.bind (hCopy.attempt.bind (Action.does_pure loaded))

theorem does_fork (h : Intact c source manifest version restored) {stopEntry : LogEntry}
    {successor : SuccessorDescriptor} (hForks : c.Forks stopEntry successor restored)
    (hFork : Action.Does (c.forkTo ⟨c.sourceIdentity, successor, stopEntry⟩)
      (Calm source found nextVersion keys) loaded (Calm source found' nextVersion' keys')) :
    Action.Does (c.forkStoppedSuccessor stopEntry) (Calm source found nextVersion keys) loaded
      (Calm source found' nextVersion' keys') := by
  refine (answers_result hForks.bound).bind ((answers_result hForks.target).bind ?_)
  refine (answers_load_source h.stored h.valid).bind ?_
  dsimp only
  rw [if_neg (not_not.mpr h.format)]
  exact (answers_restoreV2 h.stored h.active h.restores).bind
    ((answers_result hForks.root).bind hFork)

theorem answers_not_yet_empty {transition : CheckpointSuccessorTransition} {stopIndex : Nat} :
    Answers (c.loadValidAdvancedSuccessor transition stopIndex) source none nextVersion keys none :=
  answers_load_none.bind (Action.does_pure none)

theorem answers_not_yet_copied {transition : CheckpointSuccessorTransition} {stopIndex : Nat}
    {copied : CheckpointManifest} {first : Nat}
    (hValid : validateCheckpointManifest c.targetIdentity copied = .ok ())
    (hTip : copied.tip.index ≤ stopIndex) :
    Answers (c.loadValidAdvancedSuccessor transition stopIndex) source (some (copied, first))
      nextVersion keys none := by
  refine (answers_load_some hValid).bind ?_
  dsimp only
  rw [if_pos (.inr hTip)]
  exact Action.does_pure none

end Quiet

section Results

variable [Sha256]

def inGeneration (recoveryGeneration : Nat) (restored : RestoredCheckpoint) : RestoredCheckpoint :=
  { restored with snapshot := restored.snapshot.map fun (anchor, bytes) =>
      ({ anchor with formatVersion := 2, recoveryGeneration }, bytes) }

def ReadAnchors (manifest : CheckpointManifest) : Prop :=
  ∀ snapshot, manifest.base = .snapshot snapshot →
    snapshot.anchor.configurationState.configId = snapshot.anchor.configId

variable {c : Copier} {source : Store} {manifest : CheckpointManifest} {version : Nat}
  {restored : RestoredCheckpoint} {w : CopyWorld}

theorem Intact.copiedRestored_eq (h : Intact c source manifest version restored)
    (hRead : ReadAnchors manifest) :
    copiedRestored c.targetIdentity restored =
      inGeneration c.targetIdentity.recoveryGeneration restored := by
  have hRestores := h.restores
  simp only [restoreCheckpoint, bind_ok_iff] at hRestores
  obtain ⟨⟨⟩, -, found, hBase, last, -, ⟨⟩, -, hRestored⟩ := hRestores
  obtain rfl := Except.ok.inj hRestored
  cases hFound : manifest.base with
  | genesis =>
    rw [hFound] at hBase
    obtain rfl := Except.ok.inj hBase
    rfl
  | snapshot snapshot =>
    rw [hFound] at hBase
    obtain ⟨bytes, -, hBase⟩ := bind_ok_iff.mp hBase
    obtain rfl := Except.ok.inj hBase
    have hSame : newWithConfiguration snapshot.anchor c.targetIdentity.recoveryGeneration =
        { snapshot.anchor with
          formatVersion := 2
          recoveryGeneration := c.targetIdentity.recoveryGeneration } := by
      rw [newWithConfiguration, hRead snapshot hFound]
    simp only [copiedRestored, inGeneration, Option.map_some, hSame]

structure Fresh (source : Store) (w : CopyWorld) : Prop where
  kept : w.source = source
  others : w.others = []
  active : w.target.retired = false
  manifest : w.target.manifest = none
  objects : ∀ key, w.target.objects key = none

omit [Sha256] in
theorem Fresh.calm (h : Fresh source w) : Calm source none w.target.nextVersion [] w where
  kept := h.kept
  others := h.others
  active := h.active
  manifest := h.manifest
  nextVersion := rfl
  copied := by
    intro key bytes hFound
    rw [h.objects] at hFound
    cases hFound
  present := fun _ hKey => absurd hKey List.not_mem_nil

def FaithfulFrom (c : Copier) (call : Copy LoadedCheckpointManifest) (restored : RestoredCheckpoint)
    (w : CopyWorld) : Prop :=
  ∃ loaded, validateCheckpointManifest c.targetIdentity loaded.manifest = .ok () ∧
    ∀ n, ∃ w', call.repeated (n + 1) w = (List.replicate (n + 1) (.ok loaded), w') ∧
      w'.source = w.source ∧
      w'.target.manifest = some (loaded.manifest, loaded.version) ∧
      restoreCheckpoint c.target w'.target.objects (some loaded.manifest) =
        .ok (inGeneration c.targetIdentity.recoveryGeneration restored)

theorem Intact.faithful (h : Intact c source manifest version restored)
    (hRead : ReadAnchors manifest) (hFresh : Fresh source w)
    {transition : Option CheckpointSuccessorTransition} {copied : CheckpointManifest}
    {call : Copy LoadedCheckpointManifest}
    (hCopied : copiedManifest c.targetIdentity transition manifest = copied)
    (hValid : validateCheckpointManifest c.targetIdentity copied = .ok ())
    (hSegments : SameConfiguration c.sourceIdentity c.targetIdentity ∨ manifest.segments = [])
    (hFirst : Action.Does call (Calm source none w.target.nextVersion [])
      ⟨copied, w.target.nextVersion⟩ (Calm source (some (copied, w.target.nextVersion))
        (w.target.nextVersion + 1) (objectKeys manifest)))
    (hAgain : Action.Does call (Calm source (some (copied, w.target.nextVersion))
        (w.target.nextVersion + 1) (objectKeys manifest))
      ⟨copied, w.target.nextVersion⟩ (Calm source (some (copied, w.target.nextVersion))
        (w.target.nextVersion + 1) (objectKeys manifest))) :
    FaithfulFrom c call restored w := by
  subst hCopied
  refine ⟨⟨_, w.target.nextVersion⟩, hValid, fun n => ?_⟩
  obtain ⟨w', hRun, hCalm⟩ := hFirst.repeated_succ hAgain n hFresh.calm
  refine ⟨w', hRun, hCalm.kept.trans hFresh.kept.symm, hCalm.manifest, ?_⟩
  rw [← h.copiedRestored_eq hRead]
  exact restore_copied h.restores (fun key hKey => hCalm.object hKey) (fun _ => h.baseKey) hSegments
    hValid

theorem roll_faithful (h : Intact c source manifest version restored) (hRead : ReadAnchors manifest)
    (hRolls : c.Rolls) (hFresh : Fresh source w) :
    FaithfulFrom c c.rollRecoveryGeneration restored w := by
  have hValid := validate_rolled hRolls.same h.valid
  rw [hRolls.roll_eq]
  exact h.faithful hRead hFresh rfl hValid (.inl hRolls.same) (does_copy_empty h hValid)
    (does_copy_again h hValid)

theorem fork_faithful (h : Intact c source manifest version restored) (hRead : ReadAnchors manifest)
    {stopEntry : LogEntry} {successor : SuccessorDescriptor}
    (hForks : c.Forks stopEntry successor restored) (hFresh : Fresh source w) :
    FaithfulFrom c (c.forkStoppedSuccessor stopEntry) restored w := by
  obtain ⟨-, hSegments, hTip⟩ := h.stoppedRoot hForks
  have hValid := h.forked_valid hForks
  have hNotAfter : (copiedManifest c.targetIdentity
      (some ⟨c.sourceIdentity, successor, stopEntry⟩) manifest).tip.index ≤ stopEntry.index :=
    Nat.le_of_eq hTip
  exact h.faithful hRead hFresh rfl hValid (.inr hSegments)
    (does_fork h hForks (does_forkTo answers_not_yet_empty (does_copy_empty h hValid)))
    (does_fork h hForks (does_forkTo (answers_not_yet_copied hValid hNotAfter)
      (does_copy_again h hValid)))

def CopyWorld.start (source target : Store)
    (others : List (Except CopyError (Store × Store → Store × Store))) : CopyWorld :=
  ⟨source, target, others, []⟩

structure Store.Empty (store : Store) : Prop where
  active : store.retired = false
  manifest : store.manifest = none
  objects : ∀ key, store.objects key = none

omit [Sha256] in
theorem Store.Empty.fresh {target : Store} (h : target.Empty) :
    Fresh source (CopyWorld.start source target []) where
  kept := rfl
  others := rfl
  active := h.active
  manifest := h.manifest
  objects := h.objects

/-- On an empty target rolls and forks are faithful to a source that can be restored. Among
others, what they return is the copy of a manifest that the source had during the call, or the
target of the fork has gone on from it. -/
theorem copies_are_faithful (c : Copier) (source target : Store) :
    (∀ manifest version restored, Intact c source manifest version restored →
      ReadAnchors manifest → target.Empty →
      (c.Rolls → FaithfulFrom c c.rollRecoveryGeneration restored
        (CopyWorld.start source target [])) ∧
      ∀ stopEntry successor, c.Forks stopEntry successor restored →
        FaithfulFrom c (c.forkStoppedSuccessor stopEntry) restored
          (CopyWorld.start source target [])) ∧
    ∀ others loaded w',
      (c.rollRecoveryGeneration (CopyWorld.start source target others) = (.ok loaded, w') →
        Reflects c.targetIdentity none loaded.manifest w') ∧
      ∀ stopEntry,
        c.forkStoppedSuccessor stopEntry (CopyWorld.start source target others) =
          (.ok loaded, w') →
        ∃ successor,
          Reflects c.targetIdentity (some ⟨c.sourceIdentity, successor, stopEntry⟩)
            loaded.manifest w' ∨
          Advanced ⟨c.sourceIdentity, successor, stopEntry⟩ loaded.manifest := by
  refine ⟨fun manifest version restored h hRead hEmpty => ⟨fun hRolls => ?_, ?_⟩,
    fun others loaded w' => ⟨reflects_rollRecoveryGeneration, fun stopEntry => ?_⟩⟩
  · exact roll_faithful h hRead hRolls hEmpty.fresh
  · intro stopEntry successor hForks
    exact fork_faithful h hRead hForks hEmpty.fresh
  · exact forkStoppedSuccessor_eq

end Results

namespace Sample

attribute [local instance] Sha256.rolling

def successor : SuccessorDescriptor where
  clusterId := "c"
  predecessorConfigId := 1
  predecessorConfigDigest := .zero
  configId := 2
  members := ["a", "b", "c"]
  clusterNamed := by decide
  clusterBounded := by decide
  next := by decide
  canonical := by decide

def stopCommand : StoredCommand := (ConfigChange.boundStop successor).toStoredCommand

def stopEntry : LogEntry where
  clusterId := "c"
  epoch := 1
  configId := 1
  index := 1
  entryType := stopCommand.entryType
  payload := stopCommand.payload
  prevHash := .zero
  hash := calculateHash "c" 1 1 1 stopCommand.entryType .zero stopCommand.payload

def stopped : ConfigurationState :=
  .stopped 1 .zero ⟨1, stopEntry.hash⟩ (.bound successor stopCommand.hash)

def anchor : RecoveryAnchor :=
  ⟨2, "c", 1, 1, stopped, 1, ⟨1, stopEntry.hash⟩, LogHash.digest [[7]], 1, none⟩

def base : CheckpointSnapshotBase := ObjectArchiveStore.snapshotBase anchor [7]

def root : CheckpointManifest :=
  ⟨2, Archive.Sample.identity, none, .snapshot base, [], ⟨1, stopEntry.hash⟩⟩

def stores : Store :=
  ⟨some (root, 5), Function.update (fun _ => none) base.objectKey (some [7]), false, 6⟩

def nothing : Store := ⟨none, fun _ => none, false, 0⟩

def restored : RestoredCheckpoint := ⟨some (anchor, [7]), [], ⟨1, stopEntry.hash⟩⟩

def copier (configId recoveryGeneration : Nat) : Copier :=
  ⟨Archive.Sample.archive.codec, Archive.Sample.identity, ⟨"c", 1, configId, recoveryGeneration⟩⟩

theorem restores_root :
    restoreCheckpoint Archive.Sample.archive stores.objects (some root) = .ok restored := by
  decide +kernel

theorem stores_intact (configId recoveryGeneration : Nat) :
    Intact (copier configId recoveryGeneration) stores root 5 restored where
  stored := rfl
  active := rfl
  format := rfl
  restores := restores_root

theorem root_read : ReadAnchors root := by
  intro snapshot hBase
  cases hBase
  rfl

theorem nothing_empty : nothing.Empty := ⟨rfl, rfl, fun _ => rfl⟩

theorem next_generation : (copier 1 2).Rolls := ⟨⟨rfl, rfl, rfl⟩, by decide⟩

theorem next_configuration : (copier 2 1).Forks stopEntry successor restored where
  bound := by decide +kernel
  target := by decide +kernel
  root := by decide +kernel

def grownBase : CheckpointSnapshotBase := ObjectArchiveStore.snapshotBase Archive.Sample.anchor [7]

def grownSegment : CheckpointSegmentRecord :=
  ⟨checkpointSegmentFormatVersion, 2, 2, Archive.Sample.first.hash, Archive.Sample.second.hash,
    .segment 2 2, LogHash.digest [[2]], 1⟩

/-- A root that has a segment behind its base. -/
def grown : CheckpointManifest :=
  ⟨2, Archive.Sample.identity, none, .snapshot grownBase, [grownSegment],
    ⟨2, Archive.Sample.second.hash⟩⟩

def grownStores : Store :=
  ⟨some (grown, 5), Function.update (Function.update (fun _ => none) grownBase.objectKey (some [7]))
    grownSegment.objectKey (some [2]), false, 6⟩

def grownRestored : RestoredCheckpoint :=
  ⟨some (Archive.Sample.anchor, [7]), [Archive.Sample.second], ⟨2, Archive.Sample.second.hash⟩⟩

theorem grown_intact : Intact (copier 1 2) grownStores grown 5 grownRestored where
  stored := rfl
  active := rfl
  format := rfl
  restores := by decide +kernel

/-- A root with a segment in the next generation, and a stopped root in the successor. -/
theorem roots_copy :
    FaithfulFrom (copier 1 2) (copier 1 2).rollRecoveryGeneration grownRestored
      (CopyWorld.start grownStores nothing []) ∧
    FaithfulFrom (copier 2 1) ((copier 2 1).forkStoppedSuccessor stopEntry) restored
      (CopyWorld.start stores nothing []) := by
  have hGrownRead : ReadAnchors grown := by
    intro snapshot hBase
    cases hBase
    rfl
  exact ⟨((copies_are_faithful (copier 1 2) grownStores nothing).1 grown 5 grownRestored grown_intact
      hGrownRead nothing_empty).1 next_generation,
    ((copies_are_faithful (copier 2 1) stores nothing).1 root 5 restored (stores_intact 2 1)
      root_read nothing_empty).2 stopEntry successor next_configuration⟩

def firstFormat : CheckpointManifest := ⟨1, Archive.Sample.identity, none, .genesis, [], ⟨0, .zero⟩⟩

/-- The first format is valid and can be restored, and it is not copied. -/
theorem first_format_is_refused :
    validateCheckpointManifest Archive.Sample.identity firstFormat = .ok () ∧
    restoreCheckpoint Archive.Sample.archive (fun _ => none) (some firstFormat) =
      .ok ⟨none, [], ⟨0, .zero⟩⟩ ∧
    (copier 1 2).Rolls ∧ nothing.Empty ∧
    ((copier 1 2).rollRecoveryGeneration (CopyWorld.start
      ⟨some (firstFormat, 5), fun _ => none, false, 6⟩ nothing [])).1 =
        .error (.archive (.invalidCheckpoint "checkpoint copy requires a format-2 source")) :=
  ⟨by decide, by decide, next_generation, nothing_empty, rfl⟩

end Sample

end Rhiza.Archive.Copying
