import Rhiza.Archive.Copy

/-! # Copies of checkpoints are faithful

A copy that nobody disturbs succeeds on an empty target, and the target restores what
the source restores. A copy among others is one of a manifest that the source had
during the call.
-/

namespace Rhiza.Archive.Copying

open Core Library

def copiedBase (identity : CheckpointIdentity) : CheckpointBase → CheckpointBase
  | .genesis => .genesis
  | .snapshot snapshot => .snapshot (copiedSnapshot identity snapshot)

def copiedManifest (identity : CheckpointIdentity)
    (transition : Option CheckpointSuccessorTransition) (source : CheckpointManifest) :
    CheckpointManifest :=
  ⟨checkpointFormatVersion, identity, transition.or source.successorTransition,
    copiedBase identity source.base, source.segments.map copiedRecord, source.tip⟩

section Manifests

variable [Sha256] {identity identity' : CheckpointIdentity} {manifest : CheckpointManifest}

omit [Sha256] in
theorem copiedBase_tip (base : CheckpointBase) : (copiedBase identity base).tip = base.tip := by
  cases base <;> rfl

omit [Sha256] in
theorem copiedRecord_of_key {record : CheckpointSegmentRecord}
    (h : record.objectKey = .segment record.startIndex record.endIndex) :
    copiedRecord record = record := by
  rw [copiedRecord, ← h]

omit [Sha256] in
theorem map_copiedRecord {start : Nat} {hash : LogHash} {records : List CheckpointSegmentRecord}
    (h : validateSegments start hash records = .ok ()) : records.map copiedRecord = records := by
  induction records generalizing start hash with
  | nil => rfl
  | cons record records ih =>
    simp only [validateSegments, unit_bind_ok_iff] at h
    obtain ⟨-, -, -, -, -, hKey, -, h⟩ := h
    split at h
    · cases h
    · rw [List.map_cons, ih h, copiedRecord_of_key (of_decide_eq_true (check_eq_ok.mp hKey))]

structure SameConfiguration (identity identity' : CheckpointIdentity) : Prop where
  clusterId : identity'.clusterId = identity.clusterId
  epoch : identity'.epoch = identity.epoch
  configId : identity'.configId = identity.configId

omit [Sha256] in
theorem SameConfiguration.validateEntryIdentity (h : SameConfiguration identity identity') :
    Archive.validateEntryIdentity identity' = Archive.validateEntryIdentity identity := by
  funext entry
  simp only [Archive.validateEntryIdentity, h.clusterId, h.epoch, h.configId]

theorem SameConfiguration.validateTransition (h : SameConfiguration identity identity')
    (hTransition : Archive.validateTransition identity manifest = .ok ()) :
    Archive.validateTransition identity' (copiedManifest identity' none manifest) = .ok () := by
  have hSame : (copiedManifest identity' none manifest).successorTransition =
      manifest.successorTransition := rfl
  have hCopied : (copiedManifest identity' none manifest).base =
      copiedBase identity' manifest.base := rfl
  unfold Archive.validateTransition at hTransition ⊢
  rw [hSame, hCopied]
  cases hSuccessor : manifest.successorTransition with
  | none => rfl
  | some transition =>
    rw [hSuccessor] at hTransition
    simp only [validateSuccessorTransition, h.clusterId, h.epoch, h.configId] at hTransition ⊢
    cases hBase : manifest.base with
    | genesis =>
      rw [hBase] at hTransition
      exact hTransition
    | snapshot snapshot =>
      rw [hBase] at hTransition
      exact hTransition

omit [Sha256] in
theorem snapshot_of_validateBase {snapshot : CheckpointSnapshotBase}
    (hBase : manifest.base = .snapshot snapshot) (h : validateBase identity manifest = .ok ()) :
    snapshot.anchor.clusterId = identity.clusterId ∧ snapshot.anchor.epoch = identity.epoch ∧
      validSnapshotMetadata snapshot ∧ snapshot.objectKey = checkpointSnapshotKey snapshot.anchor := by
  rw [validateBase, hBase] at h
  split at h
  · rename_i hBase'
    cases hBase'
  · rename_i hBase'
    cases hBase'
    split at h
    · simp only [validateTransitionSnapshotBase, validateSnapshotKey, unit_bind_ok_iff, check_eq_ok,
        decide_eq_true_eq] at h
      exact ⟨h.1.1, h.1.2.1, h.2.1, h.2.2⟩
    · simp only [validateCheckpointSnapshotBase, validateRecoveryAnchor, validateSnapshotKey,
        unit_bind_ok_iff, check_eq_ok, decide_eq_true_eq] at h
      exact ⟨h.1.2.1, h.1.2.2.1, h.2.1, h.2.2⟩

omit [Sha256] in
theorem validSnapshotMetadata_copied {snapshot : CheckpointSnapshotBase}
    (h : validSnapshotMetadata snapshot) (identity' : CheckpointIdentity) :
    validSnapshotMetadata (copiedSnapshot identity' snapshot) := h

omit [Sha256] in
theorem SameConfiguration.validateBase (h : SameConfiguration identity identity')
    (hBase : Archive.validateBase identity manifest = .ok ()) :
    Archive.validateBase identity' (copiedManifest identity' none manifest) = .ok () := by
  cases hFound : manifest.base with
  | genesis =>
    simp only [Archive.validateBase, copiedManifest, copiedBase, hFound]
  | snapshot snapshot =>
    obtain ⟨hCluster, hEpoch, hMetadata, -⟩ := snapshot_of_validateBase hFound hBase
    have hMetadata' := validSnapshotMetadata_copied hMetadata identity'
    simp only [Archive.validateBase, hFound] at hBase
    simp only [Archive.validateBase, copiedManifest, copiedBase, hFound, Option.none_or]
    have hState : (copiedSnapshot identity' snapshot).anchor.configurationState =
        snapshot.anchor.configurationState := rfl
    rw [hState]
    split at hBase
    · rename_i hTransition
      rw [if_pos hTransition]
      simp only [validateTransitionSnapshotBase, validateSnapshotKey, unit_bind_ok_iff, check_eq_ok,
        decide_eq_true_eq]
      exact ⟨⟨hCluster.trans h.clusterId.symm, hEpoch.trans h.epoch.symm, rfl⟩, hMetadata', rfl⟩
    · rename_i hTransition
      rw [if_neg hTransition]
      simp only [validateCheckpointSnapshotBase, validateRecoveryAnchor, unit_bind_ok_iff,
        check_eq_ok, decide_eq_true_eq] at hBase
      obtain ⟨⟨-, -, -, hConfig, -, hSame, hStop⟩, -⟩ := hBase
      simp only [validateCheckpointSnapshotBase, validateRecoveryAnchor, validateSnapshotKey,
        unit_bind_ok_iff, check_eq_ok, decide_eq_true_eq]
      exact ⟨⟨.inr rfl, hCluster.trans h.clusterId.symm, hEpoch.trans h.epoch.symm,
        (hSame.trans hConfig).trans h.configId.symm, rfl, rfl, hStop⟩, hMetadata', rfl⟩

theorem validate_copied {transition : Option CheckpointSuccessorTransition}
    (h : validateCheckpointManifest identity manifest = .ok ())
    (hTransition : Archive.validateTransition identity'
      (copiedManifest identity' transition manifest) = .ok ())
    (hBase : Archive.validateBase identity' (copiedManifest identity' transition manifest) = .ok ()) :
    validateCheckpointManifest identity' (copiedManifest identity' transition manifest) = .ok () := by
  simp only [validateCheckpointManifest, unit_bind_ok_iff] at h
  obtain ⟨-, -, -, -, -, h⟩ := h
  have hIdentity : validateCheckpointIdentity identity'
      (copiedManifest identity' transition manifest).identity = .ok () := by
    simp [validateCheckpointIdentity, copiedManifest]
  have hTip : (copiedManifest identity' transition manifest).base.tip = manifest.base.tip :=
    copiedBase_tip manifest.base
  simp only [validateCheckpointManifest, unit_bind_ok_iff]
  refine ⟨check_eq_ok.mpr (decide_eq_true (.inl rfl)), check_eq_ok.mpr (decide_eq_true ?_),
    hIdentity, hTransition, hBase, ?_⟩
  · intro hVersion
    cases hVersion
  rw [hTip]
  split at h
  · cases h
  · obtain ⟨hSegments, hLast⟩ := unit_bind_ok_iff.mp h
    have hSame : (copiedManifest identity' transition manifest).segments = manifest.segments :=
      map_copiedRecord hSegments
    have hLastTip : (copiedManifest identity' transition manifest).lastTip = manifest.lastTip := by
      rw [CheckpointManifest.lastTip, CheckpointManifest.lastTip, hSame, hTip]
    rw [hSame]
    refine unit_bind_ok_iff.mpr ⟨hSegments, check_eq_ok.mpr (decide_eq_true ?_)⟩
    rw [hLastTip]
    exact of_decide_eq_true (check_eq_ok.mp hLast)

theorem validate_rolled (h : SameConfiguration identity identity')
    (hValid : validateCheckpointManifest identity manifest = .ok ()) :
    validateCheckpointManifest identity' (copiedManifest identity' none manifest) = .ok () := by
  have hParts := hValid
  simp only [validateCheckpointManifest, unit_bind_ok_iff] at hParts
  obtain ⟨-, -, -, hTransition, hBase, -⟩ := hParts
  exact validate_copied hValid (h.validateTransition hTransition) (h.validateBase hBase)

theorem validate_forked {c : Copier} {successor : SuccessorDescriptor} {stopEntry : LogEntry}
    {snapshot : CheckpointSnapshotBase} {restored : RestoredCheckpoint} {bytes : Bytes}
    (hBound : boundSuccessor c.sourceIdentity stopEntry = .ok successor)
    (hCheck : c.checkSuccessor successor = .ok ())
    (hRoot : checkStoppedRoot c.sourceIdentity successor stopEntry restored = .ok ())
    (hSnapshot : restored.snapshot = some (snapshot.anchor, bytes))
    (hFound : manifest.base = .snapshot snapshot)
    (hValid : validateCheckpointManifest c.sourceIdentity manifest = .ok ()) :
    validateCheckpointManifest c.targetIdentity (copiedManifest c.targetIdentity
      (some ⟨c.sourceIdentity, successor, stopEntry⟩) manifest) = .ok () := by
  have hParts := hValid
  simp only [validateCheckpointManifest, unit_bind_ok_iff] at hParts
  obtain ⟨-, -, -, -, hBase, -⟩ := hParts
  obtain ⟨hCluster, hEpoch, hMetadata, -⟩ := snapshot_of_validateBase hFound hBase
  simp only [boundSuccessor, unit_bind_ok_iff, check_eq_ok, decide_eq_true_eq] at hBound
  obtain ⟨hEntry, hHash, hBound⟩ := hBound
  split at hBound
  · rename_i recognized hRecognized
    obtain rfl := Except.ok.inj hBound
    obtain ⟨hSameCluster, hSameEpoch, hNext, hSuccessorCluster, hPredecessor, hSuccessor⟩ :=
      of_decide_eq_true (check_eq_ok.mp hCheck)
    unfold checkStoppedRoot at hRoot
    rw [hSnapshot] at hRoot
    dsimp only at hRoot
    split at hRoot
    · cases hRoot
    · rename_i expected hExpected
      obtain ⟨hState, hCompacted, -, -⟩ := of_decide_eq_true (check_eq_ok.mp hRoot)
      have hConfig : snapshot.anchor.configurationState.configId = c.sourceIdentity.configId := by
        rw [hState]
        exact (ConfigurationState.validateEntry_active hExpected).2.1
      refine validate_copied hValid ?_ ?_
      · simp only [Archive.validateTransition, copiedManifest, Option.some_or, hFound, copiedBase,
          validateSuccessorTransition, validateTransitionBase, unit_bind_ok_iff, check_eq_ok,
          decide_eq_true_eq]
        refine ⟨⟨hSameCluster, hSameEpoch, hNext, hSuccessorCluster, hPredecessor, hSuccessor⟩,
          hEntry, ⟨hHash, hRecognized⟩, ?_⟩
        have hSame : ¬ (copiedSnapshot c.targetIdentity snapshot).anchor.configurationState.configId ≠
            c.sourceIdentity.configId := not_not.mpr hConfig
        rw [if_neg hSame, hExpected]
        exact check_eq_ok.mpr (decide_eq_true ⟨hState, hCompacted⟩)
      · have hAny : ((some ⟨c.sourceIdentity, recognized, stopEntry⟩ :
            Option CheckpointSuccessorTransition).any fun transition =>
              (copiedSnapshot c.targetIdentity snapshot).anchor.configurationState.configId =
                transition.predecessor.configId) = true := decide_eq_true hConfig
        simp only [Archive.validateBase, copiedManifest, copiedBase, hFound, Option.some_or]
        rw [if_pos hAny]
        simp only [validateTransitionSnapshotBase, validateSnapshotKey, unit_bind_ok_iff, check_eq_ok,
          decide_eq_true_eq]
        exact ⟨⟨hCluster.trans hSameCluster, hEpoch.trans hSameEpoch, rfl⟩,
          validSnapshotMetadata_copied hMetadata _, rfl⟩
  · cases hBound

end Manifests

section Restores

variable [Sha256] {codec : SegmentCodec} {identity identity' : CheckpointIdentity}
  {objects objects' : Objects} {manifest : CheckpointManifest}

theorem SameConfiguration.restoreSegment (h : SameConfiguration identity identity') :
    World.restoreSegment ⟨identity', codec⟩ = World.restoreSegment ⟨identity, codec⟩ := by
  have hIdentities : ObjectArchiveStore.validateIdentities ⟨identity', codec⟩ =
      ObjectArchiveStore.validateIdentities ⟨identity, codec⟩ := by
    funext entries
    induction entries with
    | nil => rfl
    | cons entry entries ih =>
      simp only [ObjectArchiveStore.validateIdentities, h.validateEntryIdentity, ih]
  have hDecoded : ObjectArchiveStore.validateDecodedEntries ⟨identity', codec⟩ =
      ObjectArchiveStore.validateDecodedEntries ⟨identity, codec⟩ := by
    funext tip entries
    induction entries generalizing tip with
    | nil => rfl
    | cons entry entries ih =>
      simp only [ObjectArchiveStore.validateDecodedEntries, h.validateEntryIdentity, ih]
  funext objects record tip
  simp only [World.restoreSegment, ObjectArchiveStore.loadCheckpointSegment,
    ObjectArchiveStore.decodeSegment, h.clusterId, hIdentities, hDecoded]

theorem downloadVerified_congr {key : ObjectKey} (h : objects' key = objects key) :
    ObjectArchiveStore.downloadVerified objects' key =
      ObjectArchiveStore.downloadVerified objects key := by
  funext sizeBytes sha256
  rw [ObjectArchiveStore.downloadVerified, ObjectArchiveStore.downloadVerified, h]

def baseKeys : CheckpointBase → List ObjectKey
  | .genesis => []
  | .snapshot snapshot => [snapshot.objectKey]

def objectKeys (manifest : CheckpointManifest) : List ObjectKey :=
  baseKeys manifest.base ++ manifest.segments.map (·.objectKey)

theorem restoreSegments_congr {archive : ObjectArchiveStore} {records : List CheckpointSegmentRecord}
    (h : ∀ record ∈ records, objects' record.objectKey = objects record.objectKey) :
    Archive.restoreSegments archive objects' records = Archive.restoreSegments archive objects records := by
  induction records with
  | nil => rfl
  | cons record records ih =>
    have hHere : World.restoreSegment archive objects' record =
        World.restoreSegment archive objects record := by
      funext tip
      simp only [World.restoreSegment, ObjectArchiveStore.loadCheckpointSegment,
        downloadVerified_congr (h record List.mem_cons_self)]
    have hRest := ih fun later hLater => h later (List.mem_cons_of_mem _ hLater)
    funext tip restored
    rw [Archive.restoreSegments, Archive.restoreSegments, hHere, hRest]

def copiedRestored (identity : CheckpointIdentity) (restored : RestoredCheckpoint) :
    RestoredCheckpoint :=
  { restored with snapshot := restored.snapshot.map fun (anchor, bytes) =>
      (newWithConfiguration anchor identity.recoveryGeneration, bytes) }

theorem restore_copied {transition : Option CheckpointSuccessorTransition}
    {restored : RestoredCheckpoint}
    (h : restoreCheckpoint ⟨identity, codec⟩ objects (some manifest) = .ok restored)
    (hObjects : ∀ key ∈ objectKeys manifest, objects' key = objects key)
    (hKey : ∀ snapshot, manifest.base = .snapshot snapshot →
      snapshot.objectKey = checkpointSnapshotKey snapshot.anchor)
    (hSegments : SameConfiguration identity identity' ∨ manifest.segments = [])
    (hValid : validateCheckpointManifest identity' (copiedManifest identity' transition manifest) =
      .ok ()) :
    restoreCheckpoint ⟨identity', codec⟩ objects'
      (some (copiedManifest identity' transition manifest)) =
        .ok (copiedRestored identity' restored) := by
  simp only [restoreCheckpoint, bind_ok_iff] at h
  obtain ⟨⟨⟩, hSource, found, hBase, ⟨entries, tip⟩, hRecords, ⟨⟩, hTip, h⟩ := h
  obtain rfl := Except.ok.inj h
  have hMap : manifest.segments.map copiedRecord = manifest.segments := by
    simp only [validateCheckpointManifest, unit_bind_ok_iff] at hSource
    obtain ⟨-, -, -, -, -, hSource⟩ := hSource
    split at hSource
    · cases hSource
    · exact map_copiedRecord (unit_bind_ok_iff.mp hSource).1
  have hBase' : Archive.restoreBase objects' (copiedBase identity' manifest.base) =
      .ok (found.map fun (anchor, bytes) =>
        (newWithConfiguration anchor identity'.recoveryGeneration, bytes)) := by
    cases hFound : manifest.base with
    | genesis =>
      rw [hFound] at hBase
      obtain rfl := Except.ok.inj hBase
      rfl
    | snapshot snapshot =>
      have hSame : objects' snapshot.objectKey = objects snapshot.objectKey :=
        hObjects _ (by simp [objectKeys, baseKeys, hFound])
      have hCopied : (copiedSnapshot identity' snapshot).objectKey = snapshot.objectKey :=
        (hKey snapshot hFound).symm
      rw [hFound] at hBase
      obtain ⟨bytes, hBytes, hBase⟩ := bind_ok_iff.mp hBase
      obtain rfl := Except.ok.inj hBase
      refine bind_ok_iff.mpr ⟨bytes, ?_, rfl⟩
      rw [hCopied, downloadVerified_congr hSame]
      exact hBytes
  have hRecords' : Archive.restoreSegments ⟨identity', codec⟩ objects' manifest.segments
      manifest.base.tip [] = .ok (entries, tip) := by
    rw [restoreSegments_congr fun record hRecord =>
      hObjects _ (List.mem_append_right _ (List.mem_map_of_mem hRecord))]
    rcases hSegments with hSame | hNone
    · have hLoop : ∀ records, Archive.restoreSegments ⟨identity', codec⟩ objects records =
          Archive.restoreSegments ⟨identity, codec⟩ objects records := by
        intro records
        induction records with
        | nil => rfl
        | cons record records ih =>
          funext tip restored
          rw [Archive.restoreSegments, Archive.restoreSegments, hSame.restoreSegment, ih]
      rw [hLoop]
      exact hRecords
    · rw [hNone] at hRecords ⊢
      exact hRecords
  simp only [restoreCheckpoint, bind_ok_iff]
  refine ⟨(), hValid, _, hBase', (entries, tip), ?_, (), hTip, rfl⟩
  have hBaseTip : (copiedManifest identity' transition manifest).base.tip = manifest.base.tip :=
    copiedBase_tip manifest.base
  have hSame : (copiedManifest identity' transition manifest).segments = manifest.segments := hMap
  rw [hBaseTip, hSame]
  exact hRecords'

end Restores

def Sees (w w' : CopyWorld) : Prop := ∀ manifest ∈ w.seen, manifest ∈ w'.seen

theorem Sees.refl (w : CopyWorld) : Sees w w := fun _ h => h

theorem Sees.trans (w₁ w₂ w₃ : CopyWorld) (h : Sees w₁ w₂) (h' : Sees w₂ w₃) : Sees w₁ w₃ :=
  fun manifest hMem => h' manifest (h manifest hMem)

abbrev Remembers {α : Type} (x : Copy α) : Prop := Action.Keeps Sees x

section Remembering

variable {α β : Type} {x : Copy α} {f : α → Copy β}

theorem Remembers.bind (h : Remembers x) (hf : ∀ a, Remembers (f a)) : Remembers (x >>= f) :=
  Action.Keeps.bind Sees.trans h hf

theorem remembers_pure (a : α) : Remembers (pure a : Copy α) := Action.keeps_pure Sees.refl a

theorem remembers_raise (error : CopyError) : Remembers (Action.raise error : Copy α) :=
  Action.keeps_raise Sees.refl error

theorem remembers_result (answer : Result α) : Remembers (result answer) :=
  Action.keeps_lift Sees.refl _

theorem remembers_operation : Remembers operation := by
  intro w manifest hMem
  unfold operation
  split
  · exact List.mem_cons_of_mem _ hMem
  · exact List.mem_cons_of_mem _ hMem
  · exact List.mem_cons_of_mem _ hMem

theorem seen_of_operation {w w' : CopyWorld} {u : Unit} (h : operation w = (.ok u, w')) :
    w'.source.manifest.map (·.1) ∈ w'.seen := by
  unfold operation at h
  split at h
  · cases h
    exact List.mem_cons_self
  · cases h
  · cases h
    exact List.mem_cons_self

theorem remembers_read (side : Side) : Remembers (read side) :=
  remembers_operation.bind fun _ w => Sees.refl w

variable [Sha256] (c : Copier)

theorem remembers_loadCheckpoint (side : Side) : Remembers (c.loadCheckpoint side) := by
  refine (remembers_read side).bind fun store => ?_
  split
  · exact remembers_pure none
  · exact (remembers_result _).bind fun _ => remembers_pure _

theorem remembers_downloadVerified (side : Side) (key : ObjectKey) (sizeBytes : Nat)
    (sha256 : LogHash) : Remembers (downloadVerified side key sizeBytes sha256) :=
  (remembers_read side).bind fun _ => remembers_result _

theorem remembers_createVerifiedCheckpointObject (key : ObjectKey) (bytes : Bytes)
    (sizeBytes : Nat) (sha256 : LogHash) :
    Remembers (createVerifiedCheckpointObject key bytes sizeBytes sha256) := by
  refine remembers_operation.bind fun _ => Remembers.bind (fun w manifest hMem => ?_) fun _ =>
    (remembers_downloadVerified _ _ _ _).bind fun _ => remembers_pure ()
  show manifest ∈ (storeObject key bytes w).seen
  unfold storeObject
  split
  · exact hMem
  · exact hMem

theorem remembers_restoreBase (side : Side) (base : CheckpointBase) :
    Remembers (restoreBase side base) := by
  cases base with
  | genesis => exact remembers_pure none
  | snapshot snapshot =>
    exact remembers_operation.bind fun _ =>
      (remembers_downloadVerified _ _ _ _).bind fun _ => remembers_pure _

theorem remembers_restoreSegments (side : Side) (records : List CheckpointSegmentRecord)
    (tip : CheckpointTip) (restored : List LogEntry) :
    Remembers (c.restoreSegments side records tip restored) := by
  induction records generalizing tip restored with
  | nil => exact remembers_pure _
  | cons record records ih =>
    exact remembers_operation.bind fun _ => (remembers_read side).bind fun _ =>
      (remembers_result _).bind fun segment => ih segment.2 (restored ++ segment.1)

theorem remembers_restoreCheckpointUnleased (side : Side) :
    Remembers (c.restoreCheckpointUnleased side) := by
  refine (remembers_loadCheckpoint c side).bind fun loaded => ?_
  split
  · exact remembers_pure _
  · exact (remembers_restoreBase _ _).bind fun _ => (remembers_restoreSegments _ _ _ _ _).bind fun _ =>
      (remembers_result _).bind fun _ => remembers_pure _

theorem remembers_copyBase (base : CheckpointBase) : Remembers (c.copyBase base) := by
  cases base with
  | genesis => exact remembers_pure _
  | snapshot snapshot =>
    exact (remembers_downloadVerified _ _ _ _).bind fun _ =>
      (remembers_createVerifiedCheckpointObject _ _ _ _).bind fun _ => remembers_pure _

theorem remembers_copySegments (records : List CheckpointSegmentRecord) :
    Remembers (copySegments records) := by
  induction records with
  | nil => exact remembers_pure _
  | cons record records ih =>
    exact remembers_operation.bind fun _ => remembers_operation.bind fun _ =>
      (remembers_downloadVerified _ _ _ _).bind fun _ =>
        (remembers_createVerifiedCheckpointObject _ _ _ _).bind fun _ => ih.bind fun _ => remembers_pure _

omit [Sha256] in
theorem remembers_settle (manifest : CheckpointManifest) (existing : LoadedCheckpointManifest) :
    Remembers (settle manifest existing) := by
  unfold settle
  split
  · exact remembers_operation.bind fun _ => remembers_pure existing
  · exact remembers_raise _

omit [Sha256] in
theorem remembers_createManifest (manifest : CheckpointManifest) :
    Remembers (createManifest manifest) := by
  refine remembers_operation.bind fun _ w other hMem => ?_
  dsimp only
  split
  · exact hMem
  · exact hMem

omit [Sha256] in
theorem remembers_deleteExact (version : Nat) : Remembers (deleteExact version) := by
  refine remembers_operation.bind fun _ w other hMem => ?_
  dsimp only
  split
  · exact hMem
  · split
    · exact hMem
    · exact hMem

theorem remembers_confirm (source created : LoadedCheckpointManifest) :
    Remembers (c.confirm source created) := by
  refine (remembers_loadCheckpoint c .source).bind fun sourceAfter => ?_
  split
  · exact remembers_operation.bind fun _ => remembers_pure created
  · refine (remembers_deleteExact created.version).bind fun deleted => ?_
    split
    · exact remembers_raise _
    · exact remembers_raise _

theorem remembers_publishCopy (source : LoadedCheckpointManifest) (manifest : CheckpointManifest) :
    Remembers (c.publishCopy source manifest) := by
  refine (remembers_loadCheckpoint c .target).bind fun existing => ?_
  split
  · exact remembers_settle _ _
  · refine (remembers_createManifest manifest).bind fun created => ?_
    split
    · exact remembers_confirm _ _ _
    · refine (remembers_loadCheckpoint c .target).bind fun existing => ?_
      split
      · exact remembers_settle _ _
      · exact remembers_raise _

theorem remembers_copyLoaded (transition : Option CheckpointSuccessorTransition)
    (source : LoadedCheckpointManifest) : Remembers (c.copyLoaded transition source) := by
  unfold Copier.copyLoaded
  split
  · exact remembers_raise _
  · exact (remembers_restoreCheckpointUnleased _ _).bind fun _ => (remembers_copyBase _ _).bind fun _ =>
      (remembers_copySegments _).bind fun _ => (remembers_result _).bind fun _ =>
        remembers_publishCopy _ _ _

end Remembering

def Reflects (identity : CheckpointIdentity) (transition : Option CheckpointSuccessorTransition)
    (copied : CheckpointManifest) (w : CopyWorld) : Prop :=
  ∃ source, some source ∈ w.seen ∧ copied = copiedManifest identity transition source

theorem Reflects.mono {identity : CheckpointIdentity}
    {transition : Option CheckpointSuccessorTransition} {copied : CheckpointManifest}
    {w w' : CopyWorld} (h : Reflects identity transition copied w) (hSees : Sees w w') :
    Reflects identity transition copied w' := by
  obtain ⟨source, hSeen, hCopied⟩ := h
  exact ⟨source, hSees _ hSeen, hCopied⟩

section Reflecting

variable {w w' : CopyWorld} {side : Side}

theorem seen_of_read {store : Store} (h : read .source w = (.ok store, w')) :
    store.manifest.map (·.1) ∈ w'.seen := by
  obtain ⟨⟨⟩, middle, hOperation, h⟩ := Action.bind_eq_ok.mp h
  cases h
  exact seen_of_operation hOperation

theorem result_eq_ok {α : Type} {answer : Result α} {a : α} :
    result answer w = (.ok a, w') ↔ answer = .ok a ∧ w = w' := by
  rw [result, Action.lift_eq_ok]
  cases answer with
  | error error =>
    constructor
    · rintro ⟨h, -⟩
      cases h
    · rintro ⟨h, -⟩
      cases h
  | ok found =>
    constructor
    · rintro ⟨h, rfl⟩
      cases h
      exact ⟨rfl, rfl⟩
    · rintro ⟨h, rfl⟩
      cases h
      exact ⟨rfl, rfl⟩

variable [Sha256] {c : Copier} {loaded source : LoadedCheckpointManifest}
  {manifest : CheckpointManifest} {transition : Option CheckpointSuccessorTransition}

theorem seen_of_loadCheckpoint (h : c.loadCheckpoint .source w = (.ok (some loaded), w')) :
    some loaded.manifest ∈ w'.seen := by
  obtain ⟨store, middle, hRead, h⟩ := Action.bind_eq_ok.mp h
  have hSeen := seen_of_read hRead
  rcases hFound : store.manifest with - | ⟨found, version⟩
  · simp only [hFound] at h
    cases h
  · simp only [hFound] at h
    obtain ⟨⟨⟩, next, hValid, h⟩ := Action.bind_eq_ok.mp h
    obtain ⟨-, rfl⟩ := result_eq_ok.mp hValid
    cases h
    rw [hFound] at hSeen
    exact hSeen

theorem copyBase_eq {base copied : CheckpointBase} (h : c.copyBase base w = (.ok copied, w')) :
    copied = copiedBase c.targetIdentity base := by
  cases base with
  | genesis =>
    cases h
    rfl
  | snapshot snapshot =>
    obtain ⟨bytes, middle, -, h⟩ := Action.bind_eq_ok.mp h
    obtain ⟨⟨⟩, next, -, h⟩ := Action.bind_eq_ok.mp h
    cases h
    rfl

theorem copySegments_eq {records copied : List CheckpointSegmentRecord}
    (h : copySegments records w = (.ok copied, w')) : copied = records.map copiedRecord := by
  induction records generalizing w copied with
  | nil =>
    cases h
    rfl
  | cons record records ih =>
    obtain ⟨⟨⟩, w₁, -, h⟩ := Action.bind_eq_ok.mp h
    obtain ⟨⟨⟩, w₂, -, h⟩ := Action.bind_eq_ok.mp h
    obtain ⟨bytes, w₃, -, h⟩ := Action.bind_eq_ok.mp h
    obtain ⟨⟨⟩, w₄, -, h⟩ := Action.bind_eq_ok.mp h
    obtain ⟨rest, w₅, hRest, h⟩ := Action.bind_eq_ok.mp h
    cases h
    rw [List.map_cons, ih hRest]

omit [Sha256] in
theorem settle_eq {existing : LoadedCheckpointManifest}
    (h : settle manifest existing w = (.ok loaded, w')) : loaded.manifest = manifest := by
  unfold settle at h
  split at h
  · rename_i hSame
    obtain ⟨⟨⟩, middle, -, h⟩ := Action.bind_eq_ok.mp h
    cases h
    exact hSame
  · cases h

theorem confirm_eq {created : LoadedCheckpointManifest}
    (h : c.confirm source created w = (.ok loaded, w')) : loaded = created := by
  obtain ⟨sourceAfter, middle, -, h⟩ := Action.bind_eq_ok.mp h
  split at h
  · obtain ⟨⟨⟩, next, -, h⟩ := Action.bind_eq_ok.mp h
    cases h
    rfl
  · obtain ⟨deleted, next, -, h⟩ := Action.bind_eq_ok.mp h
    split at h
    · cases h
    · cases h

theorem publishCopy_eq (h : c.publishCopy source manifest w = (.ok loaded, w')) :
    loaded.manifest = manifest := by
  obtain ⟨existing, w₁, -, h⟩ := Action.bind_eq_ok.mp h
  split at h
  · exact settle_eq h
  · obtain ⟨created, w₂, -, h⟩ := Action.bind_eq_ok.mp h
    split at h
    · rw [confirm_eq h]
    · obtain ⟨existing, w₃, -, h⟩ := Action.bind_eq_ok.mp h
      split at h
      · exact settle_eq h
      · cases h

theorem copyLoaded_eq (h : c.copyLoaded transition source w = (.ok loaded, w')) :
    loaded.manifest = copiedManifest c.targetIdentity transition source.manifest := by
  unfold Copier.copyLoaded at h
  split at h
  · cases h
  · obtain ⟨restored, w₁, -, h⟩ := Action.bind_eq_ok.mp h
    obtain ⟨base, w₂, hBase, h⟩ := Action.bind_eq_ok.mp h
    obtain ⟨segments, w₃, hSegments, h⟩ := Action.bind_eq_ok.mp h
    obtain ⟨⟨⟩, w₄, -, h⟩ := Action.bind_eq_ok.mp h
    rw [publishCopy_eq h, copyBase_eq hBase, copySegments_eq hSegments]
    rfl

theorem reflects_copyCheckpointToUnleased
    (h : c.copyCheckpointToUnleased transition w = (.ok loaded, w')) :
    Reflects c.targetIdentity transition loaded.manifest w' := by
  obtain ⟨⟨⟩, w₁, -, h⟩ := Action.bind_eq_ok.mp h
  obtain ⟨⟨⟩, w₂, -, h⟩ := Action.bind_eq_ok.mp h
  obtain ⟨found, w₃, hLoad, h⟩ := Action.bind_eq_ok.mp h
  split at h
  · cases h
  · rename_i source
    have hSees := remembers_copyLoaded c transition source w₃
    rw [h] at hSees
    exact ⟨source.manifest, hSees _ (seen_of_loadCheckpoint hLoad), copyLoaded_eq h⟩

omit [Sha256] in
theorem sees_of_attempt {answer : Except CopyError Unit}
    (h : operation.attempt w = (.ok answer, w')) : Sees w w' := by
  have hSees := remembers_operation.attempt w
  rw [h] at hSees
  exact hSees

theorem reflects_copyCheckpointTo (h : c.copyCheckpointTo transition w = (.ok loaded, w')) :
    Reflects c.targetIdentity transition loaded.manifest w' := by
  obtain ⟨⟨⟩, w₁, -, h⟩ := Action.bind_eq_ok.mp h
  obtain ⟨lease, w₂, -, h⟩ := Action.bind_eq_ok.mp h
  split at h
  · obtain ⟨release, w₃, -, h⟩ := Action.bind_eq_ok.mp h
    cases h
  · obtain ⟨answer, w₃, hCopy, h⟩ := Action.bind_eq_ok.mp h
    obtain ⟨sourceRelease, w₄, hSource, h⟩ := Action.bind_eq_ok.mp h
    obtain ⟨targetRelease, w₅, hTarget, h⟩ := Action.bind_eq_ok.mp h
    split at h
    · cases h
      exact (reflects_copyCheckpointToUnleased (Action.attempt_eq_ok.mp hCopy)).mono
        (Sees.trans _ _ _ (sees_of_attempt hSource) (sees_of_attempt hTarget))
    all_goals cases h

theorem reflects_rollRecoveryGeneration (h : c.rollRecoveryGeneration w = (.ok loaded, w')) :
    Reflects c.targetIdentity none loaded.manifest w' := by
  unfold Copier.rollRecoveryGeneration at h
  split at h
  · cases h
  · exact reflects_copyCheckpointTo h

def Advanced (transition : CheckpointSuccessorTransition) (manifest : CheckpointManifest) : Prop :=
  manifest.successorTransition = some transition ∧ transition.stopEntry.index < manifest.tip.index

theorem advanced_of_load {transition : CheckpointSuccessorTransition}
    (h : c.loadValidAdvancedSuccessor transition transition.stopEntry.index w =
      (.ok (some loaded), w')) : Advanced transition loaded.manifest := by
  obtain ⟨found, w₁, -, h⟩ := Action.bind_eq_ok.mp h
  split at h
  · cases h
  · split at h
    · cases h
    · obtain ⟨restored, w₂, -, h⟩ := Action.bind_eq_ok.mp h
      obtain ⟨reloaded, w₃, -, h⟩ := Action.bind_eq_ok.mp h
      split at h
      · cases h
      · split at h
        · cases h
        · rename_i hNot
          cases h
          obtain ⟨hSame, hAfter⟩ := not_or.mp hNot
          exact ⟨not_not.mp hSame, Nat.lt_of_not_le hAfter⟩

theorem forkTo_eq {transition : CheckpointSuccessorTransition}
    (h : c.forkTo transition w = (.ok loaded, w')) :
    Reflects c.targetIdentity (some transition) loaded.manifest w' ∨
      Advanced transition loaded.manifest := by
  obtain ⟨advanced, w₁, hAdvanced, h⟩ := Action.bind_eq_ok.mp h
  split at h
  · cases h
    exact .inr (advanced_of_load hAdvanced)
  · obtain ⟨answer, w₂, hCopy, h⟩ := Action.bind_eq_ok.mp h
    split at h
    · cases h
      exact .inl (reflects_copyCheckpointTo (Action.attempt_eq_ok.mp hCopy))
    · obtain ⟨later, w₃, hLater, h⟩ := Action.bind_eq_ok.mp h
      split at h
      · cases h
        exact .inr (advanced_of_load hLater)
      · cases h
    · cases h

theorem forkStoppedSuccessor_eq {stopEntry : LogEntry}
    (h : c.forkStoppedSuccessor stopEntry w = (.ok loaded, w')) : ∃ successor,
    Reflects c.targetIdentity (some ⟨c.sourceIdentity, successor, stopEntry⟩) loaded.manifest w' ∨
      Advanced ⟨c.sourceIdentity, successor, stopEntry⟩ loaded.manifest := by
  obtain ⟨successor, w₁, -, h⟩ := Action.bind_eq_ok.mp h
  obtain ⟨⟨⟩, w₂, -, h⟩ := Action.bind_eq_ok.mp h
  obtain ⟨found, w₃, -, h⟩ := Action.bind_eq_ok.mp h
  split at h
  · cases h
  · split at h
    · cases h
    · obtain ⟨restored, w₄, -, h⟩ := Action.bind_eq_ok.mp h
      obtain ⟨⟨⟩, w₅, -, h⟩ := Action.bind_eq_ok.mp h
      exact ⟨successor, forkTo_eq h⟩

end Reflecting

end Rhiza.Archive.Copying
