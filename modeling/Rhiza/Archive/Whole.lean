import Rhiza.Archive.Interleaved

/-! # What is archived can be read

A caller decodes its segment before it stores it. Hence every segment that a manifest
names can be loaded, and the archive can be restored in every state.
-/

namespace Rhiza.Archive

open Core Library

section Readable

variable [Sha256] (log : CommittedLog) (archive : ObjectArchiveStore)

structure Readable (objects : Objects) (record : CheckpointSegmentRecord) : Prop where
  load : archive.loadCheckpointSegment objects record =
    .ok (log.between (record.startIndex - 1) record.endIndex)
  chained : archive.validateDecodedEntries ⟨record.startIndex - 1, record.firstPrevHash⟩
    (log.between (record.startIndex - 1) record.endIndex) = .ok ()

def Legible (objects : Objects) (manifest : CheckpointManifest) : Prop :=
  ∀ record ∈ manifest.segments, Readable log archive objects record

variable {log archive} {objects objects' : Objects} {manifest : CheckpointManifest}

theorem downloadVerified_mono {key : ObjectKey} {sizeBytes : Nat} {sha256 : LogHash}
    {bytes : Bytes}
    (h : ObjectArchiveStore.downloadVerified objects key sizeBytes sha256 = .ok bytes)
    (hGrows : Grows objects objects') :
    ObjectArchiveStore.downloadVerified objects' key sizeBytes sha256 = .ok bytes := by
  unfold ObjectArchiveStore.downloadVerified at h ⊢
  cases hFound : objects key with
  | none =>
    rw [hFound] at h
    cases h
  | some found =>
    rw [hFound] at h
    rw [hGrows key found hFound]
    exact h

theorem Readable.mono {record : CheckpointSegmentRecord}
    (h : Readable log archive objects record) (hGrows : Grows objects objects') :
    Readable log archive objects' record := by
  refine ⟨?_, h.chained⟩
  obtain ⟨bytes, hBytes, hRest⟩ := bind_ok_iff.mp h.load
  exact bind_ok_iff.mpr ⟨bytes, downloadVerified_mono hBytes hGrows, hRest⟩

theorem Legible.mono (h : Legible log archive objects manifest) (hGrows : Grows objects objects') :
    Legible log archive objects' manifest :=
  fun record hRecord => (h record hRecord).mono hGrows

theorem validateIdentities_of_validateDecoded {tip : CheckpointTip} {entries : List LogEntry}
    (h : archive.validateDecodedEntries tip entries = .ok ()) :
    archive.validateIdentities entries = .ok () := by
  induction entries generalizing tip with
  | nil => rfl
  | cons entry entries ih =>
    simp only [ObjectArchiveStore.validateDecodedEntries, unit_bind_ok_iff] at h
    obtain ⟨hIdentity, -, -, -, h⟩ := h
    simp only [ObjectArchiveStore.validateIdentities, unit_bind_ok_iff]
    exact ⟨hIdentity, ih h⟩

theorem prevHash_of_validateDecoded {tip : CheckpointTip} {entries : List LogEntry}
    (h : archive.validateDecodedEntries tip entries = .ok ()) {first : LogEntry}
    (hFirst : entries.head? = some first) : first.prevHash = tip.hash := by
  cases entries with
  | nil => cases hFirst
  | cons entry entries =>
    obtain rfl := Option.some.inj hFirst
    simp only [ObjectArchiveStore.validateDecodedEntries, unit_bind_ok_iff, check_eq_ok,
      decide_eq_true_eq] at h
    exact h.2.2.1

theorem readable_of_stored {tip : CheckpointTip} {bytes : Bytes} {decoded : List LogEntry}
    {record : CheckpointSegmentRecord} (hDecoded : archive.decodeSegment bytes = .ok decoded)
    (hValidated : archive.validateDecodedEntries tip decoded = .ok ())
    (hLog : ∀ entry ∈ decoded, entry ∈ log.entries)
    (hRecord : ObjectArchiveStore.checkpointSegmentRecord decoded bytes = .ok record)
    (hObject : objects record.objectKey = some bytes) : Readable log archive objects record := by
  obtain ⟨first, last, hFirst, hLast, rfl⟩ := checkpointSegmentRecord_eq_ok hRecord
  have hSpans := spans_of_validateDecoded hValidated hLog hFirst hLast
  have hOrdered := hSpans.ordered
  have hLength := hSpans.length
  have hFirstIndex := hSpans.first_index
  have hStart : first.index - 1 = tip.index := by omega
  have hBetween : log.between (first.index - 1) last.index = decoded := by
    rw [hStart]
    exact hSpans.range.symm
  have hTip : (⟨first.index - 1, first.prevHash⟩ : CheckpointTip) = tip := by
    rw [prevHash_of_validateDecoded hValidated hFirst, hStart]
  refine ⟨?_, ?_⟩
  · simp only [hBetween]
    refine bind_ok_iff.mpr ⟨bytes, ?_, bind_ok_iff.mpr ⟨decoded, hDecoded, ?_⟩⟩
    · unfold ObjectArchiveStore.downloadVerified
      simp only [hObject, unit_bind_ok_iff, check_eq_ok, decide_true, and_self]
    · simp only [unit_bind_ok_iff, check_eq_ok, decide_eq_true_eq]
      refine ⟨validateIdentities_of_validateDecoded hValidated, ⟨by omega, ?_⟩, trivial⟩
      unfold ObjectArchiveStore.matchesRecord
      simp only [hFirst, hLast, Option.map_some, decide_eq_true_eq]
      exact ⟨by omega, trivial, trivial⟩
  · simp only [hBetween, hTip]
    exact hValidated

theorem planPublication_legible {entries : List LogEntry} {change : ObjectArchiveStore.Change}
    (hPlan : archive.planPublication objects entries manifest = .ok (some change))
    (hLegible : Legible log archive objects manifest) (hLog : FromLog log archive entries) :
    ∃ key bytes, change.object = some (key, bytes) ∧
      ∀ objects', Grows objects objects' → objects' key = some bytes →
        Legible log archive objects' change.next := by
  obtain ⟨start, record, hPlanned⟩ := planPublication_planned hPlan hLog
  obtain rfl := hPlanned.change_eq
  refine ⟨_, _, rfl, fun objects' hGrows hObject => ?_⟩
  intro other hOther
  rcases List.mem_append.mp hOther with hOther | hOther
  · exact (hLegible other hOther).mono hGrows
  · obtain rfl := List.mem_singleton.mp hOther
    exact readable_of_stored hPlanned.decodes hPlanned.validated
      (fun entry hEntry => (hPlanned.fromLog entry hEntry).1) hPlanned.recorded hObject

end Readable

section Restore

variable [Sha256] (archive : ObjectArchiveStore)

/-- The loop of `restore_checkpoint_unleased` over the segments. -/
def restoreSegments (objects : Objects) : List CheckpointSegmentRecord → CheckpointTip →
    List LogEntry → Result (List LogEntry × CheckpointTip)
  | [], tip, restored => .ok (restored, tip)
  | record :: records, tip, restored => do
    let segment ← World.restoreSegment archive objects record tip
    restoreSegments objects records segment.2 (restored ++ segment.1)

def restoreBase (objects : Objects) : CheckpointBase → Result (Option (RecoveryAnchor × Bytes))
  | .genesis => .ok none
  | .snapshot snapshot => do
    let bytes ← ObjectArchiveStore.downloadVerified objects snapshot.objectKey snapshot.sizeBytes
      snapshot.digest
    .ok (some (snapshot.anchor, bytes))

/-- `restore_checkpoint_v2` while nobody else uses the archive. -/
def restoreCheckpoint (objects : Objects) :
    Option CheckpointManifest → Result RestoredCheckpoint
  | none => .ok ⟨none, [], ⟨0, .zero⟩⟩
  | some manifest => do
    validateCheckpointManifest archive.identity manifest
    let snapshot ← restoreBase objects manifest.base
    let restored ← restoreSegments archive objects manifest.segments manifest.base.tip []
    check (restored.2 = manifest.tip)
      (.invalidCheckpoint "restored entries do not match manifest tip")
    .ok ⟨snapshot, restored.1, restored.2⟩

def endTip : CheckpointTip → List CheckpointSegmentRecord → CheckpointTip
  | tip, [] => tip
  | _, record :: records => endTip ⟨record.endIndex, record.lastHash⟩ records

omit [Sha256] in
theorem endTip_eq (tip : CheckpointTip) (records : List CheckpointSegmentRecord) :
    endTip tip records = match records.getLast? with
      | some record => ⟨record.endIndex, record.lastHash⟩
      | none => tip := by
  induction records generalizing tip with
  | nil => rfl
  | cons record records ih =>
    rw [endTip, ih]
    cases records with
    | nil => rfl
    | cons next records =>
      rw [List.getLast?_cons_cons, List.getLast?_eq_some_getLast (List.cons_ne_nil next records)]

variable {log : CommittedLog} {archive} {objects : Objects}

theorem restoreSegment_ok {record : CheckpointSegmentRecord} {tip : CheckpointTip}
    (hStored : Stored log archive objects record) (hReadable : Readable log archive objects record)
    (hStart : record.startIndex = tip.index + 1) (hOrder : record.startIndex ≤ record.endIndex)
    (hHash : record.firstPrevHash = tip.hash) :
    World.restoreSegment archive objects record tip =
      .ok (log.between tip.index record.endIndex, ⟨record.endIndex, record.lastHash⟩) := by
  have hIndex : record.startIndex - 1 = tip.index := by omega
  have hTip : (⟨record.startIndex - 1, record.firstPrevHash⟩ : CheckpointTip) = tip := by
    rw [hIndex, hHash]
  have hChained := hReadable.chained
  rw [hTip, hIndex] at hChained
  have hLoad := hReadable.load
  rw [hIndex] at hLoad
  obtain ⟨last, hLast, hMem, hLastIndex⟩ :=
    CommittedLog.getLast?_between (a := tip.index) (by omega) hStored.bounded
  refine bind_ok_iff.mpr ⟨_, hLoad, ?_⟩
  rw [unit_bind_ok_iff]
  refine ⟨hChained, ?_⟩
  simp only [hLast]
  rw [hStored.last_eq, ← hLastIndex, CommittedLog.hashAt_of_mem hMem]

theorem restoreSegments_ok {records : List CheckpointSegmentRecord} {tip : CheckpointTip}
    {start : Nat} (hLinked : Linked (tip.index + 1) tip.hash records)
    (hStored : ∀ record ∈ records, Stored log archive objects record)
    (hReadable : ∀ record ∈ records, Readable log archive objects record)
    (hStart : start ≤ tip.index) (hTip : tip.index ≤ log.entries.length) :
    restoreSegments archive objects records tip (log.between start tip.index) =
      .ok (log.between start (endTip tip records).index, endTip tip records) := by
  induction records generalizing tip with
  | nil => rfl
  | cons record records ih =>
    obtain ⟨hFirst, hOrder, hHash, -, hRest⟩ := hLinked
    have hHere := hStored record List.mem_cons_self
    have hSegment := restoreSegment_ok hHere (hReadable record List.mem_cons_self) hFirst
      (by omega) hHash
    refine bind_ok_iff.mpr ⟨_, hSegment, ?_⟩
    rw [CommittedLog.between_append hStart (by omega) hTip]
    have hNext : start ≤ record.endIndex := by omega
    have hFollows : Linked ((⟨record.endIndex, record.lastHash⟩ : CheckpointTip).index + 1)
        (⟨record.endIndex, record.lastHash⟩ : CheckpointTip).hash records := hRest
    exact ih hFollows
      (fun other hOther => hStored other (List.mem_cons_of_mem _ hOther))
      (fun other hOther => hReadable other (List.mem_cons_of_mem _ hOther)) hNext hHere.bounded

theorem restoreBase_ok {base : CheckpointBase}
    (hPresent : ∀ snapshot, base = .snapshot snapshot → Present objects snapshot) :
    ∃ snapshot, restoreBase objects base = .ok snapshot ∧
      (base = .genesis → snapshot = none) ∧
      ∀ found, base = .snapshot found → ∃ bytes, snapshot = some (found.anchor, bytes) ∧
        bytes.length = found.sizeBytes ∧ LogHash.digest [bytes] = found.digest := by
  cases base with
  | genesis => exact ⟨none, rfl, fun _ => rfl, fun found hFound => by cases hFound⟩
  | snapshot found =>
    obtain ⟨bytes, hBytes, hSize, hDigest⟩ := hPresent found rfl
    refine ⟨some (found.anchor, bytes), bind_ok_iff.mpr ⟨bytes, ?_, rfl⟩,
      fun hGenesis => CheckpointBase.noConfusion hGenesis, ?_⟩
    · unfold ObjectArchiveStore.downloadVerified
      simp only [hBytes, hSize, hDigest, unit_bind_ok_iff, check_eq_ok, decide_true, and_self]
    · intro other hOther
      obtain rfl := CheckpointBase.snapshot.inj hOther
      exact ⟨bytes, rfl, hSize, hDigest⟩

theorem restoreCheckpoint_ok {manifest : CheckpointManifest}
    (hHolds : Holds log archive objects manifest) (hLegible : Legible log archive objects manifest) :
    ∃ restored, restoreCheckpoint archive objects (some manifest) = .ok restored ∧
      restored.Of log manifest := by
  obtain ⟨hLinked, hLast⟩ := validateCheckpointManifest_eq_ok hHolds.valid
  obtain ⟨snapshot, hSnapshot, hGenesis, hFound⟩ := restoreBase_ok hHolds.snapshot
  have hTip : endTip manifest.base.tip manifest.segments = manifest.tip := by
    rw [hLast, endTip_eq]
    rfl
  have hSegments := restoreSegments_ok hLinked hHolds.segments hLegible (le_refl _)
    hHolds.base_bounded
  rw [CommittedLog.between_self, hTip] at hSegments
  refine ⟨⟨snapshot, log.between manifest.base.tip.index manifest.tip.index, manifest.tip⟩, ?_,
    rfl, rfl, hGenesis, hFound⟩
  unfold restoreCheckpoint
  rw [unit_bind_ok_iff]
  refine ⟨hHolds.valid, bind_ok_iff.mpr ⟨snapshot, hSnapshot, bind_ok_iff.mpr ⟨_, hSegments, ?_⟩⟩⟩
  simp only [unit_bind_ok_iff, check_eq_ok, decide_true, and_self]

theorem archivedHashAt_ok {manifest : CheckpointManifest}
    (hHolds : Holds log archive objects manifest) (hLegible : Legible log archive objects manifest)
    {index : Nat} (hBase : manifest.base.tip.index ≤ index) (hTip : index ≤ manifest.tip.index) :
    archive.archivedHashAt objects manifest index = .ok (log.hashAt index) := by
  unfold ObjectArchiveStore.archivedHashAt
  by_cases hSame : index = manifest.base.tip.index
  · simp only [hSame, if_true]
    rw [hHolds.base_hash]
  · obtain ⟨hLinked, hLast⟩ := validateCheckpointManifest_eq_ok hHolds.valid
    rw [hLast] at hTip
    unfold CheckpointManifest.lastTip at hTip
    have hNonempty : manifest.segments ≠ [] := by
      intro hNil
      simp only [hNil, List.getLast?_nil] at hTip
      omega
    have hEnd : ∀ record, manifest.segments.getLast? = some record → index ≤ record.endIndex := by
      intro record hRecord
      simpa only [hRecord] using hTip
    obtain ⟨record, hRecord, hFrom, hTo⟩ := hLinked.covers (by omega) hEnd hNonempty
    have hSome : (manifest.segments.find? fun record =>
        record.startIndex ≤ index ∧ index ≤ record.endIndex).isSome := by
      rw [List.find?_isSome]
      exact ⟨record, hRecord, by simp [hFrom, hTo]⟩
    obtain ⟨found, hFound⟩ := Option.isSome_iff_exists.mp hSome
    have hRange : found.startIndex ≤ index ∧ index ≤ found.endIndex := by
      simpa using List.find?_some hFound
    have hStored := hHolds.segments found (List.mem_of_find?_eq_some hFound)
    have hLoad := (hLegible found (List.mem_of_find?_eq_some hFound)).load
    have hPositive := hStored.positive
    have hBounded := hStored.bounded
    have hGet : (log.between (found.startIndex - 1) found.endIndex)[index - found.startIndex]? =
        log.entries[index - 1]? := by
      rw [CommittedLog.between, List.getElem?_drop, List.getElem?_take, if_pos (by omega)]
      congr 1
      omega
    have hEntry : log.entries[index - 1]? = some log.entries[index - 1] :=
      List.getElem?_eq_getElem (by omega)
    simp only [hSame, if_false, show ¬ index < manifest.base.tip.index by omega, hFound]
    refine bind_ok_iff.mpr ⟨_, hLoad, ?_⟩
    simp only [hGet, hEntry]
    have hIndex := log.indexed (index - 1) (by omega)
    rw [← CommittedLog.hashAt_of_mem (List.mem_of_getElem? hEntry), hIndex]
    congr 2
    omega

end Restore

section Legible

variable [Sha256] (log : CommittedLog) (archive : ObjectArchiveStore)

def Phase.Legible (objects : Objects) : Phase → Prop
  | .storing _ _ _ object next => ∀ objects', Grows objects objects' →
      objects' object.1 = some object.2 → Archive.Legible log archive objects' next
  | .swapping _ _ _ next => Archive.Legible log archive objects next
  | _ => True

structure World.Legible (w : World) : Prop where
  manifests : ∀ manifest ∈ w.manifests, Archive.Legible log archive w.objects manifest
  processes : ∀ process ∈ w.processes, process.phase.Legible log archive w.objects

variable {log archive} {w : World}

theorem Phase.Legible.mono {phase : Phase} {objects objects' : Objects}
    (h : phase.Legible log archive objects) (hGrows : Grows objects objects') :
    phase.Legible log archive objects' := by
  unfold Phase.Legible at h ⊢
  split
  · exact fun later hLater => h later (hGrows.trans hLater)
  · exact Archive.Legible.mono h hGrows
  · trivial

def Phase.Inert : Phase → Prop
  | .storing .. | .swapping .. => False
  | _ => True

structure World.Quiet (w w' : World) : Prop where
  grows : Grows w.objects w'.objects
  manifests_eq : w'.manifests = w.manifests
  processes : ∀ process ∈ w'.processes, process ∈ w.processes ∨ process.phase.Inert

theorem Phase.Inert.legible {phase : Phase} (h : phase.Inert) (objects : Objects) :
    phase.Legible log archive objects := by
  cases phase <;> trivial

theorem World.Quiet.legible {w' : World} (h : w.Quiet w') (hLegible : w.Legible log archive) :
    w'.Legible log archive where
  manifests manifest hMem := by
    rw [h.manifests_eq] at hMem
    exact (hLegible.manifests manifest hMem).mono h.grows
  processes process hMem := by
    rcases h.processes process hMem with hOld | hInert
    · exact (hLegible.processes process hOld).mono h.grows
    · exact hInert.legible _

omit [Sha256] in
theorem World.Quiet.trans {w₁ w₂ w₃ : World} (h : w₁.Quiet w₂) (h' : w₂.Quiet w₃) :
    w₁.Quiet w₃ where
  grows := h.grows.trans h'.grows
  manifests_eq := h'.manifests_eq.trans h.manifests_eq
  processes process hMem := by
    rcases h'.processes process hMem with hOld | hInert
    · exact h.processes process hOld
    · exact .inr hInert

omit [Sha256] in
theorem World.quiet_setPhase (w : World) (position : Nat) (process : Process) {phase : Phase}
    (hPhase : phase.Inert) : w.Quiet (w.setPhase position process phase) where
  grows := Grows.refl _
  manifests_eq := rfl
  processes other hMem := by
    rcases List.mem_or_eq_of_mem_set hMem with hMem | rfl
    · exact .inl hMem
    · exact .inr hPhase

omit [Sha256] in
theorem World.quiet_finish (w : World) (position : Nat) (process : Process)
    (result : Result Unit) : w.Quiet (w.setPhase position process (.finished result)) :=
  w.quiet_setPhase position process trivial

omit [Sha256] in
theorem World.quiet_cache (w : World) (process : Process) (loaded : CheckpointManifest) :
    w.Quiet (w.cache process loaded) := by
  unfold World.cache
  split
  · exact ⟨Grows.refl _, rfl, fun _ hMem => .inl hMem⟩
  · exact ⟨Grows.refl _, rfl, fun _ hMem => .inl hMem⟩

theorem World.quiet_create {key : ObjectKey} {bytes : Bytes} {stored : World}
    (hSound : w.Sound log archive) (h : w.create key bytes = some stored) : w.Quiet stored := by
  obtain ⟨-, hManifests, hProcesses, hGrows, -⟩ := hSound.create h
  exact ⟨hGrows, hManifests, fun process hMem => .inl (hProcesses ▸ hMem)⟩

theorem World.quiet_leaveLoop (w : World) (position : Nat) (process : Process)
    (loaded : CheckpointManifest) (stage : Stage) :
    w.Quiet (World.leaveLoop archive w position process loaded stage) := by
  have hFinish := w.quiet_finish position process (.ok ())
  have hCached : w.Quiet ((w.setPhase position process (.finished (.ok ()))).cache process loaded) :=
    hFinish.trans (World.quiet_cache _ _ _)
  cases stage with
  | migration =>
    unfold World.leaveLoop
    simp only
    split
    · exact ⟨hFinish.grows, hFinish.manifests_eq, hFinish.processes⟩
    · exact w.quiet_setPhase position process trivial
    · split
      · exact w.quiet_setPhase position process trivial
      · exact w.quiet_setPhase position process trivial
    · exact hCached
  | main =>
    unfold World.leaveLoop
    simp only
    split
    · exact ⟨hFinish.grows, hFinish.manifests_eq, hFinish.processes⟩
    · rename_i pending entries hFlush
      have hAnswering : w.Quiet (w.setPhase position process (.answering loaded pending)) :=
        w.quiet_setPhase position process trivial
      exact hAnswering.trans (World.quiet_cache _ _ _)
    · exact hCached

theorem World.quiet_beginRestore (w : World) (position : Nat) (process : Process) :
    w.Quiet (World.beginRestore archive w position process) := by
  have hFinish := w.quiet_finish position process
  unfold World.beginRestore
  split
  · exact ⟨(hFinish (.ok ())).grows, rfl, (hFinish (.ok ())).processes⟩
  · split
    · exact hFinish _
    · split
      · exact w.quiet_setPhase position process trivial
      · exact w.quiet_setPhase position process trivial

omit [Sha256] in
theorem World.quiet_finishRestore (w : World) (position : Nat) (process : Process)
    (loaded : CheckpointManifest) (snapshot : Option (RecoveryAnchor × Bytes))
    (tip : CheckpointTip) (restored : List LogEntry) :
    w.Quiet (World.finishRestore w position process loaded snapshot tip restored) := by
  have hFinish := w.quiet_finish position process
  unfold World.finishRestore
  split
  · exact ⟨(hFinish (.ok ())).grows, rfl, (hFinish (.ok ())).processes⟩
  · exact hFinish _

theorem plan_legible {objects : Objects} {goal : Goal} {stage : Stage}
    {loaded : CheckpointManifest} {change : ObjectArchiveStore.Change}
    (hPlan : World.plan archive objects goal stage loaded = .ok (some change))
    (hGoal : goal.Sound log archive) (hLoaded : Archive.Legible log archive objects loaded) :
    ∀ objects', Grows objects objects' →
      (∀ object, change.object = some object → objects' object.1 = some object.2) →
      Archive.Legible log archive objects' change.next := by
  have hPublished : ∀ entries, FromLog log archive entries →
      archive.planPublication objects entries loaded = .ok (some change) →
      ∀ objects', Grows objects objects' →
        (∀ object, change.object = some object → objects' object.1 = some object.2) →
        Archive.Legible log archive objects' change.next := by
    intro entries hLog hPlan objects' hGrows hObject
    obtain ⟨key, bytes, hChange, hNext⟩ := planPublication_legible hPlan hLoaded hLog
    exact hNext objects' hGrows (hObject _ hChange)
  cases stage with
  | migration =>
    intro objects' hGrows _
    obtain rfl := (planMigration_eq_ok hPlan).2
    exact hLoaded.mono hGrows
  | main =>
    cases goal with
    | publish entries => exact hPublished entries hGoal.fromLog hPlan
    | flush pending entries => exact hPublished entries hGoal.2 hPlan
    | snapshot anchor bytes =>
      intro objects' hGrows _
      obtain ⟨-, -, -, rfl⟩ := planSnapshot_eq_ok hPlan
      exact fun record hRecord =>
        (hLoaded record (List.mem_of_mem_filter hRecord)).mono hGrows
    | «open» => cases Except.ok.inj hPlan
    | restore => cases Except.ok.inj hPlan

theorem World.Legible.setPhase (h : w.Legible log archive) (position : Nat) (process : Process)
    {phase : Phase} (hPhase : phase.Legible log archive w.objects) :
    (w.setPhase position process phase).Legible log archive where
  manifests := h.manifests
  processes other hMem := by
    rcases List.mem_or_eq_of_mem_set hMem with hMem | rfl
    · exact h.processes other hMem
    · exact hPhase

theorem World.Legible.advanceLoop (h : w.Legible log archive) (position : Nat)
    {process : Process} {stage : Stage} {lost : Nat} {loaded : CheckpointManifest}
    (hGoal : process.goal.Sound log archive) (hLoaded : loaded ∈ w.manifests) :
    (World.advanceLoop archive w position process stage lost loaded).Legible log archive := by
  unfold World.advanceLoop
  split
  · exact (w.quiet_finish position process _).legible h
  · split
    · exact (w.quiet_finish position process _).legible h
    · exact (w.quiet_leaveLoop position process loaded stage).legible h
    · rename_i object next hPlan
      refine h.setPhase position process fun objects' hGrows hObject => ?_
      refine plan_legible hPlan hGoal (h.manifests loaded hLoaded) objects' hGrows ?_
      rintro other hOther
      obtain rfl := Option.some.inj hOther
      exact hObject
    · rename_i next hPlan
      refine h.setPhase position process ?_
      exact plan_legible hPlan hGoal (h.manifests loaded hLoaded) _ (Grows.refl _)
        fun other hOther => by cases hOther

theorem World.Legible.advanceSwap (h : w.Legible log archive) (position : Nat)
    (process : Process) {stage : Stage} {lost : Nat} {loaded next : CheckpointManifest}
    (wins : Bool) (hNext : Archive.Legible log archive w.objects next) :
    (World.advanceSwap archive w position process stage lost loaded next wins).Legible log
      archive := by
  unfold World.advanceSwap
  split
  · have hSwapped : World.Legible log archive { w with manifests := next :: w.manifests } := by
      refine ⟨fun manifest hMem => ?_, h.processes⟩
      rcases List.mem_cons.mp hMem with rfl | hMem
      · exact hNext
      · exact h.manifests manifest hMem
    exact (World.quiet_leaveLoop _ position process next stage).legible hSwapped
  · exact h.setPhase position process trivial

theorem World.Legible.initializeCheckpoint (h : w.Legible log archive) (position : Nat)
    (process : Process) :
    (World.initializeCheckpoint archive w position process).Legible log archive := by
  unfold World.initializeCheckpoint
  simp only
  split
  · have hNew : World.Legible log archive { w with
        manifests := [CheckpointManifest.new archive.identity] } := by
      refine ⟨fun manifest hMem record hRecord => ?_, h.processes⟩
      rw [List.mem_singleton.mp hMem] at hRecord
      cases hRecord
    exact hNew.setPhase position process trivial
  · split
    · exact h.setPhase position process trivial
    · exact h.setPhase position process trivial

theorem World.Legible.advance (h : w.Legible log archive) (hSound : w.Sound log archive)
    {position : Nat} {process : Process} (hMem : process ∈ w.processes) (wins : Bool) {w' : World}
    (hStep : World.advance archive w position process wins = some w') :
    w'.Legible log archive := by
  have hPhase := hSound.processes process hMem
  have hReadable := h.processes process hMem
  have hFinish := fun result => (w.quiet_finish position process result).legible h
  unfold World.advance at hStep
  split at hStep
  · obtain rfl := Option.some.inj hStep
    exact h.initializeCheckpoint position process
  · split at hStep
    · obtain rfl := Option.some.inj hStep
      exact (w.quiet_beginRestore position process).legible h
    · split at hStep
      · obtain rfl := Option.some.inj hStep
        exact hFinish _
      · obtain rfl := Option.some.inj hStep
        exact h.setPhase position process trivial
  · rename_i stage lost loaded hAt
    rw [hAt] at hPhase
    obtain rfl := Option.some.inj hStep
    exact h.advanceLoop position hPhase.1 hPhase.2.1
  · rename_i stage lost loaded object next hAt
    rw [hAt] at hReadable
    split at hStep
    · obtain rfl := Option.some.inj hStep
      exact hFinish _
    · rename_i stored hCreate
      obtain rfl := Option.some.inj hStep
      obtain ⟨-, -, -, hGrows, hThere⟩ := hSound.create hCreate
      have hStored := (World.quiet_create hSound hCreate).legible h
      exact hStored.setPhase position process (hReadable _ hGrows hThere)
  · rename_i stage lost loaded next hAt
    rw [hAt] at hReadable
    obtain rfl := Option.some.inj hStep
    exact h.advanceSwap position process wins hReadable
  · split at hStep
    · obtain rfl := Option.some.inj hStep
      exact hFinish _
    · obtain rfl := Option.some.inj hStep
      exact h.setPhase position process trivial
  · split at hStep
    · rename_i anchor bytes hSnapshot
      obtain rfl := Option.some.inj hStep
      cases hCreate : w.create (checkpointSnapshotKey anchor) bytes with
      | none => exact h.setPhase position process trivial
      | some stored =>
        have hStored := (World.quiet_create hSound hCreate).legible h
        exact hStored.setPhase position process trivial
    · cases hStep
  · split at hStep
    · split at hStep
      · obtain rfl := Option.some.inj hStep
        exact hFinish _
      · obtain rfl := Option.some.inj hStep
        exact h.setPhase position process trivial
    · cases hStep
  · rename_i loaded pending hAt
    split at hStep
    · obtain rfl := Option.some.inj hStep
      exact hFinish _
    · rename_i entries rest
      have hRest : (w.setPhase position process (.answering loaded rest)).Legible log archive :=
        h.setPhase position process trivial
      split at hStep
      · obtain rfl := Option.some.inj hStep
        exact ⟨hRest.manifests, hRest.processes⟩
      · obtain rfl := Option.some.inj hStep
        exact hRest
  · split at hStep
    · obtain rfl := Option.some.inj hStep
      exact hFinish _
    · obtain rfl := Option.some.inj hStep
      exact h.setPhase position process trivial
  · split at hStep
    · obtain rfl := Option.some.inj hStep
      exact (w.quiet_finishRestore position process _ _ _ _).legible h
    · split at hStep
      · obtain rfl := Option.some.inj hStep
        exact hFinish _
      · obtain rfl := Option.some.inj hStep
        exact h.setPhase position process trivial
  · cases hStep

theorem World.Legible.spawn (h : w.Legible log archive) {process : Process}
    (hInert : process.phase.Inert) : (w.spawn process).Legible log archive where
  manifests := h.manifests
  processes other hMem := by
    rcases List.mem_append.mp hMem with hMem | hMem
    · exact h.processes other hMem
    · rw [List.mem_singleton.mp hMem]
      exact hInert.legible _

theorem World.Legible.step (h : w.Legible log archive) (hSound : w.Sound log archive)
    {event : Event} {w' : World} (hStep : World.step archive w event = some w') :
    w'.Legible log archive := by
  cases event with
  | call goal =>
    obtain rfl := Option.some.inj hStep
    refine h.spawn ?_
    cases goal with
    | publish entries =>
      simp only [World.firstPhase]
      split <;> trivial
    | flush pending entries => trivial
    | «open» => trivial
    | snapshot anchor bytes => trivial
    | restore => trivial
  | openPublisher publisher =>
    obtain rfl := Option.some.inj hStep
    exact h.spawn trivial
  | flush publisher pending =>
    simp only [World.step] at hStep
    split at hStep
    · cases hStep
    · split at hStep
      · obtain rfl := Option.some.inj hStep
        refine h.spawn ?_
        unfold World.flushPhase
        split <;> trivial
      · cases hStep
  | publisherSnapshot publisher anchor bytes =>
    simp only [World.step] at hStep
    split at hStep
    · cases hStep
    · split at hStep
      · cases hStep
      · obtain rfl := Option.some.inj hStep
        exact h.spawn trivial
  | reload publisher =>
    simp only [World.step] at hStep
    split at hStep
    · cases hStep
    · obtain rfl := Option.some.inj hStep
      exact ⟨h.manifests, h.processes⟩
  | advance position wins =>
    simp only [World.step] at hStep
    split at hStep
    · cases hStep
    · rename_i process hProcess
      exact h.advance hSound (List.mem_of_getElem? hProcess) wins hStep
  | crash position =>
    simp only [World.step] at hStep
    split at hStep
    · cases hStep
    · obtain rfl := Option.some.inj hStep
      exact (w.quiet_finish position _ _).legible h

theorem World.legible_start {objects : Objects} {manifest : Option CheckpointManifest}
    (h : ∀ found, manifest = some found → Archive.Legible log archive objects found) :
    (World.start objects manifest).Legible log archive where
  manifests found hMem := h found (Option.mem_toList.mp hMem)
  processes process hMem := by cases hMem

end Legible

section Manifests

variable [Sha256] {archive : ObjectArchiveStore} {w w' : World}

omit [Sha256] in
theorem World.create_manifests {key : ObjectKey} {bytes : Bytes}
    (h : w.create key bytes = some w') : w'.manifests = w.manifests := by
  unfold World.create at h
  split at h
  · obtain rfl := Option.some.inj h
    rfl
  · split at h
    · obtain rfl := Option.some.inj h
      rfl
    · cases h

theorem World.advance_manifests {position : Nat} {process : Process} {wins : Bool}
    (hStep : World.advance archive w position process wins = some w') :
    w.manifests ⊆ w'.manifests := by
  unfold World.advance at hStep
  split at hStep
  · obtain rfl := Option.some.inj hStep
    unfold World.initializeCheckpoint
    simp only
    split
    · rename_i hAbsent
      rw [List.head?_eq_none_iff.mp hAbsent]
      exact List.nil_subset _
    · split <;> exact List.Subset.refl _
  · split at hStep
    · obtain rfl := Option.some.inj hStep
      rw [(w.quiet_beginRestore position process).manifests_eq]
      exact List.Subset.refl _
    · split at hStep <;> obtain rfl := Option.some.inj hStep <;> exact List.Subset.refl _
  · rename_i stage lost loaded hAt
    obtain rfl := Option.some.inj hStep
    unfold World.advanceLoop
    split
    · exact List.Subset.refl _
    · split
      · exact List.Subset.refl _
      · rw [(w.quiet_leaveLoop position process loaded stage).manifests_eq]
        exact List.Subset.refl _
      · exact List.Subset.refl _
      · exact List.Subset.refl _
  · split at hStep
    · obtain rfl := Option.some.inj hStep
      exact List.Subset.refl _
    · rename_i stored hCreate
      obtain rfl := Option.some.inj hStep
      exact (World.create_manifests hCreate).symm ▸ List.Subset.refl _
  · rename_i stage lost loaded next hAt
    obtain rfl := Option.some.inj hStep
    unfold World.advanceSwap
    split
    · rw [(World.quiet_leaveLoop _ position process next stage).manifests_eq]
      exact List.subset_cons_self _ _
    · exact List.Subset.refl _
  · split at hStep <;> obtain rfl := Option.some.inj hStep <;> exact List.Subset.refl _
  · split at hStep
    · rename_i anchor bytes hSnapshot
      obtain rfl := Option.some.inj hStep
      cases hCreate : w.create (checkpointSnapshotKey anchor) bytes with
      | none => exact List.Subset.refl _
      | some stored => exact (World.create_manifests hCreate).symm ▸ List.Subset.refl _
    · cases hStep
  · split at hStep
    · split at hStep <;> obtain rfl := Option.some.inj hStep <;> exact List.Subset.refl _
    · cases hStep
  · split at hStep
    · obtain rfl := Option.some.inj hStep
      exact List.Subset.refl _
    · split at hStep <;> obtain rfl := Option.some.inj hStep <;> exact List.Subset.refl _
  · split at hStep <;> obtain rfl := Option.some.inj hStep <;> exact List.Subset.refl _
  · split at hStep
    · obtain rfl := Option.some.inj hStep
      rw [(w.quiet_finishRestore position process _ _ _ _).manifests_eq]
      exact List.Subset.refl _
    · split at hStep <;> obtain rfl := Option.some.inj hStep <;> exact List.Subset.refl _
  · cases hStep

theorem World.step_manifests {event : Event} (hStep : World.step archive w event = some w') :
    w.manifests ⊆ w'.manifests := by
  cases event with
  | call goal =>
    obtain rfl := Option.some.inj hStep
    exact List.Subset.refl _
  | openPublisher publisher =>
    obtain rfl := Option.some.inj hStep
    exact List.Subset.refl _
  | flush publisher pending =>
    simp only [World.step] at hStep
    split at hStep
    · cases hStep
    · split at hStep
      · obtain rfl := Option.some.inj hStep
        exact List.Subset.refl _
      · cases hStep
  | publisherSnapshot publisher anchor bytes =>
    simp only [World.step] at hStep
    split at hStep
    · cases hStep
    · split at hStep
      · cases hStep
      · obtain rfl := Option.some.inj hStep
        exact List.Subset.refl _
  | reload publisher =>
    simp only [World.step] at hStep
    split at hStep
    · cases hStep
    · obtain rfl := Option.some.inj hStep
      exact List.Subset.refl _
  | advance position wins =>
    simp only [World.step] at hStep
    split at hStep
    · cases hStep
    · exact World.advance_manifests hStep
  | crash position =>
    simp only [World.step] at hStep
    split at hStep
    · cases hStep
    · obtain rfl := Option.some.inj hStep
      exact List.Subset.refl _

end Manifests

end Rhiza.Archive
