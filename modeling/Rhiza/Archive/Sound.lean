import Rhiza.Archive.Chain

/-! # What a manifest stands for

A manifest holds if it passes its own check, if its base and its segments lie on
the committed log, and if every object that it names is there. Each of the three
changes that callers make leads from a manifest that holds to another one.
-/

namespace Rhiza.Archive

open Core Library

def Grows (objects objects' : Objects) : Prop :=
  ∀ key bytes, objects key = some bytes → objects' key = some bytes

theorem Grows.refl (objects : Objects) : Grows objects objects := fun _ _ h => h

theorem Grows.trans {o₁ o₂ o₃ : Objects} (h : Grows o₁ o₂) (h' : Grows o₂ o₃) : Grows o₁ o₃ :=
  fun key bytes hBytes => h' key bytes (h key bytes hBytes)

section Sound

variable [Sha256] (log : CommittedLog) (archive : ObjectArchiveStore)

structure Stored (objects : Objects) (record : CheckpointSegmentRecord) : Prop where
  positive : 1 ≤ record.startIndex
  bounded : record.endIndex ≤ log.entries.length
  last_eq : record.lastHash = log.hashAt record.endIndex
  object : objects record.objectKey =
    some (archive.codec.encode (log.between (record.startIndex - 1) record.endIndex))
  size_eq : record.sizeBytes =
    (archive.codec.encode (log.between (record.startIndex - 1) record.endIndex)).length
  sha_eq : record.sha256 = LogHash.digest
    [archive.codec.encode (log.between (record.startIndex - 1) record.endIndex)]
  own : ∀ entry ∈ log.between (record.startIndex - 1) record.endIndex,
    entry.clusterId = archive.identity.clusterId

def Present (objects : Objects) (snapshot : CheckpointSnapshotBase) : Prop :=
  ∃ bytes, objects snapshot.objectKey = some bytes ∧ bytes.length = snapshot.sizeBytes ∧
    LogHash.digest [bytes] = snapshot.digest

structure Holds (objects : Objects) (manifest : CheckpointManifest) : Prop where
  valid : validateCheckpointManifest archive.identity manifest = .ok ()
  base_bounded : manifest.base.tip.index ≤ log.entries.length
  base_hash : manifest.base.tip.hash = log.hashAt manifest.base.tip.index
  segments : ∀ record ∈ manifest.segments, Stored log archive objects record
  snapshot : ∀ snapshot, manifest.base = .snapshot snapshot → Present objects snapshot

structure Advances (older newer : CheckpointManifest) : Prop where
  tip_le : older.tip.index ≤ newer.tip.index
  base_le : older.base.tip.index ≤ newer.base.tip.index

def Covers (objects : Objects) (manifest : CheckpointManifest) (entries : List LogEntry) : Prop :=
  ∀ entry ∈ entries, entry.index ≤ manifest.base.tip.index ∨
    ∃ record ∈ manifest.segments, ∃ stored, objects record.objectKey =
      some (archive.codec.encode stored) ∧ entry ∈ stored

variable {log archive} {objects objects' : Objects} {manifest : CheckpointManifest}

theorem Stored.mono {record : CheckpointSegmentRecord} (h : Stored log archive objects record)
    (hGrows : Grows objects objects') : Stored log archive objects' record :=
  { h with object := hGrows _ _ h.object }

omit [Sha256] in
theorem Present.mono [Sha256] {snapshot : CheckpointSnapshotBase} (h : Present objects snapshot)
    (hGrows : Grows objects objects') : Present objects' snapshot := by
  obtain ⟨bytes, hBytes, hRest⟩ := h
  exact ⟨bytes, hGrows _ _ hBytes, hRest⟩

theorem Holds.mono (h : Holds log archive objects manifest) (hGrows : Grows objects objects') :
    Holds log archive objects' manifest :=
  { h with
    segments := fun record hRecord => (h.segments record hRecord).mono hGrows
    snapshot := fun snapshot hSnapshot => (h.snapshot snapshot hSnapshot).mono hGrows }

omit [Sha256] in
theorem Covers.mono {entries : List LogEntry} (h : Covers archive objects manifest entries)
    (hGrows : Grows objects objects') : Covers archive objects' manifest entries := by
  intro entry hEntry
  rcases h entry hEntry with hBase | ⟨record, hRecord, stored, hObject, hStored⟩
  · exact .inl hBase
  · exact .inr ⟨record, hRecord, stored, hGrows _ _ hObject, hStored⟩

theorem Holds.tip (h : Holds log archive objects manifest) :
    manifest.base.tip.index ≤ manifest.tip.index ∧
      manifest.tip.index ≤ log.entries.length ∧
      manifest.tip.hash = log.hashAt manifest.tip.index := by
  obtain ⟨hLinked, hTip⟩ := validateCheckpointManifest_eq_ok h.valid
  rw [hTip]
  unfold CheckpointManifest.lastTip
  split
  · rename_i record hLast
    have hStored := h.segments record (List.mem_of_getLast? hLast)
    have hFrom := hLinked.le_last hLast
    exact ⟨Nat.le_of_succ_le hFrom, hStored.bounded, hStored.last_eq⟩
  · exact ⟨le_refl _, h.base_bounded, h.base_hash⟩

theorem Holds.covers (h : Holds log archive objects manifest) {entries : List LogEntry}
    (hLog : ∀ entry ∈ entries, entry ∈ log.entries)
    (hTip : ∀ entry ∈ entries, entry.index ≤ manifest.tip.index) :
    Covers archive objects manifest entries := by
  intro entry hEntry
  by_cases hBase : entry.index ≤ manifest.base.tip.index
  · exact .inl hBase
  · right
    obtain ⟨hLinked, hLast⟩ := validateCheckpointManifest_eq_ok h.valid
    have hTo := hTip entry hEntry
    rw [hLast] at hTo
    unfold CheckpointManifest.lastTip at hTo
    have hNonempty : manifest.segments ≠ [] := by
      intro hNil
      simp only [hNil, List.getLast?_nil] at hTo
      exact hBase hTo
    have hEnd : ∀ record, manifest.segments.getLast? = some record →
        entry.index ≤ record.endIndex := by
      intro record hRecord
      simpa only [hRecord] using hTo
    obtain ⟨record, hRecord, hFrom, hUpTo⟩ :=
      hLinked.covers (by omega : manifest.base.tip.index + 1 ≤ entry.index) hEnd hNonempty
    have hStored := h.segments record hRecord
    refine ⟨record, hRecord, _, hStored.object, ?_⟩
    have hPositive := hStored.positive
    exact CommittedLog.mem_between (hLog entry hEntry) (by omega) hUpTo

theorem Stored.load {record : CheckpointSegmentRecord} (h : Stored log archive objects record)
    {entries : List LogEntry} (hLoad : archive.loadCheckpointSegment objects record = .ok entries) :
    ∀ entry ∈ entries, entry ∈ log.entries := by
  obtain ⟨bytes, hBytes, hLoad⟩ := bind_ok_iff.mp hLoad
  obtain ⟨decoded, hDecoded, hLoad⟩ := bind_ok_iff.mp hLoad
  simp only [unit_bind_ok_iff] at hLoad
  obtain ⟨-, -, hLoad⟩ := hLoad
  obtain rfl := Except.ok.inj hLoad
  unfold ObjectArchiveStore.downloadVerified at hBytes
  rw [h.object] at hBytes
  simp only [unit_bind_ok_iff] at hBytes
  obtain ⟨-, -, hBytes⟩ := hBytes
  obtain rfl := Except.ok.inj hBytes
  unfold ObjectArchiveStore.decodeSegment at hDecoded
  split at hDecoded
  · rename_i found hFound
    obtain rfl := Except.ok.inj hDecoded
    have hSame := archive.codec.decode_encode _ _ _ h.own hFound
    rw [hSame]
    exact fun entry hEntry => CommittedLog.mem_of_mem_between hEntry
  · cases hDecoded

def FromLog (log : CommittedLog) (archive : ObjectArchiveStore) (entries : List LogEntry) : Prop :=
  ∀ entry ∈ entries, entry ∈ log.entries ∧ entry.clusterId = archive.identity.clusterId

theorem publicationSuffixStart_eq_none {entries : List LogEntry} {last : LogEntry}
    (h : archive.publicationSuffixStart objects manifest entries = .ok none)
    (hLast : entries.getLast? = some last) : last.index ≤ manifest.tip.index := by
  have hNonempty : entries ≠ [] := by
    rintro rfl
    cases hLast
  obtain ⟨first, hFirst⟩ : ∃ first, entries.head? = some first :=
    ⟨_, List.head?_eq_some_head hNonempty⟩
  rw [ObjectArchiveStore.publicationSuffixStart, hFirst, hLast] at h
  simp only [ObjectArchiveStore.suffixStartFrom] at h
  split at h
  · assumption
  · exfalso
    split at h
    · cases h
    · split at h
      · cases h
      · split at h
        · split at h
          · cases h
          · obtain ⟨archived, -, h⟩ := bind_ok_iff.mp h
            simp only [unit_bind_ok_iff] at h
            cases Except.ok.inj h.2
        · simp only [unit_bind_ok_iff] at h
          cases Except.ok.inj h.2

theorem checkpointSegmentRecord_eq_ok {decoded : List LogEntry} {bytes : Bytes}
    {record : CheckpointSegmentRecord}
    (h : ObjectArchiveStore.checkpointSegmentRecord decoded bytes = .ok record) :
    ∃ first last, decoded.head? = some first ∧ decoded.getLast? = some last ∧
      record = ⟨checkpointSegmentFormatVersion, first.index, last.index, first.prevHash,
        last.hash, .segment first.index last.index, LogHash.digest [bytes], bytes.length⟩ := by
  unfold ObjectArchiveStore.checkpointSegmentRecord at h
  split at h
  · rename_i first last hFirst hLast
    exact ⟨first, last, hFirst, hLast, (Except.ok.inj h).symm⟩
  · cases h

/-- Validated entries behind `tip` are a piece of the log that is not empty. -/
structure Spans (log : CommittedLog) (tip : CheckpointTip) (decoded : List LogEntry)
    (first last : LogEntry) : Prop where
  range : decoded = log.between tip.index last.index
  first_index : first.index = tip.index + 1
  ordered : tip.index < last.index
  length : last.index = tip.index + decoded.length
  bounded : last.index ≤ log.entries.length
  last_mem : last ∈ log.entries

theorem spans_of_validateDecoded {tip : CheckpointTip} {decoded : List LogEntry}
    {first last : LogEntry} (hValidated : archive.validateDecodedEntries tip decoded = .ok ())
    (hLog : ∀ entry ∈ decoded, entry ∈ log.entries) (hFirst : decoded.head? = some first)
    (hLast : decoded.getLast? = some last) : Spans log tip decoded first last := by
  have hNonempty : decoded ≠ [] := by
    rintro rfl
    cases hFirst
  obtain ⟨hRange, hBound⟩ := validateDecodedEntries_eq_ok hValidated hLog
  have hLength := hBound hNonempty
  have hPositive : 0 < decoded.length := List.length_pos_of_ne_nil hNonempty
  obtain ⟨first', hFirst', hFirstIndex⟩ :=
    CommittedLog.head?_between (a := tip.index) (by omega) hLength
  obtain ⟨last', hLast', hLastLog, hLastIndex⟩ :=
    CommittedLog.getLast?_between (a := tip.index) (by omega) hLength
  rw [← hRange] at hFirst' hLast'
  obtain rfl := Option.some.inj (hFirst.symm.trans hFirst')
  obtain rfl := Option.some.inj (hLast.symm.trans hLast')
  exact ⟨by rw [hLastIndex]; exact hRange, hFirstIndex, by omega, hLastIndex, by omega, hLastLog⟩

/-- What an attempt of a publication has decoded and checked when it plans its swap. -/
structure Planned (log : CommittedLog) (archive : ObjectArchiveStore)
    (loaded : CheckpointManifest) (decoded : List LogEntry) (record : CheckpointSegmentRecord)
    (change : ObjectArchiveStore.Change) : Prop where
  fromLog : FromLog log archive decoded
  decodes : archive.decodeSegment (archive.codec.encode decoded) = .ok decoded
  validated : archive.validateDecodedEntries loaded.tip decoded = .ok ()
  recorded : ObjectArchiveStore.checkpointSegmentRecord decoded (archive.codec.encode decoded) =
    .ok record
  valid : validateCheckpointManifest archive.identity change.next = .ok ()
  change_eq : change = ⟨some (record.objectKey, archive.codec.encode decoded),
    { loaded with
      tip := ⟨record.endIndex, record.lastHash⟩, segments := loaded.segments ++ [record] }⟩

theorem planPublication_planned {entries : List LogEntry} {change : ObjectArchiveStore.Change}
    (hPlan : archive.planPublication objects entries manifest = .ok (some change))
    (hLog : FromLog log archive entries) :
    ∃ start record, Planned log archive manifest (entries.drop start) record change := by
  obtain ⟨start, -, hPlan⟩ := bind_ok_iff.mp hPlan
  cases start with
  | none => cases Except.ok.inj hPlan
  | some start =>
    obtain ⟨decoded, hDecoded, hPlan⟩ := bind_ok_iff.mp hPlan
    simp only [unit_bind_ok_iff] at hPlan
    obtain ⟨hValidated, hPlan⟩ := hPlan
    obtain ⟨record, hRecord, hPlan⟩ := bind_ok_iff.mp hPlan
    simp only [unit_bind_ok_iff] at hPlan
    obtain ⟨hValid, hPlan⟩ := hPlan
    obtain rfl := Option.some.inj (Except.ok.inj hPlan)
    have hSuffix : FromLog log archive (entries.drop start) :=
      fun entry hEntry => hLog entry (List.mem_of_mem_drop hEntry)
    have hSame : decoded = entries.drop start := by
      unfold ObjectArchiveStore.decodeSegment at hDecoded
      split at hDecoded
      · rename_i found hFound
        obtain rfl := Except.ok.inj hDecoded
        exact archive.codec.decode_encode _ _ _ (fun e he => (hSuffix e he).2) hFound
      · cases hDecoded
    subst hSame
    exact ⟨start, record, hSuffix, hDecoded, hValidated, hRecord, hValid, rfl⟩

structure Publishes (log : CommittedLog) (archive : ObjectArchiveStore) (objects : Objects)
    (loaded : CheckpointManifest) (entries : List LogEntry)
    (change : ObjectArchiveStore.Change) : Prop where
  advances : Advances loaded change.next
  object : ∃ key bytes, change.object = some (key, bytes) ∧
    ∀ objects', Grows objects objects' → objects' key = some bytes →
      Holds log archive objects' change.next
  tip : ∀ last, entries.getLast? = some last → last.index ≤ change.next.tip.index

theorem planPublication_eq_some {entries : List LogEntry} {change : ObjectArchiveStore.Change}
    (hPlan : archive.planPublication objects entries manifest = .ok (some change))
    (hHolds : Holds log archive objects manifest) (hLog : FromLog log archive entries) :
    Publishes log archive objects manifest entries change := by
  obtain ⟨start, record, hPlanned⟩ := planPublication_planned hPlan hLog
  have hValid := hPlanned.valid
  obtain rfl := hPlanned.change_eq
  obtain ⟨first, last, hFirst, hLast, rfl⟩ := checkpointSegmentRecord_eq_ok hPlanned.recorded
  have hSpans := spans_of_validateDecoded hPlanned.validated
    (fun entry hEntry => (hPlanned.fromLog entry hEntry).1) hFirst hLast
  have hOrdered := hSpans.ordered
  have hFirstIndex := hSpans.first_index
  refine ⟨⟨?_, le_refl _⟩, ⟨_, _, rfl, ?_⟩, ?_⟩
  · simp only
    omega
  · intro objects' hGrows hObject
    have hOld := hHolds.mono hGrows
    refine ⟨hValid, hOld.base_bounded, hOld.base_hash, ?_, hOld.snapshot⟩
    intro record hRecord
    rcases List.mem_append.mp hRecord with hRecord | hRecord
    · exact hOld.segments record hRecord
    · obtain rfl := List.mem_singleton.mp hRecord
      have hBetween : log.between (first.index - 1) last.index = entries.drop start := by
        rw [hFirstIndex]
        exact hSpans.range.symm
      refine ⟨by simp only; omega, hSpans.bounded, ?_, ?_, ?_, ?_, ?_⟩
      · exact (CommittedLog.hashAt_of_mem hSpans.last_mem).symm
      · simp only [hBetween]
        exact hObject
      · simp only [hBetween]
      · simp only [hBetween]
      · simp only [hBetween]
        exact fun entry hEntry => (hPlanned.fromLog entry hEntry).2
  · intro final hFinal
    have hSameLast : (entries.drop start).getLast? = entries.getLast? := by
      conv_rhs => rw [← List.take_append_drop start entries]
      rw [List.getLast?_append, hLast]
      rfl
    rw [← hSameLast, hLast] at hFinal
    obtain rfl := Option.some.inj hFinal
    exact le_refl _

theorem planSnapshot_eq_ok {proposed : CheckpointSnapshotBase}
    {change : ObjectArchiveStore.Change}
    (hPlan : archive.planSnapshot proposed manifest = .ok (some change)) :
    manifest.base.tip.index ≤ (CheckpointBase.snapshot proposed).tip.index ∧
      (∃ boundary ∈ manifest.segments,
        boundary.endIndex = (CheckpointBase.snapshot proposed).tip.index ∧
        boundary.lastHash = (CheckpointBase.snapshot proposed).tip.hash) ∧
      validateCheckpointManifest archive.identity change.next = .ok () ∧
      change = ⟨none, { manifest with
        base := .snapshot proposed
        segments := manifest.segments.filter fun record =>
          (CheckpointBase.snapshot proposed).tip.index < record.startIndex }⟩ := by
  simp only [ObjectArchiveStore.planSnapshot] at hPlan
  split at hPlan
  · split at hPlan
    · cases Except.ok.inj hPlan
    · cases hPlan
  · split at hPlan
    · cases hPlan
    · rename_i hDifferent hBack
      split at hPlan
      · cases hPlan
      · rename_i boundary hFound
        simp only [unit_bind_ok_iff, check_eq_ok, decide_eq_true_eq] at hPlan
        obtain ⟨hHash, hValid, hPlan⟩ := hPlan
        obtain rfl := Option.some.inj (Except.ok.inj hPlan)
        exact ⟨by omega, ⟨boundary, List.mem_of_find?_eq_some hFound,
          by simpa using List.find?_some hFound, hHash⟩, hValid, rfl⟩

theorem planSnapshot_eq_some {proposed : CheckpointSnapshotBase}
    {change : ObjectArchiveStore.Change}
    (hPlan : archive.planSnapshot proposed manifest = .ok (some change))
    (hHolds : Holds log archive objects manifest) (hPresent : Present objects proposed) :
    change.object = none ∧ Advances manifest change.next ∧
      Holds log archive objects change.next := by
  obtain ⟨hForward, ⟨boundary, hMem, hEnd, hHash⟩, hValid, hChange⟩ := planSnapshot_eq_ok hPlan
  obtain rfl := hChange
  have hBoundary := hHolds.segments boundary hMem
  refine ⟨rfl, ⟨le_refl _, hForward⟩, hValid, ?_, ?_, ?_, ?_⟩
  · simp only
    rw [← hEnd]
    exact hBoundary.bounded
  · simp only
    rw [← hHash, ← hEnd]
    exact hBoundary.last_eq
  · exact fun record hRecord => hHolds.segments record (List.mem_of_mem_filter hRecord)
  · intro snapshot hSnapshot
    obtain rfl := CheckpointBase.snapshot.inj hSnapshot
    exact hPresent

theorem planMigration_eq_ok {change : ObjectArchiveStore.Change}
    (hPlan : archive.planMigration manifest = .ok (some change)) :
    validateCheckpointManifest archive.identity change.next = .ok () ∧
      change = ⟨none, { manifest with formatVersion := checkpointFormatVersion }⟩ := by
  unfold ObjectArchiveStore.planMigration at hPlan
  split at hPlan
  · cases Except.ok.inj hPlan
  · split at hPlan
    · cases hPlan
    · simp only [unit_bind_ok_iff] at hPlan
      obtain ⟨hValid, hPlan⟩ := hPlan
      obtain rfl := Option.some.inj (Except.ok.inj hPlan)
      exact ⟨hValid, rfl⟩

theorem planMigration_eq_some {change : ObjectArchiveStore.Change}
    (hPlan : archive.planMigration manifest = .ok (some change))
    (hHolds : Holds log archive objects manifest) :
    change.object = none ∧ Advances manifest change.next ∧
      Holds log archive objects change.next := by
  obtain ⟨hValid, hChange⟩ := planMigration_eq_ok hPlan
  obtain rfl := hChange
  exact ⟨rfl, ⟨le_refl _, le_refl _⟩, hValid, hHolds.base_bounded, hHolds.base_hash,
    hHolds.segments, hHolds.snapshot⟩

end Sound

end Rhiza.Archive
