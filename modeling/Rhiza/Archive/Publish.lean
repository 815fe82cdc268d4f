import Rhiza.Archive.Whole

/-! # When a publication succeeds

A publication of entries that the archive has already is answered by looking up one
hash. That works exactly as long as the base of the archive is not beyond the last
entry of the publication.
-/

namespace Rhiza.Archive

open Core Library

section Publish

variable [Sha256] (log : CommittedLog) (archive : ObjectArchiveStore)

structure Encodable : Prop where
  rooted : ∀ entry, log.entries.head? = some entry → entry.prevHash = .zero
  own : ∀ entry ∈ log.entries, validateEntryIdentity archive.identity entry = .ok ()
  short : log.entries.length + 1 < u64Bound
  decodes : ∀ a b, a < b → b ≤ log.entries.length →
    archive.codec.decode archive.identity.clusterId (archive.codec.encode (log.between a b)) =
      some (log.between a b)
  nonempty : ∀ a b, a < b → b ≤ log.entries.length →
    (archive.codec.encode (log.between a b)).length ≠ 0

variable {log archive} {objects : Objects} {manifest : CheckpointManifest}

theorem Encodable.checkedSucc_eq (h : Encodable log archive) {n : Nat}
    (hn : n ≤ log.entries.length) : checkedSucc n = some (n + 1) := by
  have := h.short
  unfold checkedSucc
  exact if_pos (by omega)

theorem Encodable.prevHash_eq (h : Encodable log archive) {i : Nat}
    (hi : i < log.entries.length) : (log.entries[i]).prevHash = log.hashAt i := by
  cases i with
  | zero =>
    refine h.rooted _ ?_
    rw [List.head?_eq_getElem?]
    exact List.getElem?_eq_getElem hi
  | succ i =>
    rw [log.chained i hi, CommittedLog.hashAt, List.getElem?_eq_getElem (by omega)]
    rfl

theorem between_cons {a b : Nat} (hab : a < b) (hb : b ≤ log.entries.length) :
    log.between a b = log.entries[a] :: log.between (a + 1) b := by
  have hFirst := CommittedLog.between_succ (List.getElem?_eq_getElem (l := log.entries)
    (i := a) (by omega))
  rw [← CommittedLog.between_append (Nat.le_succ a) hab (by omega), hFirst]
  rfl

theorem hashAt_succ {i : Nat} (hi : i < log.entries.length) :
    log.hashAt (i + 1) = (log.entries[i]).hash := by
  rw [CommittedLog.hashAt, List.getElem?_eq_getElem hi]
  rfl

theorem Encodable.validateDecoded (h : Encodable log archive) {a b : Nat} (hab : a ≤ b)
    (hb : b ≤ log.entries.length) :
    archive.validateDecodedEntries ⟨a, log.hashAt a⟩ (log.between a b) = .ok () := by
  obtain ⟨n, rfl⟩ := Nat.exists_eq_add_of_le hab
  clear hab
  induction n generalizing a with
  | zero =>
    rw [Nat.add_zero, CommittedLog.between_self]
    rfl
  | succ n ih =>
    have ha : a < log.entries.length := by omega
    have hMem : log.entries[a] ∈ log.entries := List.getElem_mem ha
    rw [between_cons (by omega) hb]
    simp only [ObjectArchiveStore.validateDecodedEntries, unit_bind_ok_iff, check_eq_ok,
      decide_eq_true_eq]
    refine ⟨h.own _ hMem, ?_, h.prevHash_eq ha, log.hashed _ hMem, ?_⟩
    · rw [log.indexed a ha]
      exact h.checkedSucc_eq (by omega)
    · have hRest := ih (a := a + 1) (by omega)
      rw [show a + 1 + n = a + (n + 1) by omega, hashAt_succ ha] at hRest
      rw [log.indexed a ha]
      exact hRest

structure IsRange (log : CommittedLog) (entries : List LogEntry) (a b : Nat) : Prop where
  eq : entries = log.between a b
  lt : a < b
  le : b ≤ log.entries.length

theorem IsRange.first {entries : List LogEntry} {a b : Nat} (h : IsRange log entries a b) :
    ∃ first, entries.head? = some first ∧ first.index = a + 1 ∧ first ∈ log.entries := by
  obtain ⟨first, hFirst, hIndex⟩ := CommittedLog.head?_between h.lt h.le
  rw [← h.eq] at hFirst
  refine ⟨first, hFirst, hIndex, ?_⟩
  have hMem := List.mem_of_head? hFirst
  rw [h.eq] at hMem
  exact CommittedLog.mem_of_mem_between hMem

theorem IsRange.last {entries : List LogEntry} {a b : Nat} (h : IsRange log entries a b) :
    ∃ last, entries.getLast? = some last ∧ last.index = b ∧ last ∈ log.entries := by
  obtain ⟨last, hLast, hMem, hIndex⟩ := CommittedLog.getLast?_between h.lt h.le
  rw [← h.eq] at hLast
  exact ⟨last, hLast, hIndex, hMem⟩

theorem drop_between {a b c : Nat} (hac : a ≤ c) :
    (log.between a b).drop (c - a) = log.between c b := by
  unfold CommittedLog.between
  rw [List.drop_drop, show a + (c - a) = c by omega]

theorem publicationSuffixStart_covered (hHolds : Holds log archive objects manifest)
    (hLegible : Legible log archive objects manifest) {entries : List LogEntry} {a b : Nat}
    (hRange : IsRange log entries a b) (hTip : b ≤ manifest.tip.index) :
    archive.publicationSuffixStart objects manifest entries = .ok none ↔
      manifest.base.tip.index ≤ b := by
  obtain ⟨first, hFirst, -, -⟩ := hRange.first
  obtain ⟨last, hLast, hIndex, hMem⟩ := hRange.last
  simp only [ObjectArchiveStore.publicationSuffixStart, hFirst, hLast,
    ObjectArchiveStore.suffixStartFrom, hIndex, hTip, if_true]
  constructor
  · intro hOk
    obtain ⟨archived, hArchived, -⟩ := bind_ok_iff.mp hOk
    by_contra hBeyond
    unfold ObjectArchiveStore.archivedHashAt at hArchived
    simp only [show b ≠ manifest.base.tip.index by omega,
      show b < manifest.base.tip.index by omega, if_true, if_false] at hArchived
    cases hArchived
  · intro hBase
    refine bind_ok_iff.mpr ⟨_, archivedHashAt_ok hHolds hLegible hBase hTip, ?_⟩
    rw [unit_bind_ok_iff]
    refine ⟨?_, rfl⟩
    rw [← hIndex, CommittedLog.hashAt_of_mem hMem]
    simp [ObjectArchiveStore.verifyPublicationHash]

theorem Encodable.publicationSuffixStart (h : Encodable log archive)
    (hHolds : Holds log archive objects manifest)
    (hLegible : Legible log archive objects manifest) {entries : List LogEntry} {a b : Nat}
    (hRange : IsRange log entries a b) (hTip : manifest.tip.index < b)
    (hGap : a ≤ manifest.tip.index) :
    archive.publicationSuffixStart objects manifest entries =
      .ok (some (manifest.tip.index - a)) := by
  obtain ⟨first, hFirst, hFirstIndex, hFirstMem⟩ := hRange.first
  obtain ⟨last, hLast, hIndex, hMem⟩ := hRange.last
  obtain ⟨hOrder, hBound, hHash⟩ := hHolds.tip
  simp only [ObjectArchiveStore.publicationSuffixStart, hFirst, hLast,
    ObjectArchiveStore.suffixStartFrom, hIndex, hFirstIndex, show ¬ b ≤ manifest.tip.index by omega,
    if_false, h.checkedSucc_eq hBound, show ¬ manifest.tip.index + 1 < a + 1 by omega]
  by_cases hInside : a + 1 ≤ manifest.tip.index
  · have hGet : entries[manifest.tip.index - (a + 1)]? =
        some log.entries[manifest.tip.index - 1] := by
      rw [hRange.eq, CommittedLog.between, List.getElem?_drop, List.getElem?_take,
        if_pos (by omega), show a + (manifest.tip.index - (a + 1)) = manifest.tip.index - 1 by omega]
      exact List.getElem?_eq_getElem (by omega)
    have hBoundary : log.hashAt (manifest.tip.index - 1 + 1) =
        (log.entries[manifest.tip.index - 1]).hash := hashAt_succ (by omega)
    rw [show manifest.tip.index - 1 + 1 = manifest.tip.index by omega] at hBoundary
    simp only [hInside, if_true, hGet]
    refine bind_ok_iff.mpr ⟨_, archivedHashAt_ok hHolds hLegible hOrder (le_refl _), ?_⟩
    rw [unit_bind_ok_iff]
    refine ⟨?_, ?_⟩
    · rw [hBoundary]
      simp [ObjectArchiveStore.verifyPublicationHash]
    · rw [show manifest.tip.index - (a + 1) + 1 = manifest.tip.index - a by omega]
  · have hSame : manifest.tip.index = a := by omega
    simp only [hInside, if_false, unit_bind_ok_iff]
    refine ⟨?_, by rw [hSame, Nat.sub_self]⟩
    have hPrev : first.prevHash = log.hashAt a := by
      obtain ⟨i, hi, hGet⟩ := CommittedLog.getElem?_of_mem hFirstMem
      obtain rfl : i = a := by omega
      obtain ⟨hLess, rfl⟩ := List.getElem?_eq_some_iff.mp hGet
      exact h.prevHash_eq hLess
    rw [hHash, hSame, hPrev]
    simp [ObjectArchiveStore.verifyPublicationHash]

omit [Sha256] in
theorem validateSegments_append {tip : CheckpointTip} {records : List CheckpointSegmentRecord}
    {record : CheckpointSegmentRecord}
    (h : validateSegments (tip.index + 1) tip.hash records = .ok ())
    (hRecord : validateSegments ((endTip tip records).index + 1) (endTip tip records).hash
      [record] = .ok ()) :
    validateSegments (tip.index + 1) tip.hash (records ++ [record]) = .ok () := by
  induction records generalizing tip with
  | nil => exact hRecord
  | cons first records ih =>
    rw [List.cons_append]
    simp only [validateSegments, unit_bind_ok_iff] at h ⊢
    obtain ⟨hVersion, hOrder, hGap, hOverlap, hHash, hKey, hSize, h⟩ := h
    refine ⟨hVersion, hOrder, hGap, hOverlap, hHash, hKey, hSize, ?_⟩
    split at h
    · cases h
    · rename_i next hNext
      obtain rfl := checkedSucc_eq_some hNext
      have hFollows : validateSegments
          ((⟨first.endIndex, first.lastHash⟩ : CheckpointTip).index + 1)
          (⟨first.endIndex, first.lastHash⟩ : CheckpointTip).hash records = .ok () := h
      exact ih hFollows hRecord

def segmentRecord (log : CommittedLog) (archive : ObjectArchiveStore) (a b : Nat) :
    CheckpointSegmentRecord :=
  ⟨checkpointSegmentFormatVersion, a + 1, b, log.hashAt a, log.hashAt b, .segment (a + 1) b,
    LogHash.digest [archive.codec.encode (log.between a b)],
    (archive.codec.encode (log.between a b)).length⟩

theorem Encodable.checkpointSegmentRecord (h : Encodable log archive) {a b : Nat} (hab : a < b)
    (hb : b ≤ log.entries.length) :
    ObjectArchiveStore.checkpointSegmentRecord (log.between a b)
      (archive.codec.encode (log.between a b)) = .ok (segmentRecord log archive a b) := by
  have hRange : IsRange log (log.between a b) a b := ⟨rfl, hab, hb⟩
  obtain ⟨first, hFirst, hFirstIndex, hFirstMem⟩ := hRange.first
  obtain ⟨last, hLast, hLastIndex, hLastMem⟩ := hRange.last
  have hPrev : first.prevHash = log.hashAt a := by
    obtain ⟨i, hi, hGet⟩ := CommittedLog.getElem?_of_mem hFirstMem
    obtain rfl : i = a := by omega
    obtain ⟨hLess, rfl⟩ := List.getElem?_eq_some_iff.mp hGet
    exact h.prevHash_eq hLess
  have hHash := CommittedLog.hashAt_of_mem hLastMem
  rw [hLastIndex] at hHash
  unfold ObjectArchiveStore.checkpointSegmentRecord segmentRecord
  simp only [hFirst, hLast, hFirstIndex, hLastIndex, hPrev, hHash]

def extended (log : CommittedLog) (archive : ObjectArchiveStore) (manifest : CheckpointManifest)
    (b : Nat) : CheckpointManifest :=
  { manifest with
    tip := ⟨b, log.hashAt b⟩
    segments := manifest.segments ++ [segmentRecord log archive manifest.tip.index b] }

theorem Encodable.valid_extended (h : Encodable log archive)
    (hHolds : Holds log archive objects manifest) {b : Nat} (hTip : manifest.tip.index < b)
    (hb : b ≤ log.entries.length) :
    validateCheckpointManifest archive.identity (extended log archive manifest b) = .ok () := by
  have hValid := hHolds.valid
  obtain ⟨-, -, hHash⟩ := hHolds.tip
  obtain ⟨-, hLast⟩ := validateCheckpointManifest_eq_ok hValid
  have hEnd : endTip manifest.base.tip manifest.segments = manifest.tip := by
    rw [hLast, endTip_eq]
    rfl
  unfold validateCheckpointManifest at hValid ⊢
  simp only [unit_bind_ok_iff] at hValid ⊢
  obtain ⟨hVersion, hFirst, hIdentity, hTransition, hBase, hValid⟩ := hValid
  refine ⟨hVersion, hFirst, hIdentity, hTransition, hBase, ?_⟩
  have hStart := h.checkedSucc_eq hHolds.base_bounded
  simp only [extended, hStart, unit_bind_ok_iff] at hValid ⊢
  refine ⟨validateSegments_append hValid.1 ?_, ?_⟩
  · rw [hEnd]
    simp only [validateSegments, segmentRecord, unit_bind_ok_iff, check_eq_ok, decide_eq_true_eq,
      h.checkedSucc_eq hb]
    exact ⟨trivial, decide_eq_true (by omega), decide_eq_true (le_refl _),
      decide_eq_true (le_refl _), decide_eq_true hHash.symm, trivial,
      decide_eq_true (h.nonempty _ _ hTip hb), trivial⟩
  · simp [CheckpointManifest.lastTip, segmentRecord]

theorem Encodable.planPublication_beyond (h : Encodable log archive)
    (hHolds : Holds log archive objects manifest)
    (hLegible : Legible log archive objects manifest) {entries : List LogEntry} {a b : Nat}
    (hRange : IsRange log entries a b) (hTip : manifest.tip.index < b)
    (hGap : a ≤ manifest.tip.index) :
    archive.planPublication objects entries manifest = .ok (some
      ⟨some (.segment (manifest.tip.index + 1) b,
        archive.codec.encode (log.between manifest.tip.index b)),
        extended log archive manifest b⟩) := by
  obtain ⟨-, -, hHash⟩ := hHolds.tip
  have hDrop : entries.drop (manifest.tip.index - a) = log.between manifest.tip.index b := by
    rw [hRange.eq]
    exact drop_between hGap
  refine bind_ok_iff.mpr ⟨_, h.publicationSuffixStart hHolds hLegible hRange hTip hGap, ?_⟩
  simp only [hDrop]
  refine bind_ok_iff.mpr ⟨log.between manifest.tip.index b, ?_, ?_⟩
  · unfold ObjectArchiveStore.decodeSegment
    rw [h.decodes _ _ hTip hRange.le]
  · have hChained := h.validateDecoded (le_of_lt hTip) hRange.le
    rw [← hHash] at hChained
    rw [unit_bind_ok_iff]
    refine ⟨hChained, bind_ok_iff.mpr ⟨_, h.checkpointSegmentRecord hTip hRange.le, ?_⟩⟩
    rw [unit_bind_ok_iff]
    exact ⟨h.valid_extended hHolds hTip hRange.le, rfl⟩

section Coalesce

structure Dense (log : CommittedLog) (k : Nat) (entries : List LogEntry) : Prop where
  sorted : entries.Pairwise fun a b => a.index ≤ b.index
  mem : ∀ entry ∈ entries, entry ∈ log.entries
  above : ∀ entry ∈ entries, k ≤ entry.index
  closed : ∀ entry ∈ entries, ∀ other ∈ log.entries, k < other.index →
    other.index ≤ entry.index → other ∈ entries

theorem eq_of_index {entry other : LogEntry} (h : entry ∈ log.entries) (h' : other ∈ log.entries)
    (hIndex : entry.index = other.index) : entry = other := by
  obtain ⟨i, hi, hGet⟩ := CommittedLog.getElem?_of_mem h
  obtain ⟨j, hj, hGet'⟩ := CommittedLog.getElem?_of_mem h'
  obtain rfl : i = j := by omega
  exact Option.some.inj (hGet.symm.trans hGet')

theorem Dense.tail {k : Nat} {entry : LogEntry} {entries : List LogEntry}
    (h : Dense log k (entry :: entries)) : Dense log entry.index entries := by
  obtain ⟨hFirst, hSorted⟩ := List.pairwise_cons.mp h.sorted
  refine ⟨hSorted, fun other hOther => h.mem other (List.mem_cons_of_mem _ hOther), hFirst, ?_⟩
  intro later hLater other hOther hAbove hBelow
  have hEntry := h.above entry List.mem_cons_self
  have hFound := h.closed later (List.mem_cons_of_mem _ hLater) other hOther (by omega) hBelow
  rcases List.mem_cons.mp hFound with rfl | hFound
  · exact absurd hAbove (lt_irrefl _)
  · exact hFound

theorem Dense.first {k : Nat} {entry : LogEntry} {entries : List LogEntry}
    (h : Dense log k (entry :: entries)) : entry.index = k ∨ entry.index = k + 1 := by
  have hAbove := h.above entry List.mem_cons_self
  by_contra hOther
  have hEntry := h.mem entry List.mem_cons_self
  have hBound := CommittedLog.index_le_of_mem hEntry
  have hNext : log.entries[k] ∈ log.entries := List.getElem_mem (by omega)
  have hIndex := log.indexed k (by omega)
  have hFound := h.closed entry List.mem_cons_self _ hNext (by omega) (by omega)
  rcases List.mem_cons.mp hFound with hSame | hFound
  · rw [hSame] at hIndex
    omega
  · have := (List.pairwise_cons.mp h.sorted).1 _ hFound
    omega

theorem coalesce_dense {start k : Nat} (hStart : start ≤ k) (hk : k ≤ log.entries.length)
    {entries : List LogEntry} (h : Dense log k entries)
    (hFresh : k = start → ∀ entry ∈ entries, start < entry.index) :
    ∃ last, k ≤ last ∧ last ≤ log.entries.length ∧
      ObjectArchiveStore.coalesce (log.between start k) entries = .ok (log.between start last) ∧
      ∀ entry ∈ entries, entry.index ≤ last := by
  induction entries generalizing k with
  | nil => exact ⟨k, le_refl _, hk, rfl, fun entry hEntry => by cases hEntry⟩
  | cons entry entries ih =>
    have hTail := h.tail
    have hEntry := h.mem entry List.mem_cons_self
    have hBound := CommittedLog.index_le_of_mem hEntry
    have hLater : ∀ last, entry.index ≤ last → (∀ other ∈ entries, other.index ≤ last) →
        ∀ other ∈ entry :: entries, other.index ≤ last := by
      intro last hFirst hRest other hOther
      rcases List.mem_cons.mp hOther with rfl | hOther
      · exact hFirst
      · exact hRest other hOther
    rcases h.first with hSame | hNext
    · -- The entry is there already.
      have hLess : start < k := by
        rcases Nat.lt_or_ge start k with hLess | hGe
        · exact hLess
        · have := hFresh (by omega) entry List.mem_cons_self
          omega
      rw [hSame] at hTail
      obtain ⟨final, hFinal, hFinalMem, hFinalIndex⟩ := CommittedLog.getLast?_between hLess hk
      obtain rfl : final = entry := eq_of_index hFinalMem hEntry (by omega)
      obtain ⟨last, hLast, hLength, hMerged, hAll⟩ := ih hStart hk hTail fun hEq => by omega
      refine ⟨last, hLast, hLength, ?_, hLater last (by omega) hAll⟩
      rw [ObjectArchiveStore.coalesce, hFinal]
      simpa using hMerged
    · rw [hNext] at hTail
      obtain ⟨i, hi, hGet⟩ := CommittedLog.getElem?_of_mem hEntry
      obtain rfl : i = k := by omega
      have hGrown : log.between start i ++ [entry] = log.between start (i + 1) := by
        rw [← CommittedLog.between_succ hGet, CommittedLog.between_append hStart (Nat.le_succ i) hk]
      obtain ⟨last, hLast, hLength, hMerged, hAll⟩ := ih (k := i + 1) (by omega) (by omega) hTail
        fun hEq => by omega
      refine ⟨last, by omega, hLength, ?_, hLater last (by omega) hAll⟩
      rw [ObjectArchiveStore.coalesce]
      split
      · rename_i previous hPrevious
        have hPrevIndex :=
          (CommittedLog.index_of_mem_between (List.mem_of_getLast? hPrevious)).2
        rw [if_neg (by omega), hGrown]
        exact hMerged
      · rename_i hNone
        rw [List.getLast?_eq_none_iff] at hNone
        rw [hNone, List.nil_append] at hGrown
        rw [hGrown]
        exact hMerged

theorem coalescePendingEntries_eq {pending : List (List LogEntry)} {tip : Nat}
    (hTip : tip ≤ log.entries.length)
    (hPending : ∀ flush ∈ pending, ∃ a b, IsRange log flush a b ∧ a ≤ tip) :
    ∃ last, tip ≤ last ∧ last ≤ log.entries.length ∧
      ObjectArchiveStore.coalescePendingEntries pending tip = .ok (log.between tip last) ∧
      ∀ flush ∈ pending, ∀ entry ∈ flush, entry.index ≤ last := by
  have hMem : ∀ entry, entry ∈ (pending.flatten.filter fun entry => tip < entry.index).insertionSort
      (fun a b => a.index ≤ b.index) ↔ (∃ flush ∈ pending, entry ∈ flush) ∧ tip < entry.index := by
    intro entry
    rw [List.mem_insertionSort, List.mem_filter, List.mem_flatten]
    simp
  have hSorted : Dense log tip ((pending.flatten.filter fun entry => tip < entry.index).insertionSort
      fun a b => a.index ≤ b.index) := by
    have hTotal : Std.Total fun a b : LogEntry => a.index ≤ b.index :=
      ⟨fun a b => Nat.le_total a.index b.index⟩
    have hTrans : IsTrans LogEntry fun a b => a.index ≤ b.index :=
      ⟨fun _ _ _ => Nat.le_trans⟩
    refine ⟨List.pairwise_insertionSort _ _, fun entry hEntry => ?_, fun entry hEntry => ?_, ?_⟩
    · obtain ⟨⟨flush, hFlush, hEntry⟩, -⟩ := (hMem entry).mp hEntry
      obtain ⟨a, b, hRange, -⟩ := hPending flush hFlush
      rw [hRange.eq] at hEntry
      exact CommittedLog.mem_of_mem_between hEntry
    · exact le_of_lt ((hMem entry).mp hEntry).2
    · intro entry hEntry other hOther hAbove hBelow
      obtain ⟨⟨flush, hFlush, hEntry⟩, -⟩ := (hMem entry).mp hEntry
      obtain ⟨a, b, hRange, hFrom⟩ := hPending flush hFlush
      refine (hMem other).mpr ⟨⟨flush, hFlush, ?_⟩, hAbove⟩
      rw [hRange.eq] at hEntry ⊢
      have := CommittedLog.index_of_mem_between hEntry
      exact CommittedLog.mem_between hOther (by omega) (by omega)
  obtain ⟨last, hLast, hLength, hMerged, hAll⟩ := coalesce_dense (le_refl tip) hTip hSorted
    fun _ entry hEntry => ((hMem entry).mp hEntry).2
  rw [CommittedLog.between_self] at hMerged
  refine ⟨last, hLast, hLength, hMerged, fun flush hFlush entry hEntry => ?_⟩
  rcases Nat.lt_or_ge tip entry.index with hAbove | hBelow
  · exact hAll entry ((hMem entry).mpr ⟨⟨flush, hFlush, hEntry⟩, hAbove⟩)
  · omega

end Coalesce

end Publish

end Rhiza.Archive
