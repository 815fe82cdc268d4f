import Rhiza.Archive.Store

/-! # The shared archive is one chain of the committed log

All entries that are published come from one committed log. Whatever publishers
do, and wherever they stop, every manifest that has been current consists of
objects with entries of that log, in order and without a gap.
-/

namespace Rhiza.Archive

open Core Library

structure CommittedLog [Sha256] where
  entries : List LogEntry
  indexed : ∀ i (h : i < entries.length), entries[i].index = i + 1
  hashed : ∀ entry ∈ entries, entry.recomputeHash = entry.hash
  chained : ∀ i (h : i + 1 < entries.length), entries[i + 1].prevHash = entries[i].hash

namespace CommittedLog

variable [Sha256] (log : CommittedLog)

def between (a b : Nat) : List LogEntry := (log.entries.take b).drop a

def hashAt : Nat → LogHash
  | 0 => .zero
  | i + 1 => (log.entries[i]?.map (·.hash)).getD .zero

variable {log}

theorem getElem?_of_mem {entry : LogEntry} (h : entry ∈ log.entries) :
    ∃ i, entry.index = i + 1 ∧ log.entries[i]? = some entry := by
  obtain ⟨i, hi, rfl⟩ := List.mem_iff_getElem.mp h
  exact ⟨i, log.indexed i hi, List.getElem?_eq_getElem hi⟩

theorem hashAt_of_mem {entry : LogEntry} (h : entry ∈ log.entries) :
    log.hashAt entry.index = entry.hash := by
  obtain ⟨i, hIndex, hGet⟩ := getElem?_of_mem h
  rw [hIndex, hashAt, hGet]
  rfl

theorem index_le_of_mem {entry : LogEntry} (h : entry ∈ log.entries) :
    1 ≤ entry.index ∧ entry.index ≤ log.entries.length := by
  obtain ⟨i, hIndex, hGet⟩ := getElem?_of_mem h
  have hi := (List.getElem?_eq_some_iff.mp hGet).1
  omega

theorem mem_of_mem_between {a b : Nat} {entry : LogEntry} (h : entry ∈ log.between a b) :
    entry ∈ log.entries :=
  List.mem_of_mem_take (List.mem_of_mem_drop h)

theorem between_append {a b c : Nat} (hab : a ≤ b) (hbc : b ≤ c) (hb : b ≤ log.entries.length) :
    log.between a b ++ log.between b c = log.between a c := by
  unfold between
  have hSplit : log.entries.take c = log.entries.take b ++ (log.entries.take c).drop b := by
    have hParts := List.take_append_drop b (log.entries.take c)
    rw [List.take_take, min_eq_left hbc] at hParts
    exact hParts.symm
  have hLength : a ≤ (log.entries.take b).length := by
    rw [List.length_take, min_eq_left hb]
    exact hab
  conv_rhs => rw [hSplit, List.drop_append_of_le_length hLength]

theorem between_self (a : Nat) : log.between a a = [] :=
  List.drop_eq_nil_of_le (by simp)

theorem between_succ {i : Nat} {entry : LogEntry} (h : log.entries[i]? = some entry) :
    log.between i (i + 1) = [entry] := by
  obtain ⟨hi, rfl⟩ := List.getElem?_eq_some_iff.mp h
  unfold between
  rw [List.take_succ_eq_append_getElem hi]
  have hLength : (log.entries.take i).length = i := by simp; omega
  rw [List.drop_append, hLength]
  simp

theorem mem_between {a b : Nat} {entry : LogEntry} (h : entry ∈ log.entries)
    (ha : a < entry.index) (hb : entry.index ≤ b) : entry ∈ log.between a b := by
  obtain ⟨i, hIndex, hGet⟩ := getElem?_of_mem h
  have hi := (List.getElem?_eq_some_iff.mp hGet).1
  refine List.mem_of_getElem? (i := i - a) ?_
  rw [between, List.getElem?_drop, List.getElem?_take]
  rw [if_pos (by omega), show a + (i - a) = i by omega]
  exact hGet

theorem length_between {a b : Nat} (h : b ≤ log.entries.length) :
    (log.between a b).length = b - a := by
  simp [between]
  omega

theorem getLast?_between {a b : Nat} (hab : a < b) (hb : b ≤ log.entries.length) :
    ∃ entry, (log.between a b).getLast? = some entry ∧ entry ∈ log.entries ∧
      entry.index = b := by
  have hSome : ∃ entry, log.entries[b - 1]? = some entry :=
    ⟨log.entries[b - 1], List.getElem?_eq_getElem (by omega)⟩
  obtain ⟨entry, hEntry⟩ := hSome
  have hSplit := log.between_append (a := a) (b := b - 1) (c := b) (by omega) (by omega)
    (by omega)
  have hLast := between_succ hEntry
  rw [show b - 1 + 1 = b by omega] at hLast
  rw [hLast] at hSplit
  have hIndex : entry.index = b := by
    obtain ⟨hi, rfl⟩ := List.getElem?_eq_some_iff.mp hEntry
    rw [log.indexed _ hi]
    omega
  exact ⟨entry, by rw [← hSplit, List.getLast?_append]; rfl, List.mem_of_getElem? hEntry, hIndex⟩

theorem head?_between {a b : Nat} (hab : a < b) (hb : b ≤ log.entries.length) :
    ∃ entry, (log.between a b).head? = some entry ∧ entry.index = a + 1 := by
  have hSome : ∃ entry, log.entries[a]? = some entry :=
    ⟨log.entries[a], List.getElem?_eq_getElem (by omega)⟩
  obtain ⟨entry, hEntry⟩ := hSome
  have hSplit := log.between_append (a := a) (b := a + 1) (c := b) (by omega) (by omega)
    (by omega)
  rw [between_succ hEntry] at hSplit
  obtain ⟨hi, rfl⟩ := List.getElem?_eq_some_iff.mp hEntry
  exact ⟨_, by rw [← hSplit]; rfl, log.indexed _ hi⟩

theorem index_of_mem_between {a b : Nat} {entry : LogEntry} (h : entry ∈ log.between a b) :
    a < entry.index ∧ entry.index ≤ b := by
  unfold between at h
  obtain ⟨i, hi, rfl⟩ := List.mem_iff_getElem.mp h
  simp only [List.length_drop, List.length_take] at hi
  rw [List.getElem_drop, List.getElem_take, log.indexed (a + i) (by omega)]
  omega

theorem filter_between {a b c : Nat} (hac : a ≤ c) (hcb : c ≤ b) (hb : b ≤ log.entries.length) :
    (log.between a b).filter (fun entry => c < entry.index) = log.between c b := by
  rw [← log.between_append hac hcb (hcb.trans hb), List.filter_append]
  have hBelow : (log.between a c).filter (fun entry => c < entry.index) = [] := by
    rw [List.filter_eq_nil_iff]
    intro entry hEntry
    have := index_of_mem_between hEntry
    simp
    omega
  have hAbove : (log.between c b).filter (fun entry => c < entry.index) = log.between c b := by
    rw [List.filter_eq_self]
    intro entry hEntry
    have := index_of_mem_between hEntry
    simp
    omega
  rw [hBelow, hAbove, List.nil_append]

end CommittedLog

section Validated

variable [Sha256] {log : CommittedLog} {archive : ObjectArchiveStore}

theorem validateDecodedEntries_eq_ok {tip : CheckpointTip} {entries : List LogEntry}
    (h : archive.validateDecodedEntries tip entries = .ok ())
    (hLog : ∀ entry ∈ entries, entry ∈ log.entries) :
    entries = log.between tip.index (tip.index + entries.length) ∧
      (entries ≠ [] → tip.index + entries.length ≤ log.entries.length) := by
  induction entries generalizing tip with
  | nil => exact ⟨(log.between_self tip.index).symm, fun hNe => absurd rfl hNe⟩
  | cons entry entries ih =>
    simp only [ObjectArchiveStore.validateDecodedEntries, unit_bind_ok_iff, check_eq_ok,
      decide_eq_true_eq] at h
    obtain ⟨-, hNext, -, -, h⟩ := h
    have hIndex := checkedSucc_eq_some hNext
    obtain ⟨i, hi, hGet⟩ := CommittedLog.getElem?_of_mem (hLog entry List.mem_cons_self)
    obtain rfl : i = tip.index := by omega
    obtain ⟨hRest, hBound⟩ := ih h fun e he => hLog e (List.mem_cons_of_mem _ he)
    have hFirst := (List.getElem?_eq_some_iff.mp hGet).1
    simp only [hIndex] at hRest hBound
    have hLength : tip.index + 1 + entries.length = tip.index + (entries.length + 1) := by omega
    rw [hLength] at hRest hBound
    rw [List.length_cons]
    refine ⟨?_, fun _ => ?_⟩
    · conv_lhs => rw [hRest]
      rw [← log.between_append (Nat.le_succ tip.index) (by omega) hFirst,
        CommittedLog.between_succ hGet]
      rfl
    · by_cases hNil : entries = []
      · subst hNil
        exact hFirst
      · exact hBound hNil

def Linked : Nat → LogHash → List CheckpointSegmentRecord → Prop
  | _, _, [] => True
  | start, hash, record :: records =>
    record.startIndex = start ∧ start ≤ record.endIndex ∧ record.firstPrevHash = hash ∧
      record.objectKey = .segment record.startIndex record.endIndex ∧
      Linked (record.endIndex + 1) record.lastHash records

omit [Sha256] in
theorem linked_of_validateSegments {start : Nat} {hash : LogHash}
    {records : List CheckpointSegmentRecord}
    (h : validateSegments start hash records = .ok ()) : Linked start hash records := by
  induction records generalizing start hash with
  | nil => trivial
  | cons record records ih =>
    simp only [validateSegments, unit_bind_ok_iff, check_eq_ok, decide_eq_true_eq] at h
    obtain ⟨-, hOrder, hGap, hOverlap, hHash, hKey, -, h⟩ := h
    split at h
    · cases h
    · rename_i next hNext
      obtain rfl := checkedSucc_eq_some hNext
      exact ⟨le_antisymm hGap hOverlap, hOverlap.trans hOrder, hHash, hKey, ih h⟩

omit [Sha256] in
theorem Linked.covers {start : Nat} {hash : LogHash} {records : List CheckpointSegmentRecord}
    (h : Linked start hash records) {index : Nat} (hStart : start ≤ index)
    (hEnd : ∀ record, records.getLast? = some record → index ≤ record.endIndex)
    (hNonempty : records ≠ []) :
    ∃ record ∈ records, record.startIndex ≤ index ∧ index ≤ record.endIndex := by
  induction records generalizing start hash with
  | nil => exact absurd rfl hNonempty
  | cons record records ih =>
    obtain ⟨hFirst, -, -, -, hRest⟩ := h
    by_cases hHere : index ≤ record.endIndex
    · exact ⟨record, List.mem_cons_self, by omega, hHere⟩
    · have hMore : records ≠ [] := by
        rintro rfl
        exact hHere (hEnd record rfl)
      have hLast : ∀ last, records.getLast? = some last → index ≤ last.endIndex := by
        intro last hLast
        refine hEnd last ?_
        rw [List.getLast?_cons_of_ne_nil hMore]
        exact hLast
      obtain ⟨found, hFound, hRange⟩ := ih hRest (by omega) hLast hMore
      exact ⟨found, List.mem_cons_of_mem _ hFound, hRange⟩

omit [Sha256] in
theorem Linked.le_last {start : Nat} {hash : LogHash} {records : List CheckpointSegmentRecord}
    (h : Linked start hash records) {last : CheckpointSegmentRecord}
    (hLast : records.getLast? = some last) : start ≤ last.endIndex := by
  induction records generalizing start hash with
  | nil => cases hLast
  | cons record records ih =>
    obtain ⟨-, hOrder, -, -, hRest⟩ := h
    by_cases hNil : records = []
    · subst hNil
      obtain rfl := Option.some.inj hLast
      exact hOrder
    · rw [List.getLast?_cons_of_ne_nil hNil] at hLast
      have := ih hRest hLast
      omega

/-- What `validate_checkpoint_manifest` says of the segments and the tip. -/
theorem validateCheckpointManifest_eq_ok {manifest : CheckpointManifest}
    (h : validateCheckpointManifest archive.identity manifest = .ok ()) :
    Linked (manifest.base.tip.index + 1) manifest.base.tip.hash manifest.segments ∧
      manifest.tip = manifest.lastTip := by
  simp only [validateCheckpointManifest, unit_bind_ok_iff] at h
  obtain ⟨-, -, -, -, -, h⟩ := h
  split at h
  · cases h
  · rename_i start hStart
    obtain rfl := checkedSucc_eq_some hStart
    simp only [unit_bind_ok_iff, check_eq_ok, decide_eq_true_eq] at h
    exact ⟨linked_of_validateSegments h.1, h.2⟩

end Validated

end Rhiza.Archive
