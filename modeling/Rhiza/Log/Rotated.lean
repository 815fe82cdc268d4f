import Rhiza.Log.Rotation

/-! # What rotation leaves

The stores that a log reaches, through appends, crashes, truncation and compaction, are sound.
Every batch that passes the checks of such a store is written in full, however its segments
rotate meanwhile.
-/

namespace Rhiza.Log

open Core Library

section Append

variable [Sha256]

theorem Sound.below_next {inner : FileLogStoreInner} (h : Sound inner) {index : Nat}
    {prevHash : LogHash} (hPlace : inner.nextPlace = .ok (index, prevHash)) :
    ∀ entry ∈ inner.retained, entry.index < index := by
  have hBelow {last : LogEntry} (hLast : inner.retained.getLast? = some last)
      (hSucc : checkedSucc last.index = some index) :
      ∀ entry ∈ inner.retained, entry.index < index := by
    intro entry hEntry
    rw [checkedSucc_eq_some hSucc]
    exact Nat.lt_succ_of_le (le_last h.increasing hLast entry hEntry)
  have hElim {last : LogEntry} {error : Error}
      (hOk : ((checkedSucc last.index).elim (.error error) fun index => .ok (index, last.hash)) =
        Except.ok (index, prevHash)) : checkedSucc last.index = some index := by
    cases hSucc : checkedSucc last.index with
    | none =>
      rw [hSucc] at hOk
      cases hOk
    | some found =>
      rw [hSucc] at hOk
      exact congrArg some (Prod.mk.inj (Except.ok.inj hOk)).1
  unfold FileLogStoreInner.nextPlace at hPlace
  split at hPlace
  · rename_i last hLast
    obtain ⟨opened, hOpen, hLast⟩ := Option.bind_eq_some_iff.mp hLast
    refine hBelow ?_ (hElim hPlace)
    rw [retained_of_some hOpen, List.getLast?_append, hLast, Option.some_or]
  · rename_i hNone
    have hEmpty : inner.openEntries = [] := by
      cases hOpen : inner.openSegment with
      | none => exact openEntries_of_none hOpen
      | some opened =>
        rw [hOpen] at hNone
        rw [openEntries_of_some hOpen]
        exact List.getLast?_eq_none_iff.mp hNone
    unfold openStart at hPlace
    split at hPlace
    · rename_i last hLast
      obtain ⟨segment, hSegment, hLast⟩ := Option.bind_eq_some_iff.mp hLast
      obtain ⟨front, hFront⟩ := List.getLast?_eq_some_iff.mp hSegment
      refine hBelow ?_ (hElim hPlace)
      rw [FileLogStoreInner.retained, hEmpty, List.append_nil, hFront, List.flatten_append,
        List.flatten_singleton, List.getLast?_append, hLast, Option.some_or]
    · rename_i hLast
      cases hSegments : inner.segments.getLast? with
      | none =>
        rw [FileLogStoreInner.retained, hEmpty, List.getLast?_eq_none_iff.mp hSegments]
        exact nofun
      | some segment =>
        rw [hSegments] at hLast
        exact absurd (List.getLast?_eq_none_iff.mp hLast)
          (h.closed segment (List.mem_of_getLast? hSegments)).1

theorem validateFromPlace_ok {inner : FileLogStoreInner} {index : Nat} {prevHash : LogHash}
    {state final : ConfigurationState} {entries : List LogEntry}
    (h : inner.validateFromPlace index prevHash state entries = .ok final) :
    followEntries state entries = .ok final ∧ (∀ entry ∈ entries, index ≤ entry.index) ∧
      entries.Pairwise fun left right => left.index < right.index := by
  induction entries generalizing index prevHash state with
  | nil => exact ⟨h, nofun, List.Pairwise.nil⟩
  | cons first rest ih =>
    obtain ⟨⟨⟩, -, h⟩ := bind_ok_iff.mp h
    obtain ⟨⟨⟩, hIndex, h⟩ := bind_ok_iff.mp h
    obtain ⟨⟨⟩, -, h⟩ := bind_ok_iff.mp h
    obtain ⟨⟨⟩, -, h⟩ := bind_ok_iff.mp h
    obtain ⟨next, hFirst, h⟩ := bind_ok_iff.mp h
    have hIndex := ensure_ok_iff.mp hIndex
    split at h
    · rename_i hNil
      rw [hNil, hFirst, Except.ok.inj h]
      exact ⟨rfl, by simp only [List.mem_singleton, forall_eq]; omega, List.pairwise_singleton _ _⟩
    · split at h
      · rename_i succ hSucc
        obtain ⟨hFollow, hLow, hIncreasing⟩ := ih h
        have hSucc := checkedSucc_eq_some hSucc
        refine ⟨?_, ?_, List.pairwise_cons.mpr ⟨fun entry hEntry => ?_, hIncreasing⟩⟩
        · rw [← List.singleton_append, followEntries_append, hFirst]
          exact hFollow
        · intro entry hEntry
          rcases List.mem_cons.mp hEntry with rfl | hEntry
          · omega
          · have := hLow entry hEntry
            omega
        · have := hLow entry hEntry
          omega
      · cases h

theorem Sound.ready {inner : FileLogStoreInner} (h : Sound inner) {entries : List LogEntry}
    {final : ConfigurationState} (hValid : inner.validateAppend entries = .ok final)
    (hFits : inner.openBytes + (entries.flatMap encodeFrame).length < usizeBound) :
    Ready inner entries := by
  obtain ⟨⟨index, prevHash⟩, hPlace, hValid⟩ := bind_ok_iff.mp hValid
  obtain ⟨hFollow, hLow, hIncreasing⟩ := validateFromPlace_ok hValid
  refine ⟨h, List.pairwise_append.mpr ⟨h.increasing, hIncreasing, fun left hLeft right hRight => ?_⟩,
    ⟨final, hFollow⟩, hFits⟩
  exact Nat.lt_of_lt_of_le (h.below_next hPlace left hLeft) (hLow right hRight)

omit [Sha256] in
/-- The runs that `chunk_by` makes are of one configuration each. -/
theorem run_config {entries run : List LogEntry}
    (h : run ∈ entries.splitBy fun left right => left.configId == right.configId) :
    ∃ configId, ∀ entry ∈ run, entry.configId = configId := by
  have hChain := List.isChain_of_mem_splitBy h
  clear h
  induction run with
  | nil => exact ⟨0, nofun⟩
  | cons first rest ih =>
    obtain ⟨configId, hRest⟩ := ih hChain.tail
    refine ⟨first.configId, List.forall_mem_cons.mpr ⟨rfl, fun entry hEntry => ?_⟩⟩
    cases rest with
    | nil => cases hEntry
    | cons second rest =>
      have hSame : first.configId = second.configId := eq_of_beq (List.isChain_cons_cons.mp hChain).1
      rw [hSame, hRest second List.mem_cons_self, hRest entry hEntry]

omit [Sha256] in
theorem runs_enough {entries : List LogEntry} {rounds : Nat} (h : 2 * entries.length < rounds) :
    ∀ run ∈ entries.splitBy fun left right => left.configId == right.configId,
      run ≠ [] ∧ 2 * run.length < rounds := by
  intro run hRun
  have hLength := (List.sublist_flatten_of_mem hRun).length_le
  rw [List.flatten_splitBy] at hLength
  exact ⟨List.ne_nil_of_mem_splitBy hRun, by omega⟩

theorem appendBatch_returns {rounds : Nat} (inner : FileLogStoreInner) {entries : List LogEntry}
    (sync : Bool) (h : 2 * entries.length < rounds) :
    ∃ result, inner.appendBatchToOpenSegment rounds entries sync = some result := by
  unfold FileLogStoreInner.appendBatchToOpenSegment
  split
  · exact ⟨_, rfl⟩
  · rename_i hSome
    cases inner.validateAppend entries with
    | error error => exact ⟨_, rfl⟩
    | ok final =>
      obtain ⟨result, hFill, hOpened⟩ := fillRuns_returns inner (runs_enough h)
      dsimp only
      rw [hFill]
      cases result with
      | error error => exact ⟨_, rfl⟩
      | ok after =>
        have hOpen : after.openSegment.isNone = false := Option.isNone_eq_false_iff.mpr
          (Option.isSome_iff_ne_none.mpr (hOpened after rfl (List.splitBy_ne_nil.mpr hSome)))
        dsimp only
        rw [hOpen, Bool.and_false]
        exact ⟨_, rfl⟩

theorem Sound.append {rounds : Nat} {inner : FileLogStoreInner} (h : Sound inner)
    {entries : List LogEntry} {sync : Bool} {final : ConfigurationState}
    {result : Except AppendError FileLogStoreInner}
    (hValid : inner.validateAppend entries = .ok final)
    (hFits : inner.openBytes + (entries.flatMap encodeFrame).length < usizeBound)
    (hAppend : inner.appendBatchToOpenSegment rounds entries sync = some result) :
    ∃ after, result = .ok after ∧ Sound after ∧ Written inner entries after := by
  unfold FileLogStoreInner.appendBatchToOpenSegment at hAppend
  split at hAppend
  · rename_i hNil
    rw [hNil]
    exact ⟨inner, (Option.some.inj hAppend).symm, h, (List.append_nil _).symm, List.prefix_refl _⟩
  · rw [hValid] at hAppend
    dsimp only at hAppend
    have hReady := h.ready hValid hFits
    rw [← List.flatten_splitBy (fun left right => left.configId == right.configId) entries] at hReady
    cases hFill : inner.fillRuns rounds
        (entries.splitBy fun left right => left.configId == right.configId) with
    | none =>
      rw [hFill] at hAppend
      cases hAppend
    | some filled =>
      obtain ⟨after, rfl, hAfter, hWritten⟩ := fillRuns_writes hReady (fun run hRun => run_config hRun)
        hFill
      rw [List.flatten_splitBy] at hWritten
      rw [hFill] at hAppend
      dsimp only at hAppend
      split at hAppend
      · cases hAppend
      · exact ⟨after, (Option.some.inj hAppend).symm, hAfter.sound, hWritten⟩

theorem validated_of_append {rounds : Nat} {inner after : FileLogStoreInner} {entries : List LogEntry}
    {sync : Bool} (h : inner.appendBatchToOpenSegment rounds entries sync = some (.ok after)) :
    after = inner ∨ ∃ final, inner.validateAppend entries = .ok final := by
  unfold FileLogStoreInner.appendBatchToOpenSegment at h
  split at h
  · exact .inl (Except.ok.inj (Option.some.inj h)).symm
  · split at h
    · cases h
    · rename_i final hValid
      exact .inr ⟨final, hValid⟩

namespace FileLogStoreInner

def replaceSegments (inner : FileLogStoreInner) (front old back : List (List LogEntry))
    (replacement : List LogEntry) : FileLogStoreInner :=
  let replaced := if replacement = [] then [] else [replacement]
  { inner with
    dir := { inner.dir with
      closed := (inner.dir.closed.filter fun file => file.1 ∉ old.map FileLogStore.rangeOf) ++
        replaced.map fun segment => (FileLogStore.rangeOf segment, encodeSegment segment) }
    segments := front ++ replaced ++ back }

/-- `truncate_suffix` of a store without an open segment. -/
def truncated (inner : FileLogStoreInner) (start : Nat) (state : ConfigurationState) :
    FileLogStoreInner :=
  let front := inner.segments.takeWhile fun segment => (FileLogStore.rangeOf segment).stop < start
  let old := inner.segments.dropWhile fun segment => (FileLogStore.rangeOf segment).stop < start
  { inner.replaceSegments front old [] ((old.head?.getD []).takeWhile fun entry => entry.index < start)
    with configurationState := state }

/-- `compact_prefix` of a store without an open segment. -/
def compacted (inner : FileLogStoreInner) (anchor : RecoveryAnchor) (state : ConfigurationState) :
    FileLogStoreInner :=
  let target := anchor.compacted.index
  let old := inner.segments.takeWhile fun segment => (FileLogStore.rangeOf segment).start ≤ target
  let back := inner.segments.dropWhile fun segment => (FileLogStore.rangeOf segment).start ≤ target
  { inner.replaceSegments [] old back ((old.getLast?.getD []).filter fun entry => target < entry.index)
    with anchor := some anchor, configurationState := state }

/-- The store that recovery finds behind a crash which the first entries of the open segment
survived. -/
def recovered (inner : FileLogStoreInner) (opened : OpenSegment) (kept : List LogEntry)
    (state : ConfigurationState) : FileLogStoreInner :=
  { inner with
    dir := { inner.dir with
      opened := inner.dir.opened.map fun file => (file.1, file.2.take (bodyBytes kept)) }
    openSegment := some { opened with bytesLen := bodyBytes kept, entries := kept }
    configurationState := state }

/-- The stores of a log. An append may also stop where it closed or opened a segment. -/
inductive Reached : FileLogStoreInner → Prop
  | created (clusterId : ClusterId) (epoch : Nat) (state : ConfigurationState)
      (anchor : Option RecoveryAnchor) (bytes : Option Bytes) :
    Reached ⟨⟨bytes, [], []⟩, clusterId, epoch, state, anchor, [], none⟩
  | appended {rounds : Nat} {inner after : FileLogStoreInner} {entries : List LogEntry} {sync : Bool}
      (h : Reached inner)
      (hFits : inner.openBytes + (entries.flatMap encodeFrame).length < usizeBound)
      (hAppend : inner.appendBatchToOpenSegment rounds entries sync = some (.ok after)) :
    Reached after
  | closed {inner after : FileLogStoreInner} (h : Reached inner)
      (hSeal : inner.sealOpenSegment = .ok after) : Reached after
  | opened {inner after : FileLogStoreInner} {first : LogEntry} (h : Reached inner)
      (hEnsure : inner.ensureOpenSegment first = .ok after) : Reached after
  | recovered {inner : FileLogStoreInner} {opened : OpenSegment} {kept : List LogEntry}
      (h : Reached inner) (hOpen : inner.openSegment = some opened) (hKept : kept <+: opened.entries)
      (state : ConfigurationState) : Reached (inner.recovered opened kept state)
  | truncated {inner : FileLogStoreInner} (h : Reached inner) (hClosed : inner.openSegment = none)
      (start : Nat) (state : ConfigurationState) : Reached (inner.truncated start state)
  | compacted {inner : FileLogStoreInner} (h : Reached inner) (hClosed : inner.openSegment = none)
      (anchor : RecoveryAnchor) (state : ConfigurationState) : Reached (inner.compacted anchor state)

end FileLogStoreInner

theorem bodyBytes_le {part entries : List LogEntry} (h : part.Sublist entries) :
    bodyBytes part ≤ bodyBytes entries :=
  Nat.add_le_add_left (h.flatMap _).length_le _

theorem Bounded.part {part entries : List LogEntry} (h : Bounded entries) (hPart : part.Sublist entries)
    (hSome : part ≠ []) : Bounded part where
  config := h.config.imp fun _ hConfig entry hEntry => hConfig entry (hPart.subset hEntry)
  limit := by
    have hEntries : entries ≠ [] := fun hNil => hSome (List.sublist_nil.mp (hNil ▸ hPart))
    have hLength := hPart.length_le
    have hPos := List.length_pos_iff.mpr hSome
    rw [encodeOpenSegment_length hSome]
    rcases h.limit with ⟨hCount, hBytes⟩ | hOne
    · rw [encodeOpenSegment_length hEntries] at hBytes
      exact .inl ⟨Nat.le_trans hLength hCount, Nat.le_trans (bodyBytes_le hPart) hBytes⟩
    · exact .inr (by omega)

theorem Sound.ranges_apart {inner : FileLogStoreInner} (h : Sound inner) :
    inner.segments.Pairwise fun left right =>
      (FileLogStore.rangeOf left).start < (FileLogStore.rangeOf right).start := by
  have hApart := (List.pairwise_flatten.mp (List.pairwise_append.mp h.increasing).1).2
  refine hApart.imp_of_mem fun {left right} hLeft hRight hBelow => ?_
  obtain ⟨first, rest, rfl⟩ := List.exists_cons_of_ne_nil (h.closed left hLeft).1
  obtain ⟨other, others, rfl⟩ := List.exists_cons_of_ne_nil (h.closed right hRight).1
  exact hBelow first List.mem_cons_self other List.mem_cons_self

theorem Sound.kept_range {inner : FileLogStoreInner} (h : Sound inner)
    {front old back : List (List LogEntry)} (hSegments : inner.segments = front ++ old ++ back)
    {segment : List LogEntry} (hSegment : segment ∈ front ∨ segment ∈ back) :
    FileLogStore.rangeOf segment ∉ old.map FileLogStore.rangeOf := by
  intro hRange
  obtain ⟨whole, hWhole, hSame⟩ := List.mem_map.mp hRange
  have hApart := h.ranges_apart
  rw [hSegments] at hApart
  obtain ⟨hFront, -, hBack⟩ := List.pairwise_append.mp hApart
  rcases hSegment with hSegment | hSegment
  · have := (List.pairwise_append.mp hFront).2.2 segment hSegment whole hWhole
    rw [hSame] at this
    omega
  · have := hBack whole (List.mem_append_right _ hWhole) segment hSegment
    rw [hSame] at this
    omega

theorem Sound.replace {inner : FileLogStoreInner} (h : Sound inner) (hClosed : inner.openSegment = none)
    (front old back : List (List LogEntry)) (replacement : List LogEntry)
    (hSegments : inner.segments = front ++ old ++ back)
    (hPart : replacement ≠ [] → ∃ whole ∈ old, replacement.Sublist whole) :
    Sound (inner.replaceSegments front old back replacement) where
  closed := by
    intro segment hSegment
    have hOld : ∀ segment ∈ front ++ old ++ back, segment ≠ [] ∧ Bounded segment :=
      hSegments ▸ h.closed
    change segment ∈ front ++ (if replacement = [] then [] else [replacement]) ++ back at hSegment
    rcases List.mem_append.mp hSegment with hSegment | hSegment
    · rcases List.mem_append.mp hSegment with hSegment | hSegment
      · exact hOld segment (List.mem_append_left _ (List.mem_append_left _ hSegment))
      · split at hSegment
        · cases hSegment
        · rename_i hSome
          obtain ⟨whole, hWhole, hSub⟩ := hPart hSome
          rw [List.mem_singleton.mp hSegment]
          exact ⟨hSome, (hOld whole (List.mem_append_left _ (List.mem_append_right _ hWhole))).2.part
            hSub hSome⟩
    · exact hOld segment (List.mem_append_right _ hSegment)
  opened := by
    intro opened hOpened
    change inner.openSegment = some opened at hOpened
    rw [hClosed] at hOpened
    cases hOpened
  increasing := by
    refine List.Pairwise.sublist ?_ h.increasing
    change ((front ++ (if replacement = [] then [] else [replacement]) ++ back).flatten ++
      inner.openEntries).Sublist _
    rw [FileLogStoreInner.retained, hSegments]
    refine List.Sublist.append ?_ (List.Sublist.refl _)
    rw [List.flatten_append, List.flatten_append, List.flatten_append, List.flatten_append]
    refine ((List.Sublist.refl _).append ?_).append (List.Sublist.refl _)
    split
    · exact List.nil_sublist _
    · rename_i hSome
      obtain ⟨whole, hWhole, hSub⟩ := hPart hSome
      rw [List.flatten_singleton]
      exact hSub.trans (List.sublist_flatten_of_mem hWhole)
  closedFiles := by
    intro file
    change file ∈ (inner.dir.closed.filter fun file => file.1 ∉ old.map FileLogStore.rangeOf) ++
      (if replacement = [] then [] else [replacement]).map closedFile ↔
        file ∈ (front ++ (if replacement = [] then [] else [replacement]) ++ back).map closedFile
    have hClosedFiles := h.closedFiles file
    rw [hSegments] at hClosedFiles
    rw [List.mem_append, List.mem_filter, hClosedFiles]
    simp only [List.map_append, List.mem_append]
    constructor
    · rintro (⟨(hFront | hOld) | hBack, hKept⟩ | hNew)
      · exact .inl (.inl hFront)
      · obtain ⟨segment, hSegment, rfl⟩ := List.mem_map.mp hOld
        exact absurd (List.mem_map_of_mem hSegment) (of_decide_eq_true hKept)
      · exact .inr hBack
      · exact .inl (.inr hNew)
    · have hKept : ∀ segment, segment ∈ front ∨ segment ∈ back →
          decide ((closedFile segment).1 ∉ old.map FileLogStore.rangeOf) = true :=
        fun segment hSegment => decide_eq_true (h.kept_range hSegments hSegment)
      rintro ((hFront | hNew) | hBack)
      · obtain ⟨segment, hSegment, rfl⟩ := List.mem_map.mp hFront
        exact .inl ⟨.inl (.inl (List.mem_map_of_mem hSegment)), hKept segment (.inl hSegment)⟩
      · exact .inr hNew
      · obtain ⟨segment, hSegment, rfl⟩ := List.mem_map.mp hBack
        exact .inl ⟨.inr (List.mem_map_of_mem hSegment), hKept segment (.inr hSegment)⟩
  openFiles := h.openFiles

theorem Sound.truncated {inner : FileLogStoreInner} (h : Sound inner)
    (hClosed : inner.openSegment = none) (start : Nat) (state : ConfigurationState) :
    Sound (inner.truncated start state) := by
  let below := fun segment : List LogEntry => decide ((FileLogStore.rangeOf segment).stop < start)
  have hReplaced := h.replace hClosed (inner.segments.takeWhile below)
    (inner.segments.dropWhile below) []
    (((inner.segments.dropWhile below).head?.getD []).takeWhile fun entry =>
      entry.index < start)
    (by rw [List.append_nil, List.takeWhile_append_dropWhile]) (by
      intro hSome
      cases hHead : (inner.segments.dropWhile below).head? with
      | none =>
        rw [hHead] at hSome
        exact absurd rfl hSome
      | some whole => exact ⟨whole, List.mem_of_mem_head? hHead, List.takeWhile_sublist _⟩)
  exact ⟨hReplaced.closed, hReplaced.opened, hReplaced.increasing, hReplaced.closedFiles,
    hReplaced.openFiles⟩

theorem Sound.compacted {inner : FileLogStoreInner} (h : Sound inner)
    (hClosed : inner.openSegment = none) (anchor : RecoveryAnchor) (state : ConfigurationState) :
    Sound (inner.compacted anchor state) := by
  let reaches := fun segment : List LogEntry =>
    decide ((FileLogStore.rangeOf segment).start ≤ anchor.compacted.index)
  have hReplaced := h.replace hClosed [] (inner.segments.takeWhile reaches)
    (inner.segments.dropWhile reaches)
    (((inner.segments.takeWhile reaches).getLast?.getD []).filter fun entry =>
      anchor.compacted.index < entry.index)
    (by rw [List.nil_append, List.takeWhile_append_dropWhile]) (by
      intro hSome
      cases hLast : (inner.segments.takeWhile reaches).getLast? with
      | none =>
        rw [hLast] at hSome
        exact absurd rfl hSome
      | some whole => exact ⟨whole, List.mem_of_getLast? hLast, List.filter_sublist⟩)
  exact ⟨hReplaced.closed, hReplaced.opened, hReplaced.increasing, hReplaced.closedFiles,
    hReplaced.openFiles⟩

theorem Sound.recovered {inner : FileLogStoreInner} (h : Sound inner) {opened : OpenSegment}
    (hOpen : inner.openSegment = some opened) {kept : List LogEntry} (hKept : kept <+: opened.entries)
    (state : ConfigurationState) : Sound (inner.recovered opened kept state) where
  closed := h.closed
  opened := by
    intro after hAfter
    rw [← Option.some.inj hAfter]
    have hSound := h.opened opened hOpen
    refine ⟨rfl, fun entry hEntry => hSound.config entry (hKept.subset hEntry), ?_⟩
    have hLength := hKept.sublist.length_le
    rcases hSound.limit with ⟨hCount, hBytes⟩ | hOne
    · exact .inl ⟨Nat.le_trans hLength hCount, Nat.le_trans (bodyBytes_le hKept.sublist) hBytes⟩
    · cases kept with
      | nil => exact (OpenSound.fresh 0 0).limit
      | cons first rest =>
        rw [List.length_cons] at hLength
        exact .inr (by rw [List.length_cons]; omega)
  increasing := by
    refine List.Pairwise.sublist ?_ h.increasing
    rw [retained_of_some hOpen]
    exact (List.Sublist.refl _).append hKept.sublist
  closedFiles := h.closedFiles
  openFiles := by
    obtain ⟨file, hDir, hStart, first, hIndex, hId, hBytes⟩ := h.open_file hOpen
    change List.Forall₂ OpenFile [_] (inner.dir.opened.map _)
    rw [hDir, List.map_singleton]
    refine .cons ⟨hStart, first, hIndex, hId, ?_⟩ .nil
    obtain ⟨lost, hLost⟩ := hKept
    change file.2.take _ = _ ++ kept.flatMap encodeFrame
    rw [hBytes, ← hLost, List.flatMap_append, ← List.append_assoc]
    refine List.take_left' ?_
    rw [List.length_append, encodeHeader_length, bodyBytes]

theorem FileLogStoreInner.Reached.sound {inner : FileLogStoreInner}
    (h : FileLogStoreInner.Reached inner) : Sound inner := by
  induction h with
  | created clusterId epoch state anchor bytes =>
    exact ⟨nofun, nofun, List.Pairwise.nil, fun file => Iff.rfl, .nil⟩
  | appended _ hFits hAppend ih =>
    rcases validated_of_append hAppend with rfl | ⟨final, hValid⟩
    · exact ih
    · obtain ⟨after, hOk, hSound, -⟩ := ih.append hValid hFits hAppend
      exact Except.ok.inj hOk ▸ hSound
  | closed _ hSeal ih =>
    obtain ⟨after, hOk, hSound, -⟩ := ih.seal
    rw [hSeal] at hOk
    exact Except.ok.inj hOk ▸ hSound
  | opened _ hEnsure ih =>
    unfold FileLogStoreInner.ensureOpenSegment at hEnsure
    split at hEnsure
    · exact Except.ok.inj hEnsure ▸ ih
    · obtain ⟨middle, hSeal, hSound, hNone, -⟩ := ih.seal
      rw [hSeal] at hEnsure
      dsimp only at hEnsure
      split at hEnsure
      · cases hEnsure
      · exact Except.ok.inj hEnsure ▸ hSound.fresh hNone _
  | recovered _ hOpen hKept state ih => exact ih.recovered hOpen hKept state
  | truncated _ hClosed start state ih => exact ih.truncated hClosed start state
  | compacted _ hClosed anchor state ih => exact ih.compacted hClosed anchor state

theorem Sound.bounded {inner : FileLogStoreInner} (h : Sound inner) :
    ∀ segment ∈ inner.segments ++ (inner.openSegment.map (·.entries)).toList, Bounded segment := by
  intro segment hSegment
  rcases List.mem_append.mp hSegment with hSegment | hSegment
  · exact (h.closed segment hSegment).2
  · obtain ⟨opened, hOpen, rfl⟩ := Option.map_eq_some_iff.mp (Option.mem_toList.mp hSegment)
    by_cases hSome : opened.entries = []
    · rw [hSome]
      exact ⟨⟨0, nofun⟩, .inl ⟨Nat.zero_le _, Nat.zero_le _⟩⟩
    · exact (h.opened opened hOpen).bounded hSome

/-- Of every store and every batch that passes its checks: the loops end, without a panic, and
where the lengths fit in memory, the segments hold the old entries and the whole batch in order.
The old closed segments stay in front, every segment is within its limits, the closed files are
those of the closed segments with their footers, and the open file has the rest. -/
theorem rotation_partitions_the_batch {inner : FileLogStoreInner} (h : inner.Reached)
    {batch : List LogEntry} {final : ConfigurationState} (sync : Bool)
    (hValid : inner.validateAppend batch = .ok final) {rounds : Nat}
    (hRounds : 2 * batch.length < rounds) :
    (∃ result, inner.appendBatchToOpenSegment rounds batch sync = some result) ∧
    (inner.openBytes + (batch.flatMap encodeFrame).length < usizeBound →
      ∃ after, inner.appendBatchToOpenSegment rounds batch sync = some (.ok after) ∧
        after.retained = inner.retained ++ batch ∧ inner.segments <+: after.segments ∧
        (∀ segment ∈ after.segments ++ (after.openSegment.map (·.entries)).toList,
          Bounded segment) ∧
        (∀ file, file ∈ after.dir.closed ↔ file ∈ after.segments.map closedFile) ∧
        List.Forall₂ OpenFile after.openSegment.toList after.dir.opened) := by
  obtain ⟨result, hAppend⟩ := appendBatch_returns inner sync hRounds
  refine ⟨⟨result, hAppend⟩, fun hFits => ?_⟩
  obtain ⟨after, rfl, hSound, hWritten⟩ := h.sound.append hValid hFits hAppend
  exact ⟨after, hAppend, hWritten.retained, hWritten.segments, hSound.bounded, hSound.closedFiles,
    hSound.openFiles⟩

end Append

namespace Sample

def cluster : ClusterId := "c"
def active : Nat := 1
def members : List NodeId := ["a", "b", "c"]

def successor : SuccessorDescriptor where
  clusterId := cluster
  predecessorConfigId := active
  predecessorConfigDigest := .zero
  configId := 2
  members := members
  clusterNamed := by decide
  clusterBounded := by decide +kernel
  next := by decide
  canonical := by decide

def emptyLog : FileLogStoreInner :=
  ⟨⟨none, [], []⟩, "c", 1, .active 1 .zero, none, [], none⟩

def stop : LogEntry :=
  sealed ⟨"c", 1, 1, 1, .configChange, (ConfigChange.boundStop successor).toStoredCommand.payload,
    .zero, .zero⟩

def barrier : LogEntry :=
  sealed ⟨"c", 1, 2, 2, .configChange, (ConfigChange.boundActivationBarrier successor 1 stop.hash
    (ConfigChange.boundStop successor).toStoredCommand.hash).toStoredCommand.payload,
    stop.hash, .zero⟩

end Sample

open scoped Sample in
/-- A stop and the barrier behind it go into two segments: the first is closed with its file. -/
theorem sample_stop_is_sealed : 2 * [Sample.stop, Sample.barrier].length < 5 ∧
    ∃ after, Sample.emptyLog.appendBatchToOpenSegment 5 [Sample.stop, Sample.barrier] true =
        some (.ok after) ∧ after.retained = [Sample.stop, Sample.barrier] ∧
      ∃ segment ∈ after.segments, closedFile segment ∈ after.dir.closed := by
  have hValid : Sample.emptyLog.validateAppend [Sample.stop, Sample.barrier] =
      .ok (.active 2 Sample.successor.digest) := by
    decide +kernel
  have hRounds : 2 * [Sample.stop, Sample.barrier].length < 5 := by decide
  obtain ⟨after, hAppend, hRetained, -, hBounded, hClosed, -⟩ := (rotation_partitions_the_batch
    (.created "c" 1 (.active 1 .zero) none none) true hValid hRounds).2 (by
      rw [List.flatMap_cons, List.flatMap_singleton, List.length_append, encodeFrame_length,
        encodeFrame_length]
      decide +kernel)
  refine ⟨hRounds, after, hAppend, hRetained, ?_⟩
  cases hSegments : after.segments with
  | cons segment rest =>
    refine ⟨segment, List.mem_cons_self, (hClosed _).mpr ?_⟩
    rw [hSegments]
    exact List.mem_cons_self
  | nil =>
    -- one open segment cannot hold entries of two configurations
    rw [FileLogStoreInner.retained, hSegments] at hRetained
    cases hOpen : after.openSegment with
    | none =>
      rw [openEntries_of_none hOpen] at hRetained
      cases hRetained
    | some opened =>
      have hBoth : opened.entries = [Sample.stop, Sample.barrier] := by
        rw [← openEntries_of_some hOpen]
        exact hRetained
      obtain ⟨⟨configId, hSame⟩, -⟩ := hBounded opened.entries (by
        rw [hOpen]
        exact List.mem_append_right _ List.mem_cons_self)
      rw [hBoth] at hSame
      have hFirst : 1 = configId := hSame Sample.stop List.mem_cons_self
      have hSecond : 2 = configId := hSame Sample.barrier (List.mem_cons_of_mem _ List.mem_cons_self)
      omega

end Rhiza.Log
