import Mathlib.Data.List.Flatten
import Mathlib.Data.List.SplitBy
import Rhiza.Log.Store

/-! # Rotation of the open segment

An append cuts its batch into runs of one configuration and each run into chunks that still
fit the open segment. A segment that takes nothing more is closed and the round is repeated
with a fresh one.
-/

namespace Rhiza.Log

open Core Library

def openSegmentMaxBytes : Nat := 8 * 1024 * 1024
def openSegmentMaxEntries : Nat := 4096
def usizeBound : Nat := 2 ^ 64

structure OpenSegment where
  configId : Nat
  start : Nat
  bytesLen : Nat
  entries : List LogEntry

structure FileLogStoreInner where
  dir : Directory
  clusterId : ClusterId
  epoch : Nat
  configurationState : ConfigurationState
  anchor : Option RecoveryAnchor
  segments : List (List LogEntry)
  openSegment : Option OpenSegment

/-- `Io` stands only where a name is taken: reading and writing do not fail here. -/
inductive AppendError
  | log (error : Error)
  | openSegmentExists (start : Nat)

section Append

variable [Sha256]

namespace FileLogStoreInner

omit [Sha256] in
def nextPlace (inner : FileLogStoreInner) : Result (Nat × LogHash) :=
  match inner.openSegment.bind (·.entries.getLast?) with
  | some entry => (checkedSucc entry.index).elim (.error (.decode "qlog index overflow")) fun index =>
      .ok (index, entry.hash)
  | none => openStart inner.anchor inner.segments

/-- The loop of `validate_append`. -/
def validateFromPlace (inner : FileLogStoreInner) :
    Nat → LogHash → ConfigurationState → List LogEntry → Result ConfigurationState
  | _, _, state, [] => .ok state
  | index, prevHash, state, entry :: entries => do
    ensure (entry.clusterId = inner.clusterId ∧ entry.epoch = inner.epoch)
      (.decode "qlog entry does not match configured cluster/epoch")
    ensure (entry.index = index) (.decode "qlog append index is not contiguous")
    ensure (entry.prevHash = prevHash) (.decode "qlog append prev_hash mismatch")
    ensure (entry.recomputeHash = entry.hash) (.decode "qlog append entry_hash mismatch")
    let state ← followEntries state [entry]
    -- the index behind the last entry is never computed
    if entries = [] then pure state
    else match checkedSucc index with
      | some index => validateFromPlace inner index entry.hash state entries
      | none => .error (.decode "qlog index overflow")

def validateAppend (inner : FileLogStoreInner) (entries : List LogEntry) :
    Result ConfigurationState := do
  let (index, prevHash) ← inner.nextPlace
  inner.validateFromPlace index prevHash inner.configurationState entries

end FileLogStoreInner

omit [Sha256] in
/-- A `checked_add` of `usize`. -/
def checkedUsize (n : Nat) (message : String) : Result Nat :=
  if n < usizeBound then .ok n else .error (.decode message)

omit [Sha256] in
/-- The loop of `open_segment_chunk_len`. -/
def chunkLenFrom (opened : OpenSegment) : Nat → Nat → Nat → List LogEntry → Result Nat
  | _, _, chunkLen, [] => .ok chunkLen
  | bytesLen, entryCount, chunkLen, entry :: entries => do
    let frameLen ← checkedUsize (frameMinLen + entry.payload.length) "qlog frame length overflow"
    let nextBytesLen ← checkedUsize (bytesLen + frameLen) "qlog segment length overflow"
    let nextEntryCount ← checkedUsize (entryCount + 1) "qlog segment entry count overflow"
    let oversizedFirstEntry := opened.entries = [] ∧ chunkLen = 0
    if ¬oversizedFirstEntry ∧
        (openSegmentMaxBytes < nextBytesLen ∨ openSegmentMaxEntries < nextEntryCount) then
      .ok chunkLen
    else chunkLenFrom opened nextBytesLen nextEntryCount (chunkLen + 1) entries

omit [Sha256] in
def openSegmentChunkLen (opened : OpenSegment) (entries : List LogEntry) : Result Nat :=
  chunkLenFrom opened opened.bytesLen opened.entries.length 0 entries

def publishClosedSegment (dir : Directory) (clusterId : ClusterId) (range : IndexRange)
    (entries : List LogEntry) : Result Directory :=
  match dir.closed.lookup range with
  | some existing => do
    let found ← decodeSegmentForCluster existing clusterId
    ensure (found = entries) (.decode "open and closed qlog segments disagree")
    pure dir
  | none => .ok { dir with closed := dir.closed ++ [(range, encodeSegment entries)] }

omit [Sha256] in
def removeOpen (dir : Directory) (start : Nat) : Directory :=
  { dir with opened := dir.opened.filter fun file => file.1 ≠ start }

namespace FileLogStoreInner

def sealOpenSegment (inner : FileLogStoreInner) : Result FileLogStoreInner :=
  match inner.openSegment with
  | none => .ok inner
  | some opened =>
    match opened.entries.head?, opened.entries.getLast? with
    | some first, some last => do
      let range ← IndexRange.new first.index last.index
      let dir ← publishClosedSegment inner.dir inner.clusterId range opened.entries
      pure { inner with
        dir := removeOpen dir opened.start
        openSegment := none
        segments := inner.segments ++ [opened.entries] }
    | _, _ => .ok { inner with dir := removeOpen inner.dir opened.start, openSegment := none }

def withFreshSegment (inner : FileLogStoreInner) (first : LogEntry) : FileLogStoreInner :=
  { inner with
    dir := { inner.dir with opened := inner.dir.opened ++ [(first.index, encodeHeader first)] }
    openSegment := some ⟨first.configId, first.index, qlogHeaderLen, []⟩ }

def ensureOpenSegment (inner : FileLogStoreInner) (first : LogEntry) :
    Except AppendError FileLogStoreInner :=
  if (inner.openSegment.any fun opened => opened.configId == first.configId) = true then .ok inner
  else match inner.sealOpenSegment with
    | .error error => .error (.log error)
    | .ok inner =>
      if first.index ∈ inner.dir.opened.map Prod.fst then .error (.openSegmentExists first.index)
      else .ok (inner.withFreshSegment first)

def writeChunk (inner : FileLogStoreInner) (opened : OpenSegment) (chunk : List LogEntry) :
    Result FileLogStoreInner := do
  let bytes := chunk.flatMap encodeFrame
  let state ← followEntries inner.configurationState chunk
  pure { inner with
    dir := { inner.dir with opened := inner.dir.opened.map fun file =>
      if file.1 = opened.start then (file.1, file.2 ++ bytes) else file }
    openSegment := some { opened with
      bytesLen := opened.bytesLen + bytes.length
      entries := opened.entries ++ chunk }
    configurationState := state }

/-- The inner loop of `append_batch_to_open_segment`, for a number of rounds.
There is no result where the rounds do not suffice, or where the source would panic. -/
def fillSegments : Nat → FileLogStoreInner → List LogEntry →
    Option (Except AppendError FileLogStoreInner)
  | _, inner, [] => some (.ok inner)
  | 0, _, _ :: _ => none
  | rounds + 1, inner, first :: rest =>
    match inner.ensureOpenSegment first with
    | .error error => some (.error error)
    | .ok inner =>
      match inner.openSegment with
      | none => none
      | some opened =>
        match openSegmentChunkLen opened (first :: rest) with
        | .error error => some (.error (.log error))
        | .ok chunkLen =>
          if chunkLen = 0 then
            match inner.sealOpenSegment with
            | .error error => some (.error (.log error))
            | .ok inner => fillSegments rounds inner (first :: rest)
          else
            match inner.writeChunk opened ((first :: rest).take chunkLen) with
            | .error error => some (.error (.log error))
            | .ok inner => fillSegments rounds inner ((first :: rest).drop chunkLen)

def fillRuns (rounds : Nat) : FileLogStoreInner → List (List LogEntry) →
    Option (Except AppendError FileLogStoreInner)
  | inner, [] => some (.ok inner)
  | inner, run :: runs =>
    match fillSegments rounds inner run with
    | some (.ok inner) => fillRuns rounds inner runs
    | stopped => stopped

/-- `append_batch_to_open_segment`, with that many rounds for each inner loop. -/
def appendBatchToOpenSegment (rounds : Nat) (inner : FileLogStoreInner) (entries : List LogEntry)
    (sync : Bool) : Option (Except AppendError FileLogStoreInner) :=
  if entries = [] then some (.ok inner)
  else match inner.validateAppend entries with
    | .error error => some (.error (.log error))
    | .ok _ =>
      match fillRuns rounds inner (entries.splitBy fun left right => left.configId == right.configId) with
      | some (.ok inner) =>
        -- `expect` of an open segment to sync
        if (sync && inner.openSegment.isNone) = true then none else some (.ok inner)
      | stopped => stopped

omit [Sha256] in
def openEntries (inner : FileLogStoreInner) : List LogEntry :=
  (inner.openSegment.map (·.entries)).getD []

omit [Sha256] in
def retained (inner : FileLogStoreInner) : List LogEntry :=
  inner.segments.flatten ++ inner.openEntries

omit [Sha256] in
def openBytes (inner : FileLogStoreInner) : Nat :=
  (inner.openSegment.map (·.bytesLen)).getD qlogHeaderLen

end FileLogStoreInner

section Open

omit [Sha256]

variable {inner : FileLogStoreInner} {opened : OpenSegment}

theorem openEntries_of_none (h : inner.openSegment = none) : inner.openEntries = [] := by
  rw [FileLogStoreInner.openEntries, h]
  rfl

theorem openEntries_of_some (h : inner.openSegment = some opened) :
    inner.openEntries = opened.entries := by
  rw [FileLogStoreInner.openEntries, h]
  rfl

theorem retained_of_some (h : inner.openSegment = some opened) :
    inner.retained = inner.segments.flatten ++ opened.entries := by
  rw [FileLogStoreInner.retained, openEntries_of_some h]

theorem openBytes_of_none (h : inner.openSegment = none) : inner.openBytes = qlogHeaderLen := by
  rw [FileLogStoreInner.openBytes, h]
  rfl

theorem openBytes_of_some (h : inner.openSegment = some opened) :
    inner.openBytes = opened.bytesLen := by
  rw [FileLogStoreInner.openBytes, h]
  rfl

theorem le_last {entries : List LogEntry} {last : LogEntry}
    (h : entries.Pairwise fun left right => left.index < right.index)
    (hLast : entries.getLast? = some last) : ∀ entry ∈ entries, entry.index ≤ last.index := by
  obtain ⟨front, rfl⟩ := List.getLast?_eq_some_iff.mp hLast
  intro entry hEntry
  rcases List.mem_append.mp hEntry with hEntry | hEntry
  · exact Nat.le_of_lt ((List.pairwise_append.mp h).2.2 entry hEntry last List.mem_cons_self)
  · rw [List.mem_singleton.mp hEntry]

end Open

structure Bounded (entries : List LogEntry) : Prop where
  config : ∃ configId, ∀ entry ∈ entries, entry.configId = configId
  limit : entries.length ≤ openSegmentMaxEntries ∧
    (encodeOpenSegment entries).length ≤ openSegmentMaxBytes ∨ entries.length = 1

def bodyBytes (entries : List LogEntry) : Nat :=
  qlogHeaderLen + (entries.flatMap encodeFrame).length

theorem bodyBytes_append (front back : List LogEntry) :
    bodyBytes (front ++ back) = bodyBytes front + (back.flatMap encodeFrame).length := by
  simp only [bodyBytes, List.flatMap_append, List.length_append]
  omega

theorem encodeOpenSegment_length {entries : List LogEntry} (h : entries ≠ []) :
    (encodeOpenSegment entries).length = bodyBytes entries := by
  cases entries with
  | nil => exact absurd rfl h
  | cons first rest =>
    have hLast : (first :: rest).getLast? = some ((first :: rest).getLast h) :=
      List.getLast?_eq_some_getLast h
    simp only [encodeOpenSegment, encodeSegmentInner, List.head?_cons, hLast, bodyBytes,
      List.length_append, encodeHeader_length, Bool.false_eq_true, if_false]

theorem length_le_frames (entries : List LogEntry) :
    entries.length ≤ (entries.flatMap encodeFrame).length := by
  induction entries with
  | nil => exact Nat.zero_le _
  | cons first rest ih =>
    rw [List.flatMap_cons, List.length_append, List.length_cons, encodeFrame_length, frameMinLen]
    omega

omit [Sha256] in
theorem le_of_chunkLenFrom {opened : OpenSegment} {bytesLen entryCount chunkLen n : Nat}
    {entries : List LogEntry}
    (h : chunkLenFrom opened bytesLen entryCount chunkLen entries = .ok n) : chunkLen ≤ n := by
  induction entries generalizing bytesLen entryCount chunkLen with
  | nil => exact Nat.le_of_eq (Except.ok.inj h)
  | cons first rest ih =>
    obtain ⟨_, -, h⟩ := bind_ok_iff.mp h
    obtain ⟨_, -, h⟩ := bind_ok_iff.mp h
    obtain ⟨_, -, h⟩ := bind_ok_iff.mp h
    dsimp only at h
    split at h
    · exact Nat.le_of_eq (Except.ok.inj h)
    · exact Nat.le_of_succ_le (ih h)

omit [Sha256] in
theorem chunkLen_pos {opened : OpenSegment} {first : LogEntry} {rest : List LogEntry} {n : Nat}
    (hEmpty : opened.entries = []) (h : openSegmentChunkLen opened (first :: rest) = .ok n) :
    n ≠ 0 := by
  obtain ⟨_, -, h⟩ := bind_ok_iff.mp h
  obtain ⟨_, -, h⟩ := bind_ok_iff.mp h
  obtain ⟨_, -, h⟩ := bind_ok_iff.mp h
  dsimp only at h
  rw [if_neg fun hBreak => hBreak.1 ⟨hEmpty, rfl⟩] at h
  exact Nat.pos_iff_ne_zero.mp (le_of_chunkLenFrom h)

omit [Sha256] in
theorem checkedUsize_of {n : Nat} {message : String} (h : n < usizeBound) :
    checkedUsize n message = .ok n := if_pos h

theorem chunkLenFrom_fits (opened : OpenSegment) {bytesLen entryCount : Nat} (chunkLen : Nat)
    {entries : List LogEntry} (hCount : entryCount ≤ bytesLen)
    (hFits : bytesLen + (entries.flatMap encodeFrame).length < usizeBound) :
    ∃ n, chunkLenFrom opened bytesLen entryCount chunkLen entries = .ok (chunkLen + n) ∧
      n ≤ entries.length ∧
      (n = 0 ∨ (opened.entries = [] ∧ chunkLen = 0 ∧ n = 1) ∨
        (entryCount + n ≤ openSegmentMaxEntries ∧
          bytesLen + ((entries.take n).flatMap encodeFrame).length ≤ openSegmentMaxBytes)) := by
  induction entries generalizing bytesLen entryCount chunkLen with
  | nil => exact ⟨0, rfl, Nat.le_refl _, .inl rfl⟩
  | cons first rest ih =>
    rw [List.flatMap_cons, List.length_append, encodeFrame_length] at hFits
    have hLow : 0 < frameMinLen := by decide
    unfold chunkLenFrom
    rw [checkedUsize_of (by omega : frameMinLen + first.payload.length < usizeBound)]
    change ∃ n, (checkedUsize (bytesLen + (frameMinLen + first.payload.length)) _ >>= _) = _ ∧ _
    rw [checkedUsize_of (by omega : bytesLen + (frameMinLen + first.payload.length) < usizeBound)]
    change ∃ n, (checkedUsize (entryCount + 1) _ >>= _) = _ ∧ _
    rw [checkedUsize_of (by omega : entryCount + 1 < usizeBound)]
    dsimp only [bind, Except.bind]
    split
    · exact ⟨0, rfl, Nat.zero_le _, .inl rfl⟩
    · rename_i hGo
      obtain ⟨n, hOk, hLength, hCase⟩ := ih (chunkLen + 1)
        (by omega : entryCount + 1 ≤ bytesLen + (frameMinLen + first.payload.length)) (by omega)
      refine ⟨n + 1, by rw [hOk]; congr 1; omega, Nat.succ_le_succ hLength, ?_⟩
      rw [List.take_succ_cons, List.flatMap_cons, List.length_append, encodeFrame_length]
      rcases hCase with rfl | ⟨-, hImpossible, -⟩ | ⟨hEntries, hBytes⟩
      · -- nothing followed: either the entry fits, or it is the first of an empty segment
        by_cases hFirst : opened.entries = [] ∧ chunkLen = 0
        · exact .inr (.inl ⟨hFirst.1, hFirst.2, rfl⟩)
        · have hWithin : ¬(openSegmentMaxBytes < bytesLen + (frameMinLen + first.payload.length) ∨
              openSegmentMaxEntries < entryCount + 1) := fun hOver => hGo ⟨hFirst, hOver⟩
          rw [List.take_zero, List.flatMap_nil, List.length_nil]
          exact .inr (.inr (by omega))
      · omega
      · exact .inr (.inr (by omega))

structure OpenSound (opened : OpenSegment) : Prop where
  bytesLen : opened.bytesLen = bodyBytes opened.entries
  config : ∀ entry ∈ opened.entries, entry.configId = opened.configId
  limit : opened.entries.length ≤ openSegmentMaxEntries ∧
    bodyBytes opened.entries ≤ openSegmentMaxBytes ∨ opened.entries.length = 1

def closedFile (segment : List LogEntry) : IndexRange × Bytes :=
  (FileLogStore.rangeOf segment, encodeSegment segment)

/-- A file with the header that opened the segment, and behind it the frames of its entries. -/
structure OpenFile (opened : OpenSegment) (file : Nat × Bytes) : Prop where
  start : file.1 = opened.start
  bytes : ∃ first : LogEntry, first.index = opened.start ∧ first.configId = opened.configId ∧
    file.2 = encodeHeader first ++ opened.entries.flatMap encodeFrame

structure Sound (inner : FileLogStoreInner) : Prop where
  closed : ∀ segment ∈ inner.segments, segment ≠ [] ∧ Bounded segment
  opened : ∀ opened ∈ inner.openSegment, OpenSound opened
  increasing : inner.retained.Pairwise fun left right => left.index < right.index
  closedFiles : ∀ file, file ∈ inner.dir.closed ↔ file ∈ inner.segments.map closedFile
  openFiles : List.Forall₂ OpenFile inner.openSegment.toList inner.dir.opened

structure Ready (inner : FileLogStoreInner) (pending : List LogEntry) : Prop where
  sound : Sound inner
  increasing : (inner.retained ++ pending).Pairwise fun left right => left.index < right.index
  follows : ∃ state, followEntries inner.configurationState pending = .ok state
  fits : inner.openBytes + (pending.flatMap encodeFrame).length < usizeBound

theorem OpenSound.bounded {opened : OpenSegment} (h : OpenSound opened) (hSome : opened.entries ≠ []) :
    Bounded opened.entries where
  config := ⟨opened.configId, h.config⟩
  limit := by
    rw [encodeOpenSegment_length hSome]
    exact h.limit

theorem OpenSound.fresh (configId start : Nat) : OpenSound ⟨configId, start, qlogHeaderLen, []⟩ where
  bytesLen := rfl
  config := nofun
  limit := .inl ⟨Nat.zero_le _, show qlogHeaderLen + 0 ≤ openSegmentMaxBytes by decide⟩

theorem Sound.lookup_none {inner : FileLogStoreInner} (h : Sound inner) {opened : OpenSegment}
    (hOpen : inner.openSegment = some opened) {first : LogEntry}
    (hFirst : opened.entries.head? = some first) (stop : Nat) :
    inner.dir.closed.lookup ⟨first.index, stop⟩ = none := by
  rw [List.lookup_eq_none_iff]
  intro file hFile
  obtain ⟨segment, hSegment, rfl⟩ := List.mem_map.mp ((h.closedFiles file).mp hFile)
  have hIncreasing := h.increasing
  rw [retained_of_some hOpen, List.pairwise_append] at hIncreasing
  obtain ⟨head, rest, hHead⟩ := List.exists_cons_of_ne_nil (h.closed segment hSegment).1
  have hBelow : head.index < first.index := hIncreasing.2.2 head
    (List.mem_flatten.mpr ⟨segment, hSegment, by rw [hHead]; exact List.mem_cons_self⟩) first
    (List.mem_of_mem_head? hFirst)
  have hStart : (closedFile segment).1.start = head.index := by rw [hHead]; rfl
  rw [bne_iff_ne]
  intro hSame
  have : first.index = (closedFile segment).1.start := congrArg IndexRange.start hSame
  omega

theorem Sound.open_file {inner : FileLogStoreInner} (h : Sound inner) {opened : OpenSegment}
    (hOpen : inner.openSegment = some opened) :
    ∃ file, inner.dir.opened = [file] ∧ OpenFile opened file := by
  have hFiles := h.openFiles
  rw [hOpen, Option.toList_some] at hFiles
  obtain ⟨file, rest, hFile, hRest, hDir⟩ := List.forall₂_cons_left_iff.mp hFiles
  obtain rfl := List.forall₂_nil_left_iff.mp hRest
  exact ⟨file, hDir, hFile⟩

theorem Sound.no_open_file {inner : FileLogStoreInner} (h : Sound inner) {opened : OpenSegment}
    (hOpen : inner.openSegment = some opened) :
    (inner.dir.opened.filter fun file => file.1 ≠ opened.start) = [] := by
  obtain ⟨file, hDir, hFile⟩ := h.open_file hOpen
  rw [hDir, List.filter_eq_nil_iff]
  intro other hOther
  rw [List.mem_singleton.mp hOther]
  simp only [hFile.start, ne_eq, not_true_eq_false, decide_false, Bool.false_eq_true,
    not_false_eq_true]

theorem Sound.seal {inner : FileLogStoreInner} (h : Sound inner) :
    ∃ after, inner.sealOpenSegment = .ok after ∧ Sound after ∧ after.openSegment = none ∧
      after.retained = inner.retained ∧ after.configurationState = inner.configurationState ∧
      inner.segments <+: after.segments := by
  cases hOpen : inner.openSegment with
  | none =>
    exact ⟨inner, by simp only [FileLogStoreInner.sealOpenSegment, hOpen], h, hOpen, rfl, rfl,
      List.prefix_refl _⟩
  | some opened =>
    have hSound := h.opened opened hOpen
    have hRemoved := h.no_open_file hOpen
    have hIncreasing := h.increasing
    rw [retained_of_some hOpen] at hIncreasing
    cases hEntries : opened.entries with
    | nil =>
      refine ⟨{ inner with dir := removeOpen inner.dir opened.start, openSegment := none },
        by simp only [FileLogStoreInner.sealOpenSegment, hOpen, hEntries, List.head?_nil],
        ⟨h.closed, fun _ hNone => absurd hNone (Option.not_mem_none _), ?_, h.closedFiles, ?_⟩,
        rfl, ?_, rfl, List.prefix_refl _⟩
      · rw [hEntries] at hIncreasing
        exact hIncreasing
      · exact List.forall₂_nil_left_iff.mpr hRemoved
      · rw [retained_of_some hOpen, hEntries]
        rfl
    | cons first rest =>
      have hSome : opened.entries ≠ [] := by rw [hEntries]; exact List.cons_ne_nil _ _
      have hHead : opened.entries.head? = some first := by rw [hEntries]; rfl
      obtain ⟨last, hLast⟩ := exists_last hHead
      have hOrder : first.index ≤ last.index :=
        le_last (List.pairwise_append.mp hIncreasing).2.1 hLast first (List.mem_of_mem_head? hHead)
      have hRetained : (inner.segments ++ [opened.entries]).flatten ++ [] =
          inner.segments.flatten ++ opened.entries := by
        rw [List.flatten_append, List.flatten_singleton, List.append_nil]
      let range : IndexRange := ⟨first.index, last.index⟩
      let dir : Directory :=
        { inner.dir with closed := inner.dir.closed ++ [(range, encodeSegment opened.entries)] }
      refine ⟨{ inner with
          dir := removeOpen dir opened.start
          openSegment := none
          segments := inner.segments ++ [opened.entries] }, ?_,
        ⟨?_, fun _ hNone => absurd hNone (Option.not_mem_none _), ?_, ?_, ?_⟩, rfl, ?_, rfl,
        List.prefix_append _ _⟩
      · simp only [FileLogStoreInner.sealOpenSegment, hOpen, hHead, hLast]
        rw [IndexRange.new, if_pos hOrder]
        simp only [bind, Except.bind, publishClosedSegment, h.lookup_none hOpen hHead]
        rfl
      · intro segment hSegment
        rcases List.mem_append.mp hSegment with hSegment | hSegment
        · exact h.closed segment hSegment
        · rw [List.mem_singleton.mp hSegment]
          exact ⟨hSome, hSound.bounded hSome⟩
      · rw [← hRetained] at hIncreasing
        exact hIncreasing
      · intro file
        have hFile : (range, encodeSegment opened.entries) = closedFile opened.entries := by
          rw [closedFile, FileLogStore.rangeOf, hHead, hLast]
          rfl
        change file ∈ inner.dir.closed ++ [_] ↔ _
        rw [hFile, List.map_append, List.mem_append, List.mem_append, h.closedFiles,
          List.map_singleton]
      · exact List.forall₂_nil_left_iff.mpr hRemoved
      · rw [retained_of_some hOpen]
        exact hRetained

/-- The store that installs recovery anchors and compacts, which does not count bytes. -/
def FileLogStoreInner.store (inner : FileLogStoreInner) (initial : ConfigurationState) :
    FileLogStore :=
  ⟨inner.clusterId, inner.epoch, initial, inner.configurationState, inner.anchor, inner.segments,
    inner.openSegment.map (·.entries)⟩

theorem Sound.seal_store {inner : FileLogStoreInner} (h : Sound inner)
    (initial : ConfigurationState) : (inner.store initial).sealOpenSegment inner.dir =
      inner.sealOpenSegment.map fun after => (after.store initial, after.dir) := by
  unfold FileLogStore.sealOpenSegment FileLogStoreInner.sealOpenSegment
  cases hOpen : inner.openSegment with
  | none =>
    simp only [FileLogStoreInner.store, hOpen, Option.map_none, Except.map]
  | some opened =>
    have hRemoved : ∀ dir : Directory, dir.opened = inner.dir.opened →
        removeOpen dir opened.start = { dir with opened := [] } := by
      intro dir hDir
      rw [removeOpen, hDir, h.no_open_file hOpen]
    simp only [FileLogStoreInner.store, hOpen, Option.map_some]
    cases opened.entries.head? with
    | none =>
      rw [hRemoved inner.dir rfl]
      rfl
    | some first =>
      cases opened.entries.getLast? with
      | none =>
        rw [hRemoved inner.dir rfl]
        rfl
      | some last =>
        dsimp only
        cases IndexRange.new first.index last.index with
        | error error => rfl
        | ok range =>
          simp only [ok_bind, publishClosedSegment]
          cases inner.dir.closed.lookup range with
          | none =>
            simp only [ok_bind, hRemoved]
            rfl
          | some existing =>
            dsimp only
            cases decodeSegmentForCluster existing inner.clusterId with
            | error error => rfl
            | ok found =>
              simp only [ok_bind]
              by_cases hFound : found = opened.entries
              · rw [ensure_of hFound]
                simp only [ok_bind, pure, Except.pure, hRemoved]
                rfl
              · simp only [ensure, if_neg hFound]
                rfl

theorem Sound.openBytes_ge {inner : FileLogStoreInner} (h : Sound inner) :
    qlogHeaderLen ≤ inner.openBytes := by
  cases hOpen : inner.openSegment with
  | none => exact Nat.le_of_eq (openBytes_of_none hOpen).symm
  | some opened =>
    rw [openBytes_of_some hOpen, (h.opened opened hOpen).bytesLen]
    exact Nat.le_add_right _ _

theorem Ready.seal {inner : FileLogStoreInner} {pending : List LogEntry} (h : Ready inner pending) :
    ∃ after, inner.sealOpenSegment = .ok after ∧ Ready after pending ∧ after.openSegment = none ∧
      after.retained = inner.retained ∧ inner.segments <+: after.segments := by
  obtain ⟨after, hSeal, hSound, hNone, hRetained, hState, hPrefix⟩ := h.sound.seal
  refine ⟨after, hSeal, ⟨hSound, hRetained ▸ h.increasing, hState ▸ h.follows, ?_⟩, hNone, hRetained,
    hPrefix⟩
  have hLow := h.sound.openBytes_ge
  have hFits := h.fits
  rw [openBytes_of_none hNone]
  omega

theorem Sound.fresh {inner : FileLogStoreInner} (h : Sound inner) (hNone : inner.openSegment = none)
    (first : LogEntry) : Sound (inner.withFreshSegment first) where
  closed := h.closed
  opened := by
    intro opened hOpened
    rw [← Option.some.inj hOpened]
    exact OpenSound.fresh _ _
  increasing := by
    have hIncreasing := h.increasing
    rw [FileLogStoreInner.retained, openEntries_of_none hNone] at hIncreasing
    exact hIncreasing
  closedFiles := h.closedFiles
  openFiles := by
    have hFiles := h.openFiles
    rw [hNone] at hFiles
    change List.Forall₂ OpenFile [_] (inner.dir.opened ++ [_])
    rw [List.forall₂_nil_left_iff.mp hFiles]
    exact .cons ⟨rfl, first, rfl, rfl, (List.append_nil _).symm⟩ .nil

theorem Ready.fresh {inner : FileLogStoreInner} {first : LogEntry} {pending : List LogEntry}
    (h : Ready inner pending) (hNone : inner.openSegment = none) :
    Ready (inner.withFreshSegment first) pending where
  sound := h.sound.fresh hNone first
  increasing := by
    have hIncreasing := h.increasing
    rw [FileLogStoreInner.retained, openEntries_of_none hNone] at hIncreasing
    exact hIncreasing
  follows := h.follows
  fits := by
    have hFits := h.fits
    rw [openBytes_of_none hNone] at hFits
    exact hFits

theorem Ready.ensure {inner : FileLogStoreInner} {pending : List LogEntry} (h : Ready inner pending)
    (first : LogEntry) :
    ∃ after opened, inner.ensureOpenSegment first = .ok after ∧ Ready after pending ∧
      after.openSegment = some opened ∧ opened.configId = first.configId ∧
      after.retained = inner.retained ∧ inner.segments <+: after.segments := by
  unfold FileLogStoreInner.ensureOpenSegment
  split
  · rename_i hSame
    obtain ⟨opened, hOpen, hConfig⟩ := (Option.any_eq_true _ _).mp hSame
    exact ⟨inner, opened, rfl, h, hOpen, eq_of_beq hConfig, rfl, List.prefix_refl _⟩
  · obtain ⟨sealed, hSeal, hReady, hNone, hRetained, hPrefix⟩ := h.seal
    have hFiles := hReady.sound.openFiles
    rw [hNone] at hFiles
    rw [hSeal]
    dsimp only
    rw [if_neg (by rw [List.forall₂_nil_left_iff.mp hFiles]; exact List.not_mem_nil)]
    refine ⟨_, _, rfl, hReady.fresh hNone, rfl, rfl, ?_, hPrefix⟩
    rw [← hRetained, FileLogStoreInner.retained, FileLogStoreInner.retained, openEntries_of_none hNone]
    rfl

theorem followEntries_append (state : ConfigurationState) (front back : List LogEntry) :
    followEntries state (front ++ back) =
      (followEntries state front >>= fun state => followEntries state back) := by
  induction front generalizing state with
  | nil => rfl
  | cons entry front ih =>
    simp only [List.cons_append, followEntries]
    cases state.validateEntry entry with
    | ok next => exact ih next
    | error error => rfl

theorem Ready.write {inner : FileLogStoreInner} {opened : OpenSegment} {chunk pending : List LogEntry}
    (h : Ready inner (chunk ++ pending)) (hOpen : inner.openSegment = some opened)
    (hConfig : ∀ entry ∈ chunk, entry.configId = opened.configId)
    (hLimit : (opened.entries ++ chunk).length ≤ openSegmentMaxEntries ∧
      bodyBytes (opened.entries ++ chunk) ≤ openSegmentMaxBytes ∨
      (opened.entries ++ chunk).length = 1) :
    ∃ after, inner.writeChunk opened chunk = .ok after ∧ Ready after pending ∧
      after.retained = inner.retained ++ chunk ∧ after.segments = inner.segments ∧
      after.openSegment ≠ none := by
  obtain ⟨final, hFollow⟩ := h.follows
  rw [followEntries_append] at hFollow
  obtain ⟨state, hChunk, hRest⟩ := bind_ok_iff.mp hFollow
  have hSound := h.sound.opened opened hOpen
  have hRetained : inner.segments.flatten ++ (opened.entries ++ chunk) = inner.retained ++ chunk := by
    rw [retained_of_some hOpen, List.append_assoc]
  have hIncreasing := h.increasing
  rw [← List.append_assoc, ← hRetained] at hIncreasing
  let dir : Directory := { inner.dir with opened := inner.dir.opened.map fun file =>
    if file.1 = opened.start then (file.1, file.2 ++ chunk.flatMap encodeFrame) else file }
  refine ⟨{ inner with
      dir
      openSegment := some { opened with
        bytesLen := opened.bytesLen + (chunk.flatMap encodeFrame).length
        entries := opened.entries ++ chunk }
      configurationState := state }, ?_, ⟨⟨h.sound.closed, ?_, ?_, h.sound.closedFiles, ?_⟩,
    hIncreasing, ⟨final, hRest⟩, ?_⟩, hRetained, rfl, Option.some_ne_none _⟩
  · rw [FileLogStoreInner.writeChunk, hChunk]
    rfl
  · intro after hAfter
    rw [← Option.some.inj hAfter]
    refine ⟨?_, ?_, hLimit⟩
    · rw [bodyBytes_append, ← hSound.bytesLen]
    · intro entry hEntry
      exact (List.mem_append.mp hEntry).elim (hSound.config entry) (hConfig entry)
  · exact (List.pairwise_append.mp hIncreasing).1
  · obtain ⟨file, hDir, hStart, first, hIndex, hId, hBytes⟩ := h.sound.open_file hOpen
    change List.Forall₂ OpenFile [_] (inner.dir.opened.map _)
    rw [hDir, List.map_singleton, if_pos hStart]
    refine .cons ⟨hStart, first, hIndex, hId, ?_⟩ .nil
    rw [hBytes, List.flatMap_append, List.append_assoc]
  · have hFits := h.fits
    rw [openBytes_of_some hOpen, List.flatMap_append, List.length_append] at hFits
    change opened.bytesLen + _ + _ < _
    omega

omit [Sha256] in
/-- One round may pass without an entry written: where the open segment holds some. -/
def stale (inner : FileLogStoreInner) : Nat := if inner.openEntries = [] then 0 else 1

theorem sealOpenSegment_none {inner after : FileLogStoreInner}
    (h : inner.sealOpenSegment = .ok after) : after.openSegment = none := by
  unfold FileLogStoreInner.sealOpenSegment at h
  split at h
  · rename_i hNone
    rw [← Except.ok.inj h]
    exact hNone
  · split at h
    · obtain ⟨_, -, h⟩ := bind_ok_iff.mp h
      obtain ⟨_, -, h⟩ := bind_ok_iff.mp h
      rw [← Except.ok.inj h]
    · rw [← Except.ok.inj h]

theorem ensureOpenSegment_some {inner after : FileLogStoreInner} {first : LogEntry}
    (h : inner.ensureOpenSegment first = .ok after) :
    (∃ opened, after.openSegment = some opened) ∧ stale after ≤ stale inner := by
  unfold FileLogStoreInner.ensureOpenSegment at h
  split at h
  · rename_i hSame
    obtain ⟨opened, hOpen, -⟩ := (Option.any_eq_true _ _).mp hSame
    rw [← Except.ok.inj h]
    exact ⟨⟨opened, hOpen⟩, Nat.le_refl _⟩
  · split at h
    · cases h
    · split at h
      · cases h
      · rw [← Except.ok.inj h]
        exact ⟨⟨_, rfl⟩, Nat.zero_le _⟩

theorem fillSegments_returns {rounds : Nat} (inner : FileLogStoreInner) (entries : List LogEntry)
    (h : 2 * entries.length + stale inner ≤ rounds) :
    ∃ result, inner.fillSegments rounds entries = some result ∧
      ∀ after, result = .ok after → entries ≠ [] → after.openSegment ≠ none := by
  induction rounds generalizing inner entries with
  | zero =>
    have hNil : entries = [] := List.length_eq_zero_iff.mp (by omega)
    subst hNil
    exact ⟨.ok inner, rfl, fun _ _ hNe => absurd rfl hNe⟩
  | succ rounds ih =>
    cases entries with
    | nil => exact ⟨.ok inner, rfl, fun _ _ hNe => absurd rfl hNe⟩
    | cons first rest =>
      unfold FileLogStoreInner.fillSegments
      cases hEnsure : inner.ensureOpenSegment first with
      | error error => exact ⟨.error error, rfl, fun _ hOk => nomatch hOk⟩
      | ok ensured =>
        obtain ⟨⟨opened, hOpen⟩, hStale⟩ := ensureOpenSegment_some hEnsure
        dsimp only
        rw [hOpen]
        dsimp only
        cases hChunk : openSegmentChunkLen opened (first :: rest) with
        | error error => exact ⟨.error (.log error), rfl, fun _ hOk => nomatch hOk⟩
        | ok chunkLen =>
          dsimp only
          split
          · rename_i hZero
            -- the segment is full, so it was not fresh
            have hFull : opened.entries ≠ [] := fun hEmpty => chunkLen_pos hEmpty hChunk hZero
            have hEntries : ensured.openEntries ≠ [] := by
              rw [openEntries_of_some hOpen]
              exact hFull
            rw [stale, if_neg hEntries] at hStale
            cases hSeal : ensured.sealOpenSegment with
            | error error => exact ⟨.error (.log error), rfl, fun _ hOk => nomatch hOk⟩
            | ok closed =>
              have hFresh : stale closed = 0 :=
                if_pos (openEntries_of_none (sealOpenSegment_none hSeal))
              exact ih closed (first :: rest) (by omega)
          · rename_i hSome
            cases hWrite : ensured.writeChunk opened ((first :: rest).take chunkLen) with
            | error error => exact ⟨.error (.log error), rfl, fun _ hOk => nomatch hOk⟩
            | ok written =>
              have hOne : stale written ≤ 1 := by
                unfold stale
                split <;> omega
              have hShorter : ((first :: rest).drop chunkLen).length ≤ rest.length := by
                rw [List.length_drop, List.length_cons]
                omega
              rw [List.length_cons] at h
              obtain ⟨result, hFill, hOpened⟩ := ih written
                ((first :: rest).drop chunkLen) (by omega)
              refine ⟨result, hFill, fun after hAfter _ => ?_⟩
              by_cases hNil : (first :: rest).drop chunkLen = []
              · rw [hNil] at hFill
                have hSame : result = .ok written := by
                  cases rounds <;> exact (Option.some.inj hFill).symm
                rw [hAfter] at hSame
                rw [Except.ok.inj hSame]
                obtain ⟨_, -, hWrite⟩ := bind_ok_iff.mp hWrite
                rw [← Except.ok.inj hWrite]
                exact Option.some_ne_none _
              · exact hOpened after hAfter hNil

structure Written (inner : FileLogStoreInner) (entries : List LogEntry) (after : FileLogStoreInner) :
    Prop where
  retained : after.retained = inner.retained ++ entries
  segments : inner.segments <+: after.segments

theorem fillSegments_writes {rounds : Nat} {inner : FileLogStoreInner}
    {entries pending : List LogEntry} {configId : Nat}
    {result : Except AppendError FileLogStoreInner} (h : Ready inner (entries ++ pending))
    (hConfig : ∀ entry ∈ entries, entry.configId = configId)
    (hFill : inner.fillSegments rounds entries = some result) :
    ∃ after, result = .ok after ∧ Ready after pending ∧ Written inner entries after := by
  induction rounds generalizing inner entries with
  | zero =>
    cases entries with
    | nil =>
      exact ⟨inner, (Option.some.inj hFill).symm, h, (List.append_nil _).symm, List.prefix_refl _⟩
    | cons first rest => cases hFill
  | succ rounds ih =>
    cases entries with
    | nil =>
      exact ⟨inner, (Option.some.inj hFill).symm, h, (List.append_nil _).symm, List.prefix_refl _⟩
    | cons first rest =>
      obtain ⟨ensured, opened, hEnsure, hReady, hOpen, hSame, hRetained, hPrefix⟩ :=
        h.ensure first
      have hOpened := hReady.sound.opened opened hOpen
      have hFits := hReady.fits
      rw [openBytes_of_some hOpen, List.flatMap_append, List.length_append] at hFits
      have hCount : opened.entries.length ≤ opened.bytesLen := by
        rw [hOpened.bytesLen]
        exact Nat.le_trans (length_le_frames _) (Nat.le_add_left _ _)
      obtain ⟨chunkLen, hChunk, hLength, hCase⟩ := chunkLenFrom_fits opened 0 hCount
        (by omega : opened.bytesLen + ((first :: rest).flatMap encodeFrame).length < usizeBound)
      rw [Nat.zero_add] at hChunk
      unfold FileLogStoreInner.fillSegments at hFill
      rw [hEnsure] at hFill
      dsimp only at hFill
      rw [hOpen] at hFill
      dsimp only at hFill
      rw [openSegmentChunkLen, hChunk] at hFill
      dsimp only at hFill
      split at hFill
      · obtain ⟨closed, hSeal, hReady, -, hKept, hClosed⟩ := hReady.seal
        rw [hSeal] at hFill
        obtain ⟨after, hResult, hAfter, hWritten⟩ := ih hReady hConfig hFill
        exact ⟨after, hResult, hAfter, by rw [hWritten.retained, hKept, hRetained],
          hPrefix.trans (hClosed.trans hWritten.segments)⟩
      · rename_i hSome
        rw [← List.take_append_drop chunkLen (first :: rest), List.append_assoc] at hReady
        have hFirst := hConfig first List.mem_cons_self
        have hChunkConfig : ∀ entry ∈ (first :: rest).take chunkLen,
            entry.configId = opened.configId := fun entry hEntry => by
          rw [hSame, hFirst, hConfig entry (List.mem_of_mem_take hEntry)]
        have hTaken : ((first :: rest).take chunkLen).length = chunkLen := by
          rw [List.length_take, Nat.min_eq_left hLength]
        obtain ⟨written, hWrite, hWritten, hNow, hSegments, -⟩ := hReady.write hOpen hChunkConfig (by
          rw [List.length_append, hTaken, bodyBytes_append, ← hOpened.bytesLen]
          rcases hCase with hZero | ⟨hEmpty, -, hOne⟩ | hWithin
          · exact absurd hZero hSome
          · exact .inr (by rw [hEmpty, List.length_nil, hOne])
          · exact .inl hWithin)
        rw [hWrite] at hFill
        obtain ⟨after, hResult, hAfter, hMore⟩ := ih hWritten
          (fun entry hEntry => hConfig entry (List.mem_of_mem_drop hEntry)) hFill
        refine ⟨after, hResult, hAfter, ?_, hPrefix.trans (hSegments ▸ hMore.segments)⟩
        rw [hMore.retained, hNow, hRetained, List.append_assoc, List.take_append_drop]

theorem fillRuns_returns {rounds : Nat} (inner : FileLogStoreInner) {runs : List (List LogEntry)}
    (h : ∀ run ∈ runs, run ≠ [] ∧ 2 * run.length < rounds) :
    ∃ result, inner.fillRuns rounds runs = some result ∧
      ∀ after, result = .ok after → runs ≠ [] → after.openSegment ≠ none := by
  induction runs generalizing inner with
  | nil => exact ⟨.ok inner, rfl, fun _ _ hNe => absurd rfl hNe⟩
  | cons run runs ih =>
    obtain ⟨⟨hNe, hRounds⟩, hRest⟩ := List.forall_mem_cons.mp h
    have hOne : stale inner ≤ 1 := by
      unfold stale
      split <;> omega
    obtain ⟨result, hFill, hOpened⟩ := fillSegments_returns inner run
      (by omega : 2 * run.length + stale inner ≤ rounds)
    rw [FileLogStoreInner.fillRuns, hFill]
    cases result with
    | error error => exact ⟨.error error, rfl, fun _ hOk => nomatch hOk⟩
    | ok filled =>
      obtain ⟨result, hRuns, hLast⟩ := ih filled hRest
      refine ⟨result, hRuns, fun after hAfter _ => ?_⟩
      by_cases hNil : runs = []
      · rw [hNil] at hRuns
        rw [hAfter] at hRuns
        rw [← Except.ok.inj (Option.some.inj hRuns)]
        exact hOpened filled rfl hNe
      · exact hLast after hAfter hNil

theorem fillRuns_writes {rounds : Nat} {inner : FileLogStoreInner} {runs : List (List LogEntry)}
    {result : Except AppendError FileLogStoreInner} (h : Ready inner runs.flatten)
    (hConfig : ∀ run ∈ runs, ∃ configId, ∀ entry ∈ run, entry.configId = configId)
    (hFill : inner.fillRuns rounds runs = some result) :
    ∃ after, result = .ok after ∧ Ready after [] ∧ Written inner runs.flatten after := by
  induction runs generalizing inner with
  | nil => exact ⟨inner, (Option.some.inj hFill).symm, h, (List.append_nil _).symm, List.prefix_refl _⟩
  | cons run runs ih =>
    obtain ⟨⟨configId, hRun⟩, hRuns⟩ := List.forall_mem_cons.mp hConfig
    rw [FileLogStoreInner.fillRuns] at hFill
    cases hFirst : inner.fillSegments rounds run with
    | none =>
      rw [hFirst] at hFill
      cases hFill
    | some first =>
      obtain ⟨filled, rfl, hFilled, hWritten⟩ := fillSegments_writes h hRun hFirst
      rw [hFirst] at hFill
      obtain ⟨after, hResult, hAfter, hMore⟩ := ih hFilled hRuns hFill
      refine ⟨after, hResult, hAfter, ?_, hWritten.segments.trans hMore.segments⟩
      rw [hMore.retained, hWritten.retained, List.flatten_cons, List.append_assoc]

end Append

end Rhiza.Log
