import Mathlib.Data.List.Sort
import Rhiza.Log.AnchorCodec
import Rhiza.Log.Torn

/-! # Reopening a log after its anchor was set

The directory of a log between two calls: its anchor, its closed segments and at most one
open segment. An anchor is set by compaction, which drops the segments below it, or by
installing it into an empty log.
-/

namespace Rhiza.Log

open Core Library

structure IndexRange where
  start : Nat
  stop : Nat
  deriving DecidableEq

structure Directory where
  anchor : Option Bytes
  closed : List (IndexRange × Bytes)
  opened : List (Nat × Bytes)
  deriving DecidableEq

structure FileLogStore where
  clusterId : ClusterId
  epoch : Nat
  initialConfiguration : ConfigurationState
  configurationState : ConfigurationState
  anchor : Option RecoveryAnchor
  segments : List (List LogEntry)
  openSegment : Option (List LogEntry)
  deriving DecidableEq

def IndexRange.new (start stop : Nat) : Result IndexRange :=
  if start ≤ stop then .ok ⟨start, stop⟩ else .error (.invalidIndexRange start stop)

def precedes (a b : IndexRange × Bytes) : Bool :=
  a.1.start < b.1.start ∨ (a.1.start = b.1.start ∧ a.1.stop ≤ b.1.stop)

section Store

variable [Sha256]

def followEntries (state : ConfigurationState) : List LogEntry → Result ConfigurationState
  | [] => .ok state
  | entry :: entries =>
    match state.validateEntry entry with
    | .ok state => followEntries state entries
    | .error error => .error (.decode error.message)

def readAnchor (dir : Directory) : Result (Option RecoveryAnchor) :=
  match dir.anchor with
  | none => .ok none
  | some bytes => (decodeAnchor bytes).map some

omit [Sha256] in
def validateAnchorIdentity (anchor : Option RecoveryAnchor) (clusterId : ClusterId) (epoch : Nat) :
    Result Unit :=
  match anchor with
  | none => .ok ()
  | some anchor => do
    validateAnchor anchor
    ensure (anchor.clusterId = clusterId ∧ anchor.epoch = epoch)
      (.decode "recovery anchor does not match configured cluster/epoch")

omit [Sha256] in
def firstRetained (anchor : Option RecoveryAnchor) : Result (Nat × LogHash) :=
  match anchor with
  | some anchor => (checkedSucc anchor.compacted.index).elim
      (.error (.decode "qlog anchor index overflow")) fun index => .ok (index, anchor.compacted.hash)
  | none => .ok (1, .zero)

omit [Sha256] in
/-- The checks of `scan_closed_segments` on the place of a segment. -/
def checkPlace (anchor : Option RecoveryAnchor) (previous : Option LogEntry) (first : LogEntry) :
    Result Unit :=
  match previous with
  | none => do
    let (index, prevHash) ← firstRetained anchor
    ensure (first.index = index ∧ first.prevHash = prevHash)
      (.decode "qlog first retained entry does not match recovery anchor")
  | some previous => do
    ensure (checkedSucc previous.index = some first.index) (.decode "qlog index gap across segments")
    ensure (first.prevHash = previous.hash) (.decode "qlog hash chain mismatch across segments")

/-- The loop of `scan_closed_segments`. -/
def scanSegments (clusterId : ClusterId) (epoch : Nat) (anchor : Option RecoveryAnchor) :
    Option LogEntry → ConfigurationState → List (IndexRange × Bytes) →
      Result (List (List LogEntry) × ConfigurationState)
  | _, state, [] => .ok ([], state)
  | previous, state, (range, bytes) :: files => do
    let entries ← decodeSegmentForCluster bytes clusterId
    match entries.head?, entries.getLast? with
    | some first, some last => do
      ensure (first.index = range.start ∧ last.index = range.stop)
        (.decode "qlog segment filename range does not match entries")
      ensure (first.epoch = epoch) (.decode "qlog segment does not match configured epoch")
      checkPlace anchor previous first
      let state ← followEntries state entries
      let (segments, state) ← scanSegments clusterId epoch anchor (some last) state files
      pure (entries :: segments, state)
    | _, _ => .error (.decode "closed qlog segment is empty")

def scanClosedSegments (dir : Directory) (clusterId : ClusterId) (epoch : Nat)
    (initialConfiguration : ConfigurationState) (anchor : Option RecoveryAnchor) :
    Result (List (List LogEntry) × ConfigurationState) :=
  scanSegments clusterId epoch anchor none ((anchor.map (·.configurationState)).getD initialConfiguration)
    (dir.closed.mergeSort precedes)

omit [Sha256] in
def openStart (anchor : Option RecoveryAnchor) (segments : List (List LogEntry)) :
    Result (Nat × LogHash) :=
  match segments.getLast?.bind (·.getLast?) with
  | some last => (checkedSucc last.index).elim (.error (.decode "qlog index overflow")) fun index =>
      .ok (index, last.hash)
  | none => firstRetained anchor

/-- `scan_open_segment`, with the open segments that it leaves in the directory. -/
def scanOpenSegment (opened : List (Nat × Bytes)) (clusterId : ClusterId) (epoch : Nat)
    (anchor : Option RecoveryAnchor) (segments : List (List LogEntry)) (state : ConfigurationState) :
    Result (Option (List LogEntry) × ConfigurationState × List (Nat × Bytes)) :=
  match opened with
  | [] => .ok (none, state, [])
  | [(start, bytes)] => do
    let (header, _) ← decodeHeader bytes clusterId
    ensure (header.startIndex = start ∧ header.epoch = epoch)
      (.decode "open qlog filename or epoch does not match header")
    let (entries, validLen) ← recoverOpenSegmentPrefix bytes clusterId
    if entries ∈ segments ∧ (entries.head?.map (·.index)) = some start then
      -- the segment was closed and its open file is still there
      pure (none, state, [])
    else do
      let (index, prevHash) ← openStart anchor segments
      ensure (start = index) (.decode "open qlog does not start at the retained tip")
      ensure (∀ first ∈ entries.head?, first.prevHash = prevHash)
        (.decode "qlog hash chain mismatch before open segment")
      let state ← followEntries state entries
      pure (some entries, state, [(start, bytes.take validLen)])
  | _ => .error (.decode "multiple open qlog segments")

/-- `FileLogStore::open_with_configuration` where no intent is left. -/
def openWithConfiguration (dir : Directory) (clusterId : ClusterId) (epoch : Nat)
    (initialConfiguration : ConfigurationState) : Result (FileLogStore × Directory) := do
  ensure (clusterId ≠ "") (.decode "cluster_id must not be empty")
  let anchor ← readAnchor dir
  validateAnchorIdentity anchor clusterId epoch
  let (segments, state) ← scanClosedSegments dir clusterId epoch initialConfiguration anchor
  let (openSegment, state, opened) ←
    scanOpenSegment dir.opened clusterId epoch anchor segments state
  pure (⟨clusterId, epoch, initialConfiguration, state, anchor, segments, openSegment⟩,
    { dir with opened })

structure CompactIntent where
  previousAnchor : Option RecoveryAnchor
  anchor : RecoveryAnchor
  oldSegments : List IndexRange
  replacement : Option (IndexRange × Bytes)

def installAnchor (dir : Directory) (previous : Option RecoveryAnchor) (anchor : RecoveryAnchor) :
    Result Directory := do
  let current ← readAnchor dir
  if current = some anchor then pure dir
  else if current ≠ previous then .error (.compactionConflict anchor.compacted.index)
  else do
    let bytes ← encodeAnchor anchor
    pure { dir with anchor := some bytes }

def installRecoveryAnchor (store : FileLogStore) (dir : Directory) (anchor : RecoveryAnchor)
    (expectedGeneration : Nat) (expectedConfiguration : ConfigurationState) :
    Result (FileLogStore × Directory) := do
  validateAnchor anchor
  validateAnchorIdentity (some anchor) store.clusterId store.epoch
  ensure (anchor.recoveryGeneration = expectedGeneration)
    (.decode "recovery anchor generation does not match expected generation")
  ensure (anchor.configurationState = expectedConfiguration)
    (.decode "recovery anchor configuration state does not match expected state")
  ensure (store.anchor = none ∧ store.segments = [] ∧ store.openSegment = none)
    (.decode "recovery anchor installation requires an empty qlog store")
  let dir ← installAnchor dir none anchor
  pure ({ store with anchor := some anchor, configurationState := anchor.configurationState }, dir)

namespace FileLogStore

variable (store : FileLogStore)

omit [Sha256] in
def retained : List LogEntry := store.segments.flatten ++ store.openSegment.getD []

omit [Sha256] in
def lastIndex : Option Nat :=
  ((store.openSegment.bind (·.getLast?)).map (·.index)).orElse fun _ =>
    ((store.segments.getLast?.bind (·.getLast?)).map (·.index)).orElse fun _ =>
      store.anchor.map (·.compacted.index)

def configurationStateAt (target : Nat) : Result ConfigurationState :=
  let start := (store.anchor.map (·.compacted.index)).getD 0
  let state := (store.anchor.map (·.configurationState)).getD store.initialConfiguration
  if target = start then .ok state
  else do
    let below := store.retained.takeWhile fun entry => entry.index ≤ target
    let state ← followEntries state below
    if below.getLast?.map (·.index) = some target then pure state
    else .error (.compactionAboveTip target store.lastIndex)

/-- The comparison of `validate_compaction` with the current anchor. -/
def compareAnchor (anchor : RecoveryAnchor) : Result Bool :=
  match store.anchor with
  | none => .ok true
  | some current =>
    if anchor.compacted.index < current.compacted.index then
      .error (.compactionRegression anchor.compacted.index current.compacted.index)
    else if anchor.compacted.index = current.compacted.index then
      if current = anchor then .ok false else .error (.compactionConflict anchor.compacted.index)
    else if anchor.recoveryGeneration ≠ current.recoveryGeneration then
      .error (.compactionConflict anchor.compacted.index)
    else .ok true

/-- `validate_compaction`; false where there is nothing to do. -/
def validateCompaction (anchor : RecoveryAnchor) : Result Bool := do
  validateAnchor anchor
  validateAnchorIdentity (some anchor) store.clusterId store.epoch
  let target := anchor.compacted.index
  ensure (∃ tip ∈ store.lastIndex, target ≤ tip) (.compactionAboveTip target store.lastIndex)
  let state ← store.configurationStateAt target
  ensure (state = anchor.configurationState) (.compactionConflict target)
  if ← store.compareAnchor anchor then
    match store.retained.find? fun entry => entry.index = target with
    | none => .error (.compactionAboveTip target store.lastIndex)
    | some entry => do
      ensure (entry.hash = anchor.compacted.hash) (.compactionHashMismatch target)
      pure true
  else pure false

def sealOpenSegment (dir : Directory) : Result (FileLogStore × Directory) :=
  match store.openSegment with
  | none => .ok (store, dir)
  | some entries =>
    match entries.head?, entries.getLast? with
    | some first, some last => do
      let range ← IndexRange.new first.index last.index
      match dir.closed.lookup range with
      | some existing => do
        let found ← decodeSegmentForCluster existing store.clusterId
        ensure (found = entries) (.decode "open and closed qlog segments disagree")
        pure ({ store with openSegment := none, segments := store.segments ++ [entries] },
          { dir with opened := [] })
      | none =>
        pure ({ store with openSegment := none, segments := store.segments ++ [entries] },
          { dir with opened := [], closed := dir.closed ++ [(range, encodeSegment entries)] })
    | _, _ => .ok ({ store with openSegment := none }, { dir with opened := [] })

def rangeOf (entries : List LogEntry) : IndexRange :=
  ⟨(entries.head?.map (·.index)).getD 0, (entries.getLast?.map (·.index)).getD 0⟩

def replacementOf (old : List (List LogEntry)) (target : Nat) : Option (IndexRange × Bytes) :=
  match old.getLast? with
  | none => none
  | some segment =>
    let entries := segment.filter fun entry => target < entry.index
    if entries = [] then none else some (rangeOf entries, encodeSegment entries)

/-- The intent of `compact_prefix_with_hook`. -/
def compactIntent (anchor : RecoveryAnchor) : CompactIntent :=
  let target := anchor.compacted.index
  let old := store.segments.takeWhile fun segment => (rangeOf segment).start ≤ target
  ⟨store.anchor, anchor, old.map rangeOf, replacementOf old target⟩

end FileLogStore

omit [Sha256] in
/-- `validate_compact_intent`; the names of the files are right by their construction. -/
def validateCompactIntent (intent : CompactIntent) : Result Unit := do
  validateAnchor intent.anchor
  ensure (intent.oldSegments ≠ []) (.decode "compact intent has no old segments")
  match intent.previousAnchor with
  | none => pure ()
  | some previous => do
    validateAnchor previous
    ensure (previous.clusterId = intent.anchor.clusterId ∧ previous.epoch = intent.anchor.epoch ∧
        previous.recoveryGeneration = intent.anchor.recoveryGeneration ∧
        previous.compacted.index < intent.anchor.compacted.index)
      (.decode "compact intent anchor regression or conflict")
  ensure intent.oldSegments.Nodup (.decode "duplicate compact segment name")
  match intent.replacement with
  | none => pure ()
  | some (range, _) => do
    ensure (range ∉ intent.oldSegments) (.decode "compact replacement overlaps old segment name")
    ensure (checkedSucc intent.anchor.compacted.index = some range.start)
      (.decode "compact replacement does not start after anchor")

omit [Sha256] in
def installReplacement (dir : Directory) (replacement : Option (IndexRange × Bytes)) :
    Result Directory :=
  match replacement with
  | none => .ok dir
  | some (range, bytes) =>
    match dir.closed.lookup range with
    | none => .ok { dir with closed := dir.closed ++ [(range, bytes)] }
    | some existing => do
      ensure (existing = bytes) (.decode "compact replacement files disagree")
      pure dir

/-- `publish_compact_intent` and `apply_compact_intent`. -/
def applyCompactIntent (dir : Directory) (intent : CompactIntent) : Result Directory := do
  validateCompactIntent intent
  let dir ← installAnchor dir intent.previousAnchor intent.anchor
  installReplacement
    { dir with closed := dir.closed.filter fun file => file.1 ∉ intent.oldSegments }
    intent.replacement

def compactPrefixWithHook (store : FileLogStore) (dir : Directory) (anchor : RecoveryAnchor) :
    Result Directory := do
  if ← store.validateCompaction anchor then applyCompactIntent dir (store.compactIntent anchor)
  else pure dir

def compactPrefix (store : FileLogStore) (dir : Directory) (anchor : RecoveryAnchor) :
    Result (FileLogStore × Directory) := do
  if ← store.validateCompaction anchor then do
    let (store, dir) ← store.sealOpenSegment dir
    let dir ← compactPrefixWithHook store dir anchor
    let anchor ← readAnchor dir
    let (segments, state) ← scanClosedSegments dir store.clusterId store.epoch
      store.initialConfiguration anchor
    pure ({ store with anchor, segments, configurationState := state }, dir)
  else pure (store, dir)

def Settled (store : FileLogStore) (dir : Directory) : Prop :=
  openWithConfiguration dir store.clusterId store.epoch store.initialConfiguration = .ok (store, dir)

def Reopens (store : FileLogStore) (dir : Directory) (anchor : RecoveryAnchor) : Prop :=
  ∃ reopened dir', openWithConfiguration dir store.clusterId store.epoch store.initialConfiguration =
    .ok (reopened, dir') ∧ reopened.anchor = some anchor

section Reopening

variable {store store' : FileLogStore} {dir dir' : Directory} {anchor : RecoveryAnchor}

theorem scanSegments_length {clusterId : ClusterId} {epoch : Nat} {found : Option RecoveryAnchor}
    {previous : Option LogEntry} {state state' : ConfigurationState} {files : List (IndexRange × Bytes)}
    {segments : List (List LogEntry)}
    (h : scanSegments clusterId epoch found previous state files = .ok (segments, state')) :
    segments.length = files.length := by
  induction files generalizing previous state state' segments with
  | nil =>
    obtain ⟨rfl, -⟩ := Prod.mk.inj (Except.ok.inj h)
    rfl
  | cons file files ih =>
    obtain ⟨entries, -, h⟩ := bind_ok_iff.mp h
    dsimp only at h
    split at h
    · obtain ⟨_, -, h⟩ := bind_ok_iff.mp h
      obtain ⟨_, -, h⟩ := bind_ok_iff.mp h
      obtain ⟨_, -, h⟩ := bind_ok_iff.mp h
      obtain ⟨_, -, h⟩ := bind_ok_iff.mp h
      obtain ⟨⟨rest, _⟩, hRest, h⟩ := bind_ok_iff.mp h
      obtain ⟨rfl, -⟩ := Prod.mk.inj (Except.ok.inj h)
      rw [List.length_cons, List.length_cons, ih hRest]
    · cases h

theorem scanOpenSegment_none {opened : List (Nat × Bytes)} {clusterId : ClusterId} {epoch : Nat}
    {found : Option RecoveryAnchor} {segments : List (List LogEntry)} {state state' : ConfigurationState}
    (h : scanOpenSegment opened clusterId epoch found segments state = .ok (none, state', opened)) :
    opened = [] := by
  unfold scanOpenSegment at h
  split at h
  · rfl
  · obtain ⟨_, -, h⟩ := bind_ok_iff.mp h
    obtain ⟨_, -, h⟩ := bind_ok_iff.mp h
    obtain ⟨_, -, h⟩ := bind_ok_iff.mp h
    dsimp only at h
    split at h
    · cases h
    · obtain ⟨_, -, h⟩ := bind_ok_iff.mp h
      obtain ⟨_, -, h⟩ := bind_ok_iff.mp h
      obtain ⟨_, -, h⟩ := bind_ok_iff.mp h
      obtain ⟨_, -, h⟩ := bind_ok_iff.mp h
      cases h
  · cases h

theorem Settled.found (h : Settled store dir) :
    store.clusterId ≠ "" ∧ readAnchor dir = .ok store.anchor ∧
      (∃ state, scanClosedSegments dir store.clusterId store.epoch store.initialConfiguration
        store.anchor = .ok (store.segments, state) ∧
        scanOpenSegment dir.opened store.clusterId store.epoch store.anchor store.segments state =
          .ok (store.openSegment, store.configurationState, dir.opened)) := by
  obtain ⟨⟨⟩, hCluster, h⟩ := bind_ok_iff.mp h
  obtain ⟨found, hAnchor, h⟩ := bind_ok_iff.mp h
  obtain ⟨⟨⟩, -, h⟩ := bind_ok_iff.mp h
  obtain ⟨⟨segments, state⟩, hScan, h⟩ := bind_ok_iff.mp h
  obtain ⟨⟨openSegment, state', opened⟩, hOpen, h⟩ := bind_ok_iff.mp h
  obtain ⟨hStore, hDir⟩ := Prod.mk.inj (Except.ok.inj h)
  have hFound : store.anchor = found := (congrArg FileLogStore.anchor hStore).symm
  have hSegments : store.segments = segments := (congrArg FileLogStore.segments hStore).symm
  have hSegment : store.openSegment = openSegment := (congrArg FileLogStore.openSegment hStore).symm
  have hState : store.configurationState = state' :=
    (congrArg FileLogStore.configurationState hStore).symm
  have hOpened : dir.opened = opened := (congrArg Directory.opened hDir).symm
  rw [hFound, hSegments, hSegment, hState]
  refine ⟨ensure_ok_iff.mp hCluster, hAnchor, state, hScan, ?_⟩
  rw [hOpen, ← hOpened]

theorem reopens_of_scan {segments : List (List LogEntry)} {state : ConfigurationState}
    (hCluster : store.clusterId ≠ "") (hOpened : dir.opened = [])
    (hAnchor : readAnchor dir = .ok (some anchor))
    (hIdentity : validateAnchorIdentity (some anchor) store.clusterId store.epoch = .ok ())
    (hScan : scanClosedSegments dir store.clusterId store.epoch store.initialConfiguration
      (some anchor) = .ok (segments, state)) : Reopens store dir anchor := by
  refine ⟨⟨store.clusterId, store.epoch, store.initialConfiguration, state, some anchor, segments,
    none⟩, dir, ?_, rfl⟩
  rw [openWithConfiguration, ensure_of hCluster, ok_bind, hAnchor, ok_bind, hIdentity, ok_bind, hScan,
    ok_bind]
  dsimp only
  rw [hOpened, scanOpenSegment, ok_bind]
  dsimp only
  rw [← hOpened]
  rfl

theorem readAnchor_installAnchor {previous : Option RecoveryAnchor}
    (hCodec : ∀ bytes, encodeAnchor anchor = .ok bytes → decodeAnchor bytes = .ok anchor)
    (h : installAnchor dir previous anchor = .ok dir') :
    readAnchor dir' = .ok (some anchor) ∧ dir'.closed = dir.closed ∧ dir'.opened = dir.opened := by
  obtain ⟨current, hCurrent, h⟩ := bind_ok_iff.mp h
  split at h
  · rename_i hSame
    obtain rfl := Except.ok.inj h
    exact ⟨hCurrent.trans (congrArg _ hSame), rfl, rfl⟩
  · split at h
    · cases h
    · obtain ⟨bytes, hBytes, h⟩ := bind_ok_iff.mp h
      obtain rfl := Except.ok.inj h
      refine ⟨?_, rfl, rfl⟩
      rw [readAnchor]
      dsimp only
      rw [hCodec bytes hBytes]
      rfl

theorem reopens_of_installRecoveryAnchor (hSettled : Settled store dir)
    (hCodec : ∀ bytes, encodeAnchor anchor = .ok bytes → decodeAnchor bytes = .ok anchor)
    {generation : Nat} {configuration : ConfigurationState}
    (h : installRecoveryAnchor store dir anchor generation configuration = .ok (store', dir')) :
    Reopens store dir' anchor := by
  obtain ⟨hCluster, -, state, hScan, hOpen⟩ := hSettled.found
  obtain ⟨⟨⟩, -, h⟩ := bind_ok_iff.mp h
  obtain ⟨⟨⟩, hIdentity, h⟩ := bind_ok_iff.mp h
  obtain ⟨⟨⟩, -, h⟩ := bind_ok_iff.mp h
  obtain ⟨⟨⟩, -, h⟩ := bind_ok_iff.mp h
  obtain ⟨⟨⟩, hEmpty, h⟩ := bind_ok_iff.mp h
  obtain ⟨-, hSegments, hSegment⟩ := ensure_ok_iff.mp hEmpty
  obtain ⟨written, hInstall, h⟩ := bind_ok_iff.mp h
  obtain ⟨-, rfl⟩ := Prod.mk.inj (Except.ok.inj h)
  obtain ⟨hRead, hClosed, hOpened⟩ := readAnchor_installAnchor hCodec hInstall
  rw [hSegment] at hOpen
  have hNoOpen : written.opened = [] := hOpened.trans (scanOpenSegment_none hOpen)
  have hLength := scanSegments_length hScan
  rw [hSegments, List.length_mergeSort] at hLength
  have hNoClosed : written.closed = [] := hClosed.trans (List.length_eq_zero_iff.mp hLength.symm)
  have hRescan : scanClosedSegments written store.clusterId store.epoch store.initialConfiguration
      (some anchor) = .ok ([], anchor.configurationState) := by
    rw [scanClosedSegments, hNoClosed, List.mergeSort_nil]
    rfl
  exact reopens_of_scan hCluster hNoOpen hRead hIdentity hRescan

theorem sealOpenSegment_spec (hSettled : Settled store dir)
    (h : store.sealOpenSegment dir = .ok (store', dir')) :
    dir'.opened = [] ∧ dir'.anchor = dir.anchor ∧ store'.anchor = store.anchor ∧
      store'.clusterId = store.clusterId ∧ store'.epoch = store.epoch ∧
      store'.initialConfiguration = store.initialConfiguration := by
  obtain ⟨-, -, state, -, hOpen⟩ := hSettled.found
  unfold FileLogStore.sealOpenSegment at h
  split at h
  · rename_i hNone
    obtain ⟨rfl, rfl⟩ := Prod.mk.inj (Except.ok.inj h)
    rw [hNone] at hOpen
    exact ⟨scanOpenSegment_none hOpen, rfl, rfl, rfl, rfl, rfl⟩
  · split at h
    · obtain ⟨range, -, h⟩ := bind_ok_iff.mp h
      split at h
      · obtain ⟨found, -, h⟩ := bind_ok_iff.mp h
        obtain ⟨_, -, h⟩ := bind_ok_iff.mp h
        obtain ⟨rfl, rfl⟩ := Prod.mk.inj (Except.ok.inj h)
        exact ⟨rfl, rfl, rfl, rfl, rfl, rfl⟩
      · obtain ⟨rfl, rfl⟩ := Prod.mk.inj (Except.ok.inj h)
        exact ⟨rfl, rfl, rfl, rfl, rfl, rfl⟩
    · obtain ⟨rfl, rfl⟩ := Prod.mk.inj (Except.ok.inj h)
      exact ⟨rfl, rfl, rfl, rfl, rfl, rfl⟩

theorem validateCompaction_spec {needed : Bool} (h : store.validateCompaction anchor = .ok needed) :
    validateAnchorIdentity (some anchor) store.clusterId store.epoch = .ok () ∧
      store.compareAnchor anchor = .ok needed := by
  obtain ⟨⟨⟩, -, h⟩ := bind_ok_iff.mp h
  obtain ⟨⟨⟩, hIdentity, h⟩ := bind_ok_iff.mp h
  obtain ⟨⟨⟩, -, h⟩ := bind_ok_iff.mp h
  obtain ⟨_, -, h⟩ := bind_ok_iff.mp h
  obtain ⟨⟨⟩, -, h⟩ := bind_ok_iff.mp h
  obtain ⟨compared, hCompared, h⟩ := bind_ok_iff.mp h
  refine ⟨hIdentity, ?_⟩
  cases compared with
  | false =>
    obtain rfl := Except.ok.inj h
    exact hCompared
  | true =>
    rw [if_pos rfl] at h
    split at h
    · cases h
    · obtain ⟨_, -, h⟩ := bind_ok_iff.mp h
      obtain rfl := Except.ok.inj h
      exact hCompared

omit [Sha256] in
theorem anchor_of_compareAnchor_false (h : store.compareAnchor anchor = .ok false) :
    store.anchor = some anchor := by
  unfold FileLogStore.compareAnchor at h
  split at h
  · cases h
  · rename_i current hCurrent
    split at h
    · cases h
    · split at h
      · split at h
        · rename_i hSame
          rw [hCurrent, hSame]
        · cases h
      · split at h
        · cases h
        · cases h

theorem applyCompactIntent_spec {intent : CompactIntent}
    (hCodec : ∀ bytes, encodeAnchor intent.anchor = .ok bytes → decodeAnchor bytes = .ok intent.anchor)
    (h : applyCompactIntent dir intent = .ok dir') :
    readAnchor dir' = .ok (some intent.anchor) ∧ dir'.opened = dir.opened := by
  obtain ⟨⟨⟩, -, h⟩ := bind_ok_iff.mp h
  obtain ⟨written, hInstall, h⟩ := bind_ok_iff.mp h
  obtain ⟨hRead, -, hOpened⟩ := readAnchor_installAnchor hCodec hInstall
  unfold installReplacement at h
  split at h
  · obtain rfl := Except.ok.inj h
    exact ⟨hRead, hOpened⟩
  · split at h
    · obtain rfl := Except.ok.inj h
      exact ⟨hRead, hOpened⟩
    · obtain ⟨_, -, h⟩ := bind_ok_iff.mp h
      obtain rfl := Except.ok.inj h
      exact ⟨hRead, hOpened⟩

theorem reopens_of_compactPrefix (hSettled : Settled store dir)
    (hCodec : ∀ bytes, encodeAnchor anchor = .ok bytes → decodeAnchor bytes = .ok anchor)
    (h : compactPrefix store dir anchor = .ok (store', dir')) : Reopens store dir' anchor := by
  obtain ⟨hCluster, hAnchor, state, hScan, hOpen⟩ := hSettled.found
  obtain ⟨needed, hNeeded, h⟩ := bind_ok_iff.mp h
  obtain ⟨hIdentity, hCompared⟩ := validateCompaction_spec hNeeded
  cases needed with
  | false =>
    obtain ⟨-, rfl⟩ := Prod.mk.inj (Except.ok.inj h)
    exact ⟨store, dir, hSettled, anchor_of_compareAnchor_false hCompared⟩
  | true =>
    rw [if_pos rfl] at h
    obtain ⟨⟨sealed, dir₁⟩, hSeal, h⟩ := bind_ok_iff.mp h
    obtain ⟨hOpened, -, hKept, hSameCluster, hSameEpoch, hSameInitial⟩ :=
      sealOpenSegment_spec hSettled hSeal
    obtain ⟨dir₂, hCompact, h⟩ := bind_ok_iff.mp h
    obtain ⟨found, hFound, h⟩ := bind_ok_iff.mp h
    obtain ⟨⟨segments, state'⟩, hRescan, h⟩ := bind_ok_iff.mp h
    obtain ⟨-, rfl⟩ := Prod.mk.inj (Except.ok.inj h)
    obtain ⟨again, hAgain, hCompact⟩ := bind_ok_iff.mp hCompact
    cases again with
    | false =>
      -- the second validation sees the same anchor and does not change its mind
      have hSame := anchor_of_compareAnchor_false (validateCompaction_spec hAgain).2
      rw [FileLogStore.compareAnchor, ← hKept, hSame] at hCompared
      simp at hCompared
    | true =>
      obtain ⟨hRead, hStill⟩ : readAnchor dir₂ = .ok (some anchor) ∧ dir₂.opened = dir₁.opened :=
        applyCompactIntent_spec hCodec hCompact
      obtain rfl := Except.ok.inj (hRead.symm.trans hFound)
      rw [hSameCluster, hSameEpoch, hSameInitial] at hRescan
      exact reopens_of_scan hCluster (hStill.trans hOpened) hRead hIdentity hRescan

def AnchorKept (anchor : RecoveryAnchor) : Prop :=
  (∃ bytes, encodeAnchor anchor = .ok bytes ∧ decodeAnchor bytes = .ok anchor) ∧
    (∀ store dir, Settled store dir → ∀ generation configuration store' dir',
      installRecoveryAnchor store dir anchor generation configuration = .ok (store', dir') →
        Reopens store dir' anchor) ∧
    ∀ store dir, Settled store dir → ∀ store' dir',
      compactPrefix store dir anchor = .ok (store', dir') → Reopens store dir' anchor

/-- Anchors survive except those of the first format version. -/
theorem anchors_are_kept_iff (anchor : RecoveryAnchor) (hValid : validateAnchor anchor = .ok ())
    (hFits : anchor.Fits) :
    AnchorKept anchor ↔ anchor.formatVersion = recoveryAnchorFormatVersion := by
  have hEncoded := encodeAnchor_eq hValid hFits
  constructor
  · rintro ⟨⟨bytes, hBytes, hDecoded⟩, -⟩
    obtain rfl := Except.ok.inj (hEncoded.symm.trans hBytes)
    obtain ⟨⟨⟩, hVersion, -⟩ := bind_ok_iff.mp hValid
    rcases ensure_ok_iff.mp hVersion with hFirst | hSecond
    · exact absurd hDecoded (decodeAnchor_anchorFile_v1 hFirst)
    · exact hSecond
  · intro hFormat
    have hDecoded := decodeAnchor_anchorFile hValid hFits hFormat
    have hCodec : ∀ bytes, encodeAnchor anchor = .ok bytes → decodeAnchor bytes = .ok anchor := by
      intro bytes hBytes
      obtain rfl := Except.ok.inj (hEncoded.symm.trans hBytes)
      exact hDecoded
    exact ⟨⟨_, hEncoded, hDecoded⟩,
      fun store dir hSettled _ _ _ _ h => reopens_of_installRecoveryAnchor hSettled hCodec h,
      fun store dir hSettled _ _ h => reopens_of_compactPrefix hSettled hCodec h⟩

end Reopening

end Store

namespace Sample

def anchor (formatVersion : Nat) : RecoveryAnchor :=
  ⟨formatVersion, "c", 1, 1, .active 1 .zero, 1, ⟨1, .zero⟩, ⟨"s", .zero, 1, none⟩⟩

def emptyStore : FileLogStore := ⟨"c", 1, .active 1 .zero, .active 1 .zero, none, [], none⟩

def emptyDirectory : Directory := ⟨none, [], []⟩

end Sample

open scoped Sample

theorem sample_anchor_fits (formatVersion : Nat) : (Sample.anchor formatVersion).Fits where
  epoch := (by decide : 1 < u64Bound)
  configId := (by decide : 1 < u64Bound)
  recoveryGeneration := (by decide : 1 < u64Bound)
  index := (by decide : 1 < u64Bound)
  sizeBytes := (by decide : 1 < u64Bound)
  clusterId := (by decide : (utf8 "c").length < 65536)
  snapshotId := (by decide : (utf8 "s").length < 65536)

/-- An anchor of the current format survives. -/
theorem sample_anchor_kept :
    validateAnchor (Sample.anchor 2) = .ok () ∧ (Sample.anchor 2).Fits ∧ AnchorKept (Sample.anchor 2) :=
  ⟨by decide, sample_anchor_fits 2,
    (anchors_are_kept_iff (Sample.anchor 2) (by decide) (sample_anchor_fits 2)).mpr rfl⟩

/-- An anchor of the first format is installed into an empty log, which then does not
reopen with it. -/
theorem sample_anchor_v1_lost :
    validateAnchor (Sample.anchor 1) = .ok () ∧ (Sample.anchor 1).Fits ∧
      (∃ store dir, installRecoveryAnchor Sample.emptyStore Sample.emptyDirectory (Sample.anchor 1) 1
        (.active 1 .zero) = .ok (store, dir) ∧ ¬Reopens Sample.emptyStore dir (Sample.anchor 1)) ∧
      ¬AnchorKept (Sample.anchor 1) := by
  have hValid : validateAnchor (Sample.anchor 1) = .ok () := by decide
  have hEncoded := encodeAnchor_eq hValid (sample_anchor_fits 1)
  have hLost := decodeAnchor_anchorFile_v1 (show (Sample.anchor 1).formatVersion = 1 from rfl)
  have hInstall : installAnchor Sample.emptyDirectory none (Sample.anchor 1) =
      .ok ⟨some (anchorFile (Sample.anchor 1)), [], []⟩ := by
    rw [installAnchor, show readAnchor Sample.emptyDirectory = .ok none from rfl, ok_bind,
      if_neg (by decide), if_neg (by decide), hEncoded]
    rfl
  refine ⟨hValid, sample_anchor_fits 1, ⟨{ Sample.emptyStore with anchor := some (Sample.anchor 1) },
    ⟨some (anchorFile (Sample.anchor 1)), [], []⟩, ?_, ?_⟩, ?_⟩
  · rw [installRecoveryAnchor, hInstall]
    rfl
  · rintro ⟨reopened, dir', hOpen, hAnchor⟩
    obtain ⟨⟨⟩, -, hOpen⟩ := bind_ok_iff.mp hOpen
    obtain ⟨found, hFound, hOpen⟩ := bind_ok_iff.mp hOpen
    obtain ⟨⟨⟩, -, hOpen⟩ := bind_ok_iff.mp hOpen
    obtain ⟨_, -, hOpen⟩ := bind_ok_iff.mp hOpen
    obtain ⟨_, -, hOpen⟩ := bind_ok_iff.mp hOpen
    obtain ⟨rfl, -⟩ := Prod.mk.inj (Except.ok.inj hOpen)
    obtain rfl : found = some (Sample.anchor 1) := hAnchor
    cases hDecode : decodeAnchor (anchorFile (Sample.anchor 1)) with
    | error error =>
      rw [readAnchor] at hFound
      dsimp only at hFound
      rw [hDecode] at hFound
      cases hFound
    | ok decoded =>
      rw [readAnchor] at hFound
      dsimp only at hFound
      rw [hDecode] at hFound
      obtain rfl : decoded = Sample.anchor 1 := Option.some.inj (Except.ok.inj hFound)
      exact hLost hDecode
  · rintro ⟨⟨bytes, hBytes, hDecoded⟩, -⟩
    obtain rfl := Except.ok.inj (hEncoded.symm.trans hBytes)
    exact hLost hDecoded

end Rhiza.Log
