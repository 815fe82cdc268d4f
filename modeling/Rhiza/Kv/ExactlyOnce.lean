import Rhiza.Kv.History
import Rhiza.Log.Lossless

/-! # Every request once

A run of the machine applies entries, compacts its embedded log, is restored from its
snapshots and opened again. Its history lists what it has applied.
-/

namespace Rhiza.Kv

open Core Library

abbrev Applied := LogEntry × ApplyOutcome

def genesisTip : LogAnchor := ⟨0, LogHash.zero⟩

def tipOf (entries : List LogEntry) : LogAnchor := entries.getLast?.elim genesisTip LogEntry.anchor

def note (history : List Applied) (entry : LogEntry) (outcome : ApplyOutcome) : List Applied :=
  if entry ∈ history.map (·.1) then history else history ++ [(entry, outcome)]

section Runs

variable [Sha256]

abbrev Logged (clusterId : ClusterId) (epoch : Nat) (entries : List LogEntry) : Prop :=
  Chain (ExtendsLog clusterId epoch) LogEntry.anchor genesisTip entries

/-- The runs of the machine. The number is the first index of which the embedded log still has the
entry. -/
inductive Reached [Redb] : RedbStateMachine → List Applied → Nat → Prop
  | opened {clusterId : ClusterId} {nodeId : NodeId} {epoch configId : Nat} {m : RedbStateMachine}
      (hOpen : RedbStateMachine.open .fresh clusterId nodeId epoch configId = .ok m) :
      Reached m [] 1
  | applied {m m' : RedbStateMachine} {history : List Applied} {since : Nat} {entry : LogEntry}
      {outcome : ApplyOutcome} (hBefore : Reached m history since) (hFits : Log.Fits entry)
      (hApply : m.applyEntry entry = .ok (outcome, m')) : Reached m' (note history entry outcome) since
  | compacted {m m' : RedbStateMachine} {history : List Applied} {since anchorIndex : Nat}
      (hBefore : Reached m history since)
      (hCompact : m.compactEmbeddedLogBefore anchorIndex = .ok m') :
      Reached m' history (max since anchorIndex)
  | restored {m m' : RedbStateMachine} {history : List Applied} {since targetIndex : Nat}
      {snapshot : RedbSnapshot} {database : Database} {nodeId : NodeId}
      (hBefore : Reached m history since) (hSnapshot : m.createSnapshot targetIndex = .ok snapshot)
      (hRestore : restoreSnapshotFile none snapshot nodeId = .ok database)
      (hOpen : RedbStateMachine.open database m.clusterId nodeId m.epoch m.configId = .ok m') :
      Reached m' history (targetIndex + 1)
  | reopened {m m' : RedbStateMachine} {history : List Applied} {since : Nat}
      (hBefore : Reached m history since)
      (hOpen : RedbStateMachine.open (.whole m.tables) m.clusterId m.nodeId m.epoch m.configId =
        .ok m') : Reached m' history since

omit [Sha256] in
def Consecutive (start : Nat) : List LogEntry → Prop
  | [] => True
  | entry :: entries => entry.index = start ∧ Consecutive (start + 1) entries

theorem consecutive_of_chain {clusterId : ClusterId} {epoch : Nat} {tip : LogAnchor}
    {entries : List LogEntry} (h : Chain (ExtendsLog clusterId epoch) LogEntry.anchor tip entries) :
    Consecutive (tip.index + 1) entries := by
  induction entries generalizing tip with
  | nil => trivial
  | cons entry entries ih =>
    have hIndex : entry.index = tip.index + 1 := checkedSucc_eq_some h.1.index
    have hRest := ih h.2
    exact ⟨hIndex, hIndex ▸ hRest⟩

omit [Sha256] in
theorem Consecutive.bounds {start : Nat} {entries : List LogEntry} (h : Consecutive start entries) :
    ∀ entry ∈ entries, start ≤ entry.index ∧ entry.index < start + entries.length := by
  induction entries generalizing start with
  | nil => exact fun _ hEntry => absurd hEntry List.not_mem_nil
  | cons first entries ih =>
    obtain ⟨hFirst, hRest⟩ := h
    refine List.forall_mem_cons.mpr ⟨?_, fun entry hEntry => ?_⟩
    · rw [List.length_cons]
      omega
    · obtain ⟨hLow, hHigh⟩ := ih hRest entry hEntry
      rw [List.length_cons]
      omega

omit [Sha256] in
theorem Consecutive.last {start : Nat} {entries : List LogEntry} (h : Consecutive start entries)
    {last : LogEntry} (hLast : entries.getLast? = some last) :
    last.index + 1 = start + entries.length := by
  induction entries generalizing start with
  | nil => cases hLast
  | cons first entries ih =>
    obtain ⟨hFirst, hRest⟩ := h
    cases entries with
    | nil =>
      obtain rfl : first = last := Option.some.inj hLast
      rw [hFirst]
      rfl
    | cons second entries =>
      rw [List.getLast?_cons_cons] at hLast
      have hEnd := ih hRest hLast
      rw [List.length_cons]
      omega

omit [Sha256] in
theorem Consecutive.window {start : Nat} {entries : List LogEntry} (h : Consecutive start entries)
    (low high : Nat) :
    Consecutive (max start low)
        (entries.filter fun entry => low ≤ entry.index ∧ entry.index ≤ high) ∧
      (entries.filter fun entry => low ≤ entry.index ∧ entry.index ≤ high).length =
        min (high + 1) (start + entries.length) - max start low := by
  induction entries generalizing start with
  | nil =>
    refine ⟨trivial, ?_⟩
    rw [List.filter_nil, List.length_nil]
    omega
  | cons first entries ih =>
    obtain ⟨hFirst, hRest⟩ := h
    obtain ⟨hRow, hLength⟩ := ih hRest
    rw [List.filter_cons, List.length_cons]
    by_cases hIn : low ≤ first.index ∧ first.index ≤ high
    · rw [if_pos (decide_eq_true hIn)]
      have hStart : max start low = start := by omega
      have hNext : max (start + 1) low = start + 1 := by omega
      rw [hStart]
      rw [hNext] at hRow hLength
      refine ⟨⟨hFirst, hRow⟩, ?_⟩
      rw [List.length_cons, hLength]
      omega
    · rw [if_neg fun hDecide => hIn (of_decide_eq_true hDecide)]
      by_cases hLow : low ≤ first.index
      · have hNone : (entries.filter fun entry => low ≤ entry.index ∧ entry.index ≤ high) = [] := by
          refine List.eq_nil_of_length_eq_zero ?_
          omega
        rw [hNone]
        refine ⟨trivial, ?_⟩
        rw [List.length_nil]
        omega
      · have hNext : max (start + 1) low = max start low := by omega
        rw [hNext] at hRow hLength
        refine ⟨hRow, ?_⟩
        omega

def embed (entry : LogEntry) : Nat × Bytes := (entry.index, Log.encodeSegment [entry])

structure Readable (clusterId : ClusterId) (entry : LogEntry) : Prop where
  named : clusterId ≠ ""
  cluster : entry.clusterId = clusterId
  hash : entry.recomputeHash = entry.hash
  fits : Log.Fits entry

theorem Readable.decode {clusterId : ClusterId} {entry : LogEntry} (h : Readable clusterId entry) :
    decodeEmbeddedLogEntry (embed entry).2 clusterId = .ok entry := by
  have hSegment : Log.OneSegment clusterId entry.epoch entry.configId [entry] :=
    { chained := List.isChain_singleton _
      hashes := List.forall_mem_singleton.mpr h.hash
      cluster := List.forall_mem_singleton.mpr h.cluster
      epoch := List.forall_mem_singleton.mpr rfl
      configId := List.forall_mem_singleton.mpr rfl
      fits := List.forall_mem_singleton.mpr h.fits }
  have hRead := (hSegment.forCluster_iff (List.cons_ne_nil _ _)).mpr h.named
  rw [decodeEmbeddedLogEntry, embed, hRead]

theorem readEmbedded_iff {clusterId : ClusterId} {start expected : Nat} {entries : List LogEntry}
    (hRow : Consecutive start entries) (hReadable : ∀ entry ∈ entries, Readable clusterId entry)
    (hBound : entries ≠ [] → start + entries.length < u64Bound) {read : List LogEntry × Nat} :
    readEmbedded clusterId expected (entries.map embed) = .ok read ↔
      (entries = [] ∨ start = expected) ∧ read = (entries, expected + entries.length) := by
  induction entries generalizing start expected read with
  | nil =>
    constructor
    · intro h
      exact ⟨.inl rfl, (Except.ok.inj h).symm⟩
    · rintro ⟨-, rfl⟩
      rfl
  | cons entry entries ih =>
    obtain ⟨hFirst, hRest⟩ := hRow
    obtain ⟨hDecode, hDecodes⟩ := List.forall_mem_cons.mp hReadable
    have hHere := hBound (List.cons_ne_nil _ _)
    rw [List.length_cons] at hHere
    have hNext : entries ≠ [] → start + 1 + entries.length < u64Bound := fun _ => by omega
    rw [List.map_cons, readEmbedded, embed]
    by_cases hStart : start = expected
    · subst hStart
      have hSucc : checkedSucc start = some (start + 1) := if_pos (by omega)
      have hRead := hDecode.decode
      rw [embed] at hRead
      rw [ensure_of hFirst, ok_bind, hRead, ok_bind, ensure_of hFirst, ok_bind, hSucc,
        Option.elim_some, ok_bind]
      constructor
      · intro h
        obtain ⟨⟨rest, last⟩, hLast, h⟩ := bind_ok_iff.mp h
        cases h
        obtain ⟨-, hSame⟩ := (ih hRest hDecodes hNext).mp hLast
        obtain ⟨rfl, rfl⟩ := Prod.mk.inj hSame
        refine ⟨.inr rfl, ?_⟩
        rw [List.length_cons, Nat.add_right_comm, Nat.add_assoc]
      · rintro ⟨-, rfl⟩
        have hLast := (ih hRest hDecodes hNext).mpr ⟨.inr rfl, rfl⟩
        rw [hLast, ok_bind, List.length_cons, Nat.add_right_comm, Nat.add_assoc]
    · have hOther : ¬ entry.index = expected := hFirst ▸ hStart
      rw [ensure, if_neg hOther]
      constructor
      · intro h
        cases h
      · rintro ⟨hBegin, -⟩
        exact absurd hBegin (not_or.mpr ⟨List.cons_ne_nil _ _, hStart⟩)

structure Sound (id : Identity) (m : RedbStateMachine) (history : List Applied) (since : Nat) :
    Prop where
  named : id.clusterId ≠ ""
  holds : ∃ known, Holds id m (tipOf (history.map (·.1))) known
  logged : Logged id.clusterId id.epoch (history.map (·.1))
  fits : ∀ entry ∈ history.map (·.1), Log.Fits entry
  rows : Rows.Hold ⟨m.tables.requests, m.tables.data⟩ (outcomesOf (history.map (·.1)))
  embedded : m.tables.embeddedLog =
    ((history.map (·.1)).filter fun entry => since ≤ entry.index).map embed
  positive : 1 ≤ since
  reached : since ≤ (tipOf (history.map (·.1))).index + 1
  answered : ∀ entry outcome, history.getLast? = some (entry, outcome) →
    ∃ commands results, decodedCommands entry = .ok commands ∧ entry.configId = id.configId ∧
      replayedResults m.tables.requests commands = .ok results ∧
      outcome = ⟨entry.index, entry.hash, singleResult results⟩

variable {id : Identity} {m m' : RedbStateMachine} {history : List Applied} {since : Nat}
  {entry : LogEntry} {outcome : ApplyOutcome}

omit [Sha256] in
theorem tipOf_concat (entries : List LogEntry) (entry : LogEntry) :
    tipOf (entries ++ [entry]) = entry.anchor := by
  rw [tipOf, List.getLast?_concat]
  rfl

omit [Sha256] in
theorem tipOf_index {entries : List LogEntry} (h : Consecutive 1 entries) :
    (tipOf entries).index = entries.length := by
  cases hLast : entries.getLast? with
  | none =>
    rw [tipOf, hLast, List.getLast?_eq_none_iff.mp hLast]
    rfl
  | some last =>
    have hEnd := h.last hLast
    rw [tipOf, hLast]
    have hSame : (Option.elim (some last) genesisTip LogEntry.anchor).index = last.index := rfl
    omega

theorem Sound.consecutive (h : Sound id m history since) : Consecutive 1 (history.map (·.1)) :=
  consecutive_of_chain h.logged

theorem Sound.behind (h : Sound id m history since) :
    ∀ entry ∈ history.map (·.1), entry.index ≤ (tipOf (history.map (·.1))).index := by
  intro entry hEntry
  have hBounds := h.consecutive.bounds entry hEntry
  rw [tipOf_index h.consecutive]
  omega

theorem chain_concat {clusterId : ClusterId} {epoch : Nat} {tip : LogAnchor} {entries : List LogEntry}
    (h : Chain (ExtendsLog clusterId epoch) LogEntry.anchor tip entries)
    (hNext : ExtendsLog clusterId epoch (entries.getLast?.elim tip LogEntry.anchor) entry) :
    Chain (ExtendsLog clusterId epoch) LogEntry.anchor tip (entries ++ [entry]) := by
  induction entries generalizing tip with
  | nil => exact ⟨hNext, trivial⟩
  | cons first entries ih =>
    refine ⟨h.1, ih h.2 ?_⟩
    cases entries with
    | nil => exact hNext
    | cons second entries =>
      rw [List.getLast?_cons_cons] at hNext
      cases hLast : (second :: entries).getLast? with
      | none => cases List.getLast?_eq_none_iff.mp hLast
      | some last =>
        rw [hLast] at hNext
        exact hNext

theorem extends_of_chain {clusterId : ClusterId} {epoch : Nat} {tip : LogAnchor}
    {entries : List LogEntry} (h : Chain (ExtendsLog clusterId epoch) LogEntry.anchor tip entries) :
    ∀ entry ∈ entries, entry.clusterId = clusterId ∧ entry.epoch = epoch ∧
      entry.recomputeHash = entry.hash := by
  induction entries generalizing tip with
  | nil => exact fun _ hEntry => absurd hEntry List.not_mem_nil
  | cons first entries ih =>
    exact List.forall_mem_cons.mpr ⟨⟨h.1.cluster, h.1.epoch, h.1.hash⟩, ih h.2⟩

theorem Sound.readable (h : Sound id m history since) :
    ∀ entry ∈ history.map (·.1), Readable id.clusterId entry := by
  intro entry hEntry
  obtain ⟨hCluster, -, hHash⟩ := extends_of_chain h.logged entry hEntry
  exact ⟨h.named, hCluster, hHash, h.fits entry hEntry⟩

omit [Sha256] in
theorem Consecutive.distinct {start : Nat} {entries : List LogEntry} (h : Consecutive start entries) :
    entries.Pairwise fun entry later => entry.index ≠ later.index := by
  induction entries generalizing start with
  | nil => exact List.Pairwise.nil
  | cons first entries ih =>
    refine List.pairwise_cons.mpr ⟨fun later hLater => ?_, ih h.2⟩
    have hBounds := h.2.bounds later hLater
    have hFirst := h.1
    omega

theorem Sound.get_embedded (h : Sound id m history since) (entry : LogEntry)
    (hEntry : entry ∈ history.map (·.1)) (hSince : since ≤ entry.index) :
    Assoc.get m.tables.embeddedLog entry.index = some (embed entry).2 := by
  have hDistinct : Assoc.Distinct m.tables.embeddedLog := by
    rw [h.embedded]
    exact List.pairwise_map.mpr ((h.consecutive.distinct.sublist List.filter_sublist).imp fun hNe => hNe)
  have hRow : embed entry ∈ m.tables.embeddedLog := by
    rw [h.embedded]
    exact List.mem_map_of_mem (List.mem_filter.mpr ⟨hEntry, decide_eq_true hSince⟩)
  exact Assoc.get_of_mem hDistinct hRow

theorem Sound.get_embedded_eq_none (h : Sound id m history since) (index : Nat)
    (hIndex : ∀ entry ∈ history.map (·.1), since ≤ entry.index → entry.index ≠ index) :
    Assoc.get m.tables.embeddedLog index = none := by
  rw [h.embedded]
  refine Assoc.get_eq_none fun row hRow => ?_
  obtain ⟨entry, hEntry, rfl⟩ := List.mem_map.mp hRow
  obtain ⟨hEntry, hSince⟩ := List.mem_filter.mp hEntry
  exact hIndex entry hEntry (of_decide_eq_true hSince)

theorem Holds.applyEntry_eq {known : String → Option LogHash} {tip : LogAnchor}
    (h : Holds id m tip known) (hEntry : m.validateEntryIdentity entry = .ok ())
    (hHash : entry.recomputeHash = entry.hash) {commands : List DecodedKvCommand}
    (hCommands : decodedCommands entry = .ok commands) :
    m.applyEntry entry = if entry.index = tip.index then m.replayEntry entry commands tip.hash
      else m.applyNext entry commands tip.index tip.hash := by
  rw [RedbStateMachine.applyEntry, hEntry, ok_bind, ensure_of hHash, ok_bind, hCommands, ok_bind,
    h.readU64Meta, ok_bind, h.readHashMeta, ok_bind]

theorem Holds.validateEntryIdentity_iff {known : String → Option LogHash} {tip : LogAnchor}
    (h : Holds id m tip known) : m.validateEntryIdentity entry = .ok () ↔
      entry.clusterId = id.clusterId ∧ entry.epoch = id.epoch ∧ entry.configId = id.configId := by
  obtain ⟨hCluster, -, hEpoch, hConfig⟩ := h.identity
  simp only [RedbStateMachine.validateEntryIdentity, hCluster, hEpoch, hConfig, unit_bind_ok_iff,
    ensure_ok_iff]

omit [Sha256] in
theorem tipOf_last {last : LogEntry} {answer : ApplyOutcome}
    (hLast : history.getLast? = some (last, answer)) : tipOf (history.map (·.1)) = last.anchor := by
  rw [tipOf, List.getLast?_map, hLast]
  rfl

theorem Sound.replay (h : Sound id m history since) (hLast : history.getLast? = some (entry, outcome)) :
    m.applyEntry entry = if since ≤ entry.index then .ok (outcome, m)
      else .error (.invalidEntry "replayed entry is missing from embedded qlog") := by
  have hEntry : entry ∈ history.map (·.1) :=
    List.mem_map.mpr ⟨(entry, outcome), List.mem_of_getLast? hLast, rfl⟩
  have hTip := tipOf_last hLast
  obtain ⟨hCluster, hEpoch, hHash⟩ := extends_of_chain h.logged entry hEntry
  obtain ⟨commands, results, hCommands, hConfig, hResults, rfl⟩ := h.answered entry outcome hLast
  obtain ⟨known, hHolds⟩ := h.holds
  rw [hTip] at hHolds
  have hIdentity := hHolds.validateEntryIdentity_iff.mpr ⟨hCluster, hEpoch, hConfig⟩
  rw [hHolds.applyEntry_eq hIdentity hHash hCommands, LogEntry.anchor, if_pos rfl, RedbStateMachine.replayEntry,
    ensure_of rfl, ok_bind]
  by_cases hSince : since ≤ entry.index
  · rw [h.get_embedded entry hEntry hSince, Option.elim_some, ok_bind, hHolds.identity.1,
      (h.readable entry hEntry).decode, ok_bind, ensure_of rfl, ok_bind, hResults, ok_bind,
      if_pos hSince]
  · have hNone : Assoc.get m.tables.embeddedLog entry.index = none := by
      refine h.get_embedded_eq_none entry.index fun other hOther hHere hSame => hSince ?_
      rwa [hSame] at hHere
    rw [hNone, if_neg hSince]
    rfl

/-- What `apply_entry` does to an entry that it takes. -/
theorem Sound.applyEntry_cases (h : Sound id m history since)
    (hApply : m.applyEntry entry = .ok (outcome, m')) :
    (m' = m ∧ history.getLast? = some (entry, outcome) ∧ since ≤ entry.index) ∨
    (ExtendsLog id.clusterId id.epoch (tipOf (history.map (·.1))) entry ∧
      entry.configId = id.configId ∧ ∃ commands result rows, decodedCommands entry = .ok commands ∧
      applyByType entry ⟨m.tables.requests, m.tables.data⟩ commands = .ok (result, rows) ∧
      outcome = ⟨entry.index, entry.hash, result⟩ ∧ m' = m.stored entry rows) := by
  obtain ⟨known, hHolds⟩ := h.holds
  have hTaken := hApply
  rw [RedbStateMachine.applyEntry] at hTaken
  obtain ⟨⟨⟩, hIdentity, hTaken⟩ := bind_ok_iff.mp hTaken
  obtain ⟨hHash, hTaken⟩ := exists_ensure_iff.mp (bind_ok_iff.mp hTaken)
  obtain ⟨commands, hCommands, -⟩ := bind_ok_iff.mp hTaken
  obtain ⟨hCluster, hEpoch, hConfig⟩ := hHolds.validateEntryIdentity_iff.mp hIdentity
  have hEq := hHolds.applyEntry_eq hIdentity hHash hCommands
  by_cases hIndex : entry.index = (tipOf (history.map (·.1))).index
  · left
    have hReplay := hApply
    rw [hEq, if_pos hIndex, RedbStateMachine.replayEntry] at hReplay
    simp only [bind_ok_iff, exists_ensure_iff, elim_ok_iff] at hReplay
    obtain ⟨-, stored, hStored, decoded, hDecoded, hDecodedEq, -⟩ := hReplay
    rw [hDecodedEq] at hDecoded
    cases hLast : history.getLast? with
    | none =>
      have hEmpty := h.get_embedded_eq_none entry.index fun other hOther => by
        rw [List.getLast?_eq_none_iff.mp hLast] at hOther
        cases hOther
      cases hEmpty.symm.trans hStored
    | some last =>
      obtain ⟨last, answer⟩ := last
      have hTip := tipOf_last hLast
      have hSameIndex : entry.index = last.index := hIndex.trans (congrArg LogAnchor.index hTip)
      have hMem : last ∈ history.map (·.1) :=
        List.mem_map.mpr ⟨(last, answer), List.mem_of_getLast? hLast, rfl⟩
      by_cases hSince : since ≤ last.index
      · have hRow := h.get_embedded last hMem hSince
        rw [← hSameIndex, hStored] at hRow
        have hRead := (h.readable last hMem).decode
        rw [← Option.some.inj hRow, ← hHolds.identity.1, hDecoded] at hRead
        obtain rfl := Except.ok.inj hRead
        have hAgain := h.replay hLast
        rw [hApply, if_pos hSince] at hAgain
        obtain ⟨rfl, rfl⟩ := Prod.mk.inj (Except.ok.inj hAgain)
        exact ⟨rfl, rfl, hSince⟩
      · have hGone := h.get_embedded_eq_none entry.index fun other hOther hHere hSame =>
          hSince (by rwa [hSame, hSameIndex] at hHere)
        cases hGone.symm.trans hStored
  · right
    have hNext := hApply
    rw [hEq, if_neg hIndex, RedbStateMachine.applyNext] at hNext
    simp only [bind_ok_iff, exists_ensure_iff, elim_ok_iff] at hNext
    obtain ⟨expected, hExpected, rfl, hPrev, ⟨result, rows⟩, hRows, -, hStored⟩ := hNext
    obtain ⟨rfl, rfl⟩ := Prod.mk.inj (Except.ok.inj hStored)
    exact ⟨⟨hCluster, hEpoch, hExpected, hPrev, hHash⟩, hConfig, commands, result, rows, hCommands,
      hRows, rfl, rfl⟩

omit [Sha256] in
theorem insert_last {index : Nat} {value : Bytes} {rows : List (Nat × Bytes)}
    (h : ∀ row ∈ rows, row.1 < index) : Assoc.insert index value rows = rows ++ [(index, value)] := by
  induction rows with
  | nil => rfl
  | cons row rows ih =>
    obtain ⟨hRow, hRows⟩ := List.forall_mem_cons.mp h
    rw [Assoc.insert, if_neg (Nat.ne_of_gt hRow), if_neg (Nat.lt_asymm hRow), ih hRows, List.cons_append]

theorem Sound.applied (h : Sound id m history since) (hFits : Log.Fits entry)
    (hApply : m.applyEntry entry = .ok (outcome, m')) :
    Sound id m' (note history entry outcome) since := by
  rcases h.applyEntry_cases hApply with ⟨rfl, hLast, -⟩ | ⟨hExtends, hConfig, commands, result, rows,
    hCommands, hRows, rfl, rfl⟩
  · have hOld : entry ∈ history.map (·.1) :=
      List.mem_map.mpr ⟨(entry, outcome), List.mem_of_getLast? hLast, rfl⟩
    rwa [note, if_pos hOld]
  · have hIndex : entry.index = (tipOf (history.map (·.1))).index + 1 := checkedSucc_eq_some hExtends.index
    have hBound := lt_of_checkedSucc hExtends.index
    have hNew : entry ∉ history.map (·.1) := fun hOld => by
      have := h.behind entry hOld
      omega
    obtain ⟨known, hHolds⟩ := h.holds
    have hTakes := (remembers id).takes hHolds hExtends (map_ok_iff.mpr ⟨_, hApply, rfl⟩)
    obtain ⟨hHold, results, hReplayed, rfl⟩ := applyByType_holds hBound h.rows hCommands hRows
    have hEntries : ∀ answer : ApplyOutcome, (history ++ [(entry, answer)]).map (·.1) = history.map (·.1) ++ [entry] :=
      fun answer => List.map_append
    rw [note, if_neg hNew]
    refine ⟨h.named, ?_, ?_, ?_, ?_, ?_, h.positive, ?_, ?_⟩
    · rw [hEntries, tipOf_concat]
      exact ⟨_, hTakes.2.2⟩
    · rw [hEntries]
      exact chain_concat h.logged hExtends
    · rw [hEntries]
      exact List.forall_mem_append.mpr ⟨h.fits, List.forall_mem_singleton.mpr hFits⟩
    · rw [hEntries, outcomesOf, List.flatMap_append, List.flatMap_singleton]
      exact hHold
    · have hSince : since ≤ entry.index := hIndex ▸ h.reached
      have hBehind : ∀ row ∈ m.tables.embeddedLog, row.1 < entry.index := by
        rw [h.embedded]
        intro row hRow
        obtain ⟨other, hOther, rfl⟩ := List.mem_map.mp hRow
        have := h.behind other (List.mem_filter.mp hOther).1
        have hKey : (embed other).1 = other.index := rfl
        omega
      have hTable : (m.stored entry rows).tables.embeddedLog =
          m.tables.embeddedLog ++ [embed entry] := insert_last hBehind
      rw [hTable, h.embedded, hEntries, List.filter_append, List.filter_singleton,
        decide_eq_true hSince, List.map_append]
      rfl
    · rw [hEntries, tipOf_concat]
      have hSame : entry.anchor.index = entry.index := rfl
      have := h.reached
      omega
    · intro last answer hLast
      rw [List.getLast?_concat] at hLast
      obtain ⟨rfl, rfl⟩ := Prod.mk.inj (Option.some.inj hLast)
      exact ⟨commands, results, hCommands, hConfig, hReplayed, rfl⟩

theorem Sound.compacted {anchorIndex : Nat} (h : Sound id m history since)
    (hCompact : m.compactEmbeddedLogBefore anchorIndex = .ok m') :
    Sound id m' history (max since anchorIndex) := by
  obtain ⟨known, hHolds⟩ := h.holds
  rw [RedbStateMachine.compactEmbeddedLogBefore, hHolds.readU64Meta, ok_bind] at hCompact
  obtain ⟨hReached, hCompact⟩ := exists_ensure_iff.mp (bind_ok_iff.mp hCompact)
  cases hCompact
  have hTable : (m.tables.embeddedLog.filter fun row => ¬ row.1 < anchorIndex) =
      ((history.map (·.1)).filter fun entry => max since anchorIndex ≤ entry.index).map embed := by
    rw [h.embedded, List.filter_map, List.filter_filter]
    refine congrArg _ (List.filter_congr fun entry _ => ?_)
    have hKey : ((fun row : Nat × Bytes => decide (¬ row.1 < anchorIndex)) ∘ embed) entry =
        decide (¬ entry.index < anchorIndex) := rfl
    rw [hKey, Bool.eq_iff_iff, Bool.and_eq_true, decide_eq_true_eq, decide_eq_true_eq,
      decide_eq_true_eq, Nat.not_lt, max_le_iff]
    exact and_comm
  refine ⟨h.named, ⟨known, ?_⟩, h.logged, h.fits, h.rows, hTable, ?_, ?_, h.answered⟩
  · refine ⟨hHolds.identity, hHolds.rows, hHolds.index, hHolds.bounded, hHolds.hash, ?_, hHolds.receipts⟩
    intro index hSome
    refine hHolds.behind index ?_
    obtain ⟨value, hValue⟩ := Option.isSome_iff_exists.mp hSome
    obtain ⟨hRow, -⟩ := List.mem_filter.mp (Assoc.mem_of_get hValue)
    exact Assoc.isSome_of_mem hRow
  · exact le_max_of_le_left h.positive
  · exact max_le h.reached (Nat.le_succ_of_le hReached)

theorem open_whole {tables : Tables} {clusterId : ClusterId} {nodeId : NodeId} {epoch configId : Nat}
    (h : RedbStateMachine.open (.whole tables) clusterId nodeId epoch configId = .ok m) :
    m = ⟨tables, clusterId, nodeId, epoch, configId⟩ := by
  obtain ⟨-, h⟩ := exists_ensure_iff.mp (bind_ok_iff.mp h)
  obtain ⟨opened, hOpened, h⟩ := bind_ok_iff.mp h
  cases h
  rw [initializeOrValidate, unit_bind_ok_iff] at hOpened
  rw [Except.ok.inj hOpened.2]

theorem Sound.reopened (h : Sound id m history since)
    (hOpen : RedbStateMachine.open (.whole m.tables) m.clusterId m.nodeId m.epoch m.configId = .ok m') :
    Sound id m' history since := by
  rw [open_whole hOpen]
  exact h

theorem validated_eq {tables validated : Tables} {snapshot : RedbSnapshot} {nodeId : NodeId}
    (h : validateRestoredDatabase (.whole tables) snapshot nodeId = .ok validated) :
    validated = tables := by
  simp only [validateRestoredDatabase, bind_ok_iff, exists_ensure_iff] at h
  obtain ⟨-, -, -, index, -, -, hash, -, -, h⟩ := h
  exact (Except.ok.inj h).symm

theorem restored_eq [Redb] {targetIndex : Nat} {snapshot : RedbSnapshot} {database : Database}
    {nodeId : NodeId} (hSnapshot : m.createSnapshot targetIndex = .ok snapshot)
    (hRestore : restoreSnapshotFile none snapshot nodeId = .ok database) :
    snapshotU64Meta m.tables.progress metaAppliedIndex = .ok targetIndex ∧
      database = .whole (rebindSnapshotNode m.snapshotTables nodeId) := by
  simp only [RedbStateMachine.createSnapshot, bind_ok_iff, exists_ensure_iff] at hSnapshot
  obtain ⟨-, -, appliedIndex, hIndex, rfl, appliedHash, -, hSnapshot⟩ := hSnapshot
  cases hSnapshot
  simp only [restoreSnapshotFile, bind_ok_iff, exists_ensure_iff] at hRestore
  obtain ⟨-, -, -, tables, hTables, rebound, hRebound, hDatabase⟩ := hRestore
  cases hDatabase
  obtain rfl := validated_eq hTables
  obtain rfl := validated_eq hRebound
  exact ⟨hIndex, rfl⟩

theorem Holds.rebound {known : String → Option LogHash} {tip : LogAnchor} (h : Holds id m tip known)
    (nodeId : NodeId) : Holds { id with nodeId := nodeId }
      { m with tables := rebindSnapshotNode m.snapshotTables nodeId, nodeId := nodeId } tip known := by
  have hGet : ∀ key, Assoc.get (rebindSnapshotNode m.snapshotTables nodeId).progress key =
      if key = metaNodeId then some (utf8 nodeId) else Assoc.get m.tables.progress key := fun key =>
    Assoc.get_insert metaNodeId key (utf8 nodeId) m.tables.progress
  obtain ⟨hCluster, -, hEpoch, hConfig⟩ := h.identity
  have hOld := h.rows
  simp only [Identity.rows, List.forall_mem_cons] at hOld
  obtain ⟨hClusterRow, -, hEpochRow, hConfigRow, hFingerprint, -⟩ := hOld
  refine ⟨⟨hCluster, rfl, hEpoch, hConfig⟩, ?_, ?_, h.bounded, ?_, fun _ hNone => (by cases hNone),
    h.receipts⟩
  · simp only [Identity.rows, List.forall_mem_cons, hGet]
    refine ⟨?_, if_pos trivial, ?_, ?_, ?_, fun _ hRow => absurd hRow List.not_mem_nil⟩
    · rwa [if_neg (by decide)]
    · rwa [if_neg (by decide)]
    · rwa [if_neg (by decide)]
    · rwa [if_neg (by decide)]
  · rw [hGet, if_neg (by decide)]
    exact h.index
  · rw [hGet, if_neg (by decide)]
    exact h.hash

theorem Sound.restored [Redb] {targetIndex : Nat} {snapshot : RedbSnapshot} {database : Database}
    {nodeId : NodeId} (h : Sound id m history since)
    (hSnapshot : m.createSnapshot targetIndex = .ok snapshot)
    (hRestore : restoreSnapshotFile none snapshot nodeId = .ok database)
    (hOpen : RedbStateMachine.open database m.clusterId nodeId m.epoch m.configId = .ok m') :
    Sound { id with nodeId := nodeId } m' history (targetIndex + 1) := by
  obtain ⟨known, hHolds⟩ := h.holds
  obtain ⟨hIndex, rfl⟩ := restored_eq hSnapshot hRestore
  obtain rfl := open_whole hOpen
  have hTarget : (tipOf (history.map (·.1))).index = targetIndex := by
    rw [snapshotU64Meta, hHolds.index, Option.elim_some, ok_bind, ensure_of (toBeBytes_length 8 _),
      ok_bind, fromBeBytes_toBeBytes 8 _ hHolds.bounded] at hIndex
    exact Except.ok.inj hIndex
  have hNone : ((history.map (·.1)).filter fun entry => targetIndex + 1 ≤ entry.index) = [] := by
    refine List.filter_eq_nil_iff.mpr fun entry hEntry hAhead => ?_
    have := h.behind entry hEntry
    have := of_decide_eq_true hAhead
    omega
  refine ⟨h.named, ⟨known, hHolds.rebound nodeId⟩, h.logged, h.fits, h.rows, ?_, ?_, ?_, h.answered⟩
  · rw [hNone]
    rfl
  · exact Nat.succ_pos _
  · exact hTarget ▸ Nat.le_refl _

theorem Sound.opened {clusterId : ClusterId} {nodeId : NodeId} {epoch configId : Nat}
    (hOpen : RedbStateMachine.open .fresh clusterId nodeId epoch configId = .ok m) :
    Sound ⟨clusterId, nodeId, epoch, configId⟩ m [] 1 := by
  obtain ⟨hNamed, hOpen⟩ := exists_ensure_iff.mp (bind_ok_iff.mp hOpen)
  cases hOpen
  have hHolds := Holds.fresh ⟨clusterId, nodeId, epoch, configId⟩
  exact ⟨hNamed.1, ⟨_, hHolds⟩, trivial, fun _ hEntry => absurd hEntry List.not_mem_nil,
    ⟨rfl, fun _ => rfl⟩, rfl, Nat.le_refl _, Nat.le_refl _, nofun⟩

theorem Reached.sound [Redb] (h : Reached m history since) : ∃ id, Sound id m history since := by
  induction h with
  | opened hOpen => exact ⟨_, Sound.opened hOpen⟩
  | applied _ hFits hApply ih =>
    obtain ⟨id, hSound⟩ := ih
    exact ⟨id, hSound.applied hFits hApply⟩
  | compacted _ hCompact ih =>
    obtain ⟨id, hSound⟩ := ih
    exact ⟨id, hSound.compacted hCompact⟩
  | restored _ hSnapshot hRestore hOpen ih =>
    obtain ⟨id, hSound⟩ := ih
    exact ⟨_, hSound.restored hSnapshot hRestore hOpen⟩
  | reopened _ hOpen ih =>
    obtain ⟨id, hSound⟩ := ih
    exact ⟨id, hSound.reopened hOpen⟩

theorem Sound.embeddedLogEntries_iff {start through : Nat} {read : List LogEntry}
    (h : Sound id m history since) (hRange : start ≤ through) (hMost : through + 1 < u64Bound) :
    m.embeddedLogEntries start through = .ok read ↔
      since ≤ start ∧ through ≤ (tipOf (history.map (·.1))).index ∧
      read = (history.map (·.1)).filter fun entry => start ≤ entry.index ∧ entry.index ≤ through := by
  obtain ⟨known, hHolds⟩ := h.holds
  obtain ⟨hRow, hLength⟩ := h.consecutive.window (max since start) through
  have hTip := tipOf_index h.consecutive
  have hPositive := h.positive
  have hReached := h.reached
  have hLow : max 1 (max since start) = max since start := max_eq_right (le_max_of_le_left hPositive)
  rw [hLow] at hRow hLength
  have hRows : (m.tables.embeddedLog.filter fun row => start ≤ row.1 ∧ row.1 ≤ through) =
      ((history.map (·.1)).filter fun entry =>
        max since start ≤ entry.index ∧ entry.index ≤ through).map embed := by
    rw [h.embedded, List.filter_map, List.filter_filter]
    refine congrArg _ (List.filter_congr fun entry _ => ?_)
    have hKey : ((fun row : Nat × Bytes => decide (start ≤ row.1 ∧ row.1 ≤ through)) ∘ embed) entry =
        decide (start ≤ entry.index ∧ entry.index ≤ through) := rfl
    rw [hKey, Bool.eq_iff_iff, Bool.and_eq_true, decide_eq_true_eq, decide_eq_true_eq,
      decide_eq_true_eq, max_le_iff]
    tauto
  generalize hWindow : ((history.map (·.1)).filter fun entry =>
    max since start ≤ entry.index ∧ entry.index ≤ through) = window at hRow hLength hRows
  have hReadable : ∀ entry ∈ window, Readable id.clusterId entry := by
    intro entry hEntry
    rw [← hWindow] at hEntry
    exact h.readable entry (List.mem_filter.mp hEntry).1
  have hBound : window ≠ [] → max since start + window.length < u64Bound := by
    intro hSome
    have := List.length_pos_iff.mpr hSome
    omega
  rw [RedbStateMachine.embeddedLogEntries, if_neg (Nat.not_lt.mpr hRange), hRows, hHolds.identity.1]
  constructor
  · intro hRead
    obtain ⟨⟨entries, expected⟩, hEntries, hRead⟩ := bind_ok_iff.mp hRead
    obtain ⟨hEnd, hRead⟩ := exists_ensure_iff.mp (bind_ok_iff.mp hRead)
    cases hRead
    obtain ⟨hBegin, hSame⟩ := (readEmbedded_iff hRow hReadable hBound).mp hEntries
    obtain ⟨rfl, rfl⟩ := Prod.mk.inj hSame
    rcases hBegin with rfl | hBegin
    · exact absurd hRange hEnd
    · rw [hBegin] at hLength hWindow
      exact ⟨by omega, by omega, hWindow.symm⟩
  · rintro ⟨hSince, hThrough, rfl⟩
    have hBegin : max since start = start := max_eq_right hSince
    rw [hBegin] at hLength hWindow
    have hEntries := (readEmbedded_iff hRow hReadable hBound).mpr ⟨.inr hBegin, rfl⟩
    rw [hEntries, ok_bind]
    dsimp only
    rw [ensure_of (by omega), ok_bind, hWindow]

/-- The database in every run. Its entries are a chain of hashes that the tip moves along one by
one. Every request has the receipt of its first place, and the data is that of the requests in
their first places. The tip is answered again as long as the embedded log has its entry, every other
entry must extend it, and the embedded log has exactly the entries since it was last compacted or
left out of a snapshot. -/
theorem exactly_once [Redb] (h : Reached m history since) :
    Logged m.clusterId m.epoch (history.map (·.1)) ∧
    (readU64Meta m.tables.progress metaAppliedIndex = .ok (tipOf (history.map (·.1))).index ∧
      readHashMeta m.tables.progress metaAppliedHash = .ok (tipOf (history.map (·.1))).hash) ∧
    (∀ requestId record, readRequest m.tables.requests requestId = .ok (some record) ↔
      FirstServed ((history.map (·.1)).flatMap servedBy) requestId record) ∧
    m.tables.data = ((firstOnly ((history.map (·.1)).flatMap servedBy)).map
      (·.2.command.operation)).foldl (fun data operation => (runOperation data operation).2) [] ∧
    (∀ entry outcome, history.getLast? = some (entry, outcome) → m.applyEntry entry =
      if since ≤ entry.index then .ok (outcome, m)
      else .error (.invalidEntry "replayed entry is missing from embedded qlog")) ∧
    (∀ entry, (∀ outcome, history.getLast? ≠ some (entry, outcome)) →
      ¬ ExtendsLog m.clusterId m.epoch (tipOf (history.map (·.1))) entry →
      ∃ error, m.applyEntry entry = .error error) ∧
    ∀ start through read, start ≤ through → through + 1 < u64Bound →
      (m.embeddedLogEntries start through = .ok read ↔
        since ≤ start ∧ through ≤ (tipOf (history.map (·.1))).index ∧
        read = (history.map (·.1)).filter fun entry => start ≤ entry.index ∧ entry.index ≤ through) := by
  obtain ⟨id, hSound⟩ := h.sound
  obtain ⟨known, hHolds⟩ := hSound.holds
  obtain ⟨hCluster, -, hEpoch, -⟩ := hHolds.identity
  rw [hCluster, hEpoch]
  refine ⟨hSound.logged, ⟨hHolds.readU64Meta, hHolds.readHashMeta⟩, ?_, ?_, ?_, ?_, ?_⟩
  · intro requestId record
    rw [← get_receipts_iff, hSound.rows.receipts]
    exact ⟨fun hRead => Except.ok.inj hRead, fun hGet => congrArg Except.ok hGet⟩
  · rw [← carryOut_data]
    exact hSound.rows.data
  · intro entry outcome hLast
    exact hSound.replay hLast
  · intro entry hOther hNot
    cases hApply : m.applyEntry entry with
    | error error => exact ⟨error, rfl⟩
    | ok result =>
      rcases hSound.applyEntry_cases hApply with ⟨-, hLast, -⟩ | ⟨hExtends, -⟩
      · exact absurd hLast (hOther _)
      · exact absurd hExtends hNot
  · intro start through read hRange hMost
    exact hSound.embeddedLogEntries_iff hRange hMost

end Runs

namespace Restored

attribute [local instance] Sha256.rolling

@[reducible] def file : Redb :=
  ⟨fun database => match database with
    | .whole tables => tables.data.flatMap fun row => row.1 ++ row.2
    | _ => []⟩

attribute [local instance] file

def put (requestId : String) (key value : Bytes) : Bytes :=
  (encodeReplicatedKvCommand ⟨requestId, .put key value⟩).toOption.getD []

def entryOf (index : Nat) (prevHash : LogHash) (payload : Bytes) : LogEntry :=
  let unsealed : LogEntry := ⟨"c", 1, 1, index, .command, payload, prevHash, .zero⟩
  { unsealed with hash := unsealed.recomputeHash }

def one : LogEntry := entryOf 1 .zero (put "r" [255] [2])

def two : LogEntry := entryOf 2 one.hash (put "s" [255, 0] [3])

/-- The first request is sent again. -/
def three : LogEntry := entryOf 3 two.hash (put "r" [255] [2])

def outcomeOf (entry : LogEntry) : ApplyOutcome := ⟨entry.index, entry.hash, some (.put false)⟩

def after (m : RedbStateMachine) (entry : LogEntry) : RedbStateMachine :=
  ((m.applyEntry entry).toOption.map (·.2)).getD m

def fresh : RedbStateMachine := ⟨⟨[], [], initialProgress "c" "n1" 1 1, []⟩, "c", "n1", 1, 1⟩

def third : RedbStateMachine := after (after (after fresh one) two) three

def history : List Applied :=
  [(one, outcomeOf one), (two, outcomeOf two), (three, outcomeOf three)]

theorem third_reached : Reached third history 1 := by
  have hOpen : RedbStateMachine.open .fresh "c" "n1" 1 1 = .ok fresh := by decide +kernel
  have hOne : fresh.applyEntry one = .ok (outcomeOf one, after fresh one) := by decide +kernel
  have hTwo : (after fresh one).applyEntry two = .ok (outcomeOf two, after (after fresh one) two) := by
    decide +kernel
  have hThree : (after (after fresh one) two).applyEntry three = .ok (outcomeOf three, third) := by
    decide +kernel
  have hFits : ∀ entry ∈ [one, two, three], Log.Fits entry := by
    simp only [List.forall_mem_cons]
    exact ⟨⟨by decide, by decide, by decide, by decide +kernel⟩,
      ⟨by decide, by decide, by decide, by decide +kernel⟩,
      ⟨by decide, by decide, by decide, by decide +kernel⟩, nofun⟩
  have hHistory : note (note (note [] one (outcomeOf one)) two (outcomeOf two)) three
      (outcomeOf three) = history := by decide +kernel
  rw [← hHistory]
  exact .applied (.applied (.applied (.opened hOpen) (hFits one (by simp)) hOne)
    (hFits two (by simp)) hTwo) (hFits three (by simp)) hThree

def compacted : RedbStateMachine := (third.compactEmbeddedLogBefore 3).toOption.getD third

/-- A machine whose embedded log begins with its last entry answers that again. -/
theorem third_answers_again : Reached compacted history 3 ∧
    compacted.applyEntry three = .ok (outcomeOf three, compacted) := by
  have hCompact : third.compactEmbeddedLogBefore 3 = .ok compacted := by decide +kernel
  have hReached : Reached compacted history 3 := .compacted third_reached hCompact
  exact ⟨hReached, (exactly_once hReached).2.2.2.2.1 three (outcomeOf three) rfl⟩

def restored : RedbStateMachine :=
  { third with tables := rebindSnapshotNode third.snapshotTables "n2", nodeId := "n2" }

def unsealedSnapshot : RedbSnapshot :=
  ⟨"c", "n1", 1, 1, 3, three.hash, kvMaterializerFingerprint, .zero, .whole third.snapshotTables⟩

def snapshot : RedbSnapshot := { unsealedSnapshot with digest := unsealedSnapshot.recomputeDigest }

/-- The machine that was restored from its snapshot does not. -/
theorem restored_refuses : ∃ m history since entry outcome, Reached m history since ∧
    history.getLast? = some (entry, outcome) ∧
    m.applyEntry entry = .error (.invalidEntry "replayed entry is missing from embedded qlog") := by
  have hSnapshot : third.createSnapshot 3 = .ok snapshot := by decide +kernel
  have hRestore : restoreSnapshotFile none snapshot "n2" = .ok (.whole restored.tables) := by
    decide +kernel
  have hOpen : RedbStateMachine.open (.whole restored.tables) "c" "n2" 1 1 = .ok restored := by
    decide +kernel
  have hSame : third.clusterId = "c" ∧ third.epoch = 1 ∧ third.configId = 1 := by decide +kernel
  refine ⟨restored, history, 4, three, outcomeOf three, ?_, rfl, ?_⟩
  · refine .restored third_reached hSnapshot hRestore ?_
    rw [hSame.1, hSame.2.1, hSame.2.2]
    exact hOpen
  · decide +kernel

end Restored

end Rhiza.Kv
