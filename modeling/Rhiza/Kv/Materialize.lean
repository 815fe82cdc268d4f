import Rhiza.Core.Configuration
import Rhiza.Kv.StateMachine
import Rhiza.Library.Once

/-! # What the key-value materializer accepts

A machine that has applied the entries up to a tip takes the next entry exactly
when the entry is one of its own configuration, can be decoded, and does not use
a request id again for another command.
-/

namespace Rhiza.Kv

open Core Library

theorem takeBytes_append {n : Nat} {front : Bytes} (rest : Bytes) (h : front.length = n) :
    takeBytes n (front ++ rest) = .ok (front, rest) :=
  takeOr_append _ rest h

theorem takeUint_append (width : Nat) {n : Nat} (rest : Bytes) (h : n < 256 ^ width) :
    takeUint width (toBeBytes width n ++ rest) = .ok (n, rest) :=
  takeUintOr_append _ width rest h

theorem takeHash_append (hash : LogHash) (rest : Bytes) :
    takeHash (hash.bytes ++ rest) = .ok (hash, rest) := by
  rw [takeHash, readHash_append]
  rfl

theorem decode_result (result : KvCommandResultV1) : ∃ (tag : Nat) (flag : Bool),
    result.encode = toBeBytes 1 tag ++ toBeBytes 1 flag.toNat ∧ tag < 256 ^ 1 ∧
      KvCommandResultV1.fromTag tag flag = .ok result := by
  cases result with
  | put replaced => exact ⟨1, replaced, by cases replaced <;> decide, by decide, rfl⟩
  | delete existed => exact ⟨2, existed, by cases existed <;> decide, by decide, rfl⟩

theorem takeFlag_append (flag : Bool) (rest : Bytes) :
    takeFlag (toBeBytes 1 flag.toNat ++ rest) = .ok (flag, rest) := by
  have hFits : flag.toNat < 256 ^ 1 := by cases flag <;> decide
  have hFlag : flag.toNat ≤ 1 := by cases flag <;> decide
  rw [takeFlag, takeUint_append 1 rest hFits, ok_bind]
  simp only [ensure_of hFlag, ok_bind]
  cases flag <;> rfl

theorem KvRequestRecord.decode_encode {record : KvRequestRecord}
    (h : record.originalLogIndex < u64Bound) : decode record.encode = .ok record := by
  obtain ⟨tag, flag, hResult, hTag, hFromTag⟩ := decode_result record.result
  have hFlag := takeFlag_append flag []
  rw [List.append_nil] at hFlag
  unfold decode encode
  simp only [List.append_assoc, takeBytes_append _ rfl, ok_bind, ensure_of, takeHash_append,
    takeUint_append 8 _ h, hResult, takeUint_append 1 _ hTag, hFlag, hFromTag,
    finish]

def Receipts (requests : List (Bytes × Bytes)) (known : String → Option LogHash) : Prop :=
  ∀ requestId, ∃ record, readRequest requests requestId = .ok record ∧
    record.map (·.payloadHash) = known requestId

section Commands

variable [Sha256] {entry : LogEntry}

def DecodedKvCommand.item (member : DecodedKvCommand) : String × LogHash :=
  (member.command.requestId, LogHash.digest [member.individualPayload])

omit [Sha256] in
theorem Receipts.insert {requests : List (Bytes × Bytes)} {known : String → Option LogHash}
    (h : Receipts requests known) {requestId : String} {record : KvRequestRecord}
    (hIndex : record.originalLogIndex < u64Bound) :
    Receipts (Assoc.insert (utf8 requestId) record.encode requests)
      (remember known (requestId, record.payloadHash)) := by
  intro other
  unfold readRequest remember
  rw [Assoc.get_insert]
  by_cases hSame : other = requestId
  · rw [if_pos (congrArg utf8 hSame), if_pos hSame]
    simp only [KvRequestRecord.decode_encode hIndex, ok_bind]
    exact ⟨some record, rfl, rfl⟩
  · rw [if_neg fun hUtf8 => hSame (utf8_inj.mp hUtf8), if_neg hSame]
    exact h other

theorem applyCommand_takes {rows rows' : Rows} {known : String → Option LogHash}
    {member : DecodedKvCommand} {result : KvCommandResultV1} (hIndex : entry.index < u64Bound)
    (hReceipts : Receipts rows.requests known)
    (h : applyCommand entry rows member = .ok (result, rows')) :
    (∀ value, known member.item.1 = some value → value = member.item.2) ∧
      Receipts rows'.requests (remember known member.item) := by
  obtain ⟨record, hRead, hKnown⟩ := hReceipts member.command.requestId
  rw [applyCommand, hRead, ok_bind] at h
  cases record with
  | some record =>
    simp only [bind_ok_iff, exists_ensure_iff] at h
    obtain ⟨hSame, h⟩ := h
    cases h
    have hItem : known member.item.1 = some member.item.2 := hKnown.symm.trans (congrArg some hSame)
    rw [remember_known hItem]
    exact ⟨fun value hValue => Option.some.inj (hValue.symm.trans hItem), hReceipts⟩
  | none =>
    cases h
    refine ⟨fun value hValue => ?_, hReceipts.insert hIndex⟩
    cases hKnown.trans hValue

theorem applyCommand_taken {rows : Rows} {known : String → Option LogHash}
    {member : DecodedKvCommand} (hReceipts : Receipts rows.requests known)
    (h : ∀ value, known member.item.1 = some value → value = member.item.2) :
    ∃ result rows', applyCommand entry rows member = .ok (result, rows') := by
  obtain ⟨record, hRead, hKnown⟩ := hReceipts member.command.requestId
  rw [applyCommand, hRead, ok_bind]
  cases record with
  | some record =>
    have hSame : record.payloadHash = LogHash.digest [member.individualPayload] :=
      h _ hKnown.symm
    simp only [ensure_of hSame, ok_bind]
    exact ⟨_, _, rfl⟩
  | none => exact ⟨_, _, rfl⟩

theorem applyCommands_takes {members : List DecodedKvCommand} {rows rows' : Rows}
    {known : String → Option LogHash} {results : List KvCommandResultV1}
    (hIndex : entry.index < u64Bound) (hReceipts : Receipts rows.requests known)
    (h : applyCommands entry rows members = .ok (results, rows')) :
    Coherent known (members.map (·.item)) ∧
      Receipts rows'.requests ((members.map (·.item)).foldl remember known) := by
  induction members generalizing rows known results with
  | nil =>
    cases h
    exact ⟨trivial, hReceipts⟩
  | cons member members ih =>
    rw [applyCommands] at h
    obtain ⟨⟨result, next⟩, hNext, h⟩ := bind_ok_iff.mp h
    obtain ⟨⟨rest, last⟩, hRest, h⟩ := bind_ok_iff.mp h
    cases h
    obtain ⟨hNew, hReceipts⟩ := applyCommand_takes hIndex hReceipts hNext
    obtain ⟨hCoherent, hReceipts⟩ := ih hReceipts hRest
    exact ⟨⟨hNew, hCoherent⟩, hReceipts⟩

theorem applyCommands_taken {members : List DecodedKvCommand} {rows : Rows}
    {known : String → Option LogHash} (hIndex : entry.index < u64Bound)
    (hReceipts : Receipts rows.requests known) (h : Coherent known (members.map (·.item))) :
    ∃ results rows', applyCommands entry rows members = .ok (results, rows') := by
  induction members generalizing rows known with
  | nil => exact ⟨[], rows, rfl⟩
  | cons member members ih =>
    obtain ⟨result, next, hNext⟩ := applyCommand_taken hReceipts h.1
    obtain ⟨-, hReceipts⟩ := applyCommand_takes hIndex hReceipts hNext
    obtain ⟨results, last, hLast⟩ := ih hReceipts h.2
    refine ⟨result :: results, last, ?_⟩
    rw [applyCommands, hNext, ok_bind]
    simp only [hLast, ok_bind]

end Commands

section Entries

variable [Sha256]

structure Identity where
  clusterId : ClusterId
  nodeId : NodeId
  epoch : Nat
  configId : Nat
  deriving DecidableEq

def Identity.rows (id : Identity) : List (String × Bytes) :=
  [(metaClusterId, utf8 id.clusterId), (metaNodeId, utf8 id.nodeId),
    (metaEpoch, toBeBytes 8 id.epoch), (metaConfigId, toBeBytes 8 id.configId),
    (metaMaterializerFingerprint, kvMaterializerFingerprint.bytes)]

structure Holds (id : Identity) (m : RedbStateMachine) (tip : LogAnchor)
    (known : String → Option LogHash) : Prop where
  identity : m.clusterId = id.clusterId ∧ m.nodeId = id.nodeId ∧ m.epoch = id.epoch ∧
    m.configId = id.configId
  rows : ∀ row ∈ id.rows, Assoc.get m.tables.progress row.1 = some row.2
  index : Assoc.get m.tables.progress metaAppliedIndex = some (toBeBytes 8 tip.index)
  bounded : tip.index < u64Bound
  hash : Assoc.get m.tables.progress metaAppliedHash = some tip.hash.bytes
  behind : ∀ index, (Assoc.get m.tables.embeddedLog index).isSome → index ≤ tip.index
  receipts : Receipts m.tables.requests known

theorem Holds.fresh (id : Identity) : Holds id
    ⟨⟨[], [], initialProgress id.clusterId id.nodeId id.epoch id.configId, []⟩, id.clusterId,
      id.nodeId, id.epoch, id.configId⟩ ⟨0, .zero⟩ fun _ => none := by
  refine ⟨⟨rfl, rfl, rfl, rfl⟩, ?_, rfl, by decide, rfl, nofun, fun _ => ⟨none, rfl, rfl⟩⟩
  intro row hRow
  simp only [Identity.rows, List.mem_cons, List.not_mem_nil, or_false] at hRow
  rcases hRow with rfl | rfl | rfl | rfl | rfl <;> rfl

def items (entry : LogEntry) : List (String × LogHash) :=
  match decodedCommands entry with
  | .ok commands => commands.map (·.item)
  | .error _ => []

structure Admits (id : Identity) (entry : LogEntry) : Prop where
  config : entry.configId = id.configId
  decodes : ∃ commands, decodedCommands entry = .ok commands
  noop : entry.entryType = .noop → entry.payload = []
  change : entry.entryType = .configChange →
    (ConfigChange.recognizeParts entry.entryType entry.payload).isSome

variable {id : Identity} {m : RedbStateMachine} {tip : LogAnchor}
  {known : String → Option LogHash} {entry : LogEntry}

omit [Sha256] in
theorem readMeta_eq {progress : List (String × Bytes)} {key : String} {value : Bytes}
    (h : Assoc.get progress key = some value) : readMeta progress key = .ok value := by
  rw [readMeta, h]
  rfl

theorem Holds.readU64Meta (h : Holds id m tip known) :
    readU64Meta m.tables.progress metaAppliedIndex = .ok tip.index := by
  rw [Kv.readU64Meta, readMeta_eq h.index, ok_bind, ensure_of (toBeBytes_length 8 tip.index),
    ok_bind, fromBeBytes_toBeBytes 8 tip.index h.bounded]

theorem Holds.readHashMeta (h : Holds id m tip known) :
    readHashMeta m.tables.progress metaAppliedHash = .ok tip.hash := by
  rw [Kv.readHashMeta, readMeta_eq h.hash, ok_bind, dif_pos tip.hash.size]

theorem Holds.validateProgress (h : Holds id m tip known) :
    validateProgress m.tables.progress id.clusterId id.nodeId id.epoch id.configId = .ok () := by
  have hRow : ∀ row ∈ id.rows, requireMeta m.tables.progress row.1 row.2 = .ok () := by
    intro row hMem
    rw [requireMeta, readMeta_eq (h.rows row hMem), ok_bind, ensure_of rfl]
  have hSome : (Assoc.get m.tables.progress metaClusterId).isSome := by
    rw [h.rows (metaClusterId, utf8 id.clusterId) List.mem_cons_self]
    rfl
  simp only [Identity.rows, List.forall_mem_cons] at hRow
  obtain ⟨hCluster, hNode, hEpoch, hConfig, hFingerprint, -⟩ := hRow
  simp only [Kv.validateProgress, ensure_of hSome, hCluster, hNode, hEpoch, hConfig, hFingerprint,
    h.readU64Meta, h.readHashMeta, ok_bind]

theorem applyEntry_eq (hHolds : Holds id m tip known) (hNext : ExtendsLog id.clusterId id.epoch tip entry)
    (hConfig : entry.configId = id.configId) {commands : List DecodedKvCommand}
    (hCommands : decodedCommands entry = .ok commands) :
    m.applyEntry entry =
      (applyByType entry ⟨m.tables.requests, m.tables.data⟩ commands >>= fun applied =>
        .ok (⟨entry.index, entry.hash, applied.1⟩, m.stored entry applied.2)) := by
  obtain ⟨hCluster, -, hEpoch, hSameConfig⟩ := hHolds.identity
  have hIndex := checkedSucc_eq_some hNext.index
  have hFree : (Assoc.get m.tables.embeddedLog entry.index).isNone := by
    rw [← Option.not_isSome_iff_eq_none.trans Option.isNone_iff_eq_none.symm]
    intro hSome
    have := hHolds.behind entry.index hSome
    omega
  have hOther : entry.index ≠ tip.index := by omega
  rw [RedbStateMachine.applyEntry, RedbStateMachine.validateEntryIdentity, hCluster, hEpoch,
    hSameConfig, ensure_of hNext.cluster, ensure_of hNext.epoch, ensure_of hConfig]
  simp only [ok_bind, ensure_of hNext.hash, hCommands, hHolds.readU64Meta, hHolds.readHashMeta,
    if_neg hOther, RedbStateMachine.applyNext, hNext.index, Option.elim_some, ensure_of hNext.prev,
    ensure_of hFree]
  rfl

theorem config_of_applyEntry {result : ApplyOutcome × RedbStateMachine}
    (h : m.applyEntry entry = .ok result) :
    entry.configId = m.configId ∧ ∃ commands, decodedCommands entry = .ok commands := by
  obtain ⟨⟨⟩, hIdentity, h⟩ := bind_ok_iff.mp h
  simp only [RedbStateMachine.validateEntryIdentity, bind_ok_iff, exists_ensure_iff,
    ensure_ok_iff] at hIdentity
  simp only [bind_ok_iff, exists_ensure_iff] at h
  obtain ⟨-, commands, hCommands, -⟩ := h
  exact ⟨hIdentity.2.2, commands, hCommands⟩

theorem items_eq {commands : List DecodedKvCommand} (h : decodedCommands entry = .ok commands) :
    items entry = commands.map (·.item) := by
  rw [items, h]

omit [Sha256] in
theorem decodedCommands_of_ne (hType : entry.entryType ≠ .command)
    {commands : List DecodedKvCommand} (h : decodedCommands entry = .ok commands) :
    commands = [] := by
  rw [decodedCommands, if_neg hType] at h
  exact (Except.ok.inj h).symm

theorem applyByType_takes {rows rows' : Rows} {commands : List DecodedKvCommand}
    {result : Option KvCommandResultV1} (hIndex : entry.index < u64Bound)
    (hReceipts : Receipts rows.requests known) (hCommands : decodedCommands entry = .ok commands)
    (h : applyByType entry rows commands = .ok (result, rows')) :
    (entry.entryType = .noop → entry.payload = []) ∧
    (entry.entryType = .configChange →
      (ConfigChange.recognizeParts entry.entryType entry.payload).isSome) ∧
    Coherent known (items entry) ∧ Receipts rows'.requests ((items entry).foldl remember known) := by
  rw [items_eq hCommands]
  cases hType : entry.entryType with
  | command =>
    simp only [applyByType, hType] at h
    obtain ⟨⟨results, last⟩, hApplied, h⟩ := bind_ok_iff.mp h
    cases h
    exact ⟨fun hType => (by cases hType), fun hType => (by cases hType),
      applyCommands_takes hIndex hReceipts hApplied⟩
  | noop =>
    obtain rfl := decodedCommands_of_ne (by simp [hType]) hCommands
    simp only [applyByType, hType, bind_ok_iff, exists_ensure_iff] at h
    obtain ⟨hPayload, h⟩ := h
    cases h
    exact ⟨fun _ => hPayload, fun hType => (by cases hType), trivial, hReceipts⟩
  | configChange =>
    obtain rfl := decodedCommands_of_ne (by simp [hType]) hCommands
    simp only [applyByType, hType, bind_ok_iff, exists_ensure_iff] at h
    obtain ⟨hChange, h⟩ := h
    cases h
    exact ⟨fun hType => (by cases hType), fun _ => hChange, trivial, hReceipts⟩
  | snapshotBarrier =>
    obtain rfl := decodedCommands_of_ne (by simp [hType]) hCommands
    simp only [applyByType, hType] at h
    cases h
    exact ⟨fun hType => (by cases hType), fun hType => (by cases hType), trivial, hReceipts⟩
  | snapshotPublished =>
    obtain rfl := decodedCommands_of_ne (by simp [hType]) hCommands
    simp only [applyByType, hType] at h
    cases h
    exact ⟨fun hType => (by cases hType), fun hType => (by cases hType), trivial, hReceipts⟩

theorem applyByType_taken (rows : Rows) {commands : List DecodedKvCommand}
    (hIndex : entry.index < u64Bound) (hReceipts : Receipts rows.requests known)
    (hCommands : decodedCommands entry = .ok commands) (hAdmits : Admits id entry)
    (hCoherent : Coherent known (items entry)) :
    ∃ result rows', applyByType entry rows commands = .ok (result, rows') := by
  rw [items_eq hCommands] at hCoherent
  cases hType : entry.entryType with
  | command =>
    obtain ⟨results, rows', hApplied⟩ := applyCommands_taken hIndex hReceipts hCoherent
    simp only [applyByType, hType, hApplied, ok_bind]
    exact ⟨_, _, rfl⟩
  | noop =>
    simp only [applyByType, hType, ensure_of (hAdmits.noop hType), ok_bind]
    exact ⟨_, _, rfl⟩
  | configChange =>
    have hChange := hAdmits.change hType
    rw [hType] at hChange
    simp only [applyByType, hType, ensure_of hChange, ok_bind]
    exact ⟨_, _, rfl⟩
  | snapshotBarrier =>
    simp only [applyByType, hType]
    exact ⟨_, _, rfl⟩
  | snapshotPublished =>
    simp only [applyByType, hType]
    exact ⟨_, _, rfl⟩

theorem Holds.stored {rows : Rows} (h : Holds id m tip known) (hNext : ExtendsLog id.clusterId id.epoch tip entry)
    (hReceipts : Receipts rows.requests ((items entry).foldl remember known)) :
    Holds id (m.stored entry rows) entry.anchor ((items entry).foldl remember known) := by
  have hIndex := checkedSucc_eq_some hNext.index
  have hGet : ∀ key, Assoc.get (m.stored entry rows).tables.progress key =
      if key = metaAppliedHash then some entry.hash.bytes
      else if key = metaAppliedIndex then some (toBeBytes 8 entry.index)
      else Assoc.get m.tables.progress key := by
    intro key
    rw [RedbStateMachine.stored, Assoc.get_insert, Assoc.get_insert]
  refine ⟨h.identity, ?_, ?_, lt_of_checkedSucc hNext.index, ?_, ?_, hReceipts⟩
  · intro row hRow
    have hOther : row.1 ≠ metaAppliedHash ∧ row.1 ≠ metaAppliedIndex := by
      simp only [Identity.rows, List.mem_cons, List.not_mem_nil, or_false] at hRow
      rcases hRow with rfl | rfl | rfl | rfl | rfl <;>
        exact ⟨by dsimp only; decide, by dsimp only; decide⟩
    rw [hGet, if_neg hOther.1, if_neg hOther.2]
    exact h.rows row hRow
  · rw [hGet, if_neg (by decide), if_pos rfl]
    rfl
  · rw [hGet, if_pos rfl]
    rfl
  · intro index hSome
    change index ≤ entry.index
    rw [RedbStateMachine.stored, Assoc.get_insert] at hSome
    split at hSome
    · exact le_of_eq ‹index = entry.index›
    · have := h.behind index hSome
      omega

theorem remembers (id : Identity) : Remembers
    (fun (m : RedbStateMachine) (entry : LogEntry) => (·.2) <$> m.applyEntry entry) items (ExtendsLog id.clusterId id.epoch)
    LogEntry.anchor (Admits id) (Holds id) where
  takes {m tip known entry next} hHolds hNext hApply := by
    obtain ⟨⟨outcome, m'⟩, hResult, rfl⟩ := map_ok_iff.mp hApply
    obtain ⟨hConfig, commands, hCommands⟩ := config_of_applyEntry hResult
    rw [hHolds.identity.2.2.2] at hConfig
    rw [applyEntry_eq hHolds hNext hConfig hCommands] at hResult
    obtain ⟨⟨result, rows⟩, hRows, hStored⟩ := bind_ok_iff.mp hResult
    cases hStored
    obtain ⟨hNoop, hChange, hCoherent, hReceipts⟩ :=
      applyByType_takes (lt_of_checkedSucc hNext.index) hHolds.receipts hCommands hRows
    exact ⟨⟨hConfig, ⟨commands, hCommands⟩, hNoop, hChange⟩, hCoherent,
      hHolds.stored hNext hReceipts⟩
  taken {m tip known entry} hHolds hNext hAdmits hCoherent := by
    obtain ⟨commands, hCommands⟩ := hAdmits.decodes
    obtain ⟨result, rows, hRows⟩ := applyByType_taken ⟨m.tables.requests, m.tables.data⟩
      (lt_of_checkedSucc hNext.index) hHolds.receipts hCommands hAdmits hCoherent
    refine ⟨m.stored entry rows, map_ok_iff.mpr
      ⟨(⟨entry.index, entry.hash, result⟩, m.stored entry rows), ?_, rfl⟩⟩
    rw [applyEntry_eq hHolds hNext hAdmits.config hCommands, hRows, ok_bind]

end Entries

end Rhiza.Kv
