import Rhiza.Node.BatchAgrees

/-! # The key-value profile keeps the laws

A record is found by its request, an entry with new requests in it carries them out
in their order, and a batch of commands that fit one by one can be encoded.
-/

namespace Rhiza.Node

open Rhiza.Core Rhiza.Library

variable [Sha256]

def kvRecord (requests : List (Bytes × Bytes)) (requestId : String) :
    Option (LogHash × MutationOutcome Kv.KvCommandResultV1) :=
  match Kv.readRequest requests requestId with
  | .ok (some record) =>
    some (record.payloadHash, ⟨record.originalLogIndex, record.originalLogHash, record.result⟩)
  | _ => none

/-- Machines of one database that have applied the entries up to some index, and members as the
callers make them. -/
def kvView (id : Kv.Identity) : ProfileView kvProfile (List (Bytes × Bytes)) where
  run command data := Kv.runOperation data command.operation
  digest payload := LogHash.digest [payload]
  data m := m.tables.data
  record m := kvRecord m.tables.requests
  Good m n := ∃ tip known, Kv.Holds id m tip known ∧ tip.index = n
  Fits member := Kv.encodeReplicatedKvCommand member.command = .ok member.payload ∧
    member.payload.length ≤ maxCommandBytes
  limit := Kv.maxReplicatedKvBatchMembers

variable {id : Kv.Identity} {m : Kv.RedbStateMachine} {n : Nat} {known : String → Option LogHash}
  {requests : List (Bytes × Bytes)} {requestId : String} {entry : LogEntry}
  {member : ProfileMember Kv.KvCommandV1} {mark : LogHash}
  {outcome : MutationOutcome Kv.KvCommandResultV1}

omit [Sha256] in
theorem kvRecord_eq_none (h : Kv.Receipts requests known) :
    kvRecord requests requestId = none ↔ Kv.readRequest requests requestId = .ok none := by
  obtain ⟨record, hRead, -⟩ := h requestId
  rw [kvRecord, hRead]
  cases record with
  | none => exact iff_of_true rfl rfl
  | some record => exact iff_of_false nofun nofun

omit [Sha256] in
theorem kvRecord_eq_some (h : kvRecord requests requestId = some (mark, outcome)) :
    Kv.readRequest requests requestId =
      .ok (some ⟨mark, outcome.appliedIndex, outcome.hash, outcome.result⟩) := by
  unfold kvRecord at h
  split at h
  · rename_i record hRead
    cases h
    exact hRead
  · cases h

omit [Sha256] in
theorem kvRecord_insert {record : Kv.KvRequestRecord} (hIndex : record.originalLogIndex < u64Bound)
    (other : String) : kvRecord (Assoc.insert (utf8 requestId) record.encode requests) other =
      if other = requestId then some (record.payloadHash,
        ⟨record.originalLogIndex, record.originalLogHash, record.result⟩)
      else kvRecord requests other := by
  unfold kvRecord Kv.readRequest
  rw [Assoc.get_insert]
  by_cases hSame : other = requestId
  · rw [if_pos (congrArg utf8 hSame), if_pos hSame]
    simp only [Kv.KvRequestRecord.decode_encode hIndex, ok_bind]
  · rw [if_neg fun hUtf8 => hSame (utf8_inj.mp hUtf8), if_neg hSame]

theorem kv_checkRequest (hFits : (kvView id).Fits member) {record : Option Kv.KvRequestRecord}
    (hRead : Kv.readRequest m.tables.requests member.command.requestId = .ok record) :
    m.checkRequest member.command.requestId member.payload =
      (ensure (record.all (·.payloadHash = LogHash.digest [member.payload]))
        (.requestConflict member.command.requestId) >>= fun _ => .ok record) := by
  rw [Kv.RedbStateMachine.checkRequest, Kv.decodeReplicatedKvCommand_encode hFits.1, ok_bind,
    ensure_of rfl, ok_bind, hRead, ok_bind]

theorem kv_check_none (hGood : (kvView id).Good m n) (hFits : (kvView id).Fits member)
    (h : (kvView id).record m (kvProfile.requestId member.command) = none) :
    kvProfile.check m member = .ok none := by
  obtain ⟨tip, known, hHolds, -⟩ := hGood
  have hCheck : m.checkRequest member.command.requestId member.payload = .ok none := by
    rw [kv_checkRequest hFits ((kvRecord_eq_none hHolds.receipts).mp h)]
    rfl
  unfold Profile.check kvProfile
  dsimp only
  rw [hCheck]
  rfl

theorem kv_check_same (hFits : (kvView id).Fits member)
    (h : (kvView id).record m (kvProfile.requestId member.command) = some (mark, outcome))
    (hMark : mark = (kvView id).digest member.payload) :
    kvProfile.check m member = .ok (some outcome) := by
  have hHash : mark = LogHash.digest [member.payload] := hMark
  have hCheck : m.checkRequest member.command.requestId member.payload =
      .ok (some ⟨mark, outcome.appliedIndex, outcome.hash, outcome.result⟩) := by
    rw [kv_checkRequest hFits (kvRecord_eq_some h), Option.all_some,
      ensure_of (decide_eq_true hHash), ok_bind]
  unfold Profile.check kvProfile
  dsimp only
  rw [hCheck]
  rfl

theorem kv_check_other (hFits : (kvView id).Fits member)
    (h : (kvView id).record m (kvProfile.requestId member.command) = some (mark, outcome))
    (hMark : mark ≠ (kvView id).digest member.payload) :
    ∃ message, kvProfile.check m member = .error (.invalidRequest message) := by
  have hHash : ¬ mark = LogHash.digest [member.payload] := hMark
  have hCheck : m.checkRequest member.command.requestId member.payload =
      .error (.requestConflict member.command.requestId) := by
    rw [kv_checkRequest hFits (kvRecord_eq_some h), Option.all_some, ensure,
      if_neg fun hAll => hHash (of_decide_eq_true hAll)]
    rfl
  refine ⟨(Kv.Error.requestConflict member.command.requestId).display, ?_⟩
  unfold Profile.check kvProfile
  dsimp only
  rw [hCheck]

def kvJournal (rows : Kv.Rows) :
    Journal String LogHash Kv.KvCommandResultV1 (List (Bytes × Bytes)) where
  data := rows.data
  done requestId := (kvRecord rows.requests requestId).map fun record => (record.1, record.2.result)

def kvDecoded (member : ProfileMember Kv.KvCommandV1) : Kv.DecodedKvCommand :=
  ⟨member.command, member.payload⟩

theorem kv_applyCommand (id : Kv.Identity) {rows : Kv.Rows} (hIndex : entry.index < u64Bound)
    (hReceipts : Kv.Receipts rows.requests known)
    (hNew : kvRecord rows.requests member.command.requestId = none) :
    ∃ result rows', Kv.applyCommand entry rows (kvDecoded member) = .ok (result, rows') ∧
      kvJournal rows' = (kvView id).works.exec (kvJournal rows) member ∧
      ∀ other, kvRecord rows'.requests other =
        if other = member.command.requestId then
          some (LogHash.digest [member.payload], ⟨entry.index, entry.hash, result⟩)
        else kvRecord rows.requests other := by
  have hRead : Kv.readRequest rows.requests (kvDecoded member).command.requestId = .ok none :=
    (kvRecord_eq_none hReceipts).mp hNew
  have hApply : Kv.applyCommand entry rows (kvDecoded member) =
      .ok ((Kv.runOperation rows.data member.command.operation).1,
        ⟨Assoc.insert (utf8 member.command.requestId)
          (Kv.KvRequestRecord.mk (LogHash.digest [member.payload]) entry.index entry.hash
            (Kv.runOperation rows.data member.command.operation).1).encode rows.requests,
          (Kv.runOperation rows.data member.command.operation).2⟩) := by
    rw [Kv.applyCommand, hRead]
    rfl
  refine ⟨_, _, hApply, ?_, kvRecord_insert hIndex⟩
  have hDone : (kvJournal rows).done ((kvView id).works.key member) = none :=
    Option.map_eq_none_iff.mpr hNew
  rw [Works.exec_of_new hDone, kvJournal, Journal.mk.injEq]
  refine ⟨rfl, funext fun other => ?_⟩
  dsimp only
  rw [kvRecord_insert hIndex, remember]
  split
  · rename_i hSame
    exact (if_pos hSame).symm
  · rename_i hOther
    exact (if_neg hOther).symm

theorem kv_applyCommands (id : Kv.Identity) {jobs : List (ProfileMember Kv.KvCommandV1)}
    (rows : Kv.Rows) (hIndex : entry.index < u64Bound) (hReceipts : Kv.Receipts rows.requests known)
    (hDistinct : (jobs.map fun job => kvProfile.requestId job.command).Nodup)
    (hNew : ∀ job ∈ jobs, kvRecord rows.requests (kvProfile.requestId job.command) = none) :
    ∃ results rows', Kv.applyCommands entry rows (jobs.map kvDecoded) = .ok (results, rows') ∧
      kvJournal rows' = (kvView id).works.execAll (kvJournal rows) jobs ∧
      ∀ other, (kvRecord rows.requests other).isSome →
        kvRecord rows'.requests other = kvRecord rows.requests other := by
  induction jobs generalizing rows known with
  | nil => exact ⟨[], rows, rfl, rfl, fun _ _ => rfl⟩
  | cons job jobs ih =>
    obtain ⟨hFirst, hRest⟩ := List.nodup_cons.mp hDistinct
    have hNone := hNew job List.mem_cons_self
    obtain ⟨result, next, hApply, hJournal, hRecord⟩ := kv_applyCommand id hIndex hReceipts hNone
    obtain ⟨-, hReceipts'⟩ := Kv.applyCommand_takes hIndex hReceipts hApply
    have hLater : ∀ later ∈ jobs, kvRecord next.requests (kvProfile.requestId later.command) = none := by
      intro later hLater
      have hOther : kvProfile.requestId later.command ≠ kvProfile.requestId job.command := by
        intro hSame
        exact hFirst (List.mem_map.mpr ⟨later, hLater, hSame⟩)
      rw [hRecord]
      exact (if_neg hOther).trans (hNew later (List.mem_cons_of_mem _ hLater))
    obtain ⟨results, last, hApplyAll, hJournalAll, hKept⟩ := ih next hReceipts' hRest hLater
    refine ⟨result :: results, last, ?_, ?_, fun other hSome => ?_⟩
    · rw [List.map_cons, Kv.applyCommands, hApply, ok_bind]
      simp only [hApplyAll, ok_bind]
    · rw [hJournalAll, hJournal]
      rfl
    · have hSame : kvRecord next.requests other = kvRecord rows.requests other := by
        rw [hRecord]
        refine if_neg fun hJob => ?_
        rw [hJob] at hSome
        cases hNone ▸ hSome
      rw [hKept other (hSame ▸ hSome), hSame]

theorem kv_encodeBatch {commands : List Kv.KvCommandV1} {payload : Bytes} :
    kvProfile.encodeBatch commands = .ok payload ↔
      Kv.encodeReplicatedKvBatch commands = .ok payload := by
  change (Kv.encodeReplicatedKvBatch commands).mapError _ = _ ↔ _
  cases Kv.encodeReplicatedKvBatch commands with
  | error error => exact ⟨nofun, nofun⟩
  | ok bytes => exact ⟨fun h => congrArg _ (Except.ok.inj h), fun h => congrArg _ (Except.ok.inj h)⟩

theorem kv_decodedCommands (clusterId : ClusterId) (epoch configId : Nat) (tip : LogAnchor)
    (slot : Nat) {payload : Bytes} {jobs : List (ProfileMember Kv.KvCommandV1)}
    (hCarries : kvProfile.Carries payload jobs) (hFits : ∀ job ∈ jobs, (kvView id).Fits job) :
    Kv.decodedCommands (deterministicEntry clusterId epoch configId tip slot payload) =
      .ok (jobs.map kvDecoded) := by
  have hType : (deterministicEntry clusterId epoch configId tip slot payload).entryType = .command := rfl
  rw [Kv.decodedCommands, if_pos hType]
  change Kv.decodeReplicatedKvCommands payload = _
  obtain ⟨member, rfl, rfl⟩ | hBatch := hCarries
  · exact Kv.decodeReplicatedKvCommands_single (hFits member List.mem_cons_self).1
  · have hEncode : Kv.encodeReplicatedKvBatch ((jobs.map kvDecoded).map (·.command)) = .ok payload := by
      rw [List.map_map]
      exact kv_encodeBatch.mp hBatch
    refine Kv.decodeReplicatedKvCommands_batch (fun decoded hDecoded => ?_) hEncode
    obtain ⟨job, hJob, rfl⟩ := List.mem_map.mp hDecoded
    exact (hFits job hJob).1

theorem kv_commit {payload : Bytes} {jobs : List (ProfileMember Kv.KvCommandV1)}
    (hGood : (kvView id).Good m n) (hRoom : n + 1 < u64Bound) (hCarries : kvProfile.Carries payload jobs)
    (hFits : ∀ job ∈ jobs, (kvView id).Fits job)
    (hDistinct : (jobs.map fun job => kvProfile.requestId job.command).Nodup)
    (hNew : ∀ job ∈ jobs, (kvView id).record m (kvProfile.requestId job.command) = none) :
    ∃ m', kvProfile.commit m payload = .ok m' ∧ (kvView id).Good m' (n + 1) ∧
      (kvView id).journal m' = (kvView id).works.execAll ((kvView id).journal m) jobs ∧
      (kvView id).Extends m m' := by
  obtain ⟨tip, known, hHolds, rfl⟩ := hGood
  have hSlot : checkedSucc tip.index = some (tip.index + 1) := if_pos hRoom
  have hCommands := kv_decodedCommands m.clusterId m.epoch m.configId tip (tip.index + 1) hCarries hFits
  obtain ⟨hCluster, -, hEpoch, hConfig⟩ := hHolds.identity
  generalize hEntry : deterministicEntry m.clusterId m.epoch m.configId tip (tip.index + 1) payload =
    entry at hCommands
  have hNext : ExtendsLog id.clusterId id.epoch tip entry := by
    rw [← hEntry, ← hCluster, ← hEpoch]
    exact ⟨rfl, rfl, hSlot, rfl, rfl⟩
  have hSame : entry.configId = id.configId := by
    rw [← hEntry]
    exact hConfig
  have hIndex : entry.index < u64Bound := lt_of_checkedSucc hNext.index
  obtain ⟨results, rows', hApply, hJournal, hRecords⟩ := kv_applyCommands id
    ⟨m.tables.requests, m.tables.data⟩ hIndex hHolds.receipts hDistinct hNew
  have hType : entry.entryType = .command := by rw [← hEntry]; rfl
  have hByType : Kv.applyByType entry ⟨m.tables.requests, m.tables.data⟩ (jobs.map kvDecoded) =
      .ok (Kv.singleResult results, rows') := by
    simp only [Kv.applyByType, hType, hApply, ok_bind]
  obtain ⟨-, -, -, hReceipts⟩ := Kv.applyByType_takes hIndex hHolds.receipts hCommands hByType
  have hStored := hHolds.stored hNext hReceipts
  refine ⟨m.stored entry rows', ?_, ⟨entry.anchor, _, hStored, ?_⟩, ?_, hRecords⟩
  · have hApplied := Kv.applyEntry_eq hHolds hNext hSame hCommands
    rw [hByType, ok_bind] at hApplied
    have hTip : m.appliedTip = .ok tip := by
      rw [Kv.RedbStateMachine.appliedTip, hHolds.readU64Meta, ok_bind, hHolds.readHashMeta, ok_bind]
    have hAppliedTip : kvProfile.appliedTip m = .ok tip := by
      change m.appliedTip.mapError _ = _
      rw [hTip]
      rfl
    have hOwn : kvProfile.ownEntry m tip (tip.index + 1) payload = entry := hEntry
    rw [Profile.commit_of hAppliedTip hSlot, hOwn]
    unfold kvProfile
    dsimp only
    rw [hApplied]
  · exact checkedSucc_eq_some hNext.index
  · exact hJournal

theorem kv_encode {jobs : List (ProfileMember Kv.KvCommandV1)}
    (hFits : ∀ job ∈ jobs, (kvView id).Fits job) (hSome : jobs ≠ [])
    (hFew : jobs.length ≤ (kvView id).limit)
    (hDistinct : (jobs.map fun job => kvProfile.requestId job.command).Nodup) :
    ∃ payload, kvProfile.encodeBatch (jobs.map (·.command)) = .ok payload := by
  have hLimit : jobs.length ≤ Kv.maxReplicatedKvBatchMembers := hFew
  have hEach : ∀ command ∈ jobs.map (·.command),
      command.validate = .ok () ∧ command.encode.length ≤ maxCommandBytes := by
    intro command hCommand
    obtain ⟨job, hJob, rfl⟩ := List.mem_map.mp hCommand
    obtain ⟨hEncode, hSize⟩ := hFits job hJob
    obtain ⟨⟨⟩, hValid, hEnvelope⟩ := bind_ok_iff.mp hEncode
    exact ⟨hValid, (Kv.length_le_of_encodeEnvelope hEnvelope).trans hSize⟩
  have hBatchable : Kv.Batchable [] (jobs.map (·.command)) := by
    refine ⟨fun command hCommand => (hEach command hCommand).1,
      fun command hCommand => lt_of_le_of_lt (hEach command hCommand).2 (by decide),
      fun command _ => List.not_mem_nil, ?_⟩
    rw [List.map_map]
    exact hDistinct
  have hBody : (Kv.batchCommandMagic ++ toBeBytes 2 (jobs.map (·.command)).length ++
      (jobs.map (·.command)).flatMap Kv.memberBytes).length < 2 ^ 32 := by
    have hMembers : ((jobs.map (·.command)).flatMap Kv.memberBytes).length ≤
        (jobs.map (·.command)).length * (4 + maxCommandBytes) := by
      refine length_flatMap_le fun command hCommand => ?_
      rw [Kv.memberBytes, List.length_append, toBeBytes_length]
      exact Nat.add_le_add_left (hEach command hCommand).2 4
    have hMagic : Kv.batchCommandMagic.length = 6 := by decide
    have hMost : jobs.length * (4 + maxCommandBytes) ≤ 1024 * (4 + 512 * 1024) :=
      Nat.mul_le_mul_right _ hLimit
    rw [List.length_map] at hMembers
    rw [List.length_append, List.length_append, toBeBytes_length, hMagic]
    omega
  have hFields : validateCommandEnvelopeFields Kv.batchCommandVersion Kv.batchRequestId
      (Kv.batchCommandMagic ++ toBeBytes 2 (jobs.map (·.command)).length ++
        (jobs.map (·.command)).flatMap Kv.memberBytes) = .ok () := by
    simp only [validateCommandEnvelopeFields, unit_bind_ok_iff, ensure_ok_iff]
    exact ⟨by decide, by decide, by decide, hBody⟩
  have hNonempty : jobs.map (·.command) ≠ [] := fun hNil => hSome (List.map_eq_nil_iff.mp hNil)
  have hCount : (jobs.map (·.command)).length ≤ Kv.maxReplicatedKvBatchMembers := by
    rw [List.length_map]
    exact hLimit
  exact ⟨_, kv_encodeBatch.mpr (Kv.encodeReplicatedKvBatch_eq_ok.mpr
    ⟨⟨hNonempty, hCount⟩, hBatchable, Kv.encodeEnvelope_iff.mpr ⟨hFields, rfl⟩⟩)⟩

omit [Sha256] in
theorem searchKvPrefix_eq_some {commands : List Kv.KvCommandV1} {lower upper : Nat}
    {hLower : 0 < lower} {largest : Option (Nat × Bytes)} {count : Nat} {payload : Bytes}
    (h : searchKvPrefix commands lower upper hLower largest = some (count, payload))
    (hUpper : upper ≤ commands.length)
    (hLargest : ∀ count payload, largest = some (count, payload) → 0 < count ∧
      count ≤ commands.length ∧ Kv.encodeReplicatedKvBatch (commands.take count) = .ok payload) :
    0 < count ∧ count ≤ commands.length ∧
      Kv.encodeReplicatedKvBatch (commands.take count) = .ok payload := by
  fun_induction searchKvPrefix commands lower upper hLower largest with
  | case1 lower upper hLower largest hOrder count' error hEncode => exact hLargest count payload h
  | case2 lower upper hLower largest hOrder count' bytes hEncode hSize ih =>
    refine ih h hUpper fun count payload hFound => ?_
    obtain ⟨rfl, rfl⟩ := Prod.mk.inj (Option.some.inj hFound)
    exact ⟨by omega, by omega, hEncode⟩
  | case3 lower upper hLower largest hOrder count' bytes hEncode hSize ih =>
    exact ih h (by omega) hLargest
  | case4 lower upper hLower largest hOrder => exact hLargest count payload h

theorem kv_fits {commands : List Kv.KvCommandV1} {count : Nat} {payload : Bytes}
    (h : kvProfile.fittingPrefix commands = some (count, payload)) :
    0 < count ∧ count ≤ commands.length ∧
      kvProfile.encodeBatch (commands.take count) = .ok payload := by
  change largestFittingKvBatchPrefix commands = _ at h
  rw [largestFittingKvBatchPrefix] at h
  split at h
  · cases h
  · obtain ⟨hPositive, hLe, hEncode⟩ := searchKvPrefix_eq_some h (by omega) nofun
    exact ⟨hPositive, hLe, kv_encodeBatch.mpr hEncode⟩

theorem kv_lawful (id : Kv.Identity) : (kvView id).Lawful where
  check_none := kv_check_none
  check_same _ hFits := kv_check_same hFits
  check_other _ hFits := kv_check_other hFits
  commit := kv_commit
  encode := kv_encode
  fits := kv_fits

end Rhiza.Node
