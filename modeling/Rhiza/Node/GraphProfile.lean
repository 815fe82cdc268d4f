import Rhiza.Node.BatchAgrees

/-! # The graph profile keeps the laws

As for the key-value profile, with records that are rows of a table.
-/

namespace Rhiza.Node

open Rhiza.Core Rhiza.Library

variable [Sha256]

def graphRecord (requests : List (String × Graph.RequestRow)) (requestId : String) :
    Option (LogHash × MutationOutcome Graph.GraphCommandResultV1) :=
  (Assoc.get requests requestId).map fun row =>
    (row.commandHash, ⟨row.originalLogIndex, row.originalLogHash, row.result⟩)

variable [Graph.Ladybug]

/-- Machines of one database that have applied the entries up to some index, and members as the
callers make them. -/
def graphView (identity : Graph.Identity) :
    ProfileView graphProfile (List (String × Graph.GraphValueV1)) where
  run command documents := Graph.runOperation documents command.operation
  digest := Graph.commandDigest
  data m := m.database.documents
  record m := graphRecord m.database.requests
  Good m n := ∃ tip known, Graph.Holds identity m tip known ∧ tip.index = n
  Fits member := Graph.encodeReplicatedGraphCommand member.command = .ok member.payload ∧
    member.payload.length ≤ maxCommandBytes ∧ member.command.validate = .ok () ∧
    member.command.operation.InRange
  limit := Graph.maxGraphBatchMembers

variable {identity : Graph.Identity} {m : Graph.LadybugStateMachine} {n : Nat}
  {known : String → Option LogHash} {requests : List (String × Graph.RequestRow)}
  {requestId : String} {entry : LogEntry} {member : ProfileMember Graph.GraphCommandV1}
  {mark : LogHash} {outcome : MutationOutcome Graph.GraphCommandResultV1}

omit [Sha256] [Graph.Ladybug] in
theorem graphRecord_eq_none :
    graphRecord requests requestId = none ↔ Assoc.get requests requestId = none :=
  Option.map_eq_none_iff

omit [Sha256] [Graph.Ladybug] in
theorem graphRecord_eq_some (h : graphRecord requests requestId = some (mark, outcome)) :
    Assoc.get requests requestId =
      some ⟨mark, outcome.appliedIndex, outcome.hash, outcome.result⟩ := by
  obtain ⟨row, hRow, hSame⟩ := Option.map_eq_some_iff.mp h
  cases hSame
  exact hRow

omit [Sha256] [Graph.Ladybug] in
theorem graphRecord_insert (row : Graph.RequestRow) (other : String) :
    graphRecord (Assoc.insert requestId row requests) other =
      if other = requestId then
        some (row.commandHash, ⟨row.originalLogIndex, row.originalLogHash, row.result⟩)
      else graphRecord requests other := by
  rw [graphRecord, Assoc.get_insert]
  split <;> rfl

theorem graph_checkRequest (hFits : (graphView identity).Fits member) :
    m.checkRequest member.command.requestId member.payload =
      Graph.matchingRequest m.database.requests member.command.requestId member.payload := by
  obtain ⟨hEncode, -, hValid, hRange⟩ := hFits
  rw [Graph.LadybugStateMachine.checkRequest,
    Graph.decodeReplicatedGraphCommand_encode hRange hValid hEncode, ok_bind, ensure_of rfl, ok_bind]

theorem graph_check_none (hFits : (graphView identity).Fits member)
    (h : (graphView identity).record m (graphProfile.requestId member.command) = none) :
    graphProfile.check m member = .ok none := by
  have hGet : Assoc.get m.database.requests member.command.requestId = none :=
    graphRecord_eq_none.mp h
  have hCheck : m.checkRequest member.command.requestId member.payload = .ok none := by
    rw [graph_checkRequest hFits, Graph.matchingRequest, hGet]
  unfold Profile.check graphProfile
  dsimp only
  rw [hCheck]
  rfl

theorem graph_check_same (hFits : (graphView identity).Fits member)
    (h : (graphView identity).record m (graphProfile.requestId member.command) = some (mark, outcome))
    (hMark : mark = (graphView identity).digest member.payload) :
    graphProfile.check m member = .ok (some outcome) := by
  have hGet : Assoc.get m.database.requests member.command.requestId =
      some ⟨mark, outcome.appliedIndex, outcome.hash, outcome.result⟩ := graphRecord_eq_some h
  have hCheck : m.checkRequest member.command.requestId member.payload =
      .ok (some ⟨mark, outcome.appliedIndex, outcome.hash, outcome.result⟩) := by
    rw [graph_checkRequest hFits, Graph.matchingRequest, hGet]
    have hHash : mark = Graph.commandDigest member.payload := hMark
    dsimp only
    rw [ensure_of hHash, ok_bind]
  unfold Profile.check graphProfile
  dsimp only
  rw [hCheck]
  rfl

theorem graph_check_other (hFits : (graphView identity).Fits member)
    (h : (graphView identity).record m (graphProfile.requestId member.command) = some (mark, outcome))
    (hMark : mark ≠ (graphView identity).digest member.payload) :
    ∃ message, graphProfile.check m member = .error (.invalidRequest message) := by
  have hGet : Assoc.get m.database.requests member.command.requestId =
      some ⟨mark, outcome.appliedIndex, outcome.hash, outcome.result⟩ := graphRecord_eq_some h
  have hHash : ¬ mark = Graph.commandDigest member.payload := hMark
  have hCheck : m.checkRequest member.command.requestId member.payload =
      .error (.requestConflict member.command.requestId outcome.appliedIndex outcome.hash) := by
    rw [graph_checkRequest hFits, Graph.matchingRequest, hGet]
    dsimp only
    rw [ensure, if_neg hHash]
    rfl
  refine ⟨Graph.Error.display
    (.requestConflict member.command.requestId outcome.appliedIndex outcome.hash), ?_⟩
  unfold Profile.check graphProfile
  dsimp only
  rw [hCheck]

def graphJournal (database : Graph.Database) :
    Journal String LogHash Graph.GraphCommandResultV1 (List (String × Graph.GraphValueV1)) where
  data := database.documents
  done requestId :=
    (graphRecord database.requests requestId).map fun record => (record.1, record.2.result)

def graphDecoded (member : ProfileMember Graph.GraphCommandV1) : Graph.DecodedGraphCommand :=
  ⟨member.command, member.payload⟩

theorem graph_applyCommand (identity : Graph.Identity) (entry : LogEntry) {database : Graph.Database}
    (hNew : graphRecord database.requests member.command.requestId = none) :
    ∃ result database',
      Graph.applyCommand entry database (graphDecoded member) = .ok (result, database') ∧
      graphJournal database' = (graphView identity).works.exec (graphJournal database) member ∧
      ∀ other, graphRecord database'.requests other =
        if other = member.command.requestId then
          some (Graph.commandDigest member.payload, ⟨entry.index, entry.hash, result⟩)
        else graphRecord database.requests other := by
  have hMatch : Graph.matchingRequest database.requests (graphDecoded member).command.requestId
      (graphDecoded member).individualPayload = .ok none := by
    have hGet : Assoc.get database.requests (graphDecoded member).command.requestId = none :=
      graphRecord_eq_none.mp hNew
    rw [Graph.matchingRequest, hGet]
  have hApply : Graph.applyCommand entry database (graphDecoded member) =
      .ok ((Graph.runOperation database.documents member.command.operation).1,
        { database with
          requests := Assoc.insert member.command.requestId
            ⟨Graph.commandDigest member.payload, entry.index, entry.hash,
              (Graph.runOperation database.documents member.command.operation).1⟩ database.requests
          documents := (Graph.runOperation database.documents member.command.operation).2 }) := by
    rw [Graph.applyCommand, hMatch]
    rfl
  refine ⟨_, _, hApply, ?_, graphRecord_insert _⟩
  have hDone : (graphJournal database).done ((graphView identity).works.key member) = none :=
    Option.map_eq_none_iff.mpr hNew
  rw [Works.exec_of_new hDone, graphJournal, Journal.mk.injEq]
  refine ⟨rfl, funext fun other => ?_⟩
  dsimp only
  rw [graphRecord_insert, remember]
  split
  · rename_i hSame
    exact (if_pos hSame).symm
  · rename_i hOther
    exact (if_neg hOther).symm

theorem graph_applyCommands (identity : Graph.Identity) (entry : LogEntry)
    {jobs : List (ProfileMember Graph.GraphCommandV1)} {database : Graph.Database}
    (hDistinct : (jobs.map fun job => graphProfile.requestId job.command).Nodup)
    (hNew : ∀ job ∈ jobs, graphRecord database.requests (graphProfile.requestId job.command) = none) :
    ∃ results database',
      Graph.applyCommands entry database (jobs.map graphDecoded) = .ok (results, database') ∧
      graphJournal database' = (graphView identity).works.execAll (graphJournal database) jobs ∧
      ∀ other, (graphRecord database.requests other).isSome →
        graphRecord database'.requests other = graphRecord database.requests other := by
  induction jobs generalizing database with
  | nil => exact ⟨[], database, rfl, rfl, fun _ _ => rfl⟩
  | cons job jobs ih =>
    obtain ⟨hFirst, hRest⟩ := List.nodup_cons.mp hDistinct
    have hNone := hNew job List.mem_cons_self
    obtain ⟨result, next, hApply, hJournal, hRecord⟩ :=
      graph_applyCommand identity entry hNone
    have hLater : ∀ later ∈ jobs,
        graphRecord next.requests (graphProfile.requestId later.command) = none := by
      intro later hLater
      have hOther : graphProfile.requestId later.command ≠ graphProfile.requestId job.command := by
        intro hSame
        exact hFirst (List.mem_map.mpr ⟨later, hLater, hSame⟩)
      rw [hRecord]
      exact (if_neg hOther).trans (hNew later (List.mem_cons_of_mem _ hLater))
    obtain ⟨results, last, hApplyAll, hJournalAll, hKept⟩ := ih hRest hLater
    refine ⟨result :: results, last, ?_, ?_, fun other hSome => ?_⟩
    · rw [List.map_cons, Graph.applyCommands, hApply, ok_bind]
      simp only [hApplyAll, ok_bind]
    · rw [hJournalAll, hJournal]
      rfl
    · have hSame : graphRecord next.requests other = graphRecord database.requests other := by
        rw [hRecord]
        refine if_neg fun hJob => ?_
        rw [hJob] at hSome
        cases hNone ▸ hSome
      rw [hKept other (hSame ▸ hSome), hSame]

theorem graph_encodeBatch {commands : List Graph.GraphCommandV1} {payload : Bytes} :
    graphProfile.encodeBatch commands = .ok payload ↔
      Graph.encodeReplicatedGraphBatch commands = .ok payload := by
  change (Graph.encodeReplicatedGraphBatch commands).mapError _ = _ ↔ _
  cases Graph.encodeReplicatedGraphBatch commands with
  | error error => exact ⟨nofun, nofun⟩
  | ok bytes => exact ⟨fun h => congrArg _ (Except.ok.inj h), fun h => congrArg _ (Except.ok.inj h)⟩

theorem graph_length (hFits : (graphView identity).Fits member) :
    member.command.encode.length ≤ maxCommandBytes :=
  (Graph.length_le_of_encodeEnvelope hFits.1).trans hFits.2.1

theorem graph_decodedCommands (clusterId : ClusterId) (epoch configId : Nat) (tip : LogAnchor)
    (slot : Nat) {payload : Bytes} {jobs : List (ProfileMember Graph.GraphCommandV1)}
    (hCarries : graphProfile.Carries payload jobs)
    (hFits : ∀ job ∈ jobs, (graphView identity).Fits job) :
    Graph.decodedCommands (deterministicEntry clusterId epoch configId tip slot payload) =
      .ok (jobs.map graphDecoded) := by
  have hType : (deterministicEntry clusterId epoch configId tip slot payload).entryType = .command := rfl
  rw [Graph.decodedCommands, if_pos hType]
  change Graph.decodeReplicatedGraphCommands payload = _
  obtain ⟨member, rfl, rfl⟩ | hBatch := hCarries
  · obtain ⟨hEncode, -, hValid, hRange⟩ := hFits member List.mem_cons_self
    exact Graph.decodeReplicatedGraphCommands_single hRange hValid hEncode
  · have hEncode : Graph.encodeReplicatedGraphBatch
        ((jobs.map graphDecoded).map (·.command)) = .ok payload := by
      rw [List.map_map]
      exact graph_encodeBatch.mp hBatch
    refine Graph.decodeReplicatedGraphCommands_batch (fun decoded hDecoded => ?_)
      (fun decoded hDecoded => ?_) (fun decoded hDecoded => ?_) hEncode
    · obtain ⟨job, hJob, rfl⟩ := List.mem_map.mp hDecoded
      exact (hFits job hJob).2.2.2
    · obtain ⟨job, hJob, rfl⟩ := List.mem_map.mp hDecoded
      exact lt_of_le_of_lt (graph_length (hFits job hJob)) (by decide)
    · obtain ⟨job, hJob, rfl⟩ := List.mem_map.mp hDecoded
      exact (hFits job hJob).1

theorem graph_commit {payload : Bytes} {jobs : List (ProfileMember Graph.GraphCommandV1)}
    (hGood : (graphView identity).Good m n) (hRoom : n + 1 < u64Bound)
    (hCarries : graphProfile.Carries payload jobs)
    (hFits : ∀ job ∈ jobs, (graphView identity).Fits job)
    (hDistinct : (jobs.map fun job => graphProfile.requestId job.command).Nodup)
    (hNew : ∀ job ∈ jobs,
      (graphView identity).record m (graphProfile.requestId job.command) = none) :
    ∃ m', graphProfile.commit m payload = .ok m' ∧ (graphView identity).Good m' (n + 1) ∧
      (graphView identity).journal m' =
        (graphView identity).works.execAll ((graphView identity).journal m) jobs ∧
      (graphView identity).Extends m m' := by
  obtain ⟨tip, known, hHolds, rfl⟩ := hGood
  have hSlot : checkedSucc tip.index = some (tip.index + 1) := if_pos hRoom
  have hCommands := graph_decodedCommands m.identity.clusterId m.identity.epoch m.identity.configId
    tip (tip.index + 1) hCarries hFits
  generalize hEntry : deterministicEntry m.identity.clusterId m.identity.epoch m.identity.configId tip
    (tip.index + 1) payload = entry at hCommands
  have hNext : ExtendsLog identity.clusterId identity.epoch tip entry := by
    rw [← hEntry, ← hHolds.named]
    exact ⟨rfl, rfl, hSlot, rfl, rfl⟩
  have hSame : entry.configId = identity.configId := by
    rw [← hEntry, ← hHolds.named]
    rfl
  obtain ⟨results, database, hApply, hJournal, hRecords⟩ :=
    graph_applyCommands identity entry hDistinct hNew
  have hType : entry.entryType = .command := by rw [← hEntry]; rfl
  have hByType : Graph.applyByType entry m.database (jobs.map graphDecoded) =
      .ok (Graph.singleResult results, database) := by
    rw [Graph.applyByType, if_pos hType, hApply, ok_bind]
  obtain ⟨-, hKnown, hMetadata⟩ := Graph.applyByType_takes hHolds.records hCommands hByType
  have hTip := Graph.setTip_eq (hMetadata ▸ hHolds.index) (hMetadata ▸ hHolds.hash) entry
  refine ⟨_, ?_, ⟨entry.anchor, _, hHolds.stored hMetadata hKnown, ?_⟩, ?_, hRecords⟩
  · have hApplied := Graph.applyEntry_eq hHolds hNext hSame hCommands
    rw [hByType, ok_bind, hTip, ok_bind] at hApplied
    have hAppliedTip : graphProfile.appliedTip m = .ok tip := by
      change m.appliedTip.mapError _ = _
      rw [Graph.LadybugStateMachine.appliedTip, Graph.readMeta, hHolds.index, Option.elim_some, ok_bind,
        Graph.readMeta, hHolds.hash, Option.elim_some, ok_bind]
      rfl
    have hOwn : graphProfile.ownEntry m tip (tip.index + 1) payload = entry := hEntry
    rw [Profile.commit_of hAppliedTip hSlot, hOwn]
    unfold graphProfile
    dsimp only
    rw [hApplied]
  · exact checkedSucc_eq_some hNext.index
  · exact hJournal

theorem graph_encode {jobs : List (ProfileMember Graph.GraphCommandV1)}
    (hFits : ∀ job ∈ jobs, (graphView identity).Fits job) (hSome : jobs ≠ [])
    (hFew : jobs.length ≤ (graphView identity).limit)
    (hDistinct : (jobs.map fun job => graphProfile.requestId job.command).Nodup) :
    ∃ payload, graphProfile.encodeBatch (jobs.map (·.command)) = .ok payload := by
  have hLimit : jobs.length ≤ Graph.maxGraphBatchMembers := hFew
  have hBatchable : Graph.Batchable [] (jobs.map (·.command)) := by
    refine ⟨fun command hCommand => ?_, fun command _ => List.not_mem_nil, ?_⟩
    · obtain ⟨job, hJob, rfl⟩ := List.mem_map.mp hCommand
      exact (hFits job hJob).2.2.1
    · rw [List.map_map]
      exact hDistinct
  have hBody : (Graph.batchCommandMagic ++ toBeBytes 2 (jobs.map (·.command)).length ++
      (jobs.map (·.command)).flatMap fun command => Graph.writeBytes command.encode).length < 2 ^ 32 := by
    have hMembers : ((jobs.map (·.command)).flatMap fun command => Graph.writeBytes command.encode).length ≤
        (jobs.map (·.command)).length * (4 + maxCommandBytes) := by
      refine length_flatMap_le fun command hCommand => ?_
      obtain ⟨job, hJob, rfl⟩ := List.mem_map.mp hCommand
      rw [Graph.writeBytes, List.length_append, toBeBytes_length]
      exact Nat.add_le_add_left (graph_length (hFits job hJob)) 4
    have hMagic : Graph.batchCommandMagic.length = 6 := by decide
    have hMost : jobs.length * (4 + maxCommandBytes) ≤ 64 * (4 + 512 * 1024) :=
      Nat.mul_le_mul_right _ hLimit
    rw [List.length_map] at hMembers
    rw [List.length_append, List.length_append, toBeBytes_length, hMagic]
    omega
  have hFields : validateCommandEnvelopeFields Graph.batchCommandVersion Graph.batchRequestId
      (Graph.batchCommandMagic ++ toBeBytes 2 (jobs.map (·.command)).length ++
        (jobs.map (·.command)).flatMap fun command => Graph.writeBytes command.encode) = .ok () := by
    simp only [validateCommandEnvelopeFields, unit_bind_ok_iff, ensure_ok_iff]
    exact ⟨by decide, by decide, by decide, hBody⟩
  have hNonempty : jobs.map (·.command) ≠ [] := fun hNil => hSome (List.map_eq_nil_iff.mp hNil)
  have hCount : (jobs.map (·.command)).length ≤ Graph.maxGraphBatchMembers := by
    rw [List.length_map]
    exact hLimit
  exact ⟨_, graph_encodeBatch.mpr (Graph.encodeReplicatedGraphBatch_eq_ok.mpr
    ⟨⟨hNonempty, hCount⟩, hBatchable, Graph.encodeEnvelope_iff.mpr ⟨hFields, rfl⟩⟩)⟩

theorem graph_fits {commands : List Graph.GraphCommandV1} {count : Nat} {payload : Bytes}
    (h : graphProfile.fittingPrefix commands = some (count, payload)) :
    0 < count ∧ count ≤ commands.length ∧
      graphProfile.encodeBatch (commands.take count) = .ok payload := by
  change largestFittingGraphBatchPrefix commands = _ at h
  rw [largestFittingGraphBatchPrefix] at h
  obtain ⟨count', hCount, hFound⟩ := List.exists_of_findSome?_eq_some h
  have hRange := List.mem_range'_1.mp (List.mem_reverse.mp hCount)
  cases hEncode : Graph.encodeReplicatedGraphBatch (commands.take count') with
  | error error =>
    rw [hEncode] at hFound
    cases hFound
  | ok bytes =>
    rw [hEncode] at hFound
    dsimp only at hFound
    split at hFound
    · obtain ⟨rfl, rfl⟩ := Prod.mk.inj (Option.some.inj hFound)
      exact ⟨by omega, by omega, graph_encodeBatch.mpr hEncode⟩
    · cases hFound

theorem graph_lawful (identity : Graph.Identity) : (graphView identity).Lawful where
  check_none _ := graph_check_none
  check_same _ hFits := graph_check_same hFits
  check_other _ hFits := graph_check_other hFits
  commit := graph_commit
  encode := graph_encode
  fits := graph_fits

end Rhiza.Node
