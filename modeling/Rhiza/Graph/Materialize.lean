import Rhiza.Core.Configuration
import Rhiza.Graph.StateMachine
import Rhiza.Library.Once

/-! # What the graph materializer accepts

As for the key-value materializer, the next entry is taken exactly when it is
one of the machine's own configuration, can be decoded, and does not use a
request id again for another command.
-/

namespace Rhiza.Graph

open Core Library

section Commands

variable [Sha256] {entry : LogEntry} {known : String → Option LogHash}

def Records (requests : List (String × RequestRow)) (known : String → Option LogHash) : Prop :=
  ∀ requestId, (Assoc.get requests requestId).map (·.commandHash) = known requestId

def DecodedGraphCommand.item (member : DecodedGraphCommand) : String × LogHash :=
  (member.command.requestId, commandDigest member.individualPayload)

omit [Sha256] in
theorem Records.insert {requests : List (String × RequestRow)} (h : Records requests known)
    (requestId : String) (row : RequestRow) :
    Records (Assoc.insert requestId row requests)
      (remember known (requestId, row.commandHash)) := by
  intro other
  unfold remember
  rw [Assoc.get_insert]
  split
  · rfl
  · exact h other

theorem matchingRequest_eq {requests : List (String × RequestRow)} {requestId : String}
    {payload : Bytes} {row : Option RequestRow} :
    matchingRequest requests requestId payload = .ok row ↔
      row = Assoc.get requests requestId ∧
        ∀ known ∈ row, known.commandHash = commandDigest payload := by
  unfold matchingRequest
  cases hGet : Assoc.get requests requestId with
  | none =>
    constructor
    · intro h
      cases h
      exact ⟨rfl, nofun⟩
    · rintro ⟨rfl, -⟩
      rfl
  | some stored =>
    simp only [bind_ok_iff, exists_ensure_iff, Except.ok.injEq]
    constructor
    · rintro ⟨hSame, rfl⟩
      exact ⟨rfl, by simpa using hSame⟩
    · rintro ⟨rfl, hSame⟩
      exact ⟨hSame stored rfl, rfl⟩

theorem applyCommand_takes {database database' : Database} {member : DecodedGraphCommand}
    {result : GraphCommandResultV1} (hRecords : Records database.requests known)
    (h : applyCommand entry database member = .ok (result, database')) :
    (∀ value, known member.item.1 = some value → value = member.item.2) ∧
      Records database'.requests (remember known member.item) ∧
      database'.metadata = database.metadata := by
  obtain ⟨row, hRow, h⟩ := bind_ok_iff.mp h
  obtain ⟨hGet, hSame⟩ := matchingRequest_eq.mp hRow
  have hKnown := hRecords member.command.requestId
  rw [← hGet] at hKnown
  cases row with
  | some row =>
    cases h
    have hItem : known member.item.1 = some member.item.2 :=
      hKnown.symm.trans (congrArg some (hSame row rfl))
    rw [remember_known hItem]
    exact ⟨fun value hValue => Option.some.inj (hValue.symm.trans hItem), hRecords, rfl⟩
  | none =>
    cases h
    refine ⟨fun value hValue => ?_, hRecords.insert _ _, rfl⟩
    cases hKnown.trans hValue

theorem applyCommand_taken {database : Database} {member : DecodedGraphCommand}
    (hRecords : Records database.requests known)
    (h : ∀ value, known member.item.1 = some value → value = member.item.2) :
    ∃ result database', applyCommand entry database member = .ok (result, database') := by
  have hKnown := hRecords member.command.requestId
  have hMatch : matchingRequest database.requests member.command.requestId
      member.individualPayload = .ok (Assoc.get database.requests member.command.requestId) := by
    refine matchingRequest_eq.mpr ⟨rfl, fun row hRow => ?_⟩
    rw [Option.mem_def.mp hRow] at hKnown
    exact h _ hKnown.symm
  rw [applyCommand, hMatch, ok_bind]
  cases Assoc.get database.requests member.command.requestId with
  | some row => exact ⟨_, _, rfl⟩
  | none => exact ⟨_, _, rfl⟩

theorem applyCommands_takes {members : List DecodedGraphCommand} {database database' : Database}
    {results : List GraphCommandResultV1} (hRecords : Records database.requests known)
    (h : applyCommands entry database members = .ok (results, database')) :
    Coherent known (members.map (·.item)) ∧
      Records database'.requests ((members.map (·.item)).foldl remember known) ∧
      database'.metadata = database.metadata := by
  induction members generalizing database known results with
  | nil =>
    cases h
    exact ⟨trivial, hRecords, rfl⟩
  | cons member members ih =>
    rw [applyCommands] at h
    obtain ⟨⟨result, next⟩, hNext, h⟩ := bind_ok_iff.mp h
    obtain ⟨⟨rest, last⟩, hRest, h⟩ := bind_ok_iff.mp h
    cases h
    obtain ⟨hNew, hRecords, hSame⟩ := applyCommand_takes hRecords hNext
    obtain ⟨hCoherent, hRecords, hKept⟩ := ih hRecords hRest
    exact ⟨⟨hNew, hCoherent⟩, hRecords, hKept.trans hSame⟩

theorem applyCommands_taken {members : List DecodedGraphCommand} {database : Database}
    (hRecords : Records database.requests known) (h : Coherent known (members.map (·.item))) :
    ∃ results database', applyCommands entry database members = .ok (results, database') := by
  induction members generalizing database known with
  | nil => exact ⟨[], database, rfl⟩
  | cons member members ih =>
    obtain ⟨result, next, hNext⟩ := applyCommand_taken hRecords h.1
    obtain ⟨-, hRecords, -⟩ := applyCommand_takes hRecords hNext
    obtain ⟨results, last, hLast⟩ := ih hRecords h.2
    refine ⟨result :: results, last, ?_⟩
    rw [applyCommands, hNext, ok_bind]
    simp only [hLast, ok_bind]

end Commands

section Entries

variable [Sha256] [Ladybug]

structure Holds (identity : Identity) (m : LadybugStateMachine) (tip : LogAnchor)
    (known : String → Option LogHash) : Prop where
  named : m.identity = identity
  valid : validateIdentity m.database.metadata identity = .ok ()
  cluster : m.database.metadata.clusterId.isSome
  index : m.database.metadata.appliedIndex = some tip.index
  hash : m.database.metadata.appliedHash = some tip.hash
  records : Records m.database.requests known

def items (entry : LogEntry) : List (String × LogHash) :=
  match decodedCommands entry with
  | .ok commands => commands.map (·.item)
  | .error _ => []

structure Admits (identity : Identity) (entry : LogEntry) : Prop where
  config : entry.configId = identity.configId
  decodes : ∃ commands, decodedCommands entry = .ok commands

variable {identity : Identity} {m : LadybugStateMachine} {tip : LogAnchor}
  {known : String → Option LogHash} {entry : LogEntry}

omit [Ladybug] in
theorem items_eq {commands : List DecodedGraphCommand} (h : decodedCommands entry = .ok commands) :
    items entry = commands.map (·.item) := by
  rw [items, h]

theorem config_of_applyEntry {result : ApplyOutcome × LadybugStateMachine}
    (h : m.applyEntry entry = .ok result) :
    entry.configId = m.identity.configId ∧ ∃ commands, decodedCommands entry = .ok commands := by
  simp only [LadybugStateMachine.applyEntry, bind_ok_iff, exists_ensure_iff] at h
  obtain ⟨-, commands, hCommands, h⟩ := h
  simp only [LadybugStateMachine.applyInTransaction, LadybugStateMachine.validateEntryIdentity,
    bind_ok_iff, exists_ensure_iff] at h
  obtain ⟨-, -, ⟨⟩, ⟨-, -, hConfig⟩, -⟩ := h
  exact ⟨ensure_ok_iff.mp hConfig, commands, hCommands⟩

omit [Ladybug] in
theorem applyByType_takes {database database' : Database} {commands : List DecodedGraphCommand}
    {result : Option GraphCommandResultV1} (hRecords : Records database.requests known)
    (hCommands : decodedCommands entry = .ok commands)
    (h : applyByType entry database commands = .ok (result, database')) :
    Coherent known (items entry) ∧
      Records database'.requests ((items entry).foldl remember known) ∧
      database'.metadata = database.metadata := by
  rw [items_eq hCommands]
  by_cases hType : entry.entryType = .command
  · rw [applyByType, if_pos hType] at h
    obtain ⟨⟨results, last⟩, hApplied, h⟩ := bind_ok_iff.mp h
    cases h
    exact applyCommands_takes hRecords hApplied
  · rw [applyByType, if_neg hType] at h
    rw [decodedCommands, if_neg hType] at hCommands
    cases h
    cases hCommands
    exact ⟨trivial, hRecords, rfl⟩

omit [Ladybug] in
theorem applyByType_taken {database : Database} {commands : List DecodedGraphCommand}
    (hRecords : Records database.requests known) (hCommands : decodedCommands entry = .ok commands)
    (hCoherent : Coherent known (items entry)) :
    ∃ result database', applyByType entry database commands = .ok (result, database') := by
  rw [items_eq hCommands] at hCoherent
  by_cases hType : entry.entryType = .command
  · obtain ⟨results, last, hApplied⟩ := applyCommands_taken hRecords hCoherent
    rw [applyByType, if_pos hType, hApplied, ok_bind]
    exact ⟨_, _, rfl⟩
  · rw [applyByType, if_neg hType]
    exact ⟨_, _, rfl⟩

theorem applyEntry_eq (hHolds : Holds identity m tip known) (hNext : ExtendsLog identity.clusterId identity.epoch tip entry)
    (hConfig : entry.configId = identity.configId) {commands : List DecodedGraphCommand}
    (hCommands : decodedCommands entry = .ok commands) :
    m.applyEntry entry =
      (applyByType entry m.database commands >>= fun applied =>
        setTip applied.2 entry >>= fun database =>
          .ok (⟨entry.index, entry.hash, applied.1⟩, { m with database := database })) := by
  have hOther : entry.index ≠ tip.index := by
    have := checkedSucc_eq_some hNext.index
    omega
  have hIdentity : m.validateEntryIdentity entry = .ok () := by
    rw [LadybugStateMachine.validateEntryIdentity, hHolds.named, ensure_of hNext.cluster,
      ensure_of hNext.epoch, ensure_of hConfig]
    rfl
  have hValid := hHolds.valid
  rw [← hHolds.named] at hValid
  simp only [LadybugStateMachine.applyEntry, ensure_of hNext.hash, hCommands, ok_bind,
    LadybugStateMachine.applyInTransaction, hValid, hIdentity, readMeta, hHolds.index, hHolds.hash,
    Option.elim_some, if_neg hOther, LadybugStateMachine.applyNext, hNext.index,
    ensure_of hNext.prev]
  rfl

omit [Sha256] [Ladybug] in
theorem setTip_eq {database : Database} {index : Nat} {hash : LogHash}
    (hIndex : database.metadata.appliedIndex = some index)
    (hHash : database.metadata.appliedHash = some hash) (entry : LogEntry) :
    setTip database entry = .ok { database with metadata := { database.metadata with
      appliedIndex := some entry.index
      appliedHash := some entry.hash } } := by
  rw [setTip, readMeta, hIndex, readMeta, hHash]
  rfl

theorem Holds.stored {database : Database} (h : Holds identity m tip known)
    (hMetadata : database.metadata = m.database.metadata) {next : String → Option LogHash}
    (hRecords : Records database.requests next) :
    Holds identity { m with database := { database with metadata := { database.metadata with
      appliedIndex := some entry.index
      appliedHash := some entry.hash } } } entry.anchor next := by
  have hValid := h.valid
  have hCluster := h.cluster
  rw [← hMetadata] at hValid hCluster
  exact ⟨h.named, hValid, hCluster, rfl, rfl, hRecords⟩

theorem remembers (identity : Identity) : Remembers
    (fun (m : LadybugStateMachine) (entry : LogEntry) => (·.2) <$> m.applyEntry entry) items
    (ExtendsLog identity.clusterId identity.epoch) LogEntry.anchor (Admits identity) (Holds identity) where
  takes {m tip known entry next} hHolds hNext hApply := by
    obtain ⟨⟨outcome, m'⟩, hResult, rfl⟩ := map_ok_iff.mp hApply
    obtain ⟨hConfig, commands, hCommands⟩ := config_of_applyEntry hResult
    rw [hHolds.named] at hConfig
    rw [applyEntry_eq hHolds hNext hConfig hCommands] at hResult
    obtain ⟨⟨result, database⟩, hApplied, hResult⟩ := bind_ok_iff.mp hResult
    obtain ⟨hCoherent, hRecords, hMetadata⟩ :=
      applyByType_takes hHolds.records hCommands hApplied
    rw [setTip_eq (hMetadata ▸ hHolds.index) (hMetadata ▸ hHolds.hash), ok_bind] at hResult
    cases hResult
    exact ⟨⟨hConfig, commands, hCommands⟩, hCoherent, hHolds.stored hMetadata hRecords⟩
  taken {m tip known entry} hHolds hNext hAdmits hCoherent := by
    obtain ⟨commands, hCommands⟩ := hAdmits.decodes
    obtain ⟨result, database, hApplied⟩ :=
      applyByType_taken hHolds.records hCommands hCoherent
    obtain ⟨-, -, hMetadata⟩ := applyByType_takes hHolds.records hCommands hApplied
    have hTip := setTip_eq (hMetadata ▸ hHolds.index) (hMetadata ▸ hHolds.hash) entry
    rw [applyEntry_eq hHolds hNext hAdmits.config hCommands, hApplied, ok_bind, hTip, ok_bind]
    exact ⟨_, rfl⟩

end Entries

end Rhiza.Graph
