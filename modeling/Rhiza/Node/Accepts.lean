import Rhiza.Graph.Materialize
import Rhiza.Kv.Materialize
import Rhiza.Node.Expected

/-! # Logs and the materializers that follow them

The log accepts an entry by the configuration it has led to. The key-value and
the graph materializer know one configuration id, the one they were opened with,
and compare every entry with it.
-/

namespace Rhiza.Node.Accepts

open Core Library

inductive Engine
  | redb
  | ladybug
  deriving DecidableEq

structure Owner where
  clusterId : ClusterId
  nodeId : NodeId
  epoch : Nat
  clusterNamed : clusterId ≠ ""
  nodeNamed : nodeId ≠ ""

section Accepting

variable [Sha256] [Graph.Ladybug]

def Takes (owner : Owner) (first last : Nat) (entries : List LogEntry) : Engine → Prop
  | .redb => ∃ m m', Kv.RedbStateMachine.open .fresh owner.clusterId owner.nodeId owner.epoch
      first = .ok m ∧
    entries.foldlM (fun m entry => (·.2) <$> Kv.RedbStateMachine.applyEntry m entry) m = .ok m' ∧
    ∃ opened, Kv.RedbStateMachine.open (.whole m'.tables) owner.clusterId owner.nodeId owner.epoch
      last = .ok opened
  | .ladybug => ∃ m m', Graph.LadybugStateMachine.open .fresh
      ⟨owner.clusterId, owner.nodeId, owner.epoch, first⟩ = .ok m ∧
    entries.foldlM (fun m entry => (·.2) <$> Graph.LadybugStateMachine.applyEntry m entry) m =
      .ok m' ∧
    ∃ opened, Graph.LadybugStateMachine.open m'.database
      ⟨owner.clusterId, owner.nodeId, owner.epoch, last⟩ = .ok opened

def Decodes (entry : LogEntry) : Engine → Prop
  | .redb => ∃ commands, Kv.decodeReplicatedKvCommands entry.payload = .ok commands
  | .ladybug => ∃ commands, Graph.decodeReplicatedGraphCommands entry.payload = .ok commands

def requests (entry : LogEntry) : Engine → List (String × LogHash)
  | .redb => Kv.items entry
  | .ladybug => Graph.items entry

structure Suits (configId : Nat) (entries : List LogEntry) (engine : Engine) : Prop where
  config : ∀ entry ∈ entries, entry.configId = configId
  decodes : ∀ entry ∈ entries, entry.entryType = .command → Decodes entry engine
  noops : engine = .redb → ∀ entry ∈ entries, entry.entryType = .noop → entry.payload = []
  once : (entries.flatMap (requests · engine)).Pairwise fun request later =>
    request.1 = later.1 → request.2 = later.2

variable {state last : ConfigurationState} {entries : List LogEntry}

omit [Graph.Ladybug] in
theorem configId_of_validateEntry {entry : LogEntry} {next : ConfigurationState}
    (h : state.validateEntry entry = .ok next) (hSame : entry.configId = state.configId) :
    next.configId = state.configId := by
  cases state with
  | active configId digest => exact (ConfigurationState.validateEntry_active h).2.1
  | stopped configId digest stop binding =>
    have hNext := checkedSucc_eq_some (ConfigurationState.validateEntry_stopped h).1
    change entry.configId = configId at hSame
    omega

omit [Graph.Ladybug] in
theorem configId_of_follow (h : state.follow entries = .ok last)
    (hSame : ∀ entry ∈ entries, entry.configId = state.configId) :
    last.configId = state.configId := by
  induction entries generalizing state with
  | nil =>
    cases h
    rfl
  | cons entry entries ih =>
    rw [ConfigurationState.follow, List.foldlM_cons] at h
    obtain ⟨next, hNext, h⟩ := bind_ok_iff.mp h
    obtain ⟨hEntry, hRest⟩ := List.forall_mem_cons.mp hSame
    have hKept := configId_of_validateEntry hNext hEntry
    rw [← hKept] at hRest ⊢
    exact ih h hRest

omit [Graph.Ladybug] in
theorem recognized_of_follow (h : state.follow entries = .ok last) :
    ∀ entry ∈ entries, entry.entryType = .configChange →
      (ConfigChange.recognizeParts entry.entryType entry.payload).isSome := by
  induction entries generalizing state with
  | nil => exact nofun
  | cons entry entries ih =>
    rw [ConfigurationState.follow, List.foldlM_cons] at h
    obtain ⟨next, hNext, h⟩ := bind_ok_iff.mp h
    refine List.forall_mem_cons.mpr ⟨fun hType => ?_, ih h⟩
    obtain ⟨-, change, hChange, -⟩ := ConfigurationState.validateEntry_eq_ok hNext
    rw [ConfigurationState.changeOf, if_pos hType] at hChange
    split at hChange
    · rename_i hRecognized
      rw [hRecognized]
      rfl
    · cases hChange

omit [Sha256] [Graph.Ladybug] in
theorem kv_decodes_iff {entry : LogEntry} :
    (∃ commands, Kv.decodedCommands entry = .ok commands) ↔
      (entry.entryType = .command → Decodes entry .redb) := by
  unfold Kv.decodedCommands
  split
  · rename_i hType
    exact ⟨fun h _ => h, fun h => h hType⟩
  · rename_i hType
    exact ⟨fun _ h => absurd h hType, fun _ => ⟨[], rfl⟩⟩

theorem takes_redb_iff {owner : Owner} (hLog : state.follow entries = .ok last)
    (hChain : Chain (ExtendsLog owner.clusterId owner.epoch) LogEntry.anchor ⟨0, .zero⟩ entries) :
    Takes owner state.configId last.configId entries .redb ↔
      Suits state.configId entries .redb := by
  let id : Kv.Identity := ⟨owner.clusterId, owner.nodeId, owner.epoch, state.configId⟩
  have hNames : ensure (owner.clusterId ≠ "" ∧ owner.nodeId ≠ "")
      (Kv.Error.invalidEntry "cluster and node ids must not be empty") = .ok () :=
    ensure_of ⟨owner.clusterNamed, owner.nodeNamed⟩
  have hFresh := Kv.Holds.fresh id
  constructor
  · rintro ⟨m, m', hOpen, hApplied, -⟩
    rw [Kv.RedbStateMachine.open, hNames] at hOpen
    cases hOpen
    obtain ⟨hAdmits, hCoherent, -⟩ := (Kv.remembers id).takes_all hFresh hChain hApplied
    exact ⟨fun entry hMem => (hAdmits entry hMem).config,
      fun entry hMem => kv_decodes_iff.mp (hAdmits entry hMem).decodes,
      fun _ entry hMem => (hAdmits entry hMem).noop, coherent_none_iff.mp hCoherent⟩
  · intro hSuits
    have hAdmits : ∀ entry ∈ entries, Kv.Admits id entry := fun entry hMem =>
      ⟨hSuits.config entry hMem, kv_decodes_iff.mpr (hSuits.decodes entry hMem),
        hSuits.noops rfl entry hMem, recognized_of_follow hLog entry hMem⟩
    obtain ⟨m', hApplied⟩ := (Kv.remembers id).all_taken hFresh hChain hAdmits
      (coherent_none_iff.mpr hSuits.once)
    obtain ⟨-, -, tip, known, hHolds⟩ := (Kv.remembers id).takes_all hFresh hChain hApplied
    refine ⟨_, m', by rw [Kv.RedbStateMachine.open, hNames]; rfl, hApplied, ?_⟩
    rw [configId_of_follow hLog hSuits.config, Kv.RedbStateMachine.open, hNames, ok_bind,
      Kv.initializeOrValidate, hHolds.validateProgress]
    exact ⟨_, rfl⟩

theorem validateIdentity_initial (identity : Graph.Identity) :
    Graph.validateIdentity (Graph.initialMetadata identity) identity = .ok () := by
  simp [Graph.validateIdentity, Graph.initialMetadata, Graph.validateMeta, Graph.readMeta, ok_bind,
    ensure_of]

theorem graph_open_fresh (identity : Graph.Identity) :
    Graph.LadybugStateMachine.open .fresh identity =
      .ok ⟨⟨Graph.initialMetadata identity, [], []⟩, identity⟩ := by
  rw [Graph.LadybugStateMachine.open, Graph.initializeOrValidate]
  have hInitial : Graph.initializeMetadata Graph.Database.fresh.metadata identity =
      .ok (Graph.initialMetadata identity) := rfl
  rw [hInitial, ok_bind, validateIdentity_initial]
  rfl

theorem graph_holds_fresh (identity : Graph.Identity) :
    Graph.Holds identity ⟨⟨Graph.initialMetadata identity, [], []⟩, identity⟩ ⟨0, .zero⟩
      fun _ => none :=
  ⟨rfl, validateIdentity_initial identity, rfl, rfl, rfl, fun _ => rfl⟩

omit [Sha256] [Graph.Ladybug] in
theorem graph_decodes_iff {entry : LogEntry} :
    (∃ commands, Graph.decodedCommands entry = .ok commands) ↔
      (entry.entryType = .command → Decodes entry .ladybug) := by
  unfold Graph.decodedCommands
  split
  · rename_i hType
    exact ⟨fun h _ => h, fun h => h hType⟩
  · rename_i hType
    exact ⟨fun _ h => absurd h hType, fun _ => ⟨[], rfl⟩⟩

theorem graph_open_again {identity : Graph.Identity} {m : Graph.LadybugStateMachine}
    {tip : LogAnchor} {known : String → Option LogHash} (h : Graph.Holds identity m tip known) :
    ∃ opened, Graph.LadybugStateMachine.open m.database identity = .ok opened := by
  have hNamed : ¬ m.database.metadata.clusterId.isNone := by
    rw [Option.isNone_iff_eq_none, ← Option.not_isSome_iff_eq_none, not_not]
    exact h.cluster
  rw [Graph.LadybugStateMachine.open, Graph.initializeOrValidate, Graph.initializeMetadata,
    if_neg hNamed, ok_bind, h.valid]
  exact ⟨_, rfl⟩

theorem takes_ladybug_iff {owner : Owner} (hLog : state.follow entries = .ok last)
    (hChain : Chain (ExtendsLog owner.clusterId owner.epoch) LogEntry.anchor ⟨0, .zero⟩ entries) :
    Takes owner state.configId last.configId entries .ladybug ↔
      Suits state.configId entries .ladybug := by
  let identity : Graph.Identity := ⟨owner.clusterId, owner.nodeId, owner.epoch, state.configId⟩
  have hFresh := graph_holds_fresh identity
  constructor
  · rintro ⟨m, m', hOpen, hApplied, -⟩
    rw [graph_open_fresh] at hOpen
    cases hOpen
    obtain ⟨hAdmits, hCoherent, -⟩ := (Graph.remembers identity).takes_all hFresh hChain hApplied
    exact ⟨fun entry hMem => (hAdmits entry hMem).config,
      fun entry hMem => graph_decodes_iff.mp (hAdmits entry hMem).decodes, nofun,
      coherent_none_iff.mp hCoherent⟩
  · intro hSuits
    have hAdmits : ∀ entry ∈ entries, Graph.Admits identity entry := fun entry hMem =>
      ⟨hSuits.config entry hMem, graph_decodes_iff.mpr (hSuits.decodes entry hMem)⟩
    obtain ⟨m', hApplied⟩ := (Graph.remembers identity).all_taken hFresh hChain hAdmits
      (coherent_none_iff.mpr hSuits.once)
    obtain ⟨-, -, tip, known, hHolds⟩ := (Graph.remembers identity).takes_all hFresh hChain hApplied
    refine ⟨_, m', graph_open_fresh identity, hApplied, ?_⟩
    rw [configId_of_follow hLog hSuits.config]
    exact graph_open_again hHolds

/-- A log that `validate_entry` accepts is applied by a materializer of its first
configuration, which can then be opened with the last one, exactly when the configuration
id never changes, every command can be decoded and no request id is used again for
another command. -/
theorem materializers_accept_iff {owner : Owner} (engine : Engine)
    (hLog : state.follow entries = .ok last)
    (hChain : Chain (ExtendsLog owner.clusterId owner.epoch) LogEntry.anchor ⟨0, .zero⟩ entries) :
    Takes owner state.configId last.configId entries engine ↔
      Suits state.configId entries engine := by
  cases engine with
  | redb => exact takes_redb_iff hLog hChain
  | ladybug => exact takes_ladybug_iff hLog hChain

end Accepting

section Example

attribute [local instance] Sha256.rolling

@[reducible] def ladybug : Graph.Ladybug := ⟨40⟩

attribute [local instance] ladybug

open Admin.Operator

def owner : Owner := ⟨"c", "a", 1, cluster_named, by decide⟩

def fresh : ConfigurationState := .active 1 membership.digest

def payload : Bytes :=
  ((Kv.encodeReplicatedKvCommand ⟨"r", .put [107] [118]⟩).toOption).getD []

def command : LogEntry := entryOf 1 1 .zero ⟨.command, payload⟩

def noop : LogEntry := entryOf 1 2 command.hash ⟨.noop, []⟩

theorem next_config : checkedSucc 1 = some (1 + 1) := by decide

def lastStop : LogEntry :=
  entryOf 1 3 noop.hash (ConfigChange.boundStop (successorOf 1 next_config)).toStoredCommand

def stopped : ConfigurationState :=
  .stopped 1 membership.digest ⟨3, lastStop.hash⟩ (.bound (successorOf 1 next_config)
    (ConfigChange.boundStop (successorOf 1 next_config)).toStoredCommand.hash)

theorem extendsLog_of_test {tip : LogAnchor} {entry : LogEntry}
    (h : entry.clusterId = owner.clusterId ∧ entry.epoch = owner.epoch ∧
      checkedSucc tip.index = some entry.index ∧ entry.prevHash = tip.hash ∧
      entry.recomputeHash = entry.hash) : ExtendsLog owner.clusterId owner.epoch tip entry :=
  ⟨h.1, h.2.1, h.2.2.1, h.2.2.2.1, h.2.2.2.2⟩

/-- A command, a noop and the stop of the configuration are all applied. -/
theorem stopped_log_is_taken :
    Takes owner fresh.configId stopped.configId [command, noop, lastStop] .redb := by
  have hLog : fresh.follow [command, noop, lastStop] = .ok stopped := by decide +kernel
  refine (materializers_accept_iff .redb hLog ⟨extendsLog_of_test (by decide +kernel),
    extendsLog_of_test (by decide +kernel), extendsLog_of_test (by decide +kernel),
    trivial⟩).mpr ⟨?_, ?_, ?_, by decide +kernel⟩
  · decide +kernel
  · intro entry hMem hType
    simp only [List.mem_cons, List.not_mem_nil, or_false] at hMem
    rcases hMem with rfl | rfl | rfl
    · exact ⟨[⟨⟨"r", .put [107] [118]⟩, payload⟩], by decide +kernel⟩
    · cases hType
    · cases hType
  · intro _
    decide +kernel

/-- The log of a handover is accepted, and neither materializer gets through it. -/
theorem handover_log_is_not_taken :
    fresh.follow [firstStop, barrier] = .ok (.active 2 membership.digest) ∧
    Chain (ExtendsLog owner.clusterId owner.epoch) LogEntry.anchor ⟨0, .zero⟩
      [firstStop, barrier] ∧
    ∀ engine, ¬ Takes owner 1 2 [firstStop, barrier] engine := by
  have hLog : fresh.follow [firstStop, barrier] = .ok (.active 2 membership.digest) := by
    decide +kernel
  have hChain : Chain (ExtendsLog owner.clusterId owner.epoch) LogEntry.anchor ⟨0, .zero⟩
      [firstStop, barrier] :=
    ⟨extendsLog_of_test (by decide +kernel), extendsLog_of_test (by decide +kernel), trivial⟩
  have hOther : ∀ engine, ¬ Suits 1 [firstStop, barrier] engine := by
    intro engine hSuits
    have := hSuits.config barrier (by simp)
    revert this
    decide +kernel
  refine ⟨hLog, hChain, fun engine => ?_⟩
  cases engine with
  | redb => exact fun h => hOther .redb ((takes_redb_iff hLog hChain).mp h)
  | ladybug => exact fun h => hOther .ladybug ((takes_ladybug_iff hLog hChain).mp h)

end Example

end Rhiza.Node.Accepts
