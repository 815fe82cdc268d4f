import Rhiza.Node.Expected

/-! # Rebuilding a materializer from the log

If a materializer cannot be opened and the log reaches back to its first entry,
the node moves the materializer away, creates an empty one and replays the log.
The empty one is created with the configuration at the end of the log, and the
replay starts at its beginning.
-/

namespace Rhiza.Node.Rebuild

open Core Admin Library

inductive Profile
  | sqlite
  | kv
  deriving DecidableEq

structure Contents (D : Type) where
  empty : D
  apply : D → LogEntry → Except String D

structure SqlMaterializer (D : Type) where
  tip : LogAnchor
  configuration : ConfigurationState
  contents : D

structure KvMaterializer (D : Type) where
  tip : LogAnchor
  configId : Nat
  contents : D

inductive Materializer (D : Type)
  | sql (state : SqlMaterializer D)
  | kv (state : KvMaterializer D)

variable {D : Type}

namespace Materializer

def tip : Materializer D → LogAnchor
  | sql state => state.tip
  | kv state => state.tip

def contents : Materializer D → D
  | sql state => state.contents
  | kv state => state.contents

def configurationState : Materializer D → Option ConfigurationState
  | sql state => some state.configuration
  | kv _ => none

def create (engine : Contents D) (configuration : ConfigurationState) : Profile → Materializer D
  | .sqlite => sql ⟨⟨0, .zero⟩, configuration, engine.empty⟩
  | .kv => kv ⟨⟨0, .zero⟩, configuration.configId, engine.empty⟩

end Materializer

section Replay

variable [Sha256] (n : Runtime) (engine : Contents D)

def SqlMaterializer.applyEntry (m : SqlMaterializer D) (entry : LogEntry) :
    Except String (SqlMaterializer D) :=
  if entry.recomputeHash ≠ entry.hash then .error "hash does not match entry contents"
  else if entry.clusterId ≠ n.clusterId then .error "cluster_id does not match sidecar"
  else if entry.epoch ≠ n.epoch then .error "epoch does not match sidecar"
  else if entry.index = m.tip.index then
    if entry.hash = m.tip.hash then .ok m
    else .error "current index was reapplied with a different hash"
  else if checkedSucc m.tip.index ≠ some entry.index ∨ entry.prevHash ≠ m.tip.hash then
    .error "entry does not extend the QWAL applied tip"
  else
    match m.configuration.validateEntry entry with
    | .error _ => .error "invalid configuration transition"
    | .ok next =>
      match entry.entryType with
      | .command => do
        let contents ← engine.apply m.contents entry
        .ok ⟨⟨entry.index, entry.hash⟩, next, contents⟩
      | .noop =>
        if entry.payload = [] then .ok ⟨⟨entry.index, entry.hash⟩, next, m.contents⟩
        else .error "Noop payload must be empty"
      | .configChange => .ok ⟨⟨entry.index, entry.hash⟩, next, m.contents⟩
      | _ => .error "entry type is unsupported by QWAL"

def KvMaterializer.applyEntry (m : KvMaterializer D) (entry : LogEntry) :
    Except String (KvMaterializer D) :=
  if entry.clusterId ≠ n.clusterId then .error "entry belongs to another cluster"
  else if entry.epoch ≠ n.epoch then .error "entry epoch does not match"
  else if entry.configId ≠ m.configId then .error "entry configuration id does not match"
  else if entry.recomputeHash ≠ entry.hash then .error "entry hash does not match content"
  else if entry.index = m.tip.index then
    if entry.hash = m.tip.hash then .ok m else .error "replayed index has a different hash"
  else if checkedSucc m.tip.index ≠ some entry.index then .error "unexpected log index"
  else if entry.prevHash ≠ m.tip.hash then
    .error "entry previous hash does not match applied hash"
  else
    match entry.entryType with
    | .command => do
      let contents ← engine.apply m.contents entry
      .ok ⟨⟨entry.index, entry.hash⟩, m.configId, contents⟩
    | .noop =>
      if entry.payload = [] then .ok ⟨⟨entry.index, entry.hash⟩, m.configId, m.contents⟩
      else .error "noop entry payload must be empty"
    | .configChange =>
      if (ConfigChange.recognizeParts entry.entryType entry.payload).isSome then
        .ok ⟨⟨entry.index, entry.hash⟩, m.configId, m.contents⟩
      else .error "invalid configuration change"
    | _ => .ok ⟨⟨entry.index, entry.hash⟩, m.configId, m.contents⟩

def Materializer.applyEntry : Materializer D → LogEntry → Except String (Materializer D)
  | .sql state, entry => (state.applyEntry n engine entry).map .sql
  | .kv state, entry => (state.applyEntry n engine entry).map .kv

def validateReplayed (m : Materializer D) (entry : LogEntry) : Outcome Unit :=
  match m.configurationState with
  | some configuration => do
    let _ ← { n with configuration := configuration }.validateRuntimeEntry entry
      (m.tip.index + 1) m.tip.hash
    .ok ()
  | none => n.validateEntryEnvelope entry (m.tip.index + 1) m.tip.hash

/-- The replay loop of `reconcile_local_storage`. -/
def replay : Materializer D → List LogEntry → Outcome (Materializer D)
  | m, [] => .ok m
  | m, entry :: entries => do
    validateReplayed n m entry
    match m.applyEntry n engine entry with
    | .error message => .error (.reconciliation message)
    | .ok next => replay next entries

/-- The log of a node, from its first entry, with the configuration it starts in and the
one that it leads to. -/
structure Log where
  initial : ConfigurationState
  entries : List LogEntry
  configuration : ConfigurationState

/-- `reconcile_local_storage` for a materializer that has applied nothing yet. -/
def reconcileEmpty (log : Log) (m : Materializer D) : Outcome (Materializer D) := do
  let replayed ← replay n engine m log.entries
  Runtime.require (replayed.configurationState.all (· = log.configuration))
    (.reconciliation "qlog and materializer configuration states disagree")
  .ok replayed

/-- A quarantine followed by a replay: `Materializer::open` gives the new materializer
the configuration that was read from the log store. -/
def rebuild (profile : Profile) (log : Log) : Outcome (Materializer D) :=
  reconcileEmpty n engine log (.create engine log.configuration profile)

def changedContents (engine : Contents D) (contents : D) (entry : LogEntry) : Except String D :=
  if entry.entryType = .command then engine.apply contents entry else .ok contents

/-- What the entries of a log mean: the configuration by `validate_entry`, the contents
by applying the commands. -/
def meaning : ConfigurationState × D → List LogEntry → Except String (ConfigurationState × D)
  | state, [] => .ok state
  | (configuration, contents), entry :: entries =>
    match configuration.validateEntry entry with
    | .error _ => .error "invalid configuration transition"
    | .ok next =>
      match changedContents engine contents entry with
      | .error message => .error message
      | .ok changed => meaning (next, changed) entries

def Follows (n : Runtime) : LogAnchor → List LogEntry → Prop
  | _, [] => True
  | tip, entry :: entries =>
    (n.validateEntryEnvelope entry (tip.index + 1) tip.hash = .ok () ∧
      checkedSucc tip.index = some entry.index) ∧ Follows n ⟨entry.index, entry.hash⟩ entries

def lastTip : LogAnchor → List LogEntry → LogAnchor
  | tip, [] => tip
  | _, entry :: entries => lastTip ⟨entry.index, entry.hash⟩ entries

structure Log.Sound (log : Log) (contents : D) : Prop where
  follows : Follows n ⟨0, .zero⟩ log.entries
  means : meaning engine (log.initial, engine.empty) log.entries =
    .ok (log.configuration, contents)

structure Materializer.HoldsAll (m : Materializer D) (log : Log) (contents : D) : Prop where
  tip_eq : m.tip = lastTip ⟨0, .zero⟩ log.entries
  configuration_eq : m.configurationState.all (· = log.configuration)
  contents_eq : m.contents = contents

def Rebuildable (log : Log) : Profile → Prop
  | .sqlite => ∀ entry ∈ log.entries, entry.entryType ≠ .configChange
  | .kv => ∀ entry ∈ log.entries, entry.configId = log.configuration.configId

end Replay

section Proofs

variable [Sha256] {n : Runtime} {engine : Contents D}

theorem changeOf_eq_none {entry : LogEntry}
    (h : ConfigurationState.changeOf entry = .ok none) : entry.entryType ≠ .configChange := by
  intro hType
  unfold ConfigurationState.changeOf at h
  rw [if_pos hType] at h
  split at h <;> cases h

theorem changeOf_eq_some {entry : LogEntry} {change : ConfigChange}
    (h : ConfigurationState.changeOf entry = .ok (some change)) :
    entry.entryType = .configChange := by
  unfold ConfigurationState.changeOf at h
  split at h
  · assumption
  · cases h

theorem rank_validateEntry {state next : ConfigurationState} {entry : LogEntry}
    (h : state.validateEntry entry = .ok next) :
    next.rank = state.rank + if entry.entryType = .configChange then 1 else 0 := by
  obtain ⟨-, change, hChange, -⟩ := ConfigurationState.validateEntry_eq_ok h
  cases change with
  | none =>
    rw [if_neg (changeOf_eq_none hChange), ConfigurationState.rank_of_changeOf_none h hChange,
      Nat.add_zero]
  | some change =>
    rw [if_pos (changeOf_eq_some hChange), (ConfigurationState.rank_of_change h hChange).2]

theorem validateEntry_same {state next : ConfigurationState} {entry : LogEntry}
    (h : state.validateEntry entry = .ok next) (hType : entry.entryType ≠ .configChange) :
    next = state := by
  obtain ⟨-, change, hChange, hLeave⟩ := ConfigurationState.validateEntry_eq_ok h
  cases change with
  | some change => exact absurd (changeOf_eq_some hChange) hType
  | none =>
    cases state with
    | active configId digest =>
      simp only [ConfigurationState.leaveActive] at hLeave
      split at hLeave
      · exact (Except.ok.inj hLeave).symm
      · cases hLeave
    | stopped configId digest stop binding =>
      simp only at hLeave
      unfold ConfigurationState.leaveStopped at hLeave
      split at hLeave <;> contradiction

theorem meaning_cons {state : ConfigurationState} {contents : D} {entry : LogEntry}
    {entries : List LogEntry} {result : ConfigurationState × D} :
    meaning engine (state, contents) (entry :: entries) = .ok result ↔
      ∃ next changed, state.validateEntry entry = .ok next ∧
        changedContents engine contents entry = .ok changed ∧
        meaning engine (next, changed) entries = .ok result := by
  rw [meaning.eq_def]
  cases hNext : state.validateEntry entry with
  | error error => simp [hNext]
  | ok next =>
    cases hChanged : changedContents engine contents entry with
    | error message => simp [hNext, hChanged]
    | ok changed => simp [hNext, hChanged]

theorem rank_meaning {entries : List LogEntry} {state last : ConfigurationState}
    {contents final : D}
    (h : meaning engine (state, contents) entries = .ok (last, final)) :
    last.rank = state.rank +
      (entries.filter fun entry => entry.entryType = .configChange).length := by
  induction entries generalizing state contents with
  | nil =>
    obtain ⟨rfl, -⟩ := Prod.mk.inj (Except.ok.inj h)
    rfl
  | cons entry entries ih =>
    obtain ⟨next, changed, hNext, -, h⟩ := meaning_cons.mp h
    rw [ih h, rank_validateEntry hNext, List.filter_cons]
    by_cases hType : entry.entryType = .configChange
    · simp only [hType, decide_true, if_true, List.length_cons]
      omega
    · simp only [hType, decide_false, if_false, Bool.false_eq_true, Nat.add_zero]

theorem meaning_same {entries : List LogEntry} {state last : ConfigurationState}
    {contents final : D}
    (h : meaning engine (state, contents) entries = .ok (last, final))
    (hNone : ∀ entry ∈ entries, entry.entryType ≠ .configChange) : last = state := by
  induction entries generalizing state contents with
  | nil => exact (Prod.mk.inj (Except.ok.inj h)).1.symm
  | cons entry entries ih =>
    obtain ⟨next, changed, hNext, -, h⟩ := meaning_cons.mp h
    have hSame := validateEntry_same hNext (hNone entry List.mem_cons_self)
    rw [ih h fun e he => hNone e (List.mem_cons_of_mem _ he), hSame]

/-- What `validate_entry_envelope` says of an entry. -/
structure Enveloped (n : Runtime) (tip : LogAnchor) (entry : LogEntry) : Prop where
  cluster_eq : entry.clusterId = n.clusterId
  epoch_eq : entry.epoch = n.epoch
  prev_eq : entry.prevHash = tip.hash
  hash_eq : entry.recomputeHash = entry.hash
  shape : n.validEntryShape entry
  next : checkedSucc tip.index = some entry.index

theorem enveloped {tip : LogAnchor} {entry : LogEntry}
    (h : n.validateEntryEnvelope entry (tip.index + 1) tip.hash = .ok ())
    (hNext : checkedSucc tip.index = some entry.index) : Enveloped n tip entry := by
  have hBind : ∀ {x : Outcome Unit} {f : Unit → Outcome Unit},
      (x >>= f) = .ok () → x = .ok () ∧ f () = .ok () := by
    intro x f hx
    cases x with
    | error error => cases hx
    | ok _ => exact ⟨rfl, hx⟩
  unfold Runtime.validateEntryEnvelope at h
  obtain ⟨-, h⟩ := hBind h
  obtain ⟨hIdentity, h⟩ := hBind h
  obtain ⟨hPrev, h⟩ := hBind h
  obtain ⟨hHash, hShape⟩ := hBind h
  simp only [Runtime.require_eq_ok, decide_eq_true_eq] at hIdentity hPrev hHash hShape
  exact ⟨hIdentity.1, hIdentity.2, hPrev, hHash, hShape, hNext⟩

theorem Enveloped.ne_tip {tip : LogAnchor} {entry : LogEntry} (h : Enveloped n tip entry) :
    entry.index ≠ tip.index := by
  have := checkedSucc_eq_some h.next
  omega

theorem applyEntry_sql {m : SqlMaterializer D} {entry : LogEntry}
    (h : Enveloped n m.tip entry) {next : SqlMaterializer D} :
    m.applyEntry n engine entry = .ok next ↔ ∃ configuration contents,
      m.configuration.validateEntry entry = .ok configuration ∧
      changedContents engine m.contents entry = .ok contents ∧
      next = ⟨⟨entry.index, entry.hash⟩, configuration, contents⟩ := by
  have hShape := h.shape
  rw [SqlMaterializer.applyEntry.eq_def]
  simp only [h.hash_eq, h.cluster_eq, h.epoch_eq, h.ne_tip, h.next, h.prev_eq, ne_eq,
    not_true_eq_false, if_false, or_self]
  cases m.configuration.validateEntry entry with
  | error error => simp
  | ok configuration =>
    unfold changedContents
    unfold Runtime.validEntryShape at hShape
    cases hType : entry.entryType with
    | command =>
      cases hApply : engine.apply m.contents entry with
      | error message => simp [bind, Except.bind]
      | ok contents => simp [bind, Except.bind, eq_comm]
    | noop =>
      rw [hType] at hShape
      have hEmpty : entry.payload = [] := List.isEmpty_iff.mp hShape
      simp [hEmpty, eq_comm]
    | configChange => simp [eq_comm]
    | snapshotBarrier => simp [hType] at hShape
    | snapshotPublished => simp [hType] at hShape

theorem applyEntry_kv {m : KvMaterializer D} {entry : LogEntry}
    (h : Enveloped n m.tip entry) {next : KvMaterializer D} :
    m.applyEntry n engine entry = .ok next ↔ entry.configId = m.configId ∧ ∃ contents,
      changedContents engine m.contents entry = .ok contents ∧
      next = ⟨⟨entry.index, entry.hash⟩, m.configId, contents⟩ := by
  have hShape := h.shape
  rw [KvMaterializer.applyEntry.eq_def]
  simp only [h.hash_eq, h.cluster_eq, h.epoch_eq, h.ne_tip, h.next, h.prev_eq, ne_eq,
    not_true_eq_false, if_false]
  by_cases hConfig : entry.configId = m.configId
  · simp only [hConfig, not_true_eq_false, if_false, true_and]
    unfold changedContents
    unfold Runtime.validEntryShape at hShape
    cases hType : entry.entryType with
    | command =>
      cases hApply : engine.apply m.contents entry with
      | error message => simp [bind, Except.bind]
      | ok contents => simp [bind, Except.bind, eq_comm]
    | noop =>
      rw [hType] at hShape
      have hEmpty : entry.payload = [] := List.isEmpty_iff.mp hShape
      simp [hEmpty, eq_comm]
    | configChange =>
      rw [hType] at hShape
      have hRecognized : (ConfigChange.recognizeParts .configChange entry.payload).isSome := hShape
      simp [hRecognized, eq_comm]
    | snapshotBarrier => simp [hType] at hShape
    | snapshotPublished => simp [hType] at hShape
  · simp [hConfig]

theorem validateReplayed_sql {m : SqlMaterializer D} {entry : LogEntry}
    (hEnvelope : n.validateEntryEnvelope entry (m.tip.index + 1) m.tip.hash = .ok ())
    {configuration : ConfigurationState}
    (h : m.configuration.validateEntry entry = .ok configuration) :
    validateReplayed n (.sql m) entry = .ok () := by
  have hSame : Runtime.validateEntryEnvelope { n with configuration := m.configuration } entry
      (m.tip.index + 1) m.tip.hash = .ok () := hEnvelope
  simp only [validateReplayed, Materializer.configurationState, Materializer.tip,
    Runtime.validateRuntimeEntry, hSame, h, bind, Except.bind]

theorem validateReplayed_kv {m : KvMaterializer D} {entry : LogEntry}
    (hEnvelope : n.validateEntryEnvelope entry (m.tip.index + 1) m.tip.hash = .ok ()) :
    validateReplayed n (.kv m) entry = .ok () := hEnvelope

theorem replay_sql {entries : List LogEntry} {m : SqlMaterializer D}
    (hFollows : Follows n m.tip entries) {result : Materializer D} :
    replay n engine (.sql m) entries = .ok result ↔ ∃ configuration contents,
      meaning engine (m.configuration, m.contents) entries = .ok (configuration, contents) ∧
      result = .sql ⟨lastTip m.tip entries, configuration, contents⟩ := by
  induction entries generalizing m with
  | nil => simp [replay, meaning, lastTip, eq_comm]
  | cons entry entries ih =>
    obtain ⟨⟨hEnvelope, hNext⟩, hRest⟩ := hFollows
    have hEnveloped := enveloped hEnvelope hNext
    constructor
    · intro h
      obtain ⟨-, -, h⟩ := bind_ok_iff.mp h
      split at h
      · cases h
      · rename_i next hApply
        simp only [Materializer.applyEntry] at hApply
        cases hStep : m.applyEntry n engine entry with
        | error message =>
          rw [hStep] at hApply
          cases hApply
        | ok changed =>
          rw [hStep] at hApply
          obtain rfl := Except.ok.inj hApply
          obtain ⟨configuration, contents, hConfiguration, hContents, rfl⟩ :=
            (applyEntry_sql hEnveloped).mp hStep
          obtain ⟨last, final, hMeaning, rfl⟩ := (ih hRest).mp h
          exact ⟨last, final, meaning_cons.mpr ⟨_, _, hConfiguration, hContents, hMeaning⟩, rfl⟩
    · rintro ⟨last, final, hMeaning, rfl⟩
      obtain ⟨next, changed, hConfiguration, hContents, hMeaning⟩ := meaning_cons.mp hMeaning
      have hStep := (applyEntry_sql hEnveloped).mpr ⟨_, _, hConfiguration, hContents, rfl⟩
      refine bind_ok_iff.mpr ⟨(), validateReplayed_sql hEnvelope hConfiguration, ?_⟩
      simp only [Materializer.applyEntry, hStep, Except.map]
      exact (ih hRest).mpr ⟨last, final, hMeaning, rfl⟩

theorem replay_kv {entries : List LogEntry} {m : KvMaterializer D}
    (hFollows : Follows n m.tip entries) {state last : ConfigurationState} {contents : D}
    (hMeaning : meaning engine (state, m.contents) entries = .ok (last, contents))
    {result : Materializer D} :
    replay n engine (.kv m) entries = .ok result ↔
      (∀ entry ∈ entries, entry.configId = m.configId) ∧
      result = .kv ⟨lastTip m.tip entries, m.configId, contents⟩ := by
  induction entries generalizing m state with
  | nil =>
    obtain ⟨-, rfl⟩ := Prod.mk.inj (Except.ok.inj hMeaning)
    simp [replay, lastTip, eq_comm]
  | cons entry entries ih =>
    obtain ⟨⟨hEnvelope, hNext⟩, hRest⟩ := hFollows
    have hEnveloped := enveloped hEnvelope hNext
    obtain ⟨next, changed, -, hContents, hMeaning⟩ := meaning_cons.mp hMeaning
    constructor
    · intro h
      obtain ⟨-, -, h⟩ := bind_ok_iff.mp h
      split at h
      · cases h
      · rename_i stepped hApply
        simp only [Materializer.applyEntry] at hApply
        cases hStep : m.applyEntry n engine entry with
        | error message =>
          rw [hStep] at hApply
          cases hApply
        | ok after =>
          rw [hStep] at hApply
          obtain rfl := Except.ok.inj hApply
          obtain ⟨hConfig, found, hFound, rfl⟩ := (applyEntry_kv hEnveloped).mp hStep
          obtain rfl := Except.ok.inj (hContents.symm.trans hFound)
          obtain ⟨hAll, rfl⟩ := (ih hRest hMeaning).mp h
          exact ⟨List.forall_mem_cons.mpr ⟨hConfig, hAll⟩, rfl⟩
    · rintro ⟨hAll, rfl⟩
      obtain ⟨hConfig, hAll⟩ := List.forall_mem_cons.mp hAll
      have hStep := (applyEntry_kv hEnveloped).mpr ⟨hConfig, _, hContents, rfl⟩
      refine bind_ok_iff.mpr ⟨(), validateReplayed_kv hEnvelope, ?_⟩
      simp only [Materializer.applyEntry, hStep, Except.map]
      exact (ih hRest hMeaning).mpr ⟨hAll, rfl⟩

theorem rebuild_sql {log : Log} {contents : D} (h : log.Sound n engine contents) :
    (∃ m, rebuild n engine .sqlite log = .ok m ∧ m.HoldsAll log contents) ↔
      Rebuildable log .sqlite := by
  constructor
  · rintro ⟨m, hRebuild, -⟩
    obtain ⟨replayed, hReplayed, hRebuild⟩ := bind_ok_iff.mp hRebuild
    obtain ⟨⟨⟩, hSame, -⟩ := bind_ok_iff.mp hRebuild
    obtain ⟨last, final, hMeaning, rfl⟩ := (replay_sql
      (m := ⟨⟨0, .zero⟩, log.configuration, engine.empty⟩) h.follows).mp hReplayed
    simp only [Runtime.require_eq_ok, Materializer.configurationState, Option.all_some,
      decide_eq_true_eq] at hSame
    have hRank := rank_meaning hMeaning
    rw [hSame] at hRank
    have hNone : log.entries.filter (fun entry => entry.entryType = .configChange) = [] :=
      List.length_eq_zero_iff.mp (by simpa using hRank)
    intro entry hEntry hType
    have hMem : entry ∈ log.entries.filter fun entry => entry.entryType = .configChange :=
      List.mem_filter.mpr ⟨hEntry, by simpa using hType⟩
    rw [hNone] at hMem
    cases hMem
  · intro hNone
    have hSame := meaning_same h.means hNone
    have hMeans := h.means
    rw [← hSame] at hMeans
    have hReplayed := (replay_sql (m := ⟨⟨0, .zero⟩, log.configuration, engine.empty⟩)
      h.follows).mpr ⟨log.configuration, contents, hMeans, rfl⟩
    refine ⟨_, bind_ok_iff.mpr ⟨_, hReplayed, bind_ok_iff.mpr ⟨(), ?_, rfl⟩⟩, rfl, ?_, rfl⟩
    · simp [Materializer.configurationState]
    · simp [Materializer.configurationState]

theorem rebuild_kv {log : Log} {contents : D} (h : log.Sound n engine contents) :
    (∃ m, rebuild n engine .kv log = .ok m ∧ m.HoldsAll log contents) ↔
      Rebuildable log .kv := by
  constructor
  · rintro ⟨m, hRebuild, -⟩
    obtain ⟨replayed, hReplayed, -⟩ := bind_ok_iff.mp hRebuild
    exact ((replay_kv (m := ⟨⟨0, .zero⟩, log.configuration.configId, engine.empty⟩)
      h.follows h.means).mp hReplayed).1
  · intro hAll
    have hReplayed := (replay_kv (m := ⟨⟨0, .zero⟩, log.configuration.configId, engine.empty⟩)
      h.follows h.means).mpr ⟨hAll, rfl⟩
    refine ⟨_, bind_ok_iff.mpr ⟨_, hReplayed, bind_ok_iff.mpr ⟨(), ?_, rfl⟩⟩, rfl, ?_, rfl⟩
    · simp [Materializer.configurationState]
    · simp [Materializer.configurationState]

/-- A quarantined materializer is rebuilt with everything that the log means exactly if
the log has no configuration change (SQL), or only entries of the configuration that it
ends in (KV). -/
theorem rebuild_iff {profile : Profile} {log : Log} {contents : D}
    (h : log.Sound n engine contents) :
    (∃ m, rebuild n engine profile log = .ok m ∧ m.HoldsAll log contents) ↔
      Rebuildable log profile := by
  cases profile with
  | sqlite => exact rebuild_sql h
  | kv => exact rebuild_kv h

end Proofs

section Example

attribute [local instance] Sha256.rolling

/-- The payloads of the commands, one after the other. -/
def journal : Contents (List Bytes) := ⟨[], fun payloads entry => .ok (payloads ++ [entry.payload])⟩

def runtime : Runtime := { Operator.runtime with acceptsCommand := fun _ => true }

def fresh : ConfigurationState := .active 1 Operator.membership.digest

def opening : LogEntry := Operator.entryOf 1 1 .zero ⟨.noop, []⟩

def quietLog : Log :=
  ⟨fresh, [opening, Operator.entryOf 1 2 opening.hash ⟨.command, [7]⟩], fresh⟩

def handoverLog : Log :=
  ⟨fresh, [Operator.firstStop, Operator.barrier], .active 2 Operator.membership.digest⟩

theorem means_of_test {log : Log} {payloads : List Bytes}
    (h : (meaning journal (log.initial, []) log.entries).toOption =
      some (log.configuration, payloads)) :
    meaning journal (log.initial, journal.empty) log.entries = .ok (log.configuration, payloads) :=
  ok_of_toOption h

theorem quietLog_rebuilt : quietLog.Sound runtime journal [[7]] ∧
    ∀ profile, ∃ m, rebuild runtime journal profile quietLog = .ok m ∧
      m.HoldsAll quietLog [[7]] := by
  have hSound : quietLog.Sound runtime journal [[7]] :=
    ⟨⟨⟨by decide +kernel, by decide⟩, ⟨by decide +kernel, by decide⟩, trivial⟩,
      means_of_test (by decide +kernel)⟩
  refine ⟨hSound, fun profile => (rebuild_iff hSound).mpr ?_⟩
  cases profile with
  | sqlite => simp [Rebuildable, quietLog, opening, Operator.entryOf]
  | kv => simp [Rebuildable, quietLog, opening, Operator.entryOf, fresh, ConfigurationState.configId]

/-- After a handover neither profile is rebuilt. -/
theorem handoverLog_not_rebuilt : handoverLog.Sound runtime journal [] ∧
    ∀ profile m, rebuild runtime journal profile handoverLog ≠ .ok m := by
  refine ⟨⟨⟨⟨by decide +kernel, by decide⟩, ⟨by decide +kernel, by decide⟩, trivial⟩,
    means_of_test (by decide +kernel)⟩, ?_⟩
  intro profile m hRebuild
  have hFails : (rebuild runtime journal profile handoverLog).toOption.isNone := by
    cases profile <;> decide +kernel
  rw [hRebuild] at hFails
  cases hFails

end Example

end Rhiza.Node.Rebuild
