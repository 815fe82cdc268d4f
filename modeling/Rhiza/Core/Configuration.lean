import Rhiza.Core.ConfigChange

/-! # The configuration that a log leads to

Every replica follows the configuration through the entries of its log. An
active configuration is left by a stop, and a stopped one only by the barrier
of the configuration that comes next.
-/

namespace Rhiza.Core

theorem SuccessorDescriptor.new_takes {clusterId : ClusterId} {predecessorConfigId : Nat}
    {predecessorConfigDigest : LogHash} {configId : Nat} {members : List NodeId}
    {successor : SuccessorDescriptor}
    (h : SuccessorDescriptor.new clusterId predecessorConfigId predecessorConfigDigest configId
      members = some successor) :
    successor.predecessorConfigId = predecessorConfigId ∧ successor.configId = configId := by
  simp only [SuccessorDescriptor.new] at h
  split at h
  · split at h
    · split at h
      · split at h
        · split at h
          · obtain rfl := Option.some.inj h
            exact ⟨rfl, rfl⟩
          · cases h
        · cases h
      · cases h
    · cases h
  · cases h

structure LogAnchor where
  index : Nat
  hash : LogHash
  deriving DecidableEq

inductive StopBinding
  | unknown
  | unbound
  | bound (successor : SuccessorDescriptor) (stopCommandHash : LogHash)
  deriving DecidableEq

inductive ConfigurationState
  | active (configId : Nat) (digest : LogHash)
  | stopped (configId : Nat) (digest : LogHash) (stop : LogAnchor) (binding : StopBinding)
  deriving DecidableEq

inductive ConfigurationTransitionError
  | entryHashMismatch
  | invalidConfigChange
  | configurationMismatch
  | invalidActivation
  deriving DecidableEq

/-- What a store says of an entry that its configuration refuses. -/
def ConfigurationTransitionError.message (error : ConfigurationTransitionError) : String :=
  "invalid configuration transition: " ++
    match error with
    | .entryHashMismatch => "EntryHashMismatch"
    | .invalidConfigChange => "InvalidConfigChange"
    | .configurationMismatch => "ConfigurationMismatch"
    | .invalidActivation => "InvalidActivation"

namespace ConfigurationState

def configId : ConfigurationState → Nat
  | active configId _ => configId
  | stopped configId _ _ _ => configId

def digest : ConfigurationState → LogHash
  | active _ digest => digest
  | stopped _ digest _ _ => digest

def stop? : ConfigurationState → Option LogAnchor
  | active _ _ => none
  | stopped _ _ stop _ => some stop

def isActive : ConfigurationState → Bool
  | active _ _ => true
  | stopped _ _ _ _ => false

section Validation

variable [Sha256]

def changeOf (entry : LogEntry) : Except ConfigurationTransitionError (Option ConfigChange) :=
  if entry.entryType = .configChange then
    match ConfigChange.recognizeParts entry.entryType entry.payload with
    | some change => .ok (some change)
    | none => .error .invalidConfigChange
  else .ok none

/-- The cases of `validate_entry` in an active configuration. -/
def leaveActive (configId : Nat) (digest : LogHash) (entry : LogEntry) :
    Option ConfigChange → Except ConfigurationTransitionError ConfigurationState
  | some (.stop stopConfigId configDigest) =>
    if entry.configId = configId ∧ stopConfigId = configId ∧
        (digest = .zero ∨ configDigest = digest) then
      .ok (stopped configId configDigest ⟨entry.index, entry.hash⟩ .unbound)
    else .error .configurationMismatch
  | some (.boundStop successor) =>
    if entry.clusterId = successor.clusterId ∧ entry.configId = configId ∧
        successor.predecessorConfigId = configId ∧
        successor.predecessorConfigDigest = digest then
      .ok (stopped configId digest ⟨entry.index, entry.hash⟩
        (.bound successor (ConfigChange.boundStop successor).toStoredCommand.hash))
    else .error .configurationMismatch
  | none =>
    if entry.configId = configId then .ok (active configId digest)
    else .error .configurationMismatch
  | some _ => .error .configurationMismatch

/-- The cases of `validate_entry` in a stopped configuration. The cached hash of the
stop command is checked against the descriptor it was computed from. -/
def leaveStopped (configId : Nat) (digest : LogHash) (stop : LogAnchor) (entry : LogEntry) :
    StopBinding → Option ConfigChange → Except ConfigurationTransitionError ConfigurationState
  | .unbound, some (.activationBarrier nextId nextDigest stopSlot prefixHash) =>
    if checkedSucc configId = some nextId ∧ entry.configId = nextId ∧
        checkedSucc stop.index = some entry.index ∧ entry.prevHash = stop.hash ∧
        stopSlot = stop.index ∧ prefixHash = stop.hash then
      .ok (active nextId nextDigest)
    else .error .invalidActivation
  | .bound authorized authorizedHash,
      some (.boundActivationBarrier successor stopSlot prefixHash stopCommandHash) =>
    if successor.predecessorConfigId = configId ∧ successor.predecessorConfigDigest = digest ∧
        successor = authorized ∧ entry.clusterId = successor.clusterId ∧
        entry.configId = successor.configId ∧ checkedSucc stop.index = some entry.index ∧
        entry.prevHash = stop.hash ∧ stopSlot = stop.index ∧ prefixHash = stop.hash ∧
        authorizedHash = (ConfigChange.boundStop authorized).toStoredCommand.hash ∧
        stopCommandHash = authorizedHash then
      .ok (active successor.configId successor.digest)
    else .error .invalidActivation
  | _, _ => .error .invalidActivation

def validateEntry (state : ConfigurationState) (entry : LogEntry) :
    Except ConfigurationTransitionError ConfigurationState :=
  if entry.recomputeHash ≠ entry.hash then .error .entryHashMismatch
  else
    match changeOf entry with
    | .error error => .error error
    | .ok change =>
      match state with
      | active configId digest => leaveActive configId digest entry change
      | stopped configId digest stop binding =>
        leaveStopped configId digest stop entry binding change

theorem changeOf_eq_ok {entry : LogEntry} {change : ConfigChange}
    (h : changeOf entry = .ok (some change)) :
    ConfigChange.recognize ⟨entry.entryType, entry.payload⟩ = some change := by
  unfold changeOf at h
  split at h
  · split at h
    · rename_i recognized hRecognized
      obtain rfl := Option.some.inj (Except.ok.inj h)
      exact hRecognized
    · cases h
  · cases h

theorem changeOf_of_recognize {entry : LogEntry} {change : ConfigChange}
    (h : ConfigChange.recognize ⟨entry.entryType, entry.payload⟩ = some change) :
    changeOf entry = .ok (some change) := by
  have hType : entry.entryType = .configChange := by
    by_contra hNe
    simp [ConfigChange.recognize, ConfigChange.recognizeParts, hNe] at h
  unfold changeOf
  rw [if_pos hType]
  unfold ConfigChange.recognize at h
  simp only [h]

theorem validateEntry_eq_ok {state next : ConfigurationState} {entry : LogEntry}
    (h : state.validateEntry entry = .ok next) :
    entry.recomputeHash = entry.hash ∧ ∃ change, changeOf entry = .ok change ∧
      match state with
      | active configId digest => leaveActive configId digest entry change = .ok next
      | stopped configId digest stop binding =>
        leaveStopped configId digest stop entry binding change = .ok next := by
  unfold validateEntry at h
  split at h
  · cases h
  · rename_i hHash
    refine ⟨not_not.mp hHash, ?_⟩
    split at h
    · cases h
    · rename_i change hChange
      exact ⟨change, hChange, by cases state <;> exact h⟩

theorem leaveActive_eq_ok {configId : Nat} {digest : LogHash} {entry : LogEntry}
    {change : Option ConfigChange} {next : ConfigurationState}
    (h : leaveActive configId digest entry change = .ok next) :
    entry.configId = configId ∧ next.configId = configId ∧
      (next.isActive → next = active configId digest) := by
  unfold leaveActive at h
  split at h
  all_goals first
    | cases h
    | split at h
      · rename_i hGuard
        obtain rfl := Except.ok.inj h
        simp_all [ConfigurationState.configId, isActive]
      · cases h

theorem validateEntry_active {configId : Nat} {digest : LogHash} {entry : LogEntry}
    {next : ConfigurationState} (h : (active configId digest).validateEntry entry = .ok next) :
    entry.configId = configId ∧ next.configId = configId ∧
      (next.isActive → next = active configId digest) := by
  obtain ⟨-, change, -, hLeave⟩ := validateEntry_eq_ok h
  exact leaveActive_eq_ok hLeave

theorem validateEntry_stopped {configId : Nat} {digest : LogHash} {stop : LogAnchor}
    {binding : StopBinding} {entry : LogEntry} {next : ConfigurationState}
    (h : (stopped configId digest stop binding).validateEntry entry = .ok next) :
    checkedSucc configId = some entry.configId ∧ ∃ change,
      ConfigChange.recognize ⟨entry.entryType, entry.payload⟩ = some change ∧ change.isBarrier ∧
      change.binding.1 = entry.configId ∧ next = active entry.configId change.binding.2 := by
  obtain ⟨-, change, hChange, hLeave⟩ := validateEntry_eq_ok h
  simp only at hLeave
  unfold leaveStopped at hLeave
  split at hLeave
  · split at hLeave
    · rename_i hGuard
      obtain ⟨hNext, hId, -⟩ := hGuard
      obtain rfl := Except.ok.inj hLeave
      rw [hId]
      exact ⟨hNext, _, changeOf_eq_ok hChange, rfl, rfl, rfl⟩
    · cases hLeave
  · split at hLeave
    · rename_i successor _ _ _ hGuard
      obtain ⟨rfl, -, -, -, hId, -⟩ := hGuard
      obtain rfl := Except.ok.inj hLeave
      rw [hId]
      exact ⟨successor.next, _, changeOf_eq_ok hChange, rfl, rfl, rfl⟩
    · cases hLeave
  · cases hLeave

/-- How far a log has come from configuration to configuration. -/
def rank : ConfigurationState → Nat
  | active configId _ => 2 * configId
  | stopped configId _ _ _ => 2 * configId + 1

def rankBefore : ConfigChange → Nat
  | .stop configId _ => 2 * configId
  | .boundStop successor => 2 * successor.predecessorConfigId
  | .activationBarrier configId _ _ _ => 2 * configId - 1
  | .boundActivationBarrier successor _ _ _ => 2 * successor.predecessorConfigId + 1

theorem rank_of_changeOf_none {state next : ConfigurationState} {entry : LogEntry}
    (h : state.validateEntry entry = .ok next) (hNone : changeOf entry = .ok none) :
    next.rank = state.rank := by
  obtain ⟨-, change, hChange, hLeave⟩ := validateEntry_eq_ok h
  rw [hNone] at hChange
  obtain rfl := Except.ok.inj hChange
  cases state with
  | active configId digest =>
    simp only [leaveActive] at hLeave
    split at hLeave
    · obtain rfl := Except.ok.inj hLeave
      rfl
    · cases hLeave
  | stopped configId digest stop binding => cases binding <;> cases hLeave

theorem rank_of_change {state next : ConfigurationState} {entry : LogEntry} {change : ConfigChange}
    (h : state.validateEntry entry = .ok next) (hChange : changeOf entry = .ok (some change)) :
    state.rank = rankBefore change ∧ next.rank = state.rank + 1 := by
  obtain ⟨-, found, hFound, hLeave⟩ := validateEntry_eq_ok h
  rw [hChange] at hFound
  obtain rfl := Except.ok.inj hFound
  cases state with
  | active configId digest =>
    cases change <;> simp only [leaveActive] at hLeave
    case stop =>
      split at hLeave
      · rename_i hGuard
        obtain rfl := Except.ok.inj hLeave
        exact ⟨by rw [rank, rankBefore, hGuard.2.1], rfl⟩
      · cases hLeave
    case boundStop =>
      split at hLeave
      · rename_i hGuard
        obtain rfl := Except.ok.inj hLeave
        exact ⟨by rw [rank, rankBefore, hGuard.2.2.1], rfl⟩
      · cases hLeave
    all_goals cases hLeave
  | stopped configId digest stop binding =>
    obtain ⟨hNext, found, hRecognized, hBarrier, hBinding, rfl⟩ := validateEntry_stopped h
    have hId := checkedSucc_eq_some hNext
    cases binding <;> cases change <;> simp only [leaveStopped] at hLeave
    case unbound.activationBarrier =>
      split at hLeave
      · rename_i hGuard
        obtain ⟨hThere, -⟩ := hGuard
        have hIs := checkedSucc_eq_some hThere
        refine ⟨?_, ?_⟩ <;> simp only [rank, rankBefore] <;> omega
      · cases hLeave
    case bound.boundActivationBarrier =>
      split at hLeave
      · rename_i hGuard
        refine ⟨by rw [rank, rankBefore, hGuard.1], ?_⟩
        simp only [rank]
        omega
      · cases hLeave
    all_goals cases hLeave

def follow (state : ConfigurationState) (entries : List LogEntry) :
    Except ConfigurationTransitionError ConfigurationState :=
  entries.foldlM validateEntry state

end Validation

end ConfigurationState

def LogEntry.anchor (entry : LogEntry) : LogAnchor := ⟨entry.index, entry.hash⟩

structure ExtendsLog [Sha256] (clusterId : ClusterId) (epoch : Nat) (tip : LogAnchor)
    (entry : LogEntry) : Prop where
  cluster : entry.clusterId = clusterId
  epoch : entry.epoch = epoch
  index : checkedSucc tip.index = some entry.index
  prev : entry.prevHash = tip.hash
  hash : entry.recomputeHash = entry.hash

end Rhiza.Core
