import Rhiza.Core.Canonical
import Rhiza.Core.Configuration
import Rhiza.Quepaxa.Cluster
import Rhiza.Quepaxa.Inspection
import Rhiza.Quepaxa.Operations

/-! # The gate of a recorder and the configuration of the log

A recorder admits a command before it is decided, and every replica checks the
decided entry against the configuration its log has led to. The two checks were
written apart. Here they are compared: what the recorder admits is followed
through the entry that a proposer makes of it into the log.
-/

namespace Rhiza.Quepaxa

open Core Library

section Comparison

variable [Sha256]

structure Shares (e : ThreeNodeConsensus) (v : RecorderView) : Prop where
  cluster : e.clusterId = v.clusterId
  epoch : e.epoch = v.epoch
  config : e.configId = v.configuration.configId

/-- The log configurations that a recorder is matched with: the one it is active in,
or the stopped one whose successor it waits to activate. -/
inductive Matched (v : RecorderView) : Core.ConfigurationState → Prop
  | active (activated : v.configuration.activated) :
    Matched v (.active v.configuration.configId v.configuration.configDigest)
  | stopped {mark : ConfigurationSeal} {successor : SuccessorDescriptor}
    (inactive : v.configuration.activated = false)
    (predecessor : v.configuration.predecessor = some mark)
    (cluster : successor.clusterId = v.clusterId)
    (config : successor.configId = v.configuration.configId)
    (digest : successor.digest = v.configuration.configDigest)
    (command : mark.commandHash = (ConfigChange.boundStop successor).toStoredCommand.hash) :
    Matched v (.stopped successor.predecessorConfigId successor.predecessorConfigDigest
      ⟨mark.stopSlot, mark.prefixHash⟩ (.bound successor mark.commandHash))

/-- How the configuration of a recorder stands to that of a log after `value` was applied
in `slot`. A recorder activates, and drops the seal of another command, only with a
decision; a seal it sets at once. -/
inductive Corresponds (slot : Nat) (value : AcceptedValue) (decided : Bool)
    (next : ConfigurationState) : Core.ConfigurationState → Prop
  | active (activated : decided → next.activated)
    (unsealed : decided → ∀ mark, next.sealed = some mark → mark.stopSlot = slot →
      mark.commandHash = value.commandHash) :
    Corresponds slot value decided next (.active next.configId next.configDigest)
  | stopped {stop : LogAnchor} {binding : StopBinding}
    (sealed : next.sealed = some ⟨stop.index, value.commandHash, stop.hash⟩)
    (bound : ∀ successor stopCommandHash, binding = .bound successor stopCommandHash →
      stopCommandHash = value.commandHash) :
    Corresponds slot value decided next
      (.stopped next.configId next.configDigest stop binding)

def Agrees (clusterId : ClusterId) (prevHash : LogHash) :
    Core.ConfigurationState → Option ConfigChange → Prop
  | _, some (.boundStop successor) => successor.clusterId = clusterId
  | .stopped _ _ stop (.bound authorized _), some (.boundActivationBarrier successor _ _ _) =>
    successor = authorized ∧ prevHash = stop.hash
  | _, _ => True

def Follows (v : RecorderView) (slot : Nat) (value : AcceptedValue) (change : Option ConfigChange)
    (log : Core.ConfigurationState) (entry : LogEntry) : Prop :=
  ∃ log', log.validateEntry entry = .ok log' ∧ ∀ state next, state.slot = slot →
    transitionAfterApply v.configuration state change (some value) = .ok next →
      Corresponds slot value state.decidedProof.isSome next log'

variable {v : RecorderView} {request : RecordRequest} {value : AcceptedValue}
  {command : StoredCommand} {change : Option ConfigChange}

def RecorderView.entryOf (v : RecorderView) (slot : Nat) (command : StoredCommand)
    (value : AcceptedValue) : LogEntry :=
  ⟨v.clusterId, v.epoch, v.configuration.configId, slot, command.entryType, command.payload,
    value.prevHash, value.entryHash⟩

theorem recomputeHash_entryOf {slot : Nat} (h : v.Resolves slot value command change) :
    (v.entryOf slot command value).recomputeHash = (v.entryOf slot command value).hash :=
  congrArg AcceptedValue.entryHash h.resolved

theorem logEntryFromValue_eq_entryOf {e : ThreeNodeConsensus} {slot : Nat} (hShares : Shares e v)
    (h : v.Resolves slot value command change) :
    e.logEntryFromValue slot command value = .ok (v.entryOf slot command value) := by
  have hHash := recomputeHash_entryOf h
  unfold RecorderView.entryOf at hHash ⊢
  simp only [ThreeNodeConsensus.logEntryFromValue, hShares.cluster, hShares.epoch, hShares.config]
  rw [if_neg (not_not.mpr hHash)]

theorem changeOf_entryOf {slot : Nat} (h : changeForCommand command = .ok change) :
    ConfigurationState.changeOf (v.entryOf slot command value) = .ok change := by
  unfold changeForCommand at h
  split at h
  · rename_i hType
    cases h
    exact if_neg hType
  · split at h
    · cases h
    · rename_i recognized hRecognized
      cases h
      exact Core.ConfigurationState.changeOf_of_recognize hRecognized

theorem command_of_change {recognized : ConfigChange}
    (h : changeForCommand command = .ok (some recognized)) :
    command = recognized.toStoredCommand := by
  unfold changeForCommand at h
  split at h
  · cases h
  · rename_i hType
    rw [not_not] at hType
    split at h
    · cases h
    · rename_i found hFound
      cases h
      obtain ⟨entryType, payload⟩ := command
      obtain rfl : entryType = .configChange := hType
      exact (ConfigChange.recognizeParts_inverse hFound).2.symm

theorem validateEntry_entryOf {slot : Nat} (h : v.Resolves slot value command change)
    (log : Core.ConfigurationState) :
    log.validateEntry (v.entryOf slot command value) =
      match log with
      | .active configId digest =>
        Core.ConfigurationState.leaveActive configId digest (v.entryOf slot command value) change
      | .stopped configId digest stop binding =>
        Core.ConfigurationState.leaveStopped configId digest stop (v.entryOf slot command value)
          binding change := by
  unfold Core.ConfigurationState.validateEntry
  rw [if_neg (not_not.mpr (recomputeHash_entryOf h)), changeOf_entryOf h.change_eq] <;>
    cases log <;> rfl

omit [Sha256] in
theorem Applied.no_other_seal {configuration next : ConfigurationState}
    {state : RecorderSlotState} (h : Applied configuration state change value next)
    (hStop : change.any (·.isStop) = false) (hDecided : state.decidedProof.isSome)
    {mark : ConfigurationSeal} (hMark : next.sealed = some mark)
    (hSlot : mark.stopSlot = state.slot) : mark.commandHash = value.commandHash := by
  rw [h.unstopped hStop] at hMark
  obtain ⟨-, hKept⟩ := Option.filter_eq_some_iff.mp hMark
  by_contra hDiffers
  simp [hDecided, hSlot, Ne.symm hDiffers] at hKept

omit [Sha256] in
theorem Applied.corresponds_active {configuration next : ConfigurationState}
    {state : RecorderSlotState} {slot : Nat} (h : Applied configuration state change value next)
    (hSlot : state.slot = slot) (hStop : change.any (·.isStop) = false)
    (hActive : configuration.activated ∨ change.any (·.isBarrier)) :
    Corresponds slot value state.decidedProof.isSome next
      (.active configuration.configId configuration.configDigest) := by
  subst hSlot
  rw [← h.configId_eq, ← h.configDigest_eq]
  refine .active (fun hDecided => ?_) fun hDecided mark => h.no_other_seal hStop hDecided
  rw [h.activated, Bool.or_eq_true]
  exact hActive.imp id fun hBarrier => by rw [hBarrier, hDecided, Bool.and_self]

omit [Sha256] in
theorem Applied.corresponds_stopped {configuration next : ConfigurationState}
    {state : RecorderSlotState} {slot : Nat} {binding : StopBinding}
    (h : Applied configuration state change value next) (hSlot : state.slot = slot)
    (hStop : change.any (·.isStop))
    (hBound : ∀ successor stopCommandHash, binding = .bound successor stopCommandHash →
      stopCommandHash = value.commandHash) :
    Corresponds slot value state.decidedProof.isSome next
      (.stopped configuration.configId configuration.configDigest
        ⟨slot, value.entryHash⟩ binding) := by
  subst hSlot
  rw [← h.configId_eq, ← h.configDigest_eq]
  exact .stopped (h.stopped hStop) hBound

theorem passes_of_recordProposal {outcome : RecordSummary × Option Transition}
    (h : v.recordProposal request = .ok outcome) (hValue : request.proposal.value = some value)
    (hCommand : v.resolveCommand request value = .ok command)
    (hChange : changeForCommand command = .ok change) : v.Passes request value command change := by
  obtain ⟨value', command', change', -, hPasses, -, -⟩ :=
    RecorderView.recordProposal_eq_ok h
  obtain rfl : value' = value := Option.some.inj (hPasses.value_eq.symm.trans hValue)
  have hSame : command' = command := by
    rcases hPasses.source with hOwn | ⟨hNone, hStored⟩
    · simp only [RecorderView.resolveCommand, hOwn, unit_bind_ok_iff, Except.ok.injEq] at hCommand
      exact hCommand.2
    · simp only [RecorderView.resolveCommand, hNone, RecorderView.commandForValue_eq_ok] at hCommand
      exact Option.some.inj (Except.ok.inj (hStored.symm.trans hCommand))
  subst hSame
  obtain rfl : change' = change := Except.ok.inj (hPasses.change_eq.symm.trans hChange)
  exact hPasses

theorem follows_active_iff (hActivated : v.configuration.activated)
    (h : v.Passes request value command change) :
    Follows v request.slot value change
        (.active v.configuration.configId v.configuration.configDigest)
        (v.entryOf request.slot command value) ↔
      Agrees v.clusterId value.prevHash
        (.active v.configuration.configId v.configuration.configDigest) change := by
  have hNoBarrier := h.admitted.opened hActivated
  unfold Follows
  rw [validateEntry_entryOf h.toResolves]
  cases change with
  | none =>
    refine ⟨fun _ => trivial, fun _ => ⟨_, if_pos rfl, ?_⟩⟩
    intro state next hState hNext
    exact (applied_of_transitionAfterApply hNext).corresponds_active hState rfl
      (.inl hActivated)
  | some change =>
    have hBinding := h.admitted.bound change rfl
    cases change with
    | stop configId configDigest =>
      obtain ⟨rfl, rfl⟩ := Prod.mk.inj hBinding
      refine ⟨fun _ => trivial, fun _ => ⟨_, if_pos ⟨rfl, rfl, .inr rfl⟩, ?_⟩⟩
      intro state next hState hNext
      exact (applied_of_transitionAfterApply hNext).corresponds_stopped hState rfl nofun
    | boundStop successor =>
      obtain ⟨hId, hDigest⟩ := Prod.mk.inj hBinding
      constructor
      · rintro ⟨log', hLog, -⟩
        by_contra hOther
        simp only [Core.ConfigurationState.leaveActive] at hLog
        rw [if_neg fun hAll => hOther hAll.1.symm] at hLog
        cases hLog
      · intro hCluster
        refine ⟨_, if_pos ⟨hCluster.symm, rfl, hId, hDigest⟩, ?_⟩
        intro state next hState hNext
        refine (applied_of_transitionAfterApply hNext).corresponds_stopped hState rfl ?_
        rintro _ stopCommandHash hBound
        cases hBound
        rw [← command_of_change h.change_eq, h.hash_eq]
    | activationBarrier => cases hNoBarrier
    | boundActivationBarrier => cases hNoBarrier

theorem follows_stopped_iff {mark : ConfigurationSeal} {authorized : SuccessorDescriptor}
    (hInactive : v.configuration.activated = false)
    (hPredecessor : v.configuration.predecessor = some mark)
    (hMark : mark.commandHash = (ConfigChange.boundStop authorized).toStoredCommand.hash)
    (hSlot : request.slot < u64Bound) (h : v.Passes request value command change) :
    Follows v request.slot value change
        (.stopped authorized.predecessorConfigId authorized.predecessorConfigDigest
          ⟨mark.stopSlot, mark.prefixHash⟩ (.bound authorized mark.commandHash))
        (v.entryOf request.slot command value) ↔
      Agrees v.clusterId value.prevHash
        (.stopped authorized.predecessorConfigId authorized.predecessorConfigDigest
          ⟨mark.stopSlot, mark.prefixHash⟩ (.bound authorized mark.commandHash)) change := by
  obtain ⟨predecessor, hSame, hNext, hOpens⟩ := h.admitted.opens hInactive
  obtain rfl : predecessor = mark := Option.some.inj (hSame.symm.trans hPredecessor)
  have hSome : change.isSome := h.active.resolve_left (by simp [hInactive])
  obtain ⟨barrier, rfl⟩ := Option.isSome_iff_exists.mp hSome
  have hSucc : checkedSucc predecessor.stopSlot = some request.slot := by
    rw [hNext] at hSlot ⊢
    exact if_pos hSlot
  unfold Follows
  rw [validateEntry_entryOf h.toResolves]
  cases barrier with
  | boundActivationBarrier successor stopSlot prefixHash stopCommandHash =>
    simp only [Option.all_some, activates, decide_eq_true_eq] at hOpens
    obtain ⟨hCluster, hConfig, hDigest, -, rfl, rfl, rfl⟩ := hOpens
    constructor
    · rintro ⟨log', hLog, -⟩
      by_contra hOther
      simp only [Core.ConfigurationState.leaveStopped] at hLog
      rw [if_neg fun hAll => hOther ⟨hAll.2.2.1, hAll.2.2.2.2.2.2.1⟩] at hLog
      cases hLog
    · rintro ⟨rfl, hPrev⟩
      refine ⟨_, if_pos ⟨rfl, rfl, rfl, hCluster.symm, hConfig.symm, hSucc, hPrev, rfl, rfl, hMark,
        rfl⟩, ?_⟩
      intro state next hState hApplied
      rw [hConfig, hDigest]
      exact (applied_of_transitionAfterApply hApplied).corresponds_active hState rfl (.inr rfl)
  | stop => simp [activates] at hOpens
  | boundStop => simp [activates] at hOpens
  | activationBarrier => simp [activates] at hOpens

/-- What a recorder admits becomes an entry that the log accepts, and the two
configurations go on together, exactly when the change names the right cluster and the
barrier is that of the authorized successor, right after the stop. -/
theorem gate_agrees_with_log_iff {e : ThreeNodeConsensus} {log : Core.ConfigurationState}
    {outcome : RecordSummary × Option Transition} (hShares : Shares e v) (hMatched : Matched v log)
    (hSlot : request.slot < u64Bound) (hAdmitted : v.recordProposal request = .ok outcome)
    (hValue : request.proposal.value = some value)
    (hCommand : v.resolveCommand request value = .ok command)
    (hChange : changeForCommand command = .ok change) :
    (∃ entry, e.logEntryFromValue request.slot command value = .ok entry ∧
      Follows v request.slot value change log entry) ↔
    Agrees v.clusterId value.prevHash log change := by
  have hPasses := passes_of_recordProposal hAdmitted hValue hCommand hChange
  rw [logEntryFromValue_eq_entryOf hShares hPasses.toResolves]
  simp only [Except.ok.injEq, exists_eq_left']
  cases hMatched with
  | active hActivated => exact follows_active_iff hActivated hPasses
  | stopped hInactive hPredecessor _ _ _ hMark =>
    exact follows_stopped_iff hInactive hPredecessor hMark hSlot hPasses

end Comparison

/-! A recorder of the trio that is asked to stop in favour of a named cluster. -/

namespace Trio

def recorder : RecorderView where
  recorderId := "a"
  clusterId := group.clusterId
  epoch := group.epoch
  configuration := .initial group.configId group.membership.digest (some group.membership)
  load := fun slot digest =>
    .ok (.newWithDigest slot group.clusterId group.epoch group.configId digest)
  holdsSlot := fun _ => false
  fetch := fun _ => .ok none

theorem next : checkedSucc 1 = some 2 := by decide

def stopFor (clusterId : ClusterId) (hNamed : clusterId ≠ "")
    (hBounded : (utf8 clusterId).length ≤ 65535) : ConfigChange :=
  .boundStop ⟨clusterId, 1, group.membership.digest, 2, group.membership.members, hNamed, hBounded,
    next, group.membership.canonical⟩

def stopValue (change : ConfigChange) : AcceptedValue :=
  .fromCommand group.clusterId 1 group.epoch group.configId .zero change.toStoredCommand

def stopRequest (change : ConfigChange) : RecordRequest :=
  ⟨group.clusterId, group.epoch, group.configId, group.membership.digest, 1, 4,
    ⟨.fromU64 1, "a", 1, some (stopValue change)⟩, some change.toStoredCommand⟩

def ownStop : ConfigChange := stopFor "trio" (by decide) (by decide)

def foreignStop : ConfigChange := stopFor "other" (by decide) (by decide)

/-- A stop for the trio itself goes through both checks. -/
theorem ownStop_is_followed : ∃ entry,
    (engine "a").logEntryFromValue 1 ownStop.toStoredCommand (stopValue ownStop) = .ok entry ∧
    Follows recorder 1 (stopValue ownStop) (some ownStop) (.active 1 group.membership.digest)
      entry := by
  obtain ⟨outcome, hOutcome⟩ : ∃ outcome,
      recorder.recordProposal (stopRequest ownStop) = .ok outcome := by
    cases h : recorder.recordProposal (stopRequest ownStop) with
    | ok outcome => exact ⟨outcome, rfl⟩
    | error error =>
      exfalso
      have hOk : (recorder.recordProposal (stopRequest ownStop)).isOk := by decide +kernel
      rw [h] at hOk
      cases hOk
  exact (gate_agrees_with_log_iff (v := recorder) ⟨rfl, rfl, rfl⟩ (.active rfl)
    (by decide) hOutcome rfl (by decide +kernel) (by decide +kernel)).mpr rfl

/-- The recorder also admits a stop that names another cluster; the log refuses the entry
that the decision leads to. -/
theorem foreignStop_is_refused_by_log : Matched recorder (.active 1 group.membership.digest) ∧
    (recorder.recordProposal (stopRequest foreignStop)).isOk ∧
    ∃ entry, (engine "a").logEntryFromValue 1 foreignStop.toStoredCommand
        (stopValue foreignStop) = .ok entry ∧
      (Core.ConfigurationState.active 1 group.membership.digest).validateEntry entry =
        .error .configurationMismatch := by
  refine ⟨.active rfl, by decide +kernel, recorder.entryOf 1 foreignStop.toStoredCommand
    (stopValue foreignStop), ?_, ?_⟩
  · decide +kernel
  · decide +kernel

end Trio

end Rhiza.Quepaxa
