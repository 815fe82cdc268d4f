import Rhiza.Quepaxa.RoundTrip
import Rhiza.Quepaxa.Crash

/-! # Whatever a recorder writes can be read

The fields of slot states and configurations are private, so that all of them come
from the functions below. The decoders check more than the formats: that a decision
belongs to its slot, and that a digest is that of the members. These checks never
refuse what the functions make.
-/

namespace Rhiza.Quepaxa

open Core Library

section Made

variable [Sha256]

/-- Every slot state there can be. The digest of a proof that is installed is that
of a membership, and `LogHash::ZERO` is the digest of none. -/
inductive RecorderSlotState.Made : RecorderSlotState → Prop
  | newWithDigest (slot : Nat) (clusterId : ClusterId) (epoch configId : Nat)
      (configDigest : LogHash) : Made (.newWithDigest slot clusterId epoch configId configDigest)
  | record {state next : RecorderSlotState} {request : RecordRequest} {reply : IsrReply}
      (h : Made state) (hRecord : state.record request = .ok (next, reply)) : Made next
  | recordProposal {state : RecorderSlotState} {v : RecorderView} {request : RecordRequest}
      {value : AcceptedValue} {change : Option ConfigChange} {summary : RecordSummary}
      {t : Transition} (h : Made state)
      (hRecord : v.recordInSlot request value change state = .ok (summary, some t)) : Made t.state
  | installDecisionProof {state : RecorderSlotState} {r : Recorder} {proof : DecisionProof}
      {membership : Membership} {t : Transition} (h : Made state)
      (hLoad : r.load proof.slot proof.configDigest = .ok state)
      (hDigest : proof.configDigest ≠ .zero)
      (hInstall : r.view.installDecisionProofRecord proof membership = .ok (some t)) : Made t.state

structure RecorderSlotState.Consistent (state : RecorderSlotState) : Prop where
  accepted : state.accepted = none
  decided : ∀ decision, state.decided = some decision → decision.slot = state.slot ∧
    decision.epoch = state.epoch ∧ decision.configId = state.configId ∧
    decision.configDigest = state.configDigest
  decidedProof : ∀ proof, state.decidedProof = some proof →
    (proof.slot = state.slot ∧ proof.epoch = state.epoch ∧ proof.configId = state.configId ∧
      proof.configDigest = state.configDigest) ∧ proof.clusterId = state.clusterId ∧
    ∃ decision, state.decided = some decision ∧ proof.proposal.value = some decision.value

omit [Sha256] in
theorem RecorderSlotState.Consistent.coherent {state : RecorderSlotState} (h : state.Consistent) :
    Wire.Coherent state := by
  constructor
  · rw [Wire.checkAccepted, h.accepted]
  · cases hDecided : state.decided with
    | none => rw [Wire.checkDecided, hDecided]
    | some decision =>
      rw [Wire.checkDecided, hDecided]
      exact ensure_of (h.decided decision hDecided)
  · cases hProof : state.decidedProof with
    | none => rw [Wire.checkDecidedProof, hProof]
    | some proof =>
      obtain ⟨hContext, hCluster, decision, hDecided, hValue⟩ := h.decidedProof proof hProof
      rw [Wire.checkDecidedProof, hProof]
      refine ensure_of ⟨hContext, hCluster, ?_, ?_⟩
      · rw [hDecided, Option.isSome_some]
      · rw [hDecided, hValue, Option.map_some]

theorem installed_state {r : Recorder} {proof : DecisionProof} {membership : Membership}
    {state : RecorderSlotState} {t : Transition}
    (hLoad : r.load proof.slot proof.configDigest = .ok state)
    (h : r.view.installDecisionProofRecord proof membership = .ok (some t)) :
    (proof.clusterId = r.clusterId ∧ proof.epoch = r.epoch ∧
      proof.configId = r.configuration.configId) ∧
    ∃ decision, t.state = { state with decidedProof := some proof, decided := some decision } ∧
      proof.proposal.value = some decision.value ∧
      (state.decided = some decision ∨ state.decided = none ∧ decision.slot = proof.slot ∧
        decision.epoch = proof.epoch ∧ decision.configId = proof.configId ∧
        decision.configDigest = proof.configDigest) := by
  obtain ⟨value, hAdmit, h⟩ := bind_ok_iff.mp h
  obtain ⟨state', hLoad', h⟩ := bind_ok_iff.mp h
  obtain rfl : state' = state := Except.ok.inj (hLoad'.symm.trans hLoad)
  simp only [RecorderView.admitProof, unit_bind_ok_iff, ensure_eq_ok, decide_eq_true_eq] at hAdmit
  obtain ⟨hCluster, ⟨hEpoch, hConfig, -, -⟩, -, -⟩ := hAdmit
  refine ⟨⟨hCluster, hEpoch, hConfig⟩, ?_⟩
  cases hProof : state'.decidedProof with
  | some existing =>
    simp only [RecorderView.installInSlot, hProof] at h
    obtain ⟨-, -, h⟩ := bind_ok_iff.mp h
    cases h
  | none =>
    simp only [RecorderView.installInSlot, hProof] at h
    obtain ⟨change, -, h⟩ := bind_ok_iff.mp h
    obtain ⟨-, h⟩ := unit_bind_ok_iff.mp h
    obtain ⟨installed, hInstalled, hRest⟩ := bind_ok_iff.mp h
    rw [RecorderView.installProof_eq_ok hProof (liftReject_eq_ok.mp hInstalled)] at hRest
    obtain ⟨certificate, hCertificate, hRest⟩ := bind_ok_iff.mp hRest
    obtain ⟨next, hNext, hRest⟩ := bind_ok_iff.mp hRest
    obtain ⟨configuration, -, hRest⟩ := bind_ok_iff.mp hRest
    obtain rfl := Option.some.inj (Except.ok.inj hRest)
    have hValue := RecorderView.certificateFromProof_eq_ok hCertificate
    cases hDecided : state'.decided with
    | some existing =>
      simp only [RecorderView.withCertificate, hDecided] at hNext
      split at hNext
      · cases hNext
      · rename_i hSame
        push Not at hSame
        obtain rfl := Except.ok.inj hNext
        exact ⟨existing, by rw [← hDecided], hSame ▸ hValue, .inl rfl⟩
    | none =>
      simp only [RecorderView.withCertificate, hDecided] at hNext
      obtain rfl := Except.ok.inj hNext
      refine ⟨certificate, rfl, hValue, .inr ⟨rfl, ?_⟩⟩
      simp only [certificateFromProof, hValue, Except.ok.injEq] at hCertificate
      rw [← hCertificate]
      exact ⟨rfl, rfl, rfl, rfl⟩

theorem RecorderSlotState.Made.consistent {state : RecorderSlotState} (h : state.Made) :
    state.Consistent := by
  induction h with
  | newWithDigest slot clusterId epoch configId configDigest =>
    refine ⟨rfl, ?_, ?_⟩
    · rintro _ ⟨⟩
    · rintro _ ⟨⟩
  | record h hRecord ih =>
    obtain ⟨-, -, -, rfl⟩ := RecorderSlotState.record_eq_ok hRecord
    exact ⟨ih.accepted, ih.decided, ih.decidedProof⟩
  | recordProposal h hRecord ih =>
    obtain ⟨_, -, -, hNone⟩ | ⟨t, hSome, -, hRecords⟩ := RecorderView.recordInSlot_eq_ok hRecord
    · cases hNone
    · obtain rfl := Option.some.inj hSome
      rw [hRecords.state_eq]
      exact ⟨rfl, ih.decided, ih.decidedProof⟩
  | @installDecisionProof state r proof membership t h hLoad hDigest hInstall ih =>
    obtain ⟨hSlot, hCluster, hEpoch, hConfig, hSame, -⟩ := Recorder.load_eq_ok hLoad
    obtain ⟨⟨hProofCluster, hProofEpoch, hProofConfig⟩, decision, hState, hValue, hDecided⟩ :=
      installed_state hLoad hInstall
    have hContext : proof.slot = state.slot ∧ proof.epoch = state.epoch ∧
        proof.configId = state.configId ∧ proof.configDigest = state.configDigest :=
      ⟨hSlot.symm, hProofEpoch.trans hEpoch.symm, hProofConfig.trans hConfig.symm,
        (hSame hDigest).symm⟩
    rw [hState]
    constructor
    · exact ih.accepted
    · intro found hFound
      obtain rfl := Option.some.inj hFound
      obtain hOld | ⟨-, hNewSlot, hNewEpoch, hNewConfig, hNewDigest⟩ := hDecided
      · exact ih.decided decision hOld
      · exact ⟨hNewSlot.trans hContext.1, hNewEpoch.trans hContext.2.1,
          hNewConfig.trans hContext.2.2.1, hNewDigest.trans hContext.2.2.2⟩
    · intro found hFound
      obtain rfl := Option.some.inj hFound
      exact ⟨hContext, hProofCluster.trans hCluster.symm, decision, rfl, hValue⟩

/-- Every configuration there can be: `open_root` starts without members. -/
inductive ConfigurationState.Made : ConfigurationState → Prop
  | rootOpened (configId : Nat) : Made (.initial configId .zero none)
  | initial (configId : Nat) (membership : Membership) :
      Made (.initial configId membership.digest (some membership))
  | transitionAfterApply {configuration next : ConfigurationState} {state : RecorderSlotState}
      {change : Option ConfigChange} {appliedValue : Option AcceptedValue} (h : Made configuration)
      (hApply : transitionAfterApply configuration state change appliedValue = .ok next) :
      Made next
  | installSuccessor {v : RecorderView} {membership : Membership} {stopProof : DecisionProof}
      {installed : ConfigurationState} {stopCommand : StoredCommand}
      (hInstall : v.installSuccessorFromProof membership stopProof = .ok (installed, stopCommand)) :
      Made installed
  | recoverActivation {v : RecorderView} {stopSlot : Nat} {prefixHash : LogHash}
      {recoveredTip : Nat} {recoveredHash : LogHash} {next : ConfigurationState}
      {head : Option RecordedHeadProvenance} (h : Made v.configuration)
      (hRecover : v.recoverSuccessorActivationFromCheckpoint stopSlot prefixHash recoveredTip
        recoveredHash = .ok (next, head)) : Made next

omit [Sha256] in
theorem transitionAfterApply_kept {configuration next : ConfigurationState}
    {state : RecorderSlotState} {change : Option ConfigChange} {appliedValue : Option AcceptedValue}
    (h : transitionAfterApply configuration state change appliedValue = .ok next) :
    next.configDigest = configuration.configDigest ∧
      next.membership = configuration.membership := by
  simp only [transitionAfterApply] at h
  split at h
  · split at h
    · cases h
      exact ⟨rfl, rfl⟩
    · obtain ⟨mark, -, h⟩ := bind_ok_iff.mp h
      cases h
      exact ⟨rfl, rfl⟩
  · split at h
    all_goals
      cases h
      exact ⟨rfl, rfl⟩

theorem ConfigurationState.Made.digest_eq {configuration : ConfigurationState}
    (h : configuration.Made) {membership : Membership}
    (hMembership : configuration.membership = some membership) :
    configuration.configDigest = membership.digest := by
  induction h with
  | rootOpened configId => cases hMembership
  | initial configId membership => cases hMembership; rfl
  | transitionAfterApply h hApply ih =>
    obtain ⟨hDigest, hSame⟩ := transitionAfterApply_kept hApply
    rw [hDigest]
    exact ih (hSame.symm.trans hMembership)
  | installSuccessor hInstall =>
    have hSucceeds := RecorderView.installSuccessorFromProof_eq_ok hInstall
    rw [hSucceeds.installed_eq] at hMembership ⊢
    obtain rfl := Option.some.inj hMembership
    rfl
  | recoverActivation h hRecover ih =>
    obtain ⟨rfl, -⟩ | ⟨_, -, -, -, -, -, rfl, -⟩ :=
      RecorderView.recoverSuccessorActivation_eq_ok hRecover
    · exact ih hMembership
    · exact ih hMembership

structure Recorder.Made (r : Recorder) : Prop where
  configuration : r.configuration.Made
  nonzero : ∀ membership, r.configuration.membership = some membership → membership.digest ≠ .zero
  slots : ∀ slot state, r.slots slot = some state → state.Made

namespace Recorder.Made

variable {r : Recorder}

theorem new (recorderId : NodeId) (clusterId : ClusterId) (epoch configId : Nat)
    {membership : Membership} (hDigest : membership.digest ≠ .zero) :
    (Recorder.new recorderId clusterId epoch configId membership).Made := by
  refine ⟨.initial configId membership, ?_, ?_⟩
  · rintro _ ⟨⟩
    exact hDigest
  · rintro _ _ ⟨⟩

theorem load (h : r.Made) {slot : Nat} {configDigest : LogHash} {state : RecorderSlotState}
    (hLoad : r.load slot configDigest = .ok state) : state.Made := by
  obtain ⟨-, -, -, -, -, hStored | ⟨-, rfl⟩⟩ := Recorder.load_eq_ok hLoad
  · exact h.slots _ _ hStored
  · exact .newWithDigest _ _ _ _ _

theorem of_same {r' : Recorder} (h : r.Made) (hConfiguration : r'.configuration = r.configuration)
    (hSlots : r'.slots = r.slots) : r'.Made :=
  ⟨hConfiguration ▸ h.configuration, hConfiguration ▸ h.nonzero, hSlots ▸ h.slots⟩

theorem keepCommand (h : r.Made) (replaces : Bool) (hash : LogHash) (command : StoredCommand) :
    (r.keepCommand replaces hash command).Made :=
  h.of_same (Recorder.keepCommand_configuration ..) (Recorder.keepCommand_slots ..)

theorem stage (h : r.Made) (replaces : Bool) (staged : Option (LogHash × StoredCommand)) :
    (r.stage replaces staged).Made := by
  cases staged with
  | none => exact h
  | some entry => exact h.keepCommand replaces entry.1 entry.2

theorem apply (h : r.Made) (replaces : Bool) {t : Transition} (hState : t.state.Made)
    (hConfiguration : t.configuration.Made)
    (hMembership : t.configuration.membership = r.configuration.membership) :
    (r.apply replaces t).Made := by
  refine ⟨hConfiguration, fun membership hFound => h.nonzero membership ?_, ?_⟩
  · exact hMembership ▸ hFound
  · intro slot state hSlot
    rw [Recorder.apply_slots, Function.update_apply] at hSlot
    split at hSlot
    · exact Option.some.inj hSlot ▸ hState
    · exact h.slots slot state hSlot

theorem settle {α : Type} (h : r.Made) {staged done : Recorder} (hStaged : staged.Made)
    (hDone : done.Made) (conduct : Conduct) (reply : Result α) :
    (Recorder.settle conduct r staged done reply).1.Made := by
  obtain hEq | hEq | hEq := Recorder.settle_cases conduct r staged done reply
  all_goals rw [hEq]; assumption

theorem recordProposal (h : r.Made) {request : RecordRequest} {summary : RecordSummary}
    {t : Transition} (hRecord : r.view.recordProposal request = .ok (summary, some t)) :
    t.state.Made ∧ t.configuration.Made ∧
      t.configuration.membership = r.configuration.membership := by
  obtain ⟨⟨value, change⟩, -, hRecord⟩ := bind_ok_iff.mp hRecord
  obtain ⟨state, hLoad, hRecord⟩ := bind_ok_iff.mp hRecord
  refine ⟨.recordProposal (h.load hLoad) hRecord, ?_⟩
  cases hProof : state.decidedProof with
  | some proof =>
    simp only [RecorderView.recordInSlot, hProof] at hRecord
    cases hRecord
  | none =>
    simp only [RecorderView.recordInSlot, hProof] at hRecord
    obtain ⟨_, -, hRecord⟩ := bind_ok_iff.mp hRecord
    obtain ⟨configuration, hApply, hRecord⟩ := bind_ok_iff.mp hRecord
    obtain ⟨-, hSome⟩ := Prod.mk.inj (Except.ok.inj hRecord)
    obtain rfl := Option.some.inj hSome
    exact ⟨.transitionAfterApply h.configuration hApply, (transitionAfterApply_kept hApply).2⟩

theorem installDecisionProofRecord (h : r.Made) {proof : DecisionProof} {membership : Membership}
    {t : Transition}
    (hInstall : r.view.installDecisionProofRecord proof membership = .ok (some t)) :
    t.state.Made ∧ t.configuration.Made ∧
      t.configuration.membership = r.configuration.membership := by
  obtain ⟨value, hAdmit, hRest⟩ := bind_ok_iff.mp hInstall
  obtain ⟨state, hLoad, hRest⟩ := bind_ok_iff.mp hRest
  simp only [RecorderView.admitProof, unit_bind_ok_iff, ensure_eq_ok, decide_eq_true_eq] at hAdmit
  obtain ⟨-, ⟨-, -, hDigest, hMembership⟩, -, -⟩ := hAdmit
  have hNonzero : proof.configDigest ≠ .zero := by
    rw [hDigest, show r.view.configuration.configDigest = _ from
      h.configuration.digest_eq hMembership]
    exact h.nonzero membership hMembership
  refine ⟨.installDecisionProof (h.load hLoad) hLoad hNonzero hInstall, ?_⟩
  cases hProof : state.decidedProof with
  | some existing =>
    simp only [RecorderView.installInSlot, hProof] at hRest
    obtain ⟨-, -, hRest⟩ := bind_ok_iff.mp hRest
    cases hRest
  | none =>
    simp only [RecorderView.installInSlot, hProof] at hRest
    obtain ⟨_, -, hRest⟩ := bind_ok_iff.mp hRest
    obtain ⟨-, hRest⟩ := unit_bind_ok_iff.mp hRest
    obtain ⟨_, -, hRest⟩ := bind_ok_iff.mp hRest
    obtain ⟨_, -, hRest⟩ := bind_ok_iff.mp hRest
    obtain ⟨_, -, hRest⟩ := bind_ok_iff.mp hRest
    obtain ⟨configuration, hApply, hRest⟩ := bind_ok_iff.mp hRest
    obtain rfl := Option.some.inj (Except.ok.inj hRest)
    exact ⟨.transitionAfterApply h.configuration hApply, (transitionAfterApply_kept hApply).2⟩

theorem storeCommand (h : r.Made) (conduct : Conduct) (hash : LogHash) (command : StoredCommand) :
    (r.storeCommand conduct hash command).1.Made := by
  unfold Recorder.storeCommand
  split
  · exact h.settle h h conduct _
  · split
    · exact h.settle h h conduct _
    · exact h.settle h (h.keepCommand _ _ _) conduct _

theorem on (h : r.Made) (conduct : Conduct) (call : StoreCall)
    (hDigest : ∀ membership stopProof, call = .installSuccessor membership stopProof →
      membership.digest ≠ .zero) : (call.on r conduct).Made := by
  cases call with
  | storeCommand hash command => exact h.storeCommand conduct hash command
  | record request =>
    simp only [StoreCall.on, Recorder.record]
    split
    · exact h.settle h h conduct _
    · exact h.settle h h conduct _
    · rename_i summary t hRecord
      obtain ⟨hState, hConfiguration, hMembership⟩ := h.recordProposal hRecord
      exact h.settle (h.stage _ _) (h.apply _ hState hConfiguration hMembership) conduct _
  | installDecisionProof proof membership =>
    simp only [StoreCall.on, Recorder.installDecisionProof]
    split
    · exact h.settle h h conduct _
    · exact h.settle h h conduct _
    · rename_i t hInstall
      obtain ⟨hState, hConfiguration, hMembership⟩ := h.installDecisionProofRecord hInstall
      exact h.settle h (h.apply _ hState hConfiguration hMembership) conduct _
  | installSuccessor membership stopProof =>
    simp only [StoreCall.on, Recorder.installSuccessor]
    split
    · exact h.settle h h conduct _
    · rename_i installed stopCommand hInstall
      have hStored := h.storeCommand .good stopCommand.hash stopCommand
      have hInstalled := RecorderView.installSuccessorFromProof_eq_ok hInstall
      split
      · exact h.settle h h conduct _
      · rename_i staged hStaged
        rw [hStaged] at hStored
        refine h.settle hStored ?_ conduct _
        refine ⟨.installSuccessor hInstall, ?_, hStored.slots⟩
        intro found hFound
        change installed.membership = some found at hFound
        rw [hInstalled.installed_eq] at hFound
        obtain rfl := Option.some.inj hFound
        exact hDigest membership stopProof rfl
  | recoverActivation stopSlot prefixHash recoveredTip recoveredHash =>
    simp only [StoreCall.on, Recorder.recoverActivation]
    split
    · exact h.settle h h conduct _
    · rename_i configuration head hRecover
      refine h.settle h ?_ conduct _
      refine ⟨.recoverActivation (v := r.view) h.configuration hRecover, ?_, h.slots⟩
      obtain ⟨rfl, -⟩ | ⟨_, -, -, -, -, -, rfl, -⟩ :=
        RecorderView.recoverSuccessorActivation_eq_ok hRecover
      · exact h.nonzero
      · exact h.nonzero
  | inspect slot => exact h
  | observe request => exact h

end Recorder.Made

theorem made_run {K : StoredCommand → Prop} {G : Faults Site} {s₀ s : FileRecorder}
    (hBegins : Begins K s₀) (hRun : StoreRun K G s₀ s) : s.recorder.Made := by
  induction hRun with
  | refl =>
    obtain ⟨node, configId, membership, rfl, -, hNonzero⟩ := hBegins.fresh
    exact (Recorder.Made.new node.recorderId node.clusterId node.epoch configId hNonzero).of_same
      rfl rfl
  | @step s s' a hRun hAdmits hStep ih =>
    obtain rfl := Option.some.inj hStep
    have hSteady := hBegins.steady hRun
    cases a with
    | call fault call =>
      obtain ⟨conduct, hOn, -⟩ := (hSteady.serve hAdmits).lands
      change (s.serve fault call).1.recorder.Made
      rw [hOn]
      exact ih.on conduct call hAdmits.nonzero
    | reopen fault existingOnly configId membership =>
      change (s.reopen fault existingOnly configId membership).recorder.Made
      rw [(hSteady.reopen hBegins.fits fault existingOnly configId membership).2.1]
      exact ih

inductive WalCheckpoint.Made : WalCheckpoint → Prop
  | default : Made .default
  | next {wal : RecorderWal} (h : Made wal.checkpoint) : Made wal.nextCheckpoint

omit [Sha256] in
theorem WalCheckpoint.Made.generation_ne_zero {checkpoint : WalCheckpoint}
    (h : checkpoint.Made) : checkpoint.generation ≠ 0 := by
  cases h with
  | default => exact Nat.one_ne_zero
  | next h => exact Nat.succ_ne_zero _

/-! The store keeps frames, heads and intents by what they say; the bytes that stand for
them are these. -/

theorem encodeWalFrame_bytes {generation sequence : Nat} {prevDigest : LogHash}
    {state : RecorderSlotState} {configuration : ConfigurationState} {head : RecordedHeadProvenance}
    {command : Option (LogHash × StoredCommand)} {frame : WalFrame}
    (h : encodeWalFrame generation sequence prevDigest state configuration head command =
      .ok frame) :
    ∃ bytes slotBytes, Wire.encodeWalFrame generation sequence prevDigest state configuration head
      command = .ok (bytes, frame.digest, slotBytes) ∧ bytes.length = frame.size := by
  obtain ⟨slotBytes, hState, h⟩ := bind_ok_iff.mp h
  obtain ⟨configurationBytes, hConfiguration, h⟩ := bind_ok_iff.mp h
  obtain rfl := Except.ok.inj h
  have hLength : ∀ size payload, (withDigest (utf8 "QWAL" ++ toBeBytes 2 1 ++ toBeBytes 8 size ++
      payload)).length = 4 + 2 + 8 + payload.length + 32 := by
    intro size payload
    have hMagic : (utf8 "QWAL").length = 4 := by decide
    simp only [withDigest, List.length_append, toBeBytes_length, hMagic, LogHash.size]
  cases command with
  | none =>
    exact ⟨_, slotBytes, bind_ok_iff.mpr ⟨_, hState, bind_ok_iff.mpr ⟨_, hConfiguration, rfl⟩⟩,
      hLength _ _⟩
  | some entry =>
    exact ⟨_, slotBytes, bind_ok_iff.mpr ⟨_, hState, bind_ok_iff.mpr ⟨_, hConfiguration, rfl⟩⟩,
      hLength _ _⟩

/-- A frame of the store reads back from its bytes, wherever they stand in the file. -/
theorem walFrame_reads_back {generation sequence : Nat} {prevDigest : LogHash}
    {state : RecorderSlotState} {configuration : ConfigurationState} {head : RecordedHeadProvenance}
    {command : Option (LogHash × StoredCommand)} {frame : WalFrame}
    (hFits : Wire.FrameFits generation sequence state head)
    (h : encodeWalFrame generation sequence prevDigest state configuration head command =
      .ok frame) (hSize : frame.size < 2 ^ 64) (before after : Bytes) :
    ∃ bytes slotBytes configurationBytes, bytes.length = frame.size ∧
      encodeRecorderState frame.state = .ok slotBytes ∧
      encodeConfigurationState frame.configuration = .ok configurationBytes ∧
      Wire.decodeWalFrame (before ++ (bytes ++ after)) before.length =
        .ok (some (⟨frame.generation, frame.sequence, frame.prevDigest, frame.digest, frame.slot,
          slotBytes, configurationBytes, frame.head, frame.command⟩,
          before.length + frame.size)) := by
  obtain ⟨bytes, slotBytes, hBytes, hLength⟩ := encodeWalFrame_bytes h
  obtain ⟨configurationBytes, hState, hConfiguration, hDecode⟩ :=
    Wire.decodeWalFrame_encode hFits hBytes (hLength ▸ hSize) before after
  obtain ⟨digest, size, -, rfl⟩ := encodeWalFrame_eq_ok h
  rw [hLength] at hDecode
  exact ⟨bytes, slotBytes, configurationBytes, hLength, hState, hConfiguration, hDecode⟩

theorem recordedHead_reads_back {clusterId : ClusterId} {epoch : Nat}
    {configuration : ConfigurationState} {provenance : RecordedHeadProvenance}
    {checkpoint : WalCheckpoint} {head : RecordedHead}
    (hFits : (⟨clusterId, epoch, configuration, provenance, [], checkpoint⟩ : Wire.HeadRecord).Fits)
    (hGeneration : checkpoint.generation ≠ 0)
    (h : encodeRecordedHead clusterId epoch configuration provenance checkpoint = .ok head) :
    ∃ bytes, Wire.decodeRecordedHead bytes head.clusterId head.epoch configuration =
      .ok (head.provenance, [], head.checkpoint) := by
  obtain ⟨bytes, hBytes⟩ : ∃ bytes, Wire.encodeRecordedHead clusterId epoch configuration
      provenance [] checkpoint = .ok bytes := by
    obtain ⟨name, hName, -⟩ := bind_ok_iff.mp h
    exact ⟨_, bind_ok_iff.mpr ⟨(), ensure_of (Nat.zero_le 2), bind_ok_iff.mpr ⟨name, hName, rfl⟩⟩⟩
  obtain rfl := encodeRecordedHead_eq_ok h
  have hEncoded : (⟨clusterId, epoch, configuration, provenance, [], checkpoint⟩ :
      Wire.HeadRecord).encode = .ok bytes := hBytes
  have hDecoded := Wire.decodeRecordedHead_encode hFits hGeneration (by simp) hEncoded
  exact ⟨bytes, hDecoded⟩

theorem transitionIntent_reads_back {state : RecorderSlotState}
    {configuration : ConfigurationState} {intent : TransitionIntent} (hSlot : state.slot < 2 ^ 64)
    (h : encodeTransitionIntent state configuration = .ok intent) :
    ∃ slotBytes configurationBytes bytes, encodeRecorderState intent.state = .ok slotBytes ∧
      encodeConfigurationState intent.configuration = .ok configurationBytes ∧
      Wire.decodeTransitionIntent bytes = .ok (intent.slot, slotBytes, configurationBytes) := by
  obtain rfl := encodeTransitionIntent_eq_ok h
  obtain ⟨slotBytes, hState, h⟩ := bind_ok_iff.mp h
  obtain ⟨statePart, hStatePart, h⟩ := bind_ok_iff.mp h
  obtain ⟨configurationBytes, hConfiguration, h⟩ := bind_ok_iff.mp h
  obtain ⟨configurationPart, hConfigurationPart, -⟩ := bind_ok_iff.mp h
  obtain ⟨bytes, hBytes⟩ : ∃ bytes, Wire.encodeTransitionIntent state.slot slotBytes
      configurationBytes = .ok bytes :=
    ⟨_, bind_ok_iff.mpr ⟨_, hStatePart, bind_ok_iff.mpr ⟨_, hConfigurationPart, rfl⟩⟩⟩
  exact ⟨slotBytes, configurationBytes, bytes, hState, hConfiguration,
    Wire.decodeTransitionIntent_encode hSlot hBytes⟩

namespace Wire

/-- The head that a recorder writes in this configuration. Its callers give
`encode_recorded_head` no snapshots at all. -/
structure HeadRecord.Reachable (head : HeadRecord) : Prop where
  fits : head.Fits
  checkpoint : head.checkpoint.Made
  snapshots : (head.recentSlots.map (·.slot)).Nodup

/-- What `encode_wal_frame` is given. -/
structure FrameRecord where
  generation : Nat
  sequence : Nat
  prevDigest : LogHash
  state : RecorderSlotState
  configuration : ConfigurationState
  head : RecordedHeadProvenance
  command : Option (LogHash × StoredCommand)
  deriving DecidableEq

def FrameRecord.encode (frame : FrameRecord) : Result (Bytes × LogHash × Bytes) :=
  encodeWalFrame frame.generation frame.sequence frame.prevDigest frame.state frame.configuration
    frame.head frame.command

/-- The last condition is the overflow check of `encode_wal_frame`. -/
structure FrameRecord.Reachable (frame : FrameRecord) : Prop where
  fits : FrameFits frame.generation frame.sequence frame.state frame.head
  state : frame.state.Made
  configuration : frame.configuration.Made
  configurationFits : frame.configuration.Fits
  size : ∀ written, frame.encode = .ok written → written.1.length < 2 ^ 64

def FrameRecord.ReadsAs (frame : FrameRecord) (bytes slotBytes : Bytes) (digest : LogHash) : Prop :=
  ∃ configurationBytes, decodeRecorderState slotBytes = .ok frame.state ∧
    decodeConfigurationState configurationBytes = .ok frame.configuration ∧
    ∀ before after, decodeWalFrame (before ++ (bytes ++ after)) before.length =
      .ok (some (⟨frame.generation, frame.sequence, frame.prevDigest, digest, frame.state.slot,
        slotBytes, configurationBytes, frame.head, frame.command⟩, before.length + bytes.length))

theorem lossless_states : Lossless (fun state : RecorderSlotState => state.Made ∧ state.Fits)
    encodeRecorderState decodeRecorderState :=
  .of_accepts fun _ _ h hEncode => decodeRecorderState_encode h.2 h.1.consistent.coherent hEncode

theorem lossless_configurations :
    Lossless (fun configuration : ConfigurationState => configuration.Made ∧ configuration.Fits)
      encodeConfigurationState decodeConfigurationState :=
  .of_accepts fun _ _ h hEncode =>
    decodeConfigurationState_encode h.2 (fun _ => h.1.digest_eq) hEncode

theorem frame_reads {frame : FrameRecord} {bytes slotBytes : Bytes} {digest : LogHash}
    (h : frame.Reachable) (hEncode : frame.encode = .ok (bytes, digest, slotBytes)) :
    frame.ReadsAs bytes slotBytes digest := by
  have hSize := h.size _ hEncode
  obtain ⟨configurationBytes, hState, hConfiguration, -⟩ :=
    decodeWalFrame_encode h.fits hEncode hSize [] []
  refine ⟨configurationBytes, ?_, ?_, fun before after => ?_⟩
  · exact lossless_states.accepts _ _ ⟨h.state, h.fits.state⟩ hState
  · exact lossless_configurations.accepts _ _ ⟨h.configuration, h.configurationFits⟩ hConfiguration
  · obtain ⟨configurationBytes', -, hConfiguration', hDecode⟩ :=
      decodeWalFrame_encode h.fits hEncode hSize before after
    obtain rfl := Except.ok.inj (hConfiguration.symm.trans hConfiguration')
    exact hDecode

theorem frame_of_bytes {a b : FrameRecord} {bytes slotBytes slotBytes' : Bytes}
    {digest digest' : LogHash} (ha : a.Reachable) (hb : b.Reachable)
    (hEncode : a.encode = .ok (bytes, digest, slotBytes))
    (hEncode' : b.encode = .ok (bytes, digest', slotBytes')) : a = b := by
  obtain ⟨configurationBytes, hState, hConfiguration, hRead⟩ := frame_reads ha hEncode
  obtain ⟨configurationBytes', hState', hConfiguration', hRead'⟩ := frame_reads hb hEncode'
  have hSame := Option.some.inj (Except.ok.inj ((hRead [] []).symm.trans (hRead' [] [])))
  simp only [Prod.mk.injEq, Frame.mk.injEq, and_true] at hSame
  obtain ⟨hGeneration, hSequence, hPrev, -, -, rfl, rfl, hHead, hCommand⟩ := hSame
  have hStates := Except.ok.inj (hState.symm.trans hState')
  have hConfigurations := Except.ok.inj (hConfiguration.symm.trans hConfiguration')
  cases a
  cases b
  simp_all

end Wire

open Wire in
/-- The formats of the recorder lose nothing: whatever can be reached and is encoded is
accepted by its decoder, which gives it back. -/
theorem persistence_formats_lossless :
    Lossless (fun state : RecorderSlotState => state.Made ∧ state.Fits)
      encodeRecorderState decodeRecorderState ∧
    Lossless (fun configuration : ConfigurationState => configuration.Made ∧ configuration.Fits)
      encodeConfigurationState decodeConfigurationState ∧
    (∀ (head : HeadRecord) (bytes : Bytes), head.Reachable → head.encode = .ok bytes →
      head.decode bytes = .ok (head.provenance, head.recentSlots, head.checkpoint)) ∧
    (∀ (a b : HeadRecord) (bytes : Bytes), a.Reachable → b.Reachable → a.encode = .ok bytes →
      b.encode = .ok bytes → a.identity = b.identity ∧ a.provenance = b.provenance ∧
        a.recentSlots = b.recentSlots ∧ a.checkpoint = b.checkpoint) ∧
    Lossless (fun intent : Nat × Bytes × Bytes => intent.1 < 2 ^ 64)
      (fun intent => Wire.encodeTransitionIntent intent.1 intent.2.1 intent.2.2)
      decodeTransitionIntent ∧
    Lossless (fun intent : Bytes × Bytes =>
        (encodeConfigurationHeadIntent intent.1 intent.2).length < 2 ^ 64)
      (fun intent => .ok (encodeConfigurationHeadIntent intent.1 intent.2))
      decodeConfigurationHeadIntent ∧
    Lossless (fun command : StoredCommand => command.payload.length < 2 ^ 64)
      (fun command => .ok (encodeStoredCommand command)) decodeStoredCommand ∧
    (∀ (frame : FrameRecord) (bytes slotBytes : Bytes) (digest : LogHash), frame.Reachable →
      frame.encode = .ok (bytes, digest, slotBytes) → frame.ReadsAs bytes slotBytes digest) ∧
    ∀ (a b : FrameRecord) (bytes slotBytes slotBytes' : Bytes) (digest digest' : LogHash),
      a.Reachable → b.Reachable → a.encode = .ok (bytes, digest, slotBytes) →
        b.encode = .ok (bytes, digest', slotBytes') → a = b := by
  refine ⟨lossless_states, lossless_configurations, ?_, ?_, ?_, ?_, ?_, ?_, ?_⟩
  · intro head bytes h hEncode
    exact decodeRecordedHead_encode h.fits h.checkpoint.generation_ne_zero h.snapshots hEncode
  · intro a b bytes ha hb hEncode hEncode'
    have hIdentity := identity_of_encode ha.fits hb.fits hEncode hEncode'
    have hDecode := decodeRecordedHead_encode ha.fits ha.checkpoint.generation_ne_zero ha.snapshots
      hEncode
    have hDecode' := decodeRecordedHead_encode hb.fits hb.checkpoint.generation_ne_zero
      hb.snapshots hEncode'
    rw [decode_of_identity hIdentity, hDecode'] at hDecode
    obtain ⟨hProvenance, hSnapshots, hCheckpoint⟩ := by
      simpa only [Except.ok.injEq, Prod.mk.injEq] using hDecode
    exact ⟨hIdentity, hProvenance.symm, hSnapshots.symm, hCheckpoint.symm⟩
  · exact .of_accepts fun _ _ h hEncode => decodeTransitionIntent_encode h hEncode
  · refine .of_accepts fun intent bytes h hEncode => ?_
    obtain rfl := Except.ok.inj hEncode
    exact decodeConfigurationHeadIntent_encode h
  · refine .of_accepts fun command bytes h hEncode => ?_
    obtain rfl := Except.ok.inj hEncode
    exact decodeStoredCommand_encode h
  · exact fun frame bytes slotBytes digest => frame_reads
  · exact fun a b bytes slotBytes slotBytes' digest digest' => frame_of_bytes

end Made

namespace Solo

open scoped Trio

def informed : Recorder :=
  ((Recorder.new "a" "trio" 1 1 membership).storeCommand .good (stopCommand 1).hash
    (stopCommand 1)).1

def certificate : DecisionCertificate :=
  ⟨1, 1, 1, membership.digest, ⟨1, ProposalPriority.max.legacyU128,
    encodeCertificateProposer "trio" "a"⟩, stopValue, ["a", "b"]⟩

def stopSlot : RecorderSlotState :=
  { RecorderSlotState.newWithDigest 1 "trio" 1 1 membership.digest with
    decided := some certificate
    decidedProof := some stopProof }

theorem stopSlot_made : stopSlot.Made := by
  have hInstall : (informed.view.installDecisionProofRecord stopProof membership).map
      (·.map (·.state)) = .ok (some stopSlot) := by decide +kernel
  cases hResult : informed.view.installDecisionProofRecord stopProof membership with
  | error error => simp [hResult, Except.map] at hInstall
  | ok found =>
    cases found with
    | none => simp [hResult, Except.map] at hInstall
    | some t =>
      simp only [hResult, Except.map, Option.map_some, Except.ok.injEq, Option.some.injEq]
        at hInstall
      rw [← hInstall]
      exact .installDecisionProof (.newWithDigest 1 "trio" 1 1 membership.digest)
        (by decide +kernel) (by decide +kernel) hResult

theorem stopSlot_fits : stopSlot.Fits := by
  have hProposal : ∀ proposal, some stopProof.proposal = some proposal → proposal.Fits := by
    rintro _ ⟨⟩
    exact (by decide : 1 < 2 ^ 64)
  refine ⟨by decide, by decide, by decide, ?_, ?_, ?_, by decide, ?_, ?_, ?_, ?_⟩
  · rintro _ ⟨⟩
  · rintro _ ⟨⟩
  · rintro _ ⟨⟩
    exact ⟨by decide, by decide, by decide, (by decide : 1 < 2 ^ 64), by decide +kernel⟩
  · rintro _ ⟨⟩
  · rintro _ ⟨⟩
  · rintro _ ⟨⟩
  · rintro _ ⟨⟩
    refine ⟨by decide, by decide, by decide, by decide, hProposal _ rfl, fun summary hSummary => ?_⟩
    rcases List.mem_cons.mp hSummary with rfl | hSummary
    · exact ⟨by decide, by decide, hProposal, fun _ h => by cases h⟩
    · obtain rfl := List.mem_singleton.mp hSummary
      exact ⟨by decide, by decide, hProposal, fun _ h => by cases h⟩

def stopFrame : Wire.FrameRecord :=
  ⟨1, 1, .zero, stopSlot, .initial 1 membership.digest (some membership), .slotBacked 1,
    some ((stopCommand 1).hash, stopCommand 1)⟩

theorem stopFrame_reachable : stopFrame.Reachable := by
  have hSize : (stopFrame.encode.toOption.all (·.1.length < 2 ^ 64)) := by decide +kernel
  refine ⟨⟨by decide, by decide, stopSlot_fits, (by decide : 1 < 2 ^ 64)⟩, stopSlot_made,
    .initial 1 membership, ⟨by decide, ?_, ?_, ?_⟩, ?_⟩
  · rintro _ ⟨⟩
  · rintro _ ⟨⟩
  · rintro _ ⟨⟩
  · intro written hWritten
    rw [hWritten] at hSize
    simpa [Except.toOption] using hSize

/-- A decided slot, with its certificate and its proof, and the frame that brings it and the
command are encoded and read back. -/
theorem stop_is_read_back :
    (∃ bytes, encodeRecorderState stopSlot = .ok bytes ∧
      Wire.decodeRecorderState bytes = .ok stopSlot) ∧
    ∃ bytes digest slotBytes, stopFrame.encode = .ok (bytes, digest, slotBytes) ∧
      stopFrame.ReadsAs bytes slotBytes digest := by
  have hSlot : (encodeRecorderState stopSlot).isOk := by decide +kernel
  have hFrame : stopFrame.encode.isOk := by decide +kernel
  obtain ⟨hStates, -, -, -, -, -, -, hFrames, -⟩ := persistence_formats_lossless
  constructor
  · cases hBytes : encodeRecorderState stopSlot with
    | error error =>
      rw [hBytes] at hSlot
      cases hSlot
    | ok bytes => exact ⟨bytes, rfl, hStates.accepts _ _ ⟨stopSlot_made, stopSlot_fits⟩ hBytes⟩
  · cases hWritten : stopFrame.encode with
    | error error =>
      rw [hWritten] at hFrame
      cases hFrame
    | ok written =>
      obtain ⟨bytes, digest, slotBytes⟩ := written
      exact ⟨bytes, digest, slotBytes, rfl, hFrames _ _ _ _ stopFrame_reachable hWritten⟩

end Solo

end Rhiza.Quepaxa
