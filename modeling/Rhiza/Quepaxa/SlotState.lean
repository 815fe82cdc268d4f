import Rhiza.Quepaxa.DecisionProof

/-! # Slot states and the recorder interface

`RecorderRpc` is the trait of the same name with the recorder's state passed
explicitly. A fault says what goes wrong during one call and an event is
anything that happens to a recorder outside the calls of the trait; both belong
to the implementation. `LawfulRecorder` is all that agreement needs to know about
an implementation.
-/

namespace Rhiza.Quepaxa

open Core Library

structure Context where
  configId : Nat
  configDigest : LogHash
  slot : Nat
  deriving DecidableEq

def RecordRequest.context (request : RecordRequest) : Context :=
  ⟨request.configId, request.configDigest, request.slot⟩

def RecordSummary.context (summary : RecordSummary) : Context :=
  ⟨summary.configId, summary.configDigest, summary.slot⟩

structure RecorderSlotState where
  slot : Nat
  clusterId : ClusterId
  epoch : Nat
  configId : Nat
  configDigest : LogHash
  highestPromised : Option Ballot
  accepted : Option AcceptedSummary
  decided : Option DecisionCertificate
  isr : IsrState
  decidedProof : Option DecisionProof
  deriving DecidableEq

namespace RecorderSlotState

def newWithDigest (slot : Nat) (clusterId : ClusterId) (epoch configId : Nat)
    (configDigest : LogHash) : RecorderSlotState :=
  ⟨slot, clusterId, epoch, configId, configDigest, none, none, none, .empty, none⟩

def context (state : RecorderSlotState) : Context :=
  ⟨state.configId, state.configDigest, state.slot⟩

def validate (state : RecorderSlotState) (clusterId : ClusterId) (epoch configId : Nat)
    (configDigest : LogHash) (slot : Nat) : Except RejectReason Unit :=
  if clusterId ≠ state.clusterId then .error .wrongCluster
  else if slot ≠ state.slot then .error .wrongSlot
  else if epoch < state.epoch then .error .staleEpoch
  else if epoch > state.epoch then .error .futureEpoch
  else if configId ≠ state.configId then .error .wrongConfig
  else if configDigest ≠ state.configDigest then .error .wrongConfig
  else .ok ()

def record (state : RecorderSlotState) (request : RecordRequest) :
    Except RejectReason (RecorderSlotState × IsrReply) :=
  match state.validate request.clusterId request.epoch request.configId request.configDigest
      request.slot with
  | .error reason => .error reason
  | .ok () =>
    let (isr, reply) := state.isr.record request.step request.proposal
    .ok ({ state with isr := isr }, reply)

def installProof (state : RecorderSlotState) (proof : DecisionProof) :
    Except RejectReason RecorderSlotState :=
  match state.decidedProof with
  | some existing =>
    if existing.proposal.value ≠ proof.proposal.value then .error .alreadyDecided else .ok state
  | none => .ok { state with decidedProof := some proof }

theorem validate_eq_ok {state : RecorderSlotState} {clusterId : ClusterId} {epoch configId : Nat}
    {configDigest : LogHash} {slot : Nat}
    (h : state.validate clusterId epoch configId configDigest slot = .ok ()) :
    clusterId = state.clusterId ∧ slot = state.slot ∧ epoch = state.epoch ∧
      configId = state.configId ∧ configDigest = state.configDigest := by
  unfold validate at h
  split at h
  · cases h
  split at h
  · cases h
  split at h
  · cases h
  split at h
  · cases h
  split at h
  · cases h
  split at h
  · cases h
  · rename_i hCluster hSlot hStale hFuture hConfig hDigest
    push Not at hCluster hSlot hConfig hDigest
    exact ⟨hCluster, hSlot, by omega, hConfig, hDigest⟩

theorem record_eq_ok {state next : RecorderSlotState} {request : RecordRequest} {reply : IsrReply}
    (h : state.record request = .ok (next, reply)) :
    request.context = state.context ∧ request.clusterId = state.clusterId ∧
      request.epoch = state.epoch ∧
      next = { state with isr := state.isr.next request.step request.proposal } := by
  unfold record at h
  split at h
  · cases h
  · rename_i hValid
    obtain ⟨hCluster, hSlot, hEpoch, hConfig, hDigest⟩ := validate_eq_ok hValid
    cases h
    exact ⟨by simp [RecordRequest.context, context, hSlot, hConfig, hDigest], hCluster, hEpoch, rfl⟩

end RecorderSlotState

def recordSummary (recorderId : NodeId) (state : RecorderSlotState)
    (decided : Option DecisionProof) : RecordSummary where
  recorderId := recorderId
  slot := state.slot
  configId := state.configId
  configDigest := state.configDigest
  step := state.isr.step
  firstCurrent := state.isr.firstCurrent
  aggregatePrior := state.isr.aggregatePrior
  decided := decided

structure ReadFenceRequest where
  clusterId : ClusterId
  epoch : Nat
  configId : Nat
  configDigest : LogHash
  slot : Nat
  deriving DecidableEq

inductive ReadFenceSlotState
  | empty
  | occupied (summary : Option RecordSummary)
  deriving DecidableEq

structure ReadFenceObservation where
  recorderId : NodeId
  clusterId : ClusterId
  epoch : Nat
  configId : Nat
  configDigest : LogHash
  slot : Nat
  maxHead : Option Nat
  slotState : ReadFenceSlotState
  deriving DecidableEq

class RecorderRpc (R : Type) (Fault Event : outParam Type) where
  record : R → Fault → RecordRequest → R × Result RecordSummary
  installDecisionProof : R → Fault → DecisionProof → Membership → R × Result Unit
  inspectRecordSummary : R → Fault → Nat → R × Result (Option RecordSummary)
  supportsContextReadFence : R → Bool
  observeReadFence : R → Fault → ReadFenceRequest → R × Result ReadFenceObservation
  occur : R → Event → R
  register : R → Context → IsrState
  holds : R → DecisionProof → Prop

def RecordSummary.Shows (summary : RecordSummary) (isr : IsrState) : Prop :=
  summary.step = isr.step ∧ summary.firstCurrent = isr.firstCurrent ∧
    summary.aggregatePrior = isr.aggregatePrior

theorem recordSummary_shows (recorderId : NodeId) (state : RecorderSlotState)
    (decided : Option DecisionProof) : (recordSummary recorderId state decided).Shows state.isr :=
  ⟨rfl, rfl, rfl⟩

open RecorderRpc in
/-- Registers change only through `record`, one request at a time, every answer
shows the register, and an undecided answer means that the request was recorded.
A decided answer carries a proof that was installed. -/
class LawfulRecorder (R : Type) (Fault Event : outParam Type) [RecorderRpc R Fault Event] :
    Prop where
  record_register : ∀ (r : R) (fault : Fault) (request : RecordRequest) (context : Context),
    register (record r fault request).1 context = register r context ∨
      context = request.context ∧ register (record r fault request).1 context =
        (register r context).next request.step request.proposal
  record_reply : ∀ (r : R) (fault : Fault) (request : RecordRequest) (summary : RecordSummary),
    (record r fault request).2 = .ok summary →
      summary.Shows (register (record r fault request).1 summary.context)
  record_undecided : ∀ (r : R) (fault : Fault) (request : RecordRequest) (summary : RecordSummary),
    (record r fault request).2 = .ok summary → summary.decided = none →
      register (record r fault request).1 request.context =
        (register r request.context).next request.step request.proposal
  install_register : ∀ (r : R) (fault : Fault) (proof : DecisionProof) (membership : Membership),
    register (installDecisionProof r fault proof membership).1 = register r
  inspect_register : ∀ (r : R) (fault : Fault) (slot : Nat),
    register (inspectRecordSummary r fault slot).1 = register r
  inspect_reply : ∀ (r : R) (fault : Fault) (slot : Nat) (summary : RecordSummary),
    (inspectRecordSummary r fault slot).2 = .ok (some summary) →
      summary.Shows (register (inspectRecordSummary r fault slot).1 summary.context)
  observe_register : ∀ (r : R) (fault : Fault) (request : ReadFenceRequest),
    register (observeReadFence r fault request).1 = register r
  occur_register : ∀ (r : R) (event : Event), register (occur r event) = register r
  record_decided : ∀ (r : R) (fault : Fault) (request : RecordRequest) (summary : RecordSummary)
    (proof : DecisionProof), (record r fault request).2 = .ok summary →
      summary.decided = some proof → holds r proof
  record_holds : ∀ (r : R) (fault : Fault) (request : RecordRequest) (proof : DecisionProof),
    holds (record r fault request).1 proof → holds r proof
  install_holds : ∀ (r : R) (fault : Fault) (installed proof : DecisionProof)
    (membership : Membership), holds (installDecisionProof r fault installed membership).1 proof →
      holds r proof ∨ proof = installed
  inspect_holds : ∀ (r : R) (fault : Fault) (slot : Nat) (proof : DecisionProof),
    holds (inspectRecordSummary r fault slot).1 proof → holds r proof
  observe_holds : ∀ (r : R) (fault : Fault) (request : ReadFenceRequest) (proof : DecisionProof),
    holds (observeReadFence r fault request).1 proof → holds r proof
  occur_holds : ∀ (r : R) (event : Event) (proof : DecisionProof),
    holds (occur r event) proof → holds r proof

section Accepts

variable {R Fault Event : Type} [RecorderRpc R Fault Event]

open RecorderRpc in
def Accepts (r : R) (fault : Fault) (request : RecordRequest) : Prop :=
  register (record r fault request).1 request.context ≠ register r request.context ∨
    ∃ summary, (record r fault request).2 = .ok summary ∧ summary.decided = none

theorem register_of_accepts [LawfulRecorder R Fault Event] {r : R} {fault : Fault}
    {request : RecordRequest} (h : Accepts r fault request) :
    RecorderRpc.register (RecorderRpc.record r fault request).1 request.context =
      (RecorderRpc.register r request.context).next request.step request.proposal := by
  rcases h with hChanged | ⟨summary, hReply, hUndecided⟩
  · exact ((LawfulRecorder.record_register r fault request request.context).resolve_left
      hChanged).2
  · exact LawfulRecorder.record_undecided r fault request summary hReply hUndecided

theorem register_of_not_accepts {r : R} {fault : Fault} {request : RecordRequest}
    (h : ¬ Accepts r fault request) :
    RecorderRpc.register (RecorderRpc.record r fault request).1 request.context =
      RecorderRpc.register r request.context := by
  by_contra hChanged
  exact h (.inl hChanged)

end Accepts

/-- A recorder of one configuration that records every request atomically and
answers with the installed proof once there is one. It has none of the gates of
the durable recorder. -/
structure IsrRecorder where
  recorderId : NodeId
  configId : Nat
  configDigest : LogHash
  isr : Nat → IsrState
  proofs : Nat → Option DecisionProof

namespace IsrRecorder

def new (recorderId : NodeId) (configId : Nat) (configDigest : LogHash) : IsrRecorder :=
  ⟨recorderId, configId, configDigest, fun _ => .empty, fun _ => none⟩

def summary (r : IsrRecorder) (slot : Nat) : RecordSummary where
  recorderId := r.recorderId
  slot := slot
  configId := r.configId
  configDigest := r.configDigest
  step := (r.isr slot).step
  firstCurrent := (r.isr slot).firstCurrent
  aggregatePrior := (r.isr slot).aggregatePrior
  decided := r.proofs slot

def record (r : IsrRecorder) (request : RecordRequest) : IsrRecorder × Result RecordSummary :=
  if request.configId ≠ r.configId ∨ request.configDigest ≠ r.configDigest then
    (r, .error (.rejected .wrongConfig))
  else
    match r.proofs request.slot with
    | some _ => (r, .ok (r.summary request.slot))
    | none =>
      let isr := (r.isr request.slot).next request.step request.proposal
      let next := { r with isr := Function.update r.isr request.slot isr }
      (next, .ok (next.summary request.slot))

def installDecisionProof (r : IsrRecorder) (proof : DecisionProof) : IsrRecorder × Result Unit :=
  match r.proofs proof.slot with
  | some existing =>
    if existing.proposal.value ≠ proof.proposal.value then (r, .error (.rejected .alreadyDecided))
    else (r, .ok ())
  | none => ({ r with proofs := Function.update r.proofs proof.slot (some proof) }, .ok ())

def register (r : IsrRecorder) (context : Context) : IsrState :=
  if context.configId = r.configId ∧ context.configDigest = r.configDigest then
    r.isr context.slot
  else .empty

instance : RecorderRpc IsrRecorder Unit Empty where
  record r _ request := r.record request
  installDecisionProof r _ proof _ := r.installDecisionProof proof
  inspectRecordSummary r _ slot :=
    (r, .ok (if r.isr slot = .empty ∧ r.proofs slot = none then none else some (r.summary slot)))
  supportsContextReadFence _ := false
  observeReadFence r _ _ := (r, .error .readFenceUnsupported)
  occur r _ := r
  register := register
  holds r proof := ∃ slot, r.proofs slot = some proof

theorem record_of_config {r : IsrRecorder} {request : RecordRequest}
    (h : request.configId = r.configId ∧ request.configDigest = r.configDigest)
    (hProof : r.proofs request.slot = none) :
    r.record request =
      let isr := (r.isr request.slot).next request.step request.proposal
      let next := { r with isr := Function.update r.isr request.slot isr }
      (next, .ok (next.summary request.slot)) := by
  unfold record
  rw [if_neg (by simp [h]), hProof]

theorem summary_shows (r : IsrRecorder) (slot : Nat) :
    (r.summary slot).Shows (r.register (r.summary slot).context) := by
  simp [RecordSummary.Shows, RecordSummary.context, register, summary]

instance : LawfulRecorder IsrRecorder Unit Empty where
  record_register r _ request context := by
    change (r.record request).1.register context = r.register context ∨
      context = request.context ∧ (r.record request).1.register context =
        (r.register context).next request.step request.proposal
    by_cases hConfig : request.configId = r.configId ∧ request.configDigest = r.configDigest
    · cases hProof : r.proofs request.slot with
      | some proof =>
        left
        simp [record, hConfig, hProof]
      | none =>
        rw [record_of_config hConfig hProof]
        by_cases hContext : context = request.context
        · right
          refine ⟨hContext, ?_⟩
          simp [register, hContext, RecordRequest.context, hConfig]
        · left
          unfold register
          split
          · rename_i hOwn
            have hSlot : context.slot ≠ request.slot := by
              rintro hSlot
              apply hContext
              cases context
              simp_all [RecordRequest.context]
            exact Function.update_of_ne hSlot _ _
          · rfl
    · left
      simp [record, not_and_or.mp hConfig]
  record_reply r _ request summary h := by
    change (r.record request).2 = .ok summary at h
    change summary.Shows ((r.record request).1.register summary.context)
    by_cases hConfig : request.configId = r.configId ∧ request.configDigest = r.configDigest
    · cases hProof : r.proofs request.slot with
      | some proof =>
        obtain rfl : r.summary request.slot = summary := by
          simpa [record, hConfig, hProof] using h
        rw [show (r.record request).1 = r by simp [record, hConfig, hProof]]
        exact r.summary_shows request.slot
      | none =>
        rw [record_of_config hConfig hProof] at h ⊢
        obtain rfl := Except.ok.inj h
        exact summary_shows _ request.slot
    · simp [record, not_and_or.mp hConfig] at h
  record_undecided r _ request summary h hDecided := by
    change (r.record request).2 = .ok summary at h
    change (r.record request).1.register request.context =
      (r.register request.context).next request.step request.proposal
    by_cases hConfig : request.configId = r.configId ∧ request.configDigest = r.configDigest
    · cases hProof : r.proofs request.slot with
      | some proof =>
        obtain rfl : r.summary request.slot = summary := by
          simpa [record, hConfig, hProof] using h
        simp [IsrRecorder.summary, hProof] at hDecided
      | none =>
        rw [record_of_config hConfig hProof]
        simp [register, RecordRequest.context, hConfig]
    · simp [record, not_and_or.mp hConfig] at h
  install_register r _ proof _ := by
    change (r.installDecisionProof proof).1.register = r.register
    unfold installDecisionProof
    split
    · split <;> rfl
    · rfl
  inspect_register _ _ _ := rfl
  inspect_reply r _ slot summary h := by
    have h := Except.ok.inj h
    split at h
    · cases h
    · obtain rfl := Option.some.inj h
      exact r.summary_shows slot
  observe_register _ _ _ := rfl
  occur_register _ _ := rfl
  record_decided r _ request summary proof h hDecided := by
    change (r.record request).2 = .ok summary at h
    unfold record at h
    split at h
    · cases h
    · split at h
      · obtain rfl := Except.ok.inj h
        exact ⟨request.slot, hDecided⟩
      · obtain rfl := Except.ok.inj h
        exact ⟨request.slot, hDecided⟩
  record_holds r _ request proof h := by
    change ∃ slot, (r.record request).1.proofs slot = some proof at h
    obtain ⟨slot, hSlot⟩ := h
    unfold record at hSlot
    split at hSlot
    · exact ⟨slot, hSlot⟩
    · split at hSlot <;> exact ⟨slot, hSlot⟩
  install_holds r _ installed proof _ h := by
    change ∃ slot, (r.installDecisionProof installed).1.proofs slot = some proof at h
    obtain ⟨slot, hSlot⟩ := h
    unfold installDecisionProof at hSlot
    split at hSlot
    · split at hSlot <;> exact .inl ⟨slot, hSlot⟩
    · by_cases hEq : slot = installed.slot
      · rw [hEq] at hSlot
        right
        simpa using hSlot.symm
      · left
        exact ⟨slot, by simpa [hEq] using hSlot⟩
  inspect_holds _ _ _ _ h := h
  observe_holds _ _ _ _ h := h
  occur_holds _ _ _ h := h

end IsrRecorder

end Rhiza.Quepaxa
