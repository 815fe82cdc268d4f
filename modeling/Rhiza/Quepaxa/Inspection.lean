import Rhiza.Quepaxa.Driver

/-! # Certified inspection and read fences

Both read recorders one after the other and conclude from a quorum of answers
that belong to different moments.
-/

namespace Rhiza.Quepaxa

open Core Library

structure CertifiedDecision where
  entry : LogEntry
  certificate : DecisionCertificate
  proof : DecisionProof
  deriving DecidableEq

inductive CertifiedDecisionInspection
  | empty
  | pending
  | committed (certified : CertifiedDecision)
  | unavailable
  deriving DecidableEq

structure IndexedReplies (α : Type) where
  saturated : Nat
  results : List (Nat × Result α)

def slotStateMatches (observation : ReadFenceObservation) (request : ReadFenceRequest) : Bool :=
  match observation.slotState with
  | .empty => observation.maxHead.all (· < request.slot)
  | .occupied summary =>
    observation.maxHead.any (request.slot ≤ ·) ∧ summary.all fun summary =>
      summary.recorderId = observation.recorderId ∧ summary.slot = request.slot ∧
        summary.configId = request.configId ∧ summary.configDigest = request.configDigest

def validReadFenceObservation (observation : ReadFenceObservation) (expectedRecorderId : NodeId)
    (request : ReadFenceRequest) : Bool :=
  observation.recorderId = expectedRecorderId ∧ observation.clusterId = request.clusterId ∧
    observation.epoch = request.epoch ∧ observation.configId = request.configId ∧
    observation.configDigest = request.configDigest ∧ observation.slot = request.slot ∧
    slotStateMatches observation request

/-- How the loop of `inspect_context_read_fence_at` ends. An occupied quorum is
left to the certified inspection, whose `Empty` then becomes `Pending`. -/
inductive FenceVerdict
  | empty
  | unavailable
  | failed (error : Error)
  | occupied
  deriving DecidableEq

section Inspect

variable [Sha256]

namespace ThreeNodeConsensus

def ensurePredecessor (slot : Nat) (actualPrevHash expectedPrevHash : LogHash) : Result Unit :=
  if actualPrevHash ≠ expectedPrevHash then
    .error (.chainConflict slot expectedPrevHash actualPrevHash)
  else .ok ()

def logEntryFromValue (e : ThreeNodeConsensus) (slot : Nat) (command : StoredCommand)
    (value : AcceptedValue) : Result LogEntry :=
  let entry : LogEntry :=
    ⟨e.clusterId, e.epoch, e.configId, slot, command.entryType, command.payload, value.prevHash,
      value.entryHash⟩
  if entry.recomputeHash ≠ entry.hash then .error (.rejected .invalidValue) else .ok entry

/-- The checks of `select_decision_proof` on each proof, up to the first failure. -/
def validateAll (e : ThreeNodeConsensus) (slot : Nat) : List DecisionProof → Result Unit
  | [] => .ok ()
  | proof :: proofs =>
    match proof.validateForCluster e.clusterId slot e.epoch e.configId e.membership with
    | .error reason => .error (.rejected reason)
    | .ok () => e.validateAll slot proofs

/-- `select_decision_proof`: the last proof of the greatest step, if all agree. -/
def selectDecisionProof (e : ThreeNodeConsensus) (slot : Nat) (proofs : List DecisionProof) :
    Result (Option DecisionProof) :=
  match e.validateAll slot proofs with
  | .error error => .error error
  | .ok () =>
    match proofs with
    | [] => .ok none
    | first :: rest =>
      if rest.any fun proof => proof.proposal.value ≠ first.proposal.value then
        .error .conflictingCertificates
      else .ok ((first :: rest).insertionSort fun a b => a.step ≤ b.step).getLast?

def proofAtStep (e : ThreeNodeConsensus) (slot step : Nat) (summaries : List RecordSummary) :
    Option DecisionProof :=
  let rows := summaries.map (·.row)
  if step = 4 then
    (fastProposal step rows).map fun proposal =>
      .fastPath e.clusterId slot e.epoch e.configId e.configDigest proposal rows
  else if step % 4 = 2 then
    (Proposal.maximum (summaries.filterMap (·.aggregatePrior))).map fun proposal =>
      .phase2 e.clusterId slot e.epoch e.configId e.configDigest step proposal rows
  else none

/-- One turn of the loop over steps in `proof_from_record_summaries`. -/
def proofOfStep (e : ThreeNodeConsensus) (slot : Nat) (summaries : List RecordSummary)
    (step : Nat) : Option DecisionProof :=
  let quorum := e.membership.quorumSize
  let stepSummaries := summaries.filter (·.step = step)
  if stepSummaries.length < quorum then none
  else
    match e.proofAtStep slot step (stepSummaries.take quorum) with
    | none => none
    | some proof =>
      match e.selectDecisionProof slot [proof] with
      | .ok (some proof) => some proof
      | _ => none

def proofFromRecordSummaries (e : ThreeNodeConsensus) (slot : Nat)
    (summaries : List RecordSummary) : Result (Option DecisionProof) :=
  let summaries := sortByRecorder summaries
  match e.selectDecisionProof slot (summaries.filterMap (·.decided)) with
  | .error error => .error error
  | .ok (some proof) => .ok (some proof)
  | .ok none =>
    let steps := (summaries.map (·.step)).dedup.insertionSort (· ≥ ·)
    .ok (steps.findSome? (e.proofOfStep slot summaries))

def certifiedInspectionFromProof (e : ThreeNodeConsensus) (slot : Nat) (prevHash : LogHash)
    (proof : DecisionProof) (fetched : ControlReplies (Option StoredCommand))
    (installs : ControlReplies Unit) : Result CertifiedDecisionInspection := do
  let decision ← certificateFromProof proof
  ensurePredecessor slot prevHash decision.value.prevHash
  match ← e.fetchVerifiedValue slot decision.value fetched with
  | none => .ok .unavailable
  | some command =>
    if command.entryType = .configChange then
      e.installDecisionProofQuorum installs
    let entry ← e.logEntryFromValue slot command decision.value
    .ok (.committed ⟨entry, decision, proof⟩)

/-- A summary that the loop of `inspect_typed_record_summaries` counts. -/
def countsSummary (e : ThreeNodeConsensus) (slot index : Nat) (summary : Option RecordSummary) :
    Bool :=
  summary.all fun summary =>
    some summary.recorderId = e.membership.members[index]? ∧ summary.slot = slot ∧
      summary.configId = e.configId ∧ summary.configDigest = e.configDigest

/-- The receive loop of `inspect_typed_record_summaries`: the proof it finds, or
the number of answers and the summaries it ends with. -/
def gatherSummaries (e : ThreeNodeConsensus) (slot successful : Nat) (workerFailed : Bool)
    (summaries : List RecordSummary) : List (Nat × Result (Option RecordSummary)) →
    Result (DecisionProof ⊕ (Nat × Bool × List RecordSummary))
  | [] => .ok (.inr (successful, workerFailed, summaries))
  | (index, result) :: rest =>
    let counted := match result with
      | .ok summary => e.countsSummary slot index summary
      | .error _ => false
    let successful := if counted then successful + 1 else successful
    let summaries := match result with
      | .ok (some summary) => if counted then summaries ++ [summary] else summaries
      | _ => summaries
    let workerFailed := workerFailed || result matches .error .proposeFailed
    if e.membership.quorumSize ≤ successful then
      match e.proofFromRecordSummaries slot summaries with
      | .error error => .error error
      | .ok (some proof) => .ok (.inl proof)
      | .ok none => e.gatherSummaries slot successful workerFailed summaries rest
    else e.gatherSummaries slot successful workerFailed summaries rest

/-- `inspect_typed_record_summaries`, which is `inspect_certified_decision_at`. -/
def inspectTypedRecordSummaries (e : ThreeNodeConsensus) (slot : Nat) (prevHash : LogHash)
    (answers : IndexedReplies (Option RecordSummary))
    (fetched : ControlReplies (Option StoredCommand)) (installs : ControlReplies Unit) :
    Result CertifiedDecisionInspection :=
  match e.gatherSummaries slot 0 false [] answers.results with
  | .error error => .error error
  | .ok (.inl proof) => e.certifiedInspectionFromProof slot prevHash proof fetched installs
  | .ok (.inr (successful, workerFailed, summaries)) =>
    let quorum := e.membership.quorumSize
    if successful < quorum then
      if workerFailed ∧ ¬ controlQuorumReachable successful answers.saturated quorum then
        .error .proposeFailed
      else .ok .unavailable
    else if summaries.isEmpty then .ok .empty
    else if summaries.length < quorum then .ok .unavailable
    else
      match e.proofFromRecordSummaries slot summaries with
      | .error error => .error error
      | .ok (some proof) => e.certifiedInspectionFromProof slot prevHash proof fetched installs
      | .ok none => .ok .pending

/-- The request of `inspect_context_read_fence_at`. -/
def readFenceRequest (e : ThreeNodeConsensus) (slot : Nat) : ReadFenceRequest :=
  ⟨e.clusterId, e.epoch, e.configId, e.configDigest, slot⟩

/-- An answer that the loop of `inspect_context_read_fence_at` counts. -/
def countsObservation (e : ThreeNodeConsensus) (slot index : Nat)
    (observation : ReadFenceObservation) : Bool :=
  (e.membership.members[index]?).any fun recorderId =>
    validReadFenceObservation observation recorderId (e.readFenceRequest slot)

/-- The receive loop of `inspect_context_read_fence_at`. -/
def gatherObservations (e : ThreeNodeConsensus) (slot saturated successful empty received : Nat)
    (workerFailed : Bool) : List (Nat × Result ReadFenceObservation) → FenceVerdict
  | [] =>
    let quorum := e.membership.quorumSize
    if successful < quorum then
      if workerFailed ∧ ¬ controlQuorumReachable successful saturated quorum then
        .failed .proposeFailed
      else .unavailable
    else .occupied
  | (index, result) :: rest =>
    let quorum := e.membership.quorumSize
    let counted := match result with
      | .ok observation => e.countsObservation slot index observation
      | .error _ => false
    let isEmpty := match result with
      | .ok observation => observation.slotState = .empty
      | .error _ => false
    let successful := if counted then successful + 1 else successful
    let empty := if counted && isEmpty then empty + 1 else empty
    let workerFailed := workerFailed || result matches .error .proposeFailed
    if counted ∧ isEmpty ∧ quorum ≤ empty then .empty
    else if successful + (e.membership.members.length - (received + 1)) < quorum then .unavailable
    else e.gatherObservations slot saturated successful empty (received + 1) workerFailed rest

end ThreeNodeConsensus

end Inspect

end Rhiza.Quepaxa
