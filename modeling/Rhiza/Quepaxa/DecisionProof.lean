import Rhiza.Quepaxa.Isr

/-! # Record messages and decision proofs

A decision proof carries the rows of the quorum it rests on. Validation checks
the rows against each other; it cannot see the registers they came from.
-/

namespace Rhiza.Quepaxa

open Core Library

structure RecorderSummary where
  recorderId : NodeId
  slot : Nat
  step : Nat
  firstCurrent : Option Proposal
  aggregatePrior : Option Proposal
  deriving DecidableEq

inductive DecisionProof
  | fastPath (clusterId : ClusterId) (slot epoch configId : Nat) (configDigest : LogHash)
      (proposal : Proposal) (summaries : List RecorderSummary)
  | phase2 (clusterId : ClusterId) (slot epoch configId : Nat) (configDigest : LogHash)
      (step : Nat) (proposal : Proposal) (summaries : List RecorderSummary)
  deriving DecidableEq

structure RecordRequest where
  clusterId : ClusterId
  epoch : Nat
  configId : Nat
  configDigest : LogHash
  slot : Nat
  step : Nat
  proposal : Proposal
  command : Option StoredCommand
  deriving DecidableEq

structure RecordSummary where
  recorderId : NodeId
  slot : Nat
  configId : Nat
  configDigest : LogHash
  step : Nat
  firstCurrent : Option Proposal
  aggregatePrior : Option Proposal
  decided : Option DecisionProof
  deriving DecidableEq

def RecordSummary.row (reply : RecordSummary) : RecorderSummary :=
  ⟨reply.recorderId, reply.slot, reply.step, reply.firstCurrent, reply.aggregatePrior⟩

structure AcceptedSummary where
  ballot : Ballot
  value : AcceptedValue
  deriving DecidableEq

structure DecisionCertificate where
  slot : Nat
  epoch : Nat
  configId : Nat
  configDigest : LogHash
  ballot : Ballot
  value : AcceptedValue
  recorderIds : List NodeId
  deriving DecidableEq

namespace DecisionProof

def proposal : DecisionProof → Proposal
  | fastPath _ _ _ _ _ proposal _ => proposal
  | phase2 _ _ _ _ _ _ proposal _ => proposal

/-- `proof_cluster_id`. -/
def clusterId : DecisionProof → ClusterId
  | fastPath clusterId .. => clusterId
  | phase2 clusterId .. => clusterId

/-- The four components of `proof_context`. -/
def slot : DecisionProof → Nat
  | fastPath _ slot .. => slot
  | phase2 _ slot .. => slot

def epoch : DecisionProof → Nat
  | fastPath _ _ epoch .. => epoch
  | phase2 _ _ epoch .. => epoch

def configId : DecisionProof → Nat
  | fastPath _ _ _ configId .. => configId
  | phase2 _ _ _ configId .. => configId

def configDigest : DecisionProof → LogHash
  | fastPath _ _ _ _ configDigest .. => configDigest
  | phase2 _ _ _ _ configDigest .. => configDigest

def step : DecisionProof → Nat
  | fastPath .. => 4
  | phase2 _ _ _ _ _ step _ _ => step

def summaries : DecisionProof → List RecorderSummary
  | fastPath _ _ _ _ _ _ summaries => summaries
  | phase2 _ _ _ _ _ _ _ summaries => summaries

def value (proof : DecisionProof) : Option AcceptedValue := proof.proposal.value

/-- The part of `validate_for` that differs between the two kinds of proof. -/
def evidence : DecisionProof → Bool
  | fastPath _ _ _ _ _ proposal summaries =>
    proposal.priority = ProposalPriority.max ∧
      summaries.all fun summary => summary.firstCurrent = some proposal
  | phase2 _ _ _ _ _ step proposal summaries =>
    step % 4 = 2 ∧ Proposal.maximum (summaries.filterMap (·.aggregatePrior)) = some proposal

/-- The rows of `validate_for`: a quorum of distinct members in order, all at one step. -/
def rowsMatch (proof : DecisionProof) (membership : Membership) : Bool :=
  proof.summaries.length = membership.quorumSize ∧
    (proof.summaries.map (·.recorderId)).IsChain (· < ·) ∧
    proof.summaries.all fun summary =>
      membership.contains summary.recorderId ∧ summary.slot = proof.slot ∧
        summary.step = proof.step

section Validate

variable [Sha256]

def validateFor (proof : DecisionProof) (slot epoch configId : Nat) (membership : Membership) :
    Except RejectReason Unit :=
  if proof.slot ≠ slot ∨ proof.epoch ≠ epoch then .error .malformedDecision
  else if proof.configId ≠ configId ∨ proof.configDigest ≠ membership.digest then
    .error .wrongConfig
  else if proof.proposal.isNil then .error .invalidCertificate
  else if !proof.rowsMatch membership then .error .invalidCertificate
  else if !proof.evidence then .error .invalidCertificate
  else .ok ()

def validateForCluster (proof : DecisionProof) (clusterId : ClusterId)
    (slot epoch configId : Nat) (membership : Membership) : Except RejectReason Unit :=
  if proof.clusterId ≠ clusterId then .error .wrongCluster
  else proof.validateFor slot epoch configId membership

/-- What a proof that passes `validate_for_cluster` looks like. -/
structure ValidFor (proof : DecisionProof) (clusterId : ClusterId) (slot epoch configId : Nat)
    (membership : Membership) : Prop where
  cluster : proof.clusterId = clusterId
  slot_eq : proof.slot = slot
  epoch_eq : proof.epoch = epoch
  config_eq : proof.configId = configId
  digest_eq : proof.configDigest = membership.digest
  notNil : proof.proposal.isNil = false
  rows : proof.rowsMatch membership
  evident : proof.evidence

theorem validateForCluster_eq_ok {proof : DecisionProof} {clusterId : ClusterId}
    {slot epoch configId : Nat} {membership : Membership} :
    proof.validateForCluster clusterId slot epoch configId membership = .ok () ↔
      proof.ValidFor clusterId slot epoch configId membership := by
  unfold validateForCluster validateFor
  constructor
  · intro h
    split at h
    · cases h
    split at h
    · cases h
    split at h
    · cases h
    split at h
    · cases h
    split at h
    · cases h
    split at h
    · cases h
    · rename_i hCluster hSlot hConfig hNil hRows hEvidence
      push Not at hCluster hSlot hConfig
      exact ⟨hCluster, hSlot.1, hSlot.2, hConfig.1, hConfig.2, by simpa using hNil,
        by simpa using hRows, by simpa using hEvidence⟩
  · rintro ⟨rfl, rfl, rfl, rfl, hDigest, hNil, hRows, hEvidence⟩
    simp [hDigest, hNil, hRows, hEvidence]

end Validate

theorem majority_of_rowsMatch {proof : DecisionProof} {membership : Membership}
    (h : proof.rowsMatch membership) :
    Majority membership.members (proof.summaries.map (·.recorderId)) := by
  simp only [rowsMatch, decide_eq_true_eq, List.all_eq_true] at h
  obtain ⟨hLength, hChain, hRows⟩ := h
  refine Membership.majority ?_ ?_ ?_
  · exact (List.isChain_iff_pairwise.mp hChain).imp fun hlt => ne_of_lt hlt
  · intro k hk
    obtain ⟨row, hRow, rfl⟩ := List.mem_map.mp hk
    exact List.contains_iff_mem.mp (hRows row hRow).1
  · rw [List.length_map, hLength]

theorem step_of_rowsMatch {proof : DecisionProof} {membership : Membership}
    (h : proof.rowsMatch membership) {row : RecorderSummary} (hRow : row ∈ proof.summaries) :
    row.step = proof.step ∧ row.slot = proof.slot := by
  simp only [rowsMatch, decide_eq_true_eq, List.all_eq_true] at h
  exact ⟨(h.2.2 row hRow).2.2, (h.2.2 row hRow).2.1⟩

end DecisionProof

def proposalBallot (proposal : Proposal) : Option Ballot :=
  proposal.value.map fun _ =>
    ⟨proposal.proposalId, proposal.priority.legacyU128, proposal.proposerId⟩

def encodeCertificateProposer (clusterId : ClusterId) (proposerId : NodeId) : String :=
  "QDC1:" ++ toString (utf8 clusterId).length ++ ":" ++ clusterId ++ proposerId

def certificateFromProof (proof : DecisionProof) : Result DecisionCertificate :=
  match proof.proposal.value with
  | none => .error (.rejected .invalidCertificate)
  | some value => .ok
    { slot := proof.slot
      epoch := proof.epoch
      configId := proof.configId
      configDigest := proof.configDigest
      ballot := ⟨proof.proposal.proposalId, proof.proposal.priority.legacyU128,
        encodeCertificateProposer proof.clusterId proof.proposal.proposerId⟩
      value := value
      recorderIds := proof.summaries.map (·.recorderId) }

end Rhiza.Quepaxa
