import Rhiza.Quepaxa.SlotState

/-! # The proposer driver

One call of `ThreeNodeConsensus::drive` is cut where it talks to the recorders:
`driveRequests` ends with the broadcast and `driveReplies` starts with the
answers. What other parties contribute to a call (sampled priorities, answers to
fetches and installs, the order in which answers arrive) is an argument.
-/

namespace Rhiza.Quepaxa

open Core Library

structure Group where
  clusterId : ClusterId
  epoch : Nat
  configId : Nat
  membership : Membership
  deriving DecidableEq

structure ThreeNodeConsensus extends Group where
  proposerId : NodeId
  deriving DecidableEq

structure ProposerProgress where
  slot : Nat
  step : Nat
  proposal : Proposal
  phaseZeroPriorities : List ((Nat × NodeId) × ProposalPriority)
  command : Option StoredCommand
  commandHolders : List NodeId
  transitionInvolved : Bool
  deriving DecidableEq

inductive DriveOutcome
  | progress (next : ProposerProgress)
  | pending (next : ProposerProgress)
  | decision (proof : DecisionProof)
  deriving DecidableEq

/-- The answers of the control workers in order of arrival. The answer of a
saturated worker is an error. -/
structure ControlReplies (α : Type) where
  saturated : Nat
  results : List (Result α)

structure BroadcastReplies where
  saturatedWorkers : List Bool
  results : List (Nat × Result RecordSummary)

namespace ProposerProgress

def new (slot : Nat) (proposal : Proposal) : ProposerProgress :=
  ⟨slot, 4, proposal, [], none, [], false⟩

def withCommand (progress : ProposerProgress) (command : StoredCommand) : ProposerProgress :=
  { progress with
    transitionInvolved := command.entryType = .configChange
    command := some command }

def round (progress : ProposerProgress) : Nat := progress.step / 4

def phase (progress : ProposerProgress) : Nat := progress.step % 4

end ProposerProgress

def controlQuorumReachable (successful saturated quorum : Nat) : Bool :=
  quorum ≤ successful + saturated

section Broadcast

/-- The state of the receive loop of `record_broadcast`. -/
structure Gathering where
  acceptedCompleted : Nat
  typedErrors : List (Option Error)
  workerFailed : Bool
  replies : List RecordSummary

/-- The way `record_broadcast` ends without a quorum of replies. -/
def Gathering.giveUp (g : Gathering) : Result (List RecordSummary) :=
  match g.typedErrors.reduceOption.head? with
  | some error => .error error
  | none => if g.workerFailed then .error .proposeFailed else .ok g.replies

def Gathering.receive (g : Gathering) (index : Nat) (saturated : Bool)
    (result : Result RecordSummary) : Gathering :=
  let g := if saturated then g else { g with acceptedCompleted := g.acceptedCompleted + 1 }
  match result with
  | .ok reply =>
    if g.replies.any (·.recorderId == reply.recorderId) then g
    else { g with replies := g.replies ++ [reply] }
  | .error (.rejected reason) =>
    { g with typedErrors := g.typedErrors.set index (some (.rejected reason)) }
  | .error .typedRecordRequired =>
    { g with typedErrors := g.typedErrors.set index (some .typedRecordRequired) }
  | .error .proposeFailed => { g with workerFailed := true }
  | .error _ => g

/-- The receive loop of `record_broadcast`. -/
def gather (quorum : Nat) (saturatedWorkers : List Bool) (g : Gathering) :
    List (Nat × Result RecordSummary) → Result (List RecordSummary)
  | [] =>
    if quorum ≤ g.replies.length + saturatedWorkers.count true then .ok g.replies else g.giveUp
  | (index, result) :: rest =>
    let g := g.receive index (saturatedWorkers.getD index false) result
    let saturated := saturatedWorkers.count true
    let accepted := saturatedWorkers.length - saturated
    if quorum ≤ g.replies.length then .ok g.replies
    else if g.replies.length + saturated + (accepted - g.acceptedCompleted) < quorum then g.giveUp
    else gather quorum saturatedWorkers g rest

/-- `record_broadcast`, from the moment the requests are dispatched. -/
def recordBroadcast (quorum : Nat) (answers : BroadcastReplies) : Result (List RecordSummary) :=
  gather quorum answers.saturatedWorkers
    ⟨0, answers.saturatedWorkers.map fun _ => none, false, []⟩ answers.results

end Broadcast

/-- The least recorder of a list of replies, the first one of equals: `min_by`. -/
def minByRecorder : List RecordSummary → Option RecordSummary
  | [] => none
  | reply :: replies =>
    some (replies.foldl (fun best r => if r.recorderId < best.recorderId then r else best) reply)

/-- `sort_by` and `dedup_by` on the recorder. -/
def sortByRecorder (replies : List RecordSummary) : List RecordSummary :=
  (replies.insertionSort fun a b => a.recorderId ≤ b.recorderId).eraseRepsBy
    fun a b => a.recorderId == b.recorderId

/-- What the replies of one broadcast amount to, before `drive` asks the
recorders for anything else. -/
inductive Verdict
  | installed (proof : DecisionProof)
  | behind (next : ProposerProgress)
  | tooFew (next : ProposerProgress)
  | decide (proof : DecisionProof)
  | advance (next : ProposerProgress)

section Drive

variable [Sha256]

def Group.configDigest (group : Group) : LogHash := group.membership.digest

def Group.context (group : Group) (slot : Nat) : Context :=
  ⟨group.configId, group.configDigest, slot⟩

namespace ThreeNodeConsensus

def commandMatchesValue (e : ThreeNodeConsensus) (slot : Nat) (value : AcceptedValue)
    (command : StoredCommand) : Bool :=
  AcceptedValue.fromCommand e.clusterId slot e.epoch e.configId value.prevHash command = value

/-- The receive loop of `fetch_verified_value`. -/
def verifyFetched (e : ThreeNodeConsensus) (slot : Nat) (value : AcceptedValue) (saturated : Nat)
    (mismatch : Bool) (successful : Nat) (workerFailed : Bool) :
    List (Result (Option StoredCommand)) → Result (Option StoredCommand)
  | [] =>
    let quorum := quorumSize e.membership.members.length
    if mismatch then .error (.rejected .invalidValue)
    else if successful < quorum ∧ 0 < saturated then .error .noQuorum
    else if workerFailed ∧ ¬ controlQuorumReachable successful saturated quorum then
      .error .proposeFailed
    else .ok none
  | .ok (some command) :: rest =>
    if command.hash ≠ value.commandHash then
      e.verifyFetched slot value saturated mismatch (successful + 1) workerFailed rest
    else if e.commandMatchesValue slot value command then .ok (some command)
    else e.verifyFetched slot value saturated true (successful + 1) workerFailed rest
  | .ok none :: rest =>
    e.verifyFetched slot value saturated mismatch (successful + 1) workerFailed rest
  | .error .proposeFailed :: rest =>
    e.verifyFetched slot value saturated mismatch successful true rest
  | .error _ :: rest =>
    e.verifyFetched slot value saturated mismatch successful workerFailed rest

def fetchVerifiedValue (e : ThreeNodeConsensus) (slot : Nat) (value : AcceptedValue)
    (fetched : ControlReplies (Option StoredCommand)) : Result (Option StoredCommand) :=
  e.verifyFetched slot value fetched.saturated false 0 false fetched.results

def ensureProgressCommand (e : ThreeNodeConsensus) (progress : ProposerProgress)
    (fetched : ControlReplies (Option StoredCommand)) : Result ProposerProgress :=
  match progress.proposal.value with
  | none => .error (.rejected .invalidRequest)
  | some value =>
    if progress.command.any (e.commandMatchesValue progress.slot value) then .ok progress
    else
      match e.fetchVerifiedValue progress.slot value fetched with
      | .error error => .error error
      | .ok none => .error .commandUnavailable
      | .ok (some command) => .ok
        { progress with
          commandHolders := []
          command := some command
          transitionInvolved :=
            progress.transitionInvolved || command.entryType = .configChange }

def phaseZeroPriority (e : ThreeNodeConsensus) (progress : ProposerProgress)
    (sample : NodeId → Result ProposalPriority) (recorderId : NodeId) : Result ProposalPriority :=
  if progress.step = 4 ∧ e.membership.members.head? = some e.proposerId then
    .ok ProposalPriority.max
  else
    match progress.phaseZeroPriorities.lookup (progress.round, recorderId) with
    | some priority => .ok priority
    | none => sample recorderId

def cachedPriorities (e : ThreeNodeConsensus) (progress : ProposerProgress) (recorderId : NodeId)
    (priority : ProposalPriority) : List ((Nat × NodeId) × ProposalPriority) :=
  if progress.step = 4 ∧ e.membership.members.head? = some e.proposerId then
    progress.phaseZeroPriorities
  else
    match progress.phaseZeroPriorities.lookup (progress.round, recorderId) with
    | some _ => progress.phaseZeroPriorities
    | none => ((progress.round, recorderId), priority) :: progress.phaseZeroPriorities

def recordRequest (e : ThreeNodeConsensus) (progress : ProposerProgress)
    (commandTargets : List NodeId) (recorderId : NodeId) (proposal : Proposal) : RecordRequest where
  clusterId := e.clusterId
  epoch := e.epoch
  configId := e.configId
  configDigest := e.configDigest
  slot := progress.slot
  step := progress.step
  proposal := proposal
  command := if recorderId ∈ commandTargets then progress.command else none

def buildRequests (e : ThreeNodeConsensus) (sample : NodeId → Result ProposalPriority)
    (commandTargets : List NodeId) (progress : ProposerProgress) :
    List NodeId → Result (ProposerProgress × List RecordRequest)
  | [] => .ok (progress, [])
  | recorderId :: rest =>
    if progress.phase = 0 then
      match e.phaseZeroPriority progress sample recorderId with
      | .error error => .error error
      | .ok priority =>
        let proposal := { progress.proposal with priority := priority }
        let next :=
          { progress with
            phaseZeroPriorities := e.cachedPriorities progress recorderId priority }
        match e.buildRequests sample commandTargets next rest with
        | .error error => .error error
        | .ok (last, requests) =>
          .ok (last, e.recordRequest progress commandTargets recorderId proposal :: requests)
    else
      match e.buildRequests sample commandTargets progress rest with
      | .error error => .error error
      | .ok (last, requests) =>
        .ok (last, e.recordRequest progress commandTargets recorderId progress.proposal :: requests)

def commandTargets (e : ThreeNodeConsensus) (progress : ProposerProgress) : List NodeId :=
  e.membership.members.filter fun recorderId => recorderId ∉ progress.commandHolders

def driveRequests (e : ThreeNodeConsensus) (progress : ProposerProgress)
    (fetched : ControlReplies (Option StoredCommand)) (sample : NodeId → Result ProposalPriority) :
    Result (ProposerProgress × List RecordRequest) :=
  match e.ensureProgressCommand progress fetched with
  | .error error => .error error
  | .ok progress =>
    let progress :=
      { progress with
        phaseZeroPriorities :=
          if progress.phase = 0 then
            progress.phaseZeroPriorities.filter fun entry => entry.1.1 = progress.round
          else [] }
    e.buildRequests sample (e.commandTargets progress) progress e.membership.members

/-- The fast path of phase 0: a distinguished proposal that every row shows first at step 4. -/
def fastProposal (step : Nat) (summaries : List RecorderSummary) : Option Proposal :=
  ((summaries.head?.bind (·.firstCurrent)).filter fun proposal =>
    proposal.priority = ProposalPriority.max).filter fun proposal =>
      step = 4 ∧ summaries.all fun summary => summary.firstCurrent = some proposal

def weighQuorum (e : ThreeNodeConsensus) (progress : ProposerProgress)
    (replies : List RecordSummary) : Result Verdict :=
  let summaries := replies.map (·.row)
  match progress.phase with
  | 0 =>
    match fastProposal progress.step summaries with
    | some proposal => .ok (.decide (.fastPath e.clusterId progress.slot e.epoch e.configId
        e.configDigest proposal summaries))
    | none =>
      match Proposal.maximum (replies.filterMap (·.firstCurrent)) with
      | some proposal => .ok (.advance { progress with proposal := proposal })
      | none => .error (.rejected .invalidRequest)
  | 1 => .ok (.advance progress)
  | 2 =>
    if Proposal.maximum (replies.filterMap (·.aggregatePrior)) = some progress.proposal then
      .ok (.decide (.phase2 e.clusterId progress.slot e.epoch e.configId e.configDigest
        progress.step progress.proposal summaries))
    else .ok (.advance progress)
  | _ =>
    match Proposal.maximum (replies.filterMap (·.aggregatePrior)) with
    | some proposal => .ok (.advance { progress with proposal := proposal })
    | none => .error (.rejected .invalidRequest)

/-- A proposer that is behind takes over the highest step and, if there is one,
the first proposal of the least recorder that stands there. -/
def catchUp (progress : ProposerProgress) (replies : List RecordSummary) (highest : Nat) :
    ProposerProgress :=
  let caughtUp := (minByRecorder (replies.filter (·.step = highest))).bind (·.firstCurrent)
  { progress with
    step := highest
    proposal := caughtUp.getD progress.proposal }

def extendHolders (e : ThreeNodeConsensus) (progress : ProposerProgress)
    (replies : List RecordSummary) : ProposerProgress :=
  { progress with
    commandHolders := progress.commandHolders ++
      (replies.map (·.recorderId)).filter (· ∈ e.commandTargets progress) }

def weigh (e : ThreeNodeConsensus) (progress : ProposerProgress) (replies : List RecordSummary) :
    Result Verdict :=
  match replies.findSome? (·.decided) with
  | some proof => .ok (.installed proof)
  | none =>
    let highest := ((replies.map (·.step)).max?).getD 0
    if progress.step < highest then .ok (.behind (catchUp progress replies highest))
    else
      let standing := sortByRecorder (replies.filter (·.step = progress.step))
      if standing.length < e.membership.quorumSize then .ok (.tooFew progress)
      else e.weighQuorum progress (standing.take e.membership.quorumSize)

/-- The receive loop of `install_decision_proof_quorum`. -/
def countInstalled (quorum saturated installed : Nat) (workerFailed : Bool) :
    List (Result Unit) → Result Unit
  | [] =>
    if quorum ≤ installed then .ok ()
    else if workerFailed ∧ ¬ controlQuorumReachable installed saturated quorum then
      .error .proposeFailed
    else .error .noQuorum
  | .ok () :: rest =>
    if quorum ≤ installed + 1 then .ok ()
    else countInstalled quorum saturated (installed + 1) workerFailed rest
  | .error .proposeFailed :: rest => countInstalled quorum saturated installed true rest
  | .error _ :: rest => countInstalled quorum saturated installed workerFailed rest

/-- `install_decision_proof_quorum`, from the answers of the recorders. -/
def installDecisionProofQuorum (e : ThreeNodeConsensus) (installs : ControlReplies Unit) :
    Result Unit :=
  countInstalled e.membership.quorumSize installs.saturated 0 false installs.results

def finishDecision (e : ThreeNodeConsensus) (proof : DecisionProof)
    (knownCommand : Option StoredCommand) (transitionInvolved : Bool)
    (fetched : ControlReplies (Option StoredCommand)) (installs : ControlReplies Unit) :
    Result DriveOutcome :=
  match proof.validateForCluster e.clusterId proof.slot e.epoch e.configId e.membership with
  | .error reason => .error (.rejected reason)
  | .ok () =>
    match proof.proposal.value with
    | none => .error (.rejected .invalidCertificate)
    | some value =>
      let command : Result StoredCommand :=
        match knownCommand.filter (e.commandMatchesValue proof.slot value) with
        | some command => .ok command
        | none =>
          match e.fetchVerifiedValue proof.slot value fetched with
          | .error error => .error error
          | .ok none => .error .commandUnavailable
          | .ok (some command) => .ok command
      match command with
      | .error error => .error error
      | .ok command =>
        if command.entryType ≠ .configChange ∧ transitionInvolved = false then
          .ok (.decision proof)
        else
          match e.installDecisionProofQuorum installs with
          | .error error => .error error
          | .ok () => .ok (.decision proof)

def conclude (e : ThreeNodeConsensus) (progress : ProposerProgress) (verdict : Verdict)
    (fetched : ControlReplies (Option StoredCommand)) (installs : ControlReplies Unit) :
    Result DriveOutcome :=
  match verdict with
  | .installed proof =>
    match proof.validateForCluster e.clusterId progress.slot e.epoch e.configId e.membership with
    | .error reason => .error (.rejected reason)
    | .ok () =>
      e.finishDecision proof progress.command progress.transitionInvolved fetched installs
  | .behind next =>
    match e.ensureProgressCommand next fetched with
    | .error error => .error error
    | .ok next => .ok (.progress { next with phaseZeroPriorities := [] })
  | .tooFew next => .ok (.pending next)
  | .decide proof =>
    e.finishDecision proof progress.command progress.transitionInvolved fetched installs
  | .advance next =>
    match e.ensureProgressCommand next fetched with
    | .error error => .error error
    | .ok next =>
      match checkedSucc next.step with
      | none => .error .proposeFailed
      | some step => .ok (.progress { next with step := step, phaseZeroPriorities := [] })

def driveReplies (e : ThreeNodeConsensus) (progress : ProposerProgress)
    (answers : BroadcastReplies) (fetched : ControlReplies (Option StoredCommand))
    (installs : ControlReplies Unit) : Option DecisionProof × Result DriveOutcome :=
  match recordBroadcast e.membership.quorumSize answers with
  | .error error => (none, .error error)
  | .ok replies =>
    match e.weigh (e.extendHolders progress replies) replies with
    | .error error => (none, .error error)
    | .ok verdict =>
      let formed := match verdict with
        | .decide proof => some proof
        | _ => none
      (formed, e.conclude progress verdict fetched installs)

def checkReply (e : ThreeNodeConsensus) (recorderId : NodeId) (request : RecordRequest)
    (result : Result RecordSummary) : Result RecordSummary :=
  match result with
  | .error error => .error error
  | .ok reply =>
    if reply.recorderId = recorderId ∧ reply.slot = request.slot ∧ reply.configId = e.configId ∧
        reply.configDigest = e.configDigest then .ok reply
    else .error (.rejected .invalidRequest)

end ThreeNodeConsensus

end Drive

end Rhiza.Quepaxa
