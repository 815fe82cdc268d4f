import Rhiza.Library.Run
import Rhiza.Quepaxa.Inspection

/-! # Proposers and recorders together

The state of the whole system with every message ever sent. Nothing is removed
from the lists: a request may be delivered late, twice or never, and a call of
`drive` may continue with any answers to its own requests that have arrived so
far. A progress value may be driven any number of times, as its owner may clone it.
-/

namespace Rhiza.Quepaxa

open Core Library

structure Driver where
  engine : ThreeNodeConsensus
  progress : ProposerProgress

structure Call where
  engine : ThreeNodeConsensus
  progress : ProposerProgress
  requests : List RecordRequest

structure Answer where
  call : Nat
  worker : Nat
  result : Result RecordSummary

structure Report where
  recorderId : NodeId
  context : Context
  isr : IsrState

/-- A call of `inspect_context_read_fence_at`, with the decisions formed before it started. -/
structure Fence where
  engine : ThreeNodeConsensus
  slot : Nat
  formedBefore : List DecisionProof

structure FenceAnswer where
  fence : Nat
  worker : Nat
  result : Result ReadFenceObservation

structure World (R : Type) where
  recorders : NodeId → R
  offers : List Driver
  drivers : List Driver
  calls : List Call
  answers : List Answer
  formed : List DecisionProof
  decided : List DecisionProof
  reports : List Report
  fences : List Fence
  fenceAnswers : List FenceAnswer
  emptyFences : List Fence

/-- What a call receives from one of its workers: an answer by its position, or
an error that the worker or the network made up. -/
inductive Arrival
  | answer (index : Nat)
  | failure (worker : Nat) (error : Error)

inductive Action (Fault Event : Type)
  | start (engine : ThreeNodeConsensus) (slot : Nat) (proposal : Proposal)
      (command : Option StoredCommand)
  | broadcast (driver : Nat) (fetched : ControlReplies (Option StoredCommand))
      (sample : NodeId → Result ProposalPriority)
  | deliver (call worker : Nat) (fault : Fault)
  | resume (call : Nat) (saturatedWorkers : List Bool) (arrivals : List Arrival)
      (fetched : ControlReplies (Option StoredCommand)) (installs : ControlReplies Unit)
  | install (recorderId : NodeId) (fault : Fault) (proof : DecisionProof)
      (membership : Membership)
  | inspect (recorderId : NodeId) (fault : Fault) (slot : Nat)
  | occur (recorderId : NodeId) (event : Event)
  | openFence (engine : ThreeNodeConsensus) (slot : Nat)
  | observe (fence worker : Nat) (fault : Fault)
  | closeFence (fence saturated : Nat) (arrivals : List Arrival)

def nextProgress : Result DriveOutcome → Option ProposerProgress
  | .ok (.progress next) => some next
  | .ok (.pending next) => some next
  | _ => none

theorem nextProgress_eq_some {result : Result DriveOutcome} {next : ProposerProgress}
    (h : nextProgress result = some next) :
    ∃ outcome, result = .ok outcome ∧ (outcome = .progress next ∨ outcome = .pending next) := by
  unfold nextProgress at h
  split at h
  · exact ⟨_, rfl, .inl (congrArg _ (Option.some.inj h))⟩
  · exact ⟨_, rfl, .inr (congrArg _ (Option.some.inj h))⟩
  · cases h

def decisionOf : Result DriveOutcome → Option DecisionProof
  | .ok (.decision proof) => some proof
  | _ => none

def startProgress (slot : Nat) (proposal : Proposal) (command : Option StoredCommand) :
    ProposerProgress :=
  match command with
  | some command => (ProposerProgress.new slot proposal).withCommand command
  | none => ProposerProgress.new slot proposal

@[simp] theorem startProgress_slot (slot : Nat) (proposal : Proposal)
    (command : Option StoredCommand) : (startProgress slot proposal command).slot = slot := by
  cases command <;> rfl

@[simp] theorem startProgress_step (slot : Nat) (proposal : Proposal)
    (command : Option StoredCommand) : (startProgress slot proposal command).step = 4 := by
  cases command <;> rfl

@[simp] theorem startProgress_priorities (slot : Nat) (proposal : Proposal)
    (command : Option StoredCommand) :
    (startProgress slot proposal command).phaseZeroPriorities = [] := by
  cases command <;> rfl

namespace World

variable {R Fault Event : Type}

def init (recorders : NodeId → R) : World R :=
  ⟨recorders, [], [], [], [], [], [], [], [], [], []⟩

def arrive (w : World R) (call : Nat) : Arrival → Option (Nat × Result RecordSummary)
  | .answer index =>
    match w.answers[index]? with
    | some answer => if answer.call = call then some (answer.worker, answer.result) else none
    | none => none
  | .failure worker error => some (worker, .error error)

def arriveFence (w : World R) (fence : Nat) : Arrival → Option (Nat × Result ReadFenceObservation)
  | .answer index =>
    match w.fenceAnswers[index]? with
    | some answer => if answer.fence = fence then some (answer.worker, answer.result) else none
    | none => none
  | .failure worker error => some (worker, .error error)

section Step

variable [Sha256] [RecorderRpc R Fault Event]

def deliver (w : World R) (index worker : Nat) (call : Call) (recorderId : NodeId)
    (request : RecordRequest) (fault : Fault) : World R :=
  let recorded := RecorderRpc.record (w.recorders recorderId) fault request
  { w with
    recorders := Function.update w.recorders recorderId recorded.1
    answers := w.answers ++
      [⟨index, worker, call.engine.checkReply recorderId request recorded.2⟩]
    reports := w.reports ++
      [⟨recorderId, request.context, RecorderRpc.register recorded.1 request.context⟩] }

def resume (w : World R) (call : Call) (answers : BroadcastReplies)
    (fetched : ControlReplies (Option StoredCommand)) (installs : ControlReplies Unit) : World R :=
  let outcome := call.engine.driveReplies call.progress answers fetched installs
  { w with
    drivers := w.drivers ++ (nextProgress outcome.2).toList.map (Driver.mk call.engine)
    formed := w.formed ++ outcome.1.toList
    decided := w.decided ++ (decisionOf outcome.2).toList }

def inspect (w : World R) (recorderId : NodeId) (fault : Fault) (slot : Nat) : World R :=
  let inspected := RecorderRpc.inspectRecordSummary (w.recorders recorderId) fault slot
  { w with
    recorders := Function.update w.recorders recorderId inspected.1
    reports := w.reports ++ match inspected.2 with
      | .ok (some summary) =>
        [⟨recorderId, summary.context, RecorderRpc.register inspected.1 summary.context⟩]
      | _ => [] }

def observe (w : World R) (index worker : Nat) (fence : Fence) (recorderId : NodeId)
    (fault : Fault) : World R :=
  let observed := RecorderRpc.observeReadFence (w.recorders recorderId) fault
    (fence.engine.readFenceRequest fence.slot)
  { w with
    recorders := Function.update w.recorders recorderId observed.1
    fenceAnswers := w.fenceAnswers ++ [⟨index, worker, observed.2⟩] }

def step (w : World R) : Action Fault Event → Option (World R)
  | .start engine slot proposal command =>
    let driver : Driver := ⟨engine, startProgress slot proposal command⟩
    some { w with offers := w.offers ++ [driver], drivers := w.drivers ++ [driver] }
  | .broadcast index fetched sample => do
    let driver ← w.drivers[index]?
    match driver.engine.driveRequests driver.progress fetched sample with
    | .error _ => some w
    | .ok (progress, requests) =>
      some { w with calls := w.calls ++ [⟨driver.engine, progress, requests⟩] }
  | .deliver index worker fault => do
    let call ← w.calls[index]?
    let recorderId ← call.engine.membership.members[worker]?
    let request ← call.requests[worker]?
    some (w.deliver index worker call recorderId request fault)
  | .resume index saturatedWorkers arrivals fetched installs => do
    let call ← w.calls[index]?
    let results ← arrivals.mapM (w.arrive index)
    some (w.resume call ⟨saturatedWorkers, results⟩ fetched installs)
  | .install recorderId fault proof membership =>
    let r := (RecorderRpc.installDecisionProof (w.recorders recorderId) fault proof membership).1
    some { w with recorders := Function.update w.recorders recorderId r }
  | .inspect recorderId fault slot => some (w.inspect recorderId fault slot)
  | .occur recorderId event =>
    let r := RecorderRpc.occur (w.recorders recorderId) event
    some { w with recorders := Function.update w.recorders recorderId r }
  | .openFence engine slot =>
    if engine.membership.members.all fun k =>
        RecorderRpc.supportsContextReadFence (w.recorders k) then
      some { w with fences := w.fences ++ [⟨engine, slot, w.formed⟩] }
    else none
  | .observe index worker fault => do
    let fence ← w.fences[index]?
    let recorderId ← fence.engine.membership.members[worker]?
    some (w.observe index worker fence recorderId fault)
  | .closeFence index saturated arrivals => do
    let fence ← w.fences[index]?
    let results ← arrivals.mapM (w.arriveFence index)
    -- every worker sends one result to the call
    if (results.map (·.1)).Nodup then
      match fence.engine.gatherObservations fence.slot saturated 0 0 0 false results with
      | .empty => some { w with emptyFences := w.emptyFences ++ [fence] }
      | _ => some w
    else none

end Step

section Inversion

variable [Sha256] [RecorderRpc R Fault Event] {w w' : World R}

theorem step_broadcast {index : Nat} {fetched : ControlReplies (Option StoredCommand)}
    {sample : NodeId → Result ProposalPriority}
    (h : w.step (.broadcast index fetched sample : Action Fault Event) = some w') :
    w' = w ∨ ∃ driver ∈ w.drivers, ∃ progress requests,
      driver.engine.driveRequests driver.progress fetched sample = .ok (progress, requests) ∧
        w' = { w with calls := w.calls ++ [⟨driver.engine, progress, requests⟩] } := by
  obtain ⟨driver, hDriver, h⟩ := Option.bind_eq_some_iff.mp h
  split at h
  · exact .inl (Option.some.inj h).symm
  · rename_i progress requests hRequests
    exact .inr ⟨driver, List.mem_of_getElem? hDriver, progress, requests, hRequests,
      (Option.some.inj h).symm⟩

theorem step_deliver {index worker : Nat} {fault : Fault}
    (h : w.step (.deliver index worker fault : Action Fault Event) = some w') :
    ∃ call recorderId request, w.calls[index]? = some call ∧
      call.engine.membership.members[worker]? = some recorderId ∧
      call.requests[worker]? = some request ∧
      w' = w.deliver index worker call recorderId request fault := by
  obtain ⟨call, hCall, h⟩ := Option.bind_eq_some_iff.mp h
  obtain ⟨recorderId, hRecorder, h⟩ := Option.bind_eq_some_iff.mp h
  obtain ⟨request, hRequest, h⟩ := Option.bind_eq_some_iff.mp h
  exact ⟨call, recorderId, request, hCall, hRecorder, hRequest, (Option.some.inj h).symm⟩

omit [Sha256] in
theorem exists_of_mem_mapM {α β : Type} {f : α → Option β} {as : List α} {bs : List β}
    (h : as.mapM f = some bs) {b : β} (hb : b ∈ bs) : ∃ a ∈ as, f a = some b := by
  induction as generalizing bs with
  | nil =>
    obtain rfl : [] = bs := by simpa using h
    cases hb
  | cons a as ih =>
    rw [List.mapM_cons] at h
    obtain ⟨b', hb', h⟩ := Option.bind_eq_some_iff.mp h
    obtain ⟨bs', hbs', h⟩ := Option.bind_eq_some_iff.mp h
    obtain rfl := Option.some.inj h
    rcases List.mem_cons.mp hb with rfl | hb
    · exact ⟨a, List.mem_cons_self, hb'⟩
    · obtain ⟨a', ha', hf⟩ := ih hbs' hb
      exact ⟨a', List.mem_cons_of_mem _ ha', hf⟩

omit [Sha256] in
theorem mem_answers_of_arrive {call index : Nat} {arrival : Arrival} {reply : RecordSummary}
    (h : w.arrive call arrival = some (index, .ok reply)) :
    ∃ answer ∈ w.answers, answer.call = call ∧ answer.result = .ok reply := by
  cases arrival with
  | failure worker error => cases h
  | answer position =>
    simp only [arrive] at h
    split at h
    · rename_i answer hAnswer
      split at h
      · rename_i hCall
        obtain ⟨-, hResult⟩ := Prod.mk.inj (Option.some.inj h)
        exact ⟨answer, List.mem_of_getElem? hAnswer, hCall, hResult⟩
      · cases h
    · cases h

theorem step_resume {index : Nat} {saturatedWorkers : List Bool} {arrivals : List Arrival}
    {fetched : ControlReplies (Option StoredCommand)} {installs : ControlReplies Unit}
    (h : w.step (.resume index saturatedWorkers arrivals fetched installs : Action Fault Event) =
      some w') :
    ∃ call answers, w.calls[index]? = some call ∧
      (∀ i reply, (i, .ok reply) ∈ answers.results →
        ∃ answer ∈ w.answers, answer.call = index ∧ answer.result = .ok reply) ∧
      w' = w.resume call answers fetched installs := by
  obtain ⟨call, hCall, h⟩ := Option.bind_eq_some_iff.mp h
  obtain ⟨results, hResults, h⟩ := Option.bind_eq_some_iff.mp h
  refine ⟨call, ⟨saturatedWorkers, results⟩, hCall, ?_, (Option.some.inj h).symm⟩
  intro i reply hReply
  obtain ⟨arrival, -, hArrive⟩ := exists_of_mem_mapM hResults hReply
  exact mem_answers_of_arrive hArrive

theorem step_observe {index worker : Nat} {fault : Fault}
    (h : w.step (.observe index worker fault : Action Fault Event) = some w') :
    ∃ fence recorderId, w.fences[index]? = some fence ∧
      fence.engine.membership.members[worker]? = some recorderId ∧
      w' = w.observe index worker fence recorderId fault := by
  obtain ⟨fence, hFence, h⟩ := Option.bind_eq_some_iff.mp h
  obtain ⟨recorderId, hRecorder, h⟩ := Option.bind_eq_some_iff.mp h
  exact ⟨fence, recorderId, hFence, hRecorder, (Option.some.inj h).symm⟩

theorem step_closeFence {index saturated : Nat} {arrivals : List Arrival}
    (h : w.step (.closeFence index saturated arrivals : Action Fault Event) = some w') :
    ∃ fence results, w.fences[index]? = some fence ∧
      arrivals.mapM (w.arriveFence index) = some results ∧ (results.map (·.1)).Nodup ∧
      (w' = w ∨ fence.engine.gatherObservations fence.slot saturated 0 0 0 false results = .empty ∧
        w' = { w with emptyFences := w.emptyFences ++ [fence] }) := by
  obtain ⟨fence, hFence, h⟩ := Option.bind_eq_some_iff.mp h
  obtain ⟨results, hResults, h⟩ := Option.bind_eq_some_iff.mp h
  split at h
  · rename_i hNodup
    refine ⟨fence, results, hFence, hResults, hNodup, ?_⟩
    split at h
    · rename_i hEmpty
      exact .inr ⟨hEmpty, (Option.some.inj h).symm⟩
    · exact .inl (Option.some.inj h).symm
  · cases h

theorem step_openFence {engine : ThreeNodeConsensus} {slot : Nat}
    (h : w.step (.openFence engine slot : Action Fault Event) = some w') :
    w' = { w with fences := w.fences ++ [⟨engine, slot, w.formed⟩] } := by
  simp only [step] at h
  split at h
  · exact (Option.some.inj h).symm
  · cases h

end Inversion

end World

/-! A cluster of three, for runs on fixed inputs. -/

namespace Trio

theorem canonical : CanonicalMembers ["a", "b", "c"] := by decide

def group : Group := ⟨"trio", 1, 1, ⟨["a", "b", "c"], canonical⟩⟩

def engine (proposerId : NodeId) : ThreeNodeConsensus := ⟨group, proposerId⟩

def command (b : UInt8) : StoredCommand := ⟨.command, [b]⟩

def fetch (commands : List StoredCommand) : ControlReplies (Option StoredCommand) :=
  ⟨0, commands.map fun command => .ok (some command)⟩

def noInstalls : ControlReplies Unit := ⟨0, []⟩

def priority (n : Nat) : NodeId → Result ProposalPriority := fun _ => .ok (.fromU64 n)

def resume {Fault Event : Type} (call : Nat) (answers : List Nat)
    (commands : List StoredCommand) : Action Fault Event :=
  .resume call [false, false, false] (answers.map .answer) (fetch commands) noInstalls

section Values

variable [Sha256]

def value (slot : Nat) (b : UInt8) : AcceptedValue :=
  .fromCommand group.clusterId slot group.epoch group.configId .zero (command b)

/-- The proposal of `propose_stored_at_until` for the command. -/
def proposal (proposerId : NodeId) (proposalId slot : Nat) (b : UInt8) : Proposal :=
  ⟨.max, proposerId, proposalId, some (value slot b)⟩

def start {Fault Event : Type} (proposerId : NodeId) (proposalId slot : Nat) (b : UInt8) :
    Action Fault Event :=
  .start (engine proposerId) slot (proposal proposerId proposalId slot b) (some (command b))

end Values

scoped instance hash : Sha256 := Sha256.rolling

end Trio

end Rhiza.Quepaxa
