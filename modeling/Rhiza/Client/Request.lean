import Rhiza.Node.Outcome

/-! # Requests of `rhiza-client`

`json_request` sends one request to its endpoints, one after the other or hedged,
and returns with the first answer that it does not retry. The attempts are sent to
nodes that execute them on their own, also when the client has stopped waiting.
-/

namespace Rhiza.Client

open Rhiza.Core Rhiza.Library Rhiza.Node

inductive ClientErrorDetail
  | missingEndpoint
  | transport (detail : String)
  | attemptDeadline
  | attemptTaskFailed
  | operationDeadline
  | invalidResponse
  /-- An answer of a server. -/
  | http
  deriving DecidableEq

structure ClientError where
  code : String
  retryable : Bool
  detail : ClientErrorDetail
  deriving DecidableEq

namespace ClientError

def missingEndpoint : ClientError := ⟨"missing_endpoint", true, .missingEndpoint⟩
def transport (detail : String) : ClientError := ⟨"transport_error", true, .transport detail⟩
def attemptDeadline : ClientError := ⟨"attempt_deadline_exceeded", true, .attemptDeadline⟩
def attemptTaskFailed : ClientError := ⟨"attempt_task_failed", false, .attemptTaskFailed⟩
def operationDeadline : ClientError := ⟨"operation_deadline_exceeded", true, .operationDeadline⟩

def invalidResponse : ClientError := ⟨"invalid_response", false, .invalidResponse⟩

def httpStatus (status : Nat) : ClientError :=
  ⟨"http_error", status = 429 || status = 502 || status = 503 || status = 504, .http⟩

def server (code : String) (retryable : Bool) : ClientError := ⟨code, retryable, .http⟩

def IsDefinitive (error : ClientError) : Prop :=
  error.retryable = false ∧ error.detail = .http ∧ error.code ≠ "request_conflict"

end ClientError

/-- One attempt. `call` is the call of the node that it has become, `lost` says that
it never becomes one, and `running` that the client waits for it. -/
structure Attempt where
  node : Nat
  call : Option Nat
  lost : Bool
  running : Bool
  deriving DecidableEq

/-- A call of `json_request`. `next` is the number of attempts. -/
structure Request (S : Type) where
  requestId : String
  payload : Bytes
  statements : List S
  endpoints : List Nat
  hedge : Bool
  attempts : List Attempt
  lastError : Option ClientError
  result : Option (Except ClientError Nat)
  deriving DecidableEq

variable {D S E : Type}

namespace Request

variable (r : Request S)

/-- `spawn_client_attempt` for the next endpoint, if there is one. -/
def spawnNext : Request S :=
  match r.endpoints[r.attempts.length]? with
  | none => r
  | some node => { r with attempts := r.attempts ++ [⟨node, none, false, true⟩] }

/-- `abort_all` and return. -/
def finish (result : Except ClientError Nat) : Request S :=
  { r with attempts := r.attempts.map fun attempt => { attempt with running := false }
           result := some result }

def loopHead : Request S :=
  if (∀ attempt ∈ r.attempts, attempt.running = false) ∧ r.attempts.length = r.endpoints.length then
    r.finish (.error (r.lastError.getD .missingEndpoint))
  else r

def retry (i : Nat) (attempt : Attempt) (error : ClientError) : Request S :=
  { r with attempts := r.attempts.set i { attempt with running := false }
           lastError := some error }

def join (i : Nat) (attempt : Attempt) : Except ClientError Nat → Request S
  | .ok index => r.finish (.ok index)
  | .error error =>
    if error.retryable = false then r.finish (.error error)
    else (r.retry i attempt error).spawnNext.loopHead

/-- A request as `json_request` starts it: with its first attempt. -/
def start (requestId : String) (payload : Bytes) (statements : List S) (endpoints : List Nat)
    (hedge : Bool) : Request S :=
  spawnNext ⟨requestId, payload, statements, endpoints, hedge, [], none, none⟩

end Request

/-- What `client_attempt_response` makes of the answer of a call. -/
def answerResult : Except NodeError Nat → Except ClientError Nat
  | .ok index => .ok index
  | .error error => .error (.server error.classification.1 error.classification.2)

structure System (S E : Type) where
  world : World S E
  request : Request S
  deriving DecidableEq

inductive Action (S E : Type)
  /-- Any event on the nodes, also calls of other clients. -/
  | server (event : Event S E)
  /-- The request of an attempt reaches its node. -/
  | deliver (attempt : Nat)
  /-- The request of an attempt is lost on the way, or the node refuses it unread. -/
  | lose (attempt : Nat)
  /-- The answer of its call reaches the client. -/
  | answer (attempt : Nat)
  /-- The node answers before the call has ended, or in place of it. -/
  | interim (attempt : Nat) (code : String) (retryable : Bool)
  /-- An error status without a readable body. -/
  | status (attempt : Nat) (status : Nat)
  /-- A success without a readable body. -/
  | invalidResponse (attempt : Nat)
  | transport (attempt : Nat) (detail : String)
  | deadline (attempt : Nat)
  | taskFailed (attempt : Nat)
  | hedge
  | operationDeadline

namespace System

variable (s : System S E)

def join (i : Nat) (result : Except ClientError Nat) : Option (System S E) := do
  let attempt ← s.request.attempts[i]?
  if attempt.running ∧ s.request.result = none then
    some { s with request := s.request.join i attempt result }
  else none

def deliver (i : Nat) : Option (System S E) := do
  let attempt ← s.request.attempts[i]?
  if attempt.call = none ∧ attempt.lost = false then
    let delivered := { attempt with call := some s.world.calls.length }
    some
      { world := s.world.arrive attempt.node s.request.requestId s.request.payload
          s.request.statements
        request := { s.request with attempts := s.request.attempts.set i delivered } }
  else none

def lose (i : Nat) : Option (System S E) := do
  let attempt ← s.request.attempts[i]?
  if attempt.call = none then
    let lost := { attempt with lost := true }
    some { s with request := { s.request with attempts := s.request.attempts.set i lost } }
  else none

def answerOf (i : Nat) : Option (Cause × Except NodeError Nat) := do
  let attempt ← s.request.attempts[i]?
  let c ← attempt.call
  let call ← s.world.calls[c]?
  match call.phase with
  | .answered cause answer => some (cause, answer)
  | _ => none

def step [DecidableEq S] [DecidableEq E] (engine : Engine D S E) :
    Action S E → Option (System S E)
  | .server event => do
    let world ← s.world.step engine event
    some { s with world }
  | .deliver i => s.deliver i
  | .lose i => s.lose i
  | .answer i => do
    let answer ← s.answerOf i
    s.join i (answerResult answer.2)
  | .interim i code retryable => s.join i (.error (.server code retryable))
  | .status i status => s.join i (.error (.httpStatus status))
  | .invalidResponse i => s.join i (.error .invalidResponse)
  | .transport i detail => s.join i (.error (.transport detail))
  | .deadline i => s.join i (.error .attemptDeadline)
  | .taskFailed i => s.join i (.error .attemptTaskFailed)
  | .hedge =>
    if s.request.hedge ∧ s.request.attempts.length < s.request.endpoints.length ∧
        s.request.result = none then
      some { s with request := s.request.spawnNext }
    else none
  | .operationDeadline =>
    if s.request.result = none then
      let error := s.request.lastError.getD .operationDeadline
      some { s with request := s.request.finish (.error error) }
    else none

def TookEffect : Prop :=
  ∃ attempt ∈ s.request.attempts, ∃ c, attempt.call = some c ∧
    ∃ entry ∈ s.world.log, entry.owner = some c

def EndedDefinitively : Prop :=
  ∃ error, s.request.result = some (.error error) ∧ error.IsDefinitive

def Spent (attempt : Attempt) : Prop :=
  (attempt.call = none ∧ attempt.lost = true) ∨
    ∃ c call answer, attempt.call = some c ∧ s.world.calls[c]? = some call ∧
      (call.phase = .answered .refused answer ∨ call.phase = .answered .rejected answer)

def Conclusive : Action S E → Prop
  | .answer i => ∀ answer error, s.answerOf i = some answer → answerResult answer.2 = .error error →
      error.IsDefinitive → ∀ attempt ∈ s.request.attempts, s.Spent attempt
  | .interim _ code retryable => (ClientError.server code retryable).IsDefinitive →
      ∀ attempt ∈ s.request.attempts, s.Spent attempt
  | .status _ status => (ClientError.httpStatus status).IsDefinitive →
      ∀ attempt ∈ s.request.attempts, s.Spent attempt
  | _ => True

variable {s} {s' : System S E}

theorem Spent.congr {attempt attempt' : Attempt} (h : s.Spent attempt)
    (hCall : attempt'.call = attempt.call) (hLost : attempt'.lost = attempt.lost)
    (hWorld : s'.world = s.world) : s'.Spent attempt' := by
  rwa [Spent, hCall, hLost, hWorld]

theorem Spent.step [DecidableEq S] [DecidableEq E] {engine : Engine D S E} {event : Event S E}
    {attempt : Attempt} {world : World S E} (h : s.Spent attempt)
    (hStep : s.world.step engine event = some world) :
    ({ s with world } : System S E).Spent attempt := by
  obtain hLost | ⟨c, call, answer, hCall, hHere, hPhase⟩ := h
  · exact .inl hLost
  · refine .inr ⟨c, call, answer, hCall, ?_, hPhase⟩
    obtain hRefused | hRejected := hPhase
    · exact answered_of_step hStep hHere hRefused
    · exact answered_of_step hStep hHere hRejected

structure Sound (s : System S E) : Prop where
  lawful : Lawful s.world
  retried : ∀ error, s.request.lastError = some error → error.retryable = true
  spent : s.EndedDefinitively → ∀ attempt ∈ s.request.attempts, s.Spent attempt

theorem not_ended_of_none (h : s.request.result = none) : ¬s.EndedDefinitively := by
  rintro ⟨error, hResult, -⟩
  rw [h] at hResult
  cases hResult

theorem Sound.tookEffect (h : s.Sound) (hEnded : s.EndedDefinitively) : ¬s.TookEffect := by
  rintro ⟨attempt, hAttempt, c, hCall, entry, hEntry, hOwner⟩
  obtain ⟨hNone, -⟩ | ⟨c', call, answer, hCall', hHere, hPhase⟩ := h.spent hEnded attempt hAttempt
  · rw [hNone] at hCall
    cases hCall
  · rw [hCall] at hCall'
    cases hCall'
    have hDuty := h.lawful.duty c call hHere
    obtain hRefused | hRejected := hPhase
    · rw [hRefused] at hDuty
      exact hDuty.absent entry hEntry hOwner
    · rw [hRejected] at hDuty
      exact hDuty.absent entry hEntry hOwner

theorem not_definitive_of_retryable {error : ClientError} (h : error.retryable = true) :
    ¬error.IsDefinitive := by
  rintro ⟨hRetryable, -⟩
  rw [h] at hRetryable
  cases hRetryable

theorem Sound.finish_retryable (h : s.Sound) {error : ClientError} (hError : error.retryable = true) :
    ({ s with request := s.request.finish (.error error) } : System S E).Sound where
  lawful := h.lawful
  retried := h.retried
  spent hEnded := by
    obtain ⟨error', hResult, hDefinitive⟩ := hEnded
    cases hResult
    exact absurd hDefinitive (not_definitive_of_retryable hError)

theorem Sound.finish_definitive (h : s.Sound) {error : ClientError}
    (hSpent : error.IsDefinitive → ∀ attempt ∈ s.request.attempts, s.Spent attempt) :
    ({ s with request := s.request.finish (.error error) } : System S E).Sound where
  lawful := h.lawful
  retried := h.retried
  spent hEnded := by
    obtain ⟨error', hResult, hDefinitive⟩ := hEnded
    cases hResult
    intro attempt hAttempt
    obtain ⟨attempt', hMember, rfl⟩ := List.mem_map.mp hAttempt
    exact (hSpent hDefinitive attempt' hMember).congr rfl rfl rfl

theorem Sound.finish_ok (h : s.Sound) (index : Nat) :
    ({ s with request := s.request.finish (.ok index) } : System S E).Sound where
  lawful := h.lawful
  retried := h.retried
  spent hEnded := by
    obtain ⟨error, hResult, -⟩ := hEnded
    cases hResult

theorem Sound.spawnNext (h : s.Sound) (hNone : s.request.result = none) :
    ({ s with request := s.request.spawnNext } : System S E).Sound ∧
      s.request.spawnNext.result = none := by
  have hResult : s.request.spawnNext.result = none := by
    unfold Request.spawnNext
    split
    · exact hNone
    · exact hNone
  have hLast : s.request.spawnNext.lastError = s.request.lastError := by
    unfold Request.spawnNext
    split <;> rfl
  exact ⟨⟨h.lawful, fun error hError => h.retried error (hLast ▸ hError),
    fun hEnded => absurd hEnded (not_ended_of_none hResult)⟩, hResult⟩

theorem Sound.loopHead (h : s.Sound) :
    ({ s with request := s.request.loopHead } : System S E).Sound := by
  unfold Request.loopHead
  split
  · refine h.finish_retryable ?_
    cases hLast : s.request.lastError with
    | none => rfl
    | some error => exact h.retried error hLast
  · exact h

theorem Sound.join (h : s.Sound) {i : Nat} {result : Except ClientError Nat}
    (hSpent : ∀ error, result = .error error → error.IsDefinitive →
      ∀ attempt ∈ s.request.attempts, s.Spent attempt)
    (hJoin : s.join i result = some s') : s'.Sound := by
  obtain ⟨attempt, -, hJoin⟩ := Option.bind_eq_some_iff.mp hJoin
  split at hJoin
  · rename_i hRunning
    cases hJoin
    cases result with
    | ok index => exact h.finish_ok index
    | error error =>
      by_cases hRetryable : error.retryable = false
      · rw [Request.join, if_pos hRetryable]
        exact h.finish_definitive (hSpent error rfl)
      · rw [Request.join, if_neg hRetryable]
        have hEnded : ({ s with request := s.request.retry i attempt error } : System S E).Sound := by
          refine ⟨h.lawful, fun error' hError' => ?_,
            fun hEnded => absurd hEnded (not_ended_of_none hRunning.2)⟩
          cases hError'
          exact Bool.eq_true_of_not_eq_false hRetryable
        exact (hEnded.spawnNext hRunning.2).1.loopHead
  · cases hJoin

theorem Sound.deliver (h : s.Sound) {i : Nat} (hStep : s.deliver i = some s') : s'.Sound := by
  obtain ⟨attempt, hAttempt, hStep⟩ := Option.bind_eq_some_iff.mp hStep
  split at hStep
  · rename_i hOpen
    cases hStep
    refine ⟨h.lawful.arrive _ _ _ _, h.retried, fun hEnded => ?_⟩
    -- a spent attempt without a call was lost
    exfalso
    obtain ⟨-, hLost⟩ | ⟨c, call, answer, hCall, -⟩ :=
      h.spent hEnded attempt (List.mem_of_getElem? hAttempt)
    · rw [hOpen.2] at hLost
      cases hLost
    · rw [hOpen.1] at hCall
      cases hCall
  · cases hStep

theorem Sound.lose (h : s.Sound) {i : Nat} (hStep : s.lose i = some s') : s'.Sound := by
  obtain ⟨attempt, hAttempt, hStep⟩ := Option.bind_eq_some_iff.mp hStep
  split at hStep
  · rename_i hOpen
    cases hStep
    refine ⟨h.lawful, h.retried, fun hEnded attempt' hAttempt' => ?_⟩
    rcases List.mem_or_eq_of_mem_set hAttempt' with hOld | rfl
    · exact (h.spent hEnded attempt' hOld).congr rfl rfl rfl
    · exact .inl ⟨hOpen, rfl⟩
  · cases hStep

theorem Sound.step [DecidableEq S] [DecidableEq E] {engine : Engine D S E} {action : Action S E}
    (h : s.Sound) (hConclusive : s.Conclusive action) (hStep : s.step engine action = some s') :
    s'.Sound := by
  cases action with
  | server event =>
    obtain ⟨world, hWorld, hStep⟩ := Option.bind_eq_some_iff.mp hStep
    cases hStep
    exact ⟨h.lawful.step hWorld, h.retried,
      fun hEnded attempt hAttempt => (h.spent hEnded attempt hAttempt).step hWorld⟩
  | deliver i => exact h.deliver hStep
  | lose i => exact h.lose hStep
  | answer i =>
    obtain ⟨answer, hAnswer, hStep⟩ := Option.bind_eq_some_iff.mp hStep
    exact h.join (fun error => hConclusive answer error hAnswer) hStep
  | interim i code retryable =>
    refine h.join (fun error hError hDefinitive => ?_) hStep
    cases hError
    exact hConclusive hDefinitive
  | status i status =>
    refine h.join (fun error hError hDefinitive => ?_) hStep
    cases hError
    exact hConclusive hDefinitive
  | invalidResponse i =>
    refine h.join (fun error hError hDefinitive => ?_) hStep
    cases hError
    exact absurd hDefinitive.2.1 nofun
  | transport i detail =>
    refine h.join (fun error hError hDefinitive => ?_) hStep
    cases hError
    exact absurd hDefinitive (not_definitive_of_retryable rfl)
  | deadline i =>
    refine h.join (fun error hError hDefinitive => ?_) hStep
    cases hError
    exact absurd hDefinitive (not_definitive_of_retryable rfl)
  | taskFailed i =>
    refine h.join (fun error hError hDefinitive => ?_) hStep
    cases hError
    exact absurd hDefinitive.2.1 nofun
  | hedge =>
    simp only [System.step] at hStep
    split at hStep
    · rename_i hMore
      cases hStep
      exact (h.spawnNext hMore.2.2).1
    · cases hStep
  | operationDeadline =>
    simp only [System.step] at hStep
    split at hStep
    · cases hStep
      refine h.finish_retryable ?_
      cases hLast : s.request.lastError with
      | none => rfl
      | some error => exact h.retried error hLast
    · cases hStep

theorem Sound.start {world : World S E} (h : Lawful world) (requestId : String) (payload : Bytes)
    (statements : List S) (endpoints : List Nat) (hedge : Bool) :
    (⟨world, .start requestId payload statements endpoints hedge⟩ : System S E).Sound := by
  have hBefore : (⟨world, ⟨requestId, payload, statements, endpoints, hedge, [], none, none⟩⟩ :
      System S E).Sound :=
    ⟨h, nofun, fun hEnded => absurd hEnded (not_ended_of_none rfl)⟩
  exact (hBefore.spawnNext rfl).1

theorem definitive_error_has_no_effect [DecidableEq S] [DecidableEq E] {engine : Engine D S E}
    {nodes : Nat} {world : World S E}
    (hBefore : Run (World.step · engine) (fun _ _ => True) (World.initial nodes) world)
    (requestId : String) (payload : Bytes) (statements : List S) (endpoints : List Nat) (hedge : Bool)
    (hRun : Run (System.step · engine) Conclusive
      ⟨world, .start requestId payload statements endpoints hedge⟩ s)
    (hEnded : s.EndedDefinitively) : ¬s.TookEffect := by
  have hLawful : Lawful world := by
    refine Run.invariant (P := Lawful) (Lawful.initial nodes) ?_ hBefore
    intro w event w' hw _ hStep
    exact hw.step hStep
  have hSound : s.Sound := by
    refine Run.invariant (P := Sound)
      (Sound.start hLawful requestId payload statements endpoints hedge) ?_ hRun
    intro t action t' ht hConclusive hStep
    exact ht.step hConclusive hStep
  exact hSound.tookEffect hEnded

def isSpent (s : System S E) (attempt : Attempt) : Bool :=
  match attempt.call with
  | none => attempt.lost
  | some c =>
    match s.world.calls[c]? with
    | none => false
    | some call =>
      match call.phase with
      | .answered .refused _ => true
      | .answered .rejected _ => true
      | _ => false

theorem spent_of_isSpent {attempt : Attempt} (h : s.isSpent attempt = true) : s.Spent attempt := by
  unfold isSpent at h
  split at h
  · rename_i hNone
    exact .inl ⟨hNone, h⟩
  · rename_i c hCall
    split at h
    · cases h
    · rename_i call hHere
      split at h
      · rename_i answer hPhase
        exact .inr ⟨c, call, answer, hCall, hHere, .inl hPhase⟩
      · rename_i answer hPhase
        exact .inr ⟨c, call, answer, hCall, hHere, .inr hPhase⟩
      · cases h

def concludes (s : System S E) : Action S E → Bool
  | .answer _ => s.request.attempts.all s.isSpent
  | .interim _ _ _ => s.request.attempts.all s.isSpent
  | .status _ _ => s.request.attempts.all s.isSpent
  | _ => true

theorem conclusive_of_concludes {action : Action S E} (h : s.concludes action = true) :
    s.Conclusive action := by
  cases action with
  | answer i =>
    intro _ _ _ _ _ attempt hAttempt
    exact spent_of_isSpent (List.all_eq_true.mp h attempt hAttempt)
  | interim i code retryable =>
    intro _ attempt hAttempt
    exact spent_of_isSpent (List.all_eq_true.mp h attempt hAttempt)
  | status i status =>
    intro _ attempt hAttempt
    exact spent_of_isSpent (List.all_eq_true.mp h attempt hAttempt)
  | _ => trivial

end System

namespace Failover

open OneTable

def before : World Statement Database where
  log := [created]
  proposals := [(1, created)]
  nodes := [⟨1, false⟩, ⟨0, false⟩]
  calls := [createCall]
  acked := 1

theorem run_before :
    Run (World.step · engine) (fun _ _ => True) (World.initial 2) before := by
  have hEvents : execute (World.step · engine) (World.initial 2)
      [.arrive 0 "create" [1] [.createTable], .check 0, .prepare 0, .decide 0, .persist 0] =
      some before := by decide
  exact Run.of_execute (fun _ _ _ => trivial) hEvents

def insertAt (endpoints : List Nat) : System Statement Database :=
  ⟨before, .start "insert" [2] [.insert] endpoints true⟩

/-- The attempt at node 0 is proposed and times out, node 1 rejects the statement, and
then the proposal is decided. -/
def failover : List (Action Statement Database) :=
  [.deliver 0, .server (.check 1), .server (.prepare 1), .deadline 0, .deliver 1,
    .server (.check 2), .server (.prepare 2), .answer 1, .server (.decide 1)]

/-- The client has a definitive error, and the entry of its first attempt is decided. -/
def committedLate (s : System Statement Database) : Bool :=
  s.request.result = some (.error (.server "invalid_request" false)) &&
    s.request.attempts[0]?.map (·.call) = some (some 1) &&
    s.world.log[1]?.map (·.owner) = some (some 1)

theorem definitive_error_then_commit :
    ∃ s, Run (System.step · engine) (fun _ _ => True) (insertAt [0, 1]) s ∧
      s.EndedDefinitively ∧ s.TookEffect := by
  have hRun : (execute (System.step · engine) (insertAt [0, 1]) failover).any committedLate = true := by
    decide
  obtain ⟨s, hs, hLate⟩ := (Option.any_eq_true _ _).mp hRun
  obtain ⟨hBoth, hOwner⟩ := (Bool.and_eq_true _ _).mp hLate
  obtain ⟨hResult, hCall⟩ := (Bool.and_eq_true _ _).mp hBoth
  obtain ⟨attempt, hAttempt, hCall⟩ := Option.map_eq_some_iff.mp (of_decide_eq_true hCall)
  obtain ⟨entry, hEntry, hOwner⟩ := Option.map_eq_some_iff.mp (of_decide_eq_true hOwner)
  refine ⟨s, Run.of_execute (fun _ _ _ => trivial) hs, ?_, ?_⟩
  · exact ⟨_, of_decide_eq_true hResult, rfl, rfl, by decide⟩
  · exact ⟨attempt, List.mem_of_getElem? hAttempt, 1, hCall, entry, List.mem_of_getElem? hEntry,
      hOwner⟩

/-- The first attempt is lost on its way to node 0, and node 1 rejects the statement. -/
theorem lost_then_rejected :
    ∃ s, Run (System.step · engine) System.Conclusive (insertAt [0, 1]) s ∧ s.EndedDefinitively ∧
      ¬s.TookEffect := by
  have hPlay : (play (System.step · engine) System.concludes (insertAt [0, 1])
      ([.lose 0, .deadline 0, .deliver 1, .server (.check 1), .server (.prepare 1), .answer 1].map
        fun action _ => some action)).any
      (fun s => s.request.result = some (.error (.server "invalid_request" false))) = true := by
    decide
  obtain ⟨s, hs, hResult⟩ := (Option.any_eq_true _ _).mp hPlay
  have hRun := Run.of_play (fun t action => System.conclusive_of_concludes) hs
  have hEnded : s.EndedDefinitively := ⟨_, of_decide_eq_true hResult, rfl, rfl, by decide⟩
  exact ⟨s, hRun, hEnded, System.definitive_error_has_no_effect run_before "insert" [2] [.insert]
    [0, 1] true hRun hEnded⟩

end Failover

end Rhiza.Client
