import Rhiza.Library.Assoc
import Rhiza.Library.Parties
import Rhiza.Library.Run
import Rhiza.Node.GroupCommit

/-! # Writes in flight

A client's write enters `write_operations` under its request id and goes to the
writer loop through a channel. Another handler with the same request id and
payload waits for the same answer. The loop takes writes in batches, executes them,
answers and removes the entries. A handler can be dropped wherever it waits.
-/

namespace Rhiza.Node

open Rhiza.Core Rhiza.Library

variable {Response : Type}

inductive WriteOperationResult (Response : Type)
  | runtime (result : MemberResult Response)
  | durabilityUnavailable
  deriving DecidableEq

/-- An error response of `client_error_response`. -/
structure ClientErrorResponse where
  status : Nat
  code : String
  retryable : Bool
  message : String
  deriving DecidableEq

def requestConflict : ClientErrorResponse where
  status := 409
  code := "request_conflict"
  retryable := false
  message := "request id is already in flight with a different payload"

def writerQueueUnavailable : ClientErrorResponse where
  status := 503
  code := "durability_unavailable"
  retryable := true
  message := "writer queue is unavailable"

def writeNotQueued : ClientErrorResponse where
  status := 503
  code := "write_timeout"
  retryable := true
  message := "write did not enter the queue before the response deadline"

def writeNotCompleted : ClientErrorResponse where
  status := 503
  code := "write_timeout"
  retryable := true
  message := "write did not complete before the response deadline"

structure Watch (Response : Type) where
  request : RuntimeBatchMember
  value : Option (WriteOperationResult Response)
  /-- Its sender was dropped. -/
  closed : Bool
  deriving DecidableEq

structure WriteOperation where
  payload : Bytes
  result : Nat
  deriving DecidableEq

structure QueuedWrite where
  requestId : String
  payload : Bytes
  sender : Nat
  deriving DecidableEq

def QueuedWrite.ticket (queued : QueuedWrite) : String × Nat := (queued.requestId, queued.sender)

def QueuedWrite.member (queued : QueuedWrite) : RuntimeBatchMember where
  requestId := queued.requestId
  payload := queued.payload

inductive HandlerPhase (Response : Type)
  /-- In `write_operations.lock`, with its permit. -/
  | locking
  | sending (queued : QueuedWrite)
  /-- In `write_operations.lock` again, after a send that failed. -/
  | abandoning (error : ClientErrorResponse)
  /-- `permit` says that it has still its own. -/
  | waiting (receiver : Nat) (permit : Bool)
  | received (result : WriteOperationResult Response)
  | refused (error : ClientErrorResponse)
  | cancelled
  deriving DecidableEq

structure WriteHandler (Response : Type) where
  request : RuntimeBatchMember
  phase : HandlerPhase Response
  deriving DecidableEq

inductive WriterPhase (Response : Type)
  | receiving
  | collecting (queued : List QueuedWrite)
  /-- In `execute_client_batch`. -/
  | executing (members : List RuntimeBatchMember) (dispatch : List (String × Nat))
  /-- In `confirm_write_durability`. -/
  | confirming (members : List RuntimeBatchMember) (dispatch : List (String × Nat))
      (results : List (MemberResult Response)) (index : Nat)
  /-- Before `send_replace`; `last` says that the loop ends after these. -/
  | answering (pending : List ((String × Nat) × WriteOperationResult Response)) (last : Bool)
  /-- In `write_operations.lock`, after `send_replace`. -/
  | removing (ticket : String × Nat)
      (pending : List ((String × Nat) × WriteOperationResult Response)) (last : Bool)
  | stopped
  deriving DecidableEq

structure WriterBatch (Response : Type) where
  members : List RuntimeBatchMember
  results : List (MemberResult Response)
  durable : Bool
  deriving DecidableEq

structure WriteSystem (Response : Type) where
  writeOperations : List (String × WriteOperation)
  channel : List QueuedWrite
  watches : List (Watch Response)
  handlers : List (WriteHandler Response)
  writer : WriterPhase Response
  /-- The router holds a sender and the runtime. -/
  router : Bool
  /-- The permits of requests that are not writes. -/
  others : Nat
  batches : List (WriterBatch Response)
  deriving DecidableEq

structure WriterConfig (Response : Type) where
  clientConcurrency : Nat
  batchMax : Nat
  appliedIndex : Response → Nat

inductive WriteEvent (Response : Type)
  /-- A write passes `client_gate`. -/
  | submit (request : RuntimeBatchMember)
  /-- Another request passes it. -/
  | acquire
  | release
  | dropRouter
  | lock (handler : Nat)
  | send (handler : Nat)
  | abandon (handler : Nat)
  | wait (handler : Nat)
  | timeout (handler : Nat)
  | cancel (handler : Nat)
  | receive
  | collect
  /-- The window is over, or the batch is full; `upgraded` says that the runtime is there. -/
  | dispatch (upgraded : Bool)
  /-- One result for each place of the batch, or the task panics. -/
  | execute (results : Except String (Nat → MemberResult Response))
  | confirm (durable : Bool)
  | answer
  | remove

namespace HandlerPhase

def running : HandlerPhase Response → Bool
  | .received _ | .refused _ | .cancelled => false
  | _ => true

def permits : HandlerPhase Response → Nat
  | .locking | .sending _ | .waiting _ true => 1
  | _ => 0

@[simp] theorem permits_locking : (locking : HandlerPhase Response).permits = 1 := rfl

@[simp] theorem permits_sending (queued : QueuedWrite) :
    (sending queued : HandlerPhase Response).permits = 1 := rfl

@[simp] theorem permits_waiting_own (receiver : Nat) :
    (waiting receiver false : HandlerPhase Response).permits = 0 := rfl

def held : HandlerPhase Response → List (String × Nat)
  | .sending queued => [queued.ticket]
  | _ => []

@[simp] theorem held_locking : (locking : HandlerPhase Response).held = [] := rfl

@[simp] theorem held_sending (queued : QueuedWrite) :
    (sending queued : HandlerPhase Response).held = [queued.ticket] := rfl

@[simp] theorem held_waiting (receiver : Nat) (permit : Bool) :
    (waiting receiver permit : HandlerPhase Response).held = [] := rfl

end HandlerPhase

namespace WriterPhase

def permits : WriterPhase Response → Nat
  | .collecting queued => queued.length
  | .executing _ dispatch => dispatch.length
  | .answering pending true => pending.length
  | .removing _ pending true => pending.length + 1
  | _ => 0

def held : WriterPhase Response → List (String × Nat)
  | .collecting queued => queued.map QueuedWrite.ticket
  | .executing _ dispatch | .confirming _ dispatch _ _ => dispatch
  | .answering pending _ => pending.map Prod.fst
  | .removing ticket pending _ => ticket :: pending.map Prod.fst
  | _ => []

end WriterPhase

def delivered (durable : Bool) (result : MemberResult Response) : WriteOperationResult Response :=
  match durable, result with
  | false, .ok _ => .durabilityUnavailable
  | _, result => .runtime result

def batchResults (members : List RuntimeBatchMember) (dispatch : List (String × Nat)) :
    Except String (Nat → MemberResult Response) → List (MemberResult Response)
  | .ok results => (List.range members.length).map results
  | .error error =>
    List.replicate dispatch.length (.error (.fatal s!"writer batch task failed: {error}"))

def committedIndex (appliedIndex : Response → Nat) (results : List (MemberResult Response)) :
    Option Nat :=
  (results.filterMap fun result => result.toOption.map appliedIndex).max?

namespace WriteSystem

def initial (Response : Type) : WriteSystem Response where
  writeOperations := []
  channel := []
  watches := []
  handlers := []
  writer := .receiving
  router := true
  others := 0
  batches := []

variable (s : WriteSystem Response)

def phaseOf (h : Nat) : Option (HandlerPhase Response) := s.handlers[h]?.map (·.phase)

def setPhase (h : Nat) (phase : HandlerPhase Response) : WriteSystem Response :=
  { s with handlers := s.handlers.modify h fun handler => { handler with phase } }

def removeOperation (requestId : String) : WriteSystem Response :=
  { s with writeOperations := Assoc.erase requestId s.writeOperations }

def closeWatch (sender : Nat) : WriteSystem Response :=
  { s with watches := s.watches.modify sender fun watch => { watch with closed := true } }

def permitsHeld : Nat :=
  (s.handlers.map (·.phase.permits)).sum + s.channel.length + s.writer.permits + s.others

/-- Nobody but the loop has the runtime, a sender of the channel or `write_operations`. -/
def alone : Bool := !s.router && s.handlers.all (!·.phase.running)

def outstanding : List (String × Nat) :=
  s.handlers.flatMap (·.phase.held) ++ s.channel.map QueuedWrite.ticket ++ s.writer.held

/-- The loop returns; the receiver is dropped with what is in the channel, and with
the last reference the operations. -/
def stop : WriteSystem Response :=
  { s with
    writer := .stopped
    writeOperations := []
    channel := []
    watches := s.watches.map fun watch => { watch with closed := true } }

variable (config : WriterConfig Response)

def next (last : Bool) : WriteSystem Response :=
  if last then s.stop else { s with writer := .receiving }

def lock (h : Nat) (request : RuntimeBatchMember) : WriteSystem Response :=
  match Assoc.get s.writeOperations request.requestId with
  | some operation =>
    if operation.payload ≠ request.payload then s.setPhase h (.refused requestConflict)
    else s.setPhase h (.waiting operation.result true)
  | none =>
    let sender := s.watches.length
    WriteSystem.setPhase { s with
      watches := s.watches ++ [{ request, value := none, closed := false }]
      writeOperations :=
        Assoc.insert request.requestId { payload := request.payload, result := sender } s.writeOperations }
      h (.sending { requestId := request.requestId, payload := request.payload, sender })

def send (h : Nat) (queued : QueuedWrite) : Option (WriteSystem Response) :=
  match s.writer with
  | .stopped => some ((s.closeWatch queued.sender).setPhase h (.abandoning writerQueueUnavailable))
  | _ =>
    if s.channel.length < max config.clientConcurrency 1 then
      some (WriteSystem.setPhase { s with channel := s.channel ++ [queued] } h
        (.waiting queued.sender false))
    else none

def wait (h receiver : Nat) : Option (WriteSystem Response) :=
  match s.watches[receiver]? with
  | none => none
  | some watch =>
    match watch.value, watch.closed with
    | some result, _ => some (s.setPhase h (.received result))
    | none, true => some (s.setPhase h (.received .durabilityUnavailable))
    | none, false => none

/-- The loop after `confirm_write_durability`. -/
def afterConfirm (members : List RuntimeBatchMember) (dispatch : List (String × Nat))
    (results : List (MemberResult Response)) (durable : Bool) : WriteSystem Response :=
  { s with
    batches := s.batches ++ [⟨members, results, durable⟩]
    writer := .answering (dispatch.zip (results.map (delivered durable))) false }

/-- A step between two places where another task can run. -/
def step : WriteEvent Response → Option (WriteSystem Response)
  | .submit request =>
    if s.router = true ∧ s.permitsHeld < config.clientConcurrency then
      some { s with handlers := s.handlers ++ [{ request, phase := .locking }] }
    else none
  | .acquire =>
    if s.router = true ∧ s.permitsHeld < config.clientConcurrency then
      some { s with others := s.others + 1 }
    else none
  | .release => if 0 < s.others then some { s with others := s.others - 1 } else none
  | .dropRouter => some { s with router := false }
  | .lock h =>
    match s.handlers[h]? with
    | some ⟨request, .locking⟩ => some (s.lock h request)
    | _ => none
  | .send h =>
    match s.phaseOf h with
    | some (.sending queued) => s.send config h queued
    | _ => none
  | .abandon h =>
    match s.handlers[h]? with
    | some ⟨request, .abandoning error⟩ =>
      some ((s.removeOperation request.requestId).setPhase h (.refused error))
    | _ => none
  | .wait h =>
    match s.phaseOf h with
    | some (.waiting receiver _) => s.wait h receiver
    | _ => none
  | .timeout h =>
    match s.phaseOf h with
    | some (.sending queued) =>
      -- only a send that waits
      match s.send config h queued with
      | some _ => none
      | none => some ((s.closeWatch queued.sender).setPhase h (.abandoning writeNotQueued))
    | some (.waiting receiver _) =>
      match s.wait h receiver with
      | some _ => none
      | none => some (s.setPhase h (.refused writeNotCompleted))
    | _ => none
  | .cancel h =>
    match s.phaseOf h with
    | some .locking | some (.abandoning _) | some (.waiting _ _) => some (s.setPhase h .cancelled)
    | some (.sending queued) =>
      match s.send config h queued with
      | some _ => none
      | none => some ((s.closeWatch queued.sender).setPhase h .cancelled)
    | _ => none
  | .receive =>
    match s.writer, s.channel with
    | .receiving, first :: rest => some { s with channel := rest, writer := .collecting [first] }
    | .receiving, [] => if s.alone then some s.stop else none
    | _, _ => none
  | .collect =>
    match s.writer, s.channel with
    | .collecting queued, first :: rest =>
      if queued.length < config.batchMax then
        some { s with channel := rest, writer := .collecting (queued ++ [first]) }
      else none
    | _, _ => none
  | .dispatch upgraded =>
    match s.writer with
    | .collecting queued =>
      let dispatch := queued.map QueuedWrite.ticket
      if upgraded then
        some { s with writer := .executing (queued.map QueuedWrite.member) dispatch }
      else if s.alone then
        some { s with
          writer := .answering (dispatch.map fun ticket => (ticket, .durabilityUnavailable)) true }
      else none
    | _ => none
  | .execute outcome =>
    match s.writer with
    | .executing members dispatch =>
      let results := batchResults members dispatch outcome
      match committedIndex config.appliedIndex results with
      | some index => some { s with writer := .confirming members dispatch results index }
      | none => some (s.afterConfirm members dispatch results true)
    | _ => none
  | .confirm durable =>
    match s.writer with
    | .confirming members dispatch results _ => some (s.afterConfirm members dispatch results durable)
    | _ => none
  | .answer =>
    match s.writer with
    | .answering [] last => some (s.next last)
    | .answering ((ticket, result) :: pending) last =>
      some { s with
        watches := s.watches.modify ticket.2 fun watch => { watch with value := some result }
        writer := .removing ticket pending last }
    | _ => none
  | .remove =>
    match s.writer with
    | .removing ticket pending last =>
      some { (s.removeOperation ticket.1).closeWatch ticket.2 with writer := .answering pending last }
    | _ => none

end WriteSystem

end Rhiza.Node
