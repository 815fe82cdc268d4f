import Mathlib.Algebra.Order.Ring.Nat
import Mathlib.Logic.Function.Basic

/-! # The connections of the recorder client

Threads that call a recorder share the connections of two lanes. A connection has one owner:
a pool or a thread. It is put back only behind the answer to the one request that was written
to it, and is dropped on every other way out.
-/

namespace Rhiza.Node.RecorderTcp

def wireVersion : Nat := 3
def connectionsPerLane : Nat := 2
def u64Bound : Nat := 2 ^ 64

inductive Operation
  | identity | storeCommand | fetchCommand | record
  | installDecisionProof | inspectDecisionProof | inspectRecordSummary | observeReadFence
  deriving DecidableEq

structure RecorderRequestBody (Content : Type) where
  operation : Operation
  content : Content

inductive RpcResult (Value Reason : Type)
  | ok (value : Value)
  | rejected (reason : Reason)
  | error (message : String)
  | overloaded

structure RecorderResponseBody (Value Reason : Type) where
  operation : Operation
  result : RpcResult Value Reason

section Model

variable {Content Value Reason : Type}

def responseOperation (request : RecorderRequestBody Content) : Operation := request.operation

def responseMatches (operation : Operation) (response : RecorderResponseBody Value Reason) : Bool :=
  operation = response.operation

def errorResponse (operation : Operation) (message : String) : RecorderResponseBody Value Reason :=
  ⟨operation, .error message⟩

def overloadedResponse (operation : Operation) : RecorderResponseBody Value Reason :=
  ⟨operation, .overloaded⟩

structure RequestFrame (Content : Type) where
  version : Nat
  requestId : Nat
  remainingDeadlineMs : Nat
  body : RecorderRequestBody Content
  call : Nat

structure ResponseFrame (Value Reason : Type) where
  version : Nat
  requestId : Nat
  body : RecorderResponseBody Value Reason

/-- Both ends of a connection behind its HELLO. `torn` tells that a frame was written in part. -/
structure Connection (Content Value Reason : Type) where
  toServer : List (RequestFrame Content)
  serving : Option (RequestFrame Content)
  toClient : List (ResponseFrame Value Reason)
  torn : Bool
  closed : Bool

def Connection.fresh : Connection Content Value Reason := ⟨[], none, [], false, false⟩

abbrev Answered (Content Value Reason : Type) : Type :=
  Nat × RecorderRequestBody Content × RecorderResponseBody Value Reason

/-- How `dispatch_with_deadline` ends, or that no permit was left. An operation that was `started`
by its deadline runs on. -/
inductive Outcome (Value Reason : Type)
  | overloaded
  | dispatched (result : RpcResult Value Reason)
  | failed (message : String)
  | deadlineExceeded (started : Bool)

def Outcome.response (outcome : Outcome Value Reason) (operation : Operation) :
    RecorderResponseBody Value Reason :=
  match outcome with
  | .overloaded => overloadedResponse operation
  | .dispatched result => ⟨operation, result⟩
  | .failed message => errorResponse operation message
  | .deadlineExceeded _ => errorResponse operation "recorder RPC deadline exceeded"

inductive ServerAct (Value Reason : Type)
  | read
  | answer (outcome : Outcome Value Reason)
  | close (lost : Bool)

/-- One turn of the loop in `serve_connection`, with what it answered and whether the operation
still runs. -/
def serve (c : Connection Content Value Reason) :
    ServerAct Value Reason →
      Option (Connection Content Value Reason × Option (Answered Content Value Reason) × List Nat)
  | .read =>
    if c.closed ∨ c.serving.isSome then none
    else
      match c.toServer with
      | [] => none
      | frame :: rest =>
        if frame.version ≠ wireVersion ∨ frame.remainingDeadlineMs = 0 then
          some ({ c with toServer := rest, closed := true }, none, [])
        else some ({ c with toServer := rest, serving := some frame }, none, [])
  | .answer outcome =>
    if c.closed then none
    else
      match c.serving with
      | none => none
      | some frame =>
        let body := outcome.response (responseOperation frame.body)
        some ({ c with
            serving := none
            toClient := c.toClient ++ [⟨wireVersion, frame.requestId, body⟩] },
          some (frame.call, frame.body, body),
          match outcome with
          | .deadlineExceeded true => [frame.call]
          | _ => [])
  -- the connection breaks; what was on its way to the client may be lost
  | .close lost =>
    some ({ c with
      serving := none, toClient := if lost then [] else c.toClient, closed := true }, none, [])

inductive Lane
  | consensus
  | control
  deriving DecidableEq

structure PoolState (Content Value Reason : Type) where
  idle : List (Connection Content Value Reason)
  opened : Nat

inductive ExchangeError
  | io (message : String)
  | decode (message : String)

/-- Where a thread is in `exchange_with_timeout`. -/
inductive Phase (Content Value Reason : Type)
  | ready
  | checkingOut (lane : Lane) (request : RecorderRequestBody Content)
  | connecting (lane : Lane) (request : RecorderRequestBody Content)
  | holding (lane : Lane) (request : RecorderRequestBody Content)
      (stream : Connection Content Value Reason)
  | awaiting (lane : Lane) (request : RecorderRequestBody Content)
      (stream : Connection Content Value Reason) (requestId : Nat)
  | returned (request : RecorderRequestBody Content)
      (result : Except ExchangeError (RecorderResponseBody Value Reason))

structure Thread (Content Value Reason : Type) where
  call : Nat
  phase : Phase Content Value Reason

/-- The client and what is left at the server. `calls` and `asked` record the exchanges that were
begun, each with its thread, and `produced` what the server answered. -/
structure World (Content Value Reason : Type) where
  pools : Lane → PoolState Content Value Reason
  threads : List (Thread Content Value Reason)
  dropped : List (Connection Content Value Reason)
  running : List Nat
  nextRequestId : Nat
  calls : Nat
  asked : List (Nat × Nat × RecorderRequestBody Content)
  produced : List (Answered Content Value Reason)

inductive Place
  | idle (lane : Lane) (k : Nat)
  | thread (i : Nat)
  | dropped (k : Nat)

inductive Event (Content Value Reason : Type)
  | call (i : Nat) (lane : Lane) (request : RecorderRequestBody Content)
  | takeIdle (i : Nat)
  | openNew (i : Nat)
  | checkoutTimedOut (i : Nat)
  | connected (i : Nat)
  | connectFailed (i : Nat) (message : String)
  | deadlinePassed (i : Nat)
  | written (i : Nat) (remainingDeadlineMs : Nat)
  | writeFailed (i : Nat) (remainingDeadlineMs : Nat) (whole : Bool) (message : String)
  | received (i : Nat)
  | readFailed (i : Nat) (message : String)
  | server (place : Place) (act : ServerAct Value Reason)
  | operationEnded (call : Nat)

namespace World

variable (w : World Content Value Reason)

def setPhase (i : Nat) (phase : Phase Content Value Reason) : World Content Value Reason :=
  { w with threads := w.threads.modify i fun thread => { thread with phase } }

def setPool (lane : Lane) (pool : PoolState Content Value Reason) : World Content Value Reason :=
  { w with pools := Function.update w.pools lane pool }

def checkin (lane : Lane) (stream : Connection Content Value Reason) : World Content Value Reason :=
  w.setPool lane { w.pools lane with idle := stream :: (w.pools lane).idle }

def discard (lane : Lane) : World Content Value Reason :=
  w.setPool lane { w.pools lane with opened := (w.pools lane).opened - 1 }

/-- The stream goes out of scope; the server may still read what it holds. -/
def drop (stream : Connection Content Value Reason) : World Content Value Reason :=
  { w with dropped := w.dropped ++ [stream] }

def fetchRequestId : World Content Value Reason :=
  { w with nextRequestId := (w.nextRequestId + 1) % u64Bound }

def phaseOf (i : Nat) : Option (Phase Content Value Reason) := (w.threads[i]?).map (·.phase)

def callOf (i : Nat) : Nat := ((w.threads[i]?).map (·.call)).getD 0

def abandon (i : Nat) (lane : Lane) (request : RecorderRequestBody Content)
    (stream : Connection Content Value Reason) (error : ExchangeError) :
    World Content Value Reason :=
  ((w.discard lane).drop stream).setPhase i (.returned request (.error error))

def frameOf (i : Nat) (request : RecorderRequestBody Content) (remainingDeadlineMs : Nat) :
    RequestFrame Content :=
  ⟨wireVersion, w.nextRequestId, remainingDeadlineMs, request, w.callOf i⟩

def served (put : Connection Content Value Reason → World Content Value Reason)
    (c : Connection Content Value Reason) (act : ServerAct Value Reason) :
    Option (World Content Value Reason) :=
  match serve c act with
  | none => none
  | some (c, answered, running) =>
    let w := put c
    some { w with produced := w.produced ++ answered.toList, running := w.running ++ running }

def step : Event Content Value Reason → Option (World Content Value Reason)
  | .call i lane request =>
    match w.phaseOf i with
    | some .ready | some (.returned _ _) =>
      some { w with
        threads := w.threads.modify i fun _ => ⟨w.calls, .checkingOut lane request⟩
        calls := w.calls + 1
        asked := w.asked ++ [(w.calls, i, request)] }
    | _ => none
  | .takeIdle i =>
    match w.phaseOf i with
    | some (.checkingOut lane request) =>
      match (w.pools lane).idle with
      | [] => none
      | stream :: idle =>
        some ((w.setPool lane { w.pools lane with idle }).setPhase i (.holding lane request stream))
    | _ => none
  | .openNew i =>
    match w.phaseOf i with
    | some (.checkingOut lane request) =>
      if (w.pools lane).idle = [] ∧ (w.pools lane).opened < connectionsPerLane then
        some ((w.setPool lane { w.pools lane with opened := (w.pools lane).opened + 1 }).setPhase i
          (.connecting lane request))
      else none
    | _ => none
  | .checkoutTimedOut i =>
    match w.phaseOf i with
    | some (.checkingOut _ request) =>
      some (w.setPhase i
        (.returned request (.error (.io "recorder connection checkout timed out"))))
    | _ => none
  | .connected i =>
    match w.phaseOf i with
    | some (.connecting lane request) => some (w.setPhase i (.holding lane request .fresh))
    | _ => none
  | .connectFailed i message =>
    match w.phaseOf i with
    | some (.connecting lane request) =>
      some ((w.discard lane).setPhase i (.returned request (.error (.io message))))
    | _ => none
  | .deadlinePassed i =>
    match w.phaseOf i with
    | some (.holding lane request stream) =>
      some (w.fetchRequestId.abandon i lane request stream (.io "recorder RPC deadline exceeded"))
    | _ => none
  | .written i remainingDeadlineMs =>
    match w.phaseOf i with
    | some (.holding lane request stream) =>
      let frame := w.frameOf i request remainingDeadlineMs
      some (w.fetchRequestId.setPhase i (.awaiting lane request
        { stream with toServer := stream.toServer ++ [frame] } frame.requestId))
    | _ => none
  | .writeFailed i remainingDeadlineMs whole message =>
    match w.phaseOf i with
    | some (.holding lane request stream) =>
      let frame := w.frameOf i request remainingDeadlineMs
      -- all of the frame may have gone out before the flush failed
      let stream := if whole then { stream with toServer := stream.toServer ++ [frame] }
        else { stream with torn := true }
      some (w.fetchRequestId.abandon i lane request stream (.io message))
    | _ => none
  | .received i =>
    match w.phaseOf i with
    | some (.awaiting lane request stream requestId) =>
      match stream.toClient with
      | [] => none
      | response :: toClient =>
        let stream := { stream with toClient }
        if response.version = wireVersion ∧ response.requestId = requestId ∧
            responseMatches (responseOperation request) response.body then
          some ((w.checkin lane stream).setPhase i (.returned request (.ok response.body)))
        else
          some (w.abandon i lane request stream (.decode "recorder response envelope mismatch"))
    | _ => none
  | .readFailed i message =>
    match w.phaseOf i with
    | some (.awaiting lane request stream _) => some (w.abandon i lane request stream (.io message))
    | _ => none
  | .server place act =>
    match place with
    | .idle lane k =>
      match (w.pools lane).idle[k]? with
      | none => none
      | some c =>
        served (fun c =>
          w.setPool lane { w.pools lane with idle := (w.pools lane).idle.set k c }) c act
    | .thread i =>
      match w.phaseOf i with
      | some (.holding lane request stream) =>
        served (fun c => w.setPhase i (.holding lane request c)) stream act
      | some (.awaiting lane request stream requestId) =>
        served (fun c => w.setPhase i (.awaiting lane request c requestId)) stream act
      | _ => none
    | .dropped k =>
      match w.dropped[k]? with
      | none => none
      | some c => served (fun c => { w with dropped := w.dropped.set k c }) c act
  | .operationEnded call => some { w with running := w.running.erase call }

def initial (threads nextRequestId : Nat) : World Content Value Reason :=
  ⟨fun _ => ⟨[], 0⟩, List.replicate threads ⟨0, .ready⟩, [], [], nextRequestId, 0, [], []⟩

end World

structure Connection.Quiet (c : Connection Content Value Reason) : Prop where
  toServer : c.toServer = []
  serving : c.serving = none
  toClient : c.toClient = []
  whole : c.torn = false

structure RequestFrame.Is (frame : RequestFrame Content) (call : Nat)
    (request : RecorderRequestBody Content) (requestId : Nat) : Prop where
  call : frame.call = call
  body : frame.body = request
  requestId : frame.requestId = requestId

/-- One request was written: it is on its way, served or answered, or the connection broke. -/
inductive InFlight (produced : List (Answered Content Value Reason)) (call : Nat)
    (request : RecorderRequestBody Content) (requestId : Nat) :
    Connection Content Value Reason → Prop
  | sent {closed : Bool} (frame : RequestFrame Content) (h : frame.Is call request requestId) :
    InFlight produced call request requestId ⟨[frame], none, [], false, closed⟩
  | served {closed : Bool} (frame : RequestFrame Content) (h : frame.Is call request requestId) :
    InFlight produced call request requestId ⟨[], some frame, [], false, closed⟩
  | answered {closed : Bool} (response : ResponseFrame Value Reason)
      (h : (call, request, response.body) ∈ produced) :
    InFlight produced call request requestId ⟨[], none, [response], false, closed⟩
  | broken {toServer : List (RequestFrame Content)} :
    InFlight produced call request requestId ⟨toServer, none, [], false, true⟩

section Serve

variable {c after : Connection Content Value Reason} {act : ServerAct Value Reason}
  {answered : Option (Answered Content Value Reason)} {running : List Nat}
  {produced : List (Answered Content Value Reason)} {call requestId : Nat}
  {request : RecorderRequestBody Content}

theorem Connection.Quiet.serve (h : c.Quiet)
    (hServe : serve c act = some (after, answered, running)) : after.Quiet := by
  cases act with
  | read =>
    simp only [RecorderTcp.serve, h.toServer] at hServe
    split at hServe
    · cases hServe
    · cases hServe
  | answer outcome =>
    simp only [RecorderTcp.serve, h.serving] at hServe
    split at hServe
    · cases hServe
    · cases hServe
  | close lost =>
    obtain ⟨rfl, -⟩ := Prod.mk.inj (Option.some.inj hServe)
    have hLost : (if lost then [] else c.toClient) = [] := by
      rw [h.toClient, ite_self]
    exact ⟨h.toServer, rfl, hLost, h.whole⟩

theorem InFlight.serve (h : InFlight produced call request requestId c)
    (hServe : serve c act = some (after, answered, running)) :
    InFlight (produced ++ answered.toList) call request requestId after := by
  cases act with
  | close lost =>
    obtain ⟨rfl, hAnswered⟩ := Prod.mk.inj (Option.some.inj hServe)
    obtain ⟨rfl, -⟩ := Prod.mk.inj hAnswered
    rw [Option.toList_none, List.append_nil]
    cases lost with
    | true => cases h <;> exact .broken
    | false =>
      cases h with
      | sent frame hFrame => exact .broken
      | served frame hFrame => exact .broken
      | answered response hResponse => exact .answered response hResponse
      | broken => exact .broken
  | read =>
    simp only [RecorderTcp.serve] at hServe
    split at hServe
    · cases hServe
    · rename_i hOpen
      cases h with
      | sent frame hFrame =>
        simp only at hServe
        split at hServe
        · obtain ⟨rfl, -⟩ := Prod.mk.inj (Option.some.inj hServe)
          exact .broken
        · obtain ⟨rfl, -⟩ := Prod.mk.inj (Option.some.inj hServe)
          exact .served frame hFrame
      | served frame hFrame => cases hServe
      | answered response hResponse => cases hServe
      | broken => exact absurd (.inl rfl) hOpen
  | answer outcome =>
    simp only [RecorderTcp.serve] at hServe
    split at hServe
    · cases hServe
    · rename_i hOpen
      cases h with
      | sent frame hFrame => cases hServe
      | served frame hFrame =>
        obtain ⟨rfl, hAnswered⟩ := Prod.mk.inj (Option.some.inj hServe)
        obtain ⟨rfl, -⟩ := Prod.mk.inj hAnswered
        refine .answered _ ?_
        rw [Option.toList_some, ← hFrame.call, ← hFrame.body]
        exact List.mem_append_right _ List.mem_cons_self
      | answered response hResponse => cases hServe
      | broken => exact absurd rfl hOpen

theorem Connection.Quiet.write (h : c.Quiet) {frame : RequestFrame Content}
    (hFrame : frame.Is call request requestId) :
    InFlight produced call request requestId { c with toServer := c.toServer ++ [frame] } := by
  obtain ⟨toServer, serving, toClient, torn, closed⟩ := c
  obtain ⟨rfl, rfl, rfl, rfl⟩ := h
  exact .sent frame hFrame

theorem InFlight.answer (h : InFlight produced call request requestId c)
    {response : ResponseFrame Value Reason} {rest : List (ResponseFrame Value Reason)}
    (hClient : c.toClient = response :: rest) :
    (call, request, response.body) ∈ produced ∧
      ({ c with toClient := rest } : Connection Content Value Reason).Quiet := by
  cases h with
  | sent frame hFrame => cases hClient
  | served frame hFrame => cases hClient
  | answered response hResponse =>
    obtain ⟨rfl, rfl⟩ := List.cons.inj hClient
    exact ⟨hResponse, rfl, rfl, rfl, rfl⟩
  | broken => cases hClient

theorem InFlight.mono {produced' : List (Answered Content Value Reason)}
    (h : InFlight produced call request requestId c)
    (hMore : ∀ answer ∈ produced, answer ∈ produced') :
    InFlight produced' call request requestId c := by
  cases h with
  | sent frame hFrame => exact .sent frame hFrame
  | served frame hFrame => exact .served frame hFrame
  | answered response hResponse => exact .answered response (hMore _ hResponse)
  | broken => exact .broken

end Serve

namespace World

variable {w : World Content Value Reason} {i call : Nat} {phase : Phase Content Value Reason}

theorem phaseOf_eq (h : w.phaseOf i = some phase) : ∃ call, w.threads[i]? = some ⟨call, phase⟩ := by
  obtain ⟨⟨call, _⟩, hAt, rfl⟩ := Option.map_eq_some_iff.mp h
  exact ⟨call, hAt⟩

theorem callOf_eq (h : w.threads[i]? = some ⟨call, phase⟩) : w.callOf i = call := by
  rw [callOf, h, Option.map_some, Option.getD_some]

inductive Turned (put : Connection Content Value Reason → World Content Value Reason)
    (c : Connection Content Value Reason) : World Content Value Reason → Prop
  | intro {act : ServerAct Value Reason} {after : Connection Content Value Reason}
    {answered : Option (Answered Content Value Reason)} {running : List Nat}
    (hServe : serve c act = some (after, answered, running)) :
    Turned put c { put after with
      produced := (put after).produced ++ answered.toList
      running := (put after).running ++ running }

theorem turned_of_served {put : Connection Content Value Reason → World Content Value Reason}
    {c : Connection Content Value Reason} {act : ServerAct Value Reason}
    {w' : World Content Value Reason} (h : served put c act = some w') : Turned put c w' := by
  rw [served] at h
  split at h
  · cases h
  · rename_i hServe
    obtain rfl := Option.some.inj h
    exact .intro hServe

inductive Next (w : World Content Value Reason) : World Content Value Reason → Prop
  | begun {i call : Nat} {phase : Phase Content Value Reason} (lane : Lane)
    (request : RecorderRequestBody Content) (hAt : w.threads[i]? = some ⟨call, phase⟩)
    (hOver : phase = .ready ∨ ∃ request result, phase = .returned request result) :
    Next w { w with
      threads := w.threads.modify i fun _ => ⟨w.calls, .checkingOut lane request⟩
      calls := w.calls + 1
      asked := w.asked ++ [(w.calls, i, request)] }
  | took {i call : Nat} {lane : Lane} {request : RecorderRequestBody Content}
    {stream : Connection Content Value Reason} {idle : List (Connection Content Value Reason)}
    (hAt : w.threads[i]? = some ⟨call, .checkingOut lane request⟩)
    (hIdle : (w.pools lane).idle = stream :: idle) :
    Next w ((w.setPool lane { w.pools lane with idle }).setPhase i (.holding lane request stream))
  | opened {i call : Nat} {lane : Lane} {request : RecorderRequestBody Content}
    (hAt : w.threads[i]? = some ⟨call, .checkingOut lane request⟩)
    (hRoom : (w.pools lane).opened < connectionsPerLane) :
    Next w ((w.setPool lane { w.pools lane with opened := (w.pools lane).opened + 1 }).setPhase i
      (.connecting lane request))
  | waitedInVain {i call : Nat} {lane : Lane} {request : RecorderRequestBody Content}
    (hAt : w.threads[i]? = some ⟨call, .checkingOut lane request⟩) (error : ExchangeError) :
    Next w (w.setPhase i (.returned request (.error error)))
  | connected {i call : Nat} {lane : Lane} {request : RecorderRequestBody Content}
    (hAt : w.threads[i]? = some ⟨call, .connecting lane request⟩) :
    Next w (w.setPhase i (.holding lane request .fresh))
  | notConnected {i call : Nat} {lane : Lane} {request : RecorderRequestBody Content}
    (hAt : w.threads[i]? = some ⟨call, .connecting lane request⟩) (message : String) :
    Next w ((w.discard lane).setPhase i (.returned request (.error (.io message))))
  | notWritten {i call : Nat} {lane : Lane} {request : RecorderRequestBody Content}
    {stream : Connection Content Value Reason}
    (hAt : w.threads[i]? = some ⟨call, .holding lane request stream⟩) (torn : Bool)
    (message : String) :
    Next w (w.fetchRequestId.abandon i lane request { stream with torn } (.io message))
  | notFlushed {i call : Nat} {lane : Lane} {request : RecorderRequestBody Content}
    {stream : Connection Content Value Reason} {frame : RequestFrame Content}
    (hAt : w.threads[i]? = some ⟨call, .holding lane request stream⟩)
    (hFrame : frame.Is call request w.nextRequestId) (message : String) :
    Next w (w.fetchRequestId.abandon i lane request
      { stream with toServer := stream.toServer ++ [frame] } (.io message))
  | written {i call : Nat} {lane : Lane} {request : RecorderRequestBody Content}
    {stream : Connection Content Value Reason} {frame : RequestFrame Content}
    (hAt : w.threads[i]? = some ⟨call, .holding lane request stream⟩)
    (hFrame : frame.Is call request w.nextRequestId) :
    Next w (w.fetchRequestId.setPhase i (.awaiting lane request
      { stream with toServer := stream.toServer ++ [frame] } w.nextRequestId))
  | received {i call requestId : Nat} {lane : Lane} {request : RecorderRequestBody Content}
    {stream : Connection Content Value Reason} {response : ResponseFrame Value Reason}
    {toClient : List (ResponseFrame Value Reason)}
    (hAt : w.threads[i]? = some ⟨call, .awaiting lane request stream requestId⟩)
    (hClient : stream.toClient = response :: toClient) :
    Next w ((w.checkin lane { stream with toClient }).setPhase i
      (.returned request (.ok response.body)))
  | notReceived {i call requestId : Nat} {lane : Lane} {request : RecorderRequestBody Content}
    {stream : Connection Content Value Reason}
    (hAt : w.threads[i]? = some ⟨call, .awaiting lane request stream requestId⟩)
    (toClient : List (ResponseFrame Value Reason)) (error : ExchangeError) :
    Next w (w.abandon i lane request { stream with toClient } error)
  | turnedIdle {w' : World Content Value Reason} {lane : Lane} {k : Nat}
    {c : Connection Content Value Reason} (hAt : (w.pools lane).idle[k]? = some c)
    (hTurn : Turned (fun c =>
      w.setPool lane { w.pools lane with idle := (w.pools lane).idle.set k c }) c w') : Next w w'
  | turnedHeld {w' : World Content Value Reason} {i call : Nat} {lane : Lane}
    {request : RecorderRequestBody Content} {stream : Connection Content Value Reason}
    (hAt : w.threads[i]? = some ⟨call, .holding lane request stream⟩)
    (hTurn : Turned (fun c => w.setPhase i (.holding lane request c)) stream w') : Next w w'
  | turnedAwaited {w' : World Content Value Reason} {i call requestId : Nat} {lane : Lane}
    {request : RecorderRequestBody Content} {stream : Connection Content Value Reason}
    (hAt : w.threads[i]? = some ⟨call, .awaiting lane request stream requestId⟩)
    (hTurn : Turned (fun c => w.setPhase i (.awaiting lane request c requestId)) stream w') :
    Next w w'
  | turnedDropped {w' : World Content Value Reason} {k : Nat}
    {c : Connection Content Value Reason} (hAt : w.dropped[k]? = some c)
    (hTurn : Turned (fun c => { w with dropped := w.dropped.set k c }) c w') : Next w w'
  | ended (call : Nat) : Next w { w with running := w.running.erase call }

variable {w' : World Content Value Reason}

theorem next_of_server {place : Place} {act : ServerAct Value Reason}
    (hStep : w.step (.server place act) = some w') : w.Next w' := by
  simp only [step] at hStep
  cases place with
  | idle lane k =>
    simp only at hStep
    split at hStep
    · cases hStep
    · rename_i hAt
      exact .turnedIdle hAt (turned_of_served hStep)
  | thread i =>
    simp only at hStep
    split at hStep
    · rename_i hPhase
      obtain ⟨call, hAt⟩ := phaseOf_eq hPhase
      exact .turnedHeld hAt (turned_of_served hStep)
    · rename_i hPhase
      obtain ⟨call, hAt⟩ := phaseOf_eq hPhase
      exact .turnedAwaited hAt (turned_of_served hStep)
    · cases hStep
  | dropped k =>
    simp only at hStep
    split at hStep
    · cases hStep
    · rename_i hAt
      exact .turnedDropped hAt (turned_of_served hStep)

theorem next_of_step {event : Event Content Value Reason} (hStep : w.step event = some w') :
    w.Next w' := by
  cases event with
  | server place act => exact next_of_server hStep
  | operationEnded call =>
    obtain rfl := Option.some.inj hStep
    exact .ended call
  | call i lane request =>
    simp only [step] at hStep
    split at hStep
    · rename_i hPhase
      obtain ⟨call, hAt⟩ := phaseOf_eq hPhase
      obtain rfl := Option.some.inj hStep
      exact .begun lane request hAt (.inl rfl)
    · rename_i hPhase
      obtain ⟨call, hAt⟩ := phaseOf_eq hPhase
      obtain rfl := Option.some.inj hStep
      exact .begun lane request hAt (.inr ⟨_, _, rfl⟩)
    · cases hStep
  | takeIdle i =>
    simp only [step] at hStep
    split at hStep
    · rename_i hPhase
      obtain ⟨call, hAt⟩ := phaseOf_eq hPhase
      split at hStep
      · cases hStep
      · rename_i hIdle
        obtain rfl := Option.some.inj hStep
        exact .took hAt hIdle
    · cases hStep
  | openNew i =>
    simp only [step] at hStep
    split at hStep
    · rename_i hPhase
      obtain ⟨call, hAt⟩ := phaseOf_eq hPhase
      split at hStep
      · rename_i hRoom
        obtain rfl := Option.some.inj hStep
        exact .opened hAt hRoom.2
      · cases hStep
    · cases hStep
  | checkoutTimedOut i =>
    simp only [step] at hStep
    split at hStep
    · rename_i hPhase
      obtain ⟨call, hAt⟩ := phaseOf_eq hPhase
      obtain rfl := Option.some.inj hStep
      exact .waitedInVain hAt _
    · cases hStep
  | connected i =>
    simp only [step] at hStep
    split at hStep
    · rename_i hPhase
      obtain ⟨call, hAt⟩ := phaseOf_eq hPhase
      obtain rfl := Option.some.inj hStep
      exact .connected hAt
    · cases hStep
  | connectFailed i message =>
    simp only [step] at hStep
    split at hStep
    · rename_i hPhase
      obtain ⟨call, hAt⟩ := phaseOf_eq hPhase
      obtain rfl := Option.some.inj hStep
      exact .notConnected hAt message
    · cases hStep
  | deadlinePassed i =>
    simp only [step] at hStep
    split at hStep
    · rename_i stream hPhase
      obtain ⟨call, hAt⟩ := phaseOf_eq hPhase
      obtain rfl := Option.some.inj hStep
      exact .notWritten hAt stream.torn _
    · cases hStep
  | written i remainingDeadlineMs =>
    simp only [step] at hStep
    split at hStep
    · rename_i hPhase
      obtain ⟨call, hAt⟩ := phaseOf_eq hPhase
      obtain rfl := Option.some.inj hStep
      exact .written hAt ⟨callOf_eq hAt, rfl, rfl⟩
    · cases hStep
  | writeFailed i remainingDeadlineMs whole message =>
    simp only [step] at hStep
    split at hStep
    · rename_i hPhase
      obtain ⟨call, hAt⟩ := phaseOf_eq hPhase
      obtain rfl := Option.some.inj hStep
      cases whole with
      | true => exact .notFlushed hAt ⟨callOf_eq hAt, rfl, rfl⟩ message
      | false => exact .notWritten hAt true message
    · cases hStep
  | received i =>
    simp only [step] at hStep
    split at hStep
    · rename_i hPhase
      obtain ⟨call, hAt⟩ := phaseOf_eq hPhase
      split at hStep
      · cases hStep
      · rename_i response toClient hClient
        split at hStep
        · obtain rfl := Option.some.inj hStep
          exact .received hAt hClient
        · obtain rfl := Option.some.inj hStep
          exact .notReceived hAt toClient _
    · cases hStep
  | readFailed i message =>
    simp only [step] at hStep
    split at hStep
    · rename_i stream requestId hPhase
      obtain ⟨call, hAt⟩ := phaseOf_eq hPhase
      obtain rfl := Option.some.inj hStep
      exact .notReceived hAt stream.toClient _
    · cases hStep

end World

end Model

end Rhiza.Node.RecorderTcp
