import Mathlib.Data.List.Forall2
import Mathlib.Data.List.Nodup
import Rhiza.Node.WriterLoop

/-! # A write in flight is one write

What holds in every state of the handlers, the channel and the writer loop.
-/

namespace Rhiza.Node

open Rhiza.Core Rhiza.Library

variable {Response : Type}

namespace WriteSystem

section Invariant

variable (s : WriteSystem Response)

def requestOf (w : Nat) : Option RuntimeBatchMember := s.watches[w]?.map (·.request)

def Produced (request : RuntimeBatchMember) (result : WriteOperationResult Response) : Prop :=
  ∃ batch ∈ s.batches, ∃ (i : Nat) (returned : MemberResult Response), batch.members[i]? = some request ∧
    batch.results[i]? = some returned ∧ delivered batch.durable returned = result

structure WatchSound (watch : Watch Response) : Prop where
  value : ∀ result, watch.value = some result → s.Produced watch.request result ∨ s.alone = true
  closed : watch.closed = true → watch.value.isSome = true ∨ s.alone = true

def HandlerSound (handler : WriteHandler Response) : Prop :=
  match handler.phase with
  | .sending queued => queued.member = handler.request ∧ s.requestOf queued.sender = some handler.request
  | .abandoning _ => False
  | .waiting receiver _ => s.requestOf receiver = some handler.request
  | .received result => s.Produced handler.request result
  | _ => True

def Dispatched (member : RuntimeBatchMember) (ticket : String × Nat) : Prop :=
  ticket.1 = member.requestId ∧ s.requestOf ticket.2 = some member

def AnswersSound (pending : List ((String × Nat) × WriteOperationResult Response)) (last : Bool) : Prop :=
  (last = true → s.alone = true) ∧
    ∀ answer ∈ pending, last = true ∨ ∃ member, s.Dispatched member answer.1 ∧ s.Produced member answer.2

def WriterSound : Prop :=
  match s.writer with
  | .receiving => True
  | .collecting queued => ∀ q ∈ queued, s.requestOf q.sender = some q.member
  | .executing members dispatch => List.Forall₂ s.Dispatched members dispatch
  | .confirming members dispatch results _ =>
    List.Forall₂ s.Dispatched members dispatch ∧ results.length = members.length
  | .answering pending last => s.AnswersSound pending last
  | .removing ticket pending last =>
    (last = true ∨ ∃ watch, s.watches[ticket.2]? = some watch ∧ watch.value.isSome = true) ∧
      s.AnswersSound pending last
  | .stopped => s.alone = true

structure Sound (config : WriterConfig Response) : Prop where
  places : ∀ ticket, s.outstanding.count ticket =
    if (Assoc.get s.writeOperations ticket.1).map (·.result) = some ticket.2 then 1 else 0
  operations : ∀ requestId operation, Assoc.get s.writeOperations requestId = some operation →
    s.requestOf operation.result = some { requestId, payload := operation.payload }
  permits : s.permitsHeld ≤ config.clientConcurrency
  channel : ∀ queued ∈ s.channel, s.requestOf queued.sender = some queued.member
  watches : ∀ watch ∈ s.watches, s.WatchSound watch
  handlers : ∀ handler ∈ s.handlers, s.HandlerSound handler
  writer : s.WriterSound

structure Later (s' : WriteSystem Response) : Prop where
  alone : s.alone = true → s'.alone = true
  batches : ∀ batch ∈ s.batches, batch ∈ s'.batches
  watches : ∀ (w : Nat) (watch : Watch Response), s.watches[w]? = some watch →
    ∃ watch', s'.watches[w]? = some watch' ∧ watch'.request = watch.request ∧
      (watch.value.isSome = true → watch'.value.isSome = true)

end Invariant

variable {s s' : WriteSystem Response} {config : WriterConfig Response}

namespace Later

theorem requestOf (h : s.Later s') {w : Nat} {request : RuntimeBatchMember}
    (hRequest : s.requestOf w = some request) : s'.requestOf w = some request := by
  obtain ⟨watch, hWatch, hIs⟩ := Option.map_eq_some_iff.mp hRequest
  obtain ⟨watch', hWatch', hSame, -⟩ := h.watches w watch hWatch
  exact Option.map_eq_some_iff.mpr ⟨watch', hWatch', hSame.trans hIs⟩

theorem produced (h : s.Later s') {request : RuntimeBatchMember} {result : WriteOperationResult Response}
    (hProduced : s.Produced request result) : s'.Produced request result := by
  obtain ⟨batch, hBatch, hHere⟩ := hProduced
  exact ⟨batch, h.batches batch hBatch, hHere⟩

theorem watchSound (h : s.Later s') {watch : Watch Response} (hWatch : s.WatchSound watch) :
    s'.WatchSound watch where
  value result hValue := (hWatch.value result hValue).imp h.produced h.alone
  closed hClosed := (hWatch.closed hClosed).imp id h.alone

theorem dispatched (h : s.Later s') {member : RuntimeBatchMember} {ticket : String × Nat}
    (hTicket : s.Dispatched member ticket) : s'.Dispatched member ticket :=
  ⟨hTicket.1, h.requestOf hTicket.2⟩

theorem answersSound (h : s.Later s') {pending : List ((String × Nat) × WriteOperationResult Response)}
    {last : Bool} (hPending : s.AnswersSound pending last) : s'.AnswersSound pending last := by
  refine ⟨fun hLast => h.alone (hPending.1 hLast), fun answer hAnswer => ?_⟩
  refine (hPending.2 answer hAnswer).imp id ?_
  rintro ⟨member, hTicket, hProduced⟩
  exact ⟨member, h.dispatched hTicket, h.produced hProduced⟩

theorem handlerSound (h : s.Later s') {handler : WriteHandler Response}
    (hHandler : s.HandlerSound handler) : s'.HandlerSound handler := by
  unfold HandlerSound at hHandler ⊢
  split at hHandler
  · exact ⟨hHandler.1, h.requestOf hHandler.2⟩
  · exact hHandler
  · exact h.requestOf hHandler
  · exact h.produced hHandler
  · exact hHandler

theorem writerSound (h : s.Later s') (hSame : s'.writer = s.writer) (hWriter : s.WriterSound) :
    s'.WriterSound := by
  unfold WriterSound at hWriter ⊢
  rw [hSame]
  split at hWriter
  · trivial
  · exact fun q hq => h.requestOf (hWriter q hq)
  · exact hWriter.imp fun _ _ => h.dispatched
  · exact ⟨hWriter.1.imp fun _ _ => h.dispatched, hWriter.2⟩
  · exact h.answersSound hWriter
  · refine ⟨hWriter.1.imp id ?_, h.answersSound hWriter.2⟩
    rintro ⟨watch, hWatch, hSome⟩
    obtain ⟨watch', hWatch', -, hKept⟩ := h.watches _ watch hWatch
    exact ⟨watch', hWatch', hKept hSome⟩
  · exact h.alone hWriter

theorem of_eq (hAlone : s.alone = true → s'.alone = true) (hBatches : s'.batches = s.batches)
    (hWatches : s'.watches = s.watches) : s.Later s' where
  alone := hAlone
  batches batch hBatch := by rwa [hBatches]
  watches w watch hWatch := ⟨watch, by rwa [hWatches], rfl, id⟩

theorem of_modify (hAlone : s'.alone = s.alone) (hBatches : s'.batches = s.batches) {w : Nat}
    {f : Watch Response → Watch Response} (hWatches : s'.watches = s.watches.modify w f)
    (hRequest : ∀ watch, (f watch).request = watch.request)
    (hValue : ∀ watch, watch.value.isSome = true → (f watch).value.isSome = true) : s.Later s' where
  alone h := hAlone.trans h
  batches batch hBatch := by rwa [hBatches]
  watches other watch hWatch := by
    rw [hWatches, List.getElem?_modify, hWatch]
    refine ⟨_, rfl, ?_⟩
    split
    · exact ⟨hRequest watch, hValue watch⟩
    · exact ⟨rfl, id⟩

end Later

theorem mem_watches_modify {w : Nat} {f : Watch Response → Watch Response} {watch : Watch Response}
    (h : watch ∈ s.watches.modify w f) :
    watch ∈ s.watches ∨ ∃ old, s.watches[w]? = some old ∧ watch = f old := by
  obtain ⟨i, hi⟩ := List.mem_iff_getElem?.mp h
  rw [List.getElem?_modify] at hi
  obtain ⟨old, hOld, rfl⟩ := Option.map_eq_some_iff.mp hi
  split
  · rename_i hHere
    exact .inr ⟨old, hHere ▸ hOld, rfl⟩
  · exact .inl (List.mem_of_getElem? hOld)

theorem count_outstanding (s : WriteSystem Response) (ticket : String × Nat) :
    s.outstanding.count ticket =
      (s.handlers.flatMap (·.phase.held)).count ticket + (s.channel.map QueuedWrite.ticket).count ticket +
        s.writer.held.count ticket := by
  rw [outstanding, List.count_append, List.count_append]

section Handlers

variable {h : Nat} {handler : WriteHandler Response}

theorem not_alone (hAt : s.handlers[h]? = some handler) (hRunning : handler.phase.running = true) :
    s.alone ≠ true := by
  intro hAlone
  obtain ⟨-, hAll⟩ := Bool.and_eq_true_iff.mp hAlone
  have hNot := List.all_eq_true.mp hAll handler (List.mem_of_getElem? hAt)
  rw [hRunning] at hNot
  cases hNot

theorem mem_setPhase {phase : HandlerPhase Response} (hAt : s.handlers[h]? = some handler)
    {other : WriteHandler Response} (hOther : other ∈ (s.setPhase h phase).handlers) :
    other ∈ s.handlers ∨ other = ⟨handler.request, phase⟩ := by
  obtain ⟨i, hi⟩ := List.mem_iff_getElem?.mp hOther
  rw [setPhase, getElem?_modify_of hAt] at hi
  split at hi
  · exact .inr (Option.some.inj hi).symm
  · exact .inl (List.mem_of_getElem? hi)

theorem count_setPhase (hAt : s.handlers[h]? = some handler) (phase : HandlerPhase Response)
    (ticket : String × Nat) :
    ((s.setPhase h phase).handlers.flatMap (·.phase.held)).count ticket + handler.phase.held.count ticket =
      (s.handlers.flatMap (·.phase.held)).count ticket + phase.held.count ticket :=
  count_flatMap_modify hAt (·.phase.held) (fun handler => { handler with phase }) ticket

theorem permits_setPhase (hAt : s.handlers[h]? = some handler) (phase : HandlerPhase Response) :
    ((s.setPhase h phase).handlers.map (·.phase.permits)).sum + handler.phase.permits =
      (s.handlers.map (·.phase.permits)).sum + phase.permits :=
  sum_map_modify hAt (·.phase.permits) fun handler => { handler with phase }

theorem Sound.move (hs : s.Sound config) {phase : HandlerPhase Response}
    (hAt : s.handlers[h]? = some handler) (hRunning : handler.phase.running = true)
    (hHeld : phase.held = handler.phase.held) (hPermits : phase.permits ≤ handler.phase.permits)
    (hSound : s.HandlerSound ⟨handler.request, phase⟩) : (s.setPhase h phase).Sound config := by
  have hLater : s.Later (s.setPhase h phase) :=
    .of_eq (fun hAlone => absurd hAlone (not_alone hAt hRunning)) rfl rfl
  refine
    { places := ?_, operations := hs.operations, permits := ?_, channel := hs.channel
      watches := fun watch hWatch => hLater.watchSound (hs.watches watch hWatch)
      handlers := ?_, writer := hLater.writerSound rfl hs.writer }
  · intro ticket
    have hCount := count_setPhase hAt phase ticket
    have hBefore := hs.places ticket
    rw [count_outstanding] at hBefore ⊢
    rw [hHeld, Nat.add_right_cancel_iff] at hCount
    rw [hCount]
    exact hBefore
  · have hSum := permits_setPhase hAt phase
    have hBefore := hs.permits
    unfold permitsHeld at hBefore ⊢
    simp only [setPhase] at hSum ⊢
    omega
  · intro other hOther
    obtain hOther | rfl := mem_setPhase hAt hOther
    · exact hLater.handlerSound (hs.handlers other hOther)
    · exact hLater.handlerSound hSound

theorem Sound.submit (hs : s.Sound config) {request : RuntimeBatchMember} (hRouter : s.router = true)
    (hPermit : s.permitsHeld < config.clientConcurrency) :
    Sound { s with handlers := s.handlers ++ [{ request, phase := .locking }] } config := by
  have hLater : s.Later { s with handlers := s.handlers ++ [{ request, phase := .locking }] } :=
    .of_eq (fun hAlone => by simp [alone, hRouter] at hAlone) rfl rfl
  refine
    { places := ?_, operations := hs.operations, permits := ?_, channel := hs.channel
      watches := fun watch hWatch => hLater.watchSound (hs.watches watch hWatch)
      handlers := ?_, writer := hLater.writerSound rfl hs.writer }
  · intro ticket
    have hBefore := hs.places ticket
    rw [count_outstanding] at hBefore ⊢
    simpa [HandlerPhase.held] using hBefore
  · unfold permitsHeld at hPermit ⊢
    simp only [List.map_append, List.sum_append, List.map_cons, List.map_nil, List.sum_singleton,
      HandlerPhase.permits_locking]
    omega
  · intro handler hHandler
    obtain hHandler | hHandler := List.mem_append.mp hHandler
    · exact hLater.handlerSound (hs.handlers handler hHandler)
    · rw [List.mem_singleton.mp hHandler]
      trivial

theorem Sound.enter (hs : s.Sound config) (hAt : s.handlers[h]? = some handler)
    (hPhase : handler.phase = .locking)
    (hNone : Assoc.get s.writeOperations handler.request.requestId = none) :
    (s.lock h handler.request).Sound config := by
  have hRunning : handler.phase.running = true := by rw [hPhase]; rfl
  have hNotAlone := not_alone hAt hRunning
  generalize hLock : s.lock h handler.request = s'
  unfold lock at hLock
  rw [hNone] at hLock
  simp only at hLock
  have hWatches : s'.watches = s.watches ++ [{ request := handler.request, value := none, closed := false }] := by
    rw [← hLock]; rfl
  have hOperations : s'.writeOperations = Assoc.insert handler.request.requestId
      { payload := handler.request.payload, result := s.watches.length } s.writeOperations := by
    rw [← hLock]; rfl
  have hHandlers : s'.handlers = (s.setPhase h (.sending ⟨handler.request.requestId,
      handler.request.payload, s.watches.length⟩)).handlers := by rw [← hLock]; rfl
  have hOld : ∀ (w : Nat) (watch : Watch Response), s.watches[w]? = some watch → s'.watches[w]? = some watch := by
    intro w watch hWatch
    rw [hWatches, List.getElem?_append_left (List.getElem?_eq_some_iff.mp hWatch).1, hWatch]
  have hNew : s'.requestOf s.watches.length = some handler.request := by
    unfold requestOf
    rw [hWatches, List.getElem?_concat_length]
    rfl
  have hLater : s.Later s' :=
    { alone := fun hAlone => absurd hAlone hNotAlone
      batches := fun batch hBatch => by rw [← hLock]; exact hBatch
      watches := fun w watch hWatch => ⟨watch, hOld w watch hWatch, rfl, id⟩ }
  have hFresh : ∀ requestId operation, Assoc.get s.writeOperations requestId = some operation →
      operation.result ≠ s.watches.length := by
    intro requestId operation hGet hSame
    obtain ⟨watch, hWatch, -⟩ := Option.map_eq_some_iff.mp (hs.operations requestId operation hGet)
    have hLess := (List.getElem?_eq_some_iff.mp hWatch).1
    omega
  refine
    { places := ?_, operations := ?_, permits := ?_, channel := ?_, watches := ?_, handlers := ?_
      writer := hLater.writerSound (by rw [← hLock]; rfl) hs.writer }
  · intro ticket
    have hCount := count_setPhase hAt (.sending ⟨handler.request.requestId,
      handler.request.payload, s.watches.length⟩) ticket
    have hBefore := hs.places ticket
    rw [count_outstanding] at hBefore ⊢
    have hChannel : s'.channel = s.channel := by rw [← hLock]; rfl
    have hWriter : s'.writer = s.writer := by rw [← hLock]; rfl
    rw [hHandlers, hChannel, hWriter, hOperations, Assoc.get_insert]
    rw [hPhase, HandlerPhase.held_locking, HandlerPhase.held_sending, List.count_nil,
      List.count_singleton] at hCount
    by_cases hId : ticket.1 = handler.request.requestId
    · rw [hId, hNone] at hBefore
      rw [if_pos hId]
      by_cases hSender : ticket.2 = s.watches.length
      · have hTicket : (QueuedWrite.ticket ⟨handler.request.requestId, handler.request.payload,
            s.watches.length⟩ == ticket) = true := by
          simp [QueuedWrite.ticket, Prod.ext_iff, hId, hSender]
        rw [if_pos hTicket] at hCount
        simp [hSender] at hBefore ⊢
        omega
      · have hTicket : ¬(QueuedWrite.ticket ⟨handler.request.requestId, handler.request.payload,
            s.watches.length⟩ == ticket) = true := by
          simp [QueuedWrite.ticket, Prod.ext_iff, hId, Ne.symm hSender]
        rw [if_neg hTicket] at hCount
        simp [Ne.symm hSender] at hBefore ⊢
        omega
    · have hTicket : ¬(QueuedWrite.ticket ⟨handler.request.requestId, handler.request.payload,
          s.watches.length⟩ == ticket) = true := by
        simp [QueuedWrite.ticket, Prod.ext_iff, Ne.symm hId]
      rw [if_neg hTicket] at hCount
      rw [if_neg hId]
      omega
  · intro requestId operation hGet
    rw [hOperations, Assoc.get_insert] at hGet
    split at hGet
    · rename_i hId
      obtain rfl := Option.some.inj hGet
      rw [hNew, hId]
    · exact hLater.requestOf (hs.operations requestId operation hGet)
  · have hSum := permits_setPhase hAt (.sending ⟨handler.request.requestId,
      handler.request.payload, s.watches.length⟩)
    have hBefore := hs.permits
    rw [hPhase] at hSum
    unfold permitsHeld at hBefore ⊢
    rw [hHandlers, ← hLock]
    simp only [HandlerPhase.permits_locking, HandlerPhase.permits_sending, setPhase] at hSum ⊢
    omega
  · intro queued hQueued
    exact hLater.requestOf (hs.channel queued (by rw [← hLock] at hQueued; exact hQueued))
  · intro watch hWatch
    rw [hWatches] at hWatch
    obtain hWatch | hWatch := List.mem_append.mp hWatch
    · exact hLater.watchSound (hs.watches watch hWatch)
    · rw [List.mem_singleton.mp hWatch]
      exact ⟨fun _ hValue => (by cases hValue), fun hClosed => (by cases hClosed)⟩
  · intro other hOther
    rw [hHandlers] at hOther
    obtain hOther | rfl := mem_setPhase hAt hOther
    · exact hLater.handlerSound (hs.handlers other hOther)
    · exact ⟨rfl, hNew⟩

theorem Sound.room (hs : s.Sound config) (hAt : s.handlers[h]? = some handler) {queued : QueuedWrite}
    (hPhase : handler.phase = .sending queued) :
    s.channel.length < config.clientConcurrency ∧ s.writer ≠ .stopped := by
  have hRunning : handler.phase.running = true := by rw [hPhase]; rfl
  constructor
  · have hSum := permits_setPhase hAt (.waiting queued.sender false)
    have hBefore := hs.permits
    unfold permitsHeld at hBefore
    rw [hPhase, HandlerPhase.permits_sending, HandlerPhase.permits_waiting_own] at hSum
    omega
  · intro hStopped
    have hWriter := hs.writer
    unfold WriterSound at hWriter
    rw [hStopped] at hWriter
    exact not_alone hAt hRunning hWriter

theorem Sound.send_eq (hs : s.Sound config) (hAt : s.handlers[h]? = some handler) {queued : QueuedWrite}
    (hPhase : handler.phase = .sending queued) :
    s.send config h queued = some (setPhase { s with channel := s.channel ++ [queued] } h
      (.waiting queued.sender false)) := by
  obtain ⟨hRoom, hGoesOn⟩ := hs.room hAt hPhase
  unfold send
  split
  · rename_i hStopped
    exact absurd hStopped hGoesOn
  · exact if_pos (Nat.lt_of_lt_of_le hRoom (Nat.le_max_left _ _))

theorem Sound.hand (hs : s.Sound config) (hAt : s.handlers[h]? = some handler) {queued : QueuedWrite}
    (hPhase : handler.phase = .sending queued) :
    (setPhase { s with channel := s.channel ++ [queued] } h (.waiting queued.sender false)).Sound config := by
  have hRunning : handler.phase.running = true := by rw [hPhase]; rfl
  have hHere := hs.handlers handler (List.mem_of_getElem? hAt)
  unfold HandlerSound at hHere
  rw [hPhase] at hHere
  obtain ⟨hMember, hRequest⟩ := hHere
  have hLater : s.Later (setPhase { s with channel := s.channel ++ [queued] } h
      (.waiting queued.sender false)) :=
    .of_eq (fun hAlone => absurd hAlone (not_alone hAt hRunning)) rfl rfl
  refine
    { places := ?_, operations := hs.operations, permits := ?_, channel := ?_
      watches := fun watch hWatch => hLater.watchSound (hs.watches watch hWatch)
      handlers := ?_, writer := hLater.writerSound rfl hs.writer }
  · intro ticket
    have hCount := count_setPhase hAt (.waiting queued.sender false) ticket
    have hBefore := hs.places ticket
    rw [count_outstanding] at hBefore ⊢
    rw [hPhase, HandlerPhase.held_sending, HandlerPhase.held_waiting, List.count_nil] at hCount
    refine Eq.trans ?_ hBefore
    simp only [setPhase, List.map_append, List.count_append, List.map_cons, List.map_nil] at hCount ⊢
    omega
  · have hSum := permits_setPhase hAt (.waiting queued.sender false)
    have hBefore := hs.permits
    rw [hPhase] at hSum
    unfold permitsHeld at hBefore ⊢
    simp only [setPhase, List.length_append, List.length_singleton, HandlerPhase.permits_sending,
      HandlerPhase.permits_waiting_own] at hSum ⊢
    omega
  · intro other hOther
    obtain hOther | hOther := List.mem_append.mp hOther
    · exact hLater.requestOf (hs.channel other hOther)
    · rw [List.mem_singleton.mp hOther, hMember]
      exact hLater.requestOf hRequest
  · intro other hOther
    obtain hOther | rfl := mem_setPhase (s := s) hAt hOther
    · exact hLater.handlerSound (hs.handlers other hOther)
    · exact hLater.requestOf hRequest

theorem Sound.wait (hs : s.Sound config) (hAt : s.handlers[h]? = some handler) {receiver : Nat}
    {permit : Bool} (hPhase : handler.phase = .waiting receiver permit)
    (hWait : s.wait h receiver = some s') : s'.Sound config := by
  have hRunning : handler.phase.running = true := by rw [hPhase]; rfl
  have hNotAlone := not_alone hAt hRunning
  have hHere := hs.handlers handler (List.mem_of_getElem? hAt)
  unfold HandlerSound at hHere
  rw [hPhase] at hHere
  obtain ⟨watch, hWatch, hRequest⟩ := Option.map_eq_some_iff.mp hHere
  have hSound := hs.watches watch (List.mem_of_getElem? hWatch)
  unfold WriteSystem.wait at hWait
  rw [hWatch] at hWait
  cases hValue : watch.value with
  | some result =>
    simp only [hValue, Option.some.injEq] at hWait
    obtain rfl := hWait
    have hProduced := (hSound.value result hValue).resolve_right hNotAlone
    rw [hRequest] at hProduced
    exact hs.move hAt hRunning (by rw [hPhase]; rfl) (Nat.zero_le _) hProduced
  | none =>
    cases hClosed : watch.closed with
    | true =>
      have hSome := (hSound.closed hClosed).resolve_right hNotAlone
      rw [hValue] at hSome
      cases hSome
    | false => simp only [hValue, hClosed, reduceCtorEq] at hWait

end Handlers

section Loop

theorem Sound.relay (hs : s.Sound config) (channel : List QueuedWrite) {writer : WriterPhase Response}
    (hCount : ∀ ticket, (channel.map QueuedWrite.ticket).count ticket + writer.held.count ticket =
      (s.channel.map QueuedWrite.ticket).count ticket + s.writer.held.count ticket)
    (hPermits : channel.length + writer.permits ≤ s.channel.length + s.writer.permits)
    (hChannel : ∀ queued ∈ channel, queued ∈ s.channel)
    (hWriter : WriterSound { s with channel, writer }) : Sound { s with channel, writer } config := by
  have hLater : s.Later { s with channel, writer } := .of_eq id rfl rfl
  refine
    { places := ?_, operations := hs.operations, permits := ?_
      channel := fun queued hQueued => hs.channel queued (hChannel queued hQueued)
      watches := fun watch hWatch => hLater.watchSound (hs.watches watch hWatch)
      handlers := fun handler hHandler => hLater.handlerSound (hs.handlers handler hHandler)
      writer := hWriter }
  · intro ticket
    have hBefore := hs.places ticket
    have hHere := hCount ticket
    rw [count_outstanding] at hBefore ⊢
    refine Eq.trans ?_ hBefore
    simp only
    omega
  · have hBefore := hs.permits
    unfold permitsHeld at hBefore ⊢
    simp only
    omega

theorem Sound.receive (hs : s.Sound config) {first : QueuedWrite} {rest : List QueuedWrite}
    (hPhase : s.writer = .receiving) (hChannel : s.channel = first :: rest) :
    Sound { s with channel := rest, writer := .collecting [first] } config := by
  refine hs.relay rest (fun ticket => ?_) ?_ (fun queued hQueued => ?_) fun queued hQueued => ?_
  · rw [hPhase, hChannel, List.map_cons, List.count_cons]
    simp only [WriterPhase.held, List.map_cons, List.map_nil, List.count_cons, List.count_nil]
    omega
  · rw [hPhase, hChannel]
    simp [WriterPhase.permits]
  · rw [hChannel]
    exact List.mem_cons_of_mem _ hQueued
  · rw [List.mem_singleton.mp hQueued]
    exact hs.channel first (by rw [hChannel]; exact List.mem_cons_self)

theorem Sound.collect (hs : s.Sound config) {queued rest : List QueuedWrite} {first : QueuedWrite}
    (hPhase : s.writer = .collecting queued) (hChannel : s.channel = first :: rest) :
    Sound { s with channel := rest, writer := .collecting (queued ++ [first]) } config := by
  have hWriter := hs.writer
  unfold WriterSound at hWriter
  rw [hPhase] at hWriter
  refine hs.relay rest (fun ticket => ?_) ?_ (fun other hOther => ?_) fun other hOther => ?_
  · rw [hPhase, hChannel, List.map_cons, List.count_cons]
    simp only [WriterPhase.held, List.map_append, List.count_append, List.map_cons, List.map_nil,
      List.count_cons, List.count_nil]
    omega
  · rw [hPhase, hChannel]
    simp only [WriterPhase.permits, List.length_append, List.length_cons, List.length_nil]
    omega
  · rw [hChannel]
    exact List.mem_cons_of_mem _ hOther
  · obtain hOther | hOther := List.mem_append.mp hOther
    · exact hWriter other hOther
    · rw [List.mem_singleton.mp hOther]
      exact hs.channel first (by rw [hChannel]; exact List.mem_cons_self)

theorem forall₂_dispatched {queued : List QueuedWrite}
    (h : ∀ q ∈ queued, s.requestOf q.sender = some q.member) :
    List.Forall₂ s.Dispatched (queued.map QueuedWrite.member) (queued.map QueuedWrite.ticket) := by
  induction queued with
  | nil => exact .nil
  | cons first rest ih =>
    exact .cons ⟨rfl, h first List.mem_cons_self⟩ (ih fun q hq => h q (List.mem_cons_of_mem _ hq))

theorem Sound.dispatch (hs : s.Sound config) {queued : List QueuedWrite}
    (hPhase : s.writer = .collecting queued) :
    Sound { s with writer := .executing (queued.map QueuedWrite.member) (queued.map QueuedWrite.ticket) }
      config := by
  have hWriter := hs.writer
  unfold WriterSound at hWriter
  rw [hPhase] at hWriter
  refine hs.relay s.channel (fun ticket => ?_) ?_ (fun _ => id) ?_
  · rw [hPhase]
    rfl
  · rw [hPhase]
    simp [WriterPhase.permits]
  · exact forall₂_dispatched hWriter

theorem Sound.giveUp (hs : s.Sound config) {queued : List QueuedWrite} (hAlone : s.alone = true)
    (hPhase : s.writer = .collecting queued) :
    Sound { s with
      writer := .answering ((queued.map QueuedWrite.ticket).map fun ticket =>
        (ticket, .durabilityUnavailable)) true } config := by
  refine hs.relay s.channel (fun ticket => ?_) ?_ (fun _ => id) ?_
  · rw [hPhase]
    simp only [WriterPhase.held, List.map_map]
    rfl
  · rw [hPhase]
    simp [WriterPhase.permits]
  · exact ⟨fun _ => hAlone, fun _ _ => .inl rfl⟩

theorem Sound.confirming (hs : s.Sound config) {members : List RuntimeBatchMember}
    {dispatch : List (String × Nat)} {results : List (MemberResult Response)}
    (hPhase : s.writer = .executing members dispatch) (hLength : results.length = members.length)
    (index : Nat) :
    Sound { s with writer := .confirming members dispatch results index } config := by
  have hWriter := hs.writer
  unfold WriterSound at hWriter
  rw [hPhase] at hWriter
  refine hs.relay s.channel (fun ticket => ?_) ?_ (fun _ => id) ?_
  · rw [hPhase]
    rfl
  · rw [hPhase]
    exact Nat.add_le_add_left (Nat.zero_le _) _
  · exact ⟨hWriter, hLength⟩

theorem answers_zip {batch : WriterBatch Response} (hBatch : batch ∈ s.batches)
    {members : List RuntimeBatchMember} {dispatch : List (String × Nat)}
    {results : List (MemberResult Response)} (start : Nat)
    (hMembers : batch.members.drop start = members) (hResults : batch.results.drop start = results)
    (hDispatch : List.Forall₂ s.Dispatched members dispatch) :
    ∀ answer ∈ dispatch.zip (results.map (delivered batch.durable)),
      ∃ member, s.Dispatched member answer.1 ∧ s.Produced member answer.2 := by
  induction hDispatch generalizing results start with
  | nil => exact fun answer hAnswer => (nomatch hAnswer)
  | @cons member ticket members dispatch hFirst _ ih =>
    intro answer hAnswer
    cases results with
    | nil => cases hAnswer
    | cons result results =>
      rw [List.map_cons, List.zip_cons_cons] at hAnswer
      obtain rfl | hLater := List.mem_cons.mp hAnswer
      · refine ⟨member, hFirst, batch, hBatch, start, result, ?_, ?_, rfl⟩
        · rw [← List.head?_drop, hMembers, List.head?_cons]
        · rw [← List.head?_drop, hResults, List.head?_cons]
      · refine ih (start + 1) ?_ ?_ answer hLater
        · rw [← List.tail_drop, hMembers, List.tail_cons]
        · rw [← List.tail_drop, hResults, List.tail_cons]

theorem Sound.afterConfirm (hs : s.Sound config) {members : List RuntimeBatchMember}
    {dispatch : List (String × Nat)} {results : List (MemberResult Response)} (durable : Bool)
    (hHeld : s.writer.held = dispatch) (hLength : results.length = members.length)
    (hDispatch : List.Forall₂ s.Dispatched members dispatch) :
    (s.afterConfirm members dispatch results durable).Sound config := by
  have hLater : s.Later { s with batches := s.batches ++ [⟨members, results, durable⟩] } :=
    { alone := id
      batches := fun batch hBatch => List.mem_append_left _ hBatch
      watches := fun w watch hWatch => ⟨watch, hWatch, rfl, id⟩ }
  have hRecorded : Sound { s with batches := s.batches ++ [⟨members, results, durable⟩] } config :=
    { places := hs.places, operations := hs.operations, permits := hs.permits, channel := hs.channel
      watches := fun watch hWatch => hLater.watchSound (hs.watches watch hWatch)
      handlers := fun handler hHandler => hLater.handlerSound (hs.handlers handler hHandler)
      writer := hLater.writerSound rfl hs.writer }
  refine hRecorded.relay s.channel (fun ticket => ?_) ?_ (fun _ => id) ?_
  · rw [hHeld]
    simp only [WriterPhase.held]
    rw [List.map_fst_zip]
    rw [List.length_map, hLength, hDispatch.length_eq]
  · exact Nat.add_le_add_left (Nat.zero_le _) _
  · refine ⟨fun hLast => (nomatch hLast), fun answer hAnswer => .inr ?_⟩
    have hNew : (⟨members, results, durable⟩ : WriterBatch Response) ∈
        (s.afterConfirm members dispatch results durable).batches :=
      List.mem_append_right _ List.mem_cons_self
    exact answers_zip hNew 0 rfl rfl hDispatch answer hAnswer

theorem held_of_alone (hAlone : s.alone = true) : s.handlers.flatMap (·.phase.held) = [] := by
  obtain ⟨-, hAll⟩ := Bool.and_eq_true_iff.mp hAlone
  refine List.flatMap_eq_nil_iff.mpr fun handler hHandler => ?_
  have hNot := List.all_eq_true.mp hAll handler hHandler
  cases hPhase : handler.phase with
  | sending queued =>
    rw [hPhase] at hNot
    cases hNot
  | _ => rfl

theorem Sound.stop (hs : s.Sound config) (hAlone : s.alone = true) : s.stop.Sound config := by
  have hLater : s.Later s.stop :=
    { alone := id
      batches := fun batch hBatch => hBatch
      watches := fun w watch hWatch => ⟨{ watch with closed := true },
        by rw [WriteSystem.stop, List.getElem?_map, hWatch, Option.map_some], rfl, id⟩ }
  refine
    { places := ?_, operations := fun _ _ hGet => (nomatch hGet), permits := ?_
      channel := fun _ hQueued => (nomatch hQueued), watches := ?_
      handlers := fun handler hHandler => hLater.handlerSound (hs.handlers handler hHandler)
      writer := hAlone }
  · intro ticket
    rw [count_outstanding]
    have hHeld : s.stop.handlers.flatMap (·.phase.held) = [] := held_of_alone hAlone
    rw [hHeld]
    rfl
  · have hBefore := hs.permits
    unfold permitsHeld at hBefore ⊢
    simp only [WriteSystem.stop, WriterPhase.permits, List.length_nil]
    omega
  · intro watch hWatch
    obtain ⟨old, hOld, rfl⟩ := List.mem_map.mp hWatch
    exact ⟨(hLater.watchSound (hs.watches old hOld)).value, fun _ => .inr hAlone⟩

theorem Sound.next (hs : s.Sound config) {last : Bool} (hPhase : s.writer = .answering [] last) :
    (s.next last).Sound config := by
  have hWriter := hs.writer
  unfold WriterSound at hWriter
  rw [hPhase] at hWriter
  unfold WriteSystem.next
  split
  · rename_i hLast
    exact hs.stop (hWriter.1 hLast)
  · refine hs.relay s.channel (fun ticket => ?_) ?_ (fun _ => id) trivial
    · rw [hPhase]
      rfl
    · exact Nat.add_le_add_left (Nat.zero_le _) _

theorem Sound.answer (hs : s.Sound config) {ticket : String × Nat}
    {result : WriteOperationResult Response} {pending : List ((String × Nat) × WriteOperationResult Response)}
    {last : Bool} (hPhase : s.writer = .answering ((ticket, result) :: pending) last) :
    Sound { s with
      watches := s.watches.modify ticket.2 fun watch => { watch with value := some result }
      writer := .removing ticket pending last } config := by
  have hWriter := hs.writer
  unfold WriterSound at hWriter
  rw [hPhase] at hWriter
  have hFirst := hWriter.2 (ticket, result) List.mem_cons_self
  generalize hNext : { s with
    watches := s.watches.modify ticket.2 fun watch => { watch with value := some result }
    writer := WriterPhase.removing ticket pending last } = s'
  have hWatches : s'.watches = s.watches.modify ticket.2 fun watch => { watch with value := some result } := by
    rw [← hNext]
  have hLater : s.Later s' :=
    .of_modify (by rw [← hNext]; rfl) (by rw [← hNext]) hWatches (fun _ => rfl) fun _ _ => rfl
  have hTicket : last = true ∨ ∃ watch, s'.watches[ticket.2]? = some watch ∧ watch.value.isSome = true := by
    refine hFirst.imp id ?_
    rintro ⟨member, hDispatched, -⟩
    obtain ⟨watch, hWatch, -⟩ := Option.map_eq_some_iff.mp hDispatched.2
    exact ⟨{ watch with value := some result }, by rw [hWatches, getElem?_modify_of hWatch, if_pos rfl], rfl⟩
  have hPending : s.AnswersSound pending last :=
    ⟨hWriter.1, fun answer hAnswer => hWriter.2 answer (List.mem_cons_of_mem _ hAnswer)⟩
  refine
    { places := ?_, operations := ?_, permits := ?_, channel := ?_, watches := ?_, handlers := ?_, writer := ?_ }
  · intro other
    have hBefore := hs.places other
    rw [count_outstanding] at hBefore
    rw [count_outstanding, ← hNext]
    rw [hPhase] at hBefore
    exact hBefore
  · intro requestId operation hGet
    rw [← hNext] at hGet
    exact hLater.requestOf (hs.operations requestId operation hGet)
  · have hBefore := hs.permits
    unfold permitsHeld at hBefore ⊢
    rw [← hNext]
    rw [hPhase] at hBefore
    cases last with
    | true => exact hBefore
    | false => exact hBefore
  · intro queued hQueued
    rw [← hNext] at hQueued
    exact hLater.requestOf (hs.channel queued hQueued)
  · intro watch hWatch
    rw [hWatches] at hWatch
    obtain hWatch | ⟨old, hOld, rfl⟩ := mem_watches_modify hWatch
    · exact hLater.watchSound (hs.watches watch hWatch)
    · refine ⟨fun value hValue => ?_, fun _ => .inl rfl⟩
      obtain rfl := Option.some.inj hValue
      obtain hLast | ⟨member, hDispatched, hProduced⟩ := hFirst
      · exact .inr (hLater.alone (hWriter.1 hLast))
      · obtain ⟨watch, hWatch, hRequest⟩ := Option.map_eq_some_iff.mp hDispatched.2
        rw [hOld] at hWatch
        obtain rfl := Option.some.inj hWatch
        rw [← hRequest] at hProduced
        exact .inl (hLater.produced hProduced)
  · intro handler hHandler
    rw [← hNext] at hHandler
    exact hLater.handlerSound (hs.handlers handler hHandler)
  · unfold WriterSound
    have hIs : s'.writer = .removing ticket pending last := by rw [← hNext]
    rw [hIs]
    exact ⟨hTicket, hLater.answersSound hPending⟩

theorem Sound.remove (hs : s.Sound config) {ticket : String × Nat}
    {pending : List ((String × Nat) × WriteOperationResult Response)} {last : Bool}
    (hPhase : s.writer = .removing ticket pending last) :
    Sound { (s.removeOperation ticket.1).closeWatch ticket.2 with writer := .answering pending last }
      config := by
  have hWriter := hs.writer
  unfold WriterSound at hWriter
  rw [hPhase] at hWriter
  generalize hNext : { (s.removeOperation ticket.1).closeWatch ticket.2 with
    writer := WriterPhase.answering pending last } = s'
  have hWatches : s'.watches = s.watches.modify ticket.2 fun watch => { watch with closed := true } := by
    rw [← hNext]; rfl
  have hOperations : s'.writeOperations = Assoc.erase ticket.1 s.writeOperations := by rw [← hNext]; rfl
  have hLater : s.Later s' :=
    .of_modify (by rw [← hNext]; rfl) (by rw [← hNext]; rfl) hWatches (fun _ => rfl) fun _ => id
  refine
    { places := ?_, operations := ?_, permits := ?_, channel := ?_, watches := ?_, handlers := ?_, writer := ?_ }
  · intro other
    have hBefore := hs.places other
    have hTaken := hs.places ticket
    rw [count_outstanding, hPhase] at hBefore hTaken
    rw [count_outstanding, hOperations, Assoc.get_erase]
    have hHandlers : s'.handlers = s.handlers := by rw [← hNext]; rfl
    have hChannel : s'.channel = s.channel := by rw [← hNext]; rfl
    have hIs : s'.writer = .answering pending last := by rw [← hNext]
    rw [hHandlers, hChannel, hIs]
    simp only [WriterPhase.held, List.count_cons, beq_self_eq_true, if_true] at hBefore hTaken ⊢
    by_cases hId : other.1 = ticket.1
    · rw [if_pos hId, Option.map_none, if_neg (by simp)]
      by_cases hSame : other = ticket
      · subst hSame
        simp only [beq_self_eq_true, if_true] at hBefore
        split at hBefore <;> omega
      · rw [hId] at hBefore
        split at hTaken
        · rename_i hSender
          have hOther : ticket.2 ≠ other.2 := fun h => hSame (Prod.ext hId h.symm)
          rw [hSender, if_neg (fun h => hOther (Option.some.inj h))] at hBefore
          omega
        · omega
    · have hNot : ¬(ticket == other) = true := by
        intro hEq
        exact hId (by rw [beq_iff_eq.mp hEq])
      rw [if_neg hNot] at hBefore
      rw [if_neg hId]
      exact hBefore
  · intro requestId operation hGet
    rw [hOperations, Assoc.get_erase] at hGet
    split at hGet
    · cases hGet
    · exact hLater.requestOf (hs.operations requestId operation hGet)
  · have hBefore := hs.permits
    unfold permitsHeld at hBefore ⊢
    rw [← hNext]
    rw [hPhase] at hBefore
    cases last with
    | true =>
      have hLess : (WriterPhase.answering pending true).permits ≤
          (WriterPhase.removing ticket pending true).permits := Nat.le_succ _
      refine Nat.le_trans ?_ hBefore
      exact Nat.add_le_add_right (Nat.add_le_add_left hLess _) _
    | false => exact hBefore
  · intro queued hQueued
    rw [← hNext] at hQueued
    exact hLater.requestOf (hs.channel queued hQueued)
  · intro watch hWatch
    rw [hWatches] at hWatch
    obtain hWatch | ⟨old, hOld, rfl⟩ := mem_watches_modify hWatch
    · exact hLater.watchSound (hs.watches watch hWatch)
    · refine ⟨(hLater.watchSound (hs.watches old (List.mem_of_getElem? hOld))).value, fun _ => ?_⟩
      obtain hLast | ⟨watch, hWatch, hSome⟩ := hWriter.1
      · exact .inr (hLater.alone (hWriter.2.1 hLast))
      · rw [hOld] at hWatch
        obtain rfl := Option.some.inj hWatch
        exact .inl hSome
  · intro handler hHandler
    rw [← hNext] at hHandler
    exact hLater.handlerSound (hs.handlers handler hHandler)
  · unfold WriterSound
    have hIs : s'.writer = .answering pending last := by rw [← hNext]
    rw [hIs]
    exact hLater.answersSound hWriter.2

end Loop

theorem Sound.initial (config : WriterConfig Response) : (WriteSystem.initial Response).Sound config where
  places _ := rfl
  operations _ _ hGet := nomatch hGet
  permits := Nat.zero_le _
  channel _ hQueued := nomatch hQueued
  watches _ hWatch := nomatch hWatch
  handlers _ hHandler := nomatch hHandler
  writer := trivial

theorem Sound.outside (hs : s.Sound config) {router : Bool} {others : Nat}
    (hAlone : s.alone = true → WriteSystem.alone { s with router, others } = true)
    (hPermits : WriteSystem.permitsHeld { s with router, others } ≤ config.clientConcurrency) :
    Sound { s with router, others } config := by
  have hLater : s.Later { s with router, others } := .of_eq hAlone rfl rfl
  exact
    { places := hs.places, operations := hs.operations, permits := hPermits, channel := hs.channel
      watches := fun watch hWatch => hLater.watchSound (hs.watches watch hWatch)
      handlers := fun handler hHandler => hLater.handlerSound (hs.handlers handler hHandler)
      writer := hLater.writerSound rfl hs.writer }

theorem phaseOf_eq_some {h : Nat} {phase : HandlerPhase Response} (hPhase : s.phaseOf h = some phase) :
    ∃ handler, s.handlers[h]? = some handler ∧ handler.phase = phase :=
  Option.map_eq_some_iff.mp hPhase

theorem Sound.onLock (hs : s.Sound config) {h : Nat} {request : RuntimeBatchMember}
    (hAt : s.handlers[h]? = some ⟨request, .locking⟩) : (s.lock h request).Sound config := by
  cases hGet : Assoc.get s.writeOperations request.requestId with
  | none => exact hs.enter hAt rfl hGet
  | some operation =>
    unfold lock
    rw [hGet]
    simp only
    split
    · exact hs.move hAt rfl rfl (Nat.zero_le _) trivial
    · rename_i hSame
      refine hs.move hAt rfl rfl (Nat.le_refl _) ?_
      have hRequest := hs.operations _ operation hGet
      rw [not_not.mp hSame] at hRequest
      exact hRequest

theorem Sound.onTimeout (hs : s.Sound config) {h : Nat} (hStep : s.step config (.timeout h) = some s') :
    s'.Sound config := by
  simp only [WriteSystem.step] at hStep
  split at hStep
  · rename_i hPhase
    obtain ⟨handler, hAt, hIs⟩ := phaseOf_eq_some hPhase
    rw [hs.send_eq hAt hIs] at hStep
    cases hStep
  · rename_i hPhase
    obtain ⟨handler, hAt, hIs⟩ := phaseOf_eq_some hPhase
    split at hStep
    · cases hStep
    · obtain rfl := Option.some.inj hStep
      exact hs.move hAt (by rw [hIs]; rfl) (by rw [hIs]; rfl) (Nat.zero_le _) trivial
  · cases hStep

theorem Sound.onCancel (hs : s.Sound config) {h : Nat} (hStep : s.step config (.cancel h) = some s') :
    s'.Sound config := by
  simp only [WriteSystem.step] at hStep
  split at hStep
  · rename_i hPhase
    obtain ⟨handler, hAt, hIs⟩ := phaseOf_eq_some hPhase
    obtain rfl := Option.some.inj hStep
    exact hs.move hAt (by rw [hIs]; rfl) (by rw [hIs]; rfl) (Nat.zero_le _) trivial
  · rename_i hPhase
    obtain ⟨handler, hAt, hIs⟩ := phaseOf_eq_some hPhase
    obtain rfl := Option.some.inj hStep
    exact hs.move hAt (by rw [hIs]; rfl) (by rw [hIs]; rfl) (Nat.zero_le _) trivial
  · rename_i hPhase
    obtain ⟨handler, hAt, hIs⟩ := phaseOf_eq_some hPhase
    obtain rfl := Option.some.inj hStep
    exact hs.move hAt (by rw [hIs]; rfl) (by rw [hIs]; rfl) (Nat.zero_le _) trivial
  · rename_i hPhase
    obtain ⟨handler, hAt, hIs⟩ := phaseOf_eq_some hPhase
    rw [hs.send_eq hAt hIs] at hStep
    cases hStep
  · cases hStep

theorem Sound.onExecute (hs : s.Sound config) {outcome : Except String (Nat → MemberResult Response)}
    (hStep : s.step config (.execute outcome) = some s') : s'.Sound config := by
  simp only [WriteSystem.step] at hStep
  split at hStep
  case h_2 => cases hStep
  rename_i members dispatch hPhase
  have hWriter := hs.writer
  unfold WriterSound at hWriter
  rw [hPhase] at hWriter
  have hLength : (batchResults members dispatch outcome).length = members.length := by
    cases outcome with
    | ok results => rw [batchResults, List.length_map, List.length_range]
    | error error => rw [batchResults, List.length_replicate, hWriter.length_eq]
  split at hStep
  · obtain rfl := Option.some.inj hStep
    exact hs.confirming hPhase hLength _
  · obtain rfl := Option.some.inj hStep
    exact hs.afterConfirm true (by rw [hPhase]; rfl) hLength hWriter

theorem Sound.step (hs : s.Sound config) {event : WriteEvent Response}
    (hStep : s.step config event = some s') : s'.Sound config := by
  cases event with
  | submit request =>
    obtain ⟨⟨hRouter, hPermit⟩, hNext⟩ := Option.ite_none_right_eq_some.mp hStep
    obtain rfl := Option.some.inj hNext
    exact hs.submit hRouter hPermit
  | acquire =>
    obtain ⟨⟨hRouter, hPermit⟩, hNext⟩ := Option.ite_none_right_eq_some.mp hStep
    obtain rfl := Option.some.inj hNext
    refine hs.outside id ?_
    unfold permitsHeld at hPermit ⊢
    exact hPermit
  | release =>
    obtain ⟨-, hNext⟩ := Option.ite_none_right_eq_some.mp hStep
    obtain rfl := Option.some.inj hNext
    refine hs.outside id ?_
    exact Nat.le_trans (Nat.add_le_add_left (Nat.sub_le _ _) _) hs.permits
  | dropRouter =>
    obtain rfl := Option.some.inj hStep
    refine hs.outside (fun hAlone => ?_) hs.permits
    exact Bool.and_eq_true_iff.mpr ⟨rfl, (Bool.and_eq_true_iff.mp hAlone).2⟩
  | lock h =>
    simp only [WriteSystem.step] at hStep
    split at hStep
    · rename_i hAt
      obtain rfl := Option.some.inj hStep
      exact hs.onLock hAt
    · cases hStep
  | send h =>
    simp only [WriteSystem.step] at hStep
    split at hStep
    · rename_i hPhase
      obtain ⟨handler, hAt, hIs⟩ := phaseOf_eq_some hPhase
      rw [hs.send_eq hAt hIs] at hStep
      obtain rfl := Option.some.inj hStep
      exact hs.hand hAt hIs
    · cases hStep
  | abandon h =>
    simp only [WriteSystem.step] at hStep
    split at hStep
    · rename_i hAt
      exact (hs.handlers _ (List.mem_of_getElem? hAt)).elim
    · cases hStep
  | wait h =>
    simp only [WriteSystem.step] at hStep
    split at hStep
    · rename_i hPhase
      obtain ⟨handler, hAt, hIs⟩ := phaseOf_eq_some hPhase
      exact hs.wait hAt hIs hStep
    · cases hStep
  | timeout h => exact hs.onTimeout hStep
  | cancel h => exact hs.onCancel hStep
  | receive =>
    simp only [WriteSystem.step] at hStep
    split at hStep
    · rename_i hPhase hChannel
      obtain rfl := Option.some.inj hStep
      exact hs.receive hPhase hChannel
    · obtain ⟨hAlone, hNext⟩ := Option.ite_none_right_eq_some.mp hStep
      obtain rfl := Option.some.inj hNext
      exact hs.stop hAlone
    · cases hStep
  | collect =>
    simp only [WriteSystem.step] at hStep
    split at hStep
    · rename_i hPhase hChannel
      obtain ⟨-, hNext⟩ := Option.ite_none_right_eq_some.mp hStep
      obtain rfl := Option.some.inj hNext
      exact hs.collect hPhase hChannel
    · cases hStep
  | dispatch upgraded =>
    simp only [WriteSystem.step] at hStep
    split at hStep
    case h_2 => cases hStep
    rename_i hPhase
    split at hStep
    · obtain rfl := Option.some.inj hStep
      exact hs.dispatch hPhase
    · obtain ⟨hAlone, hNext⟩ := Option.ite_none_right_eq_some.mp hStep
      obtain rfl := Option.some.inj hNext
      exact hs.giveUp hAlone hPhase
  | execute outcome => exact hs.onExecute hStep
  | confirm durable =>
    simp only [WriteSystem.step] at hStep
    split at hStep
    · rename_i hPhase
      have hWriter := hs.writer
      unfold WriterSound at hWriter
      rw [hPhase] at hWriter
      obtain rfl := Option.some.inj hStep
      exact hs.afterConfirm durable (by rw [hPhase]; rfl) hWriter.2 hWriter.1
    · cases hStep
  | answer =>
    simp only [WriteSystem.step] at hStep
    split at hStep
    · rename_i hPhase
      obtain rfl := Option.some.inj hStep
      exact hs.next hPhase
    · rename_i hPhase
      obtain rfl := Option.some.inj hStep
      exact hs.answer hPhase
    · cases hStep
  | remove =>
    simp only [WriteSystem.step] at hStep
    split at hStep
    · rename_i hPhase
      obtain rfl := Option.some.inj hStep
      exact hs.remove hPhase
    · cases hStep

abbrev Reachable (config : WriterConfig Response) (s : WriteSystem Response) : Prop :=
  Run (fun s => s.step config) (fun _ _ => True) (WriteSystem.initial Response) s

theorem Sound.reachable (h : Reachable config s) : s.Sound config :=
  h.invariant (P := fun s => Sound s config) (Sound.initial config) fun _ _ _ hs _ hStep => hs.step hStep

theorem Sound.entry_iff (hs : s.Sound config) {requestId : String} {sender : Nat} :
    (requestId, sender) ∈ s.outstanding ↔
      ∃ operation, Assoc.get s.writeOperations requestId = some operation ∧ operation.result = sender := by
  rw [← List.count_pos_iff, hs.places (requestId, sender), ← Option.map_eq_some_iff]
  split
  · exact iff_of_true Nat.one_pos ‹_›
  · exact iff_of_false (Nat.lt_irrefl 0) ‹_›

theorem Sound.nodup (hs : s.Sound config) : (s.outstanding.map Prod.fst).Nodup := by
  refine List.Nodup.map_on ?_ (List.nodup_iff_count_le_one.mpr fun ticket => ?_)
  · rintro ⟨requestId, sender⟩ hFirst ⟨other, sender'⟩ hSecond rfl
    obtain ⟨operation, hGet, rfl⟩ := hs.entry_iff.mp hFirst
    obtain ⟨operation', hGet', rfl⟩ := hs.entry_iff.mp hSecond
    rw [hGet] at hGet'
    rw [Option.some.inj hGet']
  · rw [hs.places ticket]
    split <;> omega

/-- Handlers and the writer loop in any interleaving, each handler dropped at any place where it
waits: the writes between entry and removal have different request ids; a send finds
room and a loop that receives, so it does not wait; every entry is that of a write in a handler,
in the channel or in the loop; a result is the one of a batch member with the same
request id and payload; once the loop has removed a request id, a handler with it
enters a write of its own. -/
theorem writes_in_flight_are_one (config : WriterConfig Response) {s : WriteSystem Response}
    (h : Reachable config s) :
    (s.outstanding.map Prod.fst).Nodup ∧
      s.channel.length ≤ config.clientConcurrency ∧
      (∀ (place : Nat) (handler : WriteHandler Response) queued, s.handlers[place]? = some handler →
        handler.phase = .sending queued → ∃ s', s.step config (.send place) = some s' ∧
          s'.channel = s.channel ++ [queued] ∧ s'.phaseOf place = some (.waiting queued.sender false)) ∧
      (∀ requestId operation, Assoc.get s.writeOperations requestId = some operation →
        (requestId, operation.result) ∈ s.outstanding) ∧
      (∀ handler ∈ s.handlers, ∀ result, handler.phase = .received result →
        s.Produced handler.request result) ∧
      (∀ ticket pending last s', s.writer = .removing ticket pending last →
        s.step config .remove = some s' →
          Assoc.get s'.writeOperations ticket.1 = none ∧ ∀ sender, (ticket.1, sender) ∉ s'.outstanding) ∧
      ∀ (place : Nat) (handler : WriteHandler Response), s.handlers[place]? = some handler →
        handler.phase = .locking → (∀ sender, (handler.request.requestId, sender) ∉ s.outstanding) →
          ∃ s', s.step config (.lock place) = some s' ∧ s'.phaseOf place = some (.sending
            { requestId := handler.request.requestId, payload := handler.request.payload,
              sender := s.watches.length }) := by
  have hs := Sound.reachable h
  refine ⟨hs.nodup, ?_, ?_, ?_, ?_, ?_, ?_⟩
  · have hPermits := hs.permits
    unfold permitsHeld at hPermits
    omega
  · intro place handler queued hAt hPhase
    refine ⟨setPhase { s with channel := s.channel ++ [queued] } place (.waiting queued.sender false),
      ?_, rfl, ?_⟩
    · have hPhaseOf : s.phaseOf place = some (.sending queued) := by
        rw [phaseOf, hAt, Option.map_some, hPhase]
      simp only [WriteSystem.step, hPhaseOf]
      exact hs.send_eq hAt hPhase
    · simp only [phaseOf, setPhase, getElem?_modify_of hAt, if_true, Option.map_some]
  · exact fun requestId operation hGet => hs.entry_iff.mpr ⟨operation, hGet, rfl⟩
  · intro handler hHandler result hPhase
    have hHere := hs.handlers handler hHandler
    unfold HandlerSound at hHere
    rw [hPhase] at hHere
    exact hHere
  · intro ticket pending last s' hPhase hStep
    have hs' := hs.step hStep
    simp only [WriteSystem.step, hPhase] at hStep
    obtain rfl := Option.some.inj hStep
    have hNone : Assoc.get (Assoc.erase ticket.1 s.writeOperations) ticket.1 = none := by
      rw [Assoc.get_erase, if_pos rfl]
    refine ⟨hNone, fun sender hThere => ?_⟩
    obtain ⟨operation, hGet, -⟩ := hs'.entry_iff.mp hThere
    exact absurd (hGet.symm.trans hNone) (by simp)
  · intro place handler hAt hPhase hFree
    have hNone : Assoc.get s.writeOperations handler.request.requestId = none := by
      rw [Option.eq_none_iff_forall_not_mem]
      exact fun operation hGet => hFree operation.result (hs.entry_iff.mpr ⟨operation, hGet, rfl⟩)
    obtain ⟨request, phase⟩ := handler
    obtain rfl := hPhase
    refine ⟨s.lock place request, by simp only [WriteSystem.step, hAt], ?_⟩
    unfold lock
    rw [hNone]
    simp only [phaseOf, setPhase, getElem?_modify_of hAt, if_true, Option.map_some]

end WriteSystem

namespace Sample

open WriteSystem

def narrow : WriterConfig Nat where
  clientConcurrency := 3
  batchMax := 2
  appliedIndex := id

def put (requestId : String) (byte : UInt8) : RuntimeBatchMember := { requestId, payload := [byte] }

/-- Two handlers with one write, one of them dropped while it waits, a third with another. -/
def shared : List (WriteEvent Nat) :=
  [.submit (put "a" 1), .submit (put "a" 1), .submit (put "b" 2), .lock 0, .send 0, .lock 1, .lock 2,
    .receive, .send 2, .collect, .cancel 0, .dispatch true, .execute (.ok fun i => .ok (7 + i)),
    .confirm true, .answer, .remove, .wait 1, .answer]

def isShared (s : WriteSystem Nat) : Bool :=
  s.handlers.map (·.phase) = [.cancelled, .received (.runtime (.ok 7)), .waiting 1 false] ∧
    s.outstanding = [("b", 1)]

/-- The theorem at the end of this run. -/
theorem shared_write_is_one : ∃ s : WriteSystem Nat,
    Reachable narrow s ∧ isShared s = true ∧ (s.outstanding.map Prod.fst).Nodup ∧
      ∀ handler ∈ s.handlers, ∀ result, handler.phase = .received result →
        s.Produced handler.request result := by
  obtain ⟨s, hRun, hIs⟩ : ∃ s, execute (fun s => WriteSystem.step s narrow) (initial Nat) shared = some s ∧
      isShared s = true := by
    refine ⟨(execute (fun s => WriteSystem.step s narrow) (initial Nat) shared).get ?_, ?_, ?_⟩
    · decide +kernel
    · rw [Option.some_get]
    · decide +kernel
  have hReachable : Reachable narrow s := .of_execute (fun _ _ _ => trivial) hRun
  obtain ⟨hDistinct, -, -, -, hReceived, -⟩ := writes_in_flight_are_one narrow hReachable
  exact ⟨s, hReachable, hIs, hDistinct, hReceived⟩

end Sample

end Rhiza.Node
