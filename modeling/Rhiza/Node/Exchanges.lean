import Mathlib.Data.List.Nodup
import Rhiza.Library.Parties
import Rhiza.Library.Run
import Rhiza.Node.Pool

/-! # The answers of the recorder client

A connection that a thread uses carries its request or the answer to it, and one in a pool carries
nothing. So the answer that an exchange reads is that to its own request.
-/

namespace Rhiza.Node.RecorderTcp

open Library

section Model

variable {Content Value Reason : Type}

def Phase.uses (lane : Lane) : Phase Content Value Reason → Nat
  | .connecting used _ | .holding used _ _ | .awaiting used _ _ _ => if used = lane then 1 else 0
  | .ready | .checkingOut _ _ | .returned _ _ => 0

def Phase.Sound (asked : List (Nat × Nat × RecorderRequestBody Content))
    (produced : List (Answered Content Value Reason)) (i call : Nat) :
    Phase Content Value Reason → Prop
  | .ready => True
  | .checkingOut _ request | .connecting _ request => (call, i, request) ∈ asked
  | .holding _ request stream => (call, i, request) ∈ asked ∧ stream.Quiet
  | .awaiting _ request stream requestId =>
    (call, i, request) ∈ asked ∧ InFlight produced call request requestId stream
  | .returned request result =>
    (call, i, request) ∈ asked ∧ ∀ body, result = .ok body → (call, request, body) ∈ produced

structure World.Sound (w : World Content Value Reason) : Prop where
  idle : ∀ lane, ∀ c ∈ (w.pools lane).idle, c.Quiet
  threads : ∀ (i : Nat) (thread : Thread Content Value Reason), w.threads[i]? = some thread →
    thread.phase.Sound w.asked w.produced i thread.call
  counted : ∀ lane, (w.pools lane).opened =
    (w.pools lane).idle.length + (w.threads.map (·.phase.uses lane)).sum
  limited : ∀ lane, (w.pools lane).opened ≤ connectionsPerLane
  asked : w.asked.map (·.1) = List.range w.calls

theorem Phase.Sound.mono {asked asked' : List (Nat × Nat × RecorderRequestBody Content)}
    {produced produced' : List (Answered Content Value Reason)} {i call : Nat}
    {phase : Phase Content Value Reason} (h : phase.Sound asked produced i call)
    (hAsked : ∀ ask ∈ asked, ask ∈ asked') (hMore : ∀ answer ∈ produced, answer ∈ produced') :
    phase.Sound asked' produced' i call := by
  cases phase with
  | ready => trivial
  | checkingOut lane request => exact hAsked _ h
  | connecting lane request => exact hAsked _ h
  | holding lane request stream => exact ⟨hAsked _ h.1, h.2⟩
  | awaiting lane request stream requestId => exact ⟨hAsked _ h.1, h.2.mono hMore⟩
  | returned request result =>
    exact ⟨hAsked _ h.1, fun body hBody => hMore _ (h.2 body hBody)⟩

namespace World

variable {w w' : World Content Value Reason} {i call : Nat} {lane : Lane}
  {phase phase' : Phase Content Value Reason}

theorem setPool_self (w : World Content Value Reason) (lane : Lane) :
    w.setPool lane (w.pools lane) = w := by
  rw [setPool, Function.update_eq_self]

theorem Sound.move (h : w.Sound) (hAt : w.threads[i]? = some ⟨call, phase⟩)
    {pool : PoolState Content Value Reason}
    (hOthers : ∀ other, other ≠ lane → phase'.uses other = phase.uses other)
    (hPhase : phase'.Sound w.asked w.produced i call) (hIdle : ∀ c ∈ pool.idle, c.Quiet)
    (hCount : pool.opened + (w.pools lane).idle.length + phase.uses lane =
      (w.pools lane).opened + pool.idle.length + phase'.uses lane)
    (hLimit : pool.opened ≤ connectionsPerLane) :
    ((w.setPool lane pool).setPhase i phase').Sound := by
  have hSum : ∀ other : Lane,
      ((w.threads.modify i fun thread => { thread with phase := phase' }).map
        (·.phase.uses other)).sum + phase.uses other =
      (w.threads.map (·.phase.uses other)).sum + phase'.uses other :=
    fun other => sum_map_modify hAt _ _
  refine ⟨fun other => ?_, ?_, fun other => ?_, fun other => ?_, h.asked⟩
  · by_cases hLane : other = lane
    · subst hLane
      simpa only [setPhase, setPool, Function.update_self] using hIdle
    · simpa only [setPhase, setPool, Function.update_of_ne hLane] using h.idle other
  · intro j thread hThread
    change (w.threads.modify i _)[j]? = some thread at hThread
    rw [getElem?_modify_of hAt] at hThread
    split at hThread
    · rename_i hj
      obtain rfl := Option.some.inj hThread
      exact hj ▸ hPhase
    · exact h.threads j thread hThread
  · have hBefore := h.counted other
    have hMoved := hSum other
    by_cases hLane : other = lane
    · subst hLane
      simp only [setPhase, setPool, Function.update_self]
      omega
    · have hSame := hOthers other hLane
      simp only [setPhase, setPool, Function.update_of_ne hLane]
      omega
  · by_cases hLane : other = lane
    · subst hLane
      simpa only [setPhase, setPool, Function.update_self] using hLimit
    · simpa only [setPhase, setPool, Function.update_of_ne hLane] using h.limited other

theorem Sound.goOn (h : w.Sound) (hAt : w.threads[i]? = some ⟨call, phase⟩)
    (hUses : ∀ lane, phase'.uses lane = phase.uses lane)
    (hPhase : phase'.Sound w.asked w.produced i call) : (w.setPhase i phase').Sound := by
  rw [← setPool_self w .control]
  refine h.move hAt (fun other _ => hUses other) hPhase (h.idle _) ?_ (h.limited _)
  rw [hUses]

theorem Sound.uses_le (h : w.Sound) (hAt : w.threads[i]? = some ⟨call, phase⟩) (lane : Lane) :
    phase.uses lane ≤ (w.pools lane).opened := by
  have hWithout : _ + phase.uses lane = (w.threads.map (·.phase.uses lane)).sum + 0 :=
    sum_map_modify hAt (·.phase.uses lane) fun thread => { thread with phase := .ready }
  have hCounted := h.counted lane
  omega

theorem Sound.leave (h : w.Sound) (hAt : w.threads[i]? = some ⟨call, phase⟩)
    (hUsed : ∀ other, phase.uses other = if lane = other then 1 else 0)
    {request : RecorderRequestBody Content} {error : ExchangeError}
    (hAsked : (call, i, request) ∈ w.asked) :
    ((w.discard lane).setPhase i (.returned request (.error error))).Sound := by
  have hUse : phase.uses lane = 1 := (hUsed lane).trans (if_pos rfl)
  have hOpen : 1 ≤ (w.pools lane).opened := hUse ▸ h.uses_le hAt lane
  refine h.move hAt (fun other hOther => ?_) ⟨hAsked, fun body hBody => by cases hBody⟩
    (h.idle lane) ?_ (Nat.le_trans (Nat.sub_le _ _) (h.limited lane))
  · rw [hUsed other, if_neg (Ne.symm hOther), Phase.uses]
  · change (w.pools lane).opened - 1 + (w.pools lane).idle.length + _ =
      _ + (w.pools lane).idle.length + 0
    omega

theorem Sound.drop (h : w.Sound) (stream : Connection Content Value Reason) :
    (w.drop stream).Sound :=
  ⟨h.idle, h.threads, h.counted, h.limited, h.asked⟩

theorem Sound.fetchRequestId (h : w.Sound) : w.fetchRequestId.Sound :=
  ⟨h.idle, h.threads, h.counted, h.limited, h.asked⟩

theorem Sound.abandon (h : w.Sound) (hAt : w.threads[i]? = some ⟨call, phase⟩)
    (hUsed : ∀ other, phase.uses other = if lane = other then 1 else 0)
    {request : RecorderRequestBody Content} (hAsked : (call, i, request) ∈ w.asked)
    (stream : Connection Content Value Reason) (error : ExchangeError) :
    (w.abandon i lane request stream error).Sound :=
  (h.leave hAt hUsed hAsked).drop stream

theorem Sound.produce (h : w.Sound) (answers : List (Answered Content Value Reason))
    (running : List Nat) :
    ({ w with produced := w.produced ++ answers, running } : World Content Value Reason).Sound :=
  ⟨h.idle, fun j thread hThread => (h.threads j thread hThread).mono (fun _ => id)
    fun _ => List.mem_append_left _, h.counted, h.limited, h.asked⟩

theorem Sound.begin (h : w.Sound) (hAt : w.threads[i]? = some ⟨call, phase⟩)
    (hUses : ∀ lane, phase.uses lane = 0) (request : RecorderRequestBody Content) :
    ({ w with
      threads := w.threads.modify i fun _ => ⟨w.calls, .checkingOut lane request⟩
      calls := w.calls + 1
      asked := w.asked ++ [(w.calls, i, request)] } : World Content Value Reason).Sound := by
  refine ⟨h.idle, ?_, fun other => ?_, h.limited, ?_⟩
  · intro j thread hThread
    rw [getElem?_modify_of hAt] at hThread
    split at hThread
    · rename_i hj
      obtain rfl := Option.some.inj hThread
      exact hj ▸ List.mem_append_right _ List.mem_cons_self
    · exact (h.threads j thread hThread).mono (fun _ => List.mem_append_left _) fun _ => id
  · have hBegun : _ + phase.uses other = (w.threads.map (·.phase.uses other)).sum + 0 :=
      sum_map_modify hAt (·.phase.uses other) fun _ => ⟨w.calls, .checkingOut lane request⟩
    rw [hUses, Nat.add_zero, Nat.add_zero] at hBegun
    change _ = _ + (List.map _ (w.threads.modify i _)).sum
    rw [hBegun]
    exact h.counted other
  · change (w.asked ++ [(w.calls, i, request)]).map (·.1) = List.range (w.calls + 1)
    rw [List.map_append, h.asked, List.range_succ, List.map_singleton]

theorem Sound.turnIdle (h : w.Sound) {c : Connection Content Value Reason} (hQuiet : c.Quiet)
    (k : Nat) :
    (w.setPool lane { w.pools lane with idle := (w.pools lane).idle.set k c }).Sound := by
  refine ⟨fun other => ?_, h.threads, fun other => ?_, fun other => ?_, h.asked⟩
  · by_cases hLane : other = lane
    · subst hLane
      simp only [setPool, Function.update_self]
      intro stream hStream
      rcases List.mem_or_eq_of_mem_set hStream with hStays | rfl
      · exact h.idle other stream hStays
      · exact hQuiet
    · simpa only [setPool, Function.update_of_ne hLane] using h.idle other
  · by_cases hLane : other = lane
    · subst hLane
      simpa only [setPool, Function.update_self, List.length_set] using h.counted other
    · simpa only [setPool, Function.update_of_ne hLane] using h.counted other
  · by_cases hLane : other = lane
    · subst hLane
      simpa only [setPool, Function.update_self] using h.limited other
    · simpa only [setPool, Function.update_of_ne hLane] using h.limited other

theorem Sound.checkout (h : w.Sound) {request : RecorderRequestBody Content}
    (hAt : w.threads[i]? = some ⟨call, .checkingOut lane request⟩) :
    (∀ stream idle, (w.pools lane).idle = stream :: idle →
      ((w.setPool lane { w.pools lane with idle }).setPhase i
        (.holding lane request stream)).Sound) ∧
    ((w.pools lane).opened < connectionsPerLane →
      ((w.setPool lane { w.pools lane with opened := (w.pools lane).opened + 1 }).setPhase i
        (.connecting lane request)).Sound) := by
  have hAsked : (call, i, request) ∈ w.asked := h.threads _ _ hAt
  have hUnused : ∀ other, other ≠ lane → (if lane = other then 1 else 0) = 0 :=
    fun other hOther => if_neg (Ne.symm hOther)
  refine ⟨fun stream idle hIdle => ?_, fun hRoom => ?_⟩
  · have hQuiet := h.idle lane
    rw [hIdle] at hQuiet
    refine h.move hAt hUnused ⟨hAsked, hQuiet stream List.mem_cons_self⟩
      (fun c hc => hQuiet c (List.mem_cons_of_mem _ hc)) ?_ (h.limited lane)
    rw [hIdle, Phase.uses, Phase.uses, if_pos rfl, List.length_cons]
    change (w.pools lane).opened + (idle.length + 1) + 0 = (w.pools lane).opened + idle.length + 1
    omega
  · refine h.move hAt hUnused hAsked (h.idle lane) ?_ hRoom
    rw [Phase.uses, Phase.uses, if_pos rfl]
    change _ + 1 + (w.pools lane).idle.length + 0 = _ + (w.pools lane).idle.length + 1
    omega

theorem Sound.finish (h : w.Sound) {request : RecorderRequestBody Content}
    {stream : Connection Content Value Reason} {requestId : Nat}
    (hAt : w.threads[i]? = some ⟨call, .awaiting lane request stream requestId⟩)
    {response : ResponseFrame Value Reason} {toClient : List (ResponseFrame Value Reason)}
    (hClient : stream.toClient = response :: toClient) :
    ((w.checkin lane { stream with toClient }).setPhase i
      (.returned request (.ok response.body))).Sound := by
  have hThread := h.threads _ _ hAt
  obtain ⟨hProduced, hQuiet⟩ := hThread.2.answer hClient
  refine h.move hAt (fun other hOther => (if_neg (Ne.symm hOther)).symm) ⟨hThread.1, ?_⟩ ?_ ?_
    (h.limited lane)
  · intro body hBody
    obtain rfl := Except.ok.inj hBody
    exact hProduced
  · intro c hc
    rcases List.mem_cons.mp hc with rfl | hStays
    · exact hQuiet
    · exact h.idle lane c hStays
  · rw [Phase.uses, Phase.uses, if_pos rfl, List.length_cons]
    change (w.pools lane).opened + _ + 1 = (w.pools lane).opened + (_ + 1) + 0
    omega

theorem Sound.next (h : w.Sound) (hNext : w.Next w') : w'.Sound := by
  cases hNext with
  | begun lane request hAt hOver =>
    refine h.begin hAt (fun other => ?_) request
    rcases hOver with rfl | ⟨_, _, rfl⟩
    · rfl
    · rfl
  | took hAt hIdle => exact (h.checkout hAt).1 _ _ hIdle
  | opened hAt hRoom => exact (h.checkout hAt).2 hRoom
  | waitedInVain hAt error =>
    have hAsked := h.threads _ _ hAt
    exact h.goOn hAt (fun _ => rfl) ⟨hAsked, fun body hBody => by cases hBody⟩
  | connected hAt =>
    have hAsked := h.threads _ _ hAt
    exact h.goOn hAt (fun _ => rfl) ⟨hAsked, rfl, rfl, rfl, rfl⟩
  | notConnected hAt message =>
    have hAsked := h.threads _ _ hAt
    exact h.leave hAt (fun _ => rfl) hAsked
  | notWritten hAt torn message =>
    have hThread := h.threads _ _ hAt
    exact h.fetchRequestId.abandon hAt (fun _ => rfl) hThread.1 _ _
  | notFlushed hAt hFrame message =>
    have hThread := h.threads _ _ hAt
    exact h.fetchRequestId.abandon hAt (fun _ => rfl) hThread.1 _ _
  | written hAt hFrame =>
    have hThread := h.threads _ _ hAt
    exact h.fetchRequestId.goOn hAt (fun _ => rfl) ⟨hThread.1, hThread.2.write hFrame⟩
  | received hAt hClient => exact h.finish hAt hClient
  | notReceived hAt toClient error =>
    have hThread := h.threads _ _ hAt
    exact h.abandon hAt (fun _ => rfl) hThread.1 _ _
  | turnedIdle hAt hTurn =>
    obtain ⟨hServe⟩ := hTurn
    have hQuiet := (h.idle _ _ (List.mem_of_getElem? hAt)).serve hServe
    exact (h.turnIdle hQuiet _).produce _ _
  | @turnedHeld _ i call lane request stream hAt hTurn =>
    obtain @⟨act, after, answered, running, hServe⟩ := hTurn
    have hThread := h.threads _ _ hAt
    have hOn : (w.setPhase i (.holding lane request after)).Sound :=
      h.goOn hAt (fun _ => rfl) ⟨hThread.1, hThread.2.serve hServe⟩
    exact hOn.produce _ _
  | turnedAwaited hAt hTurn =>
    obtain ⟨hServe⟩ := hTurn
    have hThread := h.threads _ _ hAt
    -- the connection may carry the answer only once it is recorded
    exact (h.produce _ _).goOn hAt (fun _ => rfl) ⟨hThread.1, hThread.2.serve hServe⟩
  | turnedDropped hAt hTurn =>
    obtain ⟨hServe⟩ := hTurn
    exact World.Sound.produce (w := { w with dropped := w.dropped.set _ _ })
      ⟨h.idle, h.threads, h.counted, h.limited, h.asked⟩ _ _
  | ended call => exact ⟨h.idle, h.threads, h.counted, h.limited, h.asked⟩

theorem Sound.initial (threads nextRequestId : Nat) :
    (World.initial threads nextRequestId : World Content Value Reason).Sound := by
  refine ⟨fun _ c hc => (by cases hc), ?_, fun lane => ?_, fun _ => Nat.zero_le _, rfl⟩
  · intro i thread hThread
    obtain rfl := List.eq_of_mem_replicate (List.mem_of_getElem? hThread)
    trivial
  · change 0 = 0 + ((List.replicate threads (⟨0, .ready⟩ : Thread _ _ _)).map _).sum
    rw [List.map_replicate, List.sum_replicate_nat]
    rfl

end World

def Connection.unanswered (c : Connection Content Value Reason) : List Nat :=
  (c.toServer ++ c.serving.toList).map (·.call)

def Thread.unanswered (thread : Thread Content Value Reason) : List Nat :=
  match thread.phase with
  | .ready | .returned _ _ => []
  | .checkingOut _ _ | .connecting _ _ => [thread.call]
  | .holding _ _ stream => thread.call :: stream.unanswered
  | .awaiting _ _ stream _ => stream.unanswered

section Unanswered

variable {own : Nat} {lane : Lane} {request : RecorderRequestBody Content}
  {stream : Connection Content Value Reason} {requestId : Nat}

@[simp] theorem unanswered_checkingOut :
    (⟨own, .checkingOut lane request⟩ : Thread Content Value Reason).unanswered = [own] := rfl

@[simp] theorem unanswered_holding :
    (Thread.mk own (.holding lane request stream)).unanswered = own :: stream.unanswered := rfl

@[simp] theorem unanswered_awaiting :
    (Thread.mk own (.awaiting lane request stream requestId)).unanswered = stream.unanswered := rfl

end Unanswered

def World.answers (w : World Content Value Reason) (call : Nat) : Nat :=
  (w.threads.flatMap Thread.unanswered).count call +
    (w.dropped.flatMap Connection.unanswered).count call + (w.produced.map (·.1)).count call

structure World.Single (w : World Content Value Reason) : Prop where
  once : ∀ call, w.answers call ≤ 1
  later : ∀ call, w.calls ≤ call → w.answers call = 0

theorem unanswered_serve {c after : Connection Content Value Reason} {act : ServerAct Value Reason}
    {answered : Option (Answered Content Value Reason)} {running : List Nat}
    (hServe : serve c act = some (after, answered, running)) (call : Nat) :
    after.unanswered.count call + (answered.toList.map (·.1)).count call ≤
      c.unanswered.count call := by
  cases act with
  | read =>
    simp only [serve] at hServe
    split at hServe
    · cases hServe
    · rename_i hOpen
      have hServing : c.serving = none := by
        rcases hEmpty : c.serving with _ | frame
        · rfl
        · exact absurd (.inr (by rw [hEmpty]; rfl)) hOpen
      split at hServe
      · cases hServe
      · rename_i frame rest hFrames
        have hBefore : c.unanswered = frame.call :: rest.map (·.call) := by
          rw [Connection.unanswered, hServing, hFrames, Option.toList_none, List.append_nil]
          rfl
        rw [hBefore, List.count_cons]
        split at hServe
        · obtain ⟨rfl, hAnswered⟩ := Prod.mk.inj (Option.some.inj hServe)
          obtain ⟨rfl, -⟩ := Prod.mk.inj hAnswered
          simp only [Connection.unanswered, hServing, Option.toList_none, List.append_nil,
            List.map_nil, List.count_nil]
          omega
        · obtain ⟨rfl, hAnswered⟩ := Prod.mk.inj (Option.some.inj hServe)
          obtain ⟨rfl, -⟩ := Prod.mk.inj hAnswered
          simp only [Connection.unanswered, Option.toList_some, Option.toList_none,
            List.map_append, List.map_cons, List.map_nil, List.count_append, List.count_cons,
            List.count_nil]
          omega
  | answer outcome =>
    simp only [serve] at hServe
    split at hServe
    · cases hServe
    · split at hServe
      · cases hServe
      · rename_i frame hServing
        obtain ⟨rfl, hAnswered⟩ := Prod.mk.inj (Option.some.inj hServe)
        obtain ⟨rfl, -⟩ := Prod.mk.inj hAnswered
        simp only [Connection.unanswered, hServing, Option.toList_some, Option.toList_none,
          List.append_nil, List.map_append, List.map_cons, List.map_nil, List.count_append]
        exact Nat.le_refl _
  | close lost =>
    obtain ⟨rfl, hAnswered⟩ := Prod.mk.inj (Option.some.inj hServe)
    obtain ⟨rfl, -⟩ := Prod.mk.inj hAnswered
    simp only [Connection.unanswered, Option.toList_none, List.append_nil, List.map_append,
      List.map_nil, List.count_append, List.count_nil, Nat.add_zero]
    exact Nat.le_add_right _ _

namespace World

variable {w w' : World Content Value Reason} {i own : Nat} {lane : Lane}
  {phase phase' : Phase Content Value Reason}

theorem answers_modify {thread : Thread Content Value Reason} (hAt : w.threads[i]? = some thread)
    (f : Thread Content Value Reason → Thread Content Value Reason) (call : Nat) :
    ({ w with threads := w.threads.modify i f } : World _ _ _).answers call +
        thread.unanswered.count call = w.answers call + (f thread).unanswered.count call := by
  have hThreads := count_flatMap_modify hAt Thread.unanswered f call
  simp only [answers]
  omega

theorem Single.of_le (h : w.Single) (hCalls : w'.calls = w.calls)
    (hLe : ∀ call, w'.answers call ≤ w.answers call) : w'.Single where
  once call := Nat.le_trans (hLe call) (h.once call)
  later call hCall := by
    have hNone := h.later call (hCalls ▸ hCall)
    exact Nat.le_zero.mp (hNone ▸ hLe call)

theorem Single.setPool (h : w.Single) (lane : Lane) (pool : PoolState Content Value Reason) :
    (w.setPool lane pool).Single := ⟨h.once, h.later⟩

theorem Single.fetchRequestId (h : w.Single) : w.fetchRequestId.Single := ⟨h.once, h.later⟩

theorem Single.goOn (h : w.Single) (hAt : w.threads[i]? = some ⟨own, phase⟩)
    (hLe : ∀ call, (Thread.mk own phase').unanswered.count call ≤
      (Thread.mk own phase).unanswered.count call) : (w.setPhase i phase').Single := by
  refine h.of_le rfl fun call => ?_
  have hAnswers : (w.setPhase i phase').answers call + (Thread.mk own phase).unanswered.count call =
      w.answers call + (Thread.mk own phase').unanswered.count call :=
    answers_modify hAt (fun thread => { thread with phase := phase' }) call
  have hFewer := hLe call
  omega

theorem Single.abandon (h : w.Single) (hAt : w.threads[i]? = some ⟨own, phase⟩)
    {stream : Connection Content Value Reason}
    (hLe : ∀ call, stream.unanswered.count call ≤ (Thread.mk own phase).unanswered.count call)
    (request : RecorderRequestBody Content) (error : ExchangeError) :
    (w.abandon i lane request stream error).Single := by
  refine h.of_le rfl fun call => ?_
  have hThreads := count_flatMap_modify hAt Thread.unanswered
    (fun thread => { thread with phase := .returned request (.error error) }) call
  have hFewer := hLe call
  simp only [answers, World.abandon, drop, discard, World.setPool, setPhase, List.flatMap_append,
    List.flatMap_singleton, List.count_append]
  simp only [Thread.unanswered, List.count_nil] at hThreads hFewer
  omega

theorem Single.begin (h : w.Single) (hAt : w.threads[i]? = some ⟨own, phase⟩)
    (hOver : phase = .ready ∨ ∃ request result, phase = .returned request result)
    (request : RecorderRequestBody Content) :
    ({ w with
      threads := w.threads.modify i fun _ => ⟨w.calls, .checkingOut lane request⟩
      calls := w.calls + 1
      asked := w.asked ++ [(w.calls, i, request)] } : World Content Value Reason).Single := by
  have hNone : (Thread.mk own phase).unanswered = [] := by
    rcases hOver with rfl | ⟨_, _, rfl⟩
    · rfl
    · rfl
  have hBegun : ∀ call, World.answers { w with
      threads := w.threads.modify i fun _ => ⟨w.calls, .checkingOut lane request⟩ } call =
      w.answers call + if w.calls = call then 1 else 0 := by
    intro call
    have hAnswers := answers_modify hAt (fun _ => ⟨w.calls, .checkingOut lane request⟩) call
    simpa only [hNone, List.count_nil, Nat.add_zero, unanswered_checkingOut, List.count_singleton,
      beq_iff_eq] using hAnswers
  refine ⟨fun call => Nat.le_trans (Nat.le_of_eq (hBegun call)) ?_,
    fun call hLater => (hBegun call).trans ?_⟩
  · by_cases hOwn : w.calls = call
    · have hFresh := h.later call (Nat.le_of_eq hOwn)
      rw [if_pos hOwn]
      omega
    · rw [if_neg hOwn]
      exact h.once call
  · rw [if_neg (Nat.ne_of_lt hLater), h.later call (Nat.le_of_lt hLater)]

theorem Single.turn (h : w.Single)
    {put : Connection Content Value Reason → World Content Value Reason}
    {c : Connection Content Value Reason} (hTurn : Turned put c w')
    (hCalls : ∀ after, (put after).calls = w.calls)
    (hPut : ∀ after call, (put after).answers call + c.unanswered.count call ≤
      w.answers call + after.unanswered.count call) : w'.Single := by
  obtain @⟨act, after, answered, running, hServe⟩ := hTurn
  refine h.of_le (hCalls after) fun call => ?_
  have hServed := unanswered_serve hServe call
  have hKept := hPut after call
  have hAnswers : World.answers { put after with
      produced := (put after).produced ++ answered.toList
      running := (put after).running ++ running } call =
      (put after).answers call + (answered.toList.map (·.1)).count call := by
    simp only [answers, List.map_append, List.count_append]
    omega
  omega

theorem unanswered_quiet {c : Connection Content Value Reason} (h : c.Quiet) :
    c.unanswered = [] := by
  rw [Connection.unanswered, h.toServer, h.serving]
  rfl

theorem unanswered_write (c : Connection Content Value Reason) {frame : RequestFrame Content}
    {request : RecorderRequestBody Content} {requestId : Nat}
    (hFrame : frame.Is own request requestId) (call : Nat) :
    (Connection.unanswered { c with toServer := c.toServer ++ [frame] }).count call =
      (own :: c.unanswered).count call := by
  simp only [Connection.unanswered, List.map_append, List.map_cons, List.map_nil, List.count_append,
    List.count_cons, List.count_nil, hFrame.call]
  omega

theorem Single.next (h : w.Single) (hSound : w.Sound) (hNext : w.Next w') : w'.Single := by
  cases hNext with
  | begun lane request hAt hOver => exact h.begin hAt hOver request
  | took hAt hIdle =>
    refine (h.setPool _ _).goOn hAt fun call => ?_
    have hQuiet := hSound.idle _ _ (hIdle ▸ List.mem_cons_self)
    rw [unanswered_holding, unanswered_quiet hQuiet]
    exact Nat.le_refl _
  | opened hAt hRoom => exact (h.setPool _ _).goOn hAt fun call => Nat.le_refl _
  | waitedInVain hAt error => exact h.goOn hAt fun call => Nat.zero_le _
  | connected hAt => exact h.goOn hAt fun call => Nat.le_refl _
  | notConnected hAt message => exact (h.setPool _ _).goOn hAt fun call => Nat.zero_le _
  | notWritten hAt torn message =>
    refine h.fetchRequestId.abandon hAt (fun call => ?_) _ _
    exact List.count_le_count_cons
  | notFlushed hAt hFrame message =>
    exact h.fetchRequestId.abandon hAt
      (fun call => Nat.le_of_eq (unanswered_write _ hFrame call)) _ _
  | written hAt hFrame =>
    exact h.fetchRequestId.goOn hAt fun call => Nat.le_of_eq (unanswered_write _ hFrame call)
  | received hAt hClient => exact (h.setPool _ _).goOn hAt fun call => Nat.zero_le _
  | notReceived hAt toClient error =>
    refine h.abandon hAt (fun call => ?_) _ _
    exact Nat.le_refl _
  | turnedIdle hAt hTurn =>
    refine h.turn hTurn (fun _ => rfl) fun after call => ?_
    rw [unanswered_quiet (hSound.idle _ _ (List.mem_of_getElem? hAt))]
    exact Nat.le_add_right _ _
  | @turnedHeld _ i own lane request stream hAt hTurn =>
    refine h.turn hTurn (fun _ => rfl) fun after call => ?_
    have hModify : (w.setPhase i (.holding lane request after)).answers call +
        (own :: stream.unanswered).count call =
        w.answers call + (own :: after.unanswered).count call := answers_modify hAt _ call
    rw [List.count_cons, List.count_cons] at hModify
    omega
  | @turnedAwaited _ i own requestId lane request stream hAt hTurn =>
    refine h.turn hTurn (fun _ => rfl) fun after call => ?_
    have hModify : (w.setPhase i (.awaiting lane request after requestId)).answers call +
        stream.unanswered.count call = w.answers call + after.unanswered.count call :=
      answers_modify hAt _ call
    exact Nat.le_of_eq hModify
  | turnedDropped hAt hTurn =>
    refine h.turn hTurn (fun _ => rfl) fun after call => ?_
    have hSet := count_flatMap_modify hAt Connection.unanswered (fun _ => after) call
    simp only [answers, List.set_eq_modify]
    omega
  | ended call => exact ⟨h.once, h.later⟩

theorem Single.initial (threads nextRequestId : Nat) :
    (World.initial threads nextRequestId : World Content Value Reason).Single := by
  have hNone : ∀ call,
      (World.initial threads nextRequestId : World Content Value Reason).answers call = 0 := by
    intro call
    have hThreads : (List.replicate threads (⟨0, .ready⟩ : Thread Content Value Reason)).flatMap
        Thread.unanswered = [] := by
      refine List.flatMap_eq_nil_iff.mpr fun thread hThread => ?_
      rw [List.eq_of_mem_replicate hThread]
      rfl
    simp only [answers, World.initial, hThreads, List.flatMap_nil, List.map_nil, List.count_nil]
  exact ⟨fun call => (hNone call).symm ▸ Nat.zero_le 1, fun call _ => hNone call⟩

theorem Single.nodup (h : w.Single) : (w.produced.map (·.1)).Nodup :=
  List.nodup_iff_count_le_one.mpr fun call => Nat.le_trans (Nat.le_add_left _ _) (h.once call)

theorem Single.only (h : w.Single) {call : Nat} {request request' : RecorderRequestBody Content}
    {body body' : RecorderResponseBody Value Reason} (hHere : (call, request, body) ∈ w.produced) :
    (call, request', body') ∈ w.produced ↔ request' = request ∧ body' = body := by
  constructor
  · intro hThere
    have hSame := List.inj_on_of_nodup_map h.nodup hThere hHere rfl
    obtain ⟨hRequest, hBody⟩ := Prod.mk.inj (Prod.mk.inj hSame).2
    exact ⟨hRequest, hBody⟩
  · rintro ⟨rfl, rfl⟩
    exact hHere

theorem sound_of_run {threads nextRequestId : Nat}
    (hRun : Run step (fun _ _ => True) (World.initial threads nextRequestId) w) :
    w.Sound ∧ w.Single :=
  Run.invariant (P := fun w => w.Sound ∧ w.Single) ⟨.initial _ _, .initial _ _⟩
    (fun _ _ _ h _ hStep => ⟨h.1.next (next_of_step hStep), h.2.next h.1 (next_of_step hStep)⟩) hRun

end World

/-- A number of threads calls the recorder over two lanes, and their steps, those of the server
and the failures come in any order. An exchange that returns an answer returns the one answer that
the server made for its request; a connection in a pool carries no request and no answer; the
connections that are open are those in the pool and those in use, and no more than the lane has. -/
theorem answers_belong_to_requests (threads nextRequestId : Nat)
    {w : World Content Value Reason}
    (hRun : Run World.step (fun _ _ => True) (World.initial threads nextRequestId) w) :
    (w.asked.map (·.1)).Nodup ∧
      (∀ (i : Nat) (thread : Thread Content Value Reason), w.threads[i]? = some thread →
        ∀ request body, thread.phase = .returned request (.ok body) →
        (thread.call, i, request) ∈ w.asked ∧
          ∀ request' body', (thread.call, request', body') ∈ w.produced ↔
            request' = request ∧ body' = body) ∧
      (∀ lane, ∀ c ∈ (w.pools lane).idle, c.Quiet) ∧
      ∀ lane, (w.pools lane).opened =
          (w.pools lane).idle.length + (w.threads.map (·.phase.uses lane)).sum ∧
        (w.pools lane).opened ≤ connectionsPerLane := by
  obtain ⟨hSound, hSingle⟩ := World.sound_of_run hRun
  refine ⟨?_, ?_, hSound.idle, fun lane => ⟨hSound.counted lane, hSound.limited lane⟩⟩
  · rw [hSound.asked]
    exact List.nodup_range
  · intro i thread hThread request body hReturned
    have hPhase := hSound.threads i thread hThread
    rw [hReturned] at hPhase
    exact ⟨hPhase.1, fun request' body' => hSingle.only (hPhase.2 body rfl)⟩

end Model

namespace Late

def first : RecorderRequestBody Nat := ⟨.record, 6⟩
def second : RecorderRequestBody Nat := ⟨.record, 7⟩

/-- The first exchange is given up, and its answer is made while the second waits. -/
def events : List (Event Nat Nat Unit) :=
  [.call 0 .consensus first, .openNew 0, .connected 0, .written 0 1000,
    .server (.thread 0) .read, .readFailed 0 "recorder RPC timed out",
    .call 0 .consensus second, .openNew 0, .connected 0, .written 0 1000,
    .server (.thread 0) .read, .server (.dropped 0) (.answer (.dispatched (.ok 60))),
    .server (.thread 0) (.answer (.dispatched (.ok 70))), .received 0]

def last : World Nat Nat Unit :=
  (execute World.step (World.initial 1 1) events).getD (World.initial 1 1)

end Late

open Late in
theorem late_answer_is_not_taken :
    execute World.step (World.initial 1 1) events = some last ∧
      (0, first, ⟨.record, .ok 60⟩) ∈ last.produced ∧
      last.threads = [⟨1, .returned second (.ok ⟨.record, .ok 70⟩)⟩] ∧
      ∀ request body, (1, request, body) ∈ last.produced ↔
        request = second ∧ body = ⟨.record, .ok 70⟩ := by
  have hEvents : execute World.step (World.initial 1 1) events = some last := rfl
  have hRun : Run World.step (fun _ _ => True) (World.initial 1 1) last :=
    Run.of_execute (fun _ _ _ => trivial) hEvents
  have hThread : last.threads[0]? = some ⟨1, .returned second (.ok ⟨.record, .ok 70⟩)⟩ := rfl
  have hReturned := (answers_belong_to_requests 1 1 hRun).2.1 0 _ hThread second _ rfl
  exact ⟨hEvents, List.mem_cons_self, rfl, hReturned.2⟩

end Rhiza.Node.RecorderTcp
