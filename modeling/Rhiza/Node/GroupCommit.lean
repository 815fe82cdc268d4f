import Rhiza.Library.Fallible
import Rhiza.Library.Parties
import Rhiza.Node.Writer

/-! # Group commit

Calls put their members into a queue. A call that finds no leader becomes one: it
waits for the commit lock, takes groups of jobs from the queue, executes them as
one batch and publishes to every job its own part of the results. An error ends a
leader, and it fails what is still pending. `cancel_operations` fails what is
pending without the commit lock, while a leader may be at work.
-/

namespace Rhiza.Node

open Rhiza.Core Rhiza.Library

def usizeMax : Nat := 2 ^ 64 - 1

def saturatingAdd (a b : Nat) : Nat := min (a + b) usizeMax

structure RuntimeBatchMember where
  requestId : String
  payload : Bytes
  deriving DecidableEq

/-- The shared part of `SqlGroupCommitJob` and `KvGroupCommitJob`; `id` is its place in
the order of accepted calls. -/
structure GroupCommitJob where
  id : Nat
  memberCount : Nat
  encodedBytes : Nat
  deriving DecidableEq

def GroupCommitJob.new (id : Nat) (members : List RuntimeBatchMember) : GroupCommitJob where
  id
  memberCount := members.length
  encodedBytes := members.foldl (fun bytes member => saturatingAdd bytes member.payload.length) 0

def maxSqlWriteBatchMembers : Nat := 1024
def maxTypedSqlWriteBatchMembers : Nat := 256
def defaultSqlGroupCommitQueueCapacity : Nat := 64
def maxSqlGroupCommitActiveBytes : Nat := 4 * maxCommandBytes
def maxSqlGroupCommitPendingBytes : Nat := defaultSqlGroupCommitQueueCapacity * maxCommandBytes
def maxKvBatchMembers : Nat := 256
def maxKvGroupCommitMembers : Nat := 1024
def kvGroupCommitQueueCapacity : Nat := 64
def maxKvGroupCommitPendingBytes : Nat := kvGroupCommitQueueCapacity * maxCommandBytes

abbrev MemberResult (Response : Type) := Except NodeError Response

abbrev GroupCommitResult (Response : Type) := Except NodeError (List (MemberResult Response))

structure GroupCommit where
  name : String
  capacity : Nat
  maxMembers : Nat
  maxActiveBytes : Nat
  maxPendingBytes : Nat
  /-- The check of the public batch function before its call is queued. -/
  validateBatchLen : Nat → Except NodeError Unit
  /-- The check of `enqueue` that looks at the new job alone. -/
  checkJob : GroupCommitJob → Except NodeError Unit
  /-- Whether cancellation, a fatal state and a wrong number of results fail an executed
  group as a whole. -/
  failsGroup : Bool

def validateSqlBatchLen (len : Nat) : Except NodeError Unit :=
  if 1 ≤ len ∧ len ≤ maxTypedSqlWriteBatchMembers then .ok ()
  else .error (.invalidRequest
    s!"SQL write batch must contain 1..={maxTypedSqlWriteBatchMembers} commands")

def validateKvBatchLen (len : Nat) : Except NodeError Unit :=
  if 1 ≤ len ∧ len ≤ maxKvBatchMembers then .ok ()
  else .error (.invalidRequest s!"KV write batch must contain 1..={maxKvBatchMembers} commands")

def checkSqlJob (job : GroupCommitJob) : Except NodeError Unit :=
  if maxCommandBytes < job.encodedBytes then
    .error (.resourceExhausted s!"SQL group commit call exceeds {maxCommandBytes} encoded bytes")
  else .ok ()

def checkKvJob (job : GroupCommitJob) : Except NodeError Unit :=
  if job.memberCount = 0 ∨ maxKvBatchMembers < job.memberCount then
    .error (.invalidRequest s!"KV group commit call must contain 1..={maxKvBatchMembers} members")
  else if maxKvGroupCommitPendingBytes < job.encodedBytes then
    .error (.resourceExhausted
      s!"KV group commit call exceeds {maxKvGroupCommitPendingBytes} encoded bytes")
  else .ok ()

def sqlGroupCommit (capacity : Nat) : GroupCommit where
  name := "SQL"
  capacity
  maxMembers := maxSqlWriteBatchMembers
  maxActiveBytes := maxSqlGroupCommitActiveBytes
  maxPendingBytes := maxSqlGroupCommitPendingBytes
  validateBatchLen := validateSqlBatchLen
  checkJob := checkSqlJob
  failsGroup := true

def kvGroupCommit : GroupCommit where
  name := "KV"
  capacity := kvGroupCommitQueueCapacity
  maxMembers := maxKvGroupCommitMembers
  maxActiveBytes := maxKvGroupCommitPendingBytes
  maxPendingBytes := maxKvGroupCommitPendingBytes
  validateBatchLen := validateKvBatchLen
  checkJob := checkKvJob
  failsGroup := false

structure GroupCommitQueue where
  pending : List GroupCommitJob
  pendingEncodedBytes : Nat
  leaderActive : Bool
  deriving DecidableEq

variable (g : GroupCommit)

/-- The queue with the new job, and whether its call becomes the leader. -/
def enqueue (queue : GroupCommitQueue) (cancelled : Bool) (job : GroupCommitJob) :
    Except NodeError (GroupCommitQueue × Bool) := do
  ensure (cancelled = false) (.unavailable s!"{g.name} group commit is unavailable during shutdown")
  g.checkJob job
  ensure (queue.pending.length < g.capacity)
    (.resourceExhausted s!"{g.name} group commit queue is full (capacity {g.capacity})")
  let pendingEncodedBytes := saturatingAdd queue.pendingEncodedBytes job.encodedBytes
  ensure (pendingEncodedBytes ≤ g.maxPendingBytes)
    (.resourceExhausted
      s!"{g.name} group commit queue exceeds {g.maxPendingBytes} pending encoded bytes")
  pure ({ pending := queue.pending ++ [job], pendingEncodedBytes, leaderActive := true },
    !queue.leaderActive)

/-- The loop of `drain_next_group`: the jobs taken, what is left pending, and its bytes.
`none` is the panic of `checked_sub`. -/
def drainLoop (memberCount encodedBytes : Nat) (jobs : List GroupCommitJob) (pendingBytes : Nat) :
    List GroupCommitJob → Option (List GroupCommitJob × List GroupCommitJob × Nat)
  | [] => some (jobs, [], pendingBytes)
  | job :: pending =>
    let nextCount := saturatingAdd memberCount job.memberCount
    let nextEncodedBytes := saturatingAdd encodedBytes job.encodedBytes
    if jobs ≠ [] ∧ (g.maxMembers < nextCount ∨ g.maxActiveBytes < nextEncodedBytes) then
      some (jobs, job :: pending, pendingBytes)
    else if job.encodedBytes ≤ pendingBytes then
      drainLoop nextCount nextEncodedBytes (jobs ++ [job]) (pendingBytes - job.encodedBytes) pending
    else none

/-- The group, or `none` on an empty queue, and the queue after it. The outer `none` is a
panic. -/
def drainNextGroup (queue : GroupCommitQueue) :
    Option (Option (List GroupCommitJob) × GroupCommitQueue) :=
  if queue.pending = [] then some (none, { queue with leaderActive := false })
  else
    (drainLoop g 0 0 [] queue.pendingEncodedBytes queue.pending).map fun (jobs, pending, bytes) =>
      (some jobs, { queue with pending, pendingEncodedBytes := bytes })

structure GroupCall (Response : Type) where
  /-- What the caller handed over. -/
  own : List RuntimeBatchMember
  /-- The members that the job still holds. -/
  members : Option (List RuntimeBatchMember)
  /-- The slot that `publish` fills and `wait` empties. -/
  result : Option (GroupCommitResult Response)
  /-- The leader that this call runs before it waits, if it was elected. -/
  leads : Option Nat
  answer : Option (GroupCommitResult Response)
  deriving DecidableEq

inductive WorkerPhase (Response : Type)
  /-- In `lock_commit`. -/
  | locking
  /-- Before `collect_until_full_or_timeout`. -/
  | collecting
  /-- In its loop, which lets go of the queue. -/
  | waiting
  | draining
  /-- Before `ensure_ready` and `ensure_writes_active`. -/
  | checking (jobs : List GroupCommitJob)
  /-- Before the group is executed. -/
  | starting (jobs : List GroupCommitJob)
  | executing (jobs : List GroupCommitJob) (members : List RuntimeBatchMember)
  /-- With an error, `fail_pending` follows. -/
  | publishing (results : List (GroupCommitJob × GroupCommitResult Response))
      (error : Option NodeError)
  /-- Before `fail_pending`. -/
  | failing (error : NodeError)
  /-- The jobs that `fail_pending` took and has not published yet. -/
  | failed (jobs : List GroupCommitJob) (error : NodeError)
  | finished
  deriving DecidableEq

/-- A leader, or a thread in `cancel_operations`. -/
structure Worker (Response : Type) where
  elected : Bool
  phase : WorkerPhase Response
  /-- What its `fail_pending` took. -/
  took : List Nat
  deriving DecidableEq

/-- Who published a result: the leader of its group, or the `fail_pending` of a worker. -/
inductive Publisher
  | leader
  | failPending (worker : Nat)
  deriving DecidableEq

structure Publication (Response : Type) where
  job : Nat
  result : GroupCommitResult Response
  publisher : Publisher
  deriving DecidableEq

structure Execution (Response : Type) where
  members : List RuntimeBatchMember
  results : List (MemberResult Response)
  deriving DecidableEq

structure GroupSystem (Response : Type) where
  queue : GroupCommitQueue
  cancelled : Bool
  /-- The worker that holds the commit lock. -/
  commit : Option Nat
  calls : List (GroupCall Response)
  workers : List (Worker Response)
  panicked : Bool
  drained : List Nat
  groups : List (List GroupCommitJob)
  published : List (Publication Response)
  executions : List (Execution Response)
  deriving DecidableEq

def GroupSystem.initial (Response : Type) : GroupSystem Response where
  queue := { pending := [], pendingEncodedBytes := 0, leaderActive := false }
  cancelled := false
  commit := none
  calls := []
  workers := []
  panicked := false
  drained := []
  groups := []
  published := []
  executions := []

variable {Response : Type}

/-- The loop over `take_members`. What it took before an error stays taken. -/
def takeMembers : List GroupCommitJob → List (GroupCall Response) →
    Except NodeError (List RuntimeBatchMember) × List (GroupCall Response)
  | [], calls => (.ok [], calls)
  | job :: jobs, calls =>
    match calls[job.id]?.bind fun call => call.members.map fun members => (call, members) with
    | none =>
      (.error (.invariant s!"{g.name} group commit job members were already consumed"), calls)
    | some (call, members) =>
      let calls := calls.set job.id { call with members := none }
      if members.length ≠ job.memberCount then
        (.error (.invariant s!"{g.name} group commit job member count changed while queued"), calls)
      else
        match takeMembers jobs calls with
        | (.ok rest, calls) => (.ok (members ++ rest), calls)
        | (.error error, calls) => (.error error, calls)

/-- `execute_sql_group_locked` and `execute_kv_group_locked` before the batch. -/
def startGroup (cancelled : Bool) (jobs : List GroupCommitJob) (calls : List (GroupCall Response)) :
    Except NodeError (List RuntimeBatchMember) × List (GroupCall Response) :=
  let totalMembers := (jobs.map (·.memberCount)).sum
  if cancelled then
    (.error (.unavailable s!"{g.name} group commit cancelled during shutdown"), calls)
  else if totalMembers = 0 ∨ g.maxMembers < totalMembers then
    (.error (.invariant
      s!"{g.name} group commit drained {totalMembers} members outside 1..={g.maxMembers}"), calls)
  else takeMembers g jobs calls

def groupResults : List GroupCommitJob → List (MemberResult Response) →
    List (GroupCommitJob × GroupCommitResult Response)
  | [], _ => []
  | job :: jobs, results =>
    (job, .ok (results.take job.memberCount)) :: groupResults jobs (results.drop job.memberCount)

def finishGroup (cancelled : Bool) (fatal : Option String) (jobs : List GroupCommitJob)
    (results : List (MemberResult Response)) :
    Except NodeError (List (GroupCommitJob × GroupCommitResult Response)) :=
  let totalMembers := (jobs.map (·.memberCount)).sum
  let mismatch := NodeError.invariant
    s!"{g.name} group commit returned {results.length} results for {totalMembers} members"
  if g.failsGroup = true ∧ cancelled = true then
    .error (.unavailable s!"{g.name} group commit cancelled during shutdown")
  else if g.failsGroup = true ∧ fatal.isSome then
    .error (.fatal (fatal.getD s!"{g.name} group commit failed fatally"))
  else if results.length ≠ totalMembers then
    if g.failsGroup then .error mismatch
    else .ok (jobs.map fun job => (job, .ok (List.replicate job.memberCount (.error mismatch))))
  else .ok (groupResults jobs results)

def GroupCall.publish (call : GroupCall Response) (result : GroupCommitResult Response) :
    GroupCall Response :=
  if call.result.isNone then { call with result := some result } else call

namespace GroupSystem

def setPhase (s : GroupSystem Response) (w : Nat) (phase : WorkerPhase Response) :
    GroupSystem Response :=
  { s with workers := s.workers.modify w fun worker => { worker with phase } }

/-- A worker returns, and its guard lets go of the commit lock. -/
def finish (s : GroupSystem Response) (w : Nat) : GroupSystem Response :=
  { s.setPhase w .finished with commit := if s.commit = some w then none else s.commit }

def publish (s : GroupSystem Response) (publication : Publication Response) : GroupSystem Response :=
  { s with
    calls := s.calls.modify publication.job (·.publish publication.result)
    published := s.published ++ [publication] }

/-- The jobs of a group all get one error, and `fail_pending` follows. -/
def failGroup (s : GroupSystem Response) (w : Nat) (jobs : List GroupCommitJob) (error : NodeError) :
    GroupSystem Response :=
  s.setPhase w (.publishing (jobs.map fun job => (job, .error error)) (some error))

end GroupSystem

inductive GroupEvent (Response : Type)
  /-- A batch function is called. -/
  | call (members : List RuntimeBatchMember)
  /-- `cancel_operations` raises its flag. -/
  | cancel
  | lock (worker : Nat)
  | lockFails (worker : Nat) (error : NodeError)
  | collect (worker : Nat)
  | wake (worker : Nat)
  | drain (worker : Nat)
  | check (worker : Nat) (refusal : Option NodeError)
  | start (worker : Nat)
  /-- The batch returns these results, or it panics. -/
  | execute (worker : Nat) (results : Option (List (MemberResult Response))) (fatal : Option String)
  | publish (worker : Nat)
  | failPending (worker : Nat)
  | publishFailed (worker : Nat)
  /-- `wait` returns. -/
  | answer (call : Nat)

def GroupSystem.phaseOf (s : GroupSystem Response) (w : Nat) : Option (WorkerPhase Response) :=
  s.workers[w]?.map (·.phase)

def GroupSystem.returned (s : GroupSystem Response) (leads : Option Nat) : Bool :=
  match leads with
  | none => true
  | some w =>
    match s.phaseOf w with
    | some .finished => true
    | _ => false

def GroupSystem.step (s : GroupSystem Response) : GroupEvent Response → Option (GroupSystem Response)
  | .call members =>
    match g.validateBatchLen members.length with
    | .error _ => some s
    | .ok () =>
      match enqueue g s.queue s.cancelled (.new s.calls.length members) with
      | .error _ => some s
      | .ok (queue, leader) =>
        some { s with
          queue
          calls := s.calls ++
            [{ own := members, members := some members, result := none
               leads := if leader then some s.workers.length else none, answer := none }]
          workers := if leader then s.workers ++ [⟨true, .locking, []⟩] else s.workers }
  | .cancel =>
    some { s with
      cancelled := true
      workers := s.workers ++
        [⟨false, .failing (.unavailable s!"{g.name} group commit cancelled during shutdown"), []⟩] }
  | .lock w =>
    match s.phaseOf w with
    | some .locking =>
      if s.commit = none then some { s.setPhase w .collecting with commit := some w } else none
    | _ => none
  | .lockFails w error =>
    match s.phaseOf w with
    | some .locking => some (s.setPhase w (.failing error))
    | _ => none
  | .collect w =>
    match s.phaseOf w with
    | some .collecting =>
      if s.queue.pending = [] then
        some (GroupSystem.finish { s with queue := { s.queue with leaderActive := false } } w)
      else some (s.setPhase w .waiting)
    | _ => none
  | .wake w =>
    match s.phaseOf w with
    | some .waiting => some (s.setPhase w .draining)
    | _ => none
  | .drain w =>
    match s.phaseOf w with
    | some .draining =>
      match drainNextGroup g s.queue with
      | none => some { s with panicked := true }
      | some (none, queue) => some (GroupSystem.finish { s with queue } w)
      | some (some jobs, queue) =>
        some (GroupSystem.setPhase { s with
          queue
          drained := s.drained ++ jobs.map GroupCommitJob.id
          groups := s.groups ++ [jobs] } w (.checking jobs))
    | _ => none
  | .check w refusal =>
    match s.phaseOf w, refusal with
    | some (.checking jobs), none => some (s.setPhase w (.starting jobs))
    | some (.checking jobs), some error => some (s.failGroup w jobs error)
    | _, _ => none
  | .start w =>
    match s.phaseOf w with
    | some (.starting jobs) =>
      match startGroup g s.cancelled jobs s.calls with
      | (.ok members, calls) => some (GroupSystem.setPhase { s with calls } w (.executing jobs members))
      | (.error error, calls) => some (GroupSystem.failGroup { s with calls } w jobs error)
    | _ => none
  | .execute w results fatal =>
    match s.phaseOf w, results with
    | some (.executing jobs _), none =>
      some (s.failGroup w jobs (.fatal s!"{g.name} group commit leader panicked"))
    | some (.executing jobs members), some results =>
      let s := { s with executions := s.executions ++ [(⟨members, results⟩ : Execution Response)] }
      match finishGroup g s.cancelled fatal jobs results with
      | .ok published => some (s.setPhase w (.publishing published none))
      | .error error => some (s.failGroup w jobs error)
    | _, _ => none
  | .publish w =>
    match s.phaseOf w with
    | some (.publishing ((job, result) :: rest) error) =>
      some ((s.publish ⟨job.id, result, .leader⟩).setPhase w (.publishing rest error))
    | some (.publishing [] none) => some (s.setPhase w .collecting)
    | some (.publishing [] (some error)) => some (s.setPhase w (.failing error))
    | _ => none
  | .failPending w =>
    match s.phaseOf w with
    | some (.failing error) =>
      let ids := s.queue.pending.map (·.id)
      some { s with
        queue := { pending := [], pendingEncodedBytes := 0, leaderActive := false }
        drained := s.drained ++ ids
        workers := s.workers.modify w fun worker =>
          { worker with phase := .failed s.queue.pending error, took := ids } }
    | _ => none
  | .publishFailed w =>
    match s.phaseOf w with
    | some (.failed (job :: rest) error) =>
      some ((s.publish ⟨job.id, .error error, .failPending w⟩).setPhase w (.failed rest error))
    | some (.failed [] _) => some (s.finish w)
    | _ => none
  | .answer i =>
    match s.calls[i]? with
    | none => none
    | some call =>
      -- a leader runs to its end before it waits for its own job
      if call.answer.isNone ∧ s.returned call.leads = true then
        match call.result with
        | some result =>
          some { s with calls := s.calls.set i { call with result := none, answer := some result } }
        | none =>
          if s.cancelled then
            let error := NodeError.unavailable s!"{g.name} group commit cancelled during shutdown"
            some { s with calls := s.calls.set i { call with answer := some (.error error) } }
          else none
      else none

structure GroupCommit.Bounded (g : GroupCommit) : Prop where
  members : g.maxMembers < usizeMax
  pendingBytes : g.maxPendingBytes < usizeMax
  batchLen : ∀ len, g.validateBatchLen len = .ok () → 1 ≤ len ∧ len ≤ g.maxMembers

theorem bounded_sqlGroupCommit (capacity : Nat) : (sqlGroupCommit capacity).Bounded where
  members := show maxSqlWriteBatchMembers < usizeMax by decide
  pendingBytes := show maxSqlGroupCommitPendingBytes < usizeMax by decide
  batchLen len h := by
    change validateSqlBatchLen len = .ok () at h
    unfold validateSqlBatchLen at h
    split at h
    · rename_i hLen
      have hLimit : maxTypedSqlWriteBatchMembers ≤ maxSqlWriteBatchMembers := by decide
      exact ⟨hLen.1, Nat.le_trans hLen.2 hLimit⟩
    · cases h

theorem bounded_kvGroupCommit : kvGroupCommit.Bounded where
  members := by decide
  pendingBytes := by decide
  batchLen len h := by
    change validateKvBatchLen len = .ok () at h
    unfold validateKvBatchLen at h
    split at h
    · rename_i hLen
      exact ⟨hLen.1, Nat.le_trans hLen.2 (by decide)⟩
    · cases h

theorem saturatingAdd_eq {a b m : Nat} (hMax : m < usizeMax) (h : saturatingAdd a b ≤ m) :
    saturatingAdd a b = a + b := by
  unfold saturatingAdd at h ⊢
  omega

structure Enqueued (g : GroupCommit) (queue : GroupCommitQueue) (job : GroupCommitJob)
    (queue' : GroupCommitQueue) (leader : Bool) : Prop where
  pending : queue'.pending = queue.pending ++ [job]
  bytes : queue'.pendingEncodedBytes = queue.pendingEncodedBytes + job.encodedBytes
  bound : queue'.pendingEncodedBytes ≤ g.maxPendingBytes
  active : queue'.leaderActive = true
  leads : leader = !queue.leaderActive

theorem enqueue_eq_ok {g : GroupCommit} (hBounded : g.Bounded) {queue queue' : GroupCommitQueue}
    {cancelled leader : Bool} {job : GroupCommitJob}
    (h : enqueue g queue cancelled job = .ok (queue', leader)) : Enqueued g queue job queue' leader := by
  obtain ⟨_, -, h⟩ := bind_ok_iff.mp h
  obtain ⟨_, -, h⟩ := bind_ok_iff.mp h
  obtain ⟨_, -, h⟩ := bind_ok_iff.mp h
  obtain ⟨_, hWithin, h⟩ := bind_ok_iff.mp h
  cases h
  have hBound := ensure_ok_iff.mp hWithin
  exact ⟨rfl, saturatingAdd_eq hBounded.pendingBytes hBound, hBound, rfl, rfl⟩

def totalMembers (jobs : List GroupCommitJob) : Nat := (jobs.map (·.memberCount)).sum

def totalBytes (jobs : List GroupCommitJob) : Nat := (jobs.map (·.encodedBytes)).sum

theorem totalMembers_concat (jobs : List GroupCommitJob) (job : GroupCommitJob) :
    totalMembers (jobs ++ [job]) = totalMembers jobs + job.memberCount := by
  rw [totalMembers, totalMembers, List.map_append, List.sum_append]
  rfl

theorem drainLoop_spec {g : GroupCommit} (hBounded : g.Bounded) (encodedBytes : Nat)
    {jobs pending : List GroupCommitJob} (hJobs : totalMembers jobs ≤ g.maxMembers)
    (hSmall : ∀ job ∈ pending, job.memberCount ≤ g.maxMembers) :
    ∃ group rest, pending = group ++ rest ∧ totalMembers (jobs ++ group) ≤ g.maxMembers ∧
      (jobs = [] → pending ≠ [] → group ≠ []) ∧
      drainLoop g (totalMembers jobs) encodedBytes jobs (totalBytes pending) pending =
        some (jobs ++ group, rest, totalBytes rest) := by
  induction pending generalizing jobs encodedBytes with
  | nil =>
    exact ⟨[], [], rfl, by rwa [List.append_nil], fun _ h => absurd rfl h, by rw [drainLoop, List.append_nil]⟩
  | cons job pending ih =>
    rw [drainLoop]
    split
    · rename_i hFull
      exact ⟨[], job :: pending, rfl, by rwa [List.append_nil], fun h => absurd h hFull.1,
        by rw [List.append_nil]⟩
    · rename_i hRoom
      have hBytes : totalBytes (job :: pending) = job.encodedBytes + totalBytes pending := rfl
      rw [if_pos (by omega), hBytes, Nat.add_sub_cancel_left]
      have hCount : saturatingAdd (totalMembers jobs) job.memberCount = totalMembers (jobs ++ [job]) ∧
          totalMembers (jobs ++ [job]) ≤ g.maxMembers := by
        have hJob := hSmall job List.mem_cons_self
        rw [totalMembers_concat]
        by_cases hFirst : jobs = []
        · subst hFirst
          have hLimit := hBounded.members
          have hNone : totalMembers [] = 0 := rfl
          rw [hNone, saturatingAdd]
          omega
        · have hLess : saturatingAdd (totalMembers jobs) job.memberCount ≤ g.maxMembers := by
            by_contra hMore
            exact hRoom ⟨hFirst, .inl (by omega)⟩
          have hEq := saturatingAdd_eq hBounded.members hLess
          omega
      obtain ⟨group, rest, hPending, hTotal, -, hLoop⟩ :=
        ih (saturatingAdd encodedBytes job.encodedBytes) hCount.2
          fun later hLater => hSmall later (List.mem_cons_of_mem _ hLater)
      refine ⟨job :: group, rest, by rw [hPending]; rfl, ?_, fun _ _ => List.cons_ne_nil _ _, ?_⟩
      · rwa [List.append_assoc] at hTotal
      · rw [hCount.1, hLoop, List.append_assoc]
        rfl

theorem drainNextGroup_spec {g : GroupCommit} (hBounded : g.Bounded) {queue : GroupCommitQueue}
    (hBytes : queue.pendingEncodedBytes = totalBytes queue.pending)
    (hSmall : ∀ job ∈ queue.pending, job.memberCount ≤ g.maxMembers) :
    (queue.pending = [] ∧ drainNextGroup g queue = some (none, { queue with leaderActive := false })) ∨
      ∃ group rest, group ≠ [] ∧ queue.pending = group ++ rest ∧ totalMembers group ≤ g.maxMembers ∧
        drainNextGroup g queue =
          some (some group, { queue with pending := rest, pendingEncodedBytes := totalBytes rest }) := by
  unfold drainNextGroup
  by_cases hEmpty : queue.pending = []
  · exact .inl ⟨hEmpty, if_pos hEmpty⟩
  · have hNone : totalMembers [] ≤ g.maxMembers := Nat.zero_le _
    obtain ⟨group, rest, hPending, hTotal, hSome, hLoop⟩ := drainLoop_spec hBounded 0 hNone hSmall
    rw [List.nil_append] at hTotal hLoop
    refine .inr ⟨group, rest, hSome rfl hEmpty, hPending, hTotal, ?_⟩
    have hZero : totalMembers [] = 0 := rfl
    rw [hZero] at hLoop
    rw [if_neg hEmpty, hBytes, hLoop]
    rfl

end Rhiza.Node
