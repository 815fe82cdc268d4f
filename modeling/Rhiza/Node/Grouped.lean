import Rhiza.Node.GroupCommit

/-! # Group commit loses no call

The invariant of the queues, the jobs in the hands of the workers and what they
publish, over every interleaving of calls, leaders and shutdowns.
-/

namespace Rhiza.Node

open Rhiza.Core Rhiza.Library

variable (g : GroupCommit) {Response : Type}

namespace WorkerPhase

def held : WorkerPhase Response → List Nat
  | .checking jobs | .starting jobs | .executing jobs _ => jobs.map GroupCommitJob.id
  | .publishing results _ => results.map fun result => result.1.id
  | .failed jobs _ => jobs.map GroupCommitJob.id
  | _ => []

/-- Those among them that are a group of `drain_next_group`. -/
def inHand : WorkerPhase Response → List Nat
  | .failed _ _ => []
  | phase => phase.held

/-- Those that `fail_pending` took. -/
def toFail : WorkerPhase Response → List Nat
  | .failed jobs _ => jobs.map GroupCommitJob.id
  | _ => []

def Alive : WorkerPhase Response → Prop
  | .failed _ _ | .finished => False
  | _ => True

def Locks : WorkerPhase Response → Prop
  | .locking | .failing _ | .failed _ _ | .finished => False
  | _ => True

end WorkerPhase

def ResultsOf (executions : List (Execution Response)) (own : List RuntimeBatchMember)
    (results : List (MemberResult Response)) : Prop :=
  results.length = own.length ∧ ∃ batch ∈ executions, ∃ start,
    (batch.members.drop start).take own.length = own ∧
      (batch.results.length = batch.members.length ∧
          (batch.results.drop start).take own.length = results ∨
        batch.results.length ≠ batch.members.length ∧
          ∃ error, results = List.replicate own.length (.error error))

namespace GroupSystem

variable (s : GroupSystem Response)

def owns : List (List RuntimeBatchMember) := s.calls.map (·.own)

def Counted (job : GroupCommitJob) : Prop :=
  ∃ own, s.owns[job.id]? = some own ∧ job.memberCount = own.length

def Delivered (id : Nat) (result : GroupCommitResult Response) : Prop :=
  ∀ results, result = .ok results → ∃ own, s.owns[id]? = some own ∧ ResultsOf s.executions own results

def BatchOf (jobs : List GroupCommitJob) (members : List RuntimeBatchMember) : Prop :=
  (∀ job ∈ jobs, s.Counted job) ∧ members = jobs.flatMap fun job => (s.owns[job.id]?).getD []

def PhaseSound : WorkerPhase Response → Prop
  | .executing jobs members => s.BatchOf jobs members
  | .publishing results _ => ∀ result ∈ results, s.Delivered result.1.id result.2
  | _ => True

def groupInHand : List Nat := ((s.commit.bind s.phaseOf).map WorkerPhase.inHand).getD []

def publishedBy (publisher : Publisher) : List Nat :=
  (s.published.filter fun publication => publication.publisher = publisher).map (·.job)

def held : List Nat := s.workers.flatMap fun worker => worker.phase.held

structure WorkerSound (w : Nat) (worker : Worker Response) : Prop where
  locked : worker.phase.Locks → s.commit = some w
  taken : worker.took.Sublist s.drained
  fresh : worker.phase.Alive → worker.took = []
  phase : s.PhaseSound worker.phase

structure Sound : Prop where
  panicked : s.panicked = false
  bytes : s.queue.pendingEncodedBytes = totalBytes s.queue.pending
  bound : s.queue.pendingEncodedBytes ≤ g.maxPendingBytes
  active : s.queue.pending ≠ [] → s.queue.leaderActive = true
  led : s.queue.leaderActive = true →
    ∃ (w : Nat) (worker : Worker Response),
      s.workers[w]? = some worker ∧ worker.elected = true ∧ worker.phase.Alive
  fifo : s.drained ++ s.queue.pending.map GroupCommitJob.id = List.range s.calls.length
  places : ∀ id, (s.queue.pending.map GroupCommitJob.id).count id + s.held.count id +
    (s.published.map (·.job)).count id = if id < s.calls.length then 1 else 0
  known : ∀ job ∈ s.queue.pending, s.Counted job
  small : ∀ own ∈ s.owns, 1 ≤ own.length ∧ own.length ≤ g.maxMembers
  groups : ∀ jobs ∈ s.groups, totalMembers jobs ≤ g.maxMembers
  order : s.publishedBy .leader ++ s.groupInHand = s.groups.flatten.map GroupCommitJob.id
  failed : ∀ w, s.publishedBy (.failPending w) ++ ((s.phaseOf w).map WorkerPhase.toFail).getD [] =
    ((s.workers[w]?).map (·.took)).getD []
  grouped : (s.groups.flatten.map GroupCommitJob.id).Sublist s.drained
  workers : ∀ (w : Nat) (worker : Worker Response), s.workers[w]? = some worker → s.WorkerSound w worker
  members : ∀ call ∈ s.calls, ∀ members, call.members = some members → members = call.own
  delivered : ∀ publication ∈ s.published, s.Delivered publication.job publication.result
  results : ∀ (i : Nat) (call : GroupCall Response) result, s.calls[i]? = some call → call.result = some result →
    ∃ publication ∈ s.published, publication.job = i ∧ publication.result = result
  answers : ∀ (i : Nat) (call : GroupCall Response) answer, s.calls[i]? = some call → call.answer = some answer →
    (∃ publication ∈ s.published, publication.job = i ∧ publication.result = answer) ∨
      s.cancelled = true ∧
        answer = .error (.unavailable s!"{g.name} group commit cancelled during shutdown")

end GroupSystem

namespace GroupSystem

variable {g : GroupCommit} {s : GroupSystem Response}

theorem phaseOf_eq_some {w : Nat} {phase : WorkerPhase Response} (h : s.phaseOf w = some phase) :
    ∃ worker, s.workers[w]? = some worker ∧ worker.phase = phase :=
  Option.map_eq_some_iff.mp h

theorem getElem?_setPhase {w : Nat} {worker : Worker Response} (hw : s.workers[w]? = some worker)
    (phase : WorkerPhase Response) (v : Nat) :
    (s.setPhase w phase).workers[v]? = if v = w then some { worker with phase } else s.workers[v]? :=
  getElem?_modify_of hw _ v

theorem phaseOf_setPhase {w : Nat} {worker : Worker Response} (hw : s.workers[w]? = some worker)
    (phase : WorkerPhase Response) (v : Nat) :
    (s.setPhase w phase).phaseOf v = if v = w then some phase else s.phaseOf v := by
  rw [phaseOf, getElem?_setPhase hw]
  split <;> rfl

theorem count_held_setPhase {w : Nat} {worker : Worker Response} (hw : s.workers[w]? = some worker)
    (phase : WorkerPhase Response) (id : Nat) :
    (s.setPhase w phase).held.count id + worker.phase.held.count id =
      s.held.count id + phase.held.count id :=
  count_flatMap_modify hw (fun worker => worker.phase.held) _ id

theorem groupInHand_congr {s' : GroupSystem Response} (hCommit : s'.commit = s.commit)
    (h : ∀ v, (s'.phaseOf v).map WorkerPhase.inHand = (s.phaseOf v).map WorkerPhase.inHand) :
    s'.groupInHand = s.groupInHand := by
  unfold groupInHand
  rw [hCommit]
  cases s.commit with
  | none => rfl
  | some v => rw [Option.bind_some, Option.bind_some, h v]

theorem groupInHand_setPhase {w : Nat} {worker : Worker Response} (hw : s.workers[w]? = some worker)
    (phase : WorkerPhase Response) (h : phase.inHand = worker.phase.inHand) :
    (s.setPhase w phase).groupInHand = s.groupInHand := by
  refine groupInHand_congr rfl fun v => ?_
  rw [phaseOf_setPhase hw]
  by_cases hv : v = w
  · rw [if_pos hv, hv, phaseOf, hw, Option.map_some, h]
    rfl
  · rw [if_neg hv]

structure Grows (s s' : GroupSystem Response) : Prop where
  drained : s.drained.Sublist s'.drained
  owns : ∀ (id : Nat) own, s.owns[id]? = some own → s'.owns[id]? = some own
  executions : ∀ batch ∈ s.executions, batch ∈ s'.executions

theorem Grows.of_eq {s' : GroupSystem Response} (hDrained : s.drained.Sublist s'.drained)
    (hOwns : s'.owns = s.owns) (hExecutions : s'.executions = s.executions) : Grows s s' :=
  ⟨hDrained, fun id own h => by rw [hOwns]; exact h, fun batch h => by rw [hExecutions]; exact h⟩

theorem Counted.mono {s' : GroupSystem Response} (hGrows : Grows s s') {job : GroupCommitJob}
    (h : s.Counted job) : s'.Counted job := by
  obtain ⟨own, hOwn, hCount⟩ := h
  exact ⟨own, hGrows.owns _ _ hOwn, hCount⟩

theorem Delivered.mono {s' : GroupSystem Response} (hGrows : Grows s s') {id : Nat}
    {result : GroupCommitResult Response} (h : s.Delivered id result) : s'.Delivered id result := by
  intro results hOk
  obtain ⟨own, hOwn, hLength, batch, hBatch, hResults⟩ := h results hOk
  exact ⟨own, hGrows.owns _ _ hOwn, hLength, batch, hGrows.executions _ hBatch, hResults⟩

theorem PhaseSound.mono {s' : GroupSystem Response} (hGrows : Grows s s')
    {phase : WorkerPhase Response} (h : s.PhaseSound phase) : s'.PhaseSound phase := by
  cases phase with
  | executing jobs members =>
    obtain ⟨hJobs, hMembers⟩ := h
    refine ⟨fun job hJob => (hJobs job hJob).mono hGrows, hMembers.trans ?_⟩
    refine List.flatMap_congr fun job hJob => ?_
    obtain ⟨own, hOwn, -⟩ := hJobs job hJob
    rw [hOwn, hGrows.owns _ _ hOwn]
  | publishing results error => exact fun result hResult => (h result hResult).mono hGrows
  | _ => trivial

theorem WorkerSound.mono {s' : GroupSystem Response} (hGrows : Grows s s') {w : Nat}
    {worker : Worker Response} (hCommit : s.commit = some w → s'.commit = some w)
    (h : s.WorkerSound w worker) : s'.WorkerSound w worker where
  locked hLocks := hCommit (h.locked hLocks)
  taken := h.taken.trans hGrows.drained
  fresh := h.fresh
  phase := h.phase.mono hGrows

theorem Sound.worker {s' : GroupSystem Response} (h : s.Sound g) (hGrows : Grows s s') {w : Nat}
    {worker : Worker Response} (hw : s.workers[w]? = some worker)
    (hCommit : s.commit = some w → s'.commit = some w) : s'.WorkerSound w worker :=
  (h.workers w worker hw).mono hGrows hCommit

theorem Sound.setPhase (h : s.Sound g) {w : Nat} {worker : Worker Response}
    (hw : s.workers[w]? = some worker) {phase : WorkerPhase Response}
    (hHeld : phase.held = worker.phase.held) (hHand : phase.inHand = worker.phase.inHand)
    (hFail : phase.toFail = worker.phase.toFail) (hAlive : worker.phase.Alive ↔ phase.Alive)
    (hLocks : phase.Locks → s.commit = some w) (hPhase : s.PhaseSound phase) :
    (s.setPhase w phase).Sound g where
  panicked := h.panicked
  bytes := h.bytes
  bound := h.bound
  active := h.active
  led hActive := by
    obtain ⟨v, leader, hv, hElected, hLive⟩ := h.led hActive
    by_cases hSame : v = w
    · subst hSame
      obtain rfl := Option.some.inj (hv.symm.trans hw)
      exact ⟨v, { leader with phase }, by rw [getElem?_setPhase hw, if_pos rfl], hElected,
        hAlive.mp hLive⟩
    · exact ⟨v, leader, by rw [getElem?_setPhase hw, if_neg hSame, hv], hElected, hLive⟩
  fifo := h.fifo
  places id := by
    have hCount := count_held_setPhase hw phase id
    have hBefore := h.places id
    rw [hHeld] at hCount
    change (s.queue.pending.map GroupCommitJob.id).count id + (s.setPhase w phase).held.count id +
      (s.published.map (·.job)).count id = if id < s.calls.length then 1 else 0
    omega
  known := h.known
  small := h.small
  groups := h.groups
  order := by
    rw [groupInHand_setPhase hw phase hHand]
    exact h.order
  failed v := by
    have hBefore := h.failed v
    rw [phaseOf_setPhase hw, getElem?_setPhase hw]
    by_cases hv : v = w
    · subst hv
      rw [phaseOf, hw] at hBefore
      rw [if_pos rfl, if_pos rfl]
      change _ ++ phase.toFail = worker.took
      rw [hFail]
      exact hBefore
    · rw [if_neg hv, if_neg hv]
      exact hBefore
  grouped := h.grouped
  workers v leader hv := by
    rw [getElem?_setPhase hw] at hv
    split at hv
    · rename_i hSame
      obtain rfl := Option.some.inj hv
      have hWorker := h.workers w worker hw
      exact ⟨fun hNow => hSame ▸ hLocks hNow, hWorker.taken, fun hNow => hWorker.fresh (hAlive.mpr hNow),
        hPhase⟩
    · refine h.worker ?_ hv id
      exact .of_eq (List.Sublist.refl _) rfl rfl
  members := h.members
  delivered := h.delivered
  results := h.results
  answers := h.answers

theorem Sound.finish (h : s.Sound g) {w : Nat} {worker : Worker Response}
    (hw : s.workers[w]? = some worker) (hHeld : worker.phase.held = [])
    (hDone : worker.phase.Alive → s.queue.leaderActive = false) : (s.finish w).Sound g where
  panicked := h.panicked
  bytes := h.bytes
  bound := h.bound
  active := h.active
  led hActive := by
    obtain ⟨v, leader, hv, hElected, hLive⟩ := h.led hActive
    have hOther : v ≠ w := by
      rintro rfl
      obtain rfl := Option.some.inj (hv.symm.trans hw)
      exact absurd (hActive.symm.trans (hDone hLive)) nofun
    exact ⟨v, leader, (getElem?_setPhase hw _ v).trans (by rw [if_neg hOther, hv]), hElected, hLive⟩
  fifo := h.fifo
  places id := by
    have hCount := count_held_setPhase hw .finished id
    have hBefore := h.places id
    rw [hHeld] at hCount
    change (s.queue.pending.map GroupCommitJob.id).count id + (s.setPhase w .finished).held.count id +
      (s.published.map (·.job)).count id = if id < s.calls.length then 1 else 0
    simp only [WorkerPhase.held, List.count_nil] at hCount
    omega
  known := h.known
  small := h.small
  groups := h.groups
  order := by
    have hBefore := h.order
    have hHand : worker.phase.inHand = [] := by
      cases hPhase : worker.phase <;> rw [hPhase] at hHeld <;> first | rfl | exact hHeld
    suffices hSame : (s.finish w).groupInHand = s.groupInHand by
      rw [hSame]
      exact hBefore
    unfold groupInHand GroupSystem.finish
    by_cases hCommit : s.commit = some w
    · have hPhase : s.phaseOf w = some worker.phase := by rw [phaseOf, hw]; rfl
      simp only [hCommit, if_true, Option.bind_none, Option.bind_some, hPhase]
      rw [Option.map_some, hHand]
      rfl
    · simp only [hCommit, if_false]
      cases hHolder : s.commit with
      | none => rfl
      | some v =>
        have hOther : v ≠ w := fun hSame => hCommit (hSame ▸ hHolder)
        have hPhase := phaseOf_setPhase hw .finished v
        rw [if_neg hOther] at hPhase
        rw [Option.bind_some]
        change (((s.setPhase w .finished).phaseOf v).map WorkerPhase.inHand).getD [] = _
        rw [hPhase]
        rfl
  failed v := by
    have hBefore := h.failed v
    change s.publishedBy (.failPending v) ++
      (((s.setPhase w .finished).phaseOf v).map WorkerPhase.toFail).getD [] =
        (((s.setPhase w .finished).workers[v]?).map (·.took)).getD []
    rw [phaseOf_setPhase hw, getElem?_setPhase hw]
    by_cases hv : v = w
    · subst hv
      have hNone : worker.phase.toFail = [] := by
        cases hPhase : worker.phase <;> rw [hPhase] at hHeld <;> first | rfl | exact hHeld
      rw [phaseOf, hw] at hBefore
      rw [if_pos rfl, if_pos rfl]
      refine Eq.trans ?_ hBefore
      change _ ++ [] = _ ++ worker.phase.toFail
      rw [hNone]
    · rw [if_neg hv, if_neg hv]
      exact hBefore
  grouped := h.grouped
  workers v leader hv := by
    replace hv := (getElem?_setPhase hw .finished v).symm.trans hv
    split at hv
    · obtain rfl := Option.some.inj hv
      exact ⟨nofun, (h.workers w worker hw).taken, nofun, trivial⟩
    · rename_i hOther
      refine h.worker ?_ hv fun hCommit => ?_
      · exact .of_eq (List.Sublist.refl _) rfl rfl
      have hKept : s.commit ≠ some w := by
        rw [hCommit]
        exact fun hSame => hOther (Option.some.inj hSame)
      exact (if_neg hKept).trans hCommit
  members := h.members
  delivered := h.delivered
  results := h.results
  answers := h.answers

theorem Sound.deactivate (h : s.Sound g) (hEmpty : s.queue.pending = []) :
    ({ s with queue := { s.queue with leaderActive := false } } : GroupSystem Response).Sound g :=
  { h with
    active := fun hPending => absurd hEmpty hPending
    led := nofun
    workers := fun _ _ hw => by
      refine h.worker ?_ hw id
      exact .of_eq (List.Sublist.refl _) rfl rfl }

theorem Sound.lock (h : s.Sound g) {w : Nat} {worker : Worker Response}
    (hw : s.workers[w]? = some worker) (hPhase : worker.phase = .locking) (hFree : s.commit = none) :
    ({ s.setPhase w .collecting with commit := some w } : GroupSystem Response).Sound g := by
  -- the lock first, while nobody needs it
  have hLocked : ({ s with commit := some w } : GroupSystem Response).Sound g :=
    { h with
      workers := fun v leader hv => by
        refine h.worker ?_ hv fun hHeld => absurd (hFree.symm.trans hHeld) nofun
        exact .of_eq (List.Sublist.refl _) rfl rfl
      order := by
        have hBefore := h.order
        have hNow : s.phaseOf w = some .locking := by rw [phaseOf, hw, ← hPhase]; rfl
        rw [groupInHand, hFree] at hBefore
        change s.publishedBy .leader ++ ((s.phaseOf w).map WorkerPhase.inHand).getD [] = _
        rw [hNow]
        exact hBefore }
  exact hLocked.setPhase hw (by rw [hPhase]; rfl) (by rw [hPhase]; rfl) (by rw [hPhase]; rfl)
    (by rw [hPhase]; rfl) (fun _ => rfl) trivial

theorem Sound.drain (h : s.Sound g) {w : Nat} {worker : Worker Response}
    (hw : s.workers[w]? = some worker) (hPhase : worker.phase = .draining)
    {group rest : List GroupCommitJob} (hPending : s.queue.pending = group ++ rest)
    (hTotal : totalMembers group ≤ g.maxMembers) :
    (({ s with
      queue := { s.queue with pending := rest, pendingEncodedBytes := totalBytes rest }
      drained := s.drained ++ group.map GroupCommitJob.id
      groups := s.groups ++ [group] } : GroupSystem Response).setPhase w (.checking group)).Sound g where
  panicked := h.panicked
  bytes := rfl
  bound := by
    have hBefore := h.bound
    rw [h.bytes, hPending, totalBytes, List.map_append, List.sum_append] at hBefore
    exact Nat.le_trans (Nat.le_add_left _ _) hBefore
  active hRest := by
    refine h.active ?_
    rw [hPending]
    exact List.append_ne_nil_of_right_ne_nil _ hRest
  led hActive := by
    obtain ⟨v, leader, hv, hElected, hLive⟩ := h.led hActive
    by_cases hSame : v = w
    · subst hSame
      obtain rfl := Option.some.inj (hv.symm.trans hw)
      exact ⟨v, { leader with phase := .checking group },
        (getElem?_setPhase hw _ v).trans (by rw [if_pos rfl]), hElected, trivial⟩
    · exact ⟨v, leader, (getElem?_setPhase hw _ v).trans (by rw [if_neg hSame, hv]), hElected, hLive⟩
  fifo := by
    have hBefore := h.fifo
    rw [hPending, List.map_append, ← List.append_assoc] at hBefore
    exact hBefore
  places id := by
    have hCount := count_held_setPhase hw (.checking group) id
    have hBefore := h.places id
    rw [hPending, List.map_append, List.count_append] at hBefore
    rw [hPhase] at hCount
    change (rest.map GroupCommitJob.id).count id + (s.setPhase w (.checking group)).held.count id +
      (s.published.map (·.job)).count id = if id < s.calls.length then 1 else 0
    simp only [WorkerPhase.held, List.count_nil] at hCount
    omega
  known job hJob := h.known job (hPending ▸ List.mem_append_right _ hJob)
  small := h.small
  groups jobs hJobs := by
    rcases List.mem_append.mp hJobs with hOld | hNew
    · exact h.groups jobs hOld
    · rw [List.mem_singleton.mp hNew]
      exact hTotal
  order := by
    have hCommit := (h.workers w worker hw).locked (by rw [hPhase]; trivial)
    have hBefore := h.order
    have hNow : s.phaseOf w = some .draining := by rw [phaseOf, hw, ← hPhase]; rfl
    rw [groupInHand, hCommit, Option.bind_some, hNow] at hBefore
    have hThen := phaseOf_setPhase hw (.checking group) w
    rw [if_pos rfl] at hThen
    change s.publishedBy .leader ++
      ((s.commit.bind (s.setPhase w (.checking group)).phaseOf).map WorkerPhase.inHand).getD [] =
        (s.groups ++ [group]).flatten.map GroupCommitJob.id
    rw [hCommit, Option.bind_some, hThen, List.flatten_append, List.map_append, ← hBefore,
      List.flatten_singleton]
    change _ ++ group.map GroupCommitJob.id = (_ ++ []) ++ _
    rw [List.append_nil]
  failed v := by
    have hBefore := h.failed v
    change s.publishedBy (.failPending v) ++
      (((s.setPhase w (.checking group)).phaseOf v).map WorkerPhase.toFail).getD [] =
        (((s.setPhase w (.checking group)).workers[v]?).map (·.took)).getD []
    rw [phaseOf_setPhase hw, getElem?_setPhase hw]
    by_cases hv : v = w
    · subst hv
      rw [phaseOf, hw, Option.map_some, hPhase] at hBefore
      rw [if_pos rfl, if_pos rfl]
      exact hBefore
    · rw [if_neg hv, if_neg hv]
      exact hBefore
  grouped := by
    change ((s.groups ++ [group]).flatten.map GroupCommitJob.id).Sublist
      (s.drained ++ group.map GroupCommitJob.id)
    rw [List.flatten_append, List.flatten_singleton, List.map_append]
    exact h.grouped.append (List.Sublist.refl _)
  workers v leader hv := by
    replace hv := (getElem?_setPhase hw _ v).symm.trans hv
    have hMore : s.drained.Sublist (s.drained ++ group.map GroupCommitJob.id) :=
      List.sublist_append_left _ _
    split at hv
    · rename_i hSame
      obtain rfl := Option.some.inj hv
      have hWorker := h.workers w worker hw
      exact ⟨fun _ => hSame ▸ hWorker.locked (by rw [hPhase]; trivial), hWorker.taken.trans hMore,
        fun _ => hWorker.fresh (by rw [hPhase]; trivial), trivial⟩
    · refine h.worker ?_ hv id
      exact .of_eq hMore rfl rfl
  members := h.members
  delivered := h.delivered
  results := h.results
  answers := h.answers

structure Emptied (calls calls' : List (GroupCall Response)) : Prop where
  length : calls'.length = calls.length
  owns : calls'.map (·.own) = calls.map (·.own)
  members : ∀ call' ∈ calls', ∀ members, call'.members = some members →
    ∃ call ∈ calls, call.own = call'.own ∧ call.members = some members
  results : ∀ (i : Nat) (call' : GroupCall Response), calls'[i]? = some call' →
    ∃ call, calls[i]? = some call ∧ call'.result = call.result ∧ call'.answer = call.answer

theorem Emptied.refl (calls : List (GroupCall Response)) : Emptied calls calls where
  length := rfl
  owns := rfl
  members call hCall _ hMembers := ⟨call, hCall, rfl, hMembers⟩
  results _ call hCall := ⟨call, hCall, rfl, rfl⟩

theorem Emptied.trans {calls calls' calls'' : List (GroupCall Response)} (h : Emptied calls calls')
    (h' : Emptied calls' calls'') : Emptied calls calls'' where
  length := h'.length.trans h.length
  owns := h'.owns.trans h.owns
  members call'' hCall members hMembers := by
    obtain ⟨call', hCall', hOwn', hMembers'⟩ := h'.members call'' hCall members hMembers
    obtain ⟨call, hCall, hOwn, hMembers⟩ := h.members call' hCall' members hMembers'
    exact ⟨call, hCall, hOwn.trans hOwn', hMembers⟩
  results i call'' hCall := by
    obtain ⟨call', hCall', hResult', hAnswer'⟩ := h'.results i call'' hCall
    obtain ⟨call, hCall, hResult, hAnswer⟩ := h.results i call' hCall'
    exact ⟨call, hCall, hResult'.trans hResult, hAnswer'.trans hAnswer⟩

theorem emptied_set {calls : List (GroupCall Response)} {i : Nat} {call : GroupCall Response}
    (hCall : calls[i]? = some call) : Emptied calls (calls.set i { call with members := none }) := by
  have hAt : ∀ j, (calls.set i { call with members := none })[j]? =
      if j = i then some { call with members := none } else calls[j]? := by
    intro j
    have hi := (List.getElem?_eq_some_iff.mp hCall).1
    rw [List.getElem?_set]
    by_cases hj : j = i
    · subst hj
      rw [if_pos rfl, if_pos hi, if_pos rfl]
    · rw [if_neg (Ne.symm hj), if_neg hj]
  refine ⟨List.length_set, List.ext_getElem? fun j => ?_, fun call' hMem members hMembers => ?_,
    fun j call' hAtJ => ?_⟩
  · rw [List.getElem?_map, List.getElem?_map, hAt]
    split
    · rename_i hj
      rw [hj, hCall]
      rfl
    · rfl
  · rcases List.mem_or_eq_of_mem_set hMem with hOld | rfl
    · exact ⟨call', hOld, rfl, hMembers⟩
    · cases hMembers
  · rw [hAt] at hAtJ
    split at hAtJ
    · rename_i hj
      obtain rfl := Option.some.inj hAtJ
      exact ⟨call, hj ▸ hCall, rfl, rfl⟩
    · exact ⟨call', hAtJ, rfl, rfl⟩

theorem Sound.empty (h : s.Sound g) {calls : List (GroupCall Response)} (hCalls : Emptied s.calls calls) :
    ({ s with calls } : GroupSystem Response).Sound g := by
  have hGrows : Grows s { s with calls } := .of_eq (List.Sublist.refl _) hCalls.owns rfl
  exact
    { h with
      fifo := by
        change s.drained ++ _ = List.range calls.length
        rw [hCalls.length]
        exact h.fifo
      places := fun id => by
        change _ = if id < calls.length then 1 else 0
        rw [hCalls.length]
        exact h.places id
      known := fun job hJob => (h.known job hJob).mono hGrows
      small := fun own hOwn => by
        have hOwns : own ∈ calls.map (·.own) := hOwn
        rw [hCalls.owns] at hOwns
        exact h.small own hOwns
      workers := fun w worker hw => h.worker hGrows hw id
      members := fun call hCall members hMembers => by
        obtain ⟨before, hBefore, hOwn, hHad⟩ := hCalls.members call hCall members hMembers
        rw [← hOwn]
        exact h.members before hBefore members hHad
      delivered := fun publication hPublication => (h.delivered publication hPublication).mono hGrows
      results := fun i call result hCall hResult => by
        obtain ⟨before, hBefore, hSame, -⟩ := hCalls.results i call hCall
        exact h.results i before result hBefore (hSame ▸ hResult)
      answers := fun i call answer hCall hAnswer => by
        obtain ⟨before, hBefore, -, hSame⟩ := hCalls.results i call hCall
        exact h.answers i before answer hBefore (hSame ▸ hAnswer) }

theorem Sound.record (h : s.Sound g) (batch : Execution Response) :
    ({ s with executions := s.executions ++ [batch] } : GroupSystem Response).Sound g := by
  have hGrows : Grows s { s with executions := s.executions ++ [batch] } :=
    ⟨List.Sublist.refl _, fun _ _ h => h, fun _ h => List.mem_append_left _ h⟩
  exact
    { h with
      known := fun job hJob => (h.known job hJob).mono hGrows
      workers := fun w worker hw => h.worker hGrows hw id
      delivered := fun publication hPublication => (h.delivered publication hPublication).mono hGrows }

theorem Sound.spawn (h : s.Sound g) (new : Worker Response) (hHeld : new.phase.held = [])
    (hHand : new.phase.inHand = []) (hFail : new.phase.toFail = []) (hTook : new.took = [])
    (hLocks : ¬new.phase.Locks) (hPhase : s.PhaseSound new.phase) :
    ({ s with workers := s.workers ++ [new] } : GroupSystem Response).Sound g :=
  { h with
    led := fun hActive => by
      obtain ⟨v, leader, hv, hElected, hLive⟩ := h.led hActive
      exact ⟨v, leader, (List.getElem?_append_left (List.getElem?_eq_some_iff.mp hv).1).trans hv,
        hElected, hLive⟩
    places := fun id => by
      have hBefore := h.places id
      have hSame : ({ s with workers := s.workers ++ [new] } : GroupSystem Response).held = s.held := by
        rw [held, List.flatMap_append, List.flatMap_singleton, hHeld, List.append_nil]
        rfl
      rw [hSame]
      exact hBefore
    order := by
      have hBefore := h.order
      suffices hSame : ({ s with workers := s.workers ++ [new] } :
          GroupSystem Response).groupInHand = s.groupInHand by
        rw [hSame]
        exact hBefore
      unfold groupInHand
      cases hCommit : s.commit with
      | none => rfl
      | some v =>
        rw [Option.bind_some, Option.bind_some, phaseOf, phaseOf, getElem?_concat]
        by_cases hv : v = s.workers.length
        · rw [if_pos hv, hv, List.getElem?_eq_none (Nat.le_refl _)]
          exact hHand
        · rw [if_neg hv]
    failed := fun v => by
      have hBefore := h.failed v
      rw [phaseOf] at hBefore ⊢
      rw [getElem?_concat]
      by_cases hv : v = s.workers.length
      · rw [hv, List.getElem?_eq_none (Nat.le_refl _)] at hBefore
        rw [if_pos hv, hv]
        change s.publishedBy (.failPending s.workers.length) ++ new.phase.toFail = new.took
        rw [hFail, hTook]
        exact hBefore
      · rw [if_neg hv]
        exact hBefore
    workers := fun v leader hv => by
      replace hv := (getElem?_concat s.workers _ v).symm.trans hv
      split at hv
      · obtain rfl := Option.some.inj hv
        exact ⟨fun hNow => absurd hNow hLocks, by rw [hTook]; exact List.nil_sublist _, fun _ => hTook,
          hPhase.mono (.of_eq (List.Sublist.refl _) rfl rfl)⟩
      · refine h.worker ?_ hv id
        exact .of_eq (List.Sublist.refl _) rfl rfl }

theorem Sound.cancel (h : s.Sound g) : ({ s with cancelled := true } : GroupSystem Response).Sound g :=
  { h with
    workers := fun _ _ hw => by
      refine h.worker ?_ hw id
      exact .of_eq (List.Sublist.refl _) rfl rfl
    answers := fun i call answer hCall hAnswer =>
      (h.answers i call answer hCall hAnswer).imp id fun hCancelled => ⟨rfl, hCancelled.2⟩ }

theorem Sound.enqueue (h : s.Sound g) {members : List RuntimeBatchMember} {leads : Option Nat}
    {queue : GroupCommitQueue} {leader : Bool}
    (hEnqueued : Enqueued g s.queue (.new s.calls.length members) queue leader)
    (hLen : 1 ≤ members.length ∧ members.length ≤ g.maxMembers)
    (hLed : ∃ (w : Nat) (worker : Worker Response),
      s.workers[w]? = some worker ∧ worker.elected = true ∧ worker.phase.Alive) :
    ({ s with
      queue
      calls := s.calls ++ [{ own := members, members := some members, result := none
                             leads, answer := none }] } : GroupSystem Response).Sound g := by
  have hOwns : ∀ calls : List (GroupCall Response), ∀ call : GroupCall Response,
      (calls ++ [call]).map (·.own) = calls.map (·.own) ++ [call.own] := fun calls call => by
    rw [List.map_append]
    rfl
  have hGrows : Grows s { s with
      queue
      calls := s.calls ++ [{ own := members, members := some members, result := none
                             leads, answer := none }] } := by
    refine ⟨List.Sublist.refl _, fun id own hOwn => ?_, fun _ hBatch => hBatch⟩
    rw [owns, hOwns]
    exact (List.getElem?_append_left (List.getElem?_eq_some_iff.mp hOwn).1).trans hOwn
  have hId : (GroupCommitJob.new s.calls.length members).id = s.calls.length := rfl
  refine
    { panicked := h.panicked
      bytes := ?_
      bound := hEnqueued.bound
      active := fun _ => hEnqueued.active
      led := fun _ => hLed
      fifo := ?_
      places := fun id => ?_
      known := fun job hJob => ?_
      small := fun own hOwn => ?_
      groups := h.groups
      order := h.order
      failed := h.failed
      grouped := h.grouped
      workers := fun w worker hw => h.worker hGrows hw id
      members := fun call hCall taken hTaken => ?_
      delivered := fun publication hPublication => (h.delivered publication hPublication).mono hGrows
      results := fun i call result hCall hResult => ?_
      answers := fun i call answer hCall hAnswer => ?_ }
  · rw [hEnqueued.bytes, hEnqueued.pending, h.bytes, totalBytes, totalBytes, List.map_append,
      List.sum_append]
    rfl
  · rw [hEnqueued.pending, List.map_append, List.length_append, List.length_singleton,
      List.range_succ, ← h.fifo, List.append_assoc, hId.symm]
    rfl
  · have hBefore := h.places id
    rw [hEnqueued.pending, List.map_append, List.count_append, List.length_append,
      List.length_singleton]
    change (s.queue.pending.map GroupCommitJob.id).count id + [s.calls.length].count id +
      s.held.count id + (s.published.map (·.job)).count id = if id < s.calls.length + 1 then 1 else 0
    have hCount : [s.calls.length].count id = if id = s.calls.length then 1 else 0 := by
      rw [List.count_singleton]
      by_cases hNew : id = s.calls.length
      · rw [if_pos hNew, hNew, beq_self_eq_true, if_pos rfl]
      · rw [if_neg hNew, beq_eq_false_iff_ne.mpr (Ne.symm hNew), if_neg nofun]
    rw [hCount]
    split at hBefore <;> split <;> split <;> omega
  · rw [hEnqueued.pending] at hJob
    rcases List.mem_append.mp hJob with hOld | hNew
    · exact (h.known job hOld).mono hGrows
    · obtain rfl := List.mem_singleton.mp hNew
      refine ⟨members, ?_, rfl⟩
      rw [owns, hOwns, hId, ← List.length_map (f := fun call : GroupCall Response => call.own)]
      exact List.getElem?_concat_length
  · rw [owns, hOwns] at hOwn
    rcases List.mem_append.mp hOwn with hOld | hNew
    · exact h.small own hOld
    · rw [List.mem_singleton.mp hNew]
      exact hLen
  · rcases List.mem_append.mp hCall with hOld | hNew
    · exact h.members call hOld taken hTaken
    · obtain rfl := List.mem_singleton.mp hNew
      exact (Option.some.inj hTaken).symm
  · replace hCall := (getElem?_concat s.calls _ i).symm.trans hCall
    split at hCall
    · obtain rfl := Option.some.inj hCall
      cases hResult
    · exact h.results i call result hCall hResult
  · replace hCall := (getElem?_concat s.calls _ i).symm.trans hCall
    split at hCall
    · obtain rfl := Option.some.inj hCall
      cases hAnswer
    · exact h.answers i call answer hCall hAnswer

theorem getElem?_publish {calls : List (GroupCall Response)} {i j : Nat}
    {result : GroupCommitResult Response} {call' : GroupCall Response}
    (h : (calls.modify i (·.publish result))[j]? = some call') :
    ∃ call, calls[j]? = some call ∧ call'.own = call.own ∧ call'.members = call.members ∧
      call'.answer = call.answer ∧ (call'.result = call.result ∨ j = i ∧ call'.result = some result) := by
  rw [List.getElem?_modify] at h
  obtain ⟨call, hCall, rfl⟩ := Option.map_eq_some_iff.mp h
  refine ⟨call, hCall, ?_⟩
  by_cases hi : i = j
  · rw [if_pos hi]
    unfold GroupCall.publish
    split
    · exact ⟨rfl, rfl, rfl, .inr ⟨hi.symm, rfl⟩⟩
    · exact ⟨rfl, rfl, rfl, .inl rfl⟩
  · rw [if_neg hi]
    exact ⟨rfl, rfl, rfl, .inl rfl⟩

theorem owns_modify (calls : List (GroupCall Response)) (i : Nat)
    (result : GroupCommitResult Response) :
    (calls.modify i (·.publish result)).map (·.own) = calls.map (·.own) := by
  refine List.ext_getElem (by simp) fun j hj hj' => ?_
  rw [List.length_map] at hj hj'
  obtain ⟨call, hCall, hOwn, -⟩ := getElem?_publish (List.getElem?_eq_getElem hj)
  rw [List.getElem_map, List.getElem_map, hOwn, (List.getElem?_eq_some_iff.mp hCall).2]

theorem Sound.publish (h : s.Sound g) {w : Nat} {worker : Worker Response}
    (hw : s.workers[w]? = some worker) {phase : WorkerPhase Response} {publication : Publication Response}
    (hHeld : worker.phase.held = publication.job :: phase.held)
    (hAlive : worker.phase.Alive ↔ phase.Alive) (hLocks : phase.Locks → worker.phase.Locks)
    (hPhase : s.PhaseSound phase) (hDelivered : s.Delivered publication.job publication.result)
    (hOrder : ((s.publish publication).setPhase w phase).publishedBy .leader ++
      ((s.publish publication).setPhase w phase).groupInHand = s.groups.flatten.map GroupCommitJob.id)
    (hFailed : ∀ v, ((s.publish publication).setPhase w phase).publishedBy (.failPending v) ++
      ((((s.publish publication).setPhase w phase).phaseOf v).map WorkerPhase.toFail).getD [] =
        ((s.workers[v]?).map (·.took)).getD []) :
    ((s.publish publication).setPhase w phase).Sound g := by
  have hw' : (s.publish publication).workers[w]? = some worker := hw
  have hGrows : Grows s ((s.publish publication).setPhase w phase) :=
    .of_eq (List.Sublist.refl _) (owns_modify s.calls publication.job publication.result) rfl
  have hLength : (s.calls.modify publication.job (·.publish publication.result)).length =
      s.calls.length := List.length_modify _ _ _
  refine
    { panicked := h.panicked
      bytes := h.bytes
      bound := h.bound
      active := h.active
      led := fun hActive => ?_
      fifo := ?_
      places := fun id => ?_
      known := fun job hJob => (h.known job hJob).mono hGrows
      small := fun own hOwn => ?_
      groups := h.groups
      order := hOrder
      failed := fun v => ?_
      grouped := h.grouped
      workers := fun v leader hv => ?_
      members := fun call hCall members hMembers => ?_
      delivered := fun other hOther => ?_
      results := fun i call result hCall hResult => ?_
      answers := fun i call answer hCall hAnswer => ?_ }
  · obtain ⟨v, leader, hv, hElected, hLive⟩ := h.led hActive
    by_cases hSame : v = w
    · subst hSame
      obtain rfl := Option.some.inj (hv.symm.trans hw)
      exact ⟨v, { leader with phase }, (getElem?_setPhase hw' _ v).trans (by rw [if_pos rfl]), hElected,
        hAlive.mp hLive⟩
    · exact ⟨v, leader, (getElem?_setPhase hw' _ v).trans (by rw [if_neg hSame]; exact hv), hElected,
        hLive⟩
  · change s.drained ++ _ = List.range (s.calls.modify _ _).length
    rw [hLength]
    exact h.fifo
  · have hCount := count_held_setPhase hw' phase id
    have hBefore := h.places id
    rw [hHeld] at hCount
    change (s.queue.pending.map GroupCommitJob.id).count id +
      ((s.publish publication).setPhase w phase).held.count id +
      ((s.published ++ [publication]).map (·.job)).count id =
        if id < (s.calls.modify _ _).length then 1 else 0
    have hKept : (s.publish publication).held.count id = s.held.count id := rfl
    rw [hLength, List.map_append, List.count_append]
    change _ + _ + (_ + [publication.job].count id) = _
    rw [List.count_cons] at hCount
    rw [List.count_singleton]
    omega
  · rw [owns] at hOwn
    change own ∈ (s.calls.modify _ _).map (·.own) at hOwn
    rw [owns_modify] at hOwn
    exact h.small own hOwn
  · have hTook : ((((s.publish publication).setPhase w phase).workers[v]?).map (·.took)).getD [] =
        ((s.workers[v]?).map (·.took)).getD [] := by
      rw [getElem?_setPhase hw']
      split
      · rename_i hSame
        rw [hSame, hw]
        rfl
      · rfl
    rw [hTook]
    exact hFailed v
  · replace hv := (getElem?_setPhase hw' phase v).symm.trans hv
    split at hv
    · rename_i hSame
      obtain rfl := Option.some.inj hv
      have hWorker := h.workers w worker hw
      exact ⟨fun hNow => hSame ▸ hWorker.locked (hLocks hNow), hWorker.taken,
        fun hNow => hWorker.fresh (hAlive.mpr hNow), hPhase.mono hGrows⟩
    · exact h.worker hGrows hv id
  · obtain ⟨i, hi, rfl⟩ := List.mem_iff_getElem.mp hCall
    obtain ⟨before, hBefore, hOwn, hHad, -⟩ := getElem?_publish (List.getElem?_eq_getElem hi)
    rw [hOwn]
    exact h.members before (List.mem_of_getElem? hBefore) members (hHad ▸ hMembers)
  · rcases List.mem_append.mp hOther with hOld | hNew
    · exact (h.delivered other hOld).mono hGrows
    · rw [List.mem_singleton.mp hNew]
      exact hDelivered.mono hGrows
  · obtain ⟨before, hBefore, -, -, -, hSame | ⟨rfl, hNow⟩⟩ := getElem?_publish hCall
    · obtain ⟨other, hOther, hJob⟩ := h.results i before result hBefore (hSame ▸ hResult)
      exact ⟨other, List.mem_append_left _ hOther, hJob⟩
    · exact ⟨publication, List.mem_append_right _ (List.mem_singleton_self _), rfl,
        Option.some.inj (hNow.symm.trans hResult)⟩
  · obtain ⟨before, hBefore, -, -, hSame, -⟩ := getElem?_publish hCall
    refine (h.answers i before answer hBefore (hSame ▸ hAnswer)).imp ?_ id
    rintro ⟨other, hOther, hJob⟩
    exact ⟨other, List.mem_append_left _ hOther, hJob⟩

theorem publishedBy_publish (publication : Publication Response) (publisher : Publisher) :
    (s.publish publication).publishedBy publisher =
      s.publishedBy publisher ++ if publication.publisher = publisher then [publication.job] else [] := by
  unfold publishedBy GroupSystem.publish
  rw [List.filter_append, List.map_append]
  congr 1
  by_cases hPublisher : publication.publisher = publisher <;> simp [hPublisher]

theorem Sound.publishGroup (h : s.Sound g) {w : Nat} {worker : Worker Response}
    (hw : s.workers[w]? = some worker) {job : GroupCommitJob} {result : GroupCommitResult Response}
    {rest : List (GroupCommitJob × GroupCommitResult Response)} {error : Option NodeError}
    (hNow : worker.phase = .publishing ((job, result) :: rest) error) :
    ((s.publish ⟨job.id, result, .leader⟩).setPhase w (.publishing rest error)).Sound g := by
  have hw' : (s.publish ⟨job.id, result, .leader⟩).workers[w]? = some worker := hw
  have hSound := (h.workers w worker hw).phase
  rw [hNow] at hSound
  refine h.publish hw (by rw [hNow]; rfl) (by rw [hNow]; rfl) (fun _ => by rw [hNow]; trivial)
    (fun other hOther => hSound other (List.mem_cons_of_mem _ hOther))
    (hSound (job, result) List.mem_cons_self) ?_ fun v => ?_
  · have hCommit := (h.workers w worker hw).locked (by rw [hNow]; trivial)
    have hBefore := h.order
    have hPhase : s.phaseOf w = some (.publishing ((job, result) :: rest) error) := by
      rw [phaseOf, hw, ← hNow]
      rfl
    have hAfter := phaseOf_setPhase hw' (.publishing rest error) w
    rw [if_pos rfl] at hAfter
    rw [groupInHand, hCommit, Option.bind_some, hPhase] at hBefore
    change (s.publish ⟨job.id, result, .leader⟩).publishedBy .leader ++
      ((s.commit.bind ((s.publish ⟨job.id, result, .leader⟩).setPhase w
        (.publishing rest error)).phaseOf).map WorkerPhase.inHand).getD [] = _
    rw [hCommit, Option.bind_some, hAfter, publishedBy_publish, if_pos rfl, List.append_assoc]
    exact hBefore
  · have hBefore := h.failed v
    change (s.publish ⟨job.id, result, .leader⟩).publishedBy (.failPending v) ++ _ = _
    rw [publishedBy_publish, if_neg nofun, List.append_nil, phaseOf_setPhase hw']
    by_cases hv : v = w
    · subst hv
      rw [phaseOf, hw, Option.map_some, hNow] at hBefore
      rw [if_pos rfl, hw]
      exact hBefore
    · rw [if_neg hv]
      exact hBefore

/-- `fail_pending` publishes the next of the jobs that it took. -/
theorem Sound.publishFailed (h : s.Sound g) {w : Nat} {worker : Worker Response}
    (hw : s.workers[w]? = some worker) {job : GroupCommitJob} {rest : List GroupCommitJob}
    {error : NodeError} (hNow : worker.phase = .failed (job :: rest) error) :
    ((s.publish ⟨job.id, .error error, .failPending w⟩).setPhase w (.failed rest error)).Sound g := by
  have hw' : (s.publish ⟨job.id, .error error, .failPending w⟩).workers[w]? = some worker := hw
  refine h.publish hw (by rw [hNow]; rfl) (by rw [hNow]; rfl) nofun trivial nofun ?_ fun v => ?_
  · have hBefore := h.order
    have hHand := groupInHand_setPhase hw' (.failed rest error) (by rw [hNow]; rfl)
    rw [hHand]
    change (s.publish ⟨job.id, .error error, .failPending w⟩).publishedBy .leader ++ s.groupInHand = _
    rw [publishedBy_publish, if_neg nofun, List.append_nil]
    exact hBefore
  · have hBefore := h.failed v
    change (s.publish ⟨job.id, .error error, .failPending w⟩).publishedBy (.failPending v) ++ _ = _
    rw [publishedBy_publish, phaseOf_setPhase hw']
    by_cases hv : v = w
    · subst hv
      rw [phaseOf, hw, Option.map_some, hNow] at hBefore
      rw [if_pos rfl, if_pos rfl, hw, List.append_assoc]
      exact hBefore
    · have hOther : Publisher.failPending w ≠ .failPending v := fun hSame =>
        hv (Publisher.failPending.inj hSame).symm
      rw [if_neg hOther, if_neg hv, List.append_nil]
      exact hBefore

/-- `fail_pending` takes what is pending. -/
theorem Sound.failPending (h : s.Sound g) {w : Nat} {worker : Worker Response}
    (hw : s.workers[w]? = some worker) {error : NodeError} (hNow : worker.phase = .failing error) :
    ({ s with
      queue := { pending := [], pendingEncodedBytes := 0, leaderActive := false }
      drained := s.drained ++ s.queue.pending.map GroupCommitJob.id
      workers := s.workers.modify w fun worker =>
        { worker with
          phase := .failed s.queue.pending error
          took := s.queue.pending.map GroupCommitJob.id } } : GroupSystem Response).Sound g := by
  have hAt : ∀ v, (s.workers.modify w fun worker =>
      { worker with
        phase := .failed s.queue.pending error
        took := s.queue.pending.map GroupCommitJob.id })[v]? =
      if v = w then some { worker with
        phase := .failed s.queue.pending error
        took := s.queue.pending.map GroupCommitJob.id } else s.workers[v]? := getElem?_modify_of hw _
  have hPhase : s.phaseOf w = some (.failing error) := by rw [phaseOf, hw, ← hNow]; rfl
  refine
    { panicked := h.panicked
      bytes := rfl
      bound := Nat.zero_le _
      active := fun hPending => absurd rfl hPending
      led := nofun
      fifo := ?_
      places := fun id => ?_
      known := nofun
      small := h.small
      groups := h.groups
      order := ?_
      failed := fun v => ?_
      grouped := h.grouped.trans (List.sublist_append_left _ _)
      workers := fun v leader hv => ?_
      members := h.members
      delivered := h.delivered
      results := h.results
      answers := h.answers }
  · exact (List.append_nil _).trans h.fifo
  · have hCount := count_flatMap_modify hw (fun worker : Worker Response => worker.phase.held)
      (fun worker => { worker with
        phase := .failed s.queue.pending error
        took := s.queue.pending.map GroupCommitJob.id }) id
    have hBefore := h.places id
    have hEmpty : worker.phase.held = [] := by rw [hNow]; rfl
    rw [hEmpty, List.count_nil] at hCount
    change _ = (s.workers.flatMap fun worker => worker.phase.held).count id +
      (s.queue.pending.map GroupCommitJob.id).count id at hCount
    change 0 + ((s.workers.modify w _).flatMap fun worker => worker.phase.held).count id +
      (s.published.map (·.job)).count id = if id < s.calls.length then 1 else 0
    rw [held] at hBefore
    omega
  · refine Eq.trans (congrArg _ (groupInHand_congr (s := s) rfl fun v => ?_)) h.order
    rw [phaseOf, hAt]
    by_cases hv : v = w
    · rw [if_pos hv, hv, hPhase]
      rfl
    · rw [if_neg hv]
      rfl
  · have hBefore := h.failed v
    rw [phaseOf]
    dsimp only
    rw [hAt]
    by_cases hv : v = w
    · rw [hv, hPhase, hw] at hBefore
      rw [if_pos hv, hv]
      have hNone : worker.took = [] := (h.workers w worker hw).fresh (by rw [hNow]; trivial)
      have hPublished : s.publishedBy (.failPending w) = [] := by
        refine (List.append_nil _).symm.trans (hBefore.trans ?_)
        exact hNone
      change s.publishedBy (.failPending w) ++ s.queue.pending.map GroupCommitJob.id = _
      rw [hPublished]
      rfl
    · rw [if_neg hv]
      exact hBefore
  · replace hv := (hAt v).symm.trans hv
    split at hv
    · obtain rfl := Option.some.inj hv
      exact ⟨nofun, List.sublist_append_right _ _, nofun, trivial⟩
    · refine h.worker ?_ hv id
      exact .of_eq (List.sublist_append_left _ _) rfl rfl

theorem takeMembers_spec {g : GroupCommit} {jobs : List GroupCommitJob}
    {calls calls' : List (GroupCall Response)} {result : Except NodeError (List RuntimeBatchMember)}
    (hMembers : ∀ call ∈ calls, ∀ members, call.members = some members → members = call.own)
    (h : takeMembers g jobs calls = (result, calls')) :
    Emptied calls calls' ∧ ∀ members, result = .ok members →
      (∀ job ∈ jobs, ∃ own, (calls.map (·.own))[job.id]? = some own ∧ job.memberCount = own.length) ∧
        members = jobs.flatMap fun job => ((calls.map (·.own))[job.id]?).getD [] := by
  induction jobs generalizing calls result with
  | nil =>
    cases h
    refine ⟨.refl _, fun members hOk => ⟨nofun, ?_⟩⟩
    rw [← Except.ok.inj hOk]
    rfl
  | cons job jobs ih =>
    rw [takeMembers] at h
    split at h
    · cases h
      exact ⟨.refl _, nofun⟩
    rename_i call members hTaken
    obtain ⟨call', hCall, hHad⟩ := Option.bind_eq_some_iff.mp hTaken
    obtain ⟨members', hHad, hPair⟩ := Option.map_eq_some_iff.mp hHad
    cases hPair
    have hEmptied := emptied_set hCall
    have hOwn : members = call.own := hMembers call (List.mem_of_getElem? hCall) members hHad
    dsimp only at h
    split at h
    · cases h
      exact ⟨hEmptied, nofun⟩
    rename_i hCount
    have hLater : ∀ later ∈ calls.set job.id { call with members := none }, ∀ members,
        later.members = some members → members = later.own := by
      intro later hMem members hHas
      obtain ⟨before, hBefore, hSame, hHadBefore⟩ := hEmptied.members later hMem members hHas
      rw [← hSame]
      exact hMembers before hBefore members hHadBefore
    have hAt : (calls.map (·.own))[job.id]? = some call.own := by
      rw [List.getElem?_map, hCall]
      rfl
    split at h
    · rename_i rest calls'' hRest
      cases h
      obtain ⟨hMore, hAll⟩ := ih hLater hRest
      rw [hEmptied.owns] at hAll
      obtain ⟨hJobs, rfl⟩ := hAll rest rfl
      refine ⟨hEmptied.trans hMore, fun _ hOk => ⟨fun other hOther => ?_, ?_⟩⟩
      · rcases List.mem_cons.mp hOther with rfl | hOther
        · exact ⟨call.own, hAt, by rw [← hOwn]; exact (not_not.mp hCount).symm⟩
        · exact hJobs other hOther
      · rw [← Except.ok.inj hOk, List.flatMap_cons, hAt, hOwn]
        rfl
    · rename_i error calls'' hRest
      cases h
      exact ⟨hEmptied.trans (ih hLater hRest).1, nofun⟩

theorem Sound.start (h : s.Sound g) {jobs : List GroupCommitJob}
    {calls : List (GroupCall Response)} {result : Except NodeError (List RuntimeBatchMember)}
    (hStart : startGroup g s.cancelled jobs s.calls = (result, calls)) :
    ({ s with calls } : GroupSystem Response).Sound g ∧
      ∀ members, result = .ok members →
        ({ s with calls } : GroupSystem Response).BatchOf jobs members := by
  unfold startGroup at hStart
  dsimp only at hStart
  split at hStart
  · cases hStart
    exact ⟨h, nofun⟩
  split at hStart
  · cases hStart
    exact ⟨h, nofun⟩
  obtain ⟨hEmptied, hMembers⟩ := takeMembers_spec h.members hStart
  refine ⟨h.empty hEmptied, fun members hOk => ?_⟩
  obtain ⟨hJobs, hAll⟩ := hMembers members hOk
  rw [← hEmptied.owns] at hJobs hAll
  exact ⟨hJobs, hAll⟩

theorem groupResults_jobs (jobs : List GroupCommitJob) (results : List (MemberResult Response)) :
    (groupResults jobs results).map (fun result => result.1.id) = jobs.map GroupCommitJob.id := by
  induction jobs generalizing results with
  | nil => rfl
  | cons job jobs ih => exact congrArg (job.id :: ·) (ih _)

theorem groupResults_delivered {jobs : List GroupCommitJob} {batch : Execution Response}
    (hBatch : batch ∈ s.executions) (hLength : batch.results.length = batch.members.length)
    (hJobs : ∀ job ∈ jobs, s.Counted job) (front : List RuntimeBatchMember)
    (hMembers : batch.members = front ++ jobs.flatMap fun job => (s.owns[job.id]?).getD []) :
    ∀ result ∈ groupResults jobs (batch.results.drop front.length),
      s.Delivered result.1.id result.2 := by
  induction jobs generalizing front with
  | nil => nofun
  | cons job jobs ih =>
    obtain ⟨own, hOwn, hCount⟩ := hJobs job List.mem_cons_self
    rw [List.flatMap_cons, hOwn, Option.getD_some] at hMembers
    intro result hResult
    rcases List.mem_cons.mp hResult with rfl | hLater
    · intro results hOk
      cases hOk
      refine ⟨own, hOwn, ?_, batch, hBatch, front.length, ?_, .inl ⟨hLength, by rw [hCount]⟩⟩
      · rw [List.length_take, List.length_drop, hLength, hMembers, hCount, List.length_append,
          List.length_append]
        omega
      · rw [hMembers, List.drop_left, List.take_left]
    · refine ih (fun other hOther => hJobs other (List.mem_cons_of_mem _ hOther)) (front ++ own)
        (by rw [hMembers, List.append_assoc]) result ?_
      rw [List.drop_drop, hCount] at hLater
      rwa [List.length_append]

theorem finishGroup_spec {cancelled : Bool} {fatal : Option String} {jobs : List GroupCommitJob}
    {batch : Execution Response} {published : List (GroupCommitJob × GroupCommitResult Response)}
    (hBatch : batch ∈ s.executions) (hMembers : s.BatchOf jobs batch.members)
    (h : finishGroup g cancelled fatal jobs batch.results = .ok published) :
    published.map (fun result => result.1.id) = jobs.map GroupCommitJob.id ∧
      ∀ result ∈ published, s.Delivered result.1.id result.2 := by
  obtain ⟨hJobs, hMembers⟩ := hMembers
  have hTotal : batch.members.length = (jobs.map (·.memberCount)).sum := by
    rw [hMembers]
    clear hMembers h
    induction jobs with
    | nil => rfl
    | cons job jobs ih =>
      obtain ⟨own, hOwn, hCount⟩ := hJobs job List.mem_cons_self
      rw [List.flatMap_cons, List.length_append, hOwn, Option.getD_some, List.map_cons,
        List.sum_cons, hCount, ih fun other hOther => hJobs other (List.mem_cons_of_mem _ hOther)]
  unfold finishGroup at h
  dsimp only at h
  split at h
  · cases h
  split at h
  · cases h
  split at h
  · rename_i hMismatch
    split at h
    · cases h
    · cases h
      refine ⟨by rw [List.map_map]; rfl, fun result hResult => ?_⟩
      obtain ⟨job, hJob, rfl⟩ := List.mem_map.mp hResult
      obtain ⟨own, hOwn, hCount⟩ := hJobs job hJob
      intro results hOk
      cases hOk
      obtain ⟨earlier, later, hSplit⟩ := List.append_of_mem hJob
      refine ⟨own, hOwn, by rw [List.length_replicate, hCount], batch, hBatch,
        (earlier.flatMap fun job => (s.owns[job.id]?).getD []).length, ?_, .inr ⟨?_, _, by rw [hCount]⟩⟩
      · rw [hMembers, hSplit, List.flatMap_append, List.drop_left, List.flatMap_cons, hOwn,
          Option.getD_some, List.take_left]
      · rw [hTotal]
        exact hMismatch
  · rename_i hMatch
    cases h
    have hLength : batch.results.length = batch.members.length := by
      rw [hTotal]
      exact not_not.mp hMatch
    exact ⟨groupResults_jobs jobs batch.results,
      groupResults_delivered hBatch hLength hJobs [] hMembers⟩

theorem Sound.answer (h : s.Sound g) {i : Nat} {call after : GroupCall Response}
    (hCall : s.calls[i]? = some call) (hOwn : after.own = call.own)
    (hMembers : after.members = call.members) (hResult : after.result = none)
    (hAnswer : ∀ answer, after.answer = some answer →
      (∃ publication ∈ s.published, publication.job = i ∧ publication.result = answer) ∨
        s.cancelled = true ∧
          answer = .error (.unavailable s!"{g.name} group commit cancelled during shutdown")) :
    ({ s with calls := s.calls.set i after } : GroupSystem Response).Sound g := by
  have hAt : ∀ j, (s.calls.set i after)[j]? = if j = i then some after else s.calls[j]? := by
    intro j
    have hi := (List.getElem?_eq_some_iff.mp hCall).1
    rw [List.getElem?_set]
    by_cases hj : j = i
    · rw [if_pos hj.symm, if_pos hj, if_pos hi]
    · rw [if_neg (Ne.symm hj), if_neg hj]
  have hOwns : (s.calls.set i after).map (·.own) = s.calls.map (·.own) := by
    refine List.ext_getElem? fun j => ?_
    rw [List.getElem?_map, List.getElem?_map, hAt]
    split
    · rename_i hj
      rw [hj, hCall, Option.map_some, Option.map_some, hOwn]
    · rfl
  have hGrows : Grows s { s with calls := s.calls.set i after } := .of_eq (List.Sublist.refl _) hOwns rfl
  exact
    { h with
      fifo := by
        change s.drained ++ _ = List.range (s.calls.set i after).length
        rw [List.length_set]
        exact h.fifo
      places := fun id => by
        change _ = if id < (s.calls.set i after).length then 1 else 0
        rw [List.length_set]
        exact h.places id
      known := fun job hJob => (h.known job hJob).mono hGrows
      small := fun own hMem => by
        have hMem : own ∈ (s.calls.set i after).map (·.own) := hMem
        rw [hOwns] at hMem
        exact h.small own hMem
      workers := fun w worker hw => h.worker hGrows hw id
      members := fun other hOther members hHas => by
        rcases List.mem_or_eq_of_mem_set hOther with hOld | rfl
        · exact h.members other hOld members hHas
        · rw [hOwn]
          exact h.members call (List.mem_of_getElem? hCall) members (hMembers ▸ hHas)
      delivered := fun publication hPublication => (h.delivered publication hPublication).mono hGrows
      results := fun j other result hOther hHas => by
        replace hOther := (hAt j).symm.trans hOther
        split at hOther
        · obtain rfl := Option.some.inj hOther
          exact absurd (hResult.symm.trans hHas) nofun
        · exact h.results j other result hOther hHas
      answers := fun j other answer hOther hHas => by
        replace hOther := (hAt j).symm.trans hOther
        split at hOther
        · rename_i hj
          obtain rfl := Option.some.inj hOther
          rw [hj]
          exact hAnswer answer hHas
        · exact h.answers j other answer hOther hHas }

theorem Sound.failGroup (h : s.Sound g) {w : Nat} {worker : Worker Response}
    (hw : s.workers[w]? = some worker) {jobs : List GroupCommitJob}
    (hHeld : worker.phase.held = jobs.map GroupCommitJob.id)
    (hHand : worker.phase.inHand = jobs.map GroupCommitJob.id) (hFail : worker.phase.toFail = [])
    (hAlive : worker.phase.Alive) (hLocks : worker.phase.Locks) (error : NodeError) :
    (s.failGroup w jobs error).Sound g := by
  have hIds : (jobs.map fun job => (job, (Except.error error : GroupCommitResult Response))).map
      (fun result => result.1.id) = jobs.map GroupCommitJob.id := by
    rw [List.map_map]
    rfl
  refine h.setPhase hw (hIds.trans hHeld.symm) (hIds.trans hHand.symm) hFail.symm
    ⟨fun _ => trivial, fun _ => hAlive⟩ (fun _ => (h.workers w worker hw).locked hLocks) fun result hResult => ?_
  obtain ⟨job, -, rfl⟩ := List.mem_map.mp hResult
  exact nofun

theorem Sound.small_of_pending (h : s.Sound g) {job : GroupCommitJob} (hJob : job ∈ s.queue.pending) :
    job.memberCount ≤ g.maxMembers := by
  obtain ⟨own, hOwn, hCount⟩ := h.known job hJob
  rw [hCount]
  exact (h.small own (List.mem_of_getElem? hOwn)).2

/-- A worker moves on with the jobs that it has. -/
theorem Sound.moves (h : s.Sound g) {w : Nat} {before after : WorkerPhase Response}
    (hPhase : s.phaseOf w = some before) (hHeld : after.held = before.held)
    (hHand : after.inHand = before.inHand) (hFail : after.toFail = before.toFail)
    (hAlive : before.Alive ↔ after.Alive) (hLocks : after.Locks → before.Locks)
    (hAfter : s.PhaseSound after) : (s.setPhase w after).Sound g := by
  obtain ⟨worker, hw, rfl⟩ := phaseOf_eq_some hPhase
  exact h.setPhase hw hHeld hHand hFail hAlive
    (fun hHolds => (h.workers w worker hw).locked (hLocks hHolds)) hAfter

theorem Sound.fails (h : s.Sound g) {w : Nat} {before : WorkerPhase Response}
    {jobs : List GroupCommitJob} (hPhase : s.phaseOf w = some before)
    (hHeld : before.held = jobs.map GroupCommitJob.id)
    (hHand : before.inHand = jobs.map GroupCommitJob.id) (hFail : before.toFail = [])
    (hAlive : before.Alive) (hLocks : before.Locks) (error : NodeError) :
    (s.failGroup w jobs error).Sound g := by
  obtain ⟨worker, hw, rfl⟩ := phaseOf_eq_some hPhase
  exact h.failGroup hw hHeld hHand hFail hAlive hLocks error

theorem Sound.call (hBounded : g.Bounded) (h : s.Sound g) {members : List RuntimeBatchMember}
    {s' : GroupSystem Response} (hStep : s.step g (.call members) = some s') : s'.Sound g := by
  simp only [GroupSystem.step] at hStep
  split at hStep
  · cases hStep
    exact h
  rename_i hLen
  split at hStep
  · cases hStep
    exact h
  rename_i queue leader hEnqueue
  have hEnqueued := enqueue_eq_ok hBounded hEnqueue
  have hLen := hBounded.batchLen _ hLen
  cases hStep
  cases leader with
  | false =>
    have hActive : s.queue.leaderActive = true := by
      have hLeads := hEnqueued.leads
      cases hQueue : s.queue.leaderActive with
      | true => rfl
      | false => rw [hQueue] at hLeads; cases hLeads
    exact h.enqueue hEnqueued hLen (h.led hActive)
  | true =>
    have hSpawned := h.spawn ⟨true, .locking, []⟩ rfl rfl rfl rfl nofun trivial
    exact hSpawned.enqueue hEnqueued hLen
      ⟨s.workers.length, _, List.getElem?_concat_length, rfl, trivial⟩

theorem Sound.execute (h : s.Sound g) {w : Nat} {results : Option (List (MemberResult Response))}
    {fatal : Option String} {s' : GroupSystem Response}
    (hStep : s.step g (.execute w results fatal) = some s') : s'.Sound g := by
  simp only [GroupSystem.step] at hStep
  split at hStep
  · rename_i hPhase
    cases hStep
    exact h.fails hPhase rfl rfl rfl trivial trivial _
  · rename_i jobs members results hPhase
    obtain ⟨worker, hw, hHere⟩ := phaseOf_eq_some hPhase
    have hBatch := (h.workers w worker hw).phase
    rw [hHere] at hBatch
    have hRecorded := h.record ⟨members, results⟩
    split at hStep
    · rename_i published hFinish
      have hLast : (⟨members, results⟩ : Execution Response) ∈
          s.executions ++ [⟨members, results⟩] := List.mem_append_right _ (List.mem_singleton_self _)
      obtain ⟨hIds, hDelivered⟩ := finishGroup_spec
        (s := { s with executions := s.executions ++ [⟨members, results⟩] }) hLast hBatch hFinish
      cases hStep
      exact hRecorded.moves hPhase hIds hIds rfl Iff.rfl id hDelivered
    · rename_i error _
      cases hStep
      exact hRecorded.fails hPhase rfl rfl rfl trivial trivial error
  · cases hStep

theorem Sound.return (h : s.Sound g) {i : Nat} {s' : GroupSystem Response}
    (hStep : s.step g (.answer i) = some s') : s'.Sound g := by
  simp only [GroupSystem.step] at hStep
  split at hStep
  · cases hStep
  rename_i call hCall
  split at hStep
  · split at hStep
    · rename_i result hResult
      cases hStep
      refine h.answer hCall rfl rfl rfl fun answer hAnswer => .inl ?_
      obtain rfl := Option.some.inj hAnswer
      exact h.results i call result hCall hResult
    · rename_i hResult
      split at hStep
      · rename_i hCancelled
        cases hStep
        refine h.answer hCall rfl rfl hResult fun answer hAnswer => .inr ⟨hCancelled, ?_⟩
        exact (Option.some.inj hAnswer).symm
      · cases hStep
  · cases hStep

theorem Sound.step (hBounded : g.Bounded) (h : s.Sound g) {event : GroupEvent Response}
    {s' : GroupSystem Response} (hStep : s.step g event = some s') : s'.Sound g := by
  cases event with
  | call members => exact h.call hBounded hStep
  | execute w results fatal => exact h.execute hStep
  | answer i => exact h.return hStep
  | cancel =>
    cases hStep
    exact h.cancel.spawn _ rfl rfl rfl rfl nofun trivial
  | lock w =>
    simp only [GroupSystem.step] at hStep
    split at hStep
    · rename_i hPhase
      obtain ⟨worker, hw, hPhase⟩ := phaseOf_eq_some hPhase
      split at hStep
      · rename_i hFree
        cases hStep
        exact h.lock hw hPhase hFree
      · cases hStep
    · cases hStep
  | lockFails w error =>
    simp only [GroupSystem.step] at hStep
    split at hStep
    · rename_i hPhase
      cases hStep
      exact h.moves hPhase rfl rfl rfl Iff.rfl nofun trivial
    · cases hStep
  | collect w =>
    simp only [GroupSystem.step] at hStep
    split at hStep
    · rename_i hPhase
      split at hStep
      · rename_i hEmpty
        obtain ⟨worker, hw, hPhase⟩ := phaseOf_eq_some hPhase
        cases hStep
        exact (h.deactivate hEmpty).finish hw (by rw [hPhase]; rfl) fun _ => rfl
      · cases hStep
        exact h.moves hPhase rfl rfl rfl Iff.rfl id trivial
    · cases hStep
  | wake w =>
    simp only [GroupSystem.step] at hStep
    split at hStep
    · rename_i hPhase
      cases hStep
      exact h.moves hPhase rfl rfl rfl Iff.rfl id trivial
    · cases hStep
  | drain w =>
    simp only [GroupSystem.step] at hStep
    split at hStep
    · rename_i hPhase
      obtain ⟨worker, hw, hPhase⟩ := phaseOf_eq_some hPhase
      rcases drainNextGroup_spec hBounded h.bytes fun job hJob => h.small_of_pending hJob with
        ⟨hEmpty, hDrain⟩ | ⟨group, rest, -, hPending, hTotal, hDrain⟩
      · rw [hDrain] at hStep
        cases hStep
        exact (h.deactivate hEmpty).finish hw (by rw [hPhase]; rfl) fun _ => rfl
      · rw [hDrain] at hStep
        cases hStep
        exact h.drain hw hPhase hPending hTotal
    · cases hStep
  | check w refusal =>
    simp only [GroupSystem.step] at hStep
    split at hStep
    · rename_i hPhase
      cases hStep
      exact h.moves hPhase rfl rfl rfl Iff.rfl id trivial
    · rename_i error hPhase
      cases hStep
      exact h.fails hPhase rfl rfl rfl trivial trivial error
    · cases hStep
  | start w =>
    simp only [GroupSystem.step] at hStep
    split at hStep
    · rename_i jobs hPhase
      split at hStep
      · rename_i members calls hStart
        obtain ⟨hSound, hBatch⟩ := h.start hStart
        cases hStep
        exact hSound.moves hPhase rfl rfl rfl Iff.rfl id (hBatch members rfl)
      · rename_i error calls hStart
        cases hStep
        exact (h.start hStart).1.fails hPhase rfl rfl rfl trivial trivial error
    · cases hStep
  | publish w =>
    simp only [GroupSystem.step] at hStep
    split at hStep
    · rename_i job result rest error hPhase
      obtain ⟨worker, hw, hPhase⟩ := phaseOf_eq_some hPhase
      cases hStep
      exact h.publishGroup hw hPhase
    · rename_i hPhase
      cases hStep
      exact h.moves hPhase rfl rfl rfl Iff.rfl id trivial
    · rename_i error hPhase
      cases hStep
      exact h.moves hPhase rfl rfl rfl Iff.rfl nofun trivial
    · cases hStep
  | failPending w =>
    simp only [GroupSystem.step] at hStep
    split at hStep
    · rename_i error hPhase
      obtain ⟨worker, hw, hPhase⟩ := phaseOf_eq_some hPhase
      cases hStep
      exact h.failPending hw hPhase
    · cases hStep
  | publishFailed w =>
    simp only [GroupSystem.step] at hStep
    split at hStep
    · rename_i job rest error hPhase
      obtain ⟨worker, hw, hPhase⟩ := phaseOf_eq_some hPhase
      cases hStep
      exact h.publishFailed hw hPhase
    · rename_i error hPhase
      obtain ⟨worker, hw, hPhase⟩ := phaseOf_eq_some hPhase
      cases hStep
      exact h.finish hw (by rw [hPhase]; rfl) (by rw [hPhase]; exact nofun)
    · cases hStep

theorem sound_initial : (initial Response).Sound g where
  panicked := rfl
  bytes := rfl
  bound := Nat.zero_le _
  active h := absurd rfl h
  led h := Bool.noConfusion h
  fifo := rfl
  places id := by
    have hNone : ¬id < (initial Response).calls.length := Nat.not_lt_zero id
    rw [if_neg hNone]
    rfl
  known job hJob := absurd hJob List.not_mem_nil
  small own hOwn := absurd hOwn List.not_mem_nil
  groups jobs hJobs := absurd hJobs List.not_mem_nil
  order := rfl
  failed w := rfl
  grouped := List.nil_sublist _
  workers w worker hw := by cases hw
  members call hCall := absurd hCall List.not_mem_nil
  delivered publication h := absurd h List.not_mem_nil
  results i call result hCall := by cases hCall
  answers i call answer hCall := by cases hCall

theorem sound (hBounded : g.Bounded)
    (hRun : Run (GroupSystem.step g) (fun _ _ => True) (initial Response) s) : s.Sound g :=
  hRun.invariant sound_initial fun _ _ _ hSound _ hStep => hSound.step hBounded hStep

theorem Sound.drained_sorted (h : s.Sound g) : s.drained.Pairwise (· < ·) := by
  have hAll : (s.drained ++ s.queue.pending.map GroupCommitJob.id).Pairwise (· < ·) := by
    rw [h.fifo]
    exact List.pairwise_lt_range
  exact (List.pairwise_append.mp hAll).1

theorem Sound.publishedBy_sorted (h : s.Sound g) (publisher : Publisher) :
    (s.publishedBy publisher).Pairwise (· < ·) := by
  cases publisher with
  | leader =>
    have hFront : (s.publishedBy .leader).Sublist s.drained := by
      refine List.Sublist.trans ?_ h.grouped
      rw [← h.order]
      exact List.sublist_append_left _ _
    exact h.drained_sorted.sublist hFront
  | failPending w =>
    have hTook := h.failed w
    have hFront : (s.publishedBy (.failPending w)).Sublist (((s.workers[w]?).map (·.took)).getD []) := by
      rw [← hTook]
      exact List.sublist_append_left _ _
    cases hWorker : s.workers[w]? with
    | none =>
      rw [hWorker] at hFront
      rw [List.sublist_nil.mp hFront]
      exact List.Pairwise.nil
    | some worker =>
      rw [hWorker] at hFront
      exact h.drained_sorted.sublist (hFront.trans (h.workers w worker hWorker).taken)

theorem Sound.published_nodup (h : s.Sound g) : (s.published.map (·.job)).Nodup := by
  refine List.nodup_iff_count.mpr fun id => ?_
  have hPlaces := h.places id
  split at hPlaces <;> omega

theorem Sound.somewhere (h : s.Sound g) {i : Nat} (hi : i < s.calls.length) :
    i ∈ s.queue.pending.map GroupCommitJob.id ∨ (∃ worker ∈ s.workers, i ∈ worker.phase.held) ∨
      ∃ publication ∈ s.published, publication.job = i := by
  have hPlaces := h.places i
  rw [if_pos hi] at hPlaces
  by_cases hPending : i ∈ s.queue.pending.map GroupCommitJob.id
  · exact .inl hPending
  by_cases hHeld : i ∈ s.held
  · exact .inr (.inl (List.mem_flatMap.mp hHeld))
  · rw [List.count_eq_zero.mpr hPending, List.count_eq_zero.mpr hHeld] at hPlaces
    have hPublished : i ∈ s.published.map (·.job) := by
      refine List.count_pos_iff.mp ?_
      omega
    exact .inr (.inr (List.mem_map.mp hPublished))

end GroupSystem

/-- Both queues, over every interleaving. What one publisher publishes is in the order of
the queue. -/
theorem group_commit_loses_no_call {g : GroupCommit}
    (hQueue : (∃ capacity, g = sqlGroupCommit capacity) ∨ g = kvGroupCommit)
    {s : GroupSystem Response}
    (hRun : Run (GroupSystem.step g) (fun _ _ => True) (.initial Response) s) :
    (s.panicked = false ∧ s.queue.pendingEncodedBytes = totalBytes s.queue.pending) ∧
    (s.queue.pending ≠ [] → ∃ worker ∈ s.workers, worker.elected = true ∧ worker.phase.Alive) ∧
    s.drained ++ s.queue.pending.map GroupCommitJob.id = List.range s.calls.length ∧
    (s.published.map (·.job)).Nodup ∧
    (∀ publisher, (s.publishedBy publisher).Pairwise (· < ·)) ∧
    (∀ i < s.calls.length, i ∈ s.queue.pending.map GroupCommitJob.id ∨
      (∃ worker ∈ s.workers, i ∈ worker.phase.held) ∨
        ∃ publication ∈ s.published, publication.job = i) ∧
    (∀ jobs ∈ s.groups, totalMembers jobs ≤ 1024) ∧
    ∀ (i : Nat) call answer, s.calls[i]? = some call → call.answer = some answer →
      (∃ publication ∈ s.published, publication.job = i ∧ publication.result = answer ∧
        ∀ results, answer = .ok results → ResultsOf s.executions call.own results) ∨
      s.cancelled = true ∧
        answer = .error (.unavailable s!"{g.name} group commit cancelled during shutdown") := by
  have hBounded : g.Bounded := by
    rcases hQueue with ⟨capacity, rfl⟩ | rfl
    · exact bounded_sqlGroupCommit capacity
    · exact bounded_kvGroupCommit
  have hMax : g.maxMembers = 1024 := by
    rcases hQueue with ⟨capacity, rfl⟩ | rfl <;> rfl
  have hSound := GroupSystem.sound hBounded hRun
  refine ⟨⟨hSound.panicked, hSound.bytes⟩, fun hPending => ?_, hSound.fifo, hSound.published_nodup,
    hSound.publishedBy_sorted, fun i hi => hSound.somewhere hi, fun jobs hJobs => ?_,
    fun i call answer hCall hAnswer => ?_⟩
  · obtain ⟨w, worker, hw, hElected, hAlive⟩ := hSound.led (hSound.active hPending)
    exact ⟨worker, List.mem_of_getElem? hw, hElected, hAlive⟩
  · rw [← hMax]
    exact hSound.groups jobs hJobs
  · refine (hSound.answers i call answer hCall hAnswer).imp ?_ id
    rintro ⟨publication, hPublication, hJob, hResult⟩
    refine ⟨publication, hPublication, hJob, hResult, fun results hOk => ?_⟩
    obtain ⟨own, hOwn, hResults⟩ :=
      hSound.delivered publication hPublication results (hResult.trans hOk)
    rw [hJob, GroupSystem.owns, List.getElem?_map, hCall] at hOwn
    obtain rfl := Option.some.inj hOwn
    exact hResults

namespace Sample

/-- The first call leads and takes its own job. The second is pending when the node shuts
down, and is failed at once; the group of the first ends after that. -/
def shutdown : List (GroupEvent Nat) :=
  [.call [⟨"first", [1]⟩], .lock 0, .collect 0, .wake 0, .drain 0, .call [⟨"second", [2]⟩],
    .check 0 none, .start 0, .cancel, .failPending 1, .publishFailed 1, .execute 0 (some [.ok 7]) none,
    .publish 0]

theorem published_out_of_order : ¬∀ s : GroupSystem Nat,
    Run (GroupSystem.step kvGroupCommit) (fun _ _ => True) (.initial Nat) s →
      (s.published.map (·.job)).Pairwise (· < ·) := by
  intro hOrdered
  have hRuns : (execute (GroupSystem.step kvGroupCommit) (.initial Nat) shutdown).map
      (fun s => s.published.map (·.job)) = some [1, 0] := by decide +kernel
  obtain ⟨s, hRun, hPublished⟩ := Option.map_eq_some_iff.mp hRuns
  have hSorted := hOrdered s (.of_execute (fun _ _ _ => trivial) hRun)
  rw [hPublished] at hSorted
  revert hSorted
  decide

/-- Both calls get what was published for them. -/
theorem shutdown_loses_no_call : ∃ s : GroupSystem Nat,
    execute (GroupSystem.step kvGroupCommit) (.initial Nat) (shutdown ++ [.publish 0, .collect 0, .answer 0,
      .answer 1]) = some s ∧ (s.published.map (·.job)).Nodup ∧
      s.calls.map (fun call => call.answer.isSome) = [true, true] := by
  have hRuns : ((execute (GroupSystem.step kvGroupCommit) (.initial Nat) (shutdown ++
      [.publish 0, .collect 0, .answer 0, .answer 1])).map fun s =>
        s.calls.map fun call => call.answer.isSome) = some [true, true] := by decide +kernel
  obtain ⟨s, hRun, hAnswers⟩ := Option.map_eq_some_iff.mp hRuns
  have hAll := group_commit_loses_no_call (.inr rfl) (.of_execute (fun _ _ _ => trivial) hRun)
  exact ⟨s, hRun, hAll.2.2.2.1, hAnswers⟩

end Sample

end Rhiza.Node
