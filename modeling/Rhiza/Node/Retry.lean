import Mathlib.Data.List.Perm.Subperm
import Rhiza.Node.Expected

/-! # Requests that are sent again

One administrative request is served at a time. What an operation ended with goes
into the ledger of its node, whatever it is, and answers every later request under
the same id.
-/

namespace Rhiza.Core.ConfigurationState

open Library

variable [Sha256]

end Rhiza.Core.ConfigurationState

namespace Rhiza.Node.Admin

open Core Library

section Serving

variable [Sha256]

inductive Served
  | event (event : Event)
  /-- A client has waited ten seconds for its operation. -/
  | timeout (request : Request)
  /-- `admin_gate` finds no permit. -/
  | busy (request : Request)

namespace World

variable (w : World) (k : NodeId)

def inFlight : List Request :=
  (w.spawned.filter fun operation => operation.1 = k).map Prod.snd ++
    ((w.nodes k).task.toList.map Task.request ++
      (w.results.filter fun result => result.1 = k).map fun result => result.2.1)

def serve : Served → Option World
  | .event event => w.step event
  | .timeout request => some (w.answer request 503 (.error .unavailable))
  | .busy request => some (w.answer request 429 (.error .unavailable))

def Serves : Served → Prop
  | .event (.submit j request) =>
    j = k ∧ (w.inFlight k = [] ∨
      ∀ ledger, (w.nodes k).ledger = some ledger → (replay ledger request).isSome)
  | .event (.reopen j runtime read) =>
    (∃ origin : ConfigurationState, origin.follow runtime.log = .ok runtime.configuration) ∧
      (j = k → read ≠ .absent)
  | _ => True

end World

def Runtime.Coherent (n : Runtime) : Prop :=
  ∃ origin : ConfigurationState, origin.follow n.log = .ok n.configuration

def Body.Reports (happenings : List Happening) (body : Body) : Request → Prop
  | .stop request => ∃ (entry : LogEntry) (proof : Quepaxa.DecisionProof),
      body = .stop request.operationId ⟨2, entry, proof⟩ request.successor ∧
        proof.proposal.value.map (·.entryHash) = some entry.hash
  | .installSuccessor request => ∃ configId digest activated,
      body = .installSuccessor request.operationId configId digest activated
  | .activate request => ∃ entry, body = .activate request.operationId entry ∧
      .barrierWritten request entry ∈ happenings

omit [Sha256] in
theorem Body.Reports.mono {happenings happenings' : List Happening} {body : Body} {request : Request}
    (h : body.Reports happenings request) (hMore : happenings ⊆ happenings') :
    body.Reports happenings' request := by
  cases request with
  | stop request => exact h
  | installSuccessor request => exact h
  | activate request =>
    obtain ⟨entry, hBody, hWritten⟩ := h
    exact ⟨entry, hBody, hMore hWritten⟩

structure Effect.Fits (n : Member) (requests : List Request) (effect : Effect) : Prop where
  ledger : effect.node.ledger = n.ledger
  ledgerFile : effect.node.ledgerFile = n.ledgerFile
  flight : effect.node.task.toList.map Task.request ++ effect.finished.toList.map Prod.fst = requests
  coherent : n.runtime.Coherent → effect.node.runtime.Coherent
  silent : ∀ request status body, effect.shown ≠ some (.answered request status body)
  finished : ∀ request body, effect.finished = some (request, .ok body) →
    body.Reports effect.shown.toList request

section Effects

variable {n : Member}

theorem Runtime.Coherent.append {runtime : Runtime} (h : runtime.Coherent) {entry : LogEntry}
    {next : ConfigurationState} (hNext : runtime.configuration.validateEntry entry = .ok next) :
    (runtime.append entry next).Coherent := by
  obtain ⟨origin, hOrigin⟩ := h
  refine ⟨origin, ?_⟩
  unfold ConfigurationState.follow at hOrigin ⊢
  rw [Runtime.append, List.foldlM_append, hOrigin, ok_bind]
  simp only [List.foldlM_cons, List.foldlM_nil, hNext, ok_bind]
  rfl

theorem Runtime.Coherent.persistEntry {runtime : Runtime} (h : runtime.Coherent)
    (fault : Option Runtime.PersistFault) (entry : LogEntry) (index : Nat) (prevHash : LogHash) :
    (runtime.persistEntry fault entry index prevHash).1.Coherent := by
  unfold Runtime.persistEntry
  split
  · exact h
  · rename_i next hValid
    have hNext : runtime.configuration.validateEntry entry = .ok next := by
      obtain ⟨-, -, hValid⟩ := bind_ok_iff.mp hValid
      split at hValid
      · rename_i found hFound
        rw [hFound, Except.ok.inj hValid]
      · cases hValid
    split
    · exact h.append hNext
    · exact h
    · exact h.append hNext

theorem fits_finish_error (n n' : Member) (request : Request) (error : OperationError)
    (hLedger : n'.ledger = n.ledger) (hFile : n'.ledgerFile = n.ledgerFile)
    (hCoherent : n.runtime.Coherent → n'.runtime.Coherent) :
    (n'.finish request (.error error)).Fits n [request] where
  ledger := hLedger
  ledgerFile := hFile
  flight := rfl
  coherent := hCoherent
  silent _ _ _ hShown := by cases hShown
  finished _ _ hFinished := by cases hFinished

theorem begin_fits (n : Member) (conduct : Quepaxa.Conduct) (inspected : Outcome LogEntry)
    (request : Request) : (World.begin n conduct inspected request).Fits n [request] := by
  cases request with
  | stop request =>
    unfold World.begin Member.beginStop
    simp only
    split
    · exact fits_finish_error n n _ _ rfl rfl id
    · exact ⟨rfl, rfl, rfl, id, fun _ _ _ hShown => (by cases hShown), fun _ _ hFinished => by cases hFinished⟩
  | installSuccessor request =>
    unfold World.begin Member.installSuccessor
    simp only
    split
    · exact fits_finish_error n n _ _ rfl rfl id
    · refine ⟨rfl, rfl, rfl, id, fun _ _ _ hShown => (by cases hShown), fun other body hFinished => ?_⟩
      obtain ⟨rfl, hResult⟩ := Prod.mk.inj (Option.some.inj hFinished)
      split at hResult
      · exact ⟨_, _, _, (Except.ok.inj hResult).symm⟩
      · cases hResult
  | activate request =>
    unfold World.begin Member.beginActivate
    simp only
    split
    · exact fits_finish_error n n _ _ rfl rfl id
    · split
      · exact fits_finish_error n _ _ _ rfl rfl id
      · exact ⟨rfl, rfl, rfl, id, fun _ _ _ hShown => (by cases hShown), fun _ _ hFinished => by cases hFinished⟩

theorem propose_fits {effect : Effect} (h : n.propose = some effect) :
    effect.Fits n (n.task.toList.map Task.request) := by
  unfold Member.propose at h
  split at h
  · rename_i hTask
    obtain rfl := Option.some.inj h
    rw [hTask]
    split
    · exact fits_finish_error n n _ _ rfl rfl id
    · exact ⟨rfl, rfl, rfl, id, fun _ _ _ hShown => (by cases hShown), fun _ _ hFinished => by cases hFinished⟩
  · cases h

theorem decided_fits {fault : Option Runtime.PersistFault} {entry : LogEntry} {effect : Effect}
    (h : n.decided fault entry = some effect) : effect.Fits n (n.task.toList.map Task.request) := by
  unfold Member.decided at h
  split at h
  · rename_i request command slot prevHash hTask
    obtain rfl := Option.some.inj h
    rw [hTask]
    have hCoherent := fun h : n.runtime.Coherent => h.persistEntry fault entry slot prevHash
    unfold Member.stopDecided
    split
    · rename_i hPersist
      rw [hPersist] at hCoherent
      exact fits_finish_error n _ _ _ rfl rfl hCoherent
    · rename_i hPersist
      rw [hPersist] at hCoherent
      split
      · exact ⟨rfl, rfl, rfl, hCoherent, fun _ _ _ hShown => (by cases hShown), fun _ _ hFinished => by cases hFinished⟩
      · split
        · exact ⟨rfl, rfl, rfl, hCoherent, fun _ _ _ hShown => (by cases hShown), fun _ _ hFinished => by cases hFinished⟩
        · exact fits_finish_error n _ _ _ rfl rfl hCoherent
  · rename_i request slot prevHash hTask
    obtain rfl := Option.some.inj h
    rw [hTask]
    have hCoherent := fun h : n.runtime.Coherent => h.persistEntry fault entry slot prevHash
    unfold Member.barrierDecided
    split
    · rename_i hPersist
      rw [hPersist] at hCoherent
      exact fits_finish_error n _ _ _ rfl rfl hCoherent
    · rename_i hPersist
      rw [hPersist] at hCoherent
      refine ⟨rfl, rfl, rfl, hCoherent, fun _ _ _ hShown => (by cases hShown), fun other body hFinished => ?_⟩
      obtain ⟨rfl, hResult⟩ := Prod.mk.inj (Option.some.inj hFinished)
      exact ⟨entry, (Except.ok.inj hResult).symm, List.mem_cons_self⟩
  · cases h

theorem proved_fits {proof : Option Quepaxa.DecisionProof} {effect : Effect}
    (h : n.proved proof = some effect) : effect.Fits n (n.task.toList.map Task.request) := by
  unfold Member.proved at h
  split at h
  · rename_i request entry hTask
    obtain rfl := Option.some.inj h
    rw [hTask]
    split
    · exact fits_finish_error n n _ _ rfl rfl id
    · rename_i proof
      split
      · rename_i hProof
        refine ⟨rfl, rfl, rfl, id, fun _ _ _ hShown => (by cases hShown), fun other body hFinished => ?_⟩
        obtain ⟨rfl, hResult⟩ := Prod.mk.inj (Option.some.inj hFinished)
        exact ⟨entry, proof, (Except.ok.inj hResult).symm, hProof⟩
      · exact fits_finish_error n _ _ _ rfl rfl id
  · cases h

theorem refused_fits {error : OperationError} {latched : Bool} {effect : Effect}
    (h : n.refused error latched = some effect) : effect.Fits n (n.task.toList.map Task.request) := by
  obtain ⟨task, hTask, rfl⟩ := Option.map_eq_some_iff.mp h
  rw [hTask]
  refine fits_finish_error n _ _ _ rfl rfl fun hCoherent => ?_
  simp only
  split <;> exact hCoherent

theorem learn_fits {fault : Option Runtime.PersistFault} {entry : LogEntry} {effect : Effect}
    (h : n.learn fault entry = some effect) : effect.Fits n (n.task.toList.map Task.request) := by
  unfold Member.learn at h
  split at h
  · obtain rfl := Option.some.inj h
    exact ⟨rfl, rfl, List.append_nil _, fun hCoherent => hCoherent.persistEntry _ _ _ _,
      fun _ _ _ hShown => (by cases hShown), fun _ _ hFinished => by cases hFinished⟩
  · cases h

end Effects

def Member.Records (n : Member) (request : Request) (status : Nat) (body : Body) : Prop :=
  n.ledgerFile.lookup request.operationId = some ⟨request, status, body⟩

def Refuses (status : Nat) (body : Body) : Prop :=
  (status, body) ∈ [(503, Body.error .unavailable), (429, Body.error .unavailable),
    (409, Body.error .operationConflict), (400, Body.error .invalidRequest)]

namespace World

structure Kept (k : NodeId) (w : World) : Prop where
  synced : ∀ ledger, (w.nodes k).ledger = some ledger → ledger = (w.nodes k).ledgerFile
  single : (w.inFlight k).length ≤ 1
  fresh : ∀ request ∈ w.inFlight k, ∀ ledger, (w.nodes k).ledger = some ledger →
    ledger.lookup request.operationId = none
  answers : ∀ request status body, .answered request status body ∈ w.happenings →
    (w.nodes k).Records request status body ∨ Refuses status body
  coherent : ∀ j, (w.nodes j).runtime.Coherent
  results : ∀ j request body, (j, request, .ok body) ∈ w.results → body.Reports w.happenings request
  reports : ∀ record ∈ (w.nodes k).ledgerFile, record.1 = record.2.fingerprint.operationId ∧
    (record.2.status = 200 → record.2.body.Reports w.happenings record.2.fingerprint)

def Keeps (k : NodeId) (w w' : World) : Prop :=
  ∀ id record, (w.nodes k).ledgerFile.lookup id = some record →
    (w'.nodes k).ledgerFile.lookup id = some record

variable {w w' : World} {k : NodeId}

omit [Sha256] in
theorem Keeps.refl (k : NodeId) (w : World) : Keeps k w w := fun _ _ => id

omit [Sha256] in
theorem Keeps.of_eq (h : (w'.nodes k).ledgerFile = (w.nodes k).ledgerFile) : Keeps k w w' := by
  intro id record hRecord
  rwa [h]

def Fewer (k : NodeId) (w w' : World) : Prop :=
  ∀ request, (w'.inFlight k).count request ≤ (w.inFlight k).count request

theorem Kept.single_of_fewer (h : w.Kept k) (hFewer : Fewer k w w') : (w'.inFlight k).length ≤ 1 :=
  (List.subperm_ext_iff.mpr fun request _ => hFewer request).length_le.trans h.single

omit [Sha256] in
theorem mem_of_fewer (hFewer : Fewer k w w') {request : Request} (h : request ∈ w'.inFlight k) :
    request ∈ w.inFlight k :=
  List.count_pos_iff.mp (Nat.lt_of_lt_of_le (List.count_pos_iff.mpr h) (hFewer request))

theorem Kept.goOn (h : w.Kept k) (hFewer : Fewer k w w')
    (hLedger : (w'.nodes k).ledger = (w.nodes k).ledger)
    (hFile : (w'.nodes k).ledgerFile = (w.nodes k).ledgerFile)
    (hAnswers : ∀ request status body, .answered request status body ∈ w'.happenings →
      (w.nodes k).Records request status body ∨ Refuses status body)
    (hMore : w.happenings ⊆ w'.happenings) (hCoherent : ∀ j, (w'.nodes j).runtime.Coherent)
    (hResults : ∀ j request body, (j, request, .ok body) ∈ w'.results →
      body.Reports w'.happenings request) : w'.Kept k where
  synced ledger hThere := by
    rw [hLedger] at hThere
    rw [hFile]
    exact h.synced ledger hThere
  single := h.single_of_fewer hFewer
  fresh request hRequest ledger hThere := by
    rw [hLedger] at hThere
    exact h.fresh request (mem_of_fewer hFewer hRequest) ledger hThere
  answers request status body hAnswer := by
    unfold Member.Records
    rw [hFile]
    exact hAnswers request status body hAnswer
  coherent := hCoherent
  results := hResults
  reports record hRecord := by
    rw [hFile] at hRecord
    exact ⟨(h.reports record hRecord).1, fun hStatus => ((h.reports record hRecord).2 hStatus).mono hMore⟩

theorem Kept.answer (h : w.Kept k) {request : Request} {status : Nat} {body : Body}
    (hAnswer : (w.nodes k).Records request status body ∨ Refuses status body) :
    (w.answer request status body).Kept k := by
  refine h.goOn (fun _ => Nat.le_refl _) rfl rfl ?_ (List.subset_cons_self _ _) h.coherent ?_
  · intro other status' body' hOther
    obtain hSame | hOther := List.mem_cons.mp hOther
    · obtain ⟨rfl, rfl, rfl⟩ := Happening.answered.inj hSame
      exact hAnswer
    · exact h.answers other status' body' hOther
  · exact fun j other body' hOther => (h.results j other body' hOther).mono (List.subset_cons_self _ _)

theorem Kept.apply {before : World} (h : before.Kept k) (hNodes : w.nodes = before.nodes)
    (hResults : w.results = before.results) (hHappenings : w.happenings = before.happenings)
    {j : NodeId} {requests : List Request} {effect : Effect} (hEffect : effect.Fits (w.nodes j) requests)
    (hFewer : Fewer k before (w.apply j effect)) : (w.apply j effect).Kept k := by
  have hAt : ∀ i, (w.apply j effect).nodes i = if i = j then effect.node else before.nodes i := by
    intro i
    rw [← hNodes]
    exact Function.update_apply ..
  have hMore : before.happenings ⊆ (w.apply j effect).happenings := by
    intro happening hThere
    exact List.mem_append_right _ (hHappenings ▸ hThere)
  refine h.goOn hFewer ?_ ?_ ?_ hMore ?_ ?_
  · rw [hAt]
    split
    · rename_i hSame
      rw [hEffect.ledger, hNodes, hSame]
    · rfl
  · rw [hAt]
    split
    · rename_i hSame
      rw [hEffect.ledgerFile, hNodes, hSame]
    · rfl
  · intro request status body hAnswer
    obtain hNew | hOld := List.mem_append.mp hAnswer
    · exact absurd (Option.mem_toList.mp hNew) (hEffect.silent request status body)
    · exact h.answers request status body (hHappenings ▸ hOld)
  · intro i
    rw [hAt]
    split
    · exact hEffect.coherent (by rw [hNodes]; exact h.coherent j)
    · exact h.coherent i
  · intro i request body hResult
    obtain hNew | hOld := List.mem_append.mp hResult
    · obtain ⟨finished, hFinished, hSame⟩ := List.mem_map.mp hNew
      obtain ⟨-, rfl⟩ := Prod.mk.inj hSame
      exact (hEffect.finished request body (Option.mem_toList.mp hFinished)).mono
        (List.subset_append_left _ _)
    · exact (h.results i request body (hResults ▸ hOld)).mono hMore

omit [Sha256] in
theorem count_inFlight (w : World) (k : NodeId) (request : Request) : (w.inFlight k).count request =
    ((w.spawned.filter fun operation => operation.1 = k).map Prod.snd).count request +
      (((w.nodes k).task.toList.map Task.request).count request +
        ((w.results.filter fun result => result.1 = k).map fun result => result.2.1).count request) := by
  rw [inFlight, List.count_append, List.count_append]

theorem count_apply {j : NodeId} {requests : List Request} {effect : Effect}
    (hEffect : effect.Fits (w.nodes j) requests) (request : Request) :
    ((w.apply j effect).inFlight k).count request +
        (if j = k then (w.nodes k).task.toList.map Task.request else []).count request =
      (w.inFlight k).count request + (if j = k then requests else []).count request := by
  rw [count_inFlight, count_inFlight]
  by_cases hj : j = k
  · subst hj
    have hFlight := congrArg (List.count request) hEffect.flight
    rw [List.count_append] at hFlight
    have hNew : ((effect.finished.toList.map fun finished => (j, finished)).filter
        fun result => result.1 = j).map (fun result => result.2.1) =
        effect.finished.toList.map Prod.fst := by
      cases effect.finished <;> simp
    rw [if_pos rfl, if_pos rfl]
    simp only [World.apply, Function.update_self, List.filter_append, List.map_append,
      List.count_append, hNew]
    omega
  · have hNew : ((effect.finished.toList.map fun finished => (j, finished)).filter
        fun result => result.1 = k) = [] := by
      cases effect.finished <;> simp [hj]
    rw [if_neg hj, if_neg hj]
    simp only [World.apply, Function.update_of_ne (Ne.symm hj), List.filter_append, hNew,
      List.nil_append]

theorem Kept.continue (h : w.Kept k) {j : NodeId} {effect : Effect}
    (hEffect : effect.Fits (w.nodes j) ((w.nodes j).task.toList.map Task.request)) :
    (w.apply j effect).Kept k := by
  refine h.apply rfl rfl rfl hEffect fun request => ?_
  have hCount := count_apply (k := k) hEffect request
  by_cases hj : j = k
  · subst hj
    rw [if_pos rfl] at hCount
    omega
  · rw [if_neg hj, if_neg hj] at hCount
    omega

theorem Kept.begin (h : w.Kept k) {position : Nat} {j : NodeId} {request : Request}
    (hSpawned : w.spawned[position]? = some (j, request)) (conduct : Quepaxa.Conduct)
    (inspected : Outcome LogEntry) :
    (World.apply { w with spawned := w.spawned.eraseIdx position } j
      (World.begin (w.nodes j) conduct inspected request)).Kept k := by
  have hEffect := begin_fits (w.nodes j) conduct inspected request
  refine h.apply (w := { w with spawned := w.spawned.eraseIdx position }) rfl rfl rfl hEffect
    fun other => ?_
  have hCount := count_apply (k := k) (w := { w with spawned := w.spawned.eraseIdx position })
    hEffect other
  obtain ⟨hPosition, hAt⟩ := List.getElem?_eq_some_iff.mp hSpawned
  have hPerm := ((List.getElem_cons_eraseIdx_perm hPosition).filter fun operation =>
    operation.1 = k).map Prod.snd
  have hTaken := hPerm.count_eq other
  rw [hAt] at hTaken
  rw [count_inFlight w]
  rw [count_inFlight { w with spawned := w.spawned.eraseIdx position }] at hCount
  by_cases hj : j = k
  · subst hj
    rw [List.filter_cons_of_pos (by simp), List.map_cons, List.count_cons] at hTaken
    rw [if_pos rfl, if_pos rfl, List.count_cons, List.count_nil] at hCount
    simp only at hTaken hCount
    omega
  · rw [List.filter_cons_of_neg (by simpa using hj)] at hTaken
    rw [if_neg hj, if_neg hj] at hCount
    simp only at hCount
    omega

theorem Kept.submit (h : w.Kept k) {request : Request}
    (hServes : w.inFlight k = [] ∨
      ∀ ledger, (w.nodes k).ledger = some ledger → (replay ledger request).isSome) :
    (w.submit k request).Kept k := by
  unfold World.submit
  split
  · exact h.answer (.inr (by simp [Refuses]))
  · rename_i ledger hLedger
    split
    · rename_i status body hReplay
      refine h.answer ?_
      obtain ⟨record, hRecord, hIs⟩ := Option.map_eq_some_iff.mp hReplay
      split at hIs
      · rename_i hSame
        obtain ⟨rfl, rfl⟩ := Prod.mk.inj hIs
        refine .inl ?_
        unfold Member.Records
        rw [← h.synced ledger hLedger, hRecord, ← hSame]
      · obtain ⟨rfl, rfl⟩ := Prod.mk.inj hIs
        exact .inr (by simp [Refuses])
    · rename_i hReplay
      split
      · have hEmpty : w.inFlight k = [] := by
          refine hServes.resolve_right fun hAnswered => ?_
          have hSome := hAnswered ledger hLedger
          rw [hReplay] at hSome
          cases hSome
        have hFlight : World.inFlight { w with spawned := (k, request) :: w.spawned } k = [request] := by
          have hSplit : World.inFlight { w with spawned := (k, request) :: w.spawned } k =
              request :: w.inFlight k := by
            unfold inFlight
            rw [List.filter_cons_of_pos (by simp), List.map_cons]
            rfl
          rw [hSplit, hEmpty]
        refine
          { synced := h.synced, single := by rw [hFlight]; exact Nat.le_refl 1, fresh := ?_
            answers := h.answers, coherent := h.coherent, results := h.results, reports := h.reports }
        intro other hOther found hFound
        rw [hFlight] at hOther
        rw [List.mem_singleton.mp hOther]
        have hSame : some ledger = some found := hLedger.symm.trans hFound
        rw [← Option.some.inj hSame]
        exact Option.map_eq_none_iff.mp hReplay
      · exact h.answer (.inr (by simp [Refuses]))

omit [Sha256] in
theorem fewer_of_sublist {spawned : List (NodeId × Request)}
    {results : List (NodeId × Request × Outcome Body)} {nodes : NodeId → Member}
    {happenings : List Happening} (hTask : (nodes k).task = (w.nodes k).task ∨ (nodes k).task = none)
    (hSpawned : spawned.Sublist w.spawned) (hResults : results.Sublist w.results) :
    Fewer k w ⟨nodes, spawned, results, happenings⟩ := by
  intro request
  rw [count_inFlight, count_inFlight]
  have hStarted := ((hSpawned.filter fun operation => operation.1 = k).map Prod.snd).count_le request
  have hEnded := ((hResults.filter fun result => result.1 = k).map
    fun result => result.2.1).count_le request
  obtain hTask | hTask := hTask
  · simp only [hTask]
    omega
  · simp only [hTask, Option.toList_none, List.map_nil, List.count_nil]
    omega

theorem Kept.alone (h : w.Kept k) {position : Nat} {request : Request} {result : Outcome Body}
    (hResult : w.results[position]? = some (k, request, result)) :
    request ∈ w.inFlight k ∧
      World.inFlight { w with results := w.results.eraseIdx position } k = [] := by
  obtain ⟨hPosition, hAt⟩ := List.getElem?_eq_some_iff.mp hResult
  have hPerm := ((List.getElem_cons_eraseIdx_perm hPosition).filter fun result =>
    result.1 = k).map fun result => result.2.1
  rw [hAt, List.filter_cons_of_pos (by simp), List.map_cons] at hPerm
  have hWhole : (request :: World.inFlight { w with results := w.results.eraseIdx position } k).Perm
      (w.inFlight k) := by
    refine List.perm_iff_count.mpr fun other => ?_
    have hCount := hPerm.count_eq other
    rw [List.count_cons] at hCount ⊢
    rw [count_inFlight, count_inFlight]
    simp only at hCount ⊢
    omega
  refine ⟨hWhole.subset List.mem_cons_self, List.length_eq_zero_iff.mp ?_⟩
  have hLength := hWhole.length_eq
  have hSingle := h.single
  rw [List.length_cons] at hLength
  omega

theorem Kept.storeElsewhere (h : w.Kept k) {position : Nat} {j : NodeId} (hj : j ≠ k) (request : Request)
    (result : Outcome Body) (write : LedgerWrite) :
    (World.setNode { w with results := w.results.eraseIdx position } j
      (storeAt (w.nodes j) request result write)).Kept k := by
  have hHere : ∀ node, Function.update w.nodes j node k = w.nodes k := fun node =>
    Function.update_of_ne (Ne.symm hj) ..
  refine h.goOn (fewer_of_sublist (.inl (by rw [hHere])) (List.Sublist.refl _)
    (List.eraseIdx_sublist _ _)) ?_ ?_ h.answers (List.Subset.refl _) ?_ ?_
  · simp only [World.setNode, hHere]
  · simp only [World.setNode, hHere]
  · intro i
    by_cases hi : i = j
    · subst hi
      simp only [World.setNode, Function.update_self]
      unfold storeAt
      split
      · exact h.coherent i
      · cases write <;> exact h.coherent i
    · simp only [World.setNode, Function.update_of_ne hi]
      exact h.coherent i
  · exact fun i request body hResult => h.results i request body (List.mem_of_mem_eraseIdx hResult)

omit [Sha256] in
theorem reports_cons {happenings : List Happening} {request : Request} {result : Outcome Body}
    (h : ∀ body, result = .ok body → body.Reports happenings request) {ledger : Ledger}
    (hOld : ∀ record ∈ ledger, record.1 = record.2.fingerprint.operationId ∧
      (record.2.status = 200 → record.2.body.Reports happenings record.2.fingerprint)) :
    ∀ record ∈ (request.operationId, OperationRecord.of request result) :: ledger,
      record.1 = record.2.fingerprint.operationId ∧
        (record.2.status = 200 → record.2.body.Reports happenings record.2.fingerprint) := by
  intro record hRecord
  obtain rfl | hRecord := List.mem_cons.mp hRecord
  · cases result with
    | ok body => exact ⟨rfl, fun _ => h body rfl⟩
    | error error =>
      refine ⟨rfl, fun hStatus => ?_⟩
      cases error <;> cases hStatus
  · exact hOld record hRecord

omit [Sha256] in
theorem lookup_cons_of_none {ledger : Ledger} {id id' : String} {record found : OperationRecord}
    (hNone : ledger.lookup id = none) (hFound : ledger.lookup id' = some found) :
    ((id, record) :: ledger).lookup id' = some found := by
  have hNe : (id' == id) = false := by
    refine beq_false_of_ne ?_
    rintro rfl
    rw [hNone] at hFound
    cases hFound
  rw [List.lookup_cons, hNe]
  exact hFound

theorem Kept.storeHere (h : w.Kept k) {position : Nat} {request : Request} {result : Outcome Body}
    (hResult : w.results[position]? = some (k, request, result)) (write : LedgerWrite) :
    (World.setNode { w with results := w.results.eraseIdx position } k
        (storeAt (w.nodes k) request result write)).Kept k ∧
      Keeps k w (World.setNode { w with results := w.results.eraseIdx position } k
        (storeAt (w.nodes k) request result write)) := by
  obtain ⟨hFlight, hEmpty⟩ := h.alone hResult
  have hReports : ∀ body, result = .ok body → body.Reports w.happenings request := by
    rintro body rfl
    exact h.results k request body (List.mem_of_getElem? hResult)
  generalize hNode : storeAt (w.nodes k) request result write = node
  have hAt : (World.setNode { w with results := w.results.eraseIdx position } k node).nodes k = node :=
    Function.update_self ..
  have hTask : node.task = (w.nodes k).task := by
    rw [← hNode]
    unfold storeAt
    split
    · rfl
    · cases write <;> rfl
  have hRuntime : node.runtime = (w.nodes k).runtime := by
    rw [← hNode]
    unfold storeAt
    split
    · rfl
    · cases write <;> rfl
  have hNone : World.inFlight (World.setNode { w with results := w.results.eraseIdx position } k node) k
      = [] := by
    rw [← hEmpty]
    unfold inFlight
    rw [hAt, hTask]
    rfl
  -- the file stays, or it gets the record under an id that it did not have
  have hFile : node.ledgerFile = (w.nodes k).ledgerFile ∨
      (w.nodes k).ledgerFile.lookup request.operationId = none ∧
        node.ledgerFile =
          (request.operationId, OperationRecord.of request result) :: (w.nodes k).ledgerFile := by
    rw [← hNode]
    unfold storeAt
    split
    · exact .inl rfl
    · rename_i ledger hLedger
      have hSame := h.synced ledger hLedger
      have hFresh := h.fresh request hFlight ledger hLedger
      rw [hSame] at hFresh
      cases write with
      | done => exact .inr ⟨hFresh, by rw [hSame]⟩
      | failed => exact .inl rfl
      | failedAfterRename => exact .inr ⟨hFresh, by rw [hSame]⟩
  have hKeeps : ∀ id record, (w.nodes k).ledgerFile.lookup id = some record →
      node.ledgerFile.lookup id = some record := by
    intro id record hRecord
    obtain hFile | ⟨hFree, hFile⟩ := hFile
    · rwa [hFile]
    · rw [hFile]
      exact lookup_cons_of_none hFree hRecord
  refine ⟨?_, fun id record hRecord => by rw [hAt]; exact hKeeps id record hRecord⟩
  refine
    { synced := ?_, single := by rw [hNone]; exact Nat.zero_le 1
      fresh := fun other hOther => by rw [hNone] at hOther; cases hOther
      answers := ?_, coherent := ?_
      results := fun j request body hThere => h.results j request body (List.mem_of_mem_eraseIdx hThere)
      reports := ?_ }
  · intro ledger hLedger
    rw [hAt] at hLedger ⊢
    rw [← hNode] at hLedger ⊢
    unfold storeAt at hLedger ⊢
    split at hLedger
    · rename_i hNo
      rw [hNo] at hLedger
      cases hLedger
    · rename_i found hFound
      simp only
      cases write with
      | done => exact (Option.some.inj hLedger).symm
      | failed => cases hLedger
      | failedAfterRename => cases hLedger
  · intro other status body hAnswer
    refine (h.answers other status body hAnswer).imp (fun hRecorded => ?_) id
    unfold Member.Records at hRecorded ⊢
    rw [hAt]
    exact hKeeps _ _ hRecorded
  · intro i
    by_cases hi : i = k
    · subst hi
      rw [hAt, hRuntime]
      exact h.coherent i
    · simp only [World.setNode, Function.update_of_ne hi]
      exact h.coherent i
  · rw [hAt]
    obtain hFile | ⟨-, hFile⟩ := hFile
    · rw [hFile]
      exact h.reports
    · rw [hFile]
      exact reports_cons hReports h.reports

theorem Kept.reopen (h : w.Kept k) {j : NodeId} {runtime : Runtime} {read : LedgerRead}
    (hCoherent : runtime.Coherent) (hRead : j = k → read ≠ .absent) :
    (w.reopen j runtime read).Kept k := by
  have hResults : ∀ i request body, (i, request, .ok body) ∈ (w.reopen j runtime read).results →
      body.Reports w.happenings request :=
    fun i request body hThere => h.results i request body (List.mem_of_mem_filter hThere)
  have hRuntimes : ∀ i, ((w.reopen j runtime read).nodes i).runtime.Coherent := by
    intro i
    by_cases hi : i = j
    · subst hi
      simp only [World.reopen, Function.update_self]
      exact hCoherent
    · simp only [World.reopen, Function.update_of_ne hi]
      exact h.coherent i
  by_cases hj : j = k
  · subst hj
    have hAt : (w.reopen j runtime read).nodes j = reopenAt (w.nodes j) runtime read :=
      Function.update_self ..
    have hFewer : Fewer j w (w.reopen j runtime read) :=
      fewer_of_sublist (.inr (by rw [Function.update_self]; rfl)) List.filter_sublist List.filter_sublist
    have hEmpty : (w.reopen j runtime read).inFlight j = [] := by
      unfold inFlight
      rw [hAt]
      simp [World.reopen, reopenAt, List.filter_filter]
    refine
      { synced := ?_, single := h.single_of_fewer hFewer
        fresh := fun other hOther => by rw [hEmpty] at hOther; cases hOther
        answers := ?_, coherent := hRuntimes, results := hResults
        reports := by rw [hAt]; exact h.reports }
    · intro ledger hLedger
      rw [hAt] at hLedger ⊢
      cases read with
      | found => exact (Option.some.inj hLedger).symm
      | absent => exact absurd rfl (hRead rfl)
      | unreadable => cases hLedger
    · intro request status body hAnswer
      unfold Member.Records
      rw [hAt]
      exact h.answers request status body hAnswer
  · have hHere : (w.reopen j runtime read).nodes k = w.nodes k := Function.update_of_ne (Ne.symm hj) ..
    refine h.goOn (fewer_of_sublist (.inl ?_) List.filter_sublist List.filter_sublist) ?_ ?_
      h.answers (List.Subset.refl _) hRuntimes hResults
    · exact congrArg Member.task hHere
    · rw [hHere]
    · rw [hHere]

theorem Kept.onNode (h : w.Kept k) {j : NodeId} {node : Member} (hTask : node.task = (w.nodes j).task)
    (hLedger : node.ledger = (w.nodes j).ledger) (hFile : node.ledgerFile = (w.nodes j).ledgerFile)
    (hCoherent : (w.nodes j).runtime.Coherent → node.runtime.Coherent) :
    (w.setNode j node).Kept k ∧ Keeps k w (w.setNode j node) := by
  have hAt : ∀ i, (w.setNode j node).nodes i = if i = j then node else w.nodes i := fun i =>
    Function.update_apply ..
  have hFiles : ((w.setNode j node).nodes k).ledgerFile = (w.nodes k).ledgerFile := by
    rw [hAt]
    split
    · rename_i hSame
      rw [hFile, hSame]
    · rfl
  refine ⟨h.goOn (fewer_of_sublist (.inl ?_) (List.Sublist.refl _) (List.Sublist.refl _)) ?_ hFiles
    h.answers (List.Subset.refl _) ?_ h.results, .of_eq hFiles⟩
  · change ((w.setNode j node).nodes k).task = (w.nodes k).task
    rw [hAt]
    split
    · rename_i hSame
      rw [hTask, hSame]
    · rfl
  · rw [hAt]
    split
    · rename_i hSame
      rw [hLedger, hSame]
    · rfl
  · intro i
    rw [hAt]
    split
    · exact hCoherent (h.coherent j)
    · exact h.coherent i

theorem ledgerFile_apply {j : NodeId} {requests : List Request} {effect : Effect}
    (hEffect : effect.Fits (w.nodes j) requests) :
    ((w.apply j effect).nodes k).ledgerFile = (w.nodes k).ledgerFile := by
  by_cases hj : k = j
  · subst hj
    simp only [World.apply, Function.update_self, hEffect.ledgerFile]
  · simp only [World.apply, Function.update_of_ne hj]

theorem Kept.step (h : w.Kept k) {event : Event} (hServes : w.Serves k (.event event))
    (hStep : w.step event = some w') : w'.Kept k ∧ Keeps k w w' := by
  cases event with
  | submit j request =>
    obtain ⟨rfl, hServes⟩ := hServes
    obtain rfl := Option.some.inj hStep
    refine ⟨h.submit hServes, .of_eq ?_⟩
    unfold World.submit
    split
    · rfl
    · split
      · rfl
      · split <;> rfl
  | begin position conduct inspected =>
    obtain ⟨⟨j, request⟩, hSpawned, hStep⟩ := Option.bind_eq_some_iff.mp hStep
    simp only at hStep
    split at hStep
    · obtain rfl := Option.some.inj hStep
      exact ⟨h.begin hSpawned conduct inspected, .of_eq (ledgerFile_apply (begin_fits _ _ _ _))⟩
    · cases hStep
  | propose j =>
    obtain ⟨effect, hEffect, rfl⟩ := Option.map_eq_some_iff.mp hStep
    exact ⟨h.continue (propose_fits hEffect), .of_eq (ledgerFile_apply (propose_fits hEffect))⟩
  | decided j fault entry =>
    obtain ⟨effect, hEffect, rfl⟩ := Option.map_eq_some_iff.mp hStep
    exact ⟨h.continue (decided_fits hEffect), .of_eq (ledgerFile_apply (decided_fits hEffect))⟩
  | proved j proof =>
    obtain ⟨effect, hEffect, rfl⟩ := Option.map_eq_some_iff.mp hStep
    exact ⟨h.continue (proved_fits hEffect), .of_eq (ledgerFile_apply (proved_fits hEffect))⟩
  | refused j error latched =>
    obtain ⟨effect, hEffect, rfl⟩ := Option.map_eq_some_iff.mp hStep
    exact ⟨h.continue (refused_fits hEffect), .of_eq (ledgerFile_apply (refused_fits hEffect))⟩
  | store position write =>
    obtain ⟨⟨j, request, result⟩, hResult, hStep⟩ := Option.bind_eq_some_iff.mp hStep
    obtain rfl := Option.some.inj hStep
    by_cases hj : j = k
    · subst hj
      exact h.storeHere hResult write
    · refine ⟨h.storeElsewhere hj request result write, .of_eq ?_⟩
      simp only [World.setNode, Function.update_of_ne (Ne.symm hj)]
  | learn j fault entry =>
    obtain ⟨effect, hEffect, rfl⟩ := Option.map_eq_some_iff.mp hStep
    exact ⟨h.continue (learn_fits hEffect), .of_eq (ledgerFile_apply (learn_fits hEffect))⟩
  | recorder j call =>
    obtain rfl := Option.some.inj hStep
    exact h.onNode rfl rfl rfl id
  | latch j =>
    obtain rfl := Option.some.inj hStep
    exact h.onNode rfl rfl rfl id
  | reopen j runtime read =>
    obtain rfl := Option.some.inj hStep
    refine ⟨h.reopen hServes.1 hServes.2, .of_eq ?_⟩
    by_cases hj : k = j
    · subst hj
      simp only [World.reopen, Function.update_self]
      rfl
    · simp only [World.reopen, Function.update_of_ne hj]

theorem Kept.serve (h : w.Kept k) {served : Served} (hServes : w.Serves k served)
    (hStep : w.serve served = some w') : w'.Kept k ∧ Keeps k w w' := by
  cases served with
  | event event => exact h.step hServes hStep
  | timeout request =>
    obtain rfl := Option.some.inj hStep
    exact ⟨h.answer (.inr (by simp [Refuses])), .refl k w⟩
  | busy request =>
    obtain rfl := Option.some.inj hStep
    exact ⟨h.answer (.inr (by simp [Refuses])), .refl k w⟩

abbrev Serving (k : NodeId) (w w' : World) : Prop := Run World.serve (fun w => w.Serves k) w w'

theorem Kept.run (h : w.Kept k) (hRun : Serving k w w') : w'.Kept k ∧ Keeps k w w' :=
  hRun.invariant (P := fun w' => w'.Kept k ∧ Keeps k w w') ⟨h, .refl k w⟩ fun _ _ _ hKept hServes hStep => by
    obtain ⟨hNext, hKeeps⟩ := hKept.1.serve hServes hStep
    exact ⟨hNext, fun id record hRecord => hKeeps id record (hKept.2 id record hRecord)⟩

theorem Kept.start {runtimes : NodeId → Runtime} (recorders : NodeId → Quepaxa.Recorder)
    (hCoherent : ∀ j, (runtimes j).Coherent) (k : NodeId) : (World.start runtimes recorders).Kept k where
  synced _ hLedger := (Option.some.inj hLedger).symm
  single := Nat.zero_le 1
  fresh _ hRequest := by cases hRequest
  answers _ _ _ hAnswer := by cases hAnswer
  coherent := hCoherent
  results _ _ _ hResult := by cases hResult
  reports _ hRecord := by cases hRecord

end World

end Serving

namespace Operator

attribute [local instance] Sha256.rolling

def served (script : List (World → Option Event)) : List (World → Option Served) :=
  script.map fun next w => (next w).map .event

end Operator

end Rhiza.Node.Admin
