import Rhiza.Node.Admin

/-! # Administrative requests act on the configuration they name

A stop checks its bundle against the id that the request names and then stops the
configuration that the log is in. The two are the same configuration only if the
request is run while it is the active one.
-/

namespace Rhiza.Node.Admin

open Core Library

structure SuccessorBundle.Describes [Sha256] (bundle : SuccessorBundle)
    (successor : SuccessorDescriptor) : Prop where
  configId_eq : successor.configId = bundle.configId
  digest_eq : successor.digest = bundle.digest
  members_perm : successor.members.Perm bundle.members

structure StopRequest.AsksFor [Sha256] (request : StopRequest)
    (successor : SuccessorDescriptor) : Prop where
  predecessor_eq : successor.predecessorConfigId = request.expectedConfigId
  describes : request.successor.Describes successor

def StopRequest.StoppedBy [Sha256] (request : StopRequest) (entry : LogEntry) : Prop :=
  entry.configId = request.expectedConfigId ∧ ∃ successor,
    ConfigChange.recognize ⟨entry.entryType, entry.payload⟩ = some (.boundStop successor) ∧
    request.AsksFor successor

section Expected

variable [Sha256]

def Body.Answers (body : Body) : Request → Prop
  | .stop request => ∃ operationId stop successor, body = .stop operationId stop successor ∧
      request.StoppedBy stop.entry
  | _ => True

def Happening.ActsOnNamed : Happening → Prop
  | .stopProposed request configuration command =>
    configuration.isActive ∧ configuration.configId = request.expectedConfigId ∧
      ∃ successor, command = (ConfigChange.boundStop successor).toStoredCommand ∧
        request.AsksFor successor
  | .barrierWritten request entry =>
    entry.configId = request.expectedConfigId ∧ ∃ change,
      ConfigChange.recognize ⟨entry.entryType, entry.payload⟩ = some change ∧
        change.isBarrier ∧ change.binding.1 = request.expectedConfigId
  | .recorderCalled request before after =>
    after ≠ before → before.configuration.configId = request.expectedConfigId
  | .answered request status body => status = 200 → body.Answers request

def Task.OnNamed (runtime : Runtime) : Task → Prop
  | .stopping request command | .stopProposed request command _ _ =>
    runtime.configuration.isActive ∧
      runtime.configuration.configId = request.expectedConfigId ∧
      ∃ successor, command = (ConfigChange.boundStop successor).toStoredCommand ∧
        request.AsksFor successor
  | .proving request entry => request.StoppedBy entry
  | .barrierProposed request _ _ =>
    ¬ runtime.configuration.isActive ∧
      checkedSucc runtime.configuration.configId = some request.expectedConfigId

def Ledger.Sound (ledger : Ledger) : Prop :=
  ∀ entry ∈ ledger, entry.2.status = 200 → entry.2.body.Answers entry.2.fingerprint

structure Member.Sound (n : Member) : Prop where
  ledger : ∀ ledger, n.ledger = some ledger → ledger.Sound
  ledgerFile : n.ledgerFile.Sound
  task : ∀ task, n.task = some task → task.OnNamed n.runtime

def SoundResult (request : Request) (result : Outcome Body) : Prop :=
  ∀ body, result = .ok body → body.Answers request

structure Effect.Sound (effect : Effect) : Prop where
  node : effect.node.Sound
  finished : ∀ request result, effect.finished = some (request, result) →
    SoundResult request result
  shown : ∀ happening, effect.shown = some happening → happening.ActsOnNamed

structure World.Sound (w : World) : Prop where
  nodes : ∀ k, (w.nodes k).Sound
  results : ∀ k request result, (k, request, result) ∈ w.results → SoundResult request result
  happenings : ∀ happening ∈ w.happenings, happening.ActsOnNamed

def World.Timely (w : World) : Event → Prop
  | .begin position _ _ =>
    match w.spawned[position]? with
    | some (k, .stop request) =>
      (w.nodes k).runtime.configuration.isActive →
        (w.nodes k).runtime.configuration.configId = request.expectedConfigId
    | some (_, .installSuccessor request) =>
      request.stop.proof.configId = request.expectedConfigId
    | _ => True
  | _ => True

section Checks

variable {n : Runtime}

omit [Sha256] in
theorem fromVoters_eq_ok {members : List NodeId} {message : String}
    {membership : Quepaxa.Membership}
    (h : Runtime.fromVoters members message = .ok membership) :
    membership.members.Perm members := by
  unfold Runtime.fromVoters at h
  split at h
  · rename_i found hFound
    obtain rfl := Except.ok.inj h
    have hSorted := List.perm_insertionSort (· ≤ ·) members
    simp only [Quepaxa.Membership.fromMembers] at hFound
    split at hFound
    · cases hFound
    · split at hFound
      · cases hFound
      · split at hFound
        · cases hFound
        · split at hFound
          · cases hFound
          · rename_i hLength
            split at hFound
            · obtain rfl := Except.ok.inj hFound
              have hWhole := (List.dedup_sublist (members.insertionSort (· ≤ ·))).eq_of_length
                ((not_not.mp hLength).trans hSorted.length_eq.symm)
              exact (List.Perm.of_eq hWhole).trans hSorted
            · cases hFound
  · cases h

theorem validateSuccessor_eq_ok {bundle : SuccessorBundle} {predecessorConfigId : Nat}
    {clusterId : ClusterId} {membership : Quepaxa.Membership}
    (h : Runtime.validateSuccessor bundle predecessorConfigId clusterId = .ok membership) :
    membership.members.Perm bundle.members ∧ membership.digest = bundle.digest ∧
      checkedSucc predecessorConfigId = some bundle.configId := by
  obtain ⟨found, hFound, h⟩ := bind_ok_iff.mp h
  obtain ⟨⟨⟩, hCheck, h⟩ := bind_ok_iff.mp h
  obtain rfl := Except.ok.inj h
  simp only [Runtime.require_eq_ok, decide_eq_true_eq] at hCheck
  exact ⟨fromVoters_eq_ok hFound, hCheck.2.1, hCheck.1⟩

theorem stopCommand_eq_ok {successor : Quepaxa.Membership} {command : StoredCommand}
    (h : n.stopCommand successor = .ok command) :
    n.configuration.isActive ∧ ∃ descriptor,
      command = (ConfigChange.boundStop descriptor).toStoredCommand ∧
      descriptor.predecessorConfigId = n.configuration.configId ∧
      checkedSucc n.configuration.configId = some descriptor.configId ∧
      descriptor.members = successor.members := by
  obtain ⟨-, -, h⟩ := bind_ok_iff.mp h
  obtain ⟨⟨⟩, hActive, h⟩ := bind_ok_iff.mp h
  split at h
  · cases h
  · rename_i nextConfigId hNext
    split at h
    · rename_i change hChange
      obtain ⟨descriptor, hDescriptor, rfl⟩ := Option.map_eq_some_iff.mp hChange
      obtain ⟨hPredecessor, hConfig⟩ := SuccessorDescriptor.new_takes hDescriptor
      refine ⟨?_, descriptor, (Except.ok.inj h).symm, hPredecessor, hConfig ▸ hNext,
        SuccessorDescriptor.new_eq_some successor.canonical hDescriptor⟩
      unfold Runtime.ensureWritesActive at hActive
      split at hActive
      · assumption
      · cases hActive
    · cases h

theorem prepareStop_eq_ok {request : StopRequest} {command : StoredCommand}
    (h : n.prepareStop request = .ok command)
    (hTimely : n.configuration.isActive →
      n.configuration.configId = request.expectedConfigId) :
    (Task.stopping request command).OnNamed n := by
  obtain ⟨membership, hValid, h⟩ := bind_ok_iff.mp h
  obtain ⟨hPerm, hDigest, hNext⟩ := validateSuccessor_eq_ok hValid
  obtain ⟨hActive, descriptor, rfl, hPredecessor, hConfig, hMembers⟩ := stopCommand_eq_ok h
  have hSame := hTimely hActive
  refine ⟨hActive, hSame, descriptor, rfl, hPredecessor.trans hSame, ?_, ?_, ?_⟩
  · rw [hSame, hNext] at hConfig
    exact (Option.some.inj hConfig).symm
  · rw [← hDigest, SuccessorDescriptor.digest, Quepaxa.Membership.digest, hMembers]
  · rw [hMembers]
    exact hPerm

theorem persistEntry_eq_ok {runtime : Runtime} {fault : Option Runtime.PersistFault}
    {entry : LogEntry} {slot : Nat} {prevHash : LogHash}
    (h : n.persistEntry fault entry slot prevHash = (runtime, .ok ())) :
    ∃ next, n.configuration.validateEntry entry = .ok next ∧ runtime = n.append entry next := by
  unfold Runtime.persistEntry at h
  split at h
  · cases (Prod.mk.inj h).2
  · rename_i next hNext
    split at h
    · obtain ⟨rfl, -⟩ := Prod.mk.inj h
      refine ⟨next, ?_, rfl⟩
      obtain ⟨-, -, hNext⟩ := bind_ok_iff.mp hNext
      split at hNext
      · rename_i found hFound
        rw [hFound, Except.ok.inj hNext]
      · cases hNext
    · cases (Prod.mk.inj h).2
    · cases (Prod.mk.inj h).2

theorem prepareActivation_eq_ok {inspected : Outcome LogEntry} {request : ActivateRequest}
    {stop : LogAnchor} {entry : LogEntry}
    (h : n.prepareActivation inspected request = .ok (stop, entry)) :
    ¬ n.configuration.isActive ∧
      checkedSucc n.configuration.configId = some request.expectedConfigId := by
  obtain ⟨-, -, h⟩ := bind_ok_iff.mp h
  split at h
  · cases h
  · rename_i anchor hStop
    obtain ⟨-, -, h⟩ := bind_ok_iff.mp h
    split at h
    · cases h
    · rename_i successorConfigId hNext
      obtain ⟨⟨⟩, hExpected, -⟩ := bind_ok_iff.mp h
      simp only [Runtime.require_eq_ok, decide_eq_true_eq] at hExpected
      refine ⟨?_, hExpected ▸ hNext⟩
      cases hState : n.configuration with
      | active configId digest => simp [hState, ConfigurationState.stop?] at hStop
      | stopped configId digest stop binding => simp [ConfigurationState.isActive]

end Checks

section Effects

variable {n : Member}

theorem Member.Sound.idle (h : n.Sound) (runtime : Runtime) (recorder : Quepaxa.Recorder) :
    Member.Sound { n with runtime := runtime, recorder := recorder, task := none } where
  ledger := h.ledger
  ledgerFile := h.ledgerFile
  task task hTask := by cases hTask

theorem Member.Sound.holding (h : n.Sound) {runtime : Runtime} {task : Task}
    (hTask : task.OnNamed runtime) :
    Member.Sound { n with runtime := runtime, task := some task } where
  ledger := h.ledger
  ledgerFile := h.ledgerFile
  task task' h' := by
    obtain rfl := Option.some.inj h'
    exact hTask

theorem soundResult_error (request : Request) (error : OperationError) :
    SoundResult request (.error error) := fun _ h => by cases h

theorem Member.Sound.finish (h : n.Sound) (runtime : Runtime) {request : Request}
    {result : Outcome Body} (hResult : SoundResult request result) :
    (Member.finish { n with runtime := runtime } request result).Sound where
  node := h.idle runtime n.recorder
  finished request' result' hFinished := by
    obtain ⟨rfl, rfl⟩ := Prod.mk.inj (Option.some.inj hFinished)
    exact hResult
  shown happening hShown := by cases hShown

theorem Member.Sound.continue (h : n.Sound) {runtime : Runtime} {task : Task}
    (hTask : task.OnNamed runtime) :
    Effect.Sound ⟨{ n with runtime := runtime, task := some task }, none, none⟩ where
  node := h.holding hTask
  finished request result hFinished := by cases hFinished
  shown happening hShown := by cases hShown

theorem beginStop_sound (h : n.Sound) {request : StopRequest}
    (hTimely : n.runtime.configuration.isActive →
      n.runtime.configuration.configId = request.expectedConfigId) :
    (n.beginStop request).Sound := by
  unfold Member.beginStop
  split
  · exact h.finish n.runtime (soundResult_error _ _)
  · rename_i command hCommand
    exact h.continue (prepareStop_eq_ok hCommand hTimely)

theorem configId_of_installSuccessor_ne {r : Quepaxa.Recorder} {conduct : Quepaxa.Conduct}
    {membership : Quepaxa.Membership} {stopProof : Quepaxa.DecisionProof}
    (h : (r.installSuccessor conduct membership stopProof).1 ≠ r) :
    r.configuration.configId = stopProof.configId := by
  cases hResult : r.view.installSuccessorFromProof membership stopProof with
  | error error =>
    refine absurd ?_ h
    simp only [Quepaxa.Recorder.installSuccessor, hResult]
    rcases Quepaxa.Recorder.settle_cases conduct r r r
      (.error error : Quepaxa.Result Quepaxa.ConfigurationState) with h | h | h <;> exact h
  | ok result =>
    exact (Quepaxa.RecorderView.installSuccessorFromProof_eq_ok hResult).config_eq.symm

theorem installSuccessor_sound (h : n.Sound) (conduct : Quepaxa.Conduct)
    {request : InstallSuccessorRequest}
    (hTimely : request.stop.proof.configId = request.expectedConfigId) :
    (n.installSuccessor conduct request).Sound := by
  unfold Member.installSuccessor
  split
  · exact h.finish n.runtime (soundResult_error _ _)
  · refine ⟨h.idle n.runtime _, ?_, ?_⟩
    · intro request' result hFinished
      obtain ⟨rfl, -⟩ := Prod.mk.inj (Option.some.inj hFinished)
      exact fun _ _ => trivial
    · intro happening hShown
      obtain rfl := Option.some.inj hShown
      exact fun hChanged => (configId_of_installSuccessor_ne hChanged).trans hTimely

theorem beginActivate_sound (h : n.Sound) (inspected : Outcome LogEntry)
    (request : ActivateRequest) : (n.beginActivate inspected request).Sound := by
  unfold Member.beginActivate
  split
  · exact h.finish n.runtime (soundResult_error _ _)
  · rename_i stop entry hReady
    split
    · exact h.finish n.runtime.latch (soundResult_error _ _)
    · have hNamed : (Task.barrierProposed request (stop.index + 1) stop.hash).OnNamed
          n.runtime := prepareActivation_eq_ok hReady
      exact h.continue hNamed

theorem propose_sound (h : n.Sound) {effect : Effect} (hPropose : n.propose = some effect) :
    effect.Sound := by
  unfold Member.propose at hPropose
  split at hPropose
  · rename_i request command hTask
    obtain rfl := Option.some.inj hPropose
    split
    · exact h.finish n.runtime (soundResult_error _ _)
    · rename_i slot hSlot
      have hStopping := h.task _ hTask
      have hNamed : (Task.stopProposed request command slot n.runtime.tip.hash).OnNamed
          n.runtime := hStopping
      refine ⟨h.holding hNamed, ?_, ?_⟩
      · intro request' result hFinished
        cases hFinished
      · intro happening hShown
        obtain rfl := Option.some.inj hShown
        exact hNamed
  · cases hPropose

theorem stopDecided_sound (h : n.Sound) {fault : Option Runtime.PersistFault}
    {request : StopRequest} {command : StoredCommand} {slot : Nat} {prevHash : LogHash}
    {entry : LogEntry} (hTask : (Task.stopProposed request command slot prevHash).OnNamed n.runtime) :
    (n.stopDecided fault request command slot prevHash entry).Sound := by
  obtain ⟨hActive, hSame, successor, hCommand, hAsked⟩ := hTask
  unfold Member.stopDecided
  split
  · exact h.finish _ (soundResult_error _ _)
  · rename_i runtime hPersist
    obtain ⟨next, hNext, rfl⟩ := persistEntry_eq_ok hPersist
    obtain ⟨configId, digest, hState⟩ : ∃ configId digest,
        n.runtime.configuration = .active configId digest := by
      cases hState : n.runtime.configuration with
      | active configId digest => exact ⟨configId, digest, rfl⟩
      | stopped => simp [hState, ConfigurationState.isActive] at hActive
    rw [hState] at hNext hSame
    obtain ⟨hEntry, -, hStays⟩ := ConfigurationState.validateEntry_active hNext
    split
    · rename_i hOwn
      refine h.continue ⟨hEntry.trans hSame, successor, ?_, hAsked⟩
      rw [hOwn, hCommand, ConfigChange.recognize_boundStop]
    · split
      · rename_i hStill
        refine h.continue ⟨hStill, ?_, successor, hCommand, hAsked⟩
        rw [hStays hStill]
        exact hSame
      · exact h.finish _ (soundResult_error _ _)

theorem barrierDecided_sound (h : n.Sound) {fault : Option Runtime.PersistFault}
    {request : ActivateRequest} {slot : Nat} {prevHash : LogHash} {entry : LogEntry}
    (hTask : (Task.barrierProposed request slot prevHash).OnNamed n.runtime) :
    (n.barrierDecided fault request slot prevHash entry).Sound := by
  obtain ⟨hStopped, hNamed⟩ := hTask
  unfold Member.barrierDecided
  split
  · exact h.finish _ (soundResult_error _ _)
  · rename_i runtime hPersist
    obtain ⟨next, hNext, rfl⟩ := persistEntry_eq_ok hPersist
    refine ⟨h.idle _ n.recorder, ?_, ?_⟩
    · intro request' result hFinished
      obtain ⟨rfl, -⟩ := Prod.mk.inj (Option.some.inj hFinished)
      exact fun _ _ => trivial
    · intro happening hShown
      obtain rfl := Option.some.inj hShown
      cases hState : n.runtime.configuration with
      | active => simp [hState, ConfigurationState.isActive] at hStopped
      | stopped configId digest stop binding =>
        rw [hState] at hNext hNamed
        obtain ⟨hId, change, hChange, hBarrier, hBinding, -⟩ :=
          ConfigurationState.validateEntry_stopped hNext
        have hExpected : entry.configId = request.expectedConfigId :=
          Option.some.inj (hId.symm.trans hNamed)
        exact ⟨hExpected, change, hChange, hBarrier, hBinding.trans hExpected⟩

theorem decided_sound (h : n.Sound) {fault : Option Runtime.PersistFault} {entry : LogEntry}
    {effect : Effect} (hDecided : n.decided fault entry = some effect) : effect.Sound := by
  unfold Member.decided at hDecided
  split at hDecided
  · rename_i hTask
    obtain rfl := Option.some.inj hDecided
    exact stopDecided_sound h (h.task _ hTask)
  · rename_i hTask
    obtain rfl := Option.some.inj hDecided
    exact barrierDecided_sound h (h.task _ hTask)
  · cases hDecided

theorem proved_sound (h : n.Sound) {proof : Option Quepaxa.DecisionProof} {effect : Effect}
    (hProved : n.proved proof = some effect) : effect.Sound := by
  unfold Member.proved at hProved
  split at hProved
  · rename_i request entry hTask
    obtain rfl := Option.some.inj hProved
    split
    · exact h.finish n.runtime (soundResult_error _ _)
    · rename_i stopProof
      split
      · refine h.finish n.runtime fun body hBody => ?_
        exact ⟨_, _, _, (Except.ok.inj hBody).symm, h.task _ hTask⟩
      · exact h.finish n.runtime.latch (soundResult_error _ _)
  · cases hProved

theorem refused_sound (h : n.Sound) {error : OperationError} {latched : Bool} {effect : Effect}
    (hRefused : n.refused error latched = some effect) : effect.Sound := by
  obtain ⟨task, -, rfl⟩ := Option.map_eq_some_iff.mp hRefused
  exact h.finish _ (soundResult_error _ _)

theorem learn_sound (h : n.Sound) {fault : Option Runtime.PersistFault} {entry : LogEntry}
    {effect : Effect} (hLearn : n.learn fault entry = some effect) : effect.Sound := by
  unfold Member.learn at hLearn
  split at hLearn
  · rename_i hFree
    obtain rfl := Option.some.inj hLearn
    refine ⟨⟨h.ledger, h.ledgerFile, fun task hTask => ?_⟩, ?_, ?_⟩
    · simp only [Option.isNone_iff_eq_none] at hFree
      cases hFree.symm.trans hTask
    · exact fun _ _ hFinished => by cases hFinished
    · exact fun _ hShown => by cases hShown
  · cases hLearn

end Effects

section Steps

variable {w : World}

theorem World.Sound.apply (h : w.Sound) (k : NodeId) {effect : Effect} (hEffect : effect.Sound) :
    (w.apply k effect).Sound where
  nodes j := by
    by_cases hj : j = k
    · subst hj
      simpa only [World.apply, Function.update_self] using hEffect.node
    · simpa only [World.apply, Function.update_of_ne hj] using h.nodes j
  results j request result hMem := by
    rcases List.mem_append.mp hMem with hNew | hOld
    · obtain ⟨finished, hFinished, hSame⟩ := List.mem_map.mp hNew
      obtain ⟨-, rfl⟩ := Prod.mk.inj hSame
      exact hEffect.finished _ _ (Option.mem_toList.mp hFinished)
    · exact h.results j request result hOld
  happenings happening hMem := by
    rcases List.mem_append.mp hMem with hNew | hOld
    · exact hEffect.shown _ (Option.mem_toList.mp hNew)
    · exact h.happenings happening hOld

theorem World.Sound.setNode (h : w.Sound) (k : NodeId) {node : Member} (hNode : node.Sound) :
    (w.setNode k node).Sound where
  nodes j := by
    by_cases hj : j = k
    · subst hj
      simpa only [World.setNode, Function.update_self] using hNode
    · simpa only [World.setNode, Function.update_of_ne hj] using h.nodes j
  results := h.results
  happenings := h.happenings

theorem World.Sound.answer (h : w.Sound) {request : Request} {status : Nat} {body : Body}
    (hBody : status = 200 → body.Answers request) : (w.answer request status body).Sound where
  nodes := h.nodes
  results := h.results
  happenings happening hMem := by
    rcases List.mem_cons.mp hMem with rfl | hOld
    · exact hBody
    · exact h.happenings happening hOld

theorem Ledger.Sound.replay {ledger : Ledger} (h : ledger.Sound) {request : Request}
    {status : Nat} {body : Body} (hReplay : replay ledger request = some (status, body))
    (hStatus : status = 200) : body.Answers request := by
  obtain ⟨record, hRecord, hAnswer⟩ := Option.map_eq_some_iff.mp hReplay
  split at hAnswer
  · rename_i hSame
    obtain ⟨rfl, rfl⟩ := Prod.mk.inj hAnswer
    obtain ⟨before, after, rfl, -⟩ := List.lookup_eq_some_iff.mp hRecord
    exact hSame ▸ h _ (List.mem_append_right _ List.mem_cons_self) hStatus
  · obtain ⟨rfl, -⟩ := Prod.mk.inj hAnswer
    cases hStatus

theorem World.Sound.submit (h : w.Sound) (k : NodeId) (request : Request) :
    (w.submit k request).Sound := by
  unfold World.submit
  split
  · exact h.answer fun hStatus => by cases hStatus
  · rename_i ledger hLedger
    split
    · rename_i status body hReplay
      exact h.answer (((h.nodes k).ledger ledger hLedger).replay hReplay)
    · split
      · exact ⟨h.nodes, h.results, h.happenings⟩
      · exact h.answer fun hStatus => by cases hStatus

theorem Ledger.Sound.store {ledger : Ledger} (h : ledger.Sound) {request : Request}
    {result : Outcome Body} (hResult : SoundResult request result) :
    Ledger.Sound ((request.operationId, OperationRecord.of request result) :: ledger) := by
  intro entry hEntry hStatus
  rcases List.mem_cons.mp hEntry with rfl | hOld
  · cases result with
    | ok body => exact hResult body rfl
    | error error =>
      exfalso
      cases error <;> cases hStatus
  · exact h entry hOld hStatus

theorem storeAt_sound {n : Member} (h : n.Sound) {request : Request} {result : Outcome Body}
    (hResult : SoundResult request result) (write : LedgerWrite) :
    (World.storeAt n request result write).Sound := by
  unfold World.storeAt
  split
  · exact h
  · rename_i ledger hLedger
    have hStored := (h.ledger ledger hLedger).store hResult
    cases write with
    | done =>
      refine ⟨fun found hFound => ?_, hStored, h.task⟩
      obtain rfl := Option.some.inj hFound
      exact hStored
    | failed => exact ⟨fun found hFound => (by cases hFound), h.ledgerFile, h.task⟩
    | failedAfterRename => exact ⟨fun found hFound => (by cases hFound), hStored, h.task⟩

theorem reopenAt_sound {n : Member} (h : n.Sound) (runtime : Runtime) (read : LedgerRead) :
    (World.reopenAt n runtime read).Sound where
  ledger ledger hLedger := by
    cases read with
    | found =>
      obtain rfl := Option.some.inj hLedger
      exact h.ledgerFile
    | absent =>
      obtain rfl := Option.some.inj hLedger
      exact fun entry hEntry => by cases hEntry
    | unreadable => cases hLedger
  ledgerFile := h.ledgerFile
  task task hTask := by cases hTask

theorem begin_sound {n : Member} (h : n.Sound) (conduct : Quepaxa.Conduct)
    (inspected : Outcome LogEntry) {request : Request}
    (hStop : ∀ stop, request = .stop stop → n.runtime.configuration.isActive →
      n.runtime.configuration.configId = stop.expectedConfigId)
    (hInstall : ∀ install, request = .installSuccessor install →
      install.stop.proof.configId = install.expectedConfigId) :
    (World.begin n conduct inspected request).Sound := by
  cases request with
  | stop request => exact beginStop_sound h (hStop request rfl)
  | installSuccessor request => exact installSuccessor_sound h conduct (hInstall request rfl)
  | activate request => exact beginActivate_sound h inspected request

theorem World.Sound.step (h : w.Sound) {event : Event} (hTimely : w.Timely event) {w' : World}
    (hStep : w.step event = some w') : w'.Sound := by
  cases event with
  | submit k request =>
    obtain rfl := Option.some.inj hStep
    exact h.submit k request
  | begin position conduct inspected =>
    obtain ⟨⟨k, request⟩, hSpawned, hStep⟩ := Option.bind_eq_some_iff.mp hStep
    simp only at hStep
    split at hStep
    · obtain rfl := Option.some.inj hStep
      have hRest : World.Sound { w with spawned := w.spawned.eraseIdx position } :=
        ⟨h.nodes, h.results, h.happenings⟩
      refine hRest.apply k (begin_sound (h.nodes k) conduct inspected ?_ ?_)
      · rintro stop rfl
        simpa only [World.Timely, hSpawned] using hTimely
      · rintro install rfl
        simpa only [World.Timely, hSpawned] using hTimely
    · cases hStep
  | propose k =>
    obtain ⟨effect, hEffect, rfl⟩ := Option.map_eq_some_iff.mp hStep
    exact h.apply k (propose_sound (h.nodes k) hEffect)
  | decided k fault entry =>
    obtain ⟨effect, hEffect, rfl⟩ := Option.map_eq_some_iff.mp hStep
    exact h.apply k (decided_sound (h.nodes k) hEffect)
  | proved k proof =>
    obtain ⟨effect, hEffect, rfl⟩ := Option.map_eq_some_iff.mp hStep
    exact h.apply k (proved_sound (h.nodes k) hEffect)
  | refused k error latched =>
    obtain ⟨effect, hEffect, rfl⟩ := Option.map_eq_some_iff.mp hStep
    exact h.apply k (refused_sound (h.nodes k) hEffect)
  | store position write =>
    obtain ⟨⟨k, request, result⟩, hResult, hStep⟩ := Option.bind_eq_some_iff.mp hStep
    obtain rfl := Option.some.inj hStep
    have hRest : World.Sound { w with results := w.results.eraseIdx position } :=
      ⟨h.nodes, fun j request result hMem => h.results j request result
        (List.mem_of_mem_eraseIdx hMem), h.happenings⟩
    have hSound := h.results k request result (List.mem_of_getElem? hResult)
    exact hRest.setNode k (storeAt_sound (h.nodes k) hSound write)
  | learn k fault entry =>
    obtain ⟨effect, hEffect, rfl⟩ := Option.map_eq_some_iff.mp hStep
    exact h.apply k (learn_sound (h.nodes k) hEffect)
  | recorder k call =>
    obtain rfl := Option.some.inj hStep
    exact h.setNode k ⟨(h.nodes k).ledger, (h.nodes k).ledgerFile, (h.nodes k).task⟩
  | latch k =>
    obtain rfl := Option.some.inj hStep
    refine h.setNode k ⟨(h.nodes k).ledger, (h.nodes k).ledgerFile, fun task hTask => ?_⟩
    have hNamed := (h.nodes k).task task hTask
    cases task <;> exact hNamed
  | reopen k runtime read =>
    obtain rfl := Option.some.inj hStep
    refine ⟨(h.setNode k (reopenAt_sound (h.nodes k) runtime read)).nodes, ?_, h.happenings⟩
    intro j request result hMem
    exact h.results j request result (List.mem_of_mem_filter hMem)

theorem World.sound_start (runtimes : NodeId → Runtime) (recorders : NodeId → Quepaxa.Recorder) :
    (World.start runtimes recorders).Sound where
  nodes k := by
    refine ⟨fun ledger hLedger => ?_, fun entry hEntry => (by cases hEntry),
      fun task hTask => (by cases hTask)⟩
    obtain rfl := Option.some.inj hLedger
    exact fun entry hEntry => by cases hEntry
  results k request result hMem := by cases hMem
  happenings happening hMem := by cases hMem

end Steps

end Expected

namespace Operator

attribute [local instance] Sha256.rolling

theorem members_canonical : CanonicalMembers ["a", "b", "c"] := by decide

def membership : Quepaxa.Membership := ⟨["a", "b", "c"], members_canonical⟩

def runtime : Runtime where
  clusterId := "c"
  epoch := 1
  consensusConfigId := 1
  membership := membership
  acceptsCommand _ := false
  predecessorStopEntry := none
  configuration := .active 1 membership.digest
  root := ⟨0, .zero⟩
  log := []
  ready := true

def start : World :=
  .start (fun _ => runtime) fun k => .new k "c" 1 1 membership

def entryOf (configId index : Nat) (prevHash : LogHash) (command : StoredCommand) : LogEntry where
  clusterId := "c"
  epoch := 1
  configId := configId
  index := index
  entryType := command.entryType
  payload := command.payload
  prevHash := prevHash
  hash := calculateHash "c" index 1 configId command.entryType prevHash command.payload

def proofOf (entry : LogEntry) : Quepaxa.DecisionProof :=
  let value := Quepaxa.AcceptedValue.fromCommand "c" entry.index 1 entry.configId entry.prevHash
    ⟨entry.entryType, entry.payload⟩
  let proposal : Quepaxa.Proposal := ⟨.max, "a", 1, some value⟩
  .fastPath "c" entry.index 1 entry.configId membership.digest proposal
    [⟨"a", entry.index, 4, some proposal, none⟩, ⟨"b", entry.index, 4, some proposal, none⟩]

theorem cluster_named : "c" ≠ "" := by decide

theorem cluster_bounded : (utf8 "c").length ≤ 65535 := by decide

def successorOf (configId : Nat) (h : checkedSucc configId = some (configId + 1)) :
    SuccessorDescriptor :=
  ⟨"c", configId, membership.digest, configId + 1, membership.members, cluster_named,
    cluster_bounded, h, membership.canonical⟩

def firstStop : LogEntry :=
  entryOf 1 1 .zero (ConfigChange.boundStop (successorOf 1 (by decide))).toStoredCommand

def barrier : LogEntry :=
  entryOf 2 2 firstStop.hash (ConfigChange.boundActivationBarrier (successorOf 1 (by decide)) 1
    firstStop.hash (⟨firstStop.entryType, firstStop.payload⟩ : StoredCommand).hash).toStoredCommand

def bundle : SuccessorBundle := ⟨2, membership.members, membership.digest⟩

def stop : StopRequest := ⟨"stop", 1, bundle⟩

def install : InstallSuccessorRequest :=
  ⟨"install", 1, ⟨1, firstStop.hash⟩, membership.members, ⟨2, firstStop, proofOf firstStop⟩, bundle⟩

def activate : ActivateRequest := ⟨"activate", 2⟩

def run (request : Request) : List (World → Option Event) :=
  [fun _ => some (.submit "a" request), fun _ => some (.begin 0 .good (.error (.unavailable "")))]

def settle (request : Request) : List (World → Option Event) :=
  [fun _ => some (.store 0 .done), fun _ => some (.submit "a" request)]

def decideStop (entry : LogEntry) : List (World → Option Event) :=
  [fun _ => some (.propose "a"), fun _ => some (.decided "a" none entry),
    fun _ => some (.proved "a" (some (proofOf entry)))]

def reopen (w : World) : Option Event :=
  some (.reopen "a" { (w.nodes "a").runtime with consensusConfigId := 2 } .absent)

def handover : List (World → Option Event) :=
  run (.stop stop) ++ decideStop firstStop ++ settle (.stop stop) ++
    run (.installSuccessor install) ++ settle (.installSuccessor install) ++ [reopen] ++
    run (.activate activate) ++ [fun _ => some (.decided "a" none barrier)] ++
    settle (.activate activate)

end Operator

end Rhiza.Node.Admin
