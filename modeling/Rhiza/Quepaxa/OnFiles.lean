import Rhiza.Quepaxa.Restart
import Rhiza.Quepaxa.Fence
import Rhiza.Quepaxa.Handover

/-! # The cluster on its files

What recorders on their files do in a run is what the recorders that the files stand
for do in a run without files, as long as their disturbances are ones they bear.
-/

namespace Rhiza.Quepaxa

open Core Library

section Calls

variable [Sha256] {K : StoredCommand → Prop} {G : Faults Site} {s : FileRecorder} {m : Memory}
  {fault : StoreFault} {L : Content} {d : Disk}

omit [Sha256] in
theorem FileRecorder.call_map {α β : Type} (s : FileRecorder) (fault : StoreFault) (x : Io α)
    (f : α → β) : s.call fault (x >>= fun a => pure (f a)) =
      ((s.call fault x).1, (s.call fault x).2.map f) := by
  unfold FileRecorder.call
  cases s.memory with
  | none => rfl
  | some m =>
    simp only [Bind.bind, Program.bind, Pure.pure, Program.pure]
    cases (x s.disk m fault).exit <;> rfl

theorem Steady.answers {α : Type} (h : Steady K G s) (hMemory : s.memory = some m)
    (hOperational : Errs G → m.wal.failed = false) (hHarmless : Harmless True (onlyFault fault) s.disk m)
    {after : RecordedHeadProvenance} {act : Conduct → Recorder × Result α} {x : Io α}
    (hServes : Serves K s.self (onlyFault fault) G True s.disk.content.head after
      (Able K s.self (onlyFault fault) G True s.disk.content) act x)
    (hTakes : ∀ conduct, ∃ move, Recorder.Takes s.recorder move (act conduct).1) :
    ∃ conduct, act conduct = ((s.call fault x).1.recorder, (s.call fault x).2) := by
  have hAble : Able K s.self (onlyFault fault) G True s.disk.content s.disk m := by
    have hSits := h.sits
    rw [hMemory] at hSits
    cases (hSits : Standing K s.self G True s.disk.content s.disk m) with
    | live hLive => exact .live hLive hHarmless
    | pending hErrs i hPending => exact .pending hErrs i hPending hHarmless.joined
    | failed hErrs hFailed => simp [hOperational hErrs] at hFailed
  have hLanded : ∀ (L : Content) d memory reply, Sits K G s.self L d memory →
      Lands K s.self True s.disk.content.head after act reply L →
      ∃ conduct, act conduct = ((s.moved d memory).recorder, reply) := by
    rintro L d memory reply hSits ⟨hGood, conduct, retired, hAct, -⟩
    obtain ⟨move, hMove⟩ := hTakes conduct
    rw [hAct] at hMove
    obtain ⟨-, hSame⟩ := h.moved hMove (hGood trivial) hSits
    exact ⟨conduct, by rw [hSame, hAct]⟩
  refine call_cases hMemory hServes hAble
    (R := fun s' reply => ∃ conduct, act conduct = (s'.recorder, reply)) ?_ ?_ ?_
  · rintro a d m ⟨L, hLive, hLands⟩
    exact hLanded L d (some m) _ (.live hLive) hLands
  · rintro e d m ⟨L, hStanding, hLands⟩
    exact hLanded L d (some m) _ hStanding hLands
  · rintro d ⟨L, hKept, hLands⟩
    exact hLanded L d none _ hKept hLands

/-- A call with a disturbance that the recorder bears. Where calls may fail without stopping
the process, a WAL that failed takes no calls before the recorder is opened again. -/
structure Heard (K : StoredCommand → Prop) (G : Faults Site) (s : FileRecorder) (fault : StoreFault)
    (call : StoreCall) : Prop where
  benign : Benign K G s fault call
  operational : Errs G → ∀ m, s.memory = some m → m.wal.failed = false

omit [Sha256] in
theorem FileRecorder.call_of_none {α : Type} (h : s.memory = none) (x : Io α) :
    s.call fault x = (s, .error stopped) := by
  unfold FileRecorder.call
  rw [h]

theorem Steady.record (h : Steady K G s) {request : RecordRequest}
    (hHeard : Heard K G s fault (.record request)) : ∃ conduct, s.recorder.record conduct request =
      ((s.call fault (recordProposal s.self request)).1.recorder,
        (s.call fault (recordProposal s.self request)).2) := by
  cases hMemory : s.memory with
  | none =>
    rw [FileRecorder.call_of_none hMemory]
    exact ⟨_, s.recorder.record_nothing false FileRecorder.stopped request⟩
  | some m =>
    refine h.answers hMemory (fun hErrs => hHeard.operational hErrs m hMemory) (hHeard.benign.harmless m hMemory)
      (recordProposal_serves hHeard.benign.met h.ready request
        (fun _ command => hHeard.benign.inline request command rfl)
        fun _ summary t => hHeard.benign.smallRecord request summary t rfl)
      fun conduct => ⟨_, s.recorder.record_takes conduct request⟩

theorem Steady.read {α : Type} (h : Steady K G s) {call : StoreCall} (hHeard : Heard K G s fault call)
    (read : RecorderView → Result α)
    (hShows : ∀ v a, v.Shows s.recorder.view → read v = .ok a → read s.recorder.view = .ok a)
    {x : Io α} (hx : x = do recoverIntent s.self; Program.lift (read (← readView s.self))) :
    ∃ conduct, Recorder.settle conduct s.recorder s.recorder s.recorder (read s.recorder.view) =
      ((s.call fault x).1.recorder, (s.call fault x).2) := by
  cases hMemory : s.memory with
  | none =>
    rw [FileRecorder.call_of_none hMemory]
    exact ⟨⟨false, some (.nothing, FileRecorder.stopped)⟩, rfl⟩
  | some m =>
    subst hx
    refine h.answers hMemory (fun hErrs => hHeard.operational hErrs m hMemory) (hHeard.benign.harmless m hMemory)
      (read_serves h.ready read hShows) fun conduct => ⟨.activate 0 .zero 0 .zero, ?_⟩
    rw [Recorder.settle_same]
    exact .idle _

end Calls

/-! ## Runs -/

section Worlds

variable [Sha256]

/-- The recorders that the files stand for, and all else as it is. -/
def World.offFiles (w : World FileRecorder) : World Recorder :=
  ⟨fun k => (w.recorders k).recorder, w.offers, w.drivers, w.calls, w.answers, w.formed, w.decided,
    w.reports, w.fences, w.fenceAnswers, w.emptyFences⟩

/-- The action of recorders without files, if the call ends so. A reopening is none. -/
def Action.offFiles (conduct : Conduct) :
    Action StoreFault StoreEvent → Option (Action Conduct RecorderEvent)
  | .start engine slot proposal command => some (.start engine slot proposal command)
  | .broadcast driver fetched sample => some (.broadcast driver fetched sample)
  | .deliver call worker _ => some (.deliver call worker conduct)
  | .resume call saturatedWorkers arrivals fetched installs =>
    some (.resume call saturatedWorkers arrivals fetched installs)
  | .install k _ proof membership => some (.install k conduct proof membership)
  | .inspect k _ slot => some (.inspect k conduct slot)
  | .occur k (.storeCommand _ hash command) => some (.occur k (.storeCommand conduct hash command))
  | .occur k (.installSuccessor _ membership stopProof) =>
    some (.occur k (.installSuccessor conduct membership stopProof))
  | .occur k (.recoverActivation _ stopSlot prefixHash recoveredTip recoveredHash) =>
    some (.occur k (.recoverActivation conduct stopSlot prefixHash recoveredTip recoveredHash))
  | .occur _ (.reopen ..) => none
  | .openFence engine slot => some (.openFence engine slot)
  | .observe fence worker _ => some (.observe fence worker conduct)
  | .closeFence fence saturated arrivals => some (.closeFence fence saturated arrivals)

/-- The call that the action makes to a recorder. -/
def World.asked (w : World FileRecorder) :
    Action StoreFault StoreEvent → Option (NodeId × StoreFault × StoreCall)
  | .deliver index worker fault => do
    let call ← w.calls[index]?
    let k ← call.engine.membership.members[worker]?
    let request ← call.requests[worker]?
    some (k, fault, .record request)
  | .install k fault proof membership => some (k, fault, .installDecisionProof proof membership)
  | .inspect k fault slot => some (k, fault, .inspect slot)
  | .occur k (.storeCommand fault hash command) => some (k, fault, .storeCommand hash command)
  | .occur k (.installSuccessor fault membership stopProof) =>
    some (k, fault, .installSuccessor membership stopProof)
  | .occur k (.recoverActivation fault stopSlot prefixHash recoveredTip recoveredHash) =>
    some (k, fault, .recoverActivation stopSlot prefixHash recoveredTip recoveredHash)
  | .observe index worker fault => do
    let fence ← w.fences[index]?
    let k ← fence.engine.membership.members[worker]?
    some (k, fault, .observe (fence.engine.readFenceRequest fence.slot))
  | _ => none

/-- An action that is allowed without files, with a disturbance that the recorder bears. -/
structure OnFiles (K : StoredCommand → Prop) (G : Faults Site)
    (allowed : World Recorder → Action Conduct RecorderEvent → Prop) (w : World FileRecorder)
    (a : Action StoreFault StoreEvent) : Prop where
  allowed : ∀ conduct b, a.offFiles conduct = some b → allowed w.offFiles b
  heard : ∀ k fault call, w.asked a = some (k, fault, call) → Heard K G (w.recorders k) fault call

variable {K : StoredCommand → Prop} {G : Faults Site} {w w' : World FileRecorder}
  {allowed allowed' : World Recorder → Action Conduct RecorderEvent → Prop}
  {a : Action StoreFault StoreEvent}

theorem OnFiles.mono (hAllowed : ∀ w a, allowed w a → allowed' w a) (h : OnFiles K G allowed w a) :
    OnFiles K G allowed' w a :=
  ⟨fun conduct b hb => hAllowed _ _ (h.allowed conduct b hb), h.heard⟩

def World.Steady (K : StoredCommand → Prop) (G : Faults Site) (w : World FileRecorder) : Prop :=
  ∀ k, Quepaxa.Steady K G (w.recorders k)

omit [Sha256] in
theorem offFiles_update (w : World FileRecorder) (k : NodeId) (s : FileRecorder) :
    (fun j => (Function.update w.recorders k s j).recorder) =
      Function.update w.offFiles.recorders k s.recorder :=
  Function.comp_update FileRecorder.recorder w.recorders k s

theorem World.Steady.update (h : w.Steady K G) {k : NodeId} {s : FileRecorder}
    (hs : Quepaxa.Steady K G s) : ∀ j, Quepaxa.Steady K G (Function.update w.recorders k s j) := by
  intro j
  by_cases hj : j = k
  · rw [hj, Function.update_self]
    exact hs
  · rw [Function.update_of_ne hj]
    exact h j

theorem World.Steady.deliver (h : w.Steady K G) (index worker : Nat) (call : Call) {k : NodeId}
    {request : RecordRequest} {fault : StoreFault}
    (hHeard : Heard K G (w.recorders k) fault (.record request)) :
    (w.deliver index worker call k request fault).Steady K G ∧ ∃ conduct,
      (w.deliver index worker call k request fault).offFiles =
        w.offFiles.deliver index worker call k request conduct := by
  have hSteady := ((h k).serve hHeard.benign).steady
  rw [FileRecorder.serve, StoreCall.program, FileRecorder.call_map] at hSteady
  refine ⟨h.update hSteady, ?_⟩
  obtain ⟨conduct, hAct⟩ := (h k).record hHeard
  have hRecord : RecorderRpc.record (w.offFiles.recorders k) conduct request = _ := hAct
  refine ⟨conduct, ?_⟩
  unfold World.deliver
  rw [hRecord]
  dsimp only
  rw [← offFiles_update]
  rfl

theorem World.Steady.inspect (h : w.Steady K G) {k : NodeId} {fault : StoreFault} {slot : Nat}
    (hHeard : Heard K G (w.recorders k) fault (.inspect slot)) :
    (w.inspect k fault slot).Steady K G ∧ ∃ conduct,
      (w.inspect k fault slot).offFiles = w.offFiles.inspect k conduct slot := by
  have hSteady := ((h k).serve hHeard.benign).steady
  rw [FileRecorder.serve, StoreCall.program, FileRecorder.call_map] at hSteady
  refine ⟨h.update hSteady, ?_⟩
  obtain ⟨conduct, hAct⟩ := (h k).read hHeard (fun v => v.inspectRecordSummary slot)
    (fun v a hShows hOk => hShows.inspectRecordSummary hOk) rfl
  have hInspect : RecorderRpc.inspectRecordSummary (w.offFiles.recorders k) conduct slot = _ := hAct
  refine ⟨conduct, ?_⟩
  unfold World.inspect
  rw [hInspect]
  dsimp only
  rw [← offFiles_update]
  rfl

theorem World.Steady.observe (h : w.Steady K G) (index worker : Nat) {fence : Fence} {k : NodeId}
    {fault : StoreFault} (hHeard : Heard K G (w.recorders k) fault
      (.observe (fence.engine.readFenceRequest fence.slot))) :
    (w.observe index worker fence k fault).Steady K G ∧ ∃ conduct,
      (w.observe index worker fence k fault).offFiles =
        w.offFiles.observe index worker fence k conduct := by
  have hSteady := ((h k).serve hHeard.benign).steady
  rw [FileRecorder.serve, StoreCall.program, FileRecorder.call_map] at hSteady
  refine ⟨h.update hSteady, ?_⟩
  obtain ⟨conduct, hAct⟩ := (h k).read hHeard
    (fun v => v.observeReadFence (fence.engine.readFenceRequest fence.slot))
    (fun v a hShows hOk => hShows.observeReadFence hOk) rfl
  have hObserve : RecorderRpc.observeReadFence (w.offFiles.recorders k) conduct
    (fence.engine.readFenceRequest fence.slot) = _ := hAct
  refine ⟨conduct, ?_⟩
  unfold World.observe
  rw [hObserve]
  dsimp only
  rw [← offFiles_update]
  rfl

theorem World.Steady.call (h : w.Steady K G) {k : NodeId} {fault : StoreFault} {call : StoreCall}
    (hHeard : Heard K G (w.recorders k) fault call) {s : FileRecorder}
    (hs : ((w.recorders k).serve fault call).1 = s) :
    World.Steady K G { w with recorders := Function.update w.recorders k s } ∧ ∃ conduct,
      World.offFiles { w with recorders := Function.update w.recorders k s } =
        { w.offFiles with
          recorders := Function.update w.offFiles.recorders k
            (call.on (w.recorders k).recorder conduct) } := by
  have hServed := (h k).serve hHeard.benign
  rw [hs] at hServed
  refine ⟨h.update hServed.steady, ?_⟩
  obtain ⟨conduct, hOn, -⟩ := hServed.lands
  refine ⟨conduct, ?_⟩
  rw [← hOn, ← offFiles_update]
  rfl

/-- A step on files keeps them in order, and is a step of what they stand for unless it
is a reopening. -/
theorem World.Steady.step (hFits : FitsCache K) (h : w.Steady K G) (hOn : OnFiles K G allowed w a)
    (hStep : w.step a = some w') : w'.Steady K G ∧ (w'.offFiles = w.offFiles ∨
      ∃ b, allowed w.offFiles b ∧ w.offFiles.step b = some w'.offFiles) := by
  cases a with
  | start engine slot proposal command =>
    obtain rfl := Option.some.inj hStep
    exact ⟨h, .inr ⟨_, hOn.allowed .good _ rfl, rfl⟩⟩
  | broadcast index fetched sample =>
    obtain ⟨driver, hDriver, hNext⟩ := Option.bind_eq_some_iff.mp hStep
    have hAct : w.offFiles.step (.broadcast index fetched sample) = some w'.offFiles ∧
        w'.recorders = w.recorders := by
      rcases hRequests : driver.engine.driveRequests driver.progress fetched sample with
        error | ⟨progress, requests⟩ <;> rw [hRequests] at hNext <;>
        obtain rfl := Option.some.inj hNext
      · exact ⟨Option.bind_eq_some_iff.mpr ⟨driver, hDriver, by rw [hRequests]⟩, rfl⟩
      · exact ⟨Option.bind_eq_some_iff.mpr ⟨driver, hDriver, by rw [hRequests]; rfl⟩, rfl⟩
    refine ⟨fun k => ?_, .inr ⟨_, hOn.allowed .good _ rfl, hAct.1⟩⟩
    rw [hAct.2]
    exact h k
  | deliver index worker fault =>
    obtain ⟨call, k, request, hCall, hWorker, hRequest, rfl⟩ := step_deliver hStep
    have hAsked : w.asked (.deliver index worker fault) = some (k, fault, .record request) := by
      simp [asked, hCall, hWorker, hRequest]
    obtain ⟨hSteady, conduct, hSame⟩ := h.deliver index worker call
      (hOn.heard k fault _ hAsked)
    refine ⟨hSteady, .inr ⟨_, hOn.allowed conduct _ rfl, ?_⟩⟩
    rw [hSame]
    simp only [World.step, show w.offFiles.calls[index]? = some call from hCall, hWorker, hRequest,
      Option.bind_eq_bind, Option.bind_some]
  | resume index saturatedWorkers arrivals fetched installs =>
    obtain ⟨call, hCall, hNext⟩ := Option.bind_eq_some_iff.mp hStep
    obtain ⟨results, hResults, hNext⟩ := Option.bind_eq_some_iff.mp hNext
    obtain rfl := Option.some.inj hNext
    exact ⟨h, .inr ⟨_, hOn.allowed .good _ rfl, Option.bind_eq_some_iff.mpr ⟨call, hCall,
      Option.bind_eq_some_iff.mpr ⟨results, hResults, rfl⟩⟩⟩⟩
  | install k fault proof membership =>
    obtain rfl := Option.some.inj hStep
    obtain ⟨hSteady, conduct, hSame⟩ := h.call (hOn.heard k fault _ rfl)
      (congrArg Prod.fst (FileRecorder.call_map (w.recorders k) fault
        (installDecisionProofRecord (w.recorders k).self proof membership)
        fun _ => StoreReply.proofInstalled))
    exact ⟨hSteady, .inr ⟨_, hOn.allowed conduct _ rfl, congrArg some hSame.symm⟩⟩
  | inspect k fault slot =>
    obtain rfl := Option.some.inj hStep
    obtain ⟨hSteady, conduct, hSame⟩ := h.inspect (hOn.heard k fault _ rfl)
    exact ⟨hSteady, .inr ⟨_, hOn.allowed conduct _ rfl, congrArg some hSame.symm⟩⟩
  | occur k event =>
    obtain rfl := Option.some.inj hStep
    cases event with
    | storeCommand fault hash command =>
      obtain ⟨hSteady, conduct, hSame⟩ := h.call (hOn.heard k fault _ rfl)
        (congrArg Prod.fst (FileRecorder.call_map (w.recorders k) fault (storeCommand hash command)
          fun _ => StoreReply.stored))
      exact ⟨hSteady, .inr ⟨_, hOn.allowed conduct _ rfl, congrArg some hSame.symm⟩⟩
    | installSuccessor fault membership stopProof =>
      obtain ⟨hSteady, conduct, hSame⟩ := h.call (hOn.heard k fault _ rfl)
        (congrArg Prod.fst (FileRecorder.call_map (w.recorders k) fault
          (installSuccessorFromProof (w.recorders k).self membership stopProof) StoreReply.configured))
      exact ⟨hSteady, .inr ⟨_, hOn.allowed conduct _ rfl, congrArg some hSame.symm⟩⟩
    | recoverActivation fault stopSlot prefixHash recoveredTip recoveredHash =>
      obtain ⟨hSteady, conduct, hSame⟩ := h.call (hOn.heard k fault _ rfl)
        (congrArg Prod.fst (FileRecorder.call_map (w.recorders k) fault
          (recoverSuccessorActivationFromCheckpoint (w.recorders k).self stopSlot prefixHash
            recoveredTip recoveredHash) StoreReply.configured))
      exact ⟨hSteady, .inr ⟨_, hOn.allowed conduct _ rfl, congrArg some hSame.symm⟩⟩
    | reopen fault existingOnly configId membership =>
      obtain ⟨hSteady, hSame, -⟩ := (h k).reopen hFits fault existingOnly configId membership
      refine ⟨h.update hSteady, .inl ?_⟩
      have hRecorders : (fun j => (Function.update w.recorders k
          ((w.recorders k).reopen fault existingOnly configId membership) j).recorder) =
            w.offFiles.recorders := by
        rw [offFiles_update, hSame]
        exact Function.update_eq_self k w.offFiles.recorders
      exact congrArg (fun recorders => { w.offFiles with recorders := recorders }) hRecorders
  | openFence engine slot =>
    have hAll : (engine.membership.members.all fun _ => true) = true := List.all_eq_true.mpr fun _ _ => rfl
    obtain rfl := step_openFence hStep
    exact ⟨h, .inr ⟨_, hOn.allowed .good _ rfl, if_pos hAll⟩⟩
  | observe index worker fault =>
    obtain ⟨fence, k, hFence, hWorker, rfl⟩ := step_observe hStep
    have hAsked : w.asked (.observe index worker fault) =
        some (k, fault, .observe (fence.engine.readFenceRequest fence.slot)) := by
      simp [asked, hFence, hWorker]
    obtain ⟨hSteady, conduct, hSame⟩ := h.observe index worker
      (hOn.heard k fault _ hAsked)
    refine ⟨hSteady, .inr ⟨_, hOn.allowed conduct _ rfl, ?_⟩⟩
    rw [hSame]
    simp only [World.step, show w.offFiles.fences[index]? = some fence from hFence, hWorker,
      Option.bind_eq_bind, Option.bind_some]
  | closeFence index saturated arrivals =>
    obtain ⟨fence, hFence, hNext⟩ := Option.bind_eq_some_iff.mp hStep
    obtain ⟨results, hResults, hNext⟩ := Option.bind_eq_some_iff.mp hNext
    split at hNext
    · rename_i hNodup
      refine ⟨?_, .inr ⟨_, hOn.allowed .good _ rfl, Option.bind_eq_some_iff.mpr ⟨fence, hFence,
        Option.bind_eq_some_iff.mpr ⟨results, hResults, (if_pos hNodup).trans ?_⟩⟩⟩⟩ <;>
        split at hNext <;> obtain rfl := Option.some.inj hNext
      · exact h
      · exact h
      · rfl
      · rfl
    · cases hNext

/-- The cluster before its first call, with every root just made. -/
def Group.files (G₀ : Group) (k : NodeId) : FileRecorder :=
  .fresh ⟨k, G₀.clusterId, G₀.epoch⟩ G₀.configId G₀.membership

/-- The cluster begins with recorders that differ only in their names, and its
commands are told apart by their hashes and fit the reader of a command file. -/
structure Group.Begins (G₀ : Group) (K : StoredCommand → Prop) : Prop where
  apart : TellsApart K
  fits : FitsCache K
  cluster : (utf8 G₀.clusterId).length ≤ 65535
  nonzero : G₀.membership.digest ≠ .zero

/-- What the files stand for goes through a run of its own. -/
theorem run_offFiles {G₀ : Group} (hBegins : G₀.Begins K)
    (hRun : Run World.step (OnFiles K G allowed) (World.init G₀.files) w) :
    Run World.step allowed (World.init G₀.fresh) w.offFiles := by
  suffices h : w.Steady K G ∧ Run World.step allowed (World.init G₀.fresh) w.offFiles from h.2
  induction hRun with
  | refl => exact ⟨fun k => .fresh hBegins.apart hBegins.cluster _ hBegins.nonzero, .refl⟩
  | step a hRun hAllowed hStep ih =>
    obtain ⟨hSteady, hSame | ⟨b, hHere, hNext⟩⟩ := ih.1.step hBegins.fits hAllowed hStep
    · exact ⟨hSteady, hSame ▸ ih.2⟩
    · exact ⟨hSteady, .step b ih.2 hHere hNext⟩

end Worlds

section Results

variable [Sha256] {F : Faults Site} {G₀ G : Group} {K : Known} {w : World FileRecorder}

theorem Known.Distinct.begins (hK : K.Distinct) (hG₀ : K.memberships G₀.membership)
    (hFits : FitsCache K.commands) (hCluster : (utf8 G₀.clusterId).length ≤ 65535) :
    G₀.Begins K.commands :=
  ⟨hK.command, hFits, hCluster, hK.nonzero _ hG₀⟩

/-- On files too whatever was decided when an empty fence started lies before its slot. -/
theorem fence_is_ahead_on_files {commands : StoredCommand → Prop} (hBegins : G₀.Begins commands)
    (hRun : Run World.step (OnFiles commands F fun _ a => Coherent G a) (World.init G₀.files) w)
    {fence : Fence} (hFence : fence ∈ w.emptyFences) (hEngine : fence.engine.toGroup = G)
    {proof : DecisionProof} (hProof : proof ∈ fence.formedBefore)
    (hContext : proof.context = G.context proof.slot) : proof.slot < fence.slot :=
  decided_before_empty_fence (w := w.offFiles) (run_offFiles hBegins hRun) hFence hEngine hProof
    hContext

/-- On files too all recorders leave a configuration for the same next one, and the
slots decided in two configurations are apart. -/
theorem one_log_on_files (hK : K.Distinct) (hG₀ : K.memberships G₀.membership)
    (hFits : FitsCache K.commands) (hCluster : (utf8 G₀.clusterId).length ≤ 65535)
    (hRun : Run World.step (OnFiles K.commands F (Successive K)) (World.init G₀.files) w)
    (hUnique : FastPathsUnique K G₀ w.offFiles) :
    OneLog K (fun k => (w.recorders k).recorder) w.formed :=
  one_log_across_configurations hK hG₀ (run_offFiles (hK.begins hG₀ hFits hCluster) hRun) hUnique

/-- On files too an installed successor decides and holds nothing but its barrier before
its activation. -/
theorem activation_is_first_on_files (hK : K.Distinct) (hG₀ : K.memberships G₀.membership)
    (hFits : FitsCache K.commands) (hCluster : (utf8 G₀.clusterId).length ≤ 65535) {configId : Nat}
    (hRun : Run World.step (OnFiles K.commands F (Activating K configId)) (World.init G₀.files) w)
    (hUnique : FastPathsUnique K G₀ w.offFiles) {j : NodeId} {c : ConfigurationState}
    (hc : c ∈ (w.recorders j).recorder.history) (hId : c.configId = configId)
    {membership : Membership} (hMembership : c.membership = some membership)
    {predecessor : ConfigurationSeal} (hPredecessor : c.predecessor = some predecessor) :
    BarrierFirst G₀ configId membership predecessor (fun k => (w.recorders k).recorder) w.formed :=
  activation_precedes_use (w := w.offFiles) hK hG₀
    (run_offFiles (hK.begins hG₀ hFits hCluster) hRun) hUnique hc hId hMembership hPredecessor

end Results

/-! The runs of three recorders once more, on their files. -/

namespace Trio

variable [Sha256] {commands : List StoredCommand} {memberships : List Membership}

def onFiles : Action Conduct RecorderEvent → Action StoreFault StoreEvent
  | .start engine slot proposal command => .start engine slot proposal command
  | .broadcast driver fetched sample => .broadcast driver fetched sample
  | .deliver call worker _ => .deliver call worker none
  | .resume call saturatedWorkers arrivals fetched installs =>
    .resume call saturatedWorkers arrivals fetched installs
  | .install k _ proof membership => .install k none proof membership
  | .inspect k _ slot => .inspect k none slot
  | .occur k (.storeCommand _ hash command) => .occur k (.storeCommand none hash command)
  | .occur k (.installSuccessor _ membership stopProof) =>
    .occur k (.installSuccessor none membership stopProof)
  | .occur k (.recoverActivation _ stopSlot prefixHash recoveredTip recoveredHash) =>
    .occur k (.recoverActivation none stopSlot prefixHash recoveredTip recoveredHash)
  | .openFence engine slot => .openFence engine slot
  | .observe fence worker _ => .observe fence worker none
  | .closeFence fence saturated arrivals => .closeFence fence saturated arrivals

def scriptOnFiles (script : List (World Recorder → Option (Action Conduct RecorderEvent))) :
    List (World FileRecorder → Option (Action StoreFault StoreEvent)) :=
  script.map fun next w => (next w.offFiles).map onFiles

/-- The process of `k` stops inside the frame for a proof, and is started again. -/
def tornInstall (k : NodeId) (position : Nat) :
    List (World FileRecorder → Option (Action StoreFault StoreEvent)) :=
  [fun w => w.formed[position]?.map fun proof =>
      .install k (some ⟨.walAppend, 0, true, 5, "stopped"⟩) proof group.membership,
    fun _ => some (.occur k (.reopen none true 1 group.membership))]

def bears (commands : List StoredCommand) (w : World FileRecorder)
    (a : Action StoreFault StoreEvent) : Bool :=
  (w.asked a).all fun (k, fault, call) => fault.all (fun f => f.site = .walAppend ∧ f.crash) &&
    call.permits commands (w.recorders k).recorder

def permitsOnFiles (commands : List StoredCommand) (memberships : List Membership)
    (w : World FileRecorder) (a : Action StoreFault StoreEvent) : Bool :=
  (a.offFiles .good).all (permits commands memberships w.offFiles) && bears commands w a

theorem heard_of_bears {w : World FileRecorder} {a : Action StoreFault StoreEvent}
    (h : bears commands w a) {k : NodeId} {fault : StoreFault} {call : StoreCall}
    (hAsked : w.asked a = some (k, fault, call)) :
    Heard (· ∈ commands) Faults.crashes (w.recorders k) fault call := by
  simp only [bears, hAsked, Option.all_some, Bool.and_eq_true] at h
  have hSite : fault.all (·.site = .walAppend) = true ∧ fault.all (·.crash) = true := by
    cases fault with
    | none => exact ⟨rfl, rfl⟩
    | some f => simpa using h.1
  refine ⟨benign_of_permits ?_ (fun _ _ => harmless_of_walAppend hSite.1) h.2, ?_⟩
  · rintro site crash n ⟨f, rfl, -, rfl, -⟩
    exact hSite.2
  · rintro ⟨site, n, hCrash⟩
    cases hCrash

theorem onFiles_of_permits {allowed : World Recorder → Action Conduct RecorderEvent → Prop}
    (hAllowed : ∀ w b, permits commands memberships w b → allowed w b) {w : World FileRecorder}
    {a : Action StoreFault StoreEvent} (h : permitsOnFiles commands memberships w a) :
    OnFiles (· ∈ commands) Faults.crashes allowed w a := by
  simp only [permitsOnFiles, Bool.and_eq_true] at h
  refine ⟨fun conduct b hb => hAllowed _ b ?_, fun _ _ _ => heard_of_bears h.2⟩
  -- what is permitted does not depend on how the call ends
  cases a with
  | occur k event => cases event <;> cases hb <;> exact h.1
  | _ => cases hb; exact h.1

end Trio

section Example

open scoped Trio

theorem coherent_of_permits {w : World Recorder} {b : Action Conduct RecorderEvent}
    (h : Trio.permits [Trio.command 1] [Trio.group.membership] w b) : Coherent Trio.group b := by
  cases b with
  | start engine slot proposal command => exact fun _ => List.mem_singleton.mp (of_decide_eq_true h)
  | _ => trivial

theorem begins_fencedAtTwo : Trio.group.Begins (· ∈ [Trio.command 1]) where
  apart c c' hc hc' _ := by rw [List.mem_singleton.mp hc, List.mem_singleton.mp hc']
  fits c hc := by
    rw [List.mem_singleton.mp hc]
    decide +kernel
  cluster := by decide +kernel
  nonzero := by decide +kernel

theorem fencedAtTwo_is_ahead : ∃ w, Run World.step (OnFiles (· ∈ [Trio.command 1])
      Faults.crashes fun _ a => Coherent Trio.group a) (World.init Trio.group.files) w ∧
    ∃ fence ∈ w.emptyFences, ∃ proof ∈ fence.formedBefore, fence.slot = 2 ∧ proof.slot < 2 := by
  have hEnd : (play World.step (Trio.permitsOnFiles [Trio.command 1] [Trio.group.membership])
      (World.init Trio.group.files)
      (Trio.scriptOnFiles ((fencedAtTwo.take 5).map fun a _ => some a) ++ Trio.tornInstall "b" 0 ++
        Trio.scriptOnFiles ((fencedAtTwo.drop 5).map fun a _ => some a))).any fun w =>
          decide (∃ fence ∈ w.emptyFences, ∃ proof ∈ fence.formedBefore, fence.slot = 2 ∧
            fence.engine.toGroup = Trio.group ∧ proof.context = Trio.group.context proof.slot) := by
    decide +kernel
  obtain ⟨w, hw, hFenced⟩ := (Option.any_eq_true _ _).mp hEnd
  obtain ⟨fence, hFence, proof, hProof, hSlot, hEngine, hContext⟩ := of_decide_eq_true hFenced
  have hRun := Run.of_play (fun _ _ => Trio.onFiles_of_permits fun _ _ => coherent_of_permits) hw
  refine ⟨w, hRun, fence, hFence, proof, hProof, hSlot, ?_⟩
  rw [← hSlot]
  exact fence_is_ahead_on_files begins_fencedAtTwo hRun hFence hEngine hProof hContext

theorem fits_handoverKnown : FitsCache handoverKnown.commands := by
  have h : ∀ c ∈ [Trio.command 1, Trio.stop Trio.group.membership,
      Trio.barrier Trio.group.membership 1],
      (encodeStoredCommand c).length ≤ maxCommandCacheBytes := by
    decide +kernel
  exact fun c hc => h c hc

theorem handover_ends : ∃ w, Run World.step (OnFiles handoverKnown.commands Faults.crashes
      (Activating handoverKnown 2)) (World.init Trio.group.files) w ∧
    FastPathsUnique handoverKnown Trio.group w.offFiles ∧
    (w.recorders "a").recorder.configuration.configId = 2 ∧
    (w.recorders "b").recorder.configuration.configId = 2 ∧
    (w.recorders "a").recorder.configuration.membership = some Trio.group.membership ∧
    (∃ predecessor, (w.recorders "a").recorder.configuration.predecessor = some predecessor ∧
      predecessor.stopSlot = 1) ∧
    ∃ proof ∈ w.formed, proof.context = (Trio.second Trio.group.membership).context 3 := by
  have hEnd : (play World.step (Trio.permitsOnFiles [Trio.command 1,
      Trio.stop Trio.group.membership, Trio.barrier Trio.group.membership 1]
      [Trio.group.membership]) (World.init Trio.group.files)
      (Trio.scriptOnFiles (handover.take 5) ++ Trio.tornInstall "b" 0 ++
        Trio.scriptOnFiles (handover.drop 5))).any fun w => decide (Trio.oneFirst w.offFiles ∧
        (w.recorders "a").recorder.configuration.configId = 2 ∧
        (w.recorders "b").recorder.configuration.configId = 2 ∧
        (w.recorders "a").recorder.configuration.membership = some Trio.group.membership ∧
        ((w.recorders "a").recorder.configuration.predecessor.any fun predecessor =>
          predecessor.stopSlot = 1) ∧
        ∃ proof ∈ w.formed, proof.context = (Trio.second Trio.group.membership).context 3) := by
    decide +kernel
  obtain ⟨w, hw, hDone⟩ := (Option.any_eq_true _ _).mp hEnd
  obtain ⟨hFirst, hA, hB, hMembership, hPredecessor, hProof⟩ := of_decide_eq_true hDone
  obtain ⟨predecessor, hPredecessor, hStop⟩ := (Option.any_eq_true _ _).mp hPredecessor
  exact ⟨w, .of_play (fun _ _ => Trio.onFiles_of_permits
      fun _ _ h => Trio.activating_of_permits h 2) hw,
    Trio.fastPathsUnique_of_oneFirst hFirst, hA, hB, hMembership,
    ⟨predecessor, hPredecessor, of_decide_eq_true hStop⟩, hProof⟩

theorem handover_is_one_log : ∃ w, Run World.step (OnFiles handoverKnown.commands Faults.crashes
      (Activating handoverKnown 2)) (World.init Trio.group.files) w ∧
    (w.recorders "a").recorder.configuration.configId = 2 ∧
    (w.recorders "a").recorder.configuration.membership =
      (w.recorders "b").recorder.configuration.membership := by
  obtain ⟨w, hRun, hUnique, hA, hB, -⟩ := handover_ends
  refine ⟨w, hRun, hA, ?_⟩
  have hLog := one_log_on_files distinct_handoverKnown (List.mem_singleton.mpr rfl)
    fits_handoverKnown (by decide +kernel) (hRun.mono fun _ _ h => h.mono fun _ _ h => h.1) hUnique
  exact (hLog.same "a" "b" _ List.mem_cons_self _ List.mem_cons_self (hA.trans hB.symm)).1

theorem handover_decides_barrier : ∃ w, Run World.step (OnFiles handoverKnown.commands
      Faults.crashes (Activating handoverKnown 2)) (World.init Trio.group.files) w ∧
    (∃ proof ∈ w.formed, proof.context = (Trio.second Trio.group.membership).context 3) ∧
    ∃ barrier ∈ w.formed,
      barrier.context = (Trio.second Trio.group.membership).context 2 := by
  obtain ⟨w, hRun, hUnique, hA, -, hMembership, ⟨predecessor, hPredecessor, hStop⟩, proof, hProof,
    hContext⟩ := handover_ends
  obtain ⟨-, -, hBarrier⟩ := activation_is_first_on_files distinct_handoverKnown
    (List.mem_singleton.mpr rfl) fits_handoverKnown (by decide +kernel) hRun hUnique
    List.mem_cons_self hA hMembership hPredecessor
  have hSlot : proof.slot = 3 := congrArg Context.slot hContext
  obtain ⟨barrier, hFormed, hFirst, -⟩ := hBarrier proof hProof (hSlot ▸ hContext) (by omega)
  rw [hStop] at hFirst
  exact ⟨w, hRun, ⟨proof, hProof, hContext⟩, barrier, hFormed, hFirst⟩

end Example

end Rhiza.Quepaxa
