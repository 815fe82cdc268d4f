import Rhiza.Quepaxa.Serve

/-! # A recorder over many calls

A recorder on its files takes one call after the other, with a disturbance now
and then, and may be started again at any time. `Steady` holds all the while, and
with every call the recorder that the files stand for makes one step of its own.
-/

namespace Rhiza.Quepaxa

open Core Library

inductive StoreCall
  | storeCommand (hash : LogHash) (command : StoredCommand)
  | record (request : RecordRequest)
  | installDecisionProof (proof : DecisionProof) (membership : Membership)
  | installSuccessor (membership : Membership) (stopProof : DecisionProof)
  | recoverActivation (stopSlot : Nat) (prefixHash : LogHash) (recoveredTip : Nat)
      (recoveredHash : LogHash)
  | inspect (slot : Nat)
  | observe (request : ReadFenceRequest)

inductive StoreReply
  | stored
  | recorded (summary : RecordSummary)
  | proofInstalled
  | configured (configuration : ConfigurationState)
  | inspected (summary : Option RecordSummary)
  | observed (observation : ReadFenceObservation)

inductive StoreStep
  | call (fault : StoreFault) (call : StoreCall)
  | reopen (fault : StoreFault) (existingOnly : Bool) (configId : Nat) (membership : Membership)

namespace StoreCall

variable [Sha256]

def program (self : Identity) : StoreCall → Io StoreReply
  | .storeCommand hash command => do
    Quepaxa.storeCommand hash command
    pure .stored
  | .record request => do pure (.recorded (← recordProposal self request))
  | .installDecisionProof proof membership => do
    installDecisionProofRecord self proof membership
    pure .proofInstalled
  | .installSuccessor membership stopProof => do
    pure (.configured (← installSuccessorFromProof self membership stopProof))
  | .recoverActivation stopSlot prefixHash recoveredTip recoveredHash => do
    pure (.configured (← recoverSuccessorActivationFromCheckpoint self stopSlot prefixHash
      recoveredTip recoveredHash))
  | .inspect slot => do pure (.inspected (← inspectRecordSummary self slot))
  | .observe request => do pure (.observed (← observeReadFence self request))

def Takes (r : Recorder) : StoreCall → Recorder → Prop
  | .storeCommand hash command, r' => Recorder.Takes r (.store hash command) r'
  | .record request, r' => Recorder.Takes r (.record request) r'
  | .installDecisionProof proof membership, r' => Recorder.Takes r (.install proof membership) r'
  | .installSuccessor membership stopProof, r' =>
    Recorder.Takes r (.succeed membership stopProof) r'
  | .recoverActivation stopSlot prefixHash recoveredTip recoveredHash, r' =>
    Recorder.Takes r (.activate stopSlot prefixHash recoveredTip recoveredHash) r'
  | .inspect _, r' => r' = r
  | .observe _, r' => r' = r

def on (r : Recorder) (conduct : Conduct) : StoreCall → Recorder
  | .storeCommand hash command => (r.storeCommand conduct hash command).1
  | .record request => (r.record conduct request).1
  | .installDecisionProof proof membership => (r.installDecisionProof conduct proof membership).1
  | .installSuccessor membership stopProof => (r.installSuccessor conduct membership stopProof).1
  | .recoverActivation stopSlot prefixHash recoveredTip recoveredHash =>
    (r.recoverActivation conduct stopSlot prefixHash recoveredTip recoveredHash).1
  | .inspect _ => r
  | .observe _ => r

def headOn (L : Content) (r : Recorder) : StoreCall → RecordedHeadProvenance
  | .record request => L.headAfterRecord r request
  | .installDecisionProof proof membership => L.headAfterInstall r proof membership
  | .installSuccessor membership stopProof => L.headAfterSuccessor r membership stopProof
  | .recoverActivation stopSlot prefixHash recoveredTip recoveredHash =>
    L.headAfterActivation r stopSlot prefixHash recoveredTip recoveredHash
  | _ => L.head

omit [Sha256] in
def Acknowledged (r : Recorder) : StoreCall → StoreReply → Prop
  | .storeCommand hash command, .stored => r.commands hash = some command
  | .record request, .recorded summary => ∃ state, r.slots request.slot = some state ∧
    summary = recordSummary r.recorderId state state.decidedProof ∧
    (state.decidedProof = none → ∀ value command, request.proposal.value = some value →
      request.command = some command → r.commands value.commandHash = some command)
  | .installDecisionProof proof _, .proofInstalled => ∃ state existing,
    r.slots proof.slot = some state ∧ state.decidedProof = some existing ∧
    existing.proposal.value = proof.proposal.value
  | .installSuccessor _ _, .configured configuration =>
    configurationStructureChanged configuration r.configuration = false
  | .recoverActivation _ _ _ _, .configured configuration =>
    configurationStructureChanged configuration r.configuration = false
  | _, _ => True

end StoreCall

namespace FileRecorder

variable [Sha256]

def serve (s : FileRecorder) (fault : StoreFault) (call : StoreCall) :
    FileRecorder × Result StoreReply :=
  s.call fault (call.program s.self)

def step (s : FileRecorder) : StoreStep → FileRecorder
  | .call fault call => (s.serve fault call).1
  | .reopen fault existingOnly configId membership =>
    s.reopen fault existingOnly configId membership

end FileRecorder

def onlyFault (fault : StoreFault) : Faults Site := fun site crash n =>
  ∃ f, fault = some f ∧ f.site = site ∧ f.crash = crash ∧ f.extent = n

theorem allow_onlyFault (fault : StoreFault) : (onlyFault fault).Allow fault :=
  fun f hf => ⟨f, hf, rfl, rfl, rfl⟩

section Steady

variable [Sha256] (K : StoredCommand → Prop) (G : Faults Site)

def Sits (node : Identity) (L : Content) (d : Disk) : Option Memory → Prop
  | some m => Standing K node G True L d m
  | none => Kept K node True L d

structure Steady (s : FileRecorder) : Prop where
  ready : Ready K s.self True s.retired s.disk.content
  sits : Sits K G s.self s.disk.content s.disk s.memory

structure Benign (s : FileRecorder) (fault : StoreFault) (call : StoreCall) : Prop where
  met : onlyFault fault ≤ G
  harmless : ∀ m, s.memory = some m → Harmless True (onlyFault fault) s.disk m
  stored : ∀ hash command, call = .storeCommand hash command → K command
  inline : ∀ request command, call = .record request → request.command = some command → K command
  stop : ∀ membership stopProof installed stopCommand, call = .installSuccessor membership stopProof →
    s.recorder.view.installSuccessorFromProof membership stopProof = .ok (installed, stopCommand) →
      K stopCommand
  smallRecord : ∀ request summary t, call = .record request →
    s.recorder.view.recordProposal request = .ok (summary, some t) →
      sizeOf (encodeRecorderState t.state) ≤ maxRecorderStateBytes
  smallInstall : ∀ proof membership t, call = .installDecisionProof proof membership →
    s.recorder.view.installDecisionProofRecord proof membership = .ok (some t) →
      sizeOf (encodeRecorderState t.state) ≤ maxRecorderStateBytes
  nonzero : ∀ membership stopProof, call = .installSuccessor membership stopProof →
    membership.digest ≠ .zero
  recovered : ∀ stopSlot prefixHash recoveredTip recoveredHash,
    call = .recoverActivation stopSlot prefixHash recoveredTip recoveredHash → recoveredHash ≠ .zero

end Steady

section Takes

variable [Sha256] {r r' : Recorder} {move : Recorder.Move}

theorem StoreCall.on_nothing (r : Recorder) (replaces : Bool) (error : Error) (call : StoreCall) :
    call.on r ⟨replaces, some (.nothing, error)⟩ = r := by
  cases call with
  | storeCommand hash command =>
    exact congrArg Prod.fst (r.storeCommand_nothing replaces error hash command)
  | record request => exact congrArg Prod.fst (r.record_nothing replaces error request)
  | installDecisionProof proof membership =>
    exact congrArg Prod.fst (r.installDecisionProof_nothing replaces error proof membership)
  | installSuccessor membership stopProof =>
    exact congrArg Prod.fst (r.installSuccessor_nothing replaces error membership stopProof)
  | recoverActivation stopSlot prefixHash recoveredTip recoveredHash =>
    exact congrArg Prod.fst (r.recoverActivation_nothing replaces error stopSlot prefixHash recoveredTip
      recoveredHash)
  | inspect => rfl
  | observe => rfl

theorem StoreCall.on_takes (r : Recorder) (conduct : Conduct) (call : StoreCall) :
    call.Takes r (call.on r conduct) := by
  cases call with
  | storeCommand hash command => exact r.storeCommand_takes conduct hash command
  | record request => exact r.record_takes conduct request
  | installDecisionProof proof membership =>
    exact r.installDecisionProof_takes conduct proof membership
  | installSuccessor membership stopProof =>
    exact r.installSuccessor_takes conduct membership stopProof
  | recoverActivation stopSlot prefixHash recoveredTip recoveredHash =>
    exact r.recoverActivation_takes conduct stopSlot prefixHash recoveredTip recoveredHash
  | inspect => rfl
  | observe => rfl

theorem StoreCall.exists_move {call : StoreCall} (h : call.Takes r r') :
    ∃ move, Recorder.Takes r move r' := by
  cases call with
  | inspect | observe =>
    obtain rfl : r' = r := h
    exact ⟨.activate 0 .zero 0 .zero, .idle _⟩
  | _ => exact ⟨_, h⟩

theorem Recorder.takes_retired (h : Takes r move r') : r'.retired =
    if r'.configuration.configId = r.configuration.configId then r.retired
    else r.configuration :: r.retired := by
  obtain ⟨hRetired, hSame⟩ | ⟨_, _, _, -, hSucceeds, hRetired, -⟩ := takes_history h
  · rw [if_pos hSame.configId_eq, hRetired]
  · have hNext := hSucceeds.next
    unfold checkedSucc at hNext
    split at hNext
    · have hId := Option.some.inj hNext
      change r.configuration.configId + 1 = _ at hId
      rw [if_neg (by omega), hRetired]
    · cases hNext

end Takes

section Results

variable [Sha256] {K : StoredCommand → Prop} {G : Faults Site} {node : Identity}
  {L L' : Content} {d : Disk} {m : Memory} {retired retired' : List ConfigurationState} {conduct : Conduct}

theorem Standing.kept (h : Standing K node G True L d m) : Kept K node True L d := by
  cases h with
  | live h => exact .settled h.settled
  | failed _ _ _ h => exact .settled h
  | pending _ _ h => exact h.kept

theorem Sits.kept {memory : Option Memory} (h : Sits K G node L d memory) : Kept K node True L d := by
  cases memory with
  | none => exact h
  | some m => exact Standing.kept h

theorem Kept.matched (h : Kept K node True L d) :
    L.head.recoveredMax = L.configuration.maxAcceptedOrDecidedSlot := by
  cases h with
  | settled h =>
    obtain ⟨c, head, w, s, hs, rfl⟩ := h
    exact hs.matched
  | intended i h =>
    rw [← h.content_eq]
    exact h.max_eq.symm
  | headIntended i h =>
    rw [← h.content_eq]
    exact h.matched

theorem Steady.moved {s : FileRecorder} (h : Steady K G s) {move : Recorder.Move}
    (hTakes : Recorder.Takes s.recorder move (L'.recorder s.self retired'))
    (hGood : L'.Good K s.self) {memory : Option Memory} (hSits : Sits K G s.self L' d memory) :
    Steady K G (s.moved d memory) ∧ (s.moved d memory).recorder = L'.recorder s.self retired' := by
  have hContent : d.content = L' := hSits.kept.content_eq
  have hRetired := Recorder.takes_retired hTakes
  have hSame : (s.moved d memory).recorder = L'.recorder s.self retired' := by
    change d.content.recorder s.self (if _ then _ else _) = _
    rw [hContent, show retired' = _ from hRetired]
    rfl
  refine ⟨⟨⟨⟨h.ready.apart, h.ready.fits, fun _ => ?_⟩, ?_, ?_⟩, ?_⟩, hSame⟩
  · change d.content.Good K s.self
    rw [hContent]
    exact hGood
  · change (s.moved d memory).recorder.Tidy
    rw [hSame]
    exact h.ready.tidy.takes hTakes
  · change d.content.head.recoveredMax = d.content.configuration.maxAcceptedOrDecidedSlot
    rw [hContent]
    exact hSits.kept.matched
  · change Sits K G s.self d.content d memory
    rw [hContent]
    exact hSits

omit [Sha256] in
theorem call_cases {α : Type} {s : FileRecorder} (hMemory : s.memory = some m) {fault : StoreFault}
    {program : Io α} {P : Disk → Memory → Prop} {Q : α → Disk → Memory → Prop}
    {E : Error → Disk → Memory → Prop} {C : Disk → Prop}
    (h : Triple (onlyFault fault) P program Q E C) (hHere : P s.disk m)
    {R : FileRecorder → Result α → Prop}
    (hQ : ∀ a d m, Q a d m → R (s.moved d (some m)) (.ok a))
    (hE : ∀ e d m, E e d m → R (s.moved d (some m)) (.error e))
    (hC : ∀ d, C d → R (s.moved d none) (.error FileRecorder.stopped)) :
    R (s.call fault program).1 (s.call fault program).2 := by
  obtain ⟨hSatisfies, -⟩ := h s.disk m fault (allow_onlyFault fault) hHere
  unfold Outcome.Satisfies at hSatisfies
  unfold FileRecorder.call
  rw [hMemory]
  cases hExit : (program s.disk m fault).exit with
  | value a =>
    simp only [hExit] at hSatisfies ⊢
    exact hQ _ _ _ hSatisfies
  | error e =>
    simp only [hExit] at hSatisfies ⊢
    exact hE _ _ _ hSatisfies
  | crash =>
    simp only [hExit] at hSatisfies ⊢
    exact hC _ hSatisfies

structure Served (K : StoredCommand → Prop) (G : Faults Site) (s : FileRecorder) (call : StoreCall)
    (s' : FileRecorder) (reply : Result StoreReply) : Prop where
  steady : Steady K G s'
  lands : ∃ conduct, s'.recorder = call.on s.recorder conduct ∧
    s'.disk.content.head =
      conduct.head s.disk.content.head (call.headOn s.disk.content s.recorder)
  acknowledged : ∀ a, reply = .ok a → call.Acknowledged s'.recorder a

theorem Served.takes {s s' : FileRecorder} {call : StoreCall} {reply : Result StoreReply}
    (h : Served K G s call s' reply) : call.Takes s.recorder s'.recorder := by
  obtain ⟨conduct, hOn, -⟩ := h.lands
  rw [hOn]
  exact call.on_takes s.recorder conduct

theorem served_of_lands {α : Type} {s : FileRecorder} (h : Steady K G s) {call : StoreCall}
    {act : Conduct → Recorder × Result α} {reply : Result α} {result : Result StoreReply}
    (hOn : ∀ conduct, (act conduct).1 = call.on s.recorder conduct)
    (hLands : Lands K s.self True s.disk.content.head (call.headOn s.disk.content s.recorder) act
      reply L')
    (hAcknowledged : ∀ a conduct retired', result = .ok a →
      act conduct = (L'.recorder s.self retired', reply) →
        call.Acknowledged (L'.recorder s.self retired') a)
    (memory : Option Memory) (hSits : Sits K G s.self L' d memory) :
    Served K G s call (s.moved d memory) result := by
  obtain ⟨hGood, conduct, retired', hAct, hHead⟩ := hLands
  have hLanded : L'.recorder s.self retired' = call.on s.recorder conduct := by
    rw [← hOn, hAct]
  have hTakes := call.on_takes s.recorder conduct
  rw [← hLanded] at hTakes
  obtain ⟨move, hTaken⟩ := StoreCall.exists_move hTakes
  obtain ⟨hSteady, hSame⟩ := h.moved hTaken (hGood trivial) hSits
  refine ⟨hSteady, ⟨conduct, hSame.trans hLanded, ?_⟩, fun a ha => ?_⟩
  · change d.content.head = _
    rw [hSits.kept.content_eq]
    exact hHead
  · rw [hSame]
    exact hAcknowledged a conduct retired' ha hAct

theorem served_of_serves {α : Type} {s : FileRecorder} (h : Steady K G s)
    (hMemory : s.memory = some m) {fault : StoreFault} {call : StoreCall}
    {act : Conduct → Recorder × Result α} {x : Io α} {f : α → StoreReply}
    (hProgram : call.program s.self = x >>= fun a => pure (f a))
    (hServes : Serves K s.self (onlyFault fault) G True s.disk.content.head
      (call.headOn s.disk.content s.recorder)
      (Able K s.self (onlyFault fault) G True s.disk.content) act x)
    (hOn : ∀ conduct, (act conduct).1 = call.on s.recorder conduct)
    (hAcknowledged : ∀ (L' : Content) a conduct retired', L'.Good K s.self →
      act conduct = (L'.recorder s.self retired', .ok a) →
        call.Acknowledged (L'.recorder s.self retired') (f a))
    (hAble : Able K s.self (onlyFault fault) G True s.disk.content s.disk m) :
    Served K G s call (s.serve fault call).1 (s.serve fault call).2 := by
  unfold FileRecorder.serve
  rw [hProgram]
  refine call_cases hMemory (Triple.bind hServes fun a => Triple.pure
    (Q := fun result d m => ∃ L', ∃ a, result = f a ∧ Live K s.self True L' d m ∧
      Lands K s.self True s.disk.content.head (call.headOn s.disk.content s.recorder) act (.ok a) L')
    fun d m ⟨L', hLive, hLands⟩ => ⟨L', a, rfl, hLive, hLands⟩) hAble ?_ ?_ ?_
  · rintro _ d m ⟨L', a, rfl, hLive, hLands⟩
    refine served_of_lands h hOn hLands ?_ (some m) (.live hLive)
    rintro _ conduct retired' ⟨⟩ hAct
    exact hAcknowledged L' a conduct retired' (hLands.good trivial) hAct
  · rintro e d m ⟨L', hStanding, hLands⟩
    exact served_of_lands h hOn hLands (fun _ _ _ h => (by cases h)) (some m)
      hStanding
  · rintro d ⟨L', hKept, hLands⟩
    exact served_of_lands h hOn hLands (fun _ _ _ h => (by cases h)) none hKept

variable {request : RecordRequest} {summary : RecordSummary}

omit [Sha256] in
theorem Recorder.slots_of_load_decided {r : Recorder} {slot : Nat} {configDigest : LogHash}
    {state : RecorderSlotState} (hLoad : r.load slot configDigest = .ok state)
    (hDecided : state.decidedProof ≠ none) : r.slots slot = some state := by
  obtain ⟨-, -, -, -, -, hSame | ⟨-, rfl⟩⟩ := Recorder.load_eq_ok hLoad
  · exact hSame
  · exact absurd rfl hDecided

theorem record_acknowledged (hReady : Ready K node True retired L)
    (hKnown : ∀ command, request.command = some command → K command) (hGood : L'.Good K node)
    (h : (L.recorder node retired).record conduct request =
      (L'.recorder node retired', .ok summary)) :
    StoreCall.Acknowledged (L'.recorder node retired') (.record request) (.recorded summary) := by
  have hReply : ((L.recorder node retired).record conduct request).2 = .ok summary := by rw [h]
  have hState : ((L.recorder node retired).record conduct request).1 = L'.recorder node retired' := by
    rw [h]
  cases hResult : (L.recorder node retired).view.recordProposal request with
  | error e =>
    simp only [Recorder.record, hResult] at hReply
    cases (Recorder.settle_eq_ok hReply).1
  | ok result =>
    obtain ⟨summary', transition⟩ := result
    obtain ⟨value, command, change, state, hPasses, hLoad,
      ⟨proof, hProof, hSummary, rfl⟩ | ⟨t, rfl, hSummary, hRecords⟩⟩ :=
      RecorderView.recordProposal_eq_ok hResult
    · simp only [Recorder.record, hResult] at hReply hState
      obtain ⟨hOk, hDone⟩ := Recorder.settle_eq_ok hReply
      obtain rfl := Except.ok.inj hOk
      rw [← hState, hDone]
      have hNot : state.decidedProof ≠ none := by simp [hProof]
      refine ⟨state, Recorder.slots_of_load_decided hLoad hNot, ?_, fun hNone => absurd hNone hNot⟩
      rw [hSummary, hProof]
      rfl
    · simp only [Recorder.record, hResult] at hReply hState
      obtain ⟨hOk, hDone⟩ := Recorder.settle_eq_ok hReply
      obtain rfl := Except.ok.inj hOk
      have hCommands : (L'.recorder node retired').commands =
          ((L.recorder node retired).stage conduct.replaces t.command).commands := by
        rw [← hState, hDone]
        rfl
      have hSlots : (L'.recorder node retired').slots t.state.slot = some t.state := by
        rw [← hState, hDone]
        exact Function.update_self ..
      have hUndecided : t.state.decidedProof = none := by
        rw [hRecords.state_eq]
        exact hRecords.undecided
      have hSlot : t.state.slot = request.slot := by
        rw [hRecords.state_eq]
        exact (Recorder.load_eq_ok hLoad).1
      rw [hSlot] at hSlots
      refine ⟨t.state, hSlots, ?_, fun _ value' command' hValue hCommand => ?_⟩
      · rw [hSummary, hUndecided]
        rfl
      · obtain rfl := Option.some.inj (hValue.symm.trans hPasses.value_eq)
        have hOwn : command' = command := by
          rcases hPasses.source with hSource | ⟨hNone, -⟩
          · exact Option.some.inj (hCommand.symm.trans hSource)
          · cases hNone.symm.trans hCommand
        subst hOwn
        -- a command of the same hash may have been there before
        have hSome : ((L'.recorder node retired').commands value'.commandHash).isSome := by
          rw [hCommands, hRecords.command_eq, hCommand]
          change ((Recorder.keepCommand _ _ _ _).commands _).isSome
          unfold Recorder.keepCommand
          split
          · rename_i hThere
            exact hThere.1
          · simp
        obtain ⟨found, hFound⟩ := Option.isSome_iff_exists.mp hSome
        obtain ⟨hHash, hFoundKnown⟩ := hGood.keyed _ _ hFound
        rw [hFound, hReady.apart found command' hFoundKnown (hKnown _ hCommand)
          (hHash.trans hPasses.hash_eq.symm)]

theorem install_acknowledged {proof : DecisionProof} {membership : Membership}
    (h : (L.recorder node retired).installDecisionProof conduct proof membership =
      (L'.recorder node retired', .ok ())) :
    StoreCall.Acknowledged (L'.recorder node retired') (.installDecisionProof proof membership)
      .proofInstalled := by
  have hReply : ((L.recorder node retired).installDecisionProof conduct proof membership).2 =
      .ok () := by rw [h]
  have hState : ((L.recorder node retired).installDecisionProof conduct proof membership).1 =
      L'.recorder node retired' := by rw [h]
  cases hResult : (L.recorder node retired).view.installDecisionProofRecord proof membership with
  | error e =>
    simp only [Recorder.installDecisionProof, hResult] at hReply
    cases (Recorder.settle_eq_ok hReply).1
  | ok transition =>
    cases transition with
    | none =>
      simp only [Recorder.installDecisionProof, hResult, Recorder.settle_same] at hState
      obtain ⟨state, existing, hLoad, hProof, hValue⟩ :=
        RecorderView.installDecisionProofRecord_eq_none hResult
      rw [← hState]
      refine ⟨state, existing, Recorder.slots_of_load_decided hLoad ?_, hProof, hValue⟩
      simp [hProof]
    | some t =>
      simp only [Recorder.installDecisionProof, hResult] at hReply hState
      obtain ⟨-, hDone⟩ := Recorder.settle_eq_ok hReply
      obtain hNone | ⟨value, command, change, state, t', hSome, hLoad, hInstalls⟩ :=
        RecorderView.installDecisionProofRecord_eq_ok hResult
      · cases hNone
      obtain rfl := Option.some.inj hSome
      obtain ⟨decided, hInstalled, -⟩ := hInstalls.installed
      have hSlot : t.state.slot = proof.slot := by
        rw [hInstalled]
        exact (Recorder.load_eq_ok hLoad).1
      rw [← hState, hDone]
      refine ⟨t.state, proof, ?_, ?_, rfl⟩
      · rw [← hSlot]
        exact Function.update_self ..
      · rw [hInstalled]

theorem succeed_acknowledged {membership : Membership} {stopProof : DecisionProof}
    {configuration : ConfigurationState}
    (h : (L.recorder node retired).installSuccessor conduct membership stopProof =
      (L'.recorder node retired', .ok configuration)) :
    StoreCall.Acknowledged (L'.recorder node retired') (.installSuccessor membership stopProof)
      (.configured configuration) := by
  have hReply : ((L.recorder node retired).installSuccessor conduct membership stopProof).2 =
      .ok configuration := by rw [h]
  have hState : ((L.recorder node retired).installSuccessor conduct membership stopProof).1 =
      L'.recorder node retired' := by rw [h]
  suffices hSame : (L'.recorder node retired').configuration = configuration by
    change configurationStructureChanged configuration (L'.recorder node retired').configuration = false
    rw [hSame]
    simp [configurationStructureChanged]
  rw [← hState]
  unfold Recorder.installSuccessor at hReply ⊢
  split
  · rename_i e hError
    rw [hError] at hReply
    cases (Recorder.settle_eq_ok hReply).1
  · rename_i installed stopCommand hOk
    simp only [hOk] at hReply
    split
    · rename_i e hError
      simp only [hError] at hReply
      cases (Recorder.settle_eq_ok hReply).1
    · rename_i staged hStaged
      simp only [hStaged] at hReply
      obtain ⟨hSame, hDone⟩ := Recorder.settle_eq_ok hReply
      rw [hDone]
      exact Except.ok.inj hSame

omit [Sha256] in
theorem activate_acknowledged {stopSlot : Nat} {prefixHash : LogHash} {recoveredTip : Nat}
    {recoveredHash : LogHash} {configuration : ConfigurationState}
    (h : (L.recorder node retired).recoverActivation conduct stopSlot prefixHash recoveredTip
      recoveredHash = (L'.recorder node retired', .ok configuration)) :
    StoreCall.Acknowledged (L'.recorder node retired')
      (.recoverActivation stopSlot prefixHash recoveredTip recoveredHash)
      (.configured configuration) := by
  have hReply : ((L.recorder node retired).recoverActivation conduct stopSlot prefixHash recoveredTip
      recoveredHash).2 = .ok configuration := by rw [h]
  have hState : ((L.recorder node retired).recoverActivation conduct stopSlot prefixHash recoveredTip
      recoveredHash).1 = L'.recorder node retired' := by rw [h]
  suffices hSame : (L'.recorder node retired').configuration = configuration by
    change configurationStructureChanged configuration (L'.recorder node retired').configuration = false
    rw [hSame]
    simp [configurationStructureChanged]
  rw [← hState]
  unfold Recorder.recoverActivation at hReply ⊢
  split
  · rename_i e hError
    rw [hError] at hReply
    cases (Recorder.settle_eq_ok hReply).1
  · rename_i recovered head hOk
    simp only [hOk] at hReply
    obtain ⟨hSame, hDone⟩ := Recorder.settle_eq_ok hReply
    rw [hDone]
    exact Except.ok.inj hSame

theorem Standing.commands_of_over (h : Standing K node G True L d m) {hash : LogHash}
    {command : StoredCommand} (hOver : Assoc.layered m.wal.commands d.commands hash = some command) :
    L.commands hash = some command := by
  cases h with
  | live h => exact h.trails.commands hash command hOver
  | failed _ _ hTrails _ => exact (hTrails trivial).commands hash command hOver
  | pending _ i h =>
    rw [h.start] at hOver
    rw [← h.intended.content_eq]
    exact hOver

section Served

variable {s : FileRecorder} {fault : StoreFault} {call : StoreCall}

theorem Steady.idle (h : Steady K G s) (hMemory : s.memory = some m) {result : Result StoreReply}
    (hAcknowledged : ∀ a, result = .ok a → call.Acknowledged s.recorder a) :
    Served K G s call (s.moved s.disk (some m)) result := by
  have hSits := h.sits
  rw [hMemory] at hSits
  obtain ⟨hSteady, hSame⟩ := h.moved (.idle (.activate 0 .zero 0 .zero)) (h.ready.good trivial) hSits
  refine ⟨hSteady, ⟨⟨false, some (.nothing, FileRecorder.stopped)⟩, ?_, rfl⟩, fun a ha => ?_⟩
  · rw [hSame, StoreCall.on_nothing]
    rfl
  · rw [hSame]
    exact hAcknowledged a ha

theorem storeCommand_served (h : Steady K G s) (hMemory : s.memory = some m) {hash : LogHash}
    {command : StoredCommand} (hKnown : K command) :
    Served K G s (.storeCommand hash command) (s.serve fault (.storeCommand hash command)).1
      (s.serve fault (.storeCommand hash command)).2 := by
  have hStanding : Standing K s.self G True s.disk.content s.disk m := by
    have hSits := h.sits
    rw [hMemory] at hSits
    exact hSits
  have hStores : ∀ d, Stores s.disk m hash command d → ∃ L', Standing K s.self G True L' d m ∧
      L'.Good K s.self ∧ L'.head = s.disk.content.head ∧ ∃ conduct, L'.recorder s.self s.retired =
        StoreCall.on s.recorder conduct (.storeCommand hash command) := by
    have hIdle : ∃ conduct, s.recorder =
        StoreCall.on s.recorder conduct (.storeCommand hash command) :=
      ⟨⟨false, some (.nothing, FileRecorder.stopped)⟩, (StoreCall.on_nothing ..).symm⟩
    rintro d (rfl | ⟨hHash, hGet, hFile, rfl⟩)
    · exact ⟨_, hStanding, h.ready.good trivial, rfl, hIdle⟩
    · have hGood := h.ready.good trivial
      have hOwn : ∀ hash' c, some (hash, command) = some (hash', c) → c.hash = hash' ∧ K c := by
        rintro _ _ ⟨⟩
        exact ⟨hHash, hKnown⟩
      refine ⟨_, hStanding.storeFile hHash (fun _ => hKnown) hGet hFile (fun _ => hGood.keyed)
        h.ready.apart, hGood.stage hOwn, Content.keepCommand_head .., ?_⟩
      rw [Content.recorder_keepCommand]
      cases hAbsent : s.disk.content.commands hash with
      | none => exact ⟨.good, (congrArg Prod.fst (s.recorder.storeCommand_good hHash (.inl hAbsent))).symm⟩
      | some old =>
        have hSame : (s.disk.content.recorder s.self s.retired).keepCommand false hash command =
            s.disk.content.recorder s.self s.retired := by
          rw [← Content.recorder_keepCommand, Content.keepCommand_of_some hAbsent]
        rw [hSame]
        exact hIdle
  have hServed : ∀ d memory L' (result : Result StoreReply), Sits K G s.self L' d memory →
      L'.Good K s.self → L'.head = s.disk.content.head → (∃ conduct, L'.recorder s.self s.retired =
        StoreCall.on s.recorder conduct (.storeCommand hash command)) →
      (∀ a, result = .ok a → L'.commands hash = some command ∧ a = .stored) →
      Served K G s (.storeCommand hash command) (s.moved d memory) result := by
    rintro d memory L' result hSits hGood hHead ⟨conduct, hOn⟩ hAcknowledged
    have hTakes := StoreCall.on_takes s.recorder conduct (.storeCommand hash command)
    rw [← hOn] at hTakes
    obtain ⟨hSteady, hSame⟩ := h.moved hTakes hGood hSits
    refine ⟨hSteady, ⟨conduct, hSame.trans hOn, ?_⟩, fun a ha => ?_⟩
    · change d.content.head = if _ then s.disk.content.head else s.disk.content.head
      rw [hSits.kept.content_eq, hHead, ite_self]
    obtain ⟨hCommand, rfl⟩ := hAcknowledged a ha
    rw [hSame]
    exact hCommand
  unfold FileRecorder.serve
  refine call_cases hMemory (Triple.bind (storeCommand_effect hash command s.disk m)
    fun _ => Triple.pure (Q := fun a d m' => a = StoreReply.stored ∧ m' = m ∧ Stores s.disk m hash command d ∧
      Assoc.layered m.wal.commands d.commands hash = some command)
    fun d m' h => ⟨rfl, h.1, h.2.1, h.2.2.2⟩) ⟨rfl, rfl⟩ ?_ ?_ ?_
  · rintro _ d m' ⟨rfl, hm, hDisk, hOver⟩
    subst hm
    obtain ⟨L', hNext, hGood, hHead, hOn⟩ := hStores d hDisk
    refine hServed d (some m') L' _ hNext hGood hHead hOn ?_
    rintro _ ⟨⟩
    exact ⟨hNext.commands_of_over hOver, rfl⟩
  · rintro e d m' ⟨hm, hDisk⟩
    subst hm
    obtain ⟨L', hNext, hGood, hHead, hOn⟩ := hStores d hDisk
    exact hServed d (some m') L' _ hNext hGood hHead hOn fun _ h => (by cases h)
  · rintro d hDisk
    obtain ⟨L', hNext, hGood, hHead, hOn⟩ := hStores d hDisk
    exact hServed d none L' _ hNext.kept hGood hHead hOn fun _ h => (by cases h)

theorem failed_served {α : Type} (h : Steady K G s) (hMemory : s.memory = some m)
    {x : Io α} {f : α → StoreReply} {Q : α → Prop}
    (hProgram : call.program s.self = x >>= fun a => pure (f a))
    (hTriple : Triple (onlyFault fault) (fun d m' => d = s.disk ∧ m' = m) x
      (fun a d m' => (d = s.disk ∧ m' = m) ∧ Q a) (fun _ d m' => d = s.disk ∧ m' = m)
      (fun _ => False))
    (hAcknowledged : ∀ a, Q a → call.Acknowledged s.recorder (f a)) :
    Served K G s call (s.serve fault call).1 (s.serve fault call).2 := by
  unfold FileRecorder.serve
  rw [hProgram]
  refine call_cases hMemory (Triple.bind hTriple fun a => Triple.pure
    (Q := fun result d m' => (d = s.disk ∧ m' = m) ∧ ∃ a, result = f a ∧ Q a)
    fun d m' h => ⟨h.1, a, rfl, h.2⟩) ⟨rfl, rfl⟩ ?_ ?_ fun _ h => h.elim
  · rintro _ d _ ⟨⟨rfl, rfl⟩, a, rfl, hQ⟩
    refine h.idle hMemory ?_
    rintro _ ⟨⟩
    exact hAcknowledged a hQ
  · rintro e d _ ⟨rfl, rfl⟩
    exact h.idle hMemory fun _ h => (by cases h)

theorem failed_record_acknowledged (hTrails : Trails s.disk.content s.disk m)
    (hOk : (m.view s.self s.disk).recordProposal request = .ok (summary, none)) :
    StoreCall.Acknowledged s.recorder (.record request) (.recorded summary) := by
  obtain ⟨value, command, change, state, -, hLoad,
    ⟨proof, hProof, hSummary, -⟩ | ⟨_, hSome, -⟩⟩ := RecorderView.recordProposal_eq_ok hOk
  · have hDecided : state.decidedProof ≠ none := by simp [hProof]
    refine ⟨state, ?_, ?_, fun hNone => absurd hNone hDecided⟩
    · rcases loadUnlocked_eq_ok hLoad with hOver | rfl
      · exact hTrails.decided _ state hOver hDecided
      · exact absurd rfl hDecided
    · rw [hSummary, hProof]
      rfl
  · cases hSome

theorem failed_install_acknowledged (hTrails : Trails s.disk.content s.disk m)
    {proof : DecisionProof} {membership : Membership}
    (hOk : (m.view s.self s.disk).installDecisionProofRecord proof membership = .ok none) :
    StoreCall.Acknowledged s.recorder (.installDecisionProof proof membership) .proofInstalled := by
  obtain ⟨state, existing, hLoad, hProof, hValue⟩ :=
    RecorderView.installDecisionProofRecord_eq_none hOk
  have hDecided : state.decidedProof ≠ none := by simp [hProof]
  refine ⟨state, existing, ?_, hProof, hValue⟩
  rcases loadUnlocked_eq_ok hLoad with hOver | rfl
  · exact hTrails.decided _ state hOver hDecided
  · exact absurd rfl hDecided

theorem Steady.serve_able (h : Steady K G s) (hBenign : Benign K G s fault call)
    (hMemory : s.memory = some m)
    (hAble : Able K s.self (onlyFault fault) G True s.disk.content s.disk m) :
    Served K G s call (s.serve fault call).1 (s.serve fault call).2 := by
  have hReady := h.ready
  cases call with
  | storeCommand hash command =>
    exact storeCommand_served h hMemory (hBenign.stored hash command rfl)
  | record request =>
    have hKnown := fun command => hBenign.inline request command rfl
    exact served_of_serves h hMemory rfl
      (recordProposal_serves hBenign.met hReady request (fun _ => hKnown)
        fun _ summary t => hBenign.smallRecord request summary t rfl)
      (fun _ => rfl)
      (fun L' a conduct retired' hGood hAct => record_acknowledged hReady hKnown hGood hAct) hAble
  | installDecisionProof proof membership =>
    exact served_of_serves h hMemory (f := fun _ => .proofInstalled) rfl
      (installDecisionProofRecord_serves hBenign.met hReady proof membership
        fun _ t => hBenign.smallInstall proof membership t rfl)
      (fun _ => rfl)
      (fun L' a conduct retired' hGood hAct => install_acknowledged hAct) hAble
  | installSuccessor membership stopProof =>
    exact served_of_serves h hMemory rfl
      (installSuccessorFromProof_serves hBenign.met hReady membership stopProof
        (fun _ => hBenign.nonzero membership stopProof rfl)
        fun _ installed stopCommand => hBenign.stop membership stopProof installed stopCommand rfl)
      (fun _ => rfl)
      (fun L' a conduct retired' hGood hAct => succeed_acknowledged hAct) hAble
  | recoverActivation stopSlot prefixHash recoveredTip recoveredHash =>
    exact served_of_serves h hMemory rfl
      (recoverActivation_serves hBenign.met hReady stopSlot prefixHash recoveredTip recoveredHash
        fun _ => hBenign.recovered stopSlot prefixHash recoveredTip recoveredHash rfl)
      (fun _ => rfl)
      (fun L' a conduct retired' hGood hAct => activate_acknowledged hAct) hAble
  | inspect slot =>
    exact served_of_serves h hMemory rfl
      (read_serves hReady (fun v => v.inspectRecordSummary slot)
        fun v a hShows hOk => hShows.inspectRecordSummary hOk)
      (fun _ => Recorder.settle_same ..) (fun _ _ _ _ _ _ => trivial) hAble
  | observe request =>
    exact served_of_serves h hMemory rfl
      (read_serves hReady (fun v => v.observeReadFence request)
        fun v a hShows hOk => hShows.observeReadFence hOk)
      (fun _ => Recorder.settle_same ..) (fun _ _ _ _ _ _ => trivial) hAble

theorem Steady.serve_failed (h : Steady K G s) (hBenign : Benign K G s fault call)
    (hMemory : s.memory = some m) (hFailed : m.wal.failed = true)
    (hTrails : Trails s.disk.content s.disk m) (hIntent : s.disk.intent = none)
    (hHeadIntent : s.disk.headIntent = none) :
    Served K G s call (s.serve fault call).1 (s.serve fault call).2 := by
  cases call with
  | storeCommand hash command =>
    exact storeCommand_served h hMemory (hBenign.stored hash command rfl)
  | record request =>
    exact failed_served h hMemory rfl (recordProposal_failed hIntent hHeadIntent hFailed request)
      fun summary hOk => failed_record_acknowledged hTrails hOk
  | installDecisionProof proof membership =>
    exact failed_served h hMemory (f := fun _ => .proofInstalled) rfl
      (installDecisionProofRecord_failed hIntent hHeadIntent hFailed proof membership)
      fun _ hOk => failed_install_acknowledged hTrails hOk
  | installSuccessor membership stopProof =>
    exact failed_served h hMemory (Q := fun _ => False) rfl
      ((installSuccessorFromProof_failed hIntent hHeadIntent hFailed membership stopProof).conseq
        (fun _ _ h => h) (fun _ _ _ h => h.elim) (fun _ _ _ h => h) fun _ h => h)
      fun _ h => h.elim
  | recoverActivation stopSlot prefixHash recoveredTip recoveredHash =>
    refine failed_served h hMemory rfl (recoverActivation_failed hIntent hHeadIntent hFailed
      stopSlot prefixHash recoveredTip recoveredHash) fun configuration hSame => ?_
    rw [hSame]
    exact hTrails.configuration
  | inspect slot =>
    exact failed_served h hMemory (Q := fun _ => True) rfl
      ((read_failed hIntent hHeadIntent fun v => v.inspectRecordSummary slot).conseq
        (fun _ _ h => h) (fun _ _ _ h => ⟨h, trivial⟩) (fun _ _ _ h => h) fun _ h => h)
      fun _ _ => trivial
  | observe request =>
    exact failed_served h hMemory (Q := fun _ => True) rfl
      ((read_failed hIntent hHeadIntent fun v => v.observeReadFence request).conseq
        (fun _ _ h => h) (fun _ _ _ h => ⟨h, trivial⟩) (fun _ _ _ h => h) fun _ h => h)
      fun _ _ => trivial

theorem Steady.serve (h : Steady K G s) (hBenign : Benign K G s fault call) :
    Served K G s call (s.serve fault call).1 (s.serve fault call).2 := by
  cases hMemory : s.memory with
  | none =>
    have hStopped : s.serve fault call = (s, .error FileRecorder.stopped) := by
      simp only [FileRecorder.serve, FileRecorder.call, hMemory]
    rw [hStopped]
    exact ⟨h, ⟨_, (call.on_nothing s.recorder false FileRecorder.stopped).symm, rfl⟩, fun _ h => (by cases h)⟩
  | some m =>
    have hSits := h.sits
    rw [hMemory] at hSits
    have hHarmless := hBenign.harmless m hMemory
    cases (hSits : Standing K s.self G True s.disk.content s.disk m) with
    | live hLive => exact h.serve_able hBenign hMemory (.live hLive hHarmless)
    | pending hErrs i hPending =>
      exact h.serve_able hBenign hMemory (.pending hErrs i hPending hHarmless.joined)
    | failed _ hFailed hTrails hSettled =>
      obtain ⟨c, head, w, rs, hs, -⟩ := hSettled
      exact h.serve_failed hBenign hMemory hFailed (hTrails trivial) hs.intent hs.headIntent

end Served

end Results

end Rhiza.Quepaxa
