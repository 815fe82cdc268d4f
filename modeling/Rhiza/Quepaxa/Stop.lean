import Rhiza.Quepaxa.History

/-! # A decided stop ends its configuration

A recorder accepts a stop only at its maximal slot, and its seal then keeps out
every later slot. The seal is dropped for a proof of another command in the same
slot, which agreement on that slot excludes.
-/

namespace Rhiza.Quepaxa

open Core Library Recorder

structure Known where
  commands : StoredCommand → Prop
  memberships : Membership → Prop

section Covers

variable [Sha256]

structure Known.Distinct (K : Known) : Prop where
  command : ∀ c c', K.commands c → K.commands c' → c.hash = c'.hash → c = c'
  membership : ∀ m m', K.memberships m → K.memberships m' → m.digest = m'.digest → m = m'
  nonzero : ∀ m, K.memberships m → m.digest ≠ .zero

def Known.Covers (K : Known) (w : World Recorder) : Action Conduct RecorderEvent → Prop
  | .start engine _ _ _ => K.memberships engine.membership
  | .deliver _ _ _ => ∀ call ∈ w.calls, ∀ request ∈ call.requests, ∀ command,
      request.command = some command → K.commands command
  | .occur _ (.storeCommand _ _ command) => K.commands command
  | .occur k (.installSuccessor _ membership _) => K.memberships membership ∧
      ∀ configId command, (w.recorders k).view.successorStop membership configId = .ok command →
        K.commands command
  | _ => True

theorem coherent_of_covers {K : Known} (hK : K.Distinct) {G : Group}
    (hG : K.memberships G.membership) {w : World Recorder} {a : Action Conduct RecorderEvent}
    (h : K.Covers w a) : Coherent G a := by
  cases a with
  | start engine slot proposal command =>
    intro hContext
    exact hK.membership _ _ h hG (congrArg Context.configDigest hContext)
  | _ => trivial

structure Known.Vets (K : Known) (r : Recorder) : Prop where
  commands : ∀ hash command, r.commands hash = some command → K.commands command
  memberships : ∀ c ∈ r.history, ∃ membership, K.memberships membership ∧
    c.membership = some membership ∧ c.configDigest = membership.digest

def Known.CoversMove (K : Known) (r : Recorder) : Move → Prop
  | .store _ command => K.commands command
  | .record request => ∀ command, request.command = some command → K.commands command
  | .install _ _ => True
  | .succeed membership _ => K.memberships membership ∧ ∀ configId command,
      r.view.successorStop membership configId = .ok command → K.commands command
  | .activate .. => True

theorem coversMove_of_causes {K : Known} {w : World Recorder} {a : Action Conduct RecorderEvent}
    {k : NodeId} {move : Move} (h : K.Covers w a) (hCauses : Causes w a k move) :
    K.CoversMove (w.recorders k) move := by
  cases move with
  | store hash command =>
    obtain ⟨conduct, rfl⟩ := hCauses
    exact h
  | record request =>
    obtain ⟨⟨index, worker, conduct, rfl⟩, call, hCall, hRequest⟩ := hCauses
    exact h call hCall request hRequest
  | install proof membership => trivial
  | succeed membership stopProof =>
    obtain ⟨conduct, rfl⟩ := hCauses
    exact h
  | activate => trivial

variable {K : Known} {r r' : Recorder} {move : Move}

theorem successorStop_of_succeeds {v : RecorderView} {membership : Membership}
    {stopProof : DecisionProof} {installed : ConfigurationState} {stopCommand : StoredCommand}
    (h : v.Succeeds membership stopProof installed stopCommand) :
    v.successorStop membership installed.configId = .ok stopCommand := by
  obtain ⟨successor, hSuccessor, rfl⟩ := h.stop
  simp [RecorderView.successorStop, ConfigChange.newBoundStop, hSuccessor, okOr, bind, Except.bind]

omit [Sha256] in
theorem commands_keepCommand {replaces : Bool} {hash hash' : LogHash}
    {command command' : StoredCommand}
    (h : (r.keepCommand replaces hash command).commands hash' = some command') :
    r.commands hash' = some command' ∨ command' = command := by
  unfold keepCommand at h
  split at h
  · exact .inl h
  · by_cases hEq : hash' = hash
    · subst hEq
      simp only [Function.update_self] at h
      exact .inr (Option.some.inj h).symm
    · simp only [Function.update_of_ne hEq] at h
      exact .inl h

theorem Known.Vets.takes (h : K.Vets r) (hTakes : Takes r move r') (hMove : K.CoversMove r move) :
    K.Vets r' where
  commands hash command hCommand := by
    cases hTakes with
    | idle => exact h.commands hash command hCommand
    | store hHash hAbsent =>
      rcases commands_keepCommand hCommand with hOld | rfl
      · exact h.commands hash command hOld
      · exact hMove
    | stage replaces hPasses hOwn =>
      rcases commands_keepCommand hCommand with hOld | rfl
      · exact h.commands hash command hOld
      · exact hMove _ hOwn
    | @record request value _ change state transition replaces hPasses hLoad hRecords =>
      rw [apply_commands, hRecords.command_eq] at hCommand
      cases hOwn : request.command with
      | none =>
        rw [hOwn] at hCommand
        exact h.commands hash command hCommand
      | some own =>
        rw [hOwn] at hCommand
        rcases commands_keepCommand hCommand with hOld | rfl
        · exact h.commands hash command hOld
        · exact hMove _ hOwn
    | install replaces hLoad hInstalls =>
      rw [apply_commands, hInstalls.command_eq] at hCommand
      exact h.commands hash command hCommand
    | stageStop hSucceeds hStored =>
      rcases commands_keepCommand hCommand with hOld | rfl
      · exact h.commands hash command hOld
      · exact hMove.2 _ _ (successorStop_of_succeeds hSucceeds)
    | succeed hSucceeds hStored =>
      rcases commands_keepCommand hCommand with hOld | rfl
      · exact h.commands hash command hOld
      · exact hMove.2 _ _ (successorStop_of_succeeds hSucceeds)
    | activate => exact h.commands hash command hCommand
  memberships c hc := by
    rcases takes_history hTakes with ⟨hRetired, hSame⟩ |
      ⟨membership, stopProof, stopCommand, rfl, hSucceeds, hRetired, -⟩
    · rcases List.mem_cons.mp hc with rfl | hOld
      · rw [hSame.membership_eq, hSame.configDigest_eq]
        exact h.memberships _ List.mem_cons_self
      · exact h.memberships c (List.mem_cons_of_mem _ (hRetired ▸ hOld))
    · rcases List.mem_cons.mp hc with rfl | hOld
      · refine ⟨membership, hMove.1, ?_, ?_⟩ <;> rw [hSucceeds.installed_eq]
      · rw [hRetired] at hOld
        exact h.memberships c hOld

theorem Known.Vets.run {G₀ : Group} {allowed : World Recorder → Action Conduct RecorderEvent → Prop}
    (hG₀ : K.memberships G₀.membership) (hCovers : ∀ w a, allowed w a → K.Covers w a)
    {w : World Recorder} (h : Run World.step allowed (World.init G₀.fresh) w) (k : NodeId) :
    K.Vets (w.recorders k) := by
  refine h.invariant (P := fun w => ∀ k, K.Vets (w.recorders k)) ?_ ?_ k
  · intro k
    constructor
    · intro hash command hCommand
      cases hCommand
    · intro c hc
      obtain rfl := List.mem_singleton.mp hc
      exact ⟨G₀.membership, hG₀, rfl, rfl⟩
  · intro w a w' hVets hAllowed hStep k
    rcases step_recorders hStep k with hSame | ⟨move, hTakes, hCauses⟩
    · rw [hSame]
      exact hVets k
    · exact (hVets k).takes hTakes (coversMove_of_causes (hCovers w a hAllowed) hCauses)

end Covers

section Seals

variable [Sha256]

def Recorder.SealedFor (r : Recorder) (configId : Nat) (configDigest : LogHash)
    (mark : ConfigurationSeal) : Prop :=
  ∃ c ∈ r.history, c.configId = configId ∧ c.configDigest = configDigest ∧ c.sealed = some mark

theorem Recorder.SealedFor.takes {r r' : Recorder} {move : Move} {configId : Nat}
    {configDigest : LogHash} {mark : ConfigurationSeal}
    (h : r.SealedFor configId configDigest mark) (hTakes : Takes r move r') :
    r'.SealedFor configId configDigest mark ∨ ∃ proof membership value,
      move = .install proof membership ∧ proof.context = ⟨configId, configDigest, mark.stopSlot⟩ ∧
      proof.proposal.value = some value ∧ value.commandHash ≠ mark.commandHash ∧
      ∃ state, r.load mark.stopSlot proof.configDigest = .ok state ∧
        state.decidedProof = none := by
  obtain ⟨c, hc, hId, hDigest, hSealed⟩ := h
  have hCurrent : ∀ {next : Recorder}, next.retired = r.retired →
      SameInstallation r.configuration next.configuration →
      (r.configuration.sealed = some mark → next.configuration.sealed = some mark) →
      next.SealedFor configId configDigest mark := by
    intro next hRetired hSame hKept
    rcases List.mem_cons.mp hc with rfl | hOld
    · exact ⟨_, List.mem_cons_self, hSame.configId_eq.trans hId, hSame.configDigest_eq.trans hDigest,
        hKept hSealed⟩
    · exact ⟨c, List.mem_cons_of_mem _ (hRetired ▸ hOld), hId, hDigest, hSealed⟩
  cases hTakes with
  | idle => exact .inl ⟨c, hc, hId, hDigest, hSealed⟩
  | store => exact .inl (hCurrent (by simp) (by simpa using .refl _) (by simp))
  | stage => exact .inl (hCurrent (by simp) (by simpa using .refl _) (by simp))
  | @record request value command change state transition replaces hPasses hLoad hRecords =>
    left
    refine hCurrent (by simp) (Applied.sameInstallation hRecords.applied) fun hMark => ?_
    apply hRecords.applied.kept
    rw [show r.view.configuration.sealed = some mark from hMark]
    apply sealAfterProof_eq_some
    rw [show (RecorderView.nextState state request).decidedProof = none from hRecords.undecided]
    simp
  | @install proof membership value command change state transition replaces hLoad hInstalls =>
    obtain ⟨hSlot, -⟩ := load_eq_ok hLoad
    obtain ⟨decided, hState, -⟩ := hInstalls.installed
    rcases List.mem_cons.mp hc with rfl | hOld
    · by_cases hConflict : mark.stopSlot = transition.state.slot ∧
        value.commandHash ≠ mark.commandHash
      · have hHere : mark.stopSlot = proof.slot := by rw [hConflict.1, hState, hSlot]
        refine .inr ⟨proof, membership, value, rfl, ?_, hInstalls.value_eq, hConflict.2, state,
          hHere ▸ hLoad, hInstalls.undecided⟩
        rw [DecisionProof.context, hInstalls.config_eq, hInstalls.digest_eq, hConflict.1, hState, hSlot]
        exact congrArg₂ (fun i d => Context.mk i d _) hId hDigest
      · left
        refine hCurrent (by simp) (Applied.sameInstallation hInstalls.applied) fun hMark => ?_
        apply hInstalls.applied.kept
        rw [show r.view.configuration.sealed = some mark from hMark]
        exact sealAfterProof_eq_some fun h => hConflict h.2
    · exact .inl ⟨c, List.mem_cons_of_mem _ (by simpa using hOld), hId, hDigest, hSealed⟩
  | stageStop => exact .inl (hCurrent (by simp) (by simpa using .refl _) (by simp))
  | succeed => exact .inl ⟨c, List.mem_cons_of_mem _ hc, hId, hDigest, hSealed⟩
  | activate => exact .inl (hCurrent rfl ⟨rfl, rfl, rfl, rfl⟩ id)

def Known.StopValue (K : Known) (G : Group) (slot : Nat) (value : AcceptedValue) : Prop :=
  ∃ command change, K.commands command ∧ changeForCommand command = .ok (some change) ∧
    change.isStop ∧ AcceptedValue.fromCommand G.clusterId slot G.epoch G.configId value.prevHash
      command = value

def AcceptedValue.mark (slot : Nat) (value : AcceptedValue) : ConfigurationSeal :=
  ⟨slot, value.commandHash, value.entryHash⟩

def Stopped (K : Known) (G : Group) (slot : Nat) (w : World Recorder) (k : NodeId) (p : Proposal) :
    Prop :=
  ∀ value, p.value = some value → K.StopValue G slot value →
    (w.recorders k).SealedFor G.configId G.membership.digest (value.mark slot) ∨
    ∃ proof ∈ w.formed, proof.context = G.context slot ∧
      ∃ other, proof.value = some other ∧ other.commandHash ≠ value.commandHash

theorem formed_of_step {w w' : World Recorder} {a : Action Conduct RecorderEvent}
    (h : w.step a = some w') {proof : DecisionProof} (hProof : proof ∈ w.formed) :
    proof ∈ w'.formed := by
  cases a with
  | start engine slot proposal command =>
    obtain rfl := Option.some.inj h
    exact hProof
  | broadcast index fetched sample =>
    obtain rfl | ⟨driver, -, progress, requests, -, rfl⟩ := World.step_broadcast h
    · exact hProof
    · exact hProof
  | deliver index worker conduct =>
    obtain ⟨call, j, request, -, -, -, rfl⟩ := World.step_deliver h
    exact hProof
  | resume index saturatedWorkers arrivals fetched installs =>
    obtain ⟨call, answers, -, -, rfl⟩ := World.step_resume h
    exact List.mem_append_left _ hProof
  | install j conduct proof membership =>
    obtain rfl := Option.some.inj h
    exact hProof
  | inspect j conduct slot =>
    obtain rfl := Option.some.inj h
    exact hProof
  | occur j event =>
    obtain rfl := Option.some.inj h
    exact hProof
  | openFence engine slot =>
    obtain rfl := World.step_openFence h
    exact hProof
  | observe index worker conduct =>
    obtain ⟨fence, j, -, -, rfl⟩ := World.step_observe h
    exact hProof
  | closeFence index saturated arrivals =>
    obtain ⟨fence, results, -, -, -, rfl | ⟨-, rfl⟩⟩ := World.step_closeFence h
    · exact hProof
    · exact hProof

theorem Stopped.step {K : Known} {G : Group} {slot : Nat} {w w' : World Recorder} {k : NodeId}
    {p : Proposal} (h : Stopped K G slot w k p) {a : Action Conduct RecorderEvent}
    (hInstalls : InstallsFormed w a) (hStep : w.step a = some w') : Stopped K G slot w' k p := by
  intro value hValue hStop
  rcases h value hValue hStop with hSealed | ⟨proof, hProof, hRest⟩
  · rcases step_recorders hStep k with hSame | ⟨move, hTakes, hCauses⟩
    · exact .inl (hSame ▸ hSealed)
    · rcases hSealed.takes hTakes with hKept |
        ⟨proof, membership, other, rfl, hContext, hOther, hNe, -⟩
      · exact .inl hKept
      · obtain ⟨conduct, rfl⟩ := hCauses
        exact .inr ⟨proof, formed_of_step hStep hInstalls, hContext, other, hOther, hNe⟩
  · exact .inr ⟨proof, formed_of_step hStep hProof, hRest⟩

theorem digest_of_passes {K : Known} (hK : K.Distinct) {r : Recorder} (hVets : K.Vets r)
    {request : RecordRequest} {value : AcceptedValue} {command : StoredCommand}
    {change : Option ConfigChange} (hPasses : r.view.Passes request value command change) :
    r.configuration.configDigest = request.configDigest := by
  obtain ⟨membership, hKnown, -, hDigest⟩ := hVets.memberships _ List.mem_cons_self
  refine (hPasses.digest_eq ?_).symm
  change r.configuration.configDigest ≠ .zero
  rw [hDigest]
  exact hK.nonzero membership hKnown

theorem known_of_passes {K : Known} {r : Recorder} (hVets : K.Vets r) {request : RecordRequest}
    (hMove : K.CoversMove r (.record request)) {value : AcceptedValue} {command : StoredCommand}
    {change : Option ConfigChange} (hPasses : r.view.Passes request value command change) :
    K.commands command := by
  rcases hPasses.source with hOwn | ⟨-, hStored⟩
  · exact hMove command hOwn
  · exact hVets.commands _ _ (Except.ok.inj hStored)

theorem stopped_of_accepts {K : Known} (hK : K.Distinct) {G : Group} {slot : Nat}
    {w w' : World Recorder} {a : Action Conduct RecorderEvent} {k : NodeId} {p : Proposal}
    (hVets : K.Vets (w.recorders k)) (hCovers : K.Covers w a)
    (h : Tracks.AcceptedBy G slot w a w' k p) : Stopped K G slot w' k p := by
  rintro value hValue ⟨command, change, hKnown, hChange, hIsStop, hCommand⟩
  obtain ⟨index, worker, conduct, request, rfl, hRequest, rfl, ⟨call, hCall, hMem⟩, hRecorder,
    hAccepts⟩ := h
  obtain ⟨value', command', change', state, t, replaces, hPasses, hLoad, hRecords, hDone⟩ :=
    record_of_accepts hAccepts
  obtain rfl := Option.some.inj (hValue.symm.trans hPasses.value_eq)
  -- the recorder has resolved the value to the stop itself
  have hHash : command'.hash = command.hash :=
    hPasses.hash_eq.trans (congrArg AcceptedValue.commandHash hCommand).symm
  obtain rfl := hK.command _ _ (known_of_passes hVets (hCovers call hCall request hMem) hPasses)
    hKnown hHash
  obtain rfl : change' = some change := by
    simpa using hPasses.change_eq.symm.trans hChange
  obtain ⟨hSlot, -⟩ := load_eq_ok hLoad
  refine .inl ?_
  rw [hRecorder]
  change (Recorder.record _ _ _).1.SealedFor _ _ _
  rw [hDone]
  refine ⟨t.configuration, List.mem_cons_self, ?_, ?_, ?_⟩
  · rw [hRecords.applied.configId_eq]
    exact hPasses.config_eq.symm.trans (congrArg Context.configId hRequest)
  · rw [hRecords.applied.configDigest_eq]
    exact (digest_of_passes hK hVets hPasses).trans (congrArg Context.configDigest hRequest)
  · rw [hRecords.applied.stopped (by simpa using hIsStop)]
    have hAt : (RecorderView.nextState state request).slot = slot :=
      hSlot.trans (congrArg Context.slot hRequest)
    rw [hAt]
    rfl

end Seals

section Ends

variable [Sha256] {K : Known} {G₀ G : Group} {w : World Recorder}

def Proper (K : Known) (w : World Recorder) (a : Action Conduct RecorderEvent) : Prop :=
  InstallsFormed w a ∧ K.Covers w a

theorem agree_of_proper (hK : K.Distinct) (hG : K.memberships G.membership)
    (hRun : Run World.step (Proper K) (World.init G₀.fresh) w) {slot : Nat}
    (hUnique : w.FastPathUnique G slot) {p q : DecisionProof} (hp : p ∈ w.formed)
    (hq : q ∈ w.formed) (hpContext : p.context = G.context slot)
    (hqContext : q.context = G.context slot) : p.value = q.value := by
  obtain ⟨L, hTracks⟩ := Tracks.run (fun _ _ h => coherent_of_covers hK hG h.2)
    (fun k => G₀.register_fresh k _) hRun
  exact hTracks.agree (hTracks.fastUnique_of_reports hUnique) hp hq hpContext hqContext

theorem sealed_of_formed (hK : K.Distinct) (hG₀ : K.memberships G₀.membership)
    (hG : K.memberships G.membership) (hRun : Run World.step (Proper K) (World.init G₀.fresh) w)
    {slot : Nat} (hUnique : w.FastPathUnique G slot) {proof : DecisionProof}
    (hProof : proof ∈ w.formed) (hContext : proof.context = G.context slot)
    {value : AcceptedValue} (hValue : proof.value = some value) (hStop : K.StopValue G slot value) :
    ∃ Q, G.Quorum Q ∧ ∀ k ∈ Q,
      (w.recorders k).SealedFor G.configId G.membership.digest (value.mark slot) := by
  have hVets : ∀ {w}, Run World.step (Proper K) (World.init G₀.fresh) w → ∀ k,
      K.Vets (w.recorders k) := fun hRun => Known.Vets.run hG₀ (fun _ _ h => h.2) hRun
  obtain ⟨-, L, hTracks, hBound⟩ := Tracks.run_bound G slot
    (Run World.step (Proper K) (World.init G₀.fresh)) (Stopped K G slot) .refl
    (fun k => G₀.register_fresh k _) (fun _ _ h => coherent_of_covers hK hG h.2)
    (fun w a w' hHere hAllowed hStep => ⟨.step a hHere hAllowed hStep,
      fun k p hp => hp.step hAllowed.1 hStep,
      fun k p hAccepted => stopped_of_accepts hK (hVets hHere k) hAllowed.2 hAccepted⟩) hRun
  obtain ⟨Q, hQuorum, hAccepted⟩ := quorum_of_decides (hTracks.formed proof hProof hContext)
  refine ⟨Q, hQuorum, fun k hk => ?_⟩
  obtain ⟨s, hs⟩ := hAccepted k hk
  rcases hBound k s _ hs value hValue hStop with hSealed | ⟨other, hOther, hOtherContext, v, hv, hNe⟩
  · exact hSealed
  · have hSame := agree_of_proper hK hG hRun hUnique hProof hOther hContext hOtherContext
    rw [hValue, hv] at hSame
    exact absurd (congrArg AcceptedValue.commandHash (Option.some.inj hSame)).symm hNe

theorem slot_le_of_stop (hK : K.Distinct) (hG₀ : K.memberships G₀.membership)
    (hG : K.memberships G.membership) (hRun : Run World.step (Proper K) (World.init G₀.fresh) w)
    {slot : Nat} (hUnique : w.FastPathUnique G slot) {stop proof : DecisionProof}
    (hStop : stop ∈ w.formed) (hStopContext : stop.context = G.context slot)
    {value : AcceptedValue} (hValue : stop.value = some value)
    (hStopValue : K.StopValue G slot value) (hProof : proof ∈ w.formed)
    (hContext : proof.context = G.context proof.slot) : proof.slot ≤ slot := by
  obtain ⟨Q, hQuorum, hSealed⟩ := sealed_of_formed hK hG₀ hG hRun hUnique hStop hStopContext hValue
    hStopValue
  obtain ⟨Q', hQuorum', hReached⟩ := reached_of_formed
    (fun _ _ h => coherent_of_covers hK hG h.2) hRun hProof hContext
  -- a recorder of both quorums has its seal as its last slot and yet reached the decision
  obtain ⟨k, hk, hk'⟩ := Majority.intersect hQuorum hQuorum'
  obtain ⟨c, hc, hId, -, hMark⟩ := hSealed k hk
  obtain ⟨c', hc', hId', m, hMax, hm⟩ := hReached k hk'
  have hSound := sound_run hRun k
  obtain rfl := hSound.eq_of_configId hc hc' (hId.trans hId'.symm)
  have hLast := hSound.sealedLast c hc _ hMark
  obtain rfl := Option.some.inj (hMax.symm.trans hLast)
  exact hm

end Ends

section Returned

variable [Sha256] {K : Known} {G₀ G : Group}

def SealsInstalled (K : Known) (G : Group) (r : Recorder) : Prop :=
  ∀ slot state proof value, r.slots slot = some state → state.decidedProof = some proof →
    proof.context = G.context slot → proof.value = some value → K.StopValue G slot value →
    r.SealedFor G.configId G.membership.digest (value.mark slot)

theorem sealed_of_installs (hK : K.Distinct) {r : Recorder} (hVets : K.Vets r)
    {proof : DecisionProof} {membership : Membership} {value : AcceptedValue}
    {command : StoredCommand} {change : Option ConfigChange} {state : RecorderSlotState}
    {transition : Transition}
    (hInstalls : r.view.Installs proof membership value command change state transition)
    {slot : Nat} (hStop : K.StopValue G slot value) :
    transition.configuration.sealed =
      some ⟨transition.state.slot, value.commandHash, value.entryHash⟩ := by
  obtain ⟨stop, stopChange, hKnown, hChange, hIsStop, hCommand⟩ := hStop
  have hHash : command.hash = stop.hash :=
    hInstalls.hash_eq.trans (congrArg AcceptedValue.commandHash hCommand).symm
  obtain rfl := hK.command _ _ (hVets.commands _ _ (Except.ok.inj hInstalls.stored)) hKnown hHash
  obtain rfl : change = some stopChange := by
    simpa using hInstalls.change_eq.symm.trans hChange
  exact hInstalls.applied.stopped (by simpa using hIsStop)

theorem SealsInstalled.takes (hK : K.Distinct) {r r' : Recorder} {move : Move}
    (h : SealsInstalled K G r) (hVets : K.Vets r) (hTakes : Takes r move r') :
    SealsInstalled K G r' := by
  intro slot state proof value hState hProof hContext hValue hStop
  rcases takes_slots hTakes hState with hOld | ⟨request, -, -, -, old, -, -, -, -, hUndecided, -, rfl⟩ |
    ⟨installed, membership, value', command, change, old, transition, -, hSlot, hLoad, hInstalls,
      hConfiguration, rfl⟩
  · rcases (h slot state proof value hOld hProof hContext hValue hStop).takes hTakes with hKept |
      ⟨other, -, -, -, -, -, -, old, hLoad, hUndecided⟩
    · exact hKept
    · -- a conflicting proof would have to be installed over this one
      refine absurd rfl (slot_ne_of_load hLoad hOld ?_)
      rintro rfl
      cases hUndecided.symm.trans hProof
  · cases hUndecided.symm.trans hProof
  · obtain ⟨decided, hNext, -⟩ := hInstalls.installed
    rw [hNext] at hProof
    obtain rfl := Option.some.inj hProof
    obtain rfl := Option.some.inj (hValue.symm.trans hInstalls.value_eq)
    obtain ⟨hAt, -⟩ := load_eq_ok hLoad
    have hSealed := sealed_of_installs hK hVets hInstalls hStop
    rw [hNext] at hSealed
    refine ⟨_, List.mem_cons_self, ?_, ?_, ?_⟩
    · rw [hConfiguration, hInstalls.applied.configId_eq]
      exact hInstalls.config_eq.symm.trans (congrArg Context.configId hContext)
    · rw [hConfiguration, hInstalls.applied.configDigest_eq]
      exact hInstalls.digest_eq.symm.trans (congrArg Context.configDigest hContext)
    · rw [hConfiguration, hSealed]
      change some (ConfigurationSeal.mk old.slot _ _) = _
      rw [hAt, hSlot]
      rfl

def Known.Finds (K : Known) (w : World Recorder) : Action Conduct RecorderEvent → Prop
  | .resume _ _ _ fetched _ => (∀ call ∈ w.calls, K.memberships call.engine.membership ∧
      ∀ command, call.progress.command = some command → K.commands command) ∧
      ∀ command, .ok (some command) ∈ fetched.results → K.commands command
  | _ => True

def Returning (K : Known) (w : World Recorder) (a : Action Conduct RecorderEvent) : Prop :=
  Proper K w a ∧ InstallsHeld w a ∧ K.Finds w a

def HeldByQuorum (G : Group) (slot : Nat) (w : World Recorder) (proof : DecisionProof) : Prop :=
  ∃ Q, G.Quorum Q ∧ ∀ k ∈ Q, ∃ state, (w.recorders k).slots slot = some state ∧
    state.decidedProof = some proof

theorem HeldByQuorum.step {slot : Nat} {w w' : World Recorder} {proof : DecisionProof}
    {a : Action Conduct RecorderEvent} (h : HeldByQuorum G slot w proof)
    (hStep : w.step a = some w') : HeldByQuorum G slot w' proof := by
  obtain ⟨Q, hQuorum, hHeld⟩ := h
  refine ⟨Q, hQuorum, fun k hk => ?_⟩
  obtain ⟨state, hState, hProof⟩ := hHeld k hk
  rcases step_recorders hStep k with hSame | ⟨move, hTakes, -⟩
  · exact ⟨state, hSame ▸ hState, hProof⟩
  · exact takes_decidedProof hTakes hState hProof

end Returned

/-! Runs of three recorders on fixed inputs, with a test of what a step may do. -/

namespace Trio

variable [Sha256]

def known (commands : List StoredCommand) (memberships : List Membership) : Known :=
  ⟨(· ∈ commands), (· ∈ memberships)⟩

def holdsProof (r : Recorder) (proof : DecisionProof) : Bool :=
  (r.slots proof.slot).any (·.decidedProof = some proof)

def stopCommand (r : Recorder) (membership : Membership) : Option StoredCommand :=
  (checkedSucc r.configuration.configId).bind fun configId =>
    (r.view.successorStop membership configId).toOption

def permits (commands : List StoredCommand) (memberships : List Membership) (w : World Recorder) :
    Action Conduct RecorderEvent → Bool
  | .start engine _ _ _ => engine.membership ∈ memberships
  | .deliver _ _ _ => w.calls.all fun call => call.requests.all fun request =>
      request.command.all (· ∈ commands)
  | .resume index saturatedWorkers arrivals fetched installs =>
    (w.calls.all fun call => call.engine.membership ∈ memberships ∧
      call.progress.command.all (· ∈ commands)) &&
    (fetched.results.all fun result => result.toOption.join.all (· ∈ commands)) &&
    ((w.calls[index]?).all fun call => (arrivals.mapM (w.arrive index)).all fun results =>
      match (call.engine.driveReplies call.progress ⟨saturatedWorkers, results⟩ fetched
        installs).2 with
      | .ok (.decision proof) => installs.results.countP (·.isOk) ≤
          (call.engine.membership.members.filter fun k =>
            holdsProof (w.recorders k) proof).length
      | _ => true)
  | .install _ _ proof _ => proof ∈ w.formed
  | .occur _ (.storeCommand _ _ command) => command ∈ commands
  | .occur k (.installSuccessor _ membership proof) => membership ∈ memberships ∧
      proof ∈ w.formed ∧ (stopCommand (w.recorders k) membership).all (· ∈ commands)
  | .occur _ (.recoverActivation ..) => false
  | _ => true

variable {commands : List StoredCommand} {memberships : List Membership} {w : World Recorder}
  {a : Action Conduct RecorderEvent}

theorem mem_of_successorStop {r : Recorder} {membership : Membership} {configId : Nat}
    {command : StoredCommand} (h : r.view.successorStop membership configId = .ok command)
    (hAll : (stopCommand r membership).all (· ∈ commands)) : command ∈ commands := by
  obtain ⟨change, hChange, -⟩ := bind_ok_iff.mp h
  obtain ⟨successor, hSuccessor, -⟩ := Option.map_eq_some_iff.mp (okOr_eq_ok.mp hChange)
  have hNext : checkedSucc r.configuration.configId = some configId := by
    unfold SuccessorDescriptor.new at hSuccessor
    simp only [Option.dite_none_right_eq_some] at hSuccessor
    obtain ⟨-, -, hNext, -⟩ := hSuccessor
    exact hNext
  simpa [stopCommand, hNext, h, Except.toOption] using hAll

theorem covers_of_permits (h : permits commands memberships w a) :
    (known commands memberships).Covers w a := by
  cases a with
  | start engine slot proposal command =>
    exact of_decide_eq_true (p := engine.membership ∈ memberships) h
  | deliver index worker conduct =>
    intro call hCall request hRequest command hCommand
    have hAll := List.all_eq_true.mp (List.all_eq_true.mp h call hCall) request hRequest
    rw [hCommand] at hAll
    exact of_decide_eq_true (p := command ∈ commands) hAll
  | occur k event =>
    cases event with
    | storeCommand conduct hash command =>
      exact of_decide_eq_true (p := command ∈ commands) h
    | installSuccessor conduct membership proof =>
      simp only [permits, decide_eq_true_eq] at h
      exact ⟨h.1, fun configId command hCommand => mem_of_successorStop hCommand h.2.2⟩
    | recoverActivation => trivial
  | _ => trivial

theorem returning_of_permits (h : permits commands memberships w a) :
    Returning (known commands memberships) w a := by
  refine ⟨⟨?_, covers_of_permits h⟩, ?_, ?_⟩
  · cases a with
    | install k conduct proof membership => exact of_decide_eq_true (p := proof ∈ w.formed) h
    | _ => trivial
  · cases a with
    | resume index saturatedWorkers arrivals fetched installs =>
      intro call results proof hCall hResults hReturned
      simp only [permits, hCall, hResults, hReturned, Bool.and_eq_true, Option.all_some,
        decide_eq_true_eq] at h
      refine ⟨_, call.engine.membership.nodup.filter _, fun k hk => ?_, h.2⟩
      obtain ⟨hMember, hHolds⟩ := List.mem_filter.mp hk
      obtain ⟨state, hState, hProof⟩ := (Option.any_eq_true _ _).mp hHolds
      exact ⟨hMember, proof.slot, state, hState, of_decide_eq_true hProof⟩
    | _ => trivial
  · cases a with
    | resume index saturatedWorkers arrivals fetched installs =>
      simp only [permits, Bool.and_eq_true] at h
      constructor
      · intro call hCall
        have hAll := List.all_eq_true.mp h.1.1 call hCall
        simp only [decide_eq_true_eq] at hAll
        refine ⟨hAll.1, fun command hCommand => ?_⟩
        rw [hCommand] at hAll
        exact of_decide_eq_true (p := command ∈ commands) hAll.2
      · intro command hCommand
        exact of_decide_eq_true (p := command ∈ commands) (List.all_eq_true.mp h.1.2 _ hCommand)
    | _ => trivial

def offer (G : Group) (proposerId : NodeId) (proposalId slot : Nat) (command : StoredCommand)
    (_ : World Recorder) : Option (Action Conduct RecorderEvent) :=
  some (.start ⟨G, proposerId⟩ slot ⟨.max, proposerId, proposalId,
    some (.fromCommand G.clusterId slot G.epoch G.configId .zero command)⟩ (some command))

def broadcast (driver : Nat) (_ : World Recorder) : Option (Action Conduct RecorderEvent) :=
  some (.broadcast driver (fetch []) (priority 5))

def deliver (call worker : Nat) (_ : World Recorder) : Option (Action Conduct RecorderEvent) :=
  some (.deliver call worker .good)

/-- The call continues with the answers, and so many recorders have installed its proof. -/
def finish (call : Nat) (answers : List Nat) (installed : Nat) (_ : World Recorder) :
    Option (Action Conduct RecorderEvent) :=
  some (.resume call [false, false, false] (answers.map .answer) (fetch [])
    ⟨0, List.replicate installed (.ok ())⟩)

def install (k : NodeId) (position : Nat) (w : World Recorder) :
    Option (Action Conduct RecorderEvent) :=
  w.formed[position]?.map fun proof => .install k .good proof group.membership

def successor (membership : Membership) : SuccessorDescriptor where
  clusterId := group.clusterId
  predecessorConfigId := group.configId
  predecessorConfigDigest := group.membership.digest
  configId := 2
  members := membership.members
  clusterNamed := by decide
  clusterBounded := by decide +kernel
  next := by decide
  canonical := membership.canonical

def stop (membership : Membership) : StoredCommand :=
  (ConfigChange.boundStop (successor membership)).toStoredCommand

end Trio

section Example

open scoped Trio

end Example

end Rhiza.Quepaxa
