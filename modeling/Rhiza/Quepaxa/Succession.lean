import Rhiza.Quepaxa.Stop

/-! # One log across configurations

A recorder enters a configuration by a decided stop of the one before. Where all
recorders agree on one configuration, they agree on the stop that ended it, and
so on the next configuration.
-/

namespace Rhiza.Quepaxa

open Core Library Recorder

section Links

variable [Sha256]

def SucceedsFormed (w : World Recorder) : Action Conduct RecorderEvent → Prop
  | .occur _ (.installSuccessor _ _ stopProof) => stopProof ∈ w.formed
  | _ => True

structure Linked (K : Known) (G₀ : Group) (w : World Recorder)
    (newer older : ConfigurationState) : Prop where
  next : newer.configId = older.configId + 1
  stop : ∃ stopProof ∈ w.formed, ∃ membership successor value,
    stopProof.configId = older.configId ∧ stopProof.configDigest = older.configDigest ∧
    newer.membership = some membership ∧ newer.configDigest = membership.digest ∧
    SuccessorDescriptor.new G₀.clusterId older.configId older.configDigest newer.configId
      membership.members = some successor ∧
    K.commands (ConfigChange.boundStop successor).toStoredCommand ∧
    stopProof.value = some value ∧
    AcceptedValue.fromCommand G₀.clusterId stopProof.slot G₀.epoch older.configId value.prevHash
      (ConfigChange.boundStop successor).toStoredCommand = value ∧
    newer.predecessor = some (value.mark stopProof.slot)

theorem Linked.congr {K : Known} {G₀ : Group} {w w' : World Recorder}
    {newer newer' older older' : ConfigurationState} (h : Linked K G₀ w newer older)
    (hFormed : ∀ proof ∈ w.formed, proof ∈ w'.formed) (hNewer : SameInstallation newer newer')
    (hOlder : SameInstallation older older') : Linked K G₀ w' newer' older' := by
  obtain ⟨hNext, stopProof, hProof, membership, successor, value, hRest⟩ := h
  constructor
  · rw [hNewer.configId_eq, hOlder.configId_eq]
    exact hNext
  · refine ⟨stopProof, hFormed _ hProof, membership, successor, value, ?_⟩
    rw [hNewer.membership_eq, hNewer.configDigest_eq, hNewer.predecessor_eq, hNewer.configId_eq,
      hOlder.configId_eq, hOlder.configDigest_eq]
    exact hRest

def Rooted (K : Known) (G₀ : Group) (w : World Recorder) (r : Recorder) : Prop :=
  ∀ c ∈ r.history, SameInstallation G₀.configuration c ∨
    ∃ older ∈ r.history, Linked K G₀ w c older

theorem linked_of_succeeds {K : Known} {G₀ : Group} {w : World Recorder} {r : Recorder}
    {membership : Membership} {stopProof : DecisionProof} {installed : ConfigurationState}
    {stopCommand : StoredCommand} (hProof : stopProof ∈ w.formed)
    (hMove : K.CoversMove r (.succeed membership stopProof))
    (hCluster : r.clusterId = G₀.clusterId) (hEpoch : r.epoch = G₀.epoch)
    (h : r.view.Succeeds membership stopProof installed stopCommand) :
    Linked K G₀ w installed r.configuration := by
  have hKnown := hMove.2 _ _ (successorStop_of_succeeds h)
  obtain ⟨successor, hSuccessor, rfl⟩ := h.stop
  obtain ⟨prevHash, hValue, hPredecessor⟩ := h.value_eq
  change SuccessorDescriptor.new r.clusterId _ _ _ _ = _ at hSuccessor
  change _ = some (AcceptedValue.fromCommand r.clusterId _ r.epoch r.configuration.configId _ _)
    at hValue
  change _ = some (ConfigurationSeal.mk _ _ (AcceptedValue.fromCommand r.clusterId _ r.epoch
    r.configuration.configId _ _).entryHash) at hPredecessor
  rw [hCluster] at hSuccessor
  rw [hCluster, hEpoch] at hValue hPredecessor
  refine ⟨checkedSucc_eq_some h.next, stopProof, hProof, membership, successor, _, h.config_eq,
    h.digest_eq, ?_, ?_, hSuccessor, hKnown, hValue, rfl, hPredecessor⟩ <;> rw [h.installed_eq]

theorem Rooted.takes {K : Known} {G₀ : Group} {w w' : World Recorder} {r r' : Recorder}
    {move : Move} (h : Rooted K G₀ w r) (hFormed : ∀ proof ∈ w.formed, proof ∈ w'.formed)
    (hTakes : Takes r move r') (hMove : K.CoversMove r move)
    (hStops : ∀ membership stopProof, move = .succeed membership stopProof → stopProof ∈ w.formed)
    (hCluster : r.clusterId = G₀.clusterId) (hEpoch : r.epoch = G₀.epoch) : Rooted K G₀ w' r' := by
  have hOld : ∀ c ∈ r.history, ∀ c', SameInstallation c c' →
      SameInstallation G₀.configuration c' ∨ ∃ older ∈ r'.history, Linked K G₀ w' c' older := by
    intro c hc c' hSame
    rcases h c hc with hFirst | ⟨older, hOlder, hLinked⟩
    · exact .inl (hFirst.trans hSame)
    · obtain ⟨older', hOlder', hSameOlder⟩ := exists_of_mem_history hTakes hOlder
      exact .inr ⟨older', hOlder', hLinked.congr hFormed hSame hSameOlder⟩
  intro c hc
  rcases takes_history hTakes with ⟨hRetired, hSame⟩ |
    ⟨membership, stopProof, stopCommand, rfl, hSucceeds, hRetired, -⟩
  · rcases List.mem_cons.mp hc with rfl | hMem
    · exact hOld _ List.mem_cons_self _ hSame
    · exact hOld c (List.mem_cons_of_mem _ (hRetired ▸ hMem)) c (.refl c)
  · rcases List.mem_cons.mp hc with rfl | hMem
    · refine .inr ⟨r.configuration, ?_, ?_⟩
      · exact List.mem_cons_of_mem _ (hRetired ▸ List.mem_cons_self)
      · exact linked_of_succeeds (hFormed _ (hStops _ _ rfl)) hMove hCluster hEpoch hSucceeds
    · rw [hRetired] at hMem
      exact hOld c hMem c (.refl c)

theorem Rooted.run {K : Known} {G₀ : Group}
    {allowed : World Recorder → Action Conduct RecorderEvent → Prop}
    (hCovers : ∀ w a, allowed w a → K.Covers w a)
    (hStops : ∀ w a, allowed w a → SucceedsFormed w a) {w : World Recorder}
    (h : Run World.step allowed (World.init G₀.fresh) w) (k : NodeId) :
    Rooted K G₀ w (w.recorders k) := by
  refine h.invariant_of_reachable (P := fun w => ∀ k, Rooted K G₀ w (w.recorders k)) ?_ ?_ k
  · intro k c hc
    obtain rfl := List.mem_singleton.mp hc
    exact .inl (.refl _)
  · intro w a w' hRun hRooted hAllowed hStep k
    have hFormed : ∀ proof ∈ w.formed, proof ∈ w'.formed := fun _ => formed_of_step hStep
    rcases step_recorders hStep k with hSame | ⟨move, hTakes, hCauses⟩
    · rw [hSame]
      intro c hc
      rcases hRooted k c hc with hFirst | ⟨older, hOlder, hLinked⟩
      · exact .inl hFirst
      · exact .inr ⟨older, hOlder, hLinked.congr hFormed (.refl _) (.refl _)⟩
    · obtain ⟨hCluster, hEpoch⟩ := identity_run hRun k
      refine (hRooted k).takes hFormed hTakes (coversMove_of_causes (hCovers w a hAllowed) hCauses)
        ?_ hCluster hEpoch
      rintro membership stopProof rfl
      obtain ⟨conduct, rfl⟩ := hCauses
      exact hStops w _ hAllowed

end Links

section Entered

variable [Sha256] {K : Known} {G₀ G : Group} {w : World Recorder}

def Entered (G : Group) (slot : Nat) (r : Recorder) : Prop :=
  ∃ c ∈ r.history, c.configId = G.configId ∧ c.configDigest = G.membership.digest ∧
    ∀ predecessor, c.predecessor = some predecessor → predecessor.stopSlot < slot

theorem Entered.takes {slot : Nat} {r r' : Recorder} {move : Move} (h : Entered G slot r)
    (hTakes : Takes r move r') : Entered G slot r' := by
  obtain ⟨c, hc, hId, hDigest, hAfter⟩ := h
  obtain ⟨c', hc', hSame⟩ := exists_of_mem_history hTakes hc
  refine ⟨c', hc', hSame.configId_eq.trans hId, hSame.configDigest_eq.trans hDigest, ?_⟩
  rw [hSame.predecessor_eq]
  exact hAfter

theorem entered_of_accepts (hK : K.Distinct) {slot : Nat} {w w' : World Recorder}
    {a : Action Conduct RecorderEvent} {k : NodeId} {p : Proposal}
    (hVets : K.Vets (w.recorders k)) (hStep : w.step a = some w')
    (h : Tracks.AcceptedBy G slot w a w' k p) : Entered G slot (w'.recorders k) := by
  obtain ⟨index, worker, conduct, request, rfl, hRequest, rfl, -, -, hAccepts⟩ := h
  obtain ⟨value, command, change, state, t, replaces, hPasses, hLoad, hRecords, -⟩ :=
    record_of_accepts hAccepts
  have hBefore : Entered G slot (w.recorders k) := by
    refine ⟨_, List.mem_cons_self, ?_, ?_, ?_⟩
    · exact hPasses.config_eq.symm.trans (congrArg Context.configId hRequest)
    · exact (digest_of_passes hK hVets hPasses).trans (congrArg Context.configDigest hRequest)
    · intro predecessor hPredecessor
      rw [← show request.slot = slot from congrArg Context.slot hRequest]
      exact hPasses.admitted.after predecessor hPredecessor
  rcases step_recorders hStep k with hSame | ⟨move, hTakes, -⟩
  · exact hSame ▸ hBefore
  · exact hBefore.takes hTakes

theorem entered_of_formed (hK : K.Distinct) (hG₀ : K.memberships G₀.membership)
    (hG : K.memberships G.membership) (hRun : Run World.step (Proper K) (World.init G₀.fresh) w)
    {proof : DecisionProof} (hProof : proof ∈ w.formed)
    (hContext : proof.context = G.context proof.slot) :
    ∃ k, Entered G proof.slot (w.recorders k) := by
  have hStep : ∀ w a w', Run World.step (Proper K) (World.init G₀.fresh) w → Proper K w a →
      w.step a = some w' → Run World.step (Proper K) (World.init G₀.fresh) w' ∧
      (∀ k (_ : Proposal), Entered G proof.slot (w.recorders k) →
        Entered G proof.slot (w'.recorders k)) ∧
      ∀ k p, Tracks.AcceptedBy G proof.slot w a w' k p →
        Entered G proof.slot (w'.recorders k) := by
    intro w a w' hHere hAllowed hStep
    refine ⟨.step a hHere hAllowed hStep, fun k _ hEntered => ?_, fun k p hAccepted => ?_⟩
    · rcases step_recorders hStep k with hSame | ⟨move, hTakes, -⟩
      · exact hSame ▸ hEntered
      · exact hEntered.takes hTakes
    · exact entered_of_accepts hK (Known.Vets.run hG₀ (fun _ _ h => h.2) hHere k) hStep hAccepted
  obtain ⟨-, L, hTracks, hBound⟩ := Tracks.run_bound G proof.slot
    (Run World.step (Proper K) (World.init G₀.fresh))
    (fun w k _ => Entered G proof.slot (w.recorders k)) .refl (fun k => G₀.register_fresh k _)
    (fun _ _ h => coherent_of_covers hK hG h.2) hStep hRun
  obtain ⟨Q, hQuorum, hAccepted⟩ := quorum_of_decides (hTracks.formed proof hProof hContext)
  obtain ⟨k, hk⟩ := List.exists_mem_of_ne_nil _ hQuorum.nonempty
  obtain ⟨s, hs⟩ := hAccepted k hk
  exact ⟨k, hBound k s _ hs⟩

end Entered

section Succession

variable [Sha256] {K : Known} {G₀ : Group} {w : World Recorder}

def Successive (K : Known) (w : World Recorder) (a : Action Conduct RecorderEvent) : Prop :=
  Proper K w a ∧ SucceedsFormed w a

def FastPathsUnique (K : Known) (G₀ : Group) (w : World Recorder) : Prop :=
  ∀ configId membership slot, K.memberships membership →
    w.FastPathUnique (G₀.inConfiguration configId membership) slot

variable (hK : K.Distinct) (hG₀ : K.memberships G₀.membership)
  (hRun : Run World.step (Successive K) (World.init G₀.fresh) w)
  (hUnique : FastPathsUnique K G₀ w)

include hRun in
theorem rooted (k : NodeId) : Rooted K G₀ w (w.recorders k) :=
  Rooted.run (fun _ _ h => h.1.2) (fun _ _ h => h.2) hRun k

include hRun in
theorem proper_run : Run World.step (Proper K) (World.init G₀.fresh) w :=
  hRun.mono fun _ _ h => h.1

include hRun in
theorem le_configId {k : NodeId} {c : ConfigurationState} (hc : c ∈ (w.recorders k).history) :
    G₀.configId ≤ c.configId := by
  induction hId : c.configId using Nat.strong_induction_on generalizing c with
  | _ n ih =>
    rcases rooted hRun k c hc with hFirst | ⟨older, hOlder, hLinked⟩
    · exact (hId.symm.trans hFirst.configId_eq).ge
    · have hNext := hLinked.next
      have := ih older.configId (by omega) hOlder rfl
      omega

structure EndedBy (K : Known) (G : Group) (w : World Recorder) (newer : ConfigurationState)
    (stopProof : DecisionProof) (membership : Membership) (successor : SuccessorDescriptor)
    (value : AcceptedValue) : Prop where
  formed : stopProof ∈ w.formed
  context_eq : stopProof.context = G.context stopProof.slot
  value_eq : stopProof.value = some value
  isStop : K.StopValue G stopProof.slot value
  hash_eq : (ConfigChange.boundStop successor).toStoredCommand.hash = value.commandHash
  known : K.commands (ConfigChange.boundStop successor).toStoredCommand
  members_eq : successor.members = membership.members
  membership_eq : newer.membership = some membership
  digest_eq : newer.configDigest = membership.digest
  predecessor_eq : newer.predecessor = some (value.mark stopProof.slot)

theorem Linked.endedBy {newer older : ConfigurationState} (h : Linked K G₀ w newer older)
    {membership : Membership} (hDigest : older.configDigest = membership.digest) :
    ∃ stopProof next successor value, EndedBy K (G₀.inConfiguration older.configId membership) w
      newer stopProof next successor value := by
  obtain ⟨-, stopProof, hProof, next, successor, value, hConfig, hProofDigest, hNext, hNextDigest,
    hSuccessor, hKnown, hValue, hCommand, hPredecessor⟩ := h
  refine ⟨stopProof, next, successor, value, hProof, ?_, hValue, ⟨_, .boundStop successor, hKnown, ?_,
    rfl, hCommand⟩, congrArg AcceptedValue.commandHash hCommand, hKnown,
    SuccessorDescriptor.new_eq_some next.canonical hSuccessor, hNext, hNextDigest, hPredecessor⟩
  · rw [DecisionProof.context, hConfig, hProofDigest, hDigest]
    rfl
  · have hRecognized := ConfigChange.recognize_boundStop successor
    simp only [changeForCommand, hRecognized]
    rfl

include hK hG₀ hRun hUnique in
theorem EndedBy.agree {configId : Nat} {membership : Membership}
    (hKnown : K.memberships membership) {c c' : ConfigurationState}
    {stopProof stopProof' : DecisionProof} {next next' : Membership}
    {successor successor' : SuccessorDescriptor} {value value' : AcceptedValue}
    (h : EndedBy K (G₀.inConfiguration configId membership) w c stopProof next successor value)
    (h' : EndedBy K (G₀.inConfiguration configId membership) w c' stopProof' next' successor'
      value') :
    stopProof.slot = stopProof'.slot ∧ c'.membership = c.membership ∧
      c'.configDigest = c.configDigest ∧ c'.predecessor = c.predecessor := by
  have hProper := proper_run hRun
  have hSlot : stopProof.slot = stopProof'.slot := by
    apply Nat.le_antisymm
    · exact slot_le_of_stop hK hG₀ hKnown hProper (hUnique configId membership _ hKnown) h'.formed
        h'.context_eq h'.value_eq h'.isStop h.formed h.context_eq
    · exact slot_le_of_stop hK hG₀ hKnown hProper (hUnique configId membership _ hKnown) h.formed
        h.context_eq h.value_eq h.isStop h'.formed h'.context_eq
  have hValue : value = value' := by
    have hSame := agree_of_proper hK hKnown hProper (hUnique configId membership _ hKnown) h.formed
      h'.formed h.context_eq (hSlot ▸ h'.context_eq)
    rw [h.value_eq, h'.value_eq] at hSame
    exact Option.some.inj hSame
  have hSuccessor : successor = successor' := by
    apply ConfigChange.boundStop_injective
    apply hK.command _ _ h.known h'.known
    rw [h.hash_eq, h'.hash_eq, hValue]
  have hNext : next = next' := by
    have hMembers : next.members = next'.members := by
      rw [← h.members_eq, ← h'.members_eq, hSuccessor]
    cases next
    cases next'
    cases hMembers
    rfl
  refine ⟨hSlot, ?_, ?_, ?_⟩
  · rw [h.membership_eq, h'.membership_eq, hNext]
  · rw [h.digest_eq, h'.digest_eq, hNext]
  · rw [h.predecessor_eq, h'.predecessor_eq, hValue, hSlot]

include hK hG₀ hRun hUnique in
theorem sameInstallation_of_configId {j k : NodeId} {c c' : ConfigurationState}
    (hc : c ∈ (w.recorders j).history) (hc' : c' ∈ (w.recorders k).history)
    (hId : c.configId = c'.configId) : SameInstallation c c' := by
  induction hn : c.configId using Nat.strong_induction_on generalizing c c' with
  | _ n ih =>
    have hLow : ∀ {i : NodeId} {older : ConfigurationState}, older ∈ (w.recorders i).history →
        older.configId + 1 ≠ G₀.configId := by
      intro i older hOlder hEq
      have := le_configId hRun hOlder
      omega
    rcases rooted hRun j c hc with hFirst | ⟨older, hOlder, hLinked⟩ <;>
      rcases rooted hRun k c' hc' with hFirst' | ⟨older', hOlder', hLinked'⟩
    · exact hFirst.symm.trans hFirst'
    · exact absurd (hLinked'.next.symm.trans (hId.symm.trans hFirst.configId_eq)) (hLow hOlder')
    · exact absurd (hLinked.next.symm.trans (hId.trans hFirst'.configId_eq)) (hLow hOlder)
    · have hNext := hLinked.next
      have hNext' := hLinked'.next
      have hSame := ih older.configId (by omega) hOlder hOlder' (by omega) rfl
      obtain ⟨membership, hKnown, hMembership, hDigest⟩ :=
        (Known.Vets.run hG₀ (fun _ _ h => h.1.2) hRun j).memberships older hOlder
      obtain ⟨stopProof, next, successor, value, hEnded⟩ := hLinked.endedBy hDigest
      obtain ⟨stopProof', next', successor', value', hEnded'⟩ :=
        hLinked'.endedBy (hSame.configDigest_eq.trans hDigest)
      rw [hSame.configId_eq] at hEnded'
      obtain ⟨-, hMembership, hDigest, hPredecessor⟩ :=
        hEnded.agree hK hG₀ hRun hUnique hKnown hEnded'
      exact ⟨hId.symm, hDigest, hMembership, hPredecessor⟩

include hK hG₀ hRun hUnique in
theorem stop_before_formed {G : Group} (hG : K.memberships G.membership) {proof : DecisionProof}
    (hProof : proof ∈ w.formed) (hContext : proof.context = G.context proof.slot) {k : NodeId}
    {c : ConfigurationState} (hc : c ∈ (w.recorders k).history) (hId : c.configId = G.configId)
    {predecessor : ConfigurationSeal} (hPredecessor : c.predecessor = some predecessor) :
    predecessor.stopSlot < proof.slot := by
  obtain ⟨j, c', hc', hId', -, hAfter⟩ := entered_of_formed hK hG₀ hG (proper_run hRun) hProof hContext
  have hSame := sameInstallation_of_configId hK hG₀ hRun hUnique hc hc' (hId.trans hId'.symm)
  exact hAfter predecessor (hSame.predecessor_eq.trans hPredecessor)

include hK hG₀ hRun hUnique in
theorem formed_before_stop {G : Group} (hG : K.memberships G.membership) {proof : DecisionProof}
    (hProof : proof ∈ w.formed) (hContext : proof.context = G.context proof.slot) {k : NodeId}
    {c : ConfigurationState} (hc : c ∈ (w.recorders k).history)
    (hId : c.configId = G.configId + 1) {predecessor : ConfigurationSeal}
    (hPredecessor : c.predecessor = some predecessor) : proof.slot ≤ predecessor.stopSlot := by
  obtain ⟨j, c', hc', hId', hDigest', -⟩ :=
    entered_of_formed hK hG₀ hG (proper_run hRun) hProof hContext
  rcases rooted hRun k c hc with hFirst | ⟨older, hOlder, hLinked⟩
  · cases hFirst.predecessor_eq.symm.trans hPredecessor
  · have hNext := hLinked.next
    have hSame := sameInstallation_of_configId hK hG₀ hRun hUnique hOlder hc' (by omega)
    have hDigest : older.configDigest = G.membership.digest :=
      hSame.configDigest_eq.symm.trans hDigest'
    obtain ⟨stopProof, next, successor, value, hEnded⟩ := hLinked.endedBy hDigest
    have hOlderId : older.configId = G.configId := by omega
    rw [hOlderId] at hEnded
    obtain rfl := Option.some.inj (hPredecessor.symm.trans hEnded.predecessor_eq)
    exact slot_le_of_stop (G := G₀.inConfiguration G.configId G.membership) hK hG₀ hG
      (proper_run hRun) (hUnique G.configId G.membership _ hG) hEnded.formed hEnded.context_eq
      hEnded.value_eq hEnded.isStop hProof hContext

include hK hG₀ hRun hUnique in
theorem slot_lt_of_configId_lt {G G' : Group} (hG : K.memberships G.membership)
    (hG' : K.memberships G'.membership) {p q : DecisionProof} (hp : p ∈ w.formed)
    (hq : q ∈ w.formed) (hpContext : p.context = G.context p.slot)
    (hqContext : q.context = G'.context q.slot) (hLater : G.configId < G'.configId) :
    p.slot < q.slot := by
  induction hn : G'.configId using Nat.strong_induction_on generalizing G' q with
  | _ n ih =>
    obtain ⟨i, first, hFirstMem, hFirstId, -⟩ :=
      entered_of_formed hK hG₀ hG (proper_run hRun) hp hpContext
    obtain ⟨k, c, hc, hId, -, hAfter⟩ :=
      entered_of_formed hK hG₀ hG' (proper_run hRun) hq hqContext
    rcases rooted hRun k c hc with hInitial | ⟨older, hOlder, hLinked⟩
    · have := le_configId hRun hFirstMem
      have := hInitial.configId_eq
      change c.configId = G₀.configId at this
      omega
    · have hNext := hLinked.next
      obtain ⟨membership, hKnown, -, hDigest⟩ :=
        (Known.Vets.run hG₀ (fun _ _ h => h.1.2) hRun k).memberships older hOlder
      obtain ⟨stopProof, next, successor, value, hEnded⟩ := hLinked.endedBy hDigest
      have hStop := hAfter _ hEnded.predecessor_eq
      rcases Nat.lt_or_ge G.configId older.configId with hEarlier | hSame
      · have hBefore := ih older.configId (by omega) hKnown hEnded.formed hEnded.context_eq
          hEarlier rfl
        exact hBefore.trans hStop
      · have hBefore := formed_before_stop hK hG₀ hRun hUnique hG hp hpContext hc (by omega)
          hEnded.predecessor_eq
        exact lt_of_le_of_lt hBefore hStop

end Succession

end Rhiza.Quepaxa
