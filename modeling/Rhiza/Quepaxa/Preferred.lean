import Rhiza.Quepaxa.Agreement

/-! # The preferred proposer

At step 4 the first member of the configuration sends its proposal with the
greatest priority. As long as it offers one value for the slot, the fast path
cannot contradict any other decision.
-/

namespace Rhiza.Quepaxa

open Core Library

section Runs

variable [Sha256] {R Fault Event : Type} [RecorderRpc R Fault Event]

/-- `self.proposer_id == self.membership.members()[0]`. -/
def ThreeNodeConsensus.IsPreferred (e : ThreeNodeConsensus) : Prop :=
  e.membership.members.head? = some e.proposerId

instance (e : ThreeNodeConsensus) : Decidable e.IsPreferred :=
  inferInstanceAs (Decidable (_ = _))

def NeverMax : Action Fault Event → Prop
  | .broadcast _ _ sample => ∀ recorderId, sample recorderId ≠ .ok ProposalPriority.max
  | _ => True

structure Opening (offers : List Driver) (engine : ThreeNodeConsensus)
    (progress : ProposerProgress) : Prop where
  atLeast : 4 ≤ progress.step
  cached : ∀ key p, (key, p) ∈ progress.phaseZeroPriorities → p ≠ ProposalPriority.max
  offered : progress.step = 4 → ∃ offer ∈ offers, offer.engine = engine ∧
    offer.progress.slot = progress.slot ∧
    offer.progress.proposal.value = progress.proposal.value

structure Distinguished (w : World R) : Prop where
  drivers : ∀ driver ∈ w.drivers, Opening w.offers driver.engine driver.progress
  calls : ∀ call ∈ w.calls, Opening w.offers call.engine call.progress
  requests : ∀ call ∈ w.calls, ∀ request ∈ call.requests, request.step = 4 →
    request.proposal.priority = ProposalPriority.max → call.engine.IsPreferred

omit [Sha256] in
theorem Opening.mono {offers offers' : List Driver} {engine : ThreeNodeConsensus}
    {progress : ProposerProgress} (hOffers : ∀ offer ∈ offers, offer ∈ offers')
    (h : Opening offers engine progress) : Opening offers' engine progress where
  atLeast := h.atLeast
  cached := h.cached
  offered hStep := by
    obtain ⟨offer, hOffer, hRest⟩ := h.offered hStep
    exact ⟨offer, hOffers offer hOffer, hRest⟩

omit [Sha256] in
theorem Opening.later {offers : List Driver} {engine : ThreeNodeConsensus}
    {progress : ProposerProgress} (hStep : 4 < progress.step)
    (hPriorities : progress.phaseZeroPriorities = []) : Opening offers engine progress where
  atLeast := hStep.le
  cached key p hp := by
    rw [hPriorities] at hp
    cases hp
  offered hFour := by omega

theorem Opening.turn {offers : List Driver} {engine : ThreeNodeConsensus}
    {progress next : ProposerProgress} {replies : List RecordSummary}
    (h : Opening offers engine progress) (hSlot : next.slot = progress.slot)
    (hTurn : engine.Turn progress replies next) : Opening offers engine next := by
  have hStart := h.atLeast
  cases hTurn with
  | stay hStep hProposal _ hPriorities =>
    refine ⟨hStep ▸ hStart, ?_, ?_⟩
    · rw [hPriorities]
      exact h.cached
    · rw [hSlot, hStep, hProposal]
      exact h.offered
  | jump _ _ hAhead hStep _ _ hPriorities => exact .later (by omega) hPriorities
  | advance _ hStep _ _ hPriorities => exact .later (by omega) hPriorities

namespace Distinguished

variable {w w' : World R}

omit [Sha256] in
theorem init (recorders : NodeId → R) : Distinguished (World.init recorders) where
  drivers driver h := by cases h
  calls call h := by cases h
  requests call h := by cases h

omit [Sha256] in
theorem idle (h : Distinguished w) (hOffers : w'.offers = w.offers)
    (hDrivers : w'.drivers = w.drivers) (hCalls : w'.calls = w.calls) : Distinguished w' where
  drivers driver hDriver := (h.drivers driver (hDrivers ▸ hDriver)).mono (by simp [hOffers])
  calls call hCall := (h.calls call (hCalls ▸ hCall)).mono (by simp [hOffers])
  requests call hCall := h.requests call (hCalls ▸ hCall)

omit [Sha256] in
theorem start (h : Distinguished w) (engine : ThreeNodeConsensus) (slot : Nat)
    (proposal : Proposal) (command : Option StoredCommand) :
    Distinguished { w with
      offers := w.offers ++ [⟨engine, startProgress slot proposal command⟩]
      drivers := w.drivers ++ [⟨engine, startProgress slot proposal command⟩] } where
  drivers driver hDriver := by
    rcases List.mem_append.mp hDriver with hOld | hNew
    · exact (h.drivers driver hOld).mono fun _ => List.mem_append_left _
    · obtain rfl := List.mem_singleton.mp hNew
      refine ⟨by simp, by simp, fun _ => ?_⟩
      exact ⟨_, List.mem_append_right _ (List.mem_singleton_self _), rfl, rfl, rfl⟩
  calls call hCall := (h.calls call hCall).mono fun _ => List.mem_append_left _
  requests := h.requests

omit [Sha256] in
theorem sampled_ne_max {sample : NodeId → Result ProposalPriority}
    {cached : List ((Nat × NodeId) × ProposalPriority)} {p : ProposalPriority}
    (hNever : ∀ recorderId, sample recorderId ≠ .ok ProposalPriority.max)
    (hCached : ∀ key p, (key, p) ∈ cached → p ≠ ProposalPriority.max)
    (h : ThreeNodeConsensus.Sampled sample cached p) : p ≠ ProposalPriority.max := by
  rintro rfl
  rcases h with ⟨recorderId, hSample⟩ | ⟨key, hKey⟩
  · exact hNever recorderId hSample
  · exact hCached key _ hKey rfl

theorem broadcast (h : Distinguished w) {driver : Driver} (hDriver : driver ∈ w.drivers)
    {fetched : ControlReplies (Option StoredCommand)} {sample : NodeId → Result ProposalPriority}
    (hNever : ∀ recorderId, sample recorderId ≠ .ok ProposalPriority.max)
    {progress : ProposerProgress} {requests : List RecordRequest}
    (hRequests : driver.engine.driveRequests driver.progress fetched sample =
      .ok (progress, requests)) :
    Distinguished { w with calls := w.calls ++ [⟨driver.engine, progress, requests⟩] } := by
  obtain ⟨ready, hSlot, hStep, hProposal, hPriorities, -, hBuilt⟩ :=
    ThreeNodeConsensus.driveRequests_eq_ok hRequests
  have hOpening := h.drivers driver hDriver
  have hReady : ∀ key p, (key, p) ∈ ready.phaseZeroPriorities → p ≠ ProposalPriority.max :=
    fun key p hp => hOpening.cached key p (hPriorities _ hp)
  refine ⟨h.drivers, ?_, ?_⟩
  · intro call hCall
    rcases List.mem_append.mp hCall with hOld | hNew
    · exact h.calls call hOld
    · obtain rfl := List.mem_singleton.mp hNew
      refine ⟨?_, ?_, ?_⟩
      · rw [hBuilt.step_eq, hStep]
        exact hOpening.atLeast
      · intro key p hp
        exact sampled_ne_max hNever hReady (hBuilt.cached key p hp)
      · rw [hBuilt.step_eq, hStep, hBuilt.slot_eq, hSlot, hBuilt.proposal_eq, hProposal]
        exact hOpening.offered
  · intro call hCall request hRequest hFour hMax
    rcases List.mem_append.mp hCall with hOld | hNew
    · exact h.requests call hOld request hRequest hFour hMax
    · obtain rfl := List.mem_singleton.mp hNew
      have hReadyStep : ready.step = 4 :=
        (hBuilt.requestOf request hRequest).step_eq.symm.trans hFour
      refine (hBuilt.priority request hRequest hReadyStep).resolve_right fun hSampled => ?_
      exact sampled_ne_max hNever hReady hSampled hMax

theorem resume (h : Distinguished w) {call : Call} (hCall : call ∈ w.calls)
    (answers : BroadcastReplies) (fetched : ControlReplies (Option StoredCommand))
    (installs : ControlReplies Unit) : Distinguished (w.resume call answers fetched installs) := by
  refine ⟨?_, h.calls, h.requests⟩
  intro driver hDriver
  rcases List.mem_append.mp hDriver with hOld | hNew
  · exact h.drivers driver hOld
  · obtain ⟨next, hNext, rfl⟩ := List.mem_map.mp hNew
    rw [Option.mem_toList] at hNext
    obtain ⟨outcome, hOutcome, hShape⟩ := nextProgress_eq_some hNext
    obtain ⟨hSlot, replies, -, hTurn⟩ := ThreeNodeConsensus.driveReplies_next hOutcome hShape
    exact (h.calls call hCall).turn hSlot hTurn

theorem step (h : Distinguished w) {a : Action Fault Event} (hNever : NeverMax a)
    (hStep : w.step a = some w') : Distinguished w' := by
  cases a with
  | start engine slot proposal command =>
    obtain rfl := Option.some.inj hStep
    exact h.start engine slot proposal command
  | broadcast index fetched sample =>
    rcases World.step_broadcast hStep with rfl | ⟨driver, hDriver, progress, requests, hRequests, rfl⟩
    · exact h
    · exact h.broadcast hDriver hNever hRequests
  | deliver index worker fault =>
    obtain ⟨call, k, request, -, -, -, rfl⟩ := World.step_deliver hStep
    exact h.idle rfl rfl rfl
  | resume index saturatedWorkers arrivals fetched installs =>
    obtain ⟨call, answers, hCall, -, rfl⟩ := World.step_resume hStep
    exact h.resume (List.mem_of_getElem? hCall) answers fetched installs
  | install k fault proof membership =>
    obtain rfl := Option.some.inj hStep
    exact h.idle rfl rfl rfl
  | inspect k fault slot =>
    obtain rfl := Option.some.inj hStep
    exact h.idle rfl rfl rfl
  | occur k event =>
    obtain rfl := Option.some.inj hStep
    exact h.idle rfl rfl rfl
  | openFence engine slot =>
    rw [World.step_openFence hStep]
    exact h.idle rfl rfl rfl
  | observe index worker fault =>
    obtain ⟨fence, k, -, -, rfl⟩ := World.step_observe hStep
    exact h.idle rfl rfl rfl
  | closeFence index saturated arrivals =>
    obtain ⟨fence, results, -, -, -, rfl | ⟨-, rfl⟩⟩ := World.step_closeFence hStep
    · exact h
    · exact h.idle rfl rfl rfl

theorem run {recorders : NodeId → R} {allowed : World R → Action Fault Event → Prop}
    (hNever : ∀ w a, allowed w a → NeverMax a)
    (hRun : Run World.step allowed (World.init recorders) w) : Distinguished w :=
  hRun.invariant (init recorders) fun s a _ h hAllowed hStep => h.step (hNever s a hAllowed) hStep

end Distinguished

def World.OneOffer (w : World R) (G : Group) (slot : Nat) : Prop :=
  ∀ offer ∈ w.offers, ∀ offer' ∈ w.offers,
    offer.engine.IsPreferred → offer'.engine.IsPreferred →
    offer.engine.context offer.progress.slot = G.context slot →
    offer'.engine.context offer'.progress.slot = G.context slot →
    offer.progress.proposal.value = offer'.progress.proposal.value

instance (w : World R) (G : Group) (slot : Nat) : Decidable (w.OneOffer G slot) :=
  inferInstanceAs (Decidable (∀ offer ∈ w.offers, ∀ offer' ∈ w.offers, _))

theorem Tracks.fastUnique {G : Group} {slot : Nat} {w : World R} {L : Ledger NodeId Proposal}
    (h : Tracks G slot w L) (hDistinguished : Distinguished w) (hOne : w.OneOffer G slot) :
    G.FastUnique L := by
  have hOffer : ∀ k p, L.first k 4 = some p → p.priority = ProposalPriority.max →
      ∃ offer ∈ w.offers, offer.engine.IsPreferred ∧
        offer.engine.context offer.progress.slot = G.context slot ∧
        offer.progress.proposal.value = p.value := by
    intro k p hFirst hMax
    obtain ⟨call, hCall, request, hRequest, hContext, hStep, rfl⟩ :=
      h.sent k 4 p (List.mem_of_head? hFirst)
    have hOf := h.requests call hCall request hRequest
    obtain ⟨offer, hMem, hEngine, hSlot, hValue⟩ :=
      (hDistinguished.calls call hCall).offered (hOf.step_eq.symm.trans hStep)
    refine ⟨offer, hMem, ?_, ?_, hValue.trans hOf.value_eq.symm⟩
    · rw [hEngine]
      exact hDistinguished.requests call hCall request hRequest hStep hMax
    · rw [hEngine, hSlot, ← hContext, hOf.context_eq]
  intro Q p k q hFast hFirst hLe
  have hTop := Proposal.IsTop.of_le hLe hFast.isTop
  obtain ⟨j, hj⟩ := List.exists_mem_of_ne_nil _ hFast.isQuorum.nonempty
  obtain ⟨offer, hMem, hPreferred, hContext, hValue⟩ := hOffer j p (hFast.first j hj) hFast.isTop.2
  obtain ⟨offer', hMem', hPreferred', hContext', hValue'⟩ := hOffer k q hFirst hTop.2
  rw [← hValue, ← hValue']
  exact hOne offer' hMem' offer hMem hPreferred' hPreferred hContext' hContext

/-- Any two decisions that `drive` forms in one configuration and slot carry the
same value, whatever happens to the messages, as long as sampled priorities are
below the greatest one and the preferred proposer offers one value. -/
theorem formed_decisions_agree (G : Group) (slot : Nat) {w : World IsrRecorder}
    (hRun : Run World.step (fun _ a => Coherent G a ∧ NeverMax a) (World.init G.recorders) w)
    (hOne : w.OneOffer G slot) {p q : DecisionProof} (hp : p ∈ w.formed) (hq : q ∈ w.formed)
    (hpContext : p.context = G.context slot) (hqContext : q.context = G.context slot) :
    p.value = q.value := by
  obtain ⟨L, hTracks⟩ := Tracks.run (fun _ _ h => h.1) (G.register_recorders slot) hRun
  have hDistinguished := Distinguished.run (fun _ _ h => h.2) hRun
  exact hTracks.agree (hTracks.fastUnique hDistinguished hOne) hp hq hpContext hqContext

end Runs

section TwoProposers

open scoped Trio

/-- Proposer `c` takes its own command through the slow path while the preferred
proposer is late; the preferred proposer then catches up with it. -/
def twoProposers : List (Action Unit Empty) :=
  [Trio.start "c" 1 1 3, Trio.start "a" 1 1 1, .broadcast 0 (Trio.fetch []) (Trio.priority 9),
    .deliver 0 0 (), .deliver 0 2 (), Trio.resume 0 [0, 1] [],
    .broadcast 2 (Trio.fetch []) (Trio.priority 9),
    .deliver 1 0 (), .deliver 1 2 (), Trio.resume 1 [2, 3] [],
    .broadcast 3 (Trio.fetch []) (Trio.priority 9),
    .deliver 2 0 (), .deliver 2 2 (), Trio.resume 2 [4, 5] [],
    .broadcast 1 (Trio.fetch []) (Trio.priority 5),
    .deliver 3 1 (), .deliver 3 2 (), Trio.resume 3 [6, 7] [Trio.command 3],
    .broadcast 4 (Trio.fetch []) (Trio.priority 5),
    .deliver 4 0 (), .deliver 4 2 (), Trio.resume 4 [8, 9] []]

theorem twoProposers_agree : ∃ w : World IsrRecorder,
    execute World.step (World.init Trio.group.recorders) twoProposers = some w ∧
      w.formed.length = 2 ∧ ∀ p ∈ w.formed, ∀ q ∈ w.formed,
        p.context = Trio.group.context 1 → q.context = Trio.group.context 1 →
          p.value = q.value := by
  have hEnd : (execute World.step (World.init Trio.group.recorders) twoProposers).any fun w =>
      decide (w.formed.length = 2 ∧ w.OneOffer Trio.group 1) := by
    decide +kernel
  obtain ⟨w, hw, hFormed⟩ := (Option.any_eq_true _ _).mp hEnd
  obtain ⟨hLength, hOne⟩ := of_decide_eq_true hFormed
  refine ⟨w, hw, hLength, fun p hp q hq => ?_⟩
  have hStarts : twoProposers.all (startsIn Trio.group) := by decide +kernel
  have hNine : ProposalPriority.fromU64 9 ≠ ProposalPriority.max := by decide
  have hFive : ProposalPriority.fromU64 5 ≠ ProposalPriority.max := by decide
  have hNever : ∀ a ∈ twoProposers, NeverMax a := by
    simp [twoProposers, Trio.start, Trio.resume, Trio.priority, NeverMax, hNine, hFive]
  exact formed_decisions_agree Trio.group 1
    (.of_execute (fun a ha _ => ⟨coherent_of_startsIn hStarts ha, hNever a ha⟩) hw) hOne hp hq

end TwoProposers

end Rhiza.Quepaxa
