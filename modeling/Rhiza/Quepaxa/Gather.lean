import Rhiza.Quepaxa.Preferred

/-! # The gathers of the driver find a proposal

At phase 0 `drive` takes the greatest first proposal of its quorum, and at phase 3
the greatest proposal of the step before. A recorder that skipped a step has
nothing to show of it. Some recorder of the quorum did not skip it: whoever
reached phase 3 first had a quorum at phase 2, and two quorums meet.
-/

namespace Rhiza.Quepaxa

open Core Library

section Turns

variable {G : Group} {L : Ledger NodeId Proposal} {e : ThreeNodeConsensus}
  {progress : ProposerProgress} {replies chosen : List RecordSummary}

theorem exists_first_of_standing (hMembership : e.membership = G.membership)
    (hStart : 4 ≤ progress.step)
    (hAnswered : ∀ reply ∈ replies, reply.decided = none → Answered G L progress reply)
    (hStanding : e.Standing progress replies chosen) :
    ∃ proposal, proposal ∈ chosen.filterMap (·.firstCurrent) := by
  have hQuorum := quorum_of_standing hMembership hAnswered hStanding
  obtain ⟨k, hk⟩ := List.exists_mem_of_ne_nil _ hQuorum.nonempty
  obtain ⟨reply, hReply, rfl⟩ := List.mem_map.mp hk
  obtain ⟨hAnswer, -⟩ := answered_of_standing hAnswered hStanding hReply
  obtain ⟨p, hp, -⟩ := hAnswer.first hStart
  exact ⟨p, List.mem_filterMap.mpr ⟨reply, hReply, hp⟩⟩

theorem exists_prior_of_standing (hMembership : e.membership = G.membership)
    (hPhase : progress.step % 4 = 3) (hOffers : G.Offers L progress.step progress.proposal)
    (hAnswered : ∀ reply ∈ replies, reply.decided = none → Answered G L progress reply)
    (hStanding : e.Standing progress replies chosen) :
    ∃ proposal, proposal ∈ chosen.filterMap (·.aggregatePrior) := by
  have hQuorum := quorum_of_standing hMembership hAnswered hStanding
  have hStart := hOffers.1
  have hOrigin := hOffers.2 (by omega)
  generalize hStep : progress.step = s at hOrigin
  cases hOrigin with
  | gatherFirst => omega
  | spread => omega
  | gatherPrior => omega
  | @carry r Q _ hQ everywhere =>
    obtain ⟨k, hk, hk'⟩ := Group.Quorum.intersect _ _ hQuorum hQ
    obtain ⟨reply, hReply, rfl⟩ := List.mem_map.mp hk
    obtain ⟨hAnswer, hEq⟩ := answered_of_standing hAnswered hStanding hReply
    have hBefore : 4 * r + 2 + 1 = reply.step := by omega
    have hGreatest := hAnswer.prior hBefore
    cases hPrior : reply.aggregatePrior with
    | none =>
      rw [hPrior] at hGreatest
      have hNone : L.recorded reply.recorderId (4 * r + 2) = [] := hGreatest
      have hMem := everywhere _ hk'
      rw [hNone] at hMem
      cases hMem
    | some p => exact ⟨p, List.mem_filterMap.mpr ⟨reply, hReply, hPrior⟩⟩

theorem exists_maximum {ps : List Proposal} {p : Proposal} (h : p ∈ ps) :
    ∃ m, Proposal.maximum ps = some m := by
  cases ps with
  | nil => cases h
  | cons q qs => exact ⟨_, rfl⟩

variable [Sha256]

theorem weighQuorum_ok (hMembership : e.membership = G.membership)
    (hOffers : G.Offers L progress.step progress.proposal)
    (hAnswered : ∀ reply ∈ replies, reply.decided = none → Answered G L progress reply)
    (hStanding : e.Standing progress replies chosen) :
    ∃ verdict, e.weighQuorum progress chosen = .ok verdict := by
  unfold ThreeNodeConsensus.weighQuorum
  dsimp only
  split
  · split
    · exact ⟨_, rfl⟩
    · obtain ⟨p, hp⟩ := exists_first_of_standing hMembership hOffers.1 hAnswered hStanding
      obtain ⟨m, hm⟩ := exists_maximum hp
      rw [hm]
      exact ⟨_, rfl⟩
  · exact ⟨_, rfl⟩
  · split
    · exact ⟨_, rfl⟩
    · exact ⟨_, rfl⟩
  · rename_i hZero hOne hTwo
    have hPhase : progress.step % 4 = 3 := by
      have hZero : progress.step % 4 ≠ 0 := hZero
      have hOne : progress.step % 4 ≠ 1 := hOne
      have hTwo : progress.step % 4 ≠ 2 := hTwo
      omega
    obtain ⟨p, hp⟩ := exists_prior_of_standing hMembership hPhase hOffers hAnswered hStanding
    obtain ⟨m, hm⟩ := exists_maximum hp
    rw [hm]
    exact ⟨_, rfl⟩

theorem weigh_ok (hMembership : e.membership = G.membership)
    (hOffers : G.Offers L progress.step progress.proposal)
    (hDistinct : (replies.map (·.recorderId)).Nodup)
    (hAnswered : ∀ reply ∈ replies, reply.decided = none → Answered G L progress reply) :
    ∃ verdict, e.weigh progress replies = .ok verdict := by
  unfold ThreeNodeConsensus.weigh
  dsimp only
  split
  · exact ⟨_, rfl⟩
  · rename_i hNone
    have hUndecided : ∀ reply ∈ replies, reply.decided = none := List.findSome?_eq_none_iff.mp hNone
    split
    · exact ⟨_, rfl⟩
    · split
      · exact ⟨_, rfl⟩
      · rename_i hEnough
        exact weighQuorum_ok hMembership hOffers hAnswered
          (ThreeNodeConsensus.standing_of_replies hDistinct hUndecided (not_lt.mp hEnough))

end Turns

section Runs

variable [Sha256]

structure Collected (w : World IsrRecorder) (index : Nat) (replies : List RecordSummary) : Prop where
  distinct : (replies.map (·.recorderId)).Nodup
  own : ∀ reply ∈ replies, ∃ answer ∈ w.answers, answer.call = index ∧ answer.result = .ok reply

/-- In every run, whatever replies a call has gathered, the gathers of `drive` over them
find a proposal, and no recorder answered from below the step of the request. -/
theorem gathers_find_proposals (G : Group) (slot : Nat) {w : World IsrRecorder}
    (hRun : Run World.step (fun _ a => Coherent G a) (World.init G.recorders) w) {index : Nat}
    {call : Call} (hCall : w.calls[index]? = some call) (hContext : call.context = G.context slot) :
    (∀ answer ∈ w.answers, answer.call = index → ∀ reply, answer.result = .ok reply →
      reply.decided = none → call.progress.step ≤ reply.step) ∧
    ∀ replies, Collected w index replies →
      (∀ chosen, call.engine.Standing call.progress replies chosen →
        (call.progress.phase = 0 → chosen.filterMap (·.firstCurrent) ≠ []) ∧
        (call.progress.phase = 3 → chosen.filterMap (·.aggregatePrior) ≠ [])) ∧
      ∃ verdict, call.engine.weigh (call.engine.extendHolders call.progress replies) replies =
        .ok verdict := by
  obtain ⟨L, hTracks⟩ := Tracks.run (fun _ _ h => h) (G.register_recorders slot) hRun
  obtain ⟨hMembership, hOffers, -⟩ := hTracks.calls call (List.mem_of_getElem? hCall) hContext
  have hAnswered : ∀ answer ∈ w.answers, answer.call = index → ∀ reply,
      answer.result = .ok reply → reply.decided = none → Answered G L call.progress reply := by
    intro answer hAnswer hIndex reply hResult hUndecided
    obtain ⟨call', hCall', hAnswers⟩ := hTracks.answers answer hAnswer
    rw [hIndex] at hCall'
    obtain rfl := Option.some.inj (hCall.symm.trans hCall')
    exact hAnswers hContext reply hResult hUndecided
  refine ⟨fun answer hAnswer hIndex reply hResult hUndecided =>
    (hAnswered answer hAnswer hIndex reply hResult hUndecided).ahead, fun replies hCollected => ?_⟩
  have hReplies : ∀ reply ∈ replies, reply.decided = none → Answered G L call.progress reply := by
    intro reply hReply hUndecided
    obtain ⟨answer, hAnswer, hIndex, hResult⟩ := hCollected.own reply hReply
    exact hAnswered answer hAnswer hIndex reply hResult hUndecided
  refine ⟨fun chosen hStanding => ⟨fun _ => ?_, fun hPhase => ?_⟩, ?_⟩
  · obtain ⟨p, hp⟩ := exists_first_of_standing hMembership hOffers.1 hReplies hStanding
    exact List.ne_nil_of_mem hp
  · obtain ⟨p, hp⟩ := exists_prior_of_standing hMembership hPhase hOffers hReplies hStanding
    exact List.ne_nil_of_mem hp
  · -- the command holders do not enter the verdict
    have hExtended : ∀ reply ∈ replies, reply.decided = none →
        Answered G L (call.engine.extendHolders call.progress replies) reply := by
      intro reply hReply hUndecided
      have hAnswer := hReplies reply hReply hUndecided
      exact ⟨hAnswer.member, hAnswer.seen, hAnswer.ahead, hAnswer.recorded⟩
    exact weigh_ok hMembership hOffers hCollected.distinct hExtended

end Runs

section Skipped

open scoped Trio

/-- Proposer `b` reaches phase 3 of its first round. Recorder `c` has seen nothing of
phase 2 by then and answers without a summary of it. -/
def skippedPhase : List (Action Unit Empty) :=
  [Trio.start "c" 1 1 3, Trio.start "b" 1 1 2, .broadcast 0 (Trio.fetch []) (Trio.priority 9),
    .broadcast 1 (Trio.fetch []) (Trio.priority 5),
    .deliver 1 0 (), .deliver 1 1 (), Trio.resume 1 [0, 1] [],
    .deliver 0 0 (), .deliver 0 2 (), Trio.resume 0 [2, 3] [],
    .broadcast 2 (Trio.fetch []) (Trio.priority 5), .broadcast 3 (Trio.fetch []) (Trio.priority 9),
    .deliver 2 0 (), .deliver 2 1 (), .deliver 3 0 (), .deliver 3 2 (), Trio.resume 2 [4, 5] [],
    .broadcast 4 (Trio.fetch []) (Trio.priority 5),
    .deliver 4 0 (), .deliver 4 1 (), Trio.resume 4 [8, 9] [],
    .broadcast 5 (Trio.fetch []) (Trio.priority 5), .deliver 5 0 (), .deliver 5 2 ()]

def World.repliesOf (w : World IsrRecorder) (index : Nat) : List RecordSummary :=
  w.answers.filterMap fun answer =>
    if answer.call = index then answer.result.toOption else none

theorem skippedPhase_gathers : ∃ w : World IsrRecorder,
    execute World.step (World.init Trio.group.recorders) skippedPhase = some w ∧
      ∃ call, w.calls[5]? = some call ∧ call.progress.phase = 3 ∧
        (w.repliesOf 5).map (·.aggregatePrior.isSome) = [true, false] ∧
        (w.repliesOf 5).filterMap (·.aggregatePrior) ≠ [] := by
  have hEnd : (execute World.step (World.init Trio.group.recorders) skippedPhase).any fun w =>
      (w.calls[5]?).any fun call =>
        decide (call.context = Trio.group.context 1 ∧ call.progress.phase = 3 ∧
          (w.repliesOf 5).map (·.aggregatePrior.isSome) = [true, false] ∧
          ((w.repliesOf 5).map (·.recorderId)).Nodup ∧
          (∀ reply ∈ w.repliesOf 5, reply.step = call.progress.step ∧ reply.decided = none) ∧
          (w.repliesOf 5).length = call.engine.membership.quorumSize) := by
    decide +kernel
  obtain ⟨w, hw, hEnd⟩ := (Option.any_eq_true _ _).mp hEnd
  obtain ⟨call, hCall, hEnd⟩ := (Option.any_eq_true _ _).mp hEnd
  obtain ⟨hContext, hPhase, hPriors, hDistinct, hReplies, hLength⟩ := of_decide_eq_true hEnd
  refine ⟨w, hw, call, hCall, hPhase, hPriors, ?_⟩
  have hStarts : skippedPhase.all (startsIn Trio.group) := by decide +kernel
  have hAllowed : ∀ a ∈ skippedPhase, ∀ _ : World IsrRecorder, Coherent Trio.group a :=
    fun a ha _ => coherent_of_startsIn hStarts ha
  have hCollected : Collected w 5 (w.repliesOf 5) := by
    refine ⟨hDistinct, fun reply hReply => ?_⟩
    obtain ⟨answer, hAnswer, hOf⟩ := List.mem_filterMap.mp hReply
    split at hOf
    · rename_i hIndex
      refine ⟨answer, hAnswer, hIndex, ?_⟩
      cases hResult : answer.result with
      | error error => simp [hResult, Except.toOption] at hOf
      | ok reply' => simpa [hResult, Except.toOption] using hOf
    · cases hOf
  have hGathers := (gathers_find_proposals Trio.group 1 (.of_execute hAllowed hw) hCall hContext).2
    (w.repliesOf 5) hCollected
  exact (hGathers.1 (w.repliesOf 5) ⟨hDistinct, fun _ h => h, fun reply h => (hReplies reply h).1,
    hLength, fun reply h => (hReplies reply h).2⟩).2 hPhase

end Skipped

end Rhiza.Quepaxa
