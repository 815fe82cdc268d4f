import Rhiza.Quepaxa.Driver

/-! # What one call of the driver does

One lemma for each half of `drive`: what its requests carry, and where a formed
proof or the next progress comes from. Later modules use these and never unfold
the driver.
-/

namespace Rhiza.Quepaxa

open Core Library

section Lists

theorem eraseRepsBy_loop_sublist {α : Type} (r : α → α → Bool) (a : α) (as rs : List α) :
    (List.eraseRepsBy.loop r a as rs).Sublist (rs.reverse ++ a :: as) := by
  induction as generalizing a rs with
  | nil => simp [List.eraseRepsBy.loop]
  | cons a' as ih =>
    unfold List.eraseRepsBy.loop
    split
    · refine (ih a rs).trans ?_
      simp
    · simpa using ih a' (a :: rs)

theorem eraseRepsBy_sublist {α : Type} (r : α → α → Bool) (as : List α) :
    (as.eraseRepsBy r).Sublist as := by
  cases as with
  | nil => exact List.Sublist.refl _
  | cons a as => exact eraseRepsBy_loop_sublist r a as []

theorem mem_of_mem_sortByRecorder {replies : List RecordSummary} {reply : RecordSummary}
    (h : reply ∈ sortByRecorder replies) : reply ∈ replies :=
  (List.perm_insertionSort _ _).mem_iff.mp ((eraseRepsBy_sublist _ _).subset h)

theorem nodup_sortByRecorder {replies : List RecordSummary}
    (h : (replies.map (·.recorderId)).Nodup) :
    ((sortByRecorder replies).map (·.recorderId)).Nodup := by
  have hPerm := (List.perm_insertionSort
    (fun a b : RecordSummary => a.recorderId ≤ b.recorderId) replies).map (·.recorderId)
  exact (hPerm.nodup_iff.mpr h).sublist ((eraseRepsBy_sublist _ _).map _)

theorem mem_of_minByRecorder {replies : List RecordSummary} {reply : RecordSummary}
    (h : minByRecorder replies = some reply) : reply ∈ replies := by
  cases replies with
  | nil => cases h
  | cons first rest =>
    obtain rfl := Option.some.inj h
    clear h
    induction rest generalizing first with
    | nil => exact List.mem_cons_self
    | cons next rest ih =>
      rw [List.foldl_cons]
      rcases List.mem_cons.mp (ih (if next.recorderId < first.recorderId then next else first))
        with hHead | hRest
      · rw [hHead]
        split <;> simp
      · exact List.mem_cons_of_mem _ (List.mem_cons_of_mem _ hRest)

end Lists

section Broadcast

structure Gathered (handed : RecordSummary → Prop) (replies : List RecordSummary) : Prop where
  distinct : (replies.map (·.recorderId)).Nodup
  handed : ∀ reply ∈ replies, handed reply

theorem Gathering.giveUp_eq_ok {g : Gathering} {replies : List RecordSummary}
    (h : g.giveUp = .ok replies) : replies = g.replies := by
  unfold giveUp at h
  split at h
  · cases h
  · split at h
    · cases h
    · exact (Except.ok.inj h).symm

theorem Gathering.receive_gathered {handed : RecordSummary → Prop} {g : Gathering} {index : Nat}
    {saturated : Bool} {result : Result RecordSummary} (h : Gathered handed g.replies)
    (hResult : ∀ reply, result = .ok reply → handed reply) :
    Gathered handed (g.receive index saturated result).replies := by
  have hSame : (if saturated then g
      else { g with acceptedCompleted := g.acceptedCompleted + 1 }).replies = g.replies := by
    split <;> rfl
  unfold receive
  rw [← hSame] at h
  generalize (if saturated then g
    else { g with acceptedCompleted := g.acceptedCompleted + 1 }) = g' at h
  cases result with
  | ok reply =>
    dsimp only
    split
    · exact h
    · rename_i hNew
      refine ⟨?_, ?_⟩
      · rw [List.map_append, List.nodup_append]
        refine ⟨h.distinct, List.nodup_singleton _, ?_⟩
        rintro k hk k' hk' rfl
        obtain ⟨seen, hSeen, hId⟩ := List.mem_map.mp hk
        apply hNew
        rw [List.any_eq_true]
        exact ⟨seen, hSeen, by simpa [hId] using hk'⟩
      · intro r hr
        rcases List.mem_append.mp hr with hr | hr
        · exact h.handed r hr
        · rw [List.mem_singleton.mp hr]
          exact hResult reply rfl
  | error error => cases error <;> exact h

theorem gather_gathered {handed : RecordSummary → Prop} {quorum : Nat} {saturated : List Bool}
    {results : List (Nat × Result RecordSummary)} {g : Gathering} {replies : List RecordSummary}
    (h : gather quorum saturated g results = .ok replies) (hStart : Gathered handed g.replies)
    (hResults : ∀ index reply, (index, .ok reply) ∈ results → handed reply) :
    Gathered handed replies := by
  induction results generalizing g with
  | nil =>
    unfold gather at h
    split at h
    · rwa [← Except.ok.inj h]
    · rwa [Gathering.giveUp_eq_ok h]
  | cons result results ih =>
    obtain ⟨index, result⟩ := result
    have hNext : Gathered handed (g.receive index (saturated.getD index false) result).replies := by
      refine Gathering.receive_gathered hStart ?_
      rintro reply rfl
      exact hResults index reply List.mem_cons_self
    simp only [gather] at h
    split at h
    · rwa [← Except.ok.inj h]
    · split at h
      · rwa [Gathering.giveUp_eq_ok h]
      · exact ih h hNext fun i r hr => hResults i r (List.mem_cons_of_mem _ hr)

theorem recordBroadcast_gathered {quorum : Nat} {answers : BroadcastReplies}
    {replies : List RecordSummary} (h : recordBroadcast quorum answers = .ok replies) :
    Gathered (fun reply => ∃ index, (index, .ok reply) ∈ answers.results) replies := by
  refine gather_gathered h ⟨List.nodup_nil, by simp⟩ ?_
  intro index reply hReply
  exact ⟨index, hReply⟩

end Broadcast

namespace ThreeNodeConsensus

variable [Sha256] {e : ThreeNodeConsensus}

theorem verifyFetched_eq_some {slot : Nat} {value : AcceptedValue} {saturated successful : Nat}
    {mismatch workerFailed : Bool} {results : List (Result (Option StoredCommand))}
    {command : StoredCommand}
    (h : e.verifyFetched slot value saturated mismatch successful workerFailed results =
      .ok (some command)) :
    .ok (some command) ∈ results ∧ e.commandMatchesValue slot value command := by
  induction results generalizing mismatch successful workerFailed with
  | nil =>
    simp only [verifyFetched] at h
    split at h
    · cases h
    · split at h
      · cases h
      · split at h <;> cases h
  | cons result results ih =>
    have hLater : .ok (some command) ∈ results ∧ e.commandMatchesValue slot value command →
        .ok (some command) ∈ result :: results ∧ e.commandMatchesValue slot value command :=
      fun hFound => ⟨List.mem_cons_of_mem _ hFound.1, hFound.2⟩
    cases result with
    | error error =>
      cases error <;> exact hLater (ih h)
    | ok fetched =>
      cases fetched with
      | none => exact hLater (ih h)
      | some fetched =>
        simp only [verifyFetched] at h
        split at h
        · exact hLater (ih h)
        · split at h
          · rename_i hMatches
            cases h
            exact ⟨List.mem_cons_self, hMatches⟩
          · exact hLater (ih h)

def Backed (e : ThreeNodeConsensus) (progress : ProposerProgress) : Prop :=
  ∃ value command, progress.proposal.value = some value ∧ progress.command = some command ∧
    e.commandMatchesValue progress.slot value command

/-- `ensure_progress_command` only touches what belongs to the command. -/
theorem ensureProgressCommand_eq_ok {progress next : ProposerProgress}
    {fetched : ControlReplies (Option StoredCommand)}
    (h : e.ensureProgressCommand progress fetched = .ok next) :
    next.slot = progress.slot ∧ next.step = progress.step ∧ next.proposal = progress.proposal ∧
      next.phaseZeroPriorities = progress.phaseZeroPriorities ∧ e.Backed next := by
  unfold ensureProgressCommand at h
  split at h
  · cases h
  · rename_i value hValue
    split at h
    · rename_i hAny
      obtain rfl := Except.ok.inj h
      obtain ⟨command, hCommand, hMatches⟩ := (Option.any_eq_true _ _).mp hAny
      exact ⟨rfl, rfl, rfl, rfl, value, command, hValue, hCommand, hMatches⟩
    · split at h
      · cases h
      · cases h
      · rename_i command hFetched
        obtain rfl := Except.ok.inj h
        exact ⟨rfl, rfl, rfl, rfl, value, command, hValue, rfl,
          (verifyFetched_eq_some hFetched).2⟩

theorem Backed.not_isNil {progress : ProposerProgress} (h : e.Backed progress) :
    progress.proposal.isNil = false := by
  obtain ⟨value, command, hValue, -, -⟩ := h
  simp [Proposal.isNil, hValue]

structure RequestOf (e : ThreeNodeConsensus) (progress : ProposerProgress)
    (request : RecordRequest) : Prop where
  context_eq : request.context = e.context progress.slot
  cluster_eq : request.clusterId = e.clusterId
  epoch_eq : request.epoch = e.epoch
  step_eq : request.step = progress.step
  value_eq : request.proposal.value = progress.proposal.value
  proposal_eq : progress.phase ≠ 0 → request.proposal = progress.proposal
  command_eq : ∀ command, request.command = some command → progress.command = some command

def Sampled (sample : NodeId → Result ProposalPriority)
    (cached : List ((Nat × NodeId) × ProposalPriority)) (priority : ProposalPriority) : Prop :=
  (∃ recorderId, sample recorderId = .ok priority) ∨ ∃ key, (key, priority) ∈ cached

omit [Sha256] in
theorem phaseZeroPriority_eq_ok {progress : ProposerProgress}
    {sample : NodeId → Result ProposalPriority} {recorderId : NodeId} {priority : ProposalPriority}
    (h : e.phaseZeroPriority progress sample recorderId = .ok priority) :
    (progress.step = 4 ∧ e.membership.members.head? = some e.proposerId) ∨
      Sampled sample progress.phaseZeroPriorities priority := by
  unfold phaseZeroPriority at h
  split at h
  · rename_i hPreferred
    exact .inl hPreferred
  · split at h
    · rename_i cached hLookup
      obtain rfl := Except.ok.inj h
      obtain ⟨before, after, hSplit, -⟩ := List.lookup_eq_some_iff.mp hLookup
      exact .inr (.inr ⟨(progress.round, recorderId), by rw [hSplit]; simp⟩)
    · exact .inr (.inl ⟨recorderId, h⟩)

omit [Sha256] in
theorem cachedPriorities_sampled {progress : ProposerProgress}
    {sample : NodeId → Result ProposalPriority} {recorderId : NodeId}
    {priority priority' : ProposalPriority} {key : Nat × NodeId}
    (h : e.phaseZeroPriority progress sample recorderId = .ok priority)
    (hMem : (key, priority') ∈ e.cachedPriorities progress recorderId priority) :
    Sampled sample progress.phaseZeroPriorities priority' := by
  unfold cachedPriorities at hMem
  split at hMem
  · exact .inr ⟨key, hMem⟩
  · rename_i hPreferred
    split at hMem
    · exact .inr ⟨key, hMem⟩
    · rcases List.mem_cons.mp hMem with hNew | hOld
      · obtain ⟨-, rfl⟩ := Prod.mk.inj hNew
        exact (phaseZeroPriority_eq_ok h).resolve_left hPreferred
      · exact .inr ⟨key, hOld⟩

omit [Sha256] in
theorem Sampled.trans {sample : NodeId → Result ProposalPriority}
    {cached cached' : List ((Nat × NodeId) × ProposalPriority)} {priority : ProposalPriority}
    (h : Sampled sample cached' priority)
    (hCached : ∀ key p, (key, p) ∈ cached' → Sampled sample cached p) :
    Sampled sample cached priority := by
  rcases h with hSample | ⟨key, hKey⟩
  · exact .inl hSample
  · exact hCached key priority hKey

structure Requests (e : ThreeNodeConsensus) (sample : NodeId → Result ProposalPriority)
    (progress last : ProposerProgress) (requests : List RecordRequest) : Prop where
  slot_eq : last.slot = progress.slot
  step_eq : last.step = progress.step
  proposal_eq : last.proposal = progress.proposal
  command_eq : last.command = progress.command
  requestOf : ∀ request ∈ requests, e.RequestOf progress request
  priority : ∀ request ∈ requests, progress.step = 4 →
    e.membership.members.head? = some e.proposerId ∨
      Sampled sample progress.phaseZeroPriorities request.proposal.priority
  cached : ∀ key p, (key, p) ∈ last.phaseZeroPriorities →
    Sampled sample progress.phaseZeroPriorities p

theorem recordRequest_requestOf (progress : ProposerProgress) (targets : List NodeId)
    (recorderId : NodeId) {proposal : Proposal} (hValue : proposal.value = progress.proposal.value)
    (hProposal : progress.phase ≠ 0 → proposal = progress.proposal) :
    e.RequestOf progress (e.recordRequest progress targets recorderId proposal) where
  context_eq := rfl
  cluster_eq := rfl
  epoch_eq := rfl
  step_eq := rfl
  value_eq := hValue
  proposal_eq := hProposal
  command_eq command h := by
    unfold recordRequest at h
    dsimp only at h
    split at h
    · exact h
    · cases h

theorem buildRequests_eq_ok {sample : NodeId → Result ProposalPriority} {targets : List NodeId}
    {progress last : ProposerProgress} {members : List NodeId} {requests : List RecordRequest}
    (h : e.buildRequests sample targets progress members = .ok (last, requests)) :
    e.Requests sample progress last requests := by
  induction members generalizing progress last requests with
  | nil =>
    obtain ⟨rfl, rfl⟩ := Prod.mk.inj (Except.ok.inj h)
    exact ⟨rfl, rfl, rfl, rfl, by simp, by simp, fun key p hp => .inr ⟨key, hp⟩⟩
  | cons recorderId members ih =>
    simp only [buildRequests] at h
    split at h
    · rename_i hPhase
      split at h
      · cases h
      · rename_i priority hPriority
        split at h
        · cases h
        · rename_i last' requests' hRest
          obtain ⟨rfl, rfl⟩ := Prod.mk.inj (Except.ok.inj h)
          have hTail := ih hRest
          refine ⟨hTail.slot_eq, hTail.step_eq, hTail.proposal_eq, hTail.command_eq, ?_, ?_, ?_⟩
          · intro request hRequest
            rcases List.mem_cons.mp hRequest with rfl | hRequest
            · exact recordRequest_requestOf progress targets recorderId rfl fun hne =>
                absurd hPhase hne
            · have hOf := hTail.requestOf request hRequest
              exact ⟨hOf.context_eq, hOf.cluster_eq, hOf.epoch_eq, hOf.step_eq, hOf.value_eq,
                hOf.proposal_eq, hOf.command_eq⟩
          · intro request hRequest hStep
            rcases List.mem_cons.mp hRequest with rfl | hRequest
            · exact (phaseZeroPriority_eq_ok hPriority).imp And.right id
            · exact (hTail.priority request hRequest hStep).imp id fun hSampled =>
                hSampled.trans fun key p => cachedPriorities_sampled hPriority
          · intro key p hp
            exact (hTail.cached key p hp).trans fun key p => cachedPriorities_sampled hPriority
    · rename_i hPhase
      split at h
      · cases h
      · rename_i last' requests' hRest
        obtain ⟨rfl, rfl⟩ := Prod.mk.inj (Except.ok.inj h)
        have hTail := ih hRest
        refine ⟨hTail.slot_eq, hTail.step_eq, hTail.proposal_eq, hTail.command_eq, ?_, ?_,
          hTail.cached⟩
        · intro request hRequest
          rcases List.mem_cons.mp hRequest with rfl | hRequest
          · exact recordRequest_requestOf progress targets recorderId rfl fun _ => rfl
          · exact hTail.requestOf request hRequest
        · intro request hRequest hStep
          exact absurd (by rw [ProposerProgress.phase, hStep]) hPhase

theorem driveRequests_eq_ok {progress last : ProposerProgress}
    {fetched : ControlReplies (Option StoredCommand)} {sample : NodeId → Result ProposalPriority}
    {requests : List RecordRequest}
    (h : e.driveRequests progress fetched sample = .ok (last, requests)) :
    ∃ ready : ProposerProgress, ready.slot = progress.slot ∧ ready.step = progress.step ∧
      ready.proposal = progress.proposal ∧
      (∀ entry ∈ ready.phaseZeroPriorities, entry ∈ progress.phaseZeroPriorities) ∧
      e.Backed ready ∧ e.Requests sample ready last requests := by
  unfold driveRequests at h
  split at h
  · cases h
  · rename_i backed hBacked
    obtain ⟨hSlot, hStep, hProposal, hPriorities, hCommand⟩ := ensureProgressCommand_eq_ok hBacked
    refine ⟨_, ?_, ?_, ?_, ?_, ?_, buildRequests_eq_ok h⟩
    · exact hSlot
    · exact hStep
    · exact hProposal
    rotate_left
    · exact hCommand
    intro entry hEntry
    dsimp only at hEntry
    split at hEntry
    · exact hPriorities ▸ List.mem_of_mem_filter hEntry
    · cases hEntry

section Replies

structure Standing (e : ThreeNodeConsensus) (progress : ProposerProgress)
    (replies chosen : List RecordSummary) : Prop where
  distinct : (chosen.map (·.recorderId)).Nodup
  mem : ∀ reply ∈ chosen, reply ∈ replies
  step_eq : ∀ reply ∈ chosen, reply.step = progress.step
  length_eq : chosen.length = e.membership.quorumSize
  undecided : ∀ reply ∈ replies, reply.decided = none

inductive Formed (e : ThreeNodeConsensus) (progress : ProposerProgress)
    (chosen : List RecordSummary) : DecisionProof → Prop
  | fast {proposal : Proposal} (hStep : progress.step = 4)
      (hTop : proposal.priority = ProposalPriority.max)
      (hFirst : ∀ reply ∈ chosen, reply.firstCurrent = some proposal) :
      Formed e progress chosen (.fastPath e.clusterId progress.slot e.epoch e.configId
        e.configDigest proposal (chosen.map (·.row)))
  | slow (hPhase : progress.step % 4 = 2)
      (hMaximum : Proposal.maximum (chosen.filterMap (·.aggregatePrior)) =
        some progress.proposal) :
      Formed e progress chosen (.phase2 e.clusterId progress.slot e.epoch e.configId
        e.configDigest progress.step progress.proposal (chosen.map (·.row)))

inductive Takes (progress : ProposerProgress) (chosen : List RecordSummary) : Proposal → Prop
  | first {proposal : Proposal} (hPhase : progress.step % 4 = 0)
      (hMaximum : Proposal.maximum (chosen.filterMap (·.firstCurrent)) = some proposal) :
      Takes progress chosen proposal
  | keep {proposal : Proposal} (hPhase : progress.step % 4 = 1 ∨ progress.step % 4 = 2)
      (hSame : proposal = progress.proposal) : Takes progress chosen proposal
  | prior {proposal : Proposal} (hPhase : progress.step % 4 = 3)
      (hMaximum : Proposal.maximum (chosen.filterMap (·.aggregatePrior)) = some proposal) :
      Takes progress chosen proposal

inductive Turn (e : ThreeNodeConsensus) (progress : ProposerProgress)
    (replies : List RecordSummary) (next : ProposerProgress) : Prop
  | stay (hStep : next.step = progress.step) (hProposal : next.proposal = progress.proposal)
      (hCommand : next.command = progress.command)
      (hPriorities : next.phaseZeroPriorities = progress.phaseZeroPriorities)
  | jump {reply : RecordSummary} (hReply : reply ∈ replies) (hDecided : reply.decided = none)
      (hAhead : progress.step < reply.step) (hStep : next.step = reply.step)
      (hProposal : next.proposal = reply.firstCurrent.getD progress.proposal)
      (hBacked : e.Backed next) (hPriorities : next.phaseZeroPriorities = [])
  | advance {chosen : List RecordSummary} (hStanding : e.Standing progress replies chosen)
      (hStep : next.step = progress.step + 1) (hTakes : Takes progress chosen next.proposal)
      (hBacked : e.Backed next) (hPriorities : next.phaseZeroPriorities = [])

omit [Sha256] in
theorem fastProposal_eq_some {step : Nat} {summaries : List RecorderSummary} {proposal : Proposal}
    (h : fastProposal step summaries = some proposal) :
    step = 4 ∧ proposal.priority = ProposalPriority.max ∧
      ∀ summary ∈ summaries, summary.firstCurrent = some proposal := by
  unfold fastProposal at h
  obtain ⟨h, hAll⟩ := Option.filter_eq_some_iff.mp h
  obtain ⟨-, hTop⟩ := Option.filter_eq_some_iff.mp h
  simp only [decide_eq_true_eq, List.all_eq_true] at hAll hTop
  exact ⟨hAll.1, hTop, hAll.2⟩

omit [Sha256] in
theorem standing_of_replies {progress : ProposerProgress} {replies : List RecordSummary}
    (hDistinct : (replies.map (·.recorderId)).Nodup)
    (hUndecided : ∀ reply ∈ replies, reply.decided = none)
    (hLength : e.membership.quorumSize ≤
      (sortByRecorder (replies.filter (·.step = progress.step))).length) :
    e.Standing progress replies
      ((sortByRecorder (replies.filter (·.step = progress.step))).take
        e.membership.quorumSize) where
  distinct := by
    have hFilter : ((replies.filter (·.step = progress.step)).map (·.recorderId)).Nodup :=
      hDistinct.sublist (List.filter_sublist.map _)
    exact (nodup_sortByRecorder hFilter).sublist ((List.take_sublist _ _).map _)
  mem reply h := (List.mem_filter.mp (mem_of_mem_sortByRecorder (List.mem_of_mem_take h))).1
  step_eq reply h := by
    simpa using (List.mem_filter.mp (mem_of_mem_sortByRecorder (List.mem_of_mem_take h))).2
  length_eq := by
    rw [List.length_take]
    omega
  undecided := hUndecided

inductive Weighed (e : ThreeNodeConsensus) (progress : ProposerProgress)
    (replies : List RecordSummary) : Verdict → Prop
  | installed {reply : RecordSummary} {proof : DecisionProof} (hReply : reply ∈ replies)
      (hDecided : reply.decided = some proof) : Weighed e progress replies (.installed proof)
  | behind {next : ProposerProgress} {reply : RecordSummary} (hReply : reply ∈ replies)
      (hDecided : reply.decided = none) (hAhead : progress.step < reply.step)
      (hSlot : next.slot = progress.slot) (hStep : next.step = reply.step)
      (hProposal : next.proposal = reply.firstCurrent.getD progress.proposal) :
      Weighed e progress replies (.behind next)
  | tooFew {next : ProposerProgress} (hSlot : next.slot = progress.slot)
      (hStep : next.step = progress.step) (hProposal : next.proposal = progress.proposal)
      (hCommand : next.command = progress.command)
      (hPriorities : next.phaseZeroPriorities = progress.phaseZeroPriorities) :
      Weighed e progress replies (.tooFew next)
  | decide {chosen : List RecordSummary} {proof : DecisionProof}
      (hStanding : e.Standing progress replies chosen) (hFormed : e.Formed progress chosen proof) :
      Weighed e progress replies (.decide proof)
  | advance {next : ProposerProgress} {chosen : List RecordSummary}
      (hStanding : e.Standing progress replies chosen) (hSlot : next.slot = progress.slot)
      (hStep : next.step = progress.step) (hTakes : Takes progress chosen next.proposal) :
      Weighed e progress replies (.advance next)

theorem weighQuorum_eq_ok {progress : ProposerProgress} {replies chosen : List RecordSummary}
    {verdict : Verdict} (hStanding : e.Standing progress replies chosen)
    (h : e.weighQuorum progress chosen = .ok verdict) : e.Weighed progress replies verdict := by
  unfold weighQuorum at h
  dsimp only at h
  split at h
  · rename_i hPhase
    split at h
    · rename_i proposal hFast
      obtain rfl := Except.ok.inj h
      obtain ⟨hStep, hTop, hFirst⟩ := fastProposal_eq_some hFast
      refine .decide hStanding (.fast hStep hTop ?_)
      intro reply hReply
      exact hFirst reply.row (List.mem_map_of_mem hReply)
    · split at h
      · rename_i hMaximum
        obtain rfl := Except.ok.inj h
        exact .advance hStanding rfl rfl (.first hPhase hMaximum)
      · cases h
  · rename_i hPhase
    obtain rfl := Except.ok.inj h
    exact .advance hStanding rfl rfl (.keep (.inl hPhase) rfl)
  · rename_i hPhase
    split at h
    · rename_i hMaximum
      obtain rfl := Except.ok.inj h
      exact .decide hStanding (.slow hPhase hMaximum)
    · obtain rfl := Except.ok.inj h
      exact .advance hStanding rfl rfl (.keep (.inr hPhase) rfl)
  · rename_i hZero hOne hTwo
    split at h
    · rename_i hMaximum
      obtain rfl := Except.ok.inj h
      refine .advance hStanding rfl rfl (.prior ?_ hMaximum)
      have hZero : progress.step % 4 ≠ 0 := hZero
      have hOne : progress.step % 4 ≠ 1 := hOne
      have hTwo : progress.step % 4 ≠ 2 := hTwo
      omega
    · cases h

omit [Sha256] in
theorem exists_reply_of_catchUp {progress : ProposerProgress} {replies : List RecordSummary}
    {highest : Nat} (hMax : (replies.map (·.step)).max? = some highest) :
    ∃ reply ∈ replies, reply.step = highest ∧ (catchUp progress replies highest).proposal =
      reply.firstCurrent.getD progress.proposal := by
  obtain ⟨top, hTop, hStep⟩ := List.mem_map.mp (List.max?_mem hMax)
  have hFilter : top ∈ replies.filter (·.step = highest) := by simp [hTop, hStep]
  cases hMin : minByRecorder (replies.filter (·.step = highest)) with
  | none =>
    cases hList : replies.filter (·.step = highest) with
    | nil => simp [hList] at hFilter
    | cons reply rest => simp [hList, minByRecorder] at hMin
  | some reply =>
    obtain ⟨hMem, hReply⟩ := List.mem_filter.mp (mem_of_minByRecorder hMin)
    refine ⟨reply, hMem, by simpa using hReply, ?_⟩
    simp [catchUp, hMin]

theorem weigh_eq_ok {progress : ProposerProgress} {replies : List RecordSummary}
    {verdict : Verdict} (hDistinct : (replies.map (·.recorderId)).Nodup)
    (h : e.weigh progress replies = .ok verdict) : e.Weighed progress replies verdict := by
  unfold weigh at h
  dsimp only at h
  split at h
  · rename_i proof hProof
    obtain rfl := Except.ok.inj h
    obtain ⟨reply, hReply, hDecided⟩ := List.exists_of_findSome?_eq_some hProof
    exact .installed hReply hDecided
  · rename_i hNone
    have hUndecided : ∀ reply ∈ replies, reply.decided = none := List.findSome?_eq_none_iff.mp hNone
    split at h
    · rename_i hAhead
      obtain rfl := Except.ok.inj h
      generalize hMax : (replies.map (·.step)).max? = max at hAhead ⊢
      cases max with
      | none => cases hAhead
      | some highest =>
        obtain ⟨reply, hReply, hStep, hProposal⟩ := exists_reply_of_catchUp hMax
        refine .behind hReply (hUndecided reply hReply) (hStep ▸ hAhead) rfl hStep.symm hProposal
    · split at h
      · obtain rfl := Except.ok.inj h
        exact .tooFew rfl rfl rfl rfl rfl
      · rename_i hEnough
        exact weighQuorum_eq_ok
          (standing_of_replies hDistinct hUndecided (not_lt.mp hEnough)) h

theorem driveReplies_formed {progress : ProposerProgress} {answers : BroadcastReplies}
    {fetched : ControlReplies (Option StoredCommand)} {installs : ControlReplies Unit}
    {proof : DecisionProof}
    (h : (e.driveReplies progress answers fetched installs).1 = some proof) :
    ∃ replies chosen, Gathered (fun reply => ∃ index, (index, .ok reply) ∈ answers.results)
      replies ∧ e.Standing progress replies chosen ∧ e.Formed progress chosen proof := by
  unfold driveReplies at h
  split at h
  · cases h
  · rename_i replies hReplies
    have hGathered := recordBroadcast_gathered hReplies
    split at h
    · cases h
    · rename_i verdict hWeigh
      cases weigh_eq_ok hGathered.distinct hWeigh with
      | installed => cases h
      | behind => cases h
      | tooFew => cases h
      | advance => cases h
      | decide hStanding hFormed =>
        obtain rfl := Option.some.inj h
        exact ⟨replies, _, hGathered, ⟨hStanding.distinct, hStanding.mem, hStanding.step_eq,
          hStanding.length_eq, hStanding.undecided⟩, by
            cases hFormed with
            | fast hStep hTop hFirst => exact .fast hStep hTop hFirst
            | slow hPhase hMaximum => exact .slow hPhase hMaximum⟩

/-- `finish_decision` returns nothing but the proof it was given, and only a valid one. -/
theorem finishDecision_eq_ok {proof : DecisionProof} {known : Option StoredCommand}
    {transitionInvolved : Bool} {fetched : ControlReplies (Option StoredCommand)}
    {installs : ControlReplies Unit} {outcome : DriveOutcome}
    (h : e.finishDecision proof known transitionInvolved fetched installs = .ok outcome) :
    outcome = .decision proof ∧
      proof.ValidFor e.clusterId proof.slot e.epoch e.configId e.membership := by
  unfold finishDecision at h
  split at h
  · cases h
  · rename_i hValid
    refine ⟨?_, DecisionProof.validateForCluster_eq_ok.mp hValid⟩
    split at h
    · cases h
    · dsimp only at h
      split at h
      · cases h
      · split at h
        · exact (Except.ok.inj h).symm
        · split at h
          · cases h
          · exact (Except.ok.inj h).symm

omit [Sha256] in
/-- The installs that `install_decision_proof_quorum` counts. -/
theorem quorum_of_countInstalled {quorum saturated installed : Nat} {workerFailed : Bool}
    {results : List (Result Unit)}
    (h : countInstalled quorum saturated installed workerFailed results = .ok ()) :
    quorum ≤ installed + results.countP (·.isOk) := by
  induction results generalizing installed workerFailed with
  | nil =>
    simp only [countInstalled] at h
    split at h
    · rename_i hQuorum
      simpa using hQuorum
    · split at h <;> cases h
  | cons result rest ih =>
    cases result with
    | ok _ =>
      simp only [countInstalled] at h
      rw [List.countP_cons_of_pos rfl]
      split at h
      · omega
      · have := ih h
        omega
    | error error =>
      rw [List.countP_cons_of_neg (by simp [Except.isOk, Except.toBool])]
      cases error <;> exact ih h

structure Settles (e : ThreeNodeConsensus) (proof : DecisionProof) (known : Option StoredCommand)
    (fetched : ControlReplies (Option StoredCommand)) (installs : ControlReplies Unit) : Prop where
  command : ∃ command value, proof.proposal.value = some value ∧
    (known = some command ∨ .ok (some command) ∈ fetched.results) ∧
    AcceptedValue.fromCommand e.clusterId proof.slot e.epoch e.configId value.prevHash command =
      value ∧
    (command.entryType = .configChange →
      e.membership.quorumSize ≤ installs.results.countP (·.isOk))

theorem settles_of_finishDecision {proof : DecisionProof} {known : Option StoredCommand}
    {transitionInvolved : Bool} {fetched : ControlReplies (Option StoredCommand)}
    {installs : ControlReplies Unit} {outcome : DriveOutcome}
    (h : e.finishDecision proof known transitionInvolved fetched installs = .ok outcome) :
    e.Settles proof known fetched installs := by
  unfold finishDecision at h
  split at h
  · cases h
  · split at h
    · cases h
    · rename_i value hValue
      dsimp only at h
      split at h
      · cases h
      · rename_i command hCommand
        have hSource : (known = some command ∨ .ok (some command) ∈ fetched.results) ∧
            e.commandMatchesValue proof.slot value command := by
          split at hCommand
          · rename_i own hOwn
            obtain rfl := Except.ok.inj hCommand
            obtain ⟨hKnown, hMatches⟩ := Option.filter_eq_some_iff.mp hOwn
            exact ⟨.inl hKnown, hMatches⟩
          · split at hCommand
            · cases hCommand
            · cases hCommand
            · rename_i hFetched
              obtain rfl := Except.ok.inj hCommand
              obtain ⟨hMem, hMatches⟩ := verifyFetched_eq_some hFetched
              exact ⟨.inr hMem, hMatches⟩
        refine ⟨command, value, hValue, hSource.1, of_decide_eq_true hSource.2, fun hChange => ?_⟩
        split at h
        · rename_i hOrdinary
          exact absurd hChange hOrdinary.1
        · split at h
          · cases h
          · rename_i hInstalled
            simpa using quorum_of_countInstalled hInstalled

theorem driveReplies_next {progress next : ProposerProgress} {answers : BroadcastReplies}
    {fetched : ControlReplies (Option StoredCommand)} {installs : ControlReplies Unit}
    {outcome : DriveOutcome}
    (h : (e.driveReplies progress answers fetched installs).2 = .ok outcome)
    (hNext : outcome = .progress next ∨ outcome = .pending next) :
    next.slot = progress.slot ∧ ∃ replies,
      Gathered (fun reply => ∃ index, (index, .ok reply) ∈ answers.results) replies ∧
        e.Turn progress replies next := by
  have hDecision {proof : DecisionProof} : outcome ≠ .decision proof := by
    rintro rfl
    rcases hNext with hNext | hNext <;> cases hNext
  unfold driveReplies at h
  split at h
  · cases h
  · rename_i replies hReplies
    have hGathered := recordBroadcast_gathered hReplies
    split at h
    · cases h
    · rename_i verdict hWeigh
      dsimp only at h
      cases weigh_eq_ok hGathered.distinct hWeigh with
      | installed hReply hDecided =>
        simp only [conclude] at h
        split at h
        · cases h
        · exact absurd (finishDecision_eq_ok h).1 hDecision
      | decide hStanding hFormed => exact absurd (finishDecision_eq_ok h).1 hDecision
      | @behind caught reply hReply hDecided hAhead hSlot hStep hProposal =>
        simp only [conclude] at h
        split at h
        · cases h
        · rename_i ready hReady
          obtain ⟨hSlot', hStep', hProposal', -, hBacked⟩ := ensureProgressCommand_eq_ok hReady
          obtain rfl := Except.ok.inj h
          obtain rfl : { ready with phaseZeroPriorities := [] } = next := by simpa using hNext
          exact ⟨hSlot'.trans hSlot, replies, hGathered, .jump hReply hDecided hAhead
            (hStep'.trans hStep) (hProposal'.trans hProposal) hBacked rfl⟩
      | @tooFew waiting hSlot hStep hProposal hCommand hPriorities =>
        obtain rfl := Except.ok.inj h
        obtain rfl : waiting = next := by simpa using hNext
        exact ⟨hSlot, replies, hGathered, .stay hStep hProposal hCommand hPriorities⟩
      | @advance moved chosen hStanding hSlot hStep hTakes =>
        simp only [conclude] at h
        split at h
        · cases h
        · rename_i ready hReady
          obtain ⟨hSlot', hStep', hProposal', -, hBacked⟩ := ensureProgressCommand_eq_ok hReady
          split at h
          · cases h
          · rename_i step hSucc
            obtain rfl := checkedSucc_eq_some hSucc
            obtain rfl := Except.ok.inj h
            obtain rfl : { ready with step := ready.step + 1, phaseZeroPriorities := [] } = next := by
              simpa using hNext
            refine ⟨hSlot'.trans hSlot, replies, hGathered, .advance
              ⟨hStanding.distinct, hStanding.mem, hStanding.step_eq, hStanding.length_eq,
                hStanding.undecided⟩ ?_ ?_ hBacked rfl⟩
            · exact congrArg (· + 1) (hStep'.trans hStep)
            · change Takes progress chosen ready.proposal
              rw [hProposal']
              cases hTakes with
              | first hPhase hMaximum => exact .first hPhase hMaximum
              | keep hPhase hSame => exact .keep hPhase hSame
              | prior hPhase hMaximum => exact .prior hPhase hMaximum

theorem driveReplies_decision {progress : ProposerProgress} {answers : BroadcastReplies}
    {fetched : ControlReplies (Option StoredCommand)} {installs : ControlReplies Unit}
    {proof : DecisionProof}
    (h : (e.driveReplies progress answers fetched installs).2 = .ok (.decision proof)) :
    proof.ValidFor e.clusterId progress.slot e.epoch e.configId e.membership ∧
      e.Settles proof progress.command fetched installs ∧
      ((e.driveReplies progress answers fetched installs).1 = some proof ∨
        ∃ index reply, (index, .ok reply) ∈ answers.results ∧ reply.decided = some proof) := by
  unfold driveReplies at h ⊢
  split at h
  · cases h
  · rename_i replies hReplies
    have hGathered := recordBroadcast_gathered hReplies
    split at h
    · cases h
    · rename_i verdict hWeigh
      dsimp only at h ⊢
      cases weigh_eq_ok hGathered.distinct hWeigh with
      | @installed reply proof' hReply hDecided =>
        simp only [conclude] at h
        split at h
        · cases h
        · rename_i hValid
          obtain ⟨hProof, -⟩ := finishDecision_eq_ok h
          obtain rfl := DriveOutcome.decision.inj hProof
          obtain ⟨index, hIndex⟩ := hGathered.handed reply hReply
          exact ⟨DecisionProof.validateForCluster_eq_ok.mp hValid, settles_of_finishDecision h,
            .inr ⟨index, reply, hIndex, hDecided⟩⟩
      | decide hStanding hFormed =>
        obtain ⟨hProof, hValid⟩ := finishDecision_eq_ok h
        obtain rfl := DriveOutcome.decision.inj hProof
        refine ⟨?_, settles_of_finishDecision h, .inl rfl⟩
        cases hFormed with
        | fast => exact hValid
        | slow => exact hValid
      | behind =>
        simp only [conclude] at h
        split at h <;> cases h
      | tooFew => cases h
      | advance =>
        simp only [conclude] at h
        split at h
        · cases h
        · split at h <;> cases h

end Replies

end ThreeNodeConsensus

end Rhiza.Quepaxa
