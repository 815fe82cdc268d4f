import Rhiza.Quepaxa.Agreement

/-! # Decisions that calls of the driver return

A call also returns proofs that it finds installed on a recorder. Where only
formed proofs are installed, everything returned was formed by some call, and
agreement follows from one condition on the registers: no recorder saw first, at
step 4, a proposal of another value above one that a quorum saw first with the
greatest priority.
-/

namespace Rhiza.Quepaxa

open Core Library

section Runs

variable [Sha256] {R Fault Event : Type} [RecorderRpc R Fault Event]

def InstallsFormed (w : World R) : Action Fault Event → Prop
  | .install _ _ proof _ => proof ∈ w.formed
  | _ => True

def installsNothing : Action Fault Event → Bool
  | .install _ _ _ _ => false
  | _ => true

omit [Sha256] [RecorderRpc R Fault Event] in
theorem installsFormed_of_nothing {script : List (Action Fault Event)}
    (h : script.all installsNothing) (w : World R) {a : Action Fault Event} (ha : a ∈ script) :
    InstallsFormed w a := by
  have hInstall := List.all_eq_true.mp h a ha
  cases a with
  | install => cases hInstall
  | _ => trivial

structure Attested (w : World R) : Prop where
  recorders : ∀ k proof, RecorderRpc.holds (w.recorders k) proof → proof ∈ w.formed
  answers : ∀ answer ∈ w.answers, ∀ reply proof, answer.result = .ok reply →
    reply.decided = some proof → proof ∈ w.formed
  decided : ∀ proof ∈ w.decided, proof ∈ w.formed

omit [Sha256] [RecorderRpc R Fault Event] in
theorem decisionOf_eq_some {result : Result DriveOutcome} {proof : DecisionProof}
    (h : decisionOf result = some proof) : result = .ok (.decision proof) := by
  unfold decisionOf at h
  split at h
  · rw [Option.some.inj h]
  · cases h

namespace Attested

variable {w w' : World R}

omit [Sha256] in
theorem init {recorders : NodeId → R}
    (h : ∀ k proof, ¬ RecorderRpc.holds (recorders k) proof) :
    Attested (World.init recorders) where
  recorders k proof hHolds := absurd hHolds (h k proof)
  answers answer h := by cases h
  decided proof h := by cases h

omit [Sha256] in
theorem idle (h : Attested w) {k : NodeId} {r : R}
    (hHolds : ∀ proof, RecorderRpc.holds r proof → proof ∈ w.formed)
    (hRecorders : w'.recorders = Function.update w.recorders k r)
    (hAnswers : w'.answers = w.answers) (hFormed : w'.formed = w.formed)
    (hDecided : w'.decided = w.decided) : Attested w' where
  recorders j proof hj := by
    rw [hFormed]
    rw [hRecorders] at hj
    by_cases hjk : j = k
    · rw [hjk, Function.update_self] at hj
      exact hHolds proof hj
    · rw [Function.update_of_ne hjk] at hj
      exact h.recorders j proof hj
  answers := by
    rw [hAnswers, hFormed]
    exact h.answers
  decided := by
    rw [hDecided, hFormed]
    exact h.decided

variable [LawfulRecorder R Fault Event]

theorem deliver (h : Attested w) (index worker : Nat) (call : Call) (k : NodeId)
    (request : RecordRequest) (fault : Fault) :
    Attested (w.deliver index worker call k request fault) where
  recorders j proof hj := by
    by_cases hjk : j = k
    · subst hjk
      simp only [World.deliver, Function.update_self] at hj
      exact h.recorders j proof (LawfulRecorder.record_holds _ _ _ _ hj)
    · simp only [World.deliver, Function.update_of_ne hjk] at hj
      exact h.recorders j proof hj
  answers answer hAnswer reply proof hReply hProof := by
    rcases List.mem_append.mp hAnswer with hOld | hNew
    · exact h.answers answer hOld reply proof hReply hProof
    · obtain rfl := List.mem_singleton.mp hNew
      obtain ⟨hResult, -⟩ := Tracks.checkReply_eq_ok hReply
      exact h.recorders k proof (LawfulRecorder.record_decided _ _ _ _ _ hResult hProof)
  decided := h.decided

omit [LawfulRecorder R Fault Event] in
theorem resume (h : Attested w) {index : Nat} {call : Call} {answers : BroadcastReplies}
    (fetched : ControlReplies (Option StoredCommand)) (installs : ControlReplies Unit)
    (hAnswers : ∀ i reply, (i, .ok reply) ∈ answers.results →
      ∃ answer ∈ w.answers, answer.call = index ∧ answer.result = .ok reply) :
    Attested (w.resume call answers fetched installs) where
  recorders k proof hk := List.mem_append_left _ (h.recorders k proof hk)
  answers answer hAnswer reply proof hReply hProof :=
    List.mem_append_left _ (h.answers answer hAnswer reply proof hReply hProof)
  decided proof hProof := by
    rcases List.mem_append.mp hProof with hOld | hNew
    · exact List.mem_append_left _ (h.decided proof hOld)
    · rw [Option.mem_toList] at hNew
      obtain ⟨-, -, hFormed | ⟨i, reply, hi, hDecided⟩⟩ :=
        ThreeNodeConsensus.driveReplies_decision (decisionOf_eq_some hNew)
      · exact List.mem_append_right _ (Option.mem_toList.mpr hFormed)
      · obtain ⟨answer, hAnswer, -, hResult⟩ := hAnswers i reply hi
        exact List.mem_append_left _ (h.answers answer hAnswer reply proof hResult hDecided)

theorem step (h : Attested w) {a : Action Fault Event} (hInstalls : InstallsFormed w a)
    (hStep : w.step a = some w') : Attested w' := by
  cases a with
  | start engine slot proposal command =>
    obtain rfl := Option.some.inj hStep
    exact ⟨h.recorders, h.answers, h.decided⟩
  | broadcast index fetched sample =>
    rcases World.step_broadcast hStep with rfl | ⟨driver, -, progress, requests, -, rfl⟩
    · exact h
    · exact ⟨h.recorders, h.answers, h.decided⟩
  | deliver index worker fault =>
    obtain ⟨call, k, request, -, -, -, rfl⟩ := World.step_deliver hStep
    exact h.deliver index worker call k request fault
  | resume index saturatedWorkers arrivals fetched installs =>
    obtain ⟨call, answers, -, hAnswers, rfl⟩ := World.step_resume hStep
    exact h.resume fetched installs hAnswers
  | install k fault proof membership =>
    obtain rfl := Option.some.inj hStep
    refine h.idle ?_ rfl rfl rfl rfl
    intro proof' hProof'
    rcases LawfulRecorder.install_holds _ _ _ _ _ hProof' with hOld | rfl
    · exact h.recorders k proof' hOld
    · exact hInstalls
  | inspect k fault slot =>
    obtain rfl := Option.some.inj hStep
    exact h.idle (fun proof hProof => h.recorders k proof
      (LawfulRecorder.inspect_holds _ _ _ _ hProof)) rfl rfl rfl rfl
  | occur k event =>
    obtain rfl := Option.some.inj hStep
    exact h.idle (fun proof hProof => h.recorders k proof
      (LawfulRecorder.occur_holds _ _ _ hProof)) rfl rfl rfl rfl
  | openFence engine slot =>
    rw [World.step_openFence hStep]
    exact ⟨h.recorders, h.answers, h.decided⟩
  | observe index worker fault =>
    obtain ⟨fence, k, -, -, rfl⟩ := World.step_observe hStep
    exact h.idle (fun proof hProof => h.recorders k proof
      (LawfulRecorder.observe_holds _ _ _ _ hProof)) rfl rfl rfl rfl
  | closeFence index saturated arrivals =>
    obtain ⟨fence, results, -, -, -, rfl | ⟨-, rfl⟩⟩ := World.step_closeFence hStep
    · exact h
    · exact ⟨h.recorders, h.answers, h.decided⟩

theorem run {recorders : NodeId → R} {allowed : World R → Action Fault Event → Prop}
    (hInstalls : ∀ w a, allowed w a → InstallsFormed w a)
    (hFresh : ∀ k proof, ¬ RecorderRpc.holds (recorders k) proof)
    (hRun : Run World.step allowed (World.init recorders) w) : Attested w :=
  hRun.invariant (init hFresh) fun s a _ h hAllowed hStep => h.step (hInstalls s a hAllowed) hStep

end Attested

def InstallsHeld (w : World R) : Action Fault Event → Prop
  | .resume index saturatedWorkers arrivals fetched installs =>
    ∀ call results proof, w.calls[index]? = some call →
      arrivals.mapM (w.arrive index) = some results →
      (call.engine.driveReplies call.progress ⟨saturatedWorkers, results⟩ fetched installs).2 =
        .ok (.decision proof) →
      ∃ holders : List NodeId, holders.Nodup ∧
        (∀ k ∈ holders, k ∈ call.engine.membership.members ∧
          RecorderRpc.holds (w.recorders k) proof) ∧
        installs.results.countP (·.isOk) ≤ holders.length
  | _ => True

def World.FastPathUnique (w : World R) (G : Group) (slot : Nat) : Prop :=
  ∀ Q p k q, G.Quorum Q → (∀ j ∈ Q, ShownFirst w (G.context slot) j 4 p) →
    p.priority = ProposalPriority.max → ShownFirst w (G.context slot) k 4 q →
    (Proposal.cmp p q).isLE → q.value = p.value

theorem Tracks.fastUnique_of_reports {G : Group} {slot : Nat} {w : World R}
    {L : Ledger NodeId Proposal} (h : Tracks G slot w L) (hUnique : w.FastPathUnique G slot) :
    G.FastUnique L := by
  intro Q p k q hFast hFirst hLe
  refine hUnique Q p k q hFast.isQuorum ?_ hFast.isTop.2 (h.shown k 4 q hFirst) hLe
  intro j hj
  exact h.shown j 4 p (hFast.first j hj)

/-- Calls of `drive` decide one value, however often the preferred proposer starts
again, in every run that keeps the fast path unique. -/
theorem returned_decisions_agree (G : Group) (slot : Nat) {w : World IsrRecorder}
    (hRun : Run World.step (fun w a => Coherent G a ∧ InstallsFormed w a)
      (World.init G.recorders) w)
    (hUnique : w.FastPathUnique G slot) {p q : DecisionProof} (hp : p ∈ w.decided)
    (hq : q ∈ w.decided) (hpContext : p.context = G.context slot)
    (hqContext : q.context = G.context slot) : p.value = q.value := by
  obtain ⟨L, hTracks⟩ := Tracks.run (fun _ _ h => h.1) (G.register_recorders slot) hRun
  have hAttested := Attested.run (fun _ _ h => h.2) G.not_holds_recorders hRun
  exact hTracks.agree (hTracks.fastUnique_of_reports hUnique) (hAttested.decided p hp)
    (hAttested.decided q hq) hpContext hqContext

end Runs

section Reproposal

open scoped Trio

/-- Proposer `a` offers command 1, reaches `a` and `b`, and is cancelled; `b`
decides command 1 on the fast path. Then `a` offers command 2, which recorder `c`
sees first, and takes it through the slow path with `a` and `c`. -/
def reproposal : List (Action Unit Empty) :=
  [Trio.start "a" 1 1 1, .broadcast 0 (Trio.fetch []) (Trio.priority 5),
    .deliver 0 0 (), .deliver 0 1 (),
    Trio.start "b" 1 1 3, .broadcast 1 (Trio.fetch []) (Trio.priority 5),
    .deliver 1 0 (), .deliver 1 1 (),
    Trio.resume 1 [2, 3] [Trio.command 1],
    Trio.start "a" 2 1 2, .broadcast 2 (Trio.fetch []) (Trio.priority 5),
    .deliver 2 2 (), .deliver 2 0 (),
    Trio.resume 2 [4, 5] [],
    .broadcast 3 (Trio.fetch []) (Trio.priority 5), .deliver 3 0 (), .deliver 3 2 (),
    Trio.resume 3 [6, 7] [],
    .broadcast 4 (Trio.fetch []) (Trio.priority 5), .deliver 4 0 (), .deliver 4 2 (),
    Trio.resume 4 [8, 9] []]

theorem reproposal_allowed : ∀ a ∈ reproposal, ∀ w : World IsrRecorder,
    Coherent Trio.group a ∧ InstallsFormed w a := by
  have hStarts : reproposal.all (startsIn Trio.group) := by decide +kernel
  have hNothing : reproposal.all installsNothing := by decide +kernel
  exact fun a ha w => ⟨coherent_of_startsIn hStarts ha, installsFormed_of_nothing hNothing w ha⟩

/-- Two proposals of the greatest priority lead to two decided values. -/
theorem reproposal_decides_two_values : ∃ w : World IsrRecorder,
    Run World.step (fun w a => Coherent Trio.group a ∧ InstallsFormed w a)
      (World.init Trio.group.recorders) w ∧
    ∃ p ∈ w.decided, ∃ q ∈ w.decided, p.context = Trio.group.context 1 ∧
      q.context = Trio.group.context 1 ∧ p.value ≠ q.value := by
  have hEnd : (execute World.step (World.init Trio.group.recorders) reproposal).any fun w =>
      decide (∃ p ∈ w.decided, ∃ q ∈ w.decided, p.context = Trio.group.context 1 ∧
        q.context = Trio.group.context 1 ∧ p.value ≠ q.value) := by
    decide +kernel
  obtain ⟨w, hw, hTwo⟩ := (Option.any_eq_true _ _).mp hEnd
  exact ⟨w, .of_execute reproposal_allowed hw, of_decide_eq_true hTwo⟩

/-- The second proposal of `a` reaches the quorum that has already seen the first one. -/
def lateReproposal : List (Action Unit Empty) :=
  [Trio.start "a" 1 1 1, .broadcast 0 (Trio.fetch []) (Trio.priority 5),
    .deliver 0 0 (), .deliver 0 1 (),
    Trio.resume 0 [0, 1] [],
    Trio.start "a" 2 1 2, .broadcast 1 (Trio.fetch []) (Trio.priority 5),
    .deliver 1 0 (), .deliver 1 1 (),
    Trio.resume 1 [2, 3] [Trio.command 1]]

theorem lateReproposal_decides_one_value : ∃ w : World IsrRecorder,
    execute World.step (World.init Trio.group.recorders) lateReproposal = some w ∧
      w.decided.length = 2 ∧ ∀ p ∈ w.decided, ∀ q ∈ w.decided,
        p.context = Trio.group.context 1 → q.context = Trio.group.context 1 →
          p.value = q.value := by
  have hEnd : (execute World.step (World.init Trio.group.recorders) lateReproposal).any fun w =>
      decide (w.decided.length = 2 ∧ ∀ report ∈ w.reports,
        report.isr.firstCurrent = some (Trio.proposal "a" 1 1 1)) := by
    decide +kernel
  obtain ⟨w, hw, hDecided⟩ := (Option.any_eq_true _ _).mp hEnd
  obtain ⟨hLength, hFirst⟩ := of_decide_eq_true hDecided
  refine ⟨w, hw, hLength, fun p hp q hq => ?_⟩
  refine returned_decisions_agree Trio.group 1 (.of_execute ?_ hw) ?_ hp hq
  · have hStarts : lateReproposal.all (startsIn Trio.group) := by decide +kernel
    have hNothing : lateReproposal.all installsNothing := by decide +kernel
    exact fun a ha w => ⟨coherent_of_startsIn hStarts ha, installsFormed_of_nothing hNothing w ha⟩
  · rintro Q p k q hQuorum hShown - ⟨report, hReport, -, -, -, hq⟩ -
    obtain ⟨j, hj⟩ := List.exists_mem_of_ne_nil _ hQuorum.nonempty
    obtain ⟨report', hReport', -, -, -, hp⟩ := hShown j hj
    have hEq := (hq.symm.trans (hFirst report hReport)).trans
      ((hFirst report' hReport').symm.trans hp)
    rw [Option.some.inj hEq]

end Reproposal

end Rhiza.Quepaxa
