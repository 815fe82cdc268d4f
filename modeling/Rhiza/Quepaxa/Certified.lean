import Rhiza.Library.Fallible
import Rhiza.Quepaxa.Preferred
import Rhiza.Quepaxa.Decided

/-! # Certified inspection

A decision proof is checked row by row against what the recorders reported, but
a Phase2 proof does not show that the recorders of its quorum had recorded the
proposal themselves. With that missing fact a proof is as good as a decision of
`drive`; without it an inspector can certify another value.
-/

namespace Rhiza.Quepaxa

open Core Library

section Runs

variable [Sha256] {R Fault Event : Type} [RecorderRpc R Fault Event]

structure Report.Backs (report : Report) (context : Context) (row : RecorderSummary) : Prop where
  recorder : report.recorderId = row.recorderId
  context_eq : report.context = context
  step_eq : report.isr.step = row.step
  first_eq : report.isr.firstCurrent = row.firstCurrent
  prior_eq : report.isr.aggregatePrior = row.aggregatePrior

omit [Sha256] in
theorem Report.backs_iff {report : Report} {context : Context} {row : RecorderSummary} :
    report.Backs context row ↔ report.recorderId = row.recorderId ∧ report.context = context ∧
      report.isr.step = row.step ∧ report.isr.firstCurrent = row.firstCurrent ∧
      report.isr.aggregatePrior = row.aggregatePrior :=
  ⟨fun h => ⟨h.recorder, h.context_eq, h.step_eq, h.first_eq, h.prior_eq⟩,
    fun ⟨h₁, h₂, h₃, h₄, h₅⟩ => ⟨h₁, h₂, h₃, h₄, h₅⟩⟩

instance (report : Report) (context : Context) (row : RecorderSummary) :
    Decidable (report.Backs context row) :=
  decidable_of_iff _ Report.backs_iff.symm

/-- A proof that passes `validate_for_cluster` and whose rows were all reported. -/
structure Certified (w : World R) (G : Group) (slot : Nat) (proof : DecisionProof) : Prop where
  valid : proof.validateForCluster G.clusterId slot G.epoch G.configId G.membership = .ok ()
  reported : ∀ row ∈ proof.summaries, ∃ report ∈ w.reports, report.Backs (G.context slot) row

def Recorded (w : World R) (G : Group) (slot : Nat) : DecisionProof → Prop
  | .fastPath .. => True
  | .phase2 _ _ _ _ _ _ proposal summaries => ∀ row ∈ summaries, ∃ report ∈ w.reports,
      report.Backs (G.context slot) row ∧ report.isr.aggregateCurrent = some proposal

instance (w : World R) (G : Group) (slot : Nat) (proof : DecisionProof) :
    Decidable (Recorded w G slot proof) :=
  match proof with
  | .fastPath .. => inferInstanceAs (Decidable True)
  | .phase2 _ _ _ _ _ _ _ summaries => inferInstanceAs (Decidable (∀ row ∈ summaries, _))

namespace Certified

variable {w : World R} {G : Group} {slot : Nat} {L : Ledger NodeId Proposal}

theorem decides {proof : DecisionProof} (hTracks : Tracks G slot w L)
    (h : Certified w G slot proof) (hRecorded : Recorded w G slot proof) :
    G.Decides L proof.proposal := by
  have hValid := DecisionProof.validateForCluster_eq_ok.mp h.valid
  have hQuorum : G.Quorum (proof.summaries.map (·.recorderId)) :=
    DecisionProof.majority_of_rowsMatch hValid.rows
  have hEvidence := hValid.evident
  cases hProof : proof with
  | fastPath clusterId proofSlot epoch configId configDigest proposal summaries =>
    subst hProof
    simp only [DecisionProof.evidence, decide_eq_true_eq, List.all_eq_true] at hEvidence
    refine .inl ⟨_, hQuorum, ?_, hValid.notNil, hEvidence.1⟩
    intro k hk
    obtain ⟨row, hRow, rfl⟩ := List.mem_map.mp hk
    obtain ⟨report, hReport, hBacks⟩ := h.reported row hRow
    have hSeen := hTracks.reports report hReport hBacks.context_eq
    have hFirst := hSeen.first proposal (hBacks.first_eq.trans (hEvidence.2 row hRow))
    have hStep := (DecisionProof.step_of_rowsMatch hValid.rows hRow).1
    rwa [hBacks.recorder, hBacks.step_eq, hStep] at hFirst
  | phase2 clusterId proofSlot epoch configId configDigest step proposal summaries =>
    subst hProof
    simp only [DecisionProof.evidence, decide_eq_true_eq] at hEvidence
    obtain ⟨hPhase, hMaximum⟩ := hEvidence
    obtain ⟨r, hr⟩ : ∃ r, step = 4 * r + 2 := ⟨step / 4, by omega⟩
    have hStep : ∀ row ∈ summaries, row.step = 4 * r + 2 := fun row hRow =>
      (DecisionProof.step_of_rowsMatch hValid.rows hRow).1.trans hr
    have hMem : ∀ row ∈ summaries, proposal ∈ L.recorded row.recorderId (4 * r + 2) := by
      intro row hRow
      obtain ⟨report, hReport, hBacks, hCurrent⟩ := hRecorded row hRow
      have hSeen := hTracks.reports report hReport hBacks.context_eq
      have hListed := hSeen.current proposal hCurrent
      rwa [hBacks.recorder, hBacks.step_eq, hStep row hRow] at hListed
    have hStart : 1 ≤ r := by
      obtain ⟨k, hk⟩ := List.exists_mem_of_ne_nil _ hQuorum.nonempty
      obtain ⟨row, hRow, rfl⟩ := List.mem_map.mp hk
      have := (hTracks.sound _ _ _ (hMem row hRow)).1
      omega
    refine .inr ⟨r, _, hStart, hQuorum, ?_, ?_, ?_⟩
    · intro k hk
      obtain ⟨row, hRow, rfl⟩ := List.mem_map.mp hk
      exact hMem row hRow
    · intro k hk
      obtain ⟨row, hRow, rfl⟩ := List.mem_map.mp hk
      obtain ⟨report, hReport, hBacks⟩ := h.reported row hRow
      have hSeen := hTracks.reports report hReport hBacks.context_eq
      have hLe := hSeen.step_le
      rwa [hBacks.recorder, hBacks.step_eq, hStep row hRow] at hLe
    · intro k hk q hq
      obtain ⟨row, hRow, rfl⟩ := List.mem_map.mp hk
      obtain ⟨report, hReport, hBacks⟩ := h.reported row hRow
      have hSeen := hTracks.reports report hReport hBacks.context_eq
      have hPrior := hSeen.prior (4 * r + 1) (by rw [hBacks.step_eq, hStep row hRow])
      rw [hBacks.recorder, hBacks.prior_eq] at hPrior
      exact le_maximum_of_greatest hMaximum hRow hPrior hq

end Certified

theorem selectDecisionProof_single {e : ThreeNodeConsensus} {slot : Nat}
    {proof proof' : DecisionProof} (h : e.selectDecisionProof slot [proof] = .ok (some proof')) :
    proof' = proof ∧
      proof.validateForCluster e.clusterId slot e.epoch e.configId e.membership = .ok () := by
  simp only [ThreeNodeConsensus.selectDecisionProof, ThreeNodeConsensus.validateAll] at h
  split at h
  · cases h
  · rename_i hAll
    split at hAll
    · cases hAll
    · rename_i hValid
      refine ⟨?_, hValid⟩
      simpa using h.symm

theorem rows_of_proofAtStep {e : ThreeNodeConsensus} {slot step : Nat}
    {summaries : List RecordSummary} {proof : DecisionProof}
    (h : e.proofAtStep slot step summaries = some proof) :
    proof.summaries = summaries.map (·.row) := by
  unfold ThreeNodeConsensus.proofAtStep at h
  split at h
  · obtain ⟨proposal, -, rfl⟩ := Option.map_eq_some_iff.mp h
    rfl
  · split at h
    · obtain ⟨proposal, -, rfl⟩ := Option.map_eq_some_iff.mp h
      rfl
    · cases h

/-- Without installed proofs, what `proof_from_record_summaries` assembles from
reported summaries is certified. -/
theorem certified_of_proofFromRecordSummaries {w : World R} {e : ThreeNodeConsensus} {slot : Nat}
    {summaries : List RecordSummary} {proof : DecisionProof}
    (hUndecided : ∀ summary ∈ summaries, summary.decided = none)
    (hReported : ∀ summary ∈ summaries, ∃ report ∈ w.reports,
      report.Backs (e.context slot) summary.row)
    (h : e.proofFromRecordSummaries slot summaries = .ok (some proof)) :
    Certified w e.toGroup slot proof := by
  have hNone : (sortByRecorder summaries).filterMap (·.decided) = [] := by
    refine List.filterMap_eq_nil_iff.mpr fun summary hSummary => ?_
    exact hUndecided summary (mem_of_mem_sortByRecorder hSummary)
  simp only [ThreeNodeConsensus.proofFromRecordSummaries, hNone] at h
  have h := Except.ok.inj h
  obtain ⟨step, -, hStep⟩ := List.exists_of_findSome?_eq_some h
  simp only [ThreeNodeConsensus.proofOfStep] at hStep
  split at hStep
  · cases hStep
  · split at hStep
    · cases hStep
    · rename_i assembled hAssembled
      split at hStep
      · rename_i selected hSelected
        obtain ⟨rfl, hValid⟩ := selectDecisionProof_single hSelected
        obtain rfl := Option.some.inj hStep
        refine ⟨hValid, ?_⟩
        intro row hRow
        rw [rows_of_proofAtStep hAssembled] at hRow
        obtain ⟨summary, hSummary, rfl⟩ := List.mem_map.mp hRow
        exact hReported summary (mem_of_mem_sortByRecorder
          (List.mem_filter.mp (List.mem_of_mem_take hSummary)).1)
      · cases hStep

/-- What the receive loop ends with: the summaries it counted, or a proof of them. -/
theorem gathered_of_gatherSummaries {e : ThreeNodeConsensus} {slot successful : Nat}
    {workerFailed : Bool} {summaries : List RecordSummary}
    {results : List (Nat × Result (Option RecordSummary))} {P : RecordSummary → Prop}
    {found : DecisionProof ⊕ (Nat × Bool × List RecordSummary)}
    (hSummaries : ∀ summary ∈ summaries, P summary)
    (hResults : ∀ answer ∈ results, ∀ summary, answer.2 = .ok (some summary) → P summary)
    (h : e.gatherSummaries slot successful workerFailed summaries results = .ok found) :
    ∃ gathered, (∀ summary ∈ gathered, P summary) ∧
      match found with
      | .inl proof => e.proofFromRecordSummaries slot gathered = .ok (some proof)
      | .inr (_, _, last) => last = gathered := by
  induction results generalizing successful workerFailed summaries with
  | nil =>
    obtain rfl := Except.ok.inj h
    exact ⟨summaries, hSummaries, rfl⟩
  | cons answer rest ih =>
    obtain ⟨index, result⟩ := answer
    have hRest : ∀ answer ∈ rest, ∀ summary, answer.2 = .ok (some summary) → P summary :=
      fun answer hAnswer => hResults answer (List.mem_cons_of_mem _ hAnswer)
    unfold ThreeNodeConsensus.gatherSummaries at h
    extract_lets counted successful' next workerFailed' at h
    have hNext : ∀ summary ∈ next, P summary := by
      intro summary hSummary
      rcases result with error | none | given
      · exact hSummaries summary hSummary
      · exact hSummaries summary hSummary
      · by_cases hCounted : counted
        · simp only [next, if_pos hCounted, List.mem_append, List.mem_singleton] at hSummary
          obtain hOld | rfl := hSummary
          · exact hSummaries summary hOld
          · exact hResults _ List.mem_cons_self summary rfl
        · simp only [next, if_neg hCounted] at hSummary
          exact hSummaries summary hSummary
    clear_value next successful' workerFailed'
    split at h
    · split at h
      · cases h
      · rename_i proof hProof
        obtain rfl := Except.ok.inj h
        exact ⟨next, hNext, hProof⟩
      · exact ih hNext hRest h
    · exact ih hNext hRest h

theorem proof_of_certifiedInspectionFromProof {e : ThreeNodeConsensus} {slot : Nat}
    {prevHash : LogHash} {proof : DecisionProof} {fetched : ControlReplies (Option StoredCommand)}
    {installs : ControlReplies Unit} {certified : CertifiedDecision}
    (h : e.certifiedInspectionFromProof slot prevHash proof fetched installs =
      .ok (.committed certified)) : certified.proof = proof := by
  obtain ⟨decision, -, h⟩ := bind_ok_iff.mp h
  obtain ⟨-, -, h⟩ := bind_ok_iff.mp h
  obtain ⟨command, -, h⟩ := bind_ok_iff.mp h
  cases command with
  | none => cases Except.ok.inj h
  | some command =>
    dsimp only at h
    have hEntry : (e.logEntryFromValue slot command decision.value >>= fun entry =>
        Except.ok (CertifiedDecisionInspection.committed ⟨entry, decision, proof⟩)) =
        .ok (.committed certified) := by
      split at h
      · exact (bind_ok_iff.mp h).choose_spec.2
      · exact h
    obtain ⟨entry, -, hEntry⟩ := bind_ok_iff.mp hEntry
    cases Except.ok.inj hEntry
    rfl

/-- What the certified inspection commits is certified, if no recorder that
answered had a proof installed. -/
theorem certified_of_inspectTypedRecordSummaries {w : World R} {e : ThreeNodeConsensus}
    {slot : Nat} {prevHash : LogHash} {answers : IndexedReplies (Option RecordSummary)}
    {fetched : ControlReplies (Option StoredCommand)} {installs : ControlReplies Unit}
    {certified : CertifiedDecision}
    (hAnswers : ∀ answer ∈ answers.results, ∀ summary, answer.2 = .ok (some summary) →
      summary.decided = none ∧ ∃ report ∈ w.reports, report.Backs (e.context slot) summary.row)
    (h : e.inspectTypedRecordSummaries slot prevHash answers fetched installs =
      .ok (.committed certified)) :
    Certified w e.toGroup slot certified.proof := by
  have hCertified : ∀ {gathered proof}, (∀ summary ∈ gathered, summary.decided = none ∧
      ∃ report ∈ w.reports, report.Backs (e.context slot) summary.row) →
      e.proofFromRecordSummaries slot gathered = .ok (some proof) →
      e.certifiedInspectionFromProof slot prevHash proof fetched installs =
        .ok (.committed certified) → Certified w e.toGroup slot certified.proof := by
    intro gathered proof hGathered hProof hInspected
    rw [proof_of_certifiedInspectionFromProof hInspected]
    exact certified_of_proofFromRecordSummaries (fun summary hSummary => (hGathered summary hSummary).1)
      (fun summary hSummary => (hGathered summary hSummary).2) hProof
  unfold ThreeNodeConsensus.inspectTypedRecordSummaries at h
  split at h
  · cases h
  · rename_i proof hFound
    obtain ⟨gathered, hGathered, hProof⟩ := gathered_of_gatherSummaries (fun _ h => nomatch h)
      hAnswers hFound
    exact hCertified hGathered hProof h
  · rename_i successful workerFailed summaries hFound
    obtain ⟨gathered, hGathered, rfl⟩ := gathered_of_gatherSummaries (fun _ h => nomatch h)
      hAnswers hFound
    dsimp only at h
    split at h
    · split at h <;> cases h
    · split at h
      · cases h
      · split at h
        · cases h
        · split at h
          · cases h
          · rename_i proof hProof
            exact hCertified hGathered hProof h
          · cases h

/-- Certified proofs agree with every decision of `drive` and with each other in
every run that keeps the fast path unique, as long as the reports behind a Phase2
proof held its proposal. -/
theorem certified_decisions_agree (G : Group) (slot : Nat) {w : World IsrRecorder}
    (hRun : Run World.step (fun _ a => Coherent G a) (World.init G.recorders) w)
    (hUnique : w.FastPathUnique G slot) {proof : DecisionProof}
    (hCertified : Certified w G slot proof) (hRecorded : Recorded w G slot proof) :
    (∀ formed ∈ w.formed, formed.context = G.context slot → proof.value = formed.value) ∧
      ∀ other, Certified w G slot other → Recorded w G slot other → proof.value = other.value := by
  obtain ⟨L, hTracks⟩ := Tracks.run (fun _ _ h => h) (G.register_recorders slot) hRun
  have hFast := hTracks.fastUnique_of_reports hUnique
  have hDecides := hCertified.decides hTracks hRecorded
  refine ⟨?_, ?_⟩
  · intro formed hFormed hContext
    exact hDecides.value_eq hTracks.sound hFast (hTracks.formed formed hFormed hContext)
  · intro other hOther hOtherRecorded
    exact hDecides.value_eq hTracks.sound hFast (hOther.decides hTracks hOtherRecorded)

end Runs

section Inspector

open scoped Trio

/-- Proposer `b` is first on `a` and `b`, proposer `c` with a greater priority is
first on `c`, and each continues with its own proposal: `b` spreads to `a` and
`b`, `c` only to `c`. When `b` moves on to step 6 it decides with `a` and `b`,
while the register of `c` keeps the proposal of `c` as its prior aggregate. -/
def rivals : List (Action Unit Empty) :=
  [Trio.start "b" 1 1 2, Trio.start "c" 1 1 3,
    .broadcast 0 (Trio.fetch []) (Trio.priority 5), .broadcast 1 (Trio.fetch []) (Trio.priority 9),
    .deliver 0 0 (), .deliver 0 1 (), .deliver 1 2 (), .deliver 1 0 (),
    Trio.resume 0 [0, 1] [], Trio.resume 1 [2, 3] [],
    .broadcast 2 (Trio.fetch []) (Trio.priority 5), .broadcast 3 (Trio.fetch []) (Trio.priority 9),
    .deliver 2 0 (), .deliver 2 1 (), .deliver 3 2 (),
    Trio.resume 2 [4, 5] [],
    .broadcast 4 (Trio.fetch []) (Trio.priority 5),
    .deliver 4 0 (), .deliver 4 1 (), .deliver 4 2 (),
    Trio.resume 4 [7, 8] [],
    .inspect "a" () 1, .inspect "b" () 1, .inspect "c" () 1]

def summariesOf (w : World IsrRecorder) (recorders : List NodeId) : List RecordSummary :=
  recorders.filterMap fun k =>
    ((RecorderRpc.inspectRecordSummary (w.recorders k) () 1).2.toOption).join

def Readable (w : World IsrRecorder) (recorders : List NodeId) : Prop :=
  (∀ summary ∈ summariesOf w recorders, summary.decided = none) ∧
    ∀ summary ∈ summariesOf w recorders, ∃ report ∈ w.reports,
      report.Backs (Trio.group.context 1) summary.row

instance (w : World IsrRecorder) (recorders : List NodeId) : Decidable (Readable w recorders) :=
  inferInstanceAs (Decidable (_ ∧ _))

theorem rivals_run {w : World IsrRecorder}
    (h : execute World.step (World.init Trio.group.recorders) rivals = some w) :
    Run World.step (fun _ a => Coherent Trio.group a) (World.init Trio.group.recorders) w := by
  have hStarts : rivals.all (startsIn Trio.group) := by decide +kernel
  exact .of_execute (fun a ha _ => coherent_of_startsIn hStarts ha) h

theorem ok_of_toOption_join {α : Type} {result : Result (Option α)} {x : α}
    (h : result.toOption.join = some x) : result = .ok (some x) := by
  cases result with
  | error e => cases h
  | ok found =>
    cases found with
    | none => cases h
    | some y =>
      obtain rfl := Option.some.inj h
      rfl

/-- An inspector that reads `a` and `c` certifies the value of `c`, although the
value of `b` was decided. -/
theorem inspector_certifies_another_value : ∃ w : World IsrRecorder,
    Run World.step (fun _ a => Coherent Trio.group a) (World.init Trio.group.recorders) w ∧
    ∃ proof, (Trio.engine "b").proofFromRecordSummaries 1 (summariesOf w ["a", "c"]) =
        .ok (some proof) ∧
      Certified w Trio.group 1 proof ∧ ∃ formed ∈ w.formed,
        formed.context = Trio.group.context 1 ∧ proof.value ≠ formed.value := by
  have hEnd : (execute World.step (World.init Trio.group.recorders) rivals).any fun w =>
      decide (Readable w ["a", "c"]) &&
        ((Trio.engine "b").proofFromRecordSummaries 1
          (summariesOf w ["a", "c"])).toOption.join.any fun proof =>
            decide (∃ formed ∈ w.formed,
              formed.context = Trio.group.context 1 ∧ proof.value ≠ formed.value) := by
    decide +kernel
  obtain ⟨w, hw, hRead⟩ := (Option.any_eq_true _ _).mp hEnd
  rw [Bool.and_eq_true] at hRead
  obtain ⟨hReadable, hProof⟩ := hRead
  obtain ⟨hUndecided, hReported⟩ := of_decide_eq_true hReadable
  obtain ⟨proof, hSome, hProof⟩ := (Option.any_eq_true _ _).mp hProof
  have hAssembled := ok_of_toOption_join hSome
  exact ⟨w, rivals_run hw, proof, hAssembled,
    certified_of_proofFromRecordSummaries hUndecided hReported hAssembled,
    of_decide_eq_true hProof⟩

/-- An inspector that reads `a` and `b` sees registers that hold the decided proposal. -/
theorem inspector_certifies_decided_value : ∃ w : World IsrRecorder,
    execute World.step (World.init Trio.group.recorders) rivals = some w ∧ w.formed.length = 1 ∧
    ∃ proof, (Trio.engine "b").proofFromRecordSummaries 1 (summariesOf w ["a", "b"]) =
        .ok (some proof) ∧
      ∀ formed ∈ w.formed, formed.context = Trio.group.context 1 → proof.value = formed.value := by
  have hEnd : (execute World.step (World.init Trio.group.recorders) rivals).any fun w =>
      decide (Readable w ["a", "b"] ∧ w.formed.length = 1 ∧ ∀ report ∈ w.reports,
        report.isr.firstCurrent.all fun p => p.priority ≠ ProposalPriority.max) &&
        ((Trio.engine "b").proofFromRecordSummaries 1
          (summariesOf w ["a", "b"])).toOption.join.any fun proof =>
            decide (Recorded w Trio.group 1 proof) := by
    decide +kernel
  obtain ⟨w, hw, hRead⟩ := (Option.any_eq_true _ _).mp hEnd
  rw [Bool.and_eq_true] at hRead
  obtain ⟨hState, hProof⟩ := hRead
  obtain ⟨⟨hUndecided, hReported⟩, hLength, hBelow⟩ := of_decide_eq_true hState
  obtain ⟨proof, hSome, hProof⟩ := (Option.any_eq_true _ _).mp hProof
  have hAssembled := ok_of_toOption_join hSome
  have hUnique : w.FastPathUnique Trio.group 1 := by
    rintro Q p k q hQuorum hShown hMax -
    obtain ⟨j, hj⟩ := List.exists_mem_of_ne_nil _ hQuorum.nonempty
    obtain ⟨report, hReport, -, -, -, hFirst⟩ := hShown j hj
    have hNot := hBelow report hReport
    rw [hFirst] at hNot
    simp [hMax] at hNot
  have hCertified := certified_of_proofFromRecordSummaries hUndecided hReported hAssembled
  exact ⟨w, hw, hLength, proof, hAssembled, (certified_decisions_agree Trio.group 1
    (rivals_run hw) hUnique hCertified (of_decide_eq_true hProof)).1⟩

end Inspector

end Rhiza.Quepaxa
