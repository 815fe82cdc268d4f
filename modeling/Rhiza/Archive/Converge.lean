import Rhiza.Archive.Execution

/-! # Executions of one plan converge

The invariant says what each call has seen by the time it reaches a phase. It is kept because
the world only grows: evidence and a report are never taken back, what is gone does not return
unless somebody creates it again, and what the plan has retired stays retired.
-/

namespace Rhiza.Archive.Execution

open Core Library

def Retired (planHash : LogHash) (generations : List GenerationCatalogEntry)
    (identity : CheckpointIdentity) : Prop :=
  ∃ entry ∈ generations, entry.identity = identity ∧
    ∃ retiredAtMs, entry.lifecycle = .retired planHash retiredAtMs

def KeepsRetired (planHash : LogHash) (before after : List GenerationCatalogEntry) : Prop :=
  ∀ identity, Retired planHash before identity → Retired planHash after identity

section Retirement

variable {plan : Plan} {planHash : LogHash} {nowMs : Nat} {identity : CheckpointIdentity}

theorem KeepsRetired.refl (generations : List GenerationCatalogEntry) :
    KeepsRetired planHash generations generations := fun _ h => h

theorem KeepsRetired.cons {entry entry' : GenerationCatalogEntry}
    {before after : List GenerationCatalogEntry} (h : KeepsRetired planHash before after)
    (hIdentity : entry'.identity = entry.identity)
    (hEntry : ∀ retiredAtMs, entry.lifecycle = .retired planHash retiredAtMs →
      ∃ retiredAtMs, entry'.lifecycle = .retired planHash retiredAtMs) :
    KeepsRetired planHash (entry :: before) (entry' :: after) := by
  rintro identity ⟨kept, hMem, hKept, retiredAtMs, hRetired⟩
  rcases List.mem_cons.mp hMem with rfl | hMem
  · exact ⟨entry', List.mem_cons_self, hIdentity.trans hKept, hEntry retiredAtMs hRetired⟩
  · obtain ⟨kept', hMem', hKept'⟩ := h identity ⟨kept, hMem, hKept, retiredAtMs, hRetired⟩
    exact ⟨kept', List.mem_cons_of_mem _ hMem', hKept'⟩

theorem retireGeneration_spec {generations generations' : List GenerationCatalogEntry}
    (h : GcControl.retireGeneration plan nowMs identity generations = .ok generations') :
    Retired plan.planHash generations' identity ∧
      KeepsRetired plan.planHash generations generations' := by
  induction generations generalizing generations' with
  | nil => cases h
  | cons entry rest ih =>
    unfold GcControl.retireGeneration at h
    split at h
    case isTrue hIdentity =>
      split at h
      case h_1 hActive =>
        cases h
        refine ⟨⟨_, List.mem_cons_self, hIdentity, nowMs, rfl⟩, ?_⟩
        refine (KeepsRetired.refl rest).cons rfl ?_
        intro retiredAtMs hRetired
        rw [hActive] at hRetired
        cases hRetired
      case h_2 planHash retiredAtMs hRetired =>
        split at h
        case isTrue hHash =>
          cases h
          refine ⟨⟨_, List.mem_cons_self, hIdentity, retiredAtMs, ?_⟩, KeepsRetired.refl _⟩
          rw [hRetired, hHash]
        case isFalse => cases h
    case isFalse =>
      obtain ⟨rest', hRest, h⟩ := bind_ok_iff.mp h
      cases h
      obtain ⟨⟨kept, hMem, hKept⟩, hKeeps⟩ := ih hRest
      exact ⟨⟨kept, List.mem_cons_of_mem _ hMem, hKept⟩,
        hKeeps.cons rfl fun retiredAtMs hRetired => ⟨retiredAtMs, hRetired⟩⟩

theorem retireGenerations_spec {swept : List CheckpointIdentity}
    {generations generations' : List GenerationCatalogEntry}
    (h : swept.foldlM (fun generations identity =>
      GcControl.retireGeneration plan nowMs identity generations) generations = .ok generations') :
    (∀ identity ∈ swept, Retired plan.planHash generations' identity) ∧
      KeepsRetired plan.planHash generations generations' := by
  induction swept generalizing generations with
  | nil =>
    cases h
    exact ⟨fun _ hMem => absurd hMem List.not_mem_nil, KeepsRetired.refl _⟩
  | cons first swept ih =>
    rw [List.foldlM_cons] at h
    obtain ⟨between, hFirst, h⟩ := bind_ok_iff.mp h
    obtain ⟨hRetired, hKeeps⟩ := retireGeneration_spec hFirst
    obtain ⟨hAll, hKeeps'⟩ := ih h
    refine ⟨?_, fun identity h => hKeeps' identity (hKeeps identity h)⟩
    intro identity hMem
    rcases List.mem_cons.mp hMem with rfl | hMem
    · exact hKeeps' identity hRetired
    · exact hAll identity hMem

theorem ChangedByOthers.keepsRetired {control next : GcControl}
    (h : ChangedByOthers control next) :
    KeepsRetired planHash control.generations next.generations := by
  cases h with
  | moved => exact KeepsRetired.refl _
  | registered identity registeredAtMs =>
    rintro identity ⟨entry, hMem, hEntry⟩
    refine ⟨entry, ?_, hEntry⟩
    rw [List.mem_insertionSort]
    exact List.mem_append_left _ hMem
  | retired swept otherHash nowMs =>
    rintro identity ⟨entry, hMem, hIdentity, retiredAtMs, hRetired⟩
    refine ⟨entry, List.mem_map.mpr ⟨entry, hMem, if_neg ?_⟩, hIdentity, retiredAtMs, hRetired⟩
    rintro ⟨-, hActive⟩
    rw [hActive] at hRetired
    cases hRetired

variable {control next : GcControl}

theorem acquireGcBarrier_generations [CatalogHash]
    (h : control.acquireGcBarrier plan nowMs = .ok next) :
    next.generations = control.generations := by
  simp only [GcControl.acquireGcBarrier] at h
  split at h
  · obtain ⟨-, h⟩ := unit_bind_ok_iff.mp h
    cases h
    rfl
  · obtain ⟨-, h⟩ := unit_bind_ok_iff.mp h
    cases h
    rfl

theorem enterDeletePhase_generations (h : control.enterDeletePhase plan nowMs = .ok next) :
    next.generations = control.generations := by
  obtain ⟨active, -, h⟩ := bind_ok_iff.mp h
  split at h
  · cases h
    rfl
  · obtain ⟨-, h⟩ := unit_bind_ok_iff.mp h
    cases h
    rfl

theorem clearGcBarrier_generations (h : control.clearGcBarrier plan = .ok next) :
    next.generations = control.generations := by
  unfold GcControl.clearGcBarrier at h
  split at h
  · cases h
    rfl
  · obtain ⟨-, h⟩ := unit_bind_ok_iff.mp h
    cases h
    rfl

theorem retirePlanGenerations_spec (h : control.retirePlanGenerations plan nowMs = .ok next) :
    (∀ identity ∈ plan.sweptGenerations, Retired plan.planHash next.generations identity) ∧
      KeepsRetired plan.planHash control.generations next.generations := by
  unfold GcControl.retirePlanGenerations at h
  split at h
  · cases h
  · obtain ⟨-, h⟩ := unit_bind_ok_iff.mp h
    obtain ⟨generations, hGenerations, h⟩ := bind_ok_iff.mp h
    cases h
    exact retireGenerations_spec hGenerations

end Retirement

def Records (plan : Plan) (candidate : GcCandidate) (evidence : GcEvidence) : Prop :=
  evidence.planHash = plan.planHash ∧ evidence.key = candidate.checkpointKey ∧
    evidence.version = candidate.metadata.version

def Swept (plan : Plan) (w : World) : Prop :=
  ∀ identity ∈ plan.sweptGenerations, Retired plan.planHash w.control.generations identity

structure Filled (plan : Plan) (w : World) (results : List GcEvidence) : Prop where
  length_le : results.length ≤ plan.candidates.length
  stored : ∀ (i : Nat) evidence candidate, results[i]? = some evidence →
    plan.candidates[i]? = some candidate →
      Records plan candidate evidence ∧ w.evidence candidate.checkpointKey = some evidence

structure Complete (plan : Plan) (w : World) (report : GcExecutionReport) : Prop where
  planHash : report.planHash = plan.planHash
  filled : Filled plan w report.results
  length_eq : report.results.length = plan.candidates.length
  swept : Swept plan w

/-- The object is absent, or was created again after it was. -/
def World.Gone (w : World) (key : CheckpointKey) : Prop :=
  w.objects key = none ∨ w.remade key = true

def Phase.Sound (plan : Plan) (w : World) : Phase → Prop
  | .validating results | .loadingEvidence results | .checking results | .deleting results
  | .readingEvidence results => Swept plan w ∧ Filled plan w results
  | .recording results evidence =>
    Swept plan w ∧ Filled plan w results ∧
      ∀ candidate, plan.candidates[results.length]? = some candidate →
        Records plan candidate evidence ∧ w.Gone candidate.checkpointKey
  | .reporting results =>
    Swept plan w ∧ Filled plan w results ∧ results.length = plan.candidates.length
  | .clearing report | .finished (.ok report) => w.report = some report
  | _ => True

structure Sound (plan : Plan) (w : World) : Prop where
  gone : ∀ key evidence, w.evidence key = some evidence → w.Gone key
  calls : ∀ call ∈ w.calls, call.phase.Sound plan w
  report : ∀ report, w.report = some report → Complete plan w report

structure Grows (plan : Plan) (w w' : World) : Prop where
  evidence : ∀ key evidence, w.evidence key = some evidence → w'.evidence key = some evidence
  report : ∀ report, w.report = some report → w'.report = some report
  gone : ∀ key, w.Gone key → w'.Gone key
  retired : KeepsRetired plan.planHash w.control.generations w'.control.generations

section Invariant

variable {plan : Plan} {w w' : World} {position : Nat} {call : Call} {phase : Phase}
  {results : List GcEvidence} {candidate : GcCandidate} {evidence : GcEvidence}

theorem Grows.refl (w : World) : Grows plan w w where
  evidence := fun _ _ h => h
  report := fun _ h => h
  gone := fun _ h => h
  retired := KeepsRetired.refl _

theorem Grows.trans {w'' : World} (h : Grows plan w w') (h' : Grows plan w' w'') :
    Grows plan w w'' where
  evidence := fun key evidence hHere => h'.evidence key evidence (h.evidence key evidence hHere)
  report := fun report hHere => h'.report report (h.report report hHere)
  gone := fun key hHere => h'.gone key (h.gone key hHere)
  retired := fun identity hHere => h'.retired identity (h.retired identity hHere)

theorem Grows.move {calls : List Call} {control : GcControl} {rootManifest : LogHash}
    (hKeeps : KeepsRetired plan.planHash w.control.generations control.generations) :
    Grows plan w { w with calls, control, rootManifest } where
  evidence := fun _ _ h => h
  report := fun _ h => h
  gone := fun _ h => h
  retired := hKeeps

theorem Swept.mono (hGrows : Grows plan w w') (h : Swept plan w) : Swept plan w' :=
  fun identity hMem => hGrows.retired identity (h identity hMem)

theorem Filled.mono (hGrows : Grows plan w w') (h : Filled plan w results) :
    Filled plan w' results where
  length_le := h.length_le
  stored := by
    intro i evidence candidate hEvidence hCandidate
    obtain ⟨hRecords, hStored⟩ := h.stored i evidence candidate hEvidence hCandidate
    exact ⟨hRecords, hGrows.evidence _ _ hStored⟩

theorem Complete.mono {report : GcExecutionReport} (hGrows : Grows plan w w')
    (h : Complete plan w report) : Complete plan w' report where
  planHash := h.planHash
  filled := h.filled.mono hGrows
  length_eq := h.length_eq
  swept := h.swept.mono hGrows

theorem Phase.Sound.mono (hGrows : Grows plan w w') (h : phase.Sound plan w) :
    phase.Sound plan w' := by
  cases phase with
  | validating results => exact ⟨h.1.mono hGrows, h.2.mono hGrows⟩
  | loadingEvidence results => exact ⟨h.1.mono hGrows, h.2.mono hGrows⟩
  | checking results => exact ⟨h.1.mono hGrows, h.2.mono hGrows⟩
  | deleting results => exact ⟨h.1.mono hGrows, h.2.mono hGrows⟩
  | readingEvidence results => exact ⟨h.1.mono hGrows, h.2.mono hGrows⟩
  | recording results evidence =>
    obtain ⟨hSwept, hFilled, hNext⟩ := h
    refine ⟨hSwept.mono hGrows, hFilled.mono hGrows, ?_⟩
    intro candidate hCandidate
    obtain ⟨hRecords, hGone⟩ := hNext candidate hCandidate
    exact ⟨hRecords, hGrows.gone _ hGone⟩
  | reporting results => exact ⟨h.1.mono hGrows, h.2.1.mono hGrows, h.2.2⟩
  | clearing report => exact hGrows.report _ h
  | finished result =>
    cases result with
    | ok report => exact hGrows.report _ h
    | error error => trivial
  | _ => trivial

theorem Filled.nil (w : World) : Filled plan w [] where
  length_le := Nat.zero_le _
  stored := by
    intro i evidence candidate hEvidence
    cases hEvidence

theorem Filled.snoc (h : Filled plan w results)
    (hCandidate : plan.candidates[results.length]? = some candidate)
    (hRecords : Records plan candidate evidence)
    (hStored : w.evidence candidate.checkpointKey = some evidence) :
    Filled plan w (results ++ [evidence]) where
  length_le := by
    obtain ⟨hLt, -⟩ := List.getElem?_eq_some_iff.mp hCandidate
    rw [List.length_append, List.length_singleton]
    exact hLt
  stored := by
    intro i evidence' candidate' hEvidence hCandidate'
    rcases Nat.lt_or_ge i results.length with hLt | hGe
    · rw [List.getElem?_append_left hLt] at hEvidence
      exact h.stored i evidence' candidate' hEvidence hCandidate'
    · obtain ⟨hIn, -⟩ := List.getElem?_eq_some_iff.mp hEvidence
      rw [List.length_append, List.length_singleton] at hIn
      obtain rfl : i = results.length := by omega
      rw [List.getElem?_concat_length] at hEvidence
      obtain rfl := Option.some.inj hEvidence
      obtain rfl := Option.some.inj (hCandidate.symm.trans hCandidate')
      exact ⟨hRecords, hStored⟩

theorem nextCandidate_sound (hSwept : Swept plan w) (hFilled : Filled plan w results) :
    (World.nextCandidate plan results).Sound plan w := by
  unfold World.nextCandidate
  split
  case isTrue => exact ⟨hSwept, hFilled⟩
  case isFalse hEnd =>
    exact ⟨hSwept, hFilled, Nat.le_antisymm hFilled.length_le (Nat.le_of_not_lt hEnd)⟩

theorem loadGcEvidence_some
    (h : w.loadGcEvidence plan candidate = .ok (some evidence)) :
    Records plan candidate evidence ∧ w.evidence candidate.checkpointKey = some evidence := by
  unfold World.loadGcEvidence at h
  split at h
  case h_1 => cases h
  case h_2 stored hStored =>
    obtain ⟨hRecords, h⟩ := unit_bind_ok_iff.mp h
    cases h
    have hRecords := ensure_ok_iff.mp hRecords
    exact ⟨hRecords, hStored⟩

theorem Sound.next (h : Sound plan w) (hGrows : Grows plan w w')
    (hGone : ∀ key evidence, w'.evidence key = some evidence →
      w.evidence key = some evidence ∨ w'.Gone key)
    (hCalls : ∀ call ∈ w'.calls, call ∈ w.calls ∨ call.phase.Sound plan w')
    (hReport : ∀ report, w'.report = some report →
      w.report = some report ∨ Complete plan w' report) : Sound plan w' where
  gone := by
    intro key evidence hEvidence
    rcases hGone key evidence hEvidence with hOld | hNew
    · exact hGrows.gone key (h.gone key evidence hOld)
    · exact hNew
  calls := by
    intro call hMem
    rcases hCalls call hMem with hOld | hNew
    · exact (h.calls call hOld).mono hGrows
    · exact hNew
  report := by
    intro report hHere
    rcases hReport report hHere with hOld | hNew
    · exact (h.report report hOld).mono hGrows
    · exact hNew

def Keeps (plan : Plan) (w w' : World) : Prop := Grows plan w w' ∧ Sound plan w'

theorem mem_calls_setPhase {call' : Call}
    (h : call' ∈ (w.setPhase position call phase).calls) :
    call' ∈ w.calls ∨ call' = { call with phase } :=
  List.mem_or_eq_of_mem_set h

theorem Sound.move (h : Sound plan w) {control : GcControl}
    (hKeeps : KeepsRetired plan.planHash w.control.generations control.generations)
    (hPhase : phase.Sound plan { w.setPhase position call phase with control }) :
    Keeps plan w { w.setPhase position call phase with control } := by
  have hGrows : Grows plan w { w.setPhase position call phase with control } := Grows.move hKeeps
  refine ⟨hGrows, h.next hGrows (fun _ _ hHere => .inl hHere) ?_ fun _ hHere => .inl hHere⟩
  intro call' hMem
  rcases mem_calls_setPhase hMem with hOld | rfl
  · exact .inl hOld
  · exact .inr hPhase

theorem Phase.Sound.frame {calls : List Call} (h : phase.Sound plan w) :
    phase.Sound plan { w with calls } :=
  h.mono (Grows.move (KeepsRetired.refl _))

theorem Sound.setPhase (h : Sound plan w) (hPhase : phase.Sound plan w) :
    Keeps plan w (w.setPhase position call phase) := by
  have hMove : Keeps plan w { w.setPhase position call phase with control := w.control } :=
    h.move (KeepsRetired.refl _) hPhase.frame
  exact hMove

theorem Sound.refuse (h : Sound plan w) (error : ExecutionError) :
    Keeps plan w (w.refuse position call error) := by
  unfold World.refuse
  split
  · exact h.setPhase trivial
  · exact h.setPhase trivial

theorem Sound.swap (h : Sound plan w) {outcome : Outcome GcControl}
    (hOk : ∀ control, outcome = .ok control →
      KeepsRetired plan.planHash w.control.generations control.generations ∧
        phase.Sound plan { w with control }) :
    Keeps plan w (w.swap position call phase outcome) := by
  cases outcome with
  | error error => exact h.refuse error
  | ok control =>
    obtain ⟨hKeeps, hPhase⟩ := hOk control rfl
    exact h.move hKeeps hPhase.frame

theorem World.remove_gone (w : World) (key : CheckpointKey) : (w.remove key).Gone key :=
  .inl (Function.update_self ..)

theorem Grows.remove (key : CheckpointKey) : Grows plan w (w.remove key) where
  evidence := fun _ _ hHere => hHere
  report := fun _ hHere => hHere
  gone := by
    intro other hGone
    by_cases hKey : other = key
    · rw [hKey]
      exact w.remove_gone key
    · exact hGone.imp (Function.update_of_ne hKey ..).trans (Function.update_of_ne hKey ..).trans
  retired := KeepsRetired.refl _

theorem Grows.create (key : CheckpointKey) (version : Nat) :
    Grows plan w (w.create key version) where
  evidence := fun _ _ hHere => hHere
  report := fun _ hHere => hHere
  gone := by
    intro other hGone
    by_cases hKey : other = key
    · rw [hKey]
      exact .inr (Function.update_self ..)
    · exact hGone.imp (Function.update_of_ne hKey ..).trans (Function.update_of_ne hKey ..).trans
  retired := KeepsRetired.refl _

theorem Grows.record {key : CheckpointKey} (hNone : w.evidence key = none) :
    Grows plan w { w with evidence := Function.update w.evidence key (some evidence) } where
  evidence := by
    intro other stored hStored
    have hKey : other ≠ key := by
      rintro rfl
      rw [hNone] at hStored
      cases hStored
    exact (Function.update_of_ne hKey ..).trans hStored
  report := fun _ hHere => hHere
  gone := fun _ hHere => hHere
  retired := KeepsRetired.refl _

theorem Grows.publishReport {report : GcExecutionReport} (hNone : w.report = none) :
    Grows plan w { w with report := some report } where
  evidence := fun _ _ hHere => hHere
  report := by
    intro other hOther
    rw [hNone] at hOther
    cases hOther
  gone := fun _ hHere => hHere
  retired := KeepsRetired.refl _

theorem Keeps.trans {w'' : World} (h : Keeps plan w w') (h' : Sound plan w' → Keeps plan w' w'') :
    Keeps plan w w'' :=
  ⟨h.1.trans (h' h.2).1, (h' h.2).2⟩

theorem Sound.remove (h : Sound plan w) (key : CheckpointKey) : Keeps plan w (w.remove key) :=
  ⟨Grows.remove key, h.next (Grows.remove key) (fun _ _ hHere => .inl hHere)
    (fun _ hMem => .inl hMem) fun _ hHere => .inl hHere⟩

theorem Sound.create (h : Sound plan w) (key : CheckpointKey) (version : Nat) :
    Keeps plan w (w.create key version) :=
  ⟨Grows.create key version, h.next (Grows.create key version) (fun _ _ hHere => .inl hHere)
    (fun _ hMem => .inl hMem) fun _ hHere => .inl hHere⟩

theorem Sound.record (h : Sound plan w) {key : CheckpointKey} (evidence : GcEvidence)
    (hNone : w.evidence key = none) (hGone : w.Gone key) :
    Keeps plan w { w with evidence := Function.update w.evidence key (some evidence) } := by
  refine ⟨Grows.record hNone, h.next (Grows.record hNone) ?_ (fun _ hMem => .inl hMem)
    fun _ hHere => .inl hHere⟩
  intro other stored hStored
  by_cases hKey : other = key
  · rw [hKey]
    exact .inr hGone
  · exact .inl ((Function.update_of_ne hKey ..).symm.trans hStored)

theorem Sound.publishReport (h : Sound plan w) {report : GcExecutionReport}
    (hNone : w.report = none) (hComplete : Complete plan w report) :
    Keeps plan w { w with report := some report } := by
  refine ⟨Grows.publishReport hNone, h.next (Grows.publishReport hNone)
    (fun _ _ hHere => .inl hHere) (fun _ hMem => .inl hMem) ?_⟩
  intro other hOther
  obtain rfl := Option.some.inj hOther
  exact .inr (hComplete.mono (Grows.publishReport hNone))

end Invariant

section Step

variable {plan : Plan} {w w' : World} {position : Nat} {acknowledged : Bool} {call : Call}
  {results : List GcEvidence} {candidate : GcCandidate}

theorem Sound.takeEvidence (h : Sound plan w) (hSwept : Swept plan w)
    (hFilled : Filled plan w results)
    (hCandidate : plan.candidates[results.length]? = some candidate) {evidence : GcEvidence}
    (hLoad : w.loadGcEvidence plan candidate = .ok (some evidence)) :
    Keeps plan w
      (w.setPhase position call (World.nextCandidate plan (results ++ [evidence]))) := by
  obtain ⟨hRecords, hStored⟩ := loadGcEvidence_some hLoad
  exact h.setPhase (nextCandidate_sound hSwept (hFilled.snoc hCandidate hRecords hStored))

theorem recording_sound (hSwept : Swept plan w) (hFilled : Filled plan w results)
    (hCandidate : plan.candidates[results.length]? = some candidate)
    (hGone : w.Gone candidate.checkpointKey) (outcome : GcDeleteOutcome) :
    (Phase.recording results (World.evidenceFor plan call candidate outcome)).Sound plan w := by
  refine ⟨hSwept, hFilled, ?_⟩
  intro other hOther
  obtain rfl := Option.some.inj (hCandidate.symm.trans hOther)
  exact ⟨⟨rfl, rfl, rfl⟩, hGone⟩

theorem Sound.atChecking (h : Sound plan w) (hSwept : Swept plan w)
    (hFilled : Filled plan w results)
    (hCandidate : plan.candidates[results.length]? = some candidate)
    (hPhase : call.phase = .checking results) :
    Keeps plan w (w.atCandidate plan position acknowledged call results candidate) := by
  simp only [World.atCandidate, hPhase]
  split
  case h_1 hGone => exact h.setPhase (recording_sound hSwept hFilled hCandidate (.inl hGone) _)
  case h_2 =>
    split
    · exact h.setPhase ⟨hSwept, hFilled⟩
    · exact h.setPhase trivial

theorem Sound.atDeleting (h : Sound plan w) (hSwept : Swept plan w)
    (hFilled : Filled plan w results)
    (hCandidate : plan.candidates[results.length]? = some candidate)
    (hPhase : call.phase = .deleting results) :
    Keeps plan w (w.atCandidate plan position acknowledged call results candidate) := by
  simp only [World.atCandidate, hPhase]
  have hDeleted : Keeps plan w _ := h.remove candidate.checkpointKey
  refine hDeleted.trans fun hSound => hSound.setPhase ?_
  exact recording_sound (hSwept.mono hDeleted.1) (hFilled.mono hDeleted.1) hCandidate
    (w.remove_gone _) _

theorem Sound.atRecording (h : Sound plan w) (hSwept : Swept plan w)
    (hFilled : Filled plan w results)
    (hCandidate : plan.candidates[results.length]? = some candidate) {evidence : GcEvidence}
    (hRecords : Records plan candidate evidence) (hGone : w.Gone candidate.checkpointKey)
    (hPhase : call.phase = .recording results evidence) :
    Keeps plan w (w.atCandidate plan position acknowledged call results candidate) := by
  simp only [World.atCandidate, hPhase]
  split
  case h_1 hNone =>
    have hRecorded : Keeps plan w _ := h.record evidence hNone hGone
    refine hRecorded.trans fun hSound => hSound.setPhase ?_
    have hStored : Function.update w.evidence candidate.checkpointKey (some evidence)
        candidate.checkpointKey = some evidence := Function.update_self ..
    exact nextCandidate_sound (hSwept.mono hRecorded.1)
      ((hFilled.mono hRecorded.1).snoc hCandidate hRecords hStored)
  case h_2 => exact h.setPhase ⟨hSwept, hFilled⟩

theorem Sound.atCandidate (h : Sound plan w) (hCall : call.phase.Sound plan w)
    (hCandidate : plan.candidates[results.length]? = some candidate)
    (hResults : call.phase = .loadingEvidence results ∨ call.phase = .checking results ∨
      call.phase = .deleting results ∨ (∃ evidence, call.phase = .recording results evidence) ∨
        call.phase = .readingEvidence results) :
    Keeps plan w (w.atCandidate plan position acknowledged call results candidate) := by
  rcases hResults with hPhase | hPhase | hPhase | ⟨evidence, hPhase⟩ | hPhase
  · rw [hPhase] at hCall
    obtain ⟨hSwept, hFilled⟩ := hCall
    simp only [World.atCandidate, hPhase]
    split
    case h_1 => exact h.setPhase trivial
    case h_2 evidence hLoad => exact h.takeEvidence hSwept hFilled hCandidate hLoad
    case h_3 => exact h.setPhase ⟨hSwept, hFilled⟩
  · rw [hPhase] at hCall
    exact h.atChecking hCall.1 hCall.2 hCandidate hPhase
  · rw [hPhase] at hCall
    exact h.atDeleting hCall.1 hCall.2 hCandidate hPhase
  · rw [hPhase] at hCall
    obtain ⟨hSwept, hFilled, hNext⟩ := hCall
    obtain ⟨hRecords, hGone⟩ := hNext candidate hCandidate
    exact h.atRecording hSwept hFilled hCandidate hRecords hGone hPhase
  · rw [hPhase] at hCall
    obtain ⟨hSwept, hFilled⟩ := hCall
    simp only [World.atCandidate, hPhase]
    split
    case h_1 => exact h.setPhase trivial
    case h_2 evidence hLoad => exact h.takeEvidence hSwept hFilled hCandidate hLoad
    case h_3 => exact h.setPhase trivial

theorem loadGcReport_some {report : GcExecutionReport}
    (h : w.loadGcReport plan = .ok (some report)) : w.report = some report := by
  unfold World.loadGcReport at h
  split at h
  case h_1 => cases h
  case h_2 stored hStored =>
    obtain ⟨-, h⟩ := unit_bind_ok_iff.mp h
    cases h
    exact hStored

theorem Sound.withReport (h : Sound plan w) {found : GcExecutionReport → Phase} {missing : Phase}
    (hFound : ∀ report, w.report = some report → (found report).Sound plan w)
    (hMissing : missing.Sound plan w) :
    Keeps plan w (w.withReport plan position call found missing) := by
  unfold World.withReport
  split
  case h_1 => exact h.setPhase trivial
  case h_2 report hLoad => exact h.setPhase (hFound report (loadGcReport_some hLoad))
  case h_3 => exact h.setPhase hMissing

theorem Sound.stop (h : Sound plan w) {message : String}
    (hStep : w.stop position message call = some w') : Keeps plan w w' := by
  unfold World.stop at hStep
  split at hStep
  · cases hStep
  · cases hStep
    exact h.setPhase trivial

variable [CatalogHash]

theorem Sound.advance (h : Sound plan w) (hCall : call.phase.Sound plan w)
    (hStep : w.advance plan position acknowledged call = some w') : Keeps plan w w' := by
  unfold World.advance at hStep
  split at hStep
  case h_1 =>
    cases hStep
    refine h.withReport (fun _ hReport => hReport) ?_
    split
    all_goals trivial
  case h_2 =>
    cases hStep
    refine h.swap fun control hOk => ⟨?_, trivial⟩
    rw [acquireGcBarrier_generations hOk]
    exact KeepsRetired.refl _
  case h_3 =>
    cases hStep
    refine h.swap fun control hOk => ⟨?_, trivial⟩
    rw [enterDeletePhase_generations hOk]
    exact KeepsRetired.refl _
  case h_4 =>
    split at hStep
    all_goals
      cases hStep
      exact h.setPhase trivial
  case h_5 =>
    split at hStep
    all_goals
      cases hStep
      exact h.setPhase trivial
  case h_6 =>
    cases hStep
    refine h.swap fun control hOk => ?_
    obtain ⟨hSwept, hKeeps⟩ := retirePlanGenerations_spec hOk
    exact ⟨hKeeps, nextCandidate_sound hSwept (Filled.nil _)⟩
  case h_7 results hPhase =>
    rw [hPhase] at hCall
    split at hStep
    · cases hStep
      exact h.refuse _
    · cases hStep
      exact h.setPhase hCall
  case h_8 results hPhase =>
    obtain ⟨candidate, hCandidate, rfl⟩ := Option.map_eq_some_iff.mp hStep
    exact h.atCandidate hCall hCandidate (.inl hPhase)
  case h_9 results hPhase =>
    obtain ⟨candidate, hCandidate, rfl⟩ := Option.map_eq_some_iff.mp hStep
    exact h.atCandidate hCall hCandidate (.inr (.inl hPhase))
  case h_10 results hPhase =>
    obtain ⟨candidate, hCandidate, rfl⟩ := Option.map_eq_some_iff.mp hStep
    exact h.atCandidate hCall hCandidate (.inr (.inr (.inl hPhase)))
  case h_11 results evidence hPhase =>
    obtain ⟨candidate, hCandidate, rfl⟩ := Option.map_eq_some_iff.mp hStep
    exact h.atCandidate hCall hCandidate (.inr (.inr (.inr (.inl ⟨evidence, hPhase⟩))))
  case h_12 results hPhase =>
    obtain ⟨candidate, hCandidate, rfl⟩ := Option.map_eq_some_iff.mp hStep
    exact h.atCandidate hCall hCandidate (.inr (.inr (.inr (.inr hPhase))))
  case h_13 results hPhase =>
    rw [hPhase] at hCall
    obtain ⟨hSwept, hFilled, hAll⟩ := hCall
    split at hStep
    case h_1 hNone =>
      cases hStep
      have hComplete : Complete plan w (World.reportOf plan call results) :=
        ⟨rfl, hFilled, hAll, hSwept⟩
      have hReported : Keeps plan w _ := h.publishReport hNone hComplete
      exact hReported.trans fun hSound => hSound.setPhase rfl
    case h_2 =>
      cases hStep
      exact h.setPhase trivial
  case h_14 =>
    cases hStep
    exact h.withReport (fun _ hReport => hReport) trivial
  case h_15 report hPhase =>
    rw [hPhase] at hCall
    split at hStep
    case h_1 =>
      cases hStep
      exact h.setPhase trivial
    case h_2 control hOk =>
      cases hStep
      refine h.move ?_ hCall
      rw [clearGcBarrier_generations hOk]
      exact KeepsRetired.refl _
  case h_16 =>
    cases hStep
    exact h.withReport (fun _ hReport => hReport) trivial
  case h_17 => cases hStep

theorem Sound.step (h : Sound plan w) {event : Event} (hAllowed : w.Allowed event)
    (hStep : World.step plan w event = some w') : Keeps plan w w' := by
  cases event with
  | execute nowMs =>
    cases hStep
    have hGrows : Grows plan w { w with calls := w.calls ++ [⟨nowMs, .loadingReport⟩] } :=
      Grows.move (KeepsRetired.refl _)
    refine ⟨hGrows, h.next hGrows (fun _ _ hHere => .inl hHere) ?_ fun _ hHere => .inl hHere⟩
    intro call hMem
    rcases List.mem_append.mp hMem with hOld | hNew
    · exact .inl hOld
    · obtain rfl := List.mem_singleton.mp hNew
      exact .inr trivial
  | advance position acknowledged =>
    obtain ⟨call, hCall, hStep⟩ := Option.bind_eq_some_iff.mp hStep
    exact h.advance (h.calls call (List.mem_of_getElem? hCall)) hStep
  | interrupt position message =>
    obtain ⟨call, -, hStep⟩ := Option.bind_eq_some_iff.mp hStep
    exact h.stop hStep
  | control next =>
    cases hStep
    have hGrows : Grows plan w { w with control := next } :=
      Grows.move hAllowed.keepsRetired
    exact ⟨hGrows, h.next hGrows (fun _ _ hHere => .inl hHere) (fun _ hMem => .inl hMem)
      fun _ hHere => .inl hHere⟩
  | publish rootManifest =>
    cases hStep
    have hGrows : Grows plan w { w with rootManifest } :=
      Grows.move (KeepsRetired.refl _)
    exact ⟨hGrows, h.next hGrows (fun _ _ hHere => .inl hHere) (fun _ hMem => .inl hMem)
      fun _ hHere => .inl hHere⟩
  | delete key =>
    cases hStep
    exact h.remove key
  | create key version =>
    change (if _ then _ else _) = _ at hStep
    split at hStep <;> cases hStep
    · exact ⟨Grows.refl _, h⟩
    · exact h.create key version

end Step

section Runs

variable [CatalogHash] {plan : Plan} {start w : World}

structure Fresh (w : World) : Prop where
  evidence : ∀ key, w.evidence key = none
  report : w.report = none
  calls : w.calls = []

omit [CatalogHash] in
theorem Fresh.sound (h : Fresh start) : Sound plan start where
  gone := by
    intro key evidence hEvidence
    rw [h.evidence key] at hEvidence
    cases hEvidence
  calls := by
    intro call hMem
    rw [h.calls] at hMem
    cases hMem
  report := by
    intro report hReport
    rw [h.report] at hReport
    cases hReport

theorem sound_of_run (hStart : Sound plan start)
    (h : Run (World.step plan) World.Allowed start w) : Sound plan w :=
  h.invariant hStart fun _ _ _ hSound hAllowed hStep => (hSound.step hAllowed hStep).2

theorem grows_of_run (hStart : Sound plan start)
    (h : Run (World.step plan) World.Allowed start w) : Grows plan start w := by
  have hKeeps : Keeps plan start w :=
    h.invariant (P := Keeps plan start) ⟨Grows.refl start, hStart⟩
      fun _ _ _ hKeeps hAllowed hStep => hKeeps.trans fun hSound => hSound.step hAllowed hStep
  exact hKeeps.1

omit [CatalogHash] in
theorem Complete.results_eq {report : GcExecutionReport} (h : Complete plan w report) :
    report.results.map (fun evidence => (evidence.planHash, evidence.key, evidence.version)) =
      plan.candidates.map fun candidate =>
        (plan.planHash, candidate.checkpointKey, candidate.metadata.version) := by
  apply List.ext_getElem
  · rw [List.length_map, List.length_map, h.length_eq]
  · intro i hLeft hRight
    rw [List.length_map] at hLeft hRight
    obtain ⟨⟨hHash, hKey, hVersion⟩, -⟩ := h.filled.stored i _ _
      (List.getElem?_eq_getElem hLeft) (List.getElem?_eq_getElem hRight)
    rw [List.getElem_map, List.getElem_map, hHash, hKey, hVersion]

omit [CatalogHash] in
theorem Sound.candidate_gone (h : Sound plan w) {report : GcExecutionReport}
    (hReport : w.report = some report) {candidate : GcCandidate}
    (hMem : candidate ∈ plan.candidates) : w.Gone candidate.checkpointKey := by
  have hComplete := h.report report hReport
  obtain ⟨i, hLt, rfl⟩ := List.mem_iff_getElem.mp hMem
  have hLt' : i < report.results.length := hComplete.length_eq ▸ hLt
  obtain ⟨-, hStored⟩ := hComplete.filled.stored i _ _
    (List.getElem?_eq_getElem hLt') (List.getElem?_eq_getElem hLt)
  exact h.gone _ _ hStored

/-- In every run of any executions of a plan: a call that has returned a report returned the one
that is stored; a stored report has the evidence of every candidate in their order, the objects
are gone unless they were created again and the generations of the plan are retired by it; and
the report, what is gone and what is retired stay so in every run that goes on from there. -/
theorem executions_converge (plan : Plan) (start w : World) (hStart : Fresh start)
    (h : Run (World.step plan) World.Allowed start w) :
    (∀ call ∈ w.calls, ∀ report, call.phase = .finished (.ok report) → w.report = some report) ∧
    (∀ report, w.report = some report →
      report.planHash = plan.planHash ∧
      report.results.map (fun evidence => (evidence.planHash, evidence.key, evidence.version)) =
        plan.candidates.map (fun candidate =>
          (plan.planHash, candidate.checkpointKey, candidate.metadata.version)) ∧
      (∀ candidate ∈ plan.candidates, w.Gone candidate.checkpointKey) ∧
      ∀ identity ∈ plan.sweptGenerations,
        Retired plan.planHash w.control.generations identity) ∧
    ∀ later, Run (World.step plan) World.Allowed w later →
      (∀ report, w.report = some report → later.report = some report) ∧
      (∀ key, w.Gone key → later.Gone key) ∧
      ∀ identity, Retired plan.planHash w.control.generations identity →
        Retired plan.planHash later.control.generations identity := by
  have hSound : Sound plan w := sound_of_run hStart.sound h
  refine ⟨?_, ?_, ?_⟩
  · intro call hMem report hPhase
    have hCall := hSound.calls call hMem
    rw [hPhase] at hCall
    exact hCall
  · intro report hReport
    have hComplete := hSound.report report hReport
    exact ⟨hComplete.planHash, hComplete.results_eq,
      fun candidate hMem => hSound.candidate_gone hReport hMem, hComplete.swept⟩
  · intro later hLater
    have hGrows := grows_of_run hSound hLater
    exact ⟨hGrows.report, hGrows.gone, hGrows.retired⟩

end Runs

namespace Overlapped

attribute [local instance] Sha256.rolling

@[reducible] def catalogHash : CatalogHash where
  hash generations := Sha256.finalize (generations.flatMap fun entry =>
    toBeBytes 8 entry.identity.recoveryGeneration ++ toBeBytes 8 entry.registeredAtMs ++
      if entry.lifecycle = .active then [0] else [1])

attribute [local instance] catalogHash

def generation (recoveryGeneration : Nat) : CheckpointIdentity := ⟨"c", 1, 1, recoveryGeneration⟩

def catalog : List GenerationCatalogEntry :=
  [⟨generation 1, 0, .active⟩, ⟨generation 2, 0, .active⟩]

def candidate : GcCandidate :=
  ⟨generation 1, ⟨.segment 1 3, 96, 10, 7⟩, .supersededRecoveryGeneration⟩

def plan : Plan :=
  { operationId := "gc", clusterId := "c", fence := 4, observedCatalog := catalog,
    root := generation 2, createdAtMs := 1000, notBeforeMs := 2000, minAgeMs := 500,
    sweptGenerations := [generation 1], candidates := [candidate],
    catalogSha256 := CatalogHash.hash catalog, rootManifestSha256 := Sha256.finalize [2],
    planHash := Sha256.finalize [1] }

def start : World :=
  { control := ⟨4, some (generation 2), catalog, [], none⟩
    rootManifest := Sha256.finalize [2]
    objects := fun key => if key = candidate.checkpointKey then some 7 else none
    remade := fun _ => false
    evidence := fun _ => none
    report := none
    calls := [] }

/-- The first call stops after the deletion; the second has joined its barrier and goes on. -/
def script : List Event :=
  [.execute 5000, .execute 6000] ++ List.replicate 2 (.advance 1 false) ++
    List.replicate 10 (.advance 0 false) ++ [.interrupt 0 "transport"] ++
    List.replicate 10 (.advance 1 false)

def report : GcExecutionReport :=
  ⟨Sha256.finalize [1], 5, 6000,
    [⟨Sha256.finalize [1], candidate.checkpointKey, 7, .alreadyMissing, 6000⟩]⟩

def isExecution : Event → Bool
  | .control _ => false
  | _ => true

theorem allowed_of_isExecution (script : List Event) (h : script.all isExecution) :
    ∀ event ∈ script, ∀ w, World.Allowed w event := by
  intro event hMem w
  have hOther := List.all_eq_true.mp h event hMem
  cases event with
  | control next => cases hOther
  | _ => trivial

theorem second_completes : ∃ w, execute (World.step plan) start script = some w ∧
    w.report = some report ∧ w.Gone candidate.checkpointKey ∧
    Retired plan.planHash w.control.generations (generation 1) := by
  have hPhases : (execute (World.step plan) start script).bind (fun w => w.calls[1]?.map (·.phase)) =
      some (.finished (.ok report)) := by decide +kernel
  obtain ⟨w, hRun, hPhase⟩ := Option.bind_eq_some_iff.mp hPhases
  obtain ⟨call, hCall, hPhase⟩ := Option.map_eq_some_iff.mp hPhase
  have hFresh : Fresh start := ⟨fun _ => rfl, rfl, rfl⟩
  obtain ⟨hCalls, hReports, -⟩ := executions_converge plan start w hFresh
    (.of_execute (allowed_of_isExecution script rfl) hRun)
  have hReport : w.report = some report :=
    hCalls call (List.mem_of_getElem? hCall) report hPhase
  obtain ⟨-, -, hGone, hRetired⟩ := hReports report hReport
  exact ⟨w, hRun, hReport, hGone candidate (List.mem_singleton_self _),
    hRetired (generation 1) (List.mem_singleton_self _)⟩

def unreferenced : GcCandidate := { candidate with generation := generation 2, reason := .unreferencedCheckpointObject }

def unreferencedPlan : Plan := { plan with sweptGenerations := [], candidates := [unreferenced] }

/-- The first call stops behind its evidence. When its barrier has expired a publisher creates
the segment again, and the second call goes on to the report. -/
def recreation : List Event :=
  .execute 5000 :: List.replicate 11 (.advance 0 false) ++
    [.interrupt 0 "transport", .create unreferenced.checkpointKey 8, .execute 70000] ++
    List.replicate 8 (.advance 1 false)

/-- When the first report is written the candidate's key has an object. -/
theorem recreated_outlives_report : ∃ w : World, Run (World.step unreferencedPlan) World.Allowed
      { start with objects := fun key => if key = unreferenced.checkpointKey then some 7 else none } w ∧
    w.report = none ∧ ∃ w', World.step unreferencedPlan w (.advance 1 false) = some w' ∧
      w'.report.isSome ∧ w'.objects unreferenced.checkpointKey = some 8 := by
  have hEnd : ((execute (World.step unreferencedPlan)
      { start with objects := fun key => if key = unreferenced.checkpointKey then some 7 else none }
      recreation).any fun w => decide (w.report = none) &&
        (World.step unreferencedPlan w (.advance 1 false)).any fun w' =>
          w'.report.isSome && decide (w'.objects unreferenced.checkpointKey = some 8)) = true := by
    decide +kernel
  obtain ⟨w, hRun, hEnd⟩ := (Option.any_eq_true _ _).mp hEnd
  obtain ⟨hNone, hEnd⟩ := (Bool.and_eq_true _ _).mp hEnd
  obtain ⟨w', hStep, hEnd⟩ := (Option.any_eq_true _ _).mp hEnd
  obtain ⟨hReport, hObject⟩ := (Bool.and_eq_true _ _).mp hEnd
  exact ⟨w, .of_execute (allowed_of_isExecution recreation rfl) hRun,
    of_decide_eq_true hNone, w', hStep, hReport, of_decide_eq_true hObject⟩

end Overlapped

end Rhiza.Archive.Execution
