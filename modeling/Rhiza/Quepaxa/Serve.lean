import Rhiza.Quepaxa.Fitting

/-! # One call to a running store

A call to a store with content `L` ends in a store with another content. With the
reply it makes one step of the recorder without files: the whole change where the
call answers, and nothing, the command or everything where it fails or stops.
-/

namespace Rhiza.Quepaxa

open Core Library

namespace Recorder

variable [Sha256] (r : Recorder) (replaces : Bool) (error : Error)

theorem record_nothing (request : RecordRequest) :
    r.record ⟨replaces, some (.nothing, error)⟩ request = (r, .error error) := by
  unfold record
  split <;> rfl

theorem installDecisionProof_nothing (proof : DecisionProof) (membership : Membership) :
    r.installDecisionProof ⟨replaces, some (.nothing, error)⟩ proof membership =
      (r, .error error) := by
  unfold installDecisionProof
  split <;> rfl

theorem storeCommand_nothing (hash : LogHash) (command : StoredCommand) :
    r.storeCommand ⟨replaces, some (.nothing, error)⟩ hash command = (r, .error error) := by
  unfold storeCommand
  split
  · rfl
  · split <;> rfl

theorem installSuccessor_nothing (membership : Membership) (stopProof : DecisionProof) :
    r.installSuccessor ⟨replaces, some (.nothing, error)⟩ membership stopProof =
      (r, .error error) := by
  unfold installSuccessor
  split
  · rfl
  · split <;> rfl

omit [Sha256] in
theorem recoverActivation_nothing (stopSlot : Nat) (prefixHash : LogHash) (recoveredTip : Nat)
    (recoveredHash : LogHash) :
    r.recoverActivation ⟨replaces, some (.nothing, error)⟩ stopSlot prefixHash recoveredTip
      recoveredHash = (r, .error error) := by
  unfold recoverActivation
  split <;> rfl

theorem storeCommand_good {hash : LogHash} {command : StoredCommand} (hHash : command.hash = hash)
    (hStored : r.commands hash = none ∨ r.commands hash = some command) :
    r.storeCommand .good hash command = (r.keepCommand false hash command, .ok ()) := by
  unfold storeCommand
  rw [if_neg (not_not.mpr hHash)]
  rcases hStored with hNone | hSame
  · rw [hNone]
    rfl
  · rw [hSame]
    simp [settle, Conduct.good, keepCommand, hSame]

theorem installSuccessor_settle (conduct : Conduct) {membership : Membership}
    {stopProof : DecisionProof} {installed : ConfigurationState} {stopCommand : StoredCommand}
    (hOk : r.view.installSuccessorFromProof membership stopProof = .ok (installed, stopCommand))
    (hStored : r.commands stopCommand.hash = none ∨
      r.commands stopCommand.hash = some stopCommand) :
    r.installSuccessor conduct membership stopProof =
      settle conduct r (r.keepCommand false stopCommand.hash stopCommand)
        { r.keepCommand false stopCommand.hash stopCommand with
          configuration := installed, retired := r.configuration :: r.retired }
        (.ok installed) := by
  simp only [installSuccessor, hOk, r.storeCommand_good rfl hStored]

end Recorder

section Serving

variable [Sha256] (K : StoredCommand → Prop) (node : Identity)

omit [Sha256] in
def Conduct.finished (conduct : Conduct) : Bool :=
  match conduct.failure with
  | none => true
  | some (.everything, _) => true
  | some _ => false

omit [Sha256] in
def Conduct.head (conduct : Conduct) (before after : RecordedHeadProvenance) :
    RecordedHeadProvenance :=
  if conduct.finished then after else before

def Content.headAfter (L : Content) : Option Transition → RecordedHeadProvenance
  | some transition => headAfterSlotState L.head transition.configuration transition.state
  | none => L.head

def Content.headAfterRecord (L : Content) (r : Recorder) (request : RecordRequest) :
    RecordedHeadProvenance :=
  match r.view.recordProposal request with
  | .ok (_, transition) => L.headAfter transition
  | .error _ => L.head

def Content.headAfterInstall (L : Content) (r : Recorder) (proof : DecisionProof)
    (membership : Membership) : RecordedHeadProvenance :=
  match r.view.installDecisionProofRecord proof membership with
  | .ok transition => L.headAfter transition
  | .error _ => L.head

def Content.headAfterSuccessor (L : Content) (r : Recorder) (membership : Membership)
    (stopProof : DecisionProof) : RecordedHeadProvenance :=
  match r.view.installSuccessorFromProof membership stopProof with
  | .ok _ => .empty
  | .error _ => L.head

def Content.headAfterActivation (L : Content) (r : Recorder) (stopSlot : Nat)
    (prefixHash : LogHash) (recoveredTip : Nat) (recoveredHash : LogHash) :
    RecordedHeadProvenance :=
  match r.view.recoverSuccessorActivationFromCheckpoint stopSlot prefixHash recoveredTip
      recoveredHash with
  | .ok (_, some head) => head
  | _ => L.head

structure Lands {α : Type} (strict : Prop) (before after : RecordedHeadProvenance)
    (call : Conduct → Recorder × Result α) (reply : Result α) (L : Content) : Prop where
  good : strict → L.Good K node
  lands : ∃ conduct retired, call conduct = (L.recorder node retired, reply) ∧
    L.head = conduct.head before after

/-- A running store at the beginning of a call that may meet the disturbances `F`.
It may have met those of `G` before. -/
inductive Able (F G : Faults Site) (strict : Prop) (L : Content) (d : Disk) (m : Memory) : Prop
  | live (h : Live K node strict L d m) (hHarmless : Harmless strict F d m)
  | pending (hErrs : Errs G) (i : TransitionIntent) (h : Pending K node strict L d m i)
      (hJoined : ∀ site crash n, F site crash n → ¬ splitsMemory site crash n)

def Serves {α : Type} (F G : Faults Site) (strict : Prop)
    (before after : RecordedHeadProvenance) (P : Disk → Memory → Prop)
    (call : Conduct → Recorder × Result α) (program : Io α) : Prop :=
  Triple F P program
    (fun a d m => ∃ L, Live K node strict L d m ∧ Lands K node strict before after call (.ok a) L)
    (fun e d m => ∃ L, Standing K node G strict L d m ∧
      Lands K node strict before after call (.error e) L)
    (fun d => ∃ L, Kept K node strict L d ∧
      Lands K node strict before after call (.error FileRecorder.stopped) L)

end Serving

section Calls

variable [Sha256] {K : StoredCommand → Prop} {node : Identity} {strict : Prop} {F G : Faults Site}
  {L : Content} {d : Disk} {m : Memory} {retired : List ConfigurationState}

omit [Sha256] in
theorem Errs.mono (hMet : F ≤ G) (h : Errs F) : Errs G := by
  obtain ⟨site, n, hF⟩ := h
  exact ⟨site, n, hMet _ _ _ hF⟩

theorem Standing.mono (hMet : F ≤ G) (h : Standing K node F strict L d m) :
    Standing K node G strict L d m := by
  cases h with
  | live h => exact .live h
  | failed hErrs hFailed hTrails h => exact .failed (hErrs.mono hMet) hFailed hTrails h
  | pending hErrs i h => exact .pending (hErrs.mono hMet) i h

theorem Able.standing (h : Able K node F G strict L d m) :
    Standing K node G strict L d m := by
  cases h with
  | live h => exact .live h
  | pending hErrs i h => exact .pending hErrs i h

theorem Live.matched (h : Live K node strict L d m) :
    L.head.recoveredMax = L.configuration.maxAcceptedOrDecidedSlot := by
  obtain ⟨⟨c, head, frames, hs, -⟩, rfl, -⟩ := h
  exact hs.matched

theorem recoverIntent_able :
    Triple F (Able K node F G strict L) (recoverIntent node)
      (fun _ d m => Live K node strict L d m ∧ Harmless strict F d m)
      (fun _ d m => Standing K node G strict L d m) (fun d => Kept K node strict L d) := by
  refine Triple.named fun d₀ m₀ hAble => ?_
  cases hAble with
  | live hLive hHarmless =>
    refine (recoverIntent_idle (P := fun d m => d = d₀ ∧ m = m₀) ?_).conseq (fun _ _ h => h) ?_
      (fun _ _ _ h => h) fun _ h => h
    · rintro d m ⟨rfl, rfl⟩
      obtain ⟨c, head, frames, hs, -⟩ := hLive.stored
      exact ⟨hs.intent, hs.headIntent⟩
    · rintro _ d m ⟨rfl, rfl⟩
      exact ⟨hLive, hHarmless⟩
  | pending hErrs i hPending hJoined =>
    refine (recoverIntent_triple (F := F) (i := i) m₀).conseq ?_ ?_ ?_ fun _ h => h
    · rintro d m ⟨rfl, rfl⟩
      exact ⟨rfl, hPending⟩
    · rintro _ d m ⟨hLive, hCount, hWal⟩
      exact ⟨hLive, hJoined, fun _ _ _ _ _ _ h => absurd hCount h, fun hStrict _ _ _ _ _ _ =>
        hWal hStrict⟩
    · rintro e d m ⟨rfl, h | ⟨-, n, hF⟩, -⟩
      · exact .pending hErrs i h
      · exact absurd rfl (hJoined _ _ _ hF)

theorem readView_triple {P : Disk → Memory → Prop} {E : Error → Disk → Memory → Prop}
    {C : Disk → Prop} : Triple F P (readView node)
      (fun v d m => v = m.view node d ∧ P d m) E C :=
  fun _ _ _ hAllow hHere => ⟨⟨rfl, hHere⟩, hAllow⟩

theorem readView_live (retired : List ConfigurationState) {E : Error → Disk → Memory → Prop} {C : Disk → Prop} :
    Triple F (fun d m => Live K node strict L d m ∧ Harmless strict F d m) (readView node)
      (fun v d m => (v.Shows (L.recorder node retired).view ∧ v.configuration = L.configuration) ∧
        Live K node strict L d m ∧ Harmless strict F d m) E C := by
  refine readView_triple.conseq (fun _ _ h => h) ?_ (fun _ _ _ h => h) fun _ h => h
  rintro v d m ⟨rfl, hLive, hHarmless⟩
  exact ⟨⟨hLive.shows retired, hLive.configuration_eq⟩, hLive, hHarmless⟩

theorem persist_serves {α : Type} {call : Conduct → Recorder × Result α} {t : Transition}
    (hMet : F ≤ G)
    (retired : List ConfigurationState) (a : α)
    (hSetting : Setting K node strict L) (ht : Fitting K node strict L t)
    (hNothing : ∀ error, call ⟨false, some (.nothing, error)⟩ =
      (L.recorder node retired, .error error))
    (hStage : ∀ error, call ⟨false, some (.command, error)⟩ =
      ((L.recorder node retired).stage false t.command, .error error))
    (hApply : ∀ replaces, call ⟨replaces, none⟩ =
      ((L.recorder node retired).apply replaces t, .ok a))
    (hLate : ∀ replaces error, call ⟨replaces, some (.everything, error)⟩ =
      ((L.recorder node retired).apply replaces t, .error error)) :
    Triple F (fun d m => Live K node strict L d m ∧ Harmless strict F d m)
      (persistStateTransition node L.configuration t)
      (fun _ d m => ∃ L', Live K node strict L' d m ∧
        Lands K node strict L.head (L.headAfter (some t)) call (.ok a) L')
      (fun e d m => ∃ L', Standing K node G strict L' d m ∧
        Lands K node strict L.head (L.headAfter (some t)) call (.error e) L')
      (fun d => ∃ L', Kept K node strict L' d ∧
        Lands K node strict L.head (L.headAfter (some t)) call (.error FileRecorder.stopped) L') := by
  have hLands : ∀ error,
      Lands K node strict L.head (L.headAfter (some t)) call (.error error) L := fun error =>
    ⟨hSetting.good, _, _, hNothing error, rfl⟩
  have hStaged : ∀ error, Lands K node strict L.head (L.headAfter (some t)) call (.error error)
      (L.stage false t.command) := by
    intro error
    refine ⟨ht.staged, _, retired, (hStage error).trans ?_, Content.stage_head ..⟩
    rw [Content.recorder_stage]
  have hApplied : ∀ replaces error,
      Lands K node strict L.head (L.headAfter (some t)) call (.error error) (L.apply replaces t) := by
    intro replaces error
    refine ⟨fun h => ht.good h replaces, _, retired, (hLate replaces error).trans ?_, rfl⟩
    rw [Content.recorder_apply]
  refine (persistStateTransition_triple hSetting ht).conseq (fun _ _ h => h) ?_ ?_ ?_
  · rintro _ d m ⟨replaces, h⟩
    refine ⟨_, h, fun hStrict => ht.good hStrict replaces, _, retired, (hApply replaces).trans ?_, rfl⟩
    rw [Content.recorder_apply]
  · rintro error d m (h | h | ⟨replaces, h⟩)
    · exact ⟨L, h.mono hMet, hLands error⟩
    · exact ⟨_, h.mono hMet, hStaged error⟩
    · exact ⟨_, h.mono hMet, hApplied replaces error⟩
  · rintro d (h | h | ⟨replaces, h⟩)
    · exact ⟨L, h, hLands _⟩
    · exact ⟨_, h, hStaged _⟩
    · exact ⟨_, h, hApplied replaces _⟩

theorem idle_serves {α : Type} {call : Conduct → Recorder × Result α}
    (retired : List ConfigurationState) (a : α)
    (hSetting : Setting K node strict L)
    (hDone : call ⟨false, none⟩ = (L.recorder node retired, .ok a)) :
    Serves K node F G strict L.head L.head
      (fun d m => Live K node strict L d m ∧ Harmless strict F d m) call (pure a) :=
  Triple.pure fun _ _ h => ⟨L, h.1, hSetting.good, _, _, hDone, rfl⟩

theorem recordProposal_serves (hMet : F ≤ G) (hReady : Ready K node strict retired L) (request : RecordRequest)
    (hKnown : strict → ∀ command, request.command = some command → K command)
    (hSmall : strict → ∀ summary t,
      (L.recorder node retired).view.recordProposal request = .ok (summary, some t) →
        sizeOf (encodeRecorderState t.state) ≤ maxRecorderStateBytes) :
    Serves K node F G strict L.head
      (L.headAfterRecord (L.recorder node retired) request) (Able K node F G strict L)
      (fun conduct => (L.recorder node retired).record conduct request)
      (recordProposal node request) := by
  have hLands : ∀ error, Lands K node strict L.head
      (L.headAfterRecord (L.recorder node retired) request)
      (fun conduct => (L.recorder node retired).record conduct request) (.error error) L :=
    fun error => ⟨hReady.good, _, _, Recorder.record_nothing _ false error request, rfl⟩
  refine Triple.bind (readView_triple (P := Able K node F G strict L)) fun v => ?_
  refine Triple.bind (Q := fun _ => Able K node F G strict L) (Triple.lift (fun _ _ _ _ h => h.2)
    fun error _ _ _ h => ⟨L, h.2.standing, hLands error⟩) fun _ => ?_
  refine Triple.bind (Q := fun _ => Able K node F G strict L) (Triple.lift (fun _ _ _ _ h => h)
    fun error _ _ _ h => ⟨L, h.standing, hLands error⟩) fun _ => ?_
  refine Triple.bind (recoverIntent_able.conseq (fun _ _ h => h) (fun _ _ _ h => h)
    (fun error _ _ h => ⟨L, h, hLands error⟩) fun _ h => ⟨L, h, hLands _⟩) fun _ => ?_
  refine Triple.bind (readView_live retired) fun v => Triple.given ?_
  rintro ⟨hShows, hConfiguration⟩
  refine Triple.bind (Q := fun result d m => v.recordProposal request = .ok result ∧
    Live K node strict L d m ∧ Harmless strict F d m) (Triple.lift (fun _ _ _ hOk h => ⟨hOk, h⟩)
    fun error _ _ _ h => ⟨L, .live h.1, hLands error⟩) fun result => Triple.given fun hOk => ?_
  obtain ⟨summary, transition⟩ := result
  have hSame := hShows.recordProposal hOk
  obtain ⟨value, command, change, state, hPasses, hLoad,
    ⟨proof, -, -, rfl⟩ | ⟨t, rfl, -, hRecords⟩⟩ := RecorderView.recordProposal_eq_ok hSame
  · have hHead : L.headAfterRecord (L.recorder node retired) request = L.head := by
      simp only [Content.headAfterRecord, hSame, Content.headAfter]
    rw [hHead]
    refine idle_serves retired summary hReady.toSetting ?_
    simp only [Recorder.record, hSame]
    rfl
  · have hHead : L.headAfterRecord (L.recorder node retired) request = L.headAfter (some t) := by
      simp only [Content.headAfterRecord, hSame]
    rw [hHead]
    have ht := fitting_of_records hReady hPasses hLoad hRecords hKnown fun h => hSmall h summary t hSame
    rw [hConfiguration]
    refine Triple.bind (persist_serves hMet retired summary hReady.toSetting ht
      (fun error => Recorder.record_nothing _ false error request) (fun error => ?_)
      (fun replaces => ?_) fun replaces error => ?_) fun _ => Triple.pure fun _ _ h => h
    · simp only [Recorder.record, hSame]
      rfl
    · simp only [Recorder.record, hSame]
      rfl
    · simp only [Recorder.record, hSame]
      rfl

theorem installDecisionProofRecord_serves (hMet : F ≤ G) (hReady : Ready K node strict retired L)
    (proof : DecisionProof) (membership : Membership)
    (hSmall : strict → ∀ t,
      (L.recorder node retired).view.installDecisionProofRecord proof membership = .ok (some t) →
        sizeOf (encodeRecorderState t.state) ≤ maxRecorderStateBytes) :
    Serves K node F G strict L.head
      (L.headAfterInstall (L.recorder node retired) proof membership) (Able K node F G strict L)
      (fun conduct => (L.recorder node retired).installDecisionProof conduct proof membership)
      (installDecisionProofRecord node proof membership) := by
  have hLands : ∀ error, Lands K node strict L.head
      (L.headAfterInstall (L.recorder node retired) proof membership)
      (fun conduct => (L.recorder node retired).installDecisionProof conduct proof membership)
      (.error error) L :=
    fun error => ⟨hReady.good, _, _,
      Recorder.installDecisionProof_nothing _ false error proof membership, rfl⟩
  refine Triple.bind (Q := fun _ => Able K node F G strict L) (Triple.lift (fun _ _ _ _ h => h)
    fun error _ _ _ h => ⟨L, h.standing, hLands error⟩) fun _ => ?_
  refine Triple.bind (recoverIntent_able.conseq (fun _ _ h => h) (fun _ _ _ h => h)
    (fun error _ _ h => ⟨L, h, hLands error⟩) fun _ h => ⟨L, h, hLands _⟩) fun _ => ?_
  refine Triple.bind (readView_live retired) fun v => Triple.given ?_
  rintro ⟨hShows, hConfiguration⟩
  refine Triple.bind (Q := fun result d m => v.installDecisionProofRecord proof membership =
    .ok result ∧ Live K node strict L d m ∧ Harmless strict F d m) (Triple.lift
    (fun _ _ _ hOk h => ⟨hOk, h⟩) fun error _ _ _ h => ⟨L, .live h.1, hLands error⟩)
    fun result => Triple.given fun hOk => ?_
  have hSame := hShows.installDecisionProofRecord hOk
  obtain rfl | ⟨value, command, change, state, t, rfl, hLoad, hInstalls⟩ :=
    RecorderView.installDecisionProofRecord_eq_ok hSame
  · have hHead : L.headAfterInstall (L.recorder node retired) proof membership = L.head := by
      simp only [Content.headAfterInstall, hSame, Content.headAfter]
    rw [hHead]
    refine idle_serves retired () hReady.toSetting ?_
    simp only [Recorder.installDecisionProof, hSame]
    rfl
  · have hHead : L.headAfterInstall (L.recorder node retired) proof membership =
        L.headAfter (some t) := by
      simp only [Content.headAfterInstall, hSame]
    rw [hHead]
    have ht := fitting_of_installs hReady hLoad hInstalls fun h => hSmall h t hSame
    rw [hConfiguration]
    refine persist_serves hMet retired () hReady.toSetting ht
      (fun error => Recorder.installDecisionProof_nothing _ false error proof membership) (fun error => ?_) (fun replaces => ?_) fun replaces error => ?_
    · simp only [Recorder.installDecisionProof, hSame, hInstalls.command_eq]
      rfl
    · simp only [Recorder.installDecisionProof, hSame]
      rfl
    · simp only [Recorder.installDecisionProof, hSame]
      rfl

theorem checkpointWal_serves {α : Type} {call : Conduct → Recorder × Result α}
    {before after : RecordedHeadProvenance} (hMet : F ≤ G)
    (hSetting : Setting K node strict L)
    (hLands : ∀ error, Lands K node strict before after call (.error error) L) :
    Triple F (fun d m => Live K node strict L d m ∧ Harmless strict F d m) (checkpointWal node)
      (fun _ d m => Live K node strict L d m ∧ m.wal.frameCount = 0 ∧ Clean F strict d ∧
        ∀ site crash n, F site crash n → ¬ splitsMemory site crash n)
      (fun e d m => ∃ L, Standing K node G strict L d m ∧
        Lands K node strict before after call (.error e) L)
      (fun d => ∃ L, Kept K node strict L d ∧
        Lands K node strict before after call (.error FileRecorder.stopped) L) := by
  refine Triple.named fun d₀ m₀ hHere => (checkpointWal_triple (F := F) hSetting).conseq ?_ ?_ ?_ ?_
  · rintro d m ⟨rfl, rfl⟩
    exact hHere
  · rintro _ d m ⟨hLive, hCount, hClean⟩
    exact ⟨hLive, hCount, hClean, hHere.2.joined⟩
  · exact fun e _ _ h => ⟨L, h.mono hMet, hLands e⟩
  · exact fun _ h => ⟨L, .settled h, hLands _⟩

theorem installSuccessorFromProof_serves (hMet : F ≤ G) (hReady : Ready K node strict retired L)
    (membership : Membership) (stopProof : DecisionProof)
    (hNonzero : strict → membership.digest ≠ .zero)
    (hKnown : strict → ∀ installed stopCommand,
      (L.recorder node retired).view.installSuccessorFromProof membership stopProof =
        .ok (installed, stopCommand) → K stopCommand) :
    Serves K node F G strict L.head
      (L.headAfterSuccessor (L.recorder node retired) membership stopProof) (Able K node F G strict L)
      (fun conduct => (L.recorder node retired).installSuccessor conduct membership stopProof)
      (installSuccessorFromProof node membership stopProof) := by
  have hNothing : ∀ error, Lands K node strict L.head
      (L.headAfterSuccessor (L.recorder node retired) membership stopProof)
      (fun conduct => (L.recorder node retired).installSuccessor conduct membership stopProof)
      (.error error) L :=
    fun error => ⟨hReady.good, _, _,
      Recorder.installSuccessor_nothing _ false error membership stopProof, rfl⟩
  refine Triple.bind (recoverIntent_able.conseq (fun _ _ h => h) (fun _ _ _ h => h)
    (fun error _ _ h => ⟨L, h, hNothing error⟩) fun _ h => ⟨L, h, hNothing _⟩) fun _ => ?_
  refine Triple.bind (readView_live retired) fun v => Triple.given ?_
  rintro ⟨hShows, -⟩
  refine Triple.bind (Q := fun result d m => v.installSuccessorFromProof membership stopProof =
    .ok result ∧ Live K node strict L d m ∧ Harmless strict F d m) (Triple.lift
    (fun _ _ _ hOk h => ⟨hOk, h⟩) fun error _ _ _ h => ⟨L, .live h.1, hNothing error⟩)
    fun result => Triple.given fun hOk => ?_
  obtain ⟨installed, stopCommand⟩ := result
  rw [← hShows.installSuccessorFromProof] at hOk
  have hHead : L.headAfterSuccessor (L.recorder node retired) membership stopProof = .empty := by
    simp only [Content.headAfterSuccessor, hOk]
  have hSucceeds := RecorderView.installSuccessorFromProof_eq_ok hOk
  have hKnown : strict → K stopCommand := fun h => hKnown h installed stopCommand hOk
  let staged := L.keepCommand false stopCommand.hash stopCommand
  have hStaged : staged.recorder node retired =
      (L.recorder node retired).keepCommand false stopCommand.hash stopCommand :=
    Content.recorder_keepCommand node retired L false stopCommand.hash stopCommand
  have hOwn : ∀ hash c, some (stopCommand.hash, stopCommand) = some (hash, c) → strict →
      c.hash = hash ∧ K c := by
    rintro _ _ ⟨⟩ hStrict
    exact ⟨rfl, hKnown hStrict⟩
  have hGoodStaged : strict → staged.Good K node := fun h =>
    (hReady.good h).stage fun hash c hc => hOwn hash c hc h
  have hGood : strict → (staged.install installed .empty).Good K node := fun h => by
    have hInstalled := good_of_succeeds (hReady.good h) hSucceeds (hNonzero h)
    refine ⟨hInstalled.installed, ?_, ?_, trivial⟩
    · exact (hGoodStaged h).keyed
    · exact (hGoodStaged h).resolved
  have hDone : ∀ conduct, Storable L stopCommand.hash stopCommand →
      (L.recorder node retired).installSuccessor conduct membership stopProof =
        Recorder.settle conduct (L.recorder node retired) (staged.recorder node retired)
          ((staged.install installed .empty).recorder node (L.configuration :: retired))
          (.ok installed) := by
    intro conduct hStorable
    rw [Recorder.installSuccessor_settle _ conduct hOk hStorable.2, ← hStaged]
    rfl
  have hCommand : ∀ error, Storable L stopCommand.hash stopCommand → Lands K node strict L.head
      (L.headAfterSuccessor (L.recorder node retired) membership stopProof)
      (fun conduct => (L.recorder node retired).installSuccessor conduct membership stopProof)
      (.error error) staged :=
    fun error h => ⟨hGoodStaged, ⟨false, some (.command, error)⟩, retired, hDone _ h,
      Content.keepCommand_head ..⟩
  have hEverything : ∀ error, Storable L stopCommand.hash stopCommand → Lands K node strict L.head
      (L.headAfterSuccessor (L.recorder node retired) membership stopProof)
      (fun conduct => (L.recorder node retired).installSuccessor conduct membership stopProof)
      (.error error) (staged.install installed .empty) :=
    fun error h => ⟨hGood, ⟨false, some (.everything, error)⟩, _, hDone _ h, hHead.symm⟩
  refine Triple.bind (checkpointWal_serves hMet hReady.toSetting hNothing) fun _ => ?_
  refine Triple.named fun d₀ m₀ hHere => ?_
  obtain ⟨hLive₀, hCount, hClean, hJoined⟩ := hHere
  refine Triple.bind (Q := fun _ d m => m = m₀ ∧ d.wal = d₀.wal ∧ Live K node strict staged d m ∧
      Storable L stopCommand.hash stopCommand)
    ((storeCommand_triple (L := L) stopCommand.hash stopCommand hKnown m₀ d₀.wal).conseq ?_
      (fun _ _ _ h => h) ?_ ?_) fun _ => ?_
  · rintro d m ⟨rfl, rfl⟩
    exact ⟨rfl, rfl, hLive₀⟩
  · rintro error d m (h | ⟨h, hStorable⟩)
    · exact ⟨L, .live h, hNothing error⟩
    · exact ⟨staged, .live h, hCommand error hStorable⟩
  · rintro d (h | ⟨h, hStorable⟩)
    · exact ⟨L, .settled h, hNothing _⟩
    · exact ⟨staged, .settled h, hCommand _ hStorable⟩
  refine Triple.named fun d₁ m₁ hHere => ?_
  obtain ⟨rfl, hWal, hLive₁, hStorable⟩ := hHere
  have hMatched : RecordedHeadProvenance.empty.recoveredMax =
      installed.maxAcceptedOrDecidedSlot := by
    rw [hSucceeds.installed_eq]
    rfl
  refine Triple.bind ((commitConfigurationHead_triple hMatched hGood hJoined m₁ d₁.wal
    fun hStrict site crash n hF hLeaves => ?_).conseq ?_ (fun _ _ _ h => h) ?_ ?_) fun _ => ?_
  · rw [hWal]
    exact hClean hStrict site crash n hF hLeaves
  · rintro d m ⟨rfl, rfl⟩
    exact ⟨rfl, rfl, hLive₁, hCount⟩
  · exact fun error _ _ h => ⟨staged, .live h, hCommand error hStorable⟩
  · rintro d (h | h)
    · exact ⟨staged, h, hCommand _ hStorable⟩
    · exact ⟨_, h, hEverything _ hStorable⟩
  refine Triple.bind (Q := fun _ d m => Live K node strict (staged.install installed .empty) d m)
    (Triple.setMemory ?_) fun _ => Triple.pure ?_
  · rintro d m ⟨rfl, h⟩
    exact h
  · exact fun d m h => ⟨_, h, hGood, .good, _, hDone _ hStorable, hHead.symm⟩

theorem recoverActivation_serves (hMet : F ≤ G) (hReady : Ready K node strict retired L) (stopSlot : Nat)
    (prefixHash : LogHash) (recoveredTip : Nat) (recoveredHash : LogHash)
    (hHash : strict → recoveredHash ≠ .zero) :
    Serves K node F G strict L.head
      (L.headAfterActivation (L.recorder node retired) stopSlot prefixHash recoveredTip recoveredHash) (Able K node F G strict L)
      (fun conduct => (L.recorder node retired).recoverActivation conduct stopSlot prefixHash
        recoveredTip recoveredHash)
      (recoverSuccessorActivationFromCheckpoint node stopSlot prefixHash recoveredTip
        recoveredHash) := by
  have hNothing : ∀ error, Lands K node strict L.head
      (L.headAfterActivation (L.recorder node retired) stopSlot prefixHash recoveredTip recoveredHash)
      (fun conduct => (L.recorder node retired).recoverActivation conduct stopSlot prefixHash
        recoveredTip recoveredHash) (.error error) L :=
    fun error => ⟨hReady.good, _, _,
      Recorder.recoverActivation_nothing _ false error stopSlot prefixHash recoveredTip recoveredHash,
      rfl⟩
  refine Triple.bind (recoverIntent_able.conseq (fun _ _ h => h) (fun _ _ _ h => h)
    (fun error _ _ h => ⟨L, h, hNothing error⟩) fun _ h => ⟨L, h, hNothing _⟩) fun _ => ?_
  refine Triple.bind (readView_live retired) fun v => Triple.given ?_
  rintro ⟨hShows, -⟩
  refine Triple.bind (Q := fun result d m => v.recoverSuccessorActivationFromCheckpoint stopSlot
    prefixHash recoveredTip recoveredHash = .ok result ∧ Live K node strict L d m ∧
    Harmless strict F d m) (Triple.lift (fun _ _ _ hOk h => ⟨hOk, h⟩)
    fun error _ _ _ h => ⟨L, .live h.1, hNothing error⟩) fun result => Triple.given fun hOk => ?_
  obtain ⟨recovered, head⟩ := result
  rw [← hShows.recoverSuccessorActivation] at hOk
  obtain ⟨rfl, rfl⟩ | ⟨predecessor, hPredecessor, -, rfl, rfl, hTip, rfl, rfl⟩ :=
    RecorderView.recoverSuccessorActivation_eq_ok hOk
  · have hHead : L.headAfterActivation (L.recorder node retired) stopSlot prefixHash recoveredTip
        recoveredHash = L.head := by
      simp only [Content.headAfterActivation, hOk]
    rw [hHead]
    refine idle_serves retired _ hReady.toSetting ?_
    simp only [Recorder.recoverActivation, hOk]
    rfl
  have hHead : L.headAfterActivation (L.recorder node retired) predecessor.stopSlot
      predecessor.prefixHash recoveredTip recoveredHash = .checkpointBacked predecessor.stopSlot
        predecessor.prefixHash recoveredTip recoveredHash := by
    simp only [Content.headAfterActivation, hOk]
  have hGood : strict → (L.install { L.configuration with
      activated := true, maxAcceptedOrDecidedSlot := some recoveredTip }
      (.checkpointBacked predecessor.stopSlot predecessor.prefixHash recoveredTip
        recoveredHash)).Good K node :=
    fun h => good_of_activates (hReady.good h) hPredecessor hTip (hHash h)
  refine Triple.bind (checkpointWal_serves hMet hReady.toSetting hNothing) fun _ => ?_
  refine Triple.named fun d₀ m₀ hHere => ?_
  obtain ⟨hLive₀, hCount, hClean, hJoined⟩ := hHere
  refine Triple.bind ((commitConfigurationHead_triple rfl hGood hJoined m₀ d₀.wal hClean).conseq ?_
    (fun _ _ _ h => h) ?_ ?_) fun _ => ?_
  · rintro d m ⟨rfl, rfl⟩
    exact ⟨rfl, rfl, hLive₀, hCount⟩
  · exact fun error _ _ h => ⟨L, .live h, hNothing error⟩
  · rintro d (h | h)
    · exact ⟨L, h, hNothing _⟩
    · refine ⟨_, h, hGood, ⟨false, some (.everything, FileRecorder.stopped)⟩, retired, ?_,
        hHead.symm⟩
      simp only [Recorder.recoverActivation, hOk]
      rfl
  refine Triple.bind (Q := fun _ d m => Live K node strict (L.install { L.configuration with
      activated := true, maxAcceptedOrDecidedSlot := some recoveredTip }
      (.checkpointBacked predecessor.stopSlot predecessor.prefixHash recoveredTip recoveredHash)) d m)
    (Triple.setMemory ?_) fun _ => Triple.pure ?_
  · rintro d m ⟨rfl, h⟩
    exact h
  · refine fun d m h => ⟨_, h, hGood, .good, retired, ?_, hHead.symm⟩
    simp only [Recorder.recoverActivation, hOk]
    rfl

theorem read_serves {α : Type} (hReady : Ready K node strict retired L)
    (read : RecorderView → Result α)
    (hShows : ∀ v a, v.Shows (L.recorder node retired).view → read v = .ok a →
      read (L.recorder node retired).view = .ok a) :
    Serves K node F G strict L.head L.head (Able K node F G strict L)
      (fun conduct => Recorder.settle conduct (L.recorder node retired) (L.recorder node retired)
        (L.recorder node retired) (read (L.recorder node retired).view))
      (do recoverIntent node; Program.lift (read (← readView node))) := by
  have hNothing : ∀ error, Lands K node strict L.head L.head (fun conduct => Recorder.settle conduct
      (L.recorder node retired) (L.recorder node retired) (L.recorder node retired)
      (read (L.recorder node retired).view)) (.error error) L :=
    fun error => ⟨hReady.good, ⟨false, some (.nothing, error)⟩, retired, rfl, rfl⟩
  refine Triple.bind (recoverIntent_able.conseq (fun _ _ h => h) (fun _ _ _ h => h)
    (fun error _ _ h => ⟨L, h, hNothing error⟩) fun _ h => ⟨L, h, hNothing _⟩) fun _ => ?_
  refine Triple.bind (readView_live retired) fun v => Triple.given fun h => ?_
  refine Triple.lift (fun a d m hOk hHere => ⟨L, hHere.1, hReady.good, .good, retired, ?_, rfl⟩)
    fun error d m _ hHere => ⟨L, .live hHere.1, hNothing error⟩
  rw [hShows v a h.1 hOk]
  rfl

theorem Pending.storeFile {i : TransitionIntent} (h : Pending K node strict L d m i)
    {hash : LogHash} {command : StoredCommand} (hHash : command.hash = hash)
    (hKnown : strict → K command) (hFile : d.commands hash = none) :
    Pending K node strict (L.keepCommand false hash command)
      { d with commands := Function.update d.commands hash (some command) } m i := by
  have hCommands : L.commands = d.commands := by rw [← h.intended.content_eq]
  obtain ⟨⟨hIntent, hHeadIntent, hSlot, hMax, hValued, hConfigured, hWal, hContent, hOwned, hGood⟩,
    hStart, hFrames, hGeneration⟩ := h
  refine ⟨⟨hIntent, hHeadIntent, hSlot, hMax, hValued, hConfigured, hWal, ?_, hOwned, fun hStrict => ?_⟩,
    hStart, hFrames, hGeneration⟩
  · rw [Content.keepCommand_of_none ((congrFun hCommands hash).trans hFile), ← hContent]
  · have hOwn : ∀ hash' c, some (hash, command) = some (hash', c) → c.hash = hash' ∧ K c := by
      rintro _ _ ⟨⟩
      exact ⟨hHash, hKnown hStrict⟩
    exact (hGood hStrict).stage hOwn

theorem Standing.storeFile (h : Standing K node G strict L d m) {hash : LogHash}
    {command : StoredCommand} (hHash : command.hash = hash) (hKnown : strict → K command)
    (hGet : Assoc.get m.wal.commands hash = none) (hFile : d.commands hash = none)
    (hKeyed : strict → Keyed K L.commands) (hApart : TellsApart K) :
    Standing K node G strict (L.keepCommand false hash command)
      { d with commands := Function.update d.commands hash (some command) } m := by
  cases h with
  | live h => exact .live (h.storeFile hHash hKnown hFile)
  | pending hErrs i h => exact .pending hErrs i (h.storeFile hHash hKnown hFile)
  | failed hErrs hFailed hTrails h =>
    refine .failed hErrs hFailed (fun hStrict => ⟨?_, ?_, ?_⟩) (h.storeFile hHash hKnown hFile)
    · intro hash' old hOld
      change Assoc.layered m.wal.commands (Function.update d.commands hash (some command)) hash' =
        some old at hOld
      rw [Assoc.layered_update_of_none hGet] at hOld
      by_cases hSame : hash' = hash
      · subst hSame
        rw [Function.update_self] at hOld
        obtain rfl := Option.some.inj hOld
        cases hL : L.commands hash' with
        | none =>
          rw [Content.keepCommand_of_none hL]
          exact Function.update_self ..
        | some other =>
          obtain ⟨hOther, hOtherKnown⟩ := hKeyed hStrict hash' other hL
          rw [Content.keepCommand_of_some hL, hL,
            hApart other command hOtherKnown (hKnown hStrict) (hOther.trans hHash.symm)]
      · rw [Function.update_of_ne hSame] at hOld
        exact Content.commands_stage ((hTrails hStrict).commands hash' old hOld)
          (some (hash, command))
    · rw [Content.keepCommand_slots]
      exact (hTrails hStrict).decided
    · rw [Content.keepCommand_configuration]
      exact (hTrails hStrict).configuration

section Failed

variable (d₀ : Disk) (m₀ : Memory)

theorem checkpointWal_failed (hFailed : m₀.wal.failed = true) :
    Triple F (fun d m => d = d₀ ∧ m = m₀) (checkpointWal node) (fun _ _ _ => False)
      (fun _ d m => d = d₀ ∧ m = m₀) (fun _ => False) := by
  refine Triple.bind (Q := fun m₁ d m => m₁ = m₀ ∧ d = d₀ ∧ m = m₀)
    (Triple.memory fun d m h => ⟨h.2, h⟩) fun m₁ => Triple.given ?_
  rintro rfl
  rw [if_pos hFailed]
  exact Triple.fail fun _ _ h => h

theorem readView_named {E : Error → Disk → Memory → Prop} {C : Disk → Prop} :
    Triple F (fun d m => d = d₀ ∧ m = m₀) (readView node)
      (fun v d m => v = m₀.view node d₀ ∧ d = d₀ ∧ m = m₀) E C := by
  refine readView_triple.conseq (fun _ _ h => h) ?_ (fun _ _ _ h => h) fun _ h => h
  rintro v d m ⟨rfl, rfl, rfl⟩
  exact ⟨rfl, rfl, rfl⟩

theorem persistStateTransition_failed (hFailed : m₀.wal.failed = true)
    (previous : ConfigurationState) (t : Transition) :
    Triple F (fun d m => d = d₀ ∧ m = m₀) (persistStateTransition node previous t)
      (fun _ _ _ => False) (fun _ d m => d = d₀ ∧ m = m₀) (fun _ => False) := by
  unfold persistStateTransition
  split
  · exact Triple.bind (checkpointWal_failed d₀ m₀ hFailed) fun _ _ _ _ _ h => h.elim
  · refine Triple.bind (Q := fun _ d m => d = d₀ ∧ m = m₀) (Triple.memory fun d m h => h) fun _ => ?_
    refine Triple.bind (Q := fun _ _ _ => False) ?_ fun _ _ _ _ _ h => h.elim
    refine Triple.bind (Q := fun m₁ d m => m₁ = m₀ ∧ d = d₀ ∧ m = m₀)
      (Triple.memory fun d m h => ⟨h.2, h⟩) fun m₁ => Triple.given ?_
    rintro rfl
    rw [if_pos hFailed]
    exact Triple.fail fun _ _ h => h

variable {d₀ m₀} (hIntent : d₀.intent = none) (hHeadIntent : d₀.headIntent = none)
  (hFailed : m₀.wal.failed = true)

omit [Sha256] in
include hIntent hHeadIntent in
theorem recoverIntent_failed {E : Error → Disk → Memory → Prop} {C : Disk → Prop} :
    Triple F (fun d m => d = d₀ ∧ m = m₀) (recoverIntent node) (fun _ d m => d = d₀ ∧ m = m₀) E C := by
  refine recoverIntent_idle ?_
  rintro d m ⟨rfl, rfl⟩
  exact ⟨hIntent, hHeadIntent⟩

include hIntent hHeadIntent hFailed

theorem recordProposal_failed (request : RecordRequest) :
    Triple F (fun d m => d = d₀ ∧ m = m₀) (recordProposal node request)
      (fun summary d m => (d = d₀ ∧ m = m₀) ∧
        (m₀.view node d₀).recordProposal request = .ok (summary, none))
      (fun _ d m => d = d₀ ∧ m = m₀) (fun _ => False) := by
  refine Triple.bind (readView_triple (P := fun d m => d = d₀ ∧ m = m₀)) fun v => ?_
  refine Triple.bind (Q := fun _ d m => d = d₀ ∧ m = m₀) (Triple.lift (fun _ _ _ _ h => h.2)
    fun _ _ _ _ h => h.2) fun _ => ?_
  refine Triple.bind (Q := fun _ d m => d = d₀ ∧ m = m₀) (Triple.lift (fun _ _ _ _ h => h)
    fun _ _ _ _ h => h) fun _ => ?_
  refine Triple.bind (recoverIntent_failed hIntent hHeadIntent) fun _ => ?_
  refine Triple.bind (readView_named d₀ m₀) fun v => Triple.given ?_
  rintro rfl
  refine Triple.bind (Q := fun result d m => (m₀.view node d₀).recordProposal request = .ok result ∧
    d = d₀ ∧ m = m₀) (Triple.lift (fun _ _ _ hOk h => ⟨hOk, h⟩) fun _ _ _ _ h => h)
    fun result => Triple.given fun hOk => ?_
  obtain ⟨summary, _ | t⟩ := result
  · exact Triple.pure fun d m h => ⟨h, hOk⟩
  · exact Triple.bind (persistStateTransition_failed d₀ m₀ hFailed _ t) fun _ _ _ _ _ h => h.elim

theorem installDecisionProofRecord_failed (proof : DecisionProof) (membership : Membership) :
    Triple F (fun d m => d = d₀ ∧ m = m₀) (installDecisionProofRecord node proof membership)
      (fun _ d m => (d = d₀ ∧ m = m₀) ∧
        (m₀.view node d₀).installDecisionProofRecord proof membership = .ok none)
      (fun _ d m => d = d₀ ∧ m = m₀) (fun _ => False) := by
  refine Triple.bind (Q := fun _ d m => d = d₀ ∧ m = m₀) (Triple.lift (fun _ _ _ _ h => h)
    fun _ _ _ _ h => h) fun _ => ?_
  refine Triple.bind (recoverIntent_failed hIntent hHeadIntent) fun _ => ?_
  refine Triple.bind (readView_named d₀ m₀) fun v => Triple.given ?_
  rintro rfl
  refine Triple.bind (Q := fun result d m =>
    (m₀.view node d₀).installDecisionProofRecord proof membership = .ok result ∧
    d = d₀ ∧ m = m₀) (Triple.lift (fun _ _ _ hOk h => ⟨hOk, h⟩) fun _ _ _ _ h => h)
    fun result => Triple.given fun hOk => ?_
  cases result with
  | none => exact Triple.pure fun d m h => ⟨h, hOk⟩
  | some t =>
    exact (persistStateTransition_failed d₀ m₀ hFailed _ t).conseq (fun _ _ h => h)
      (fun _ _ _ h => h.elim) (fun _ _ _ h => h) fun _ h => h

theorem installSuccessorFromProof_failed (membership : Membership) (stopProof : DecisionProof) :
    Triple F (fun d m => d = d₀ ∧ m = m₀) (installSuccessorFromProof node membership stopProof)
      (fun _ _ _ => False) (fun _ d m => d = d₀ ∧ m = m₀) (fun _ => False) := by
  refine Triple.bind (recoverIntent_failed hIntent hHeadIntent) fun _ => ?_
  refine Triple.bind (readView_named d₀ m₀) fun v => Triple.given fun _ => ?_
  refine Triple.bind (Q := fun _ d m => d = d₀ ∧ m = m₀) (Triple.lift (fun _ _ _ _ h => h)
    fun _ _ _ _ h => h) fun _ => ?_
  exact Triple.bind (checkpointWal_failed d₀ m₀ hFailed) fun _ _ _ _ _ h => h.elim

theorem recoverActivation_failed (stopSlot : Nat) (prefixHash : LogHash) (recoveredTip : Nat)
    (recoveredHash : LogHash) :
    Triple F (fun d m => d = d₀ ∧ m = m₀) (recoverSuccessorActivationFromCheckpoint node stopSlot
        prefixHash recoveredTip recoveredHash)
      (fun configuration d m => (d = d₀ ∧ m = m₀) ∧ configuration = m₀.configuration)
      (fun _ d m => d = d₀ ∧ m = m₀) (fun _ => False) := by
  refine Triple.bind (recoverIntent_failed hIntent hHeadIntent) fun _ => ?_
  refine Triple.bind (readView_named d₀ m₀) fun v => Triple.given ?_
  rintro rfl
  refine Triple.bind (Q := fun result d m => (m₀.view node d₀).recoverSuccessorActivationFromCheckpoint
    stopSlot prefixHash recoveredTip recoveredHash = .ok result ∧ d = d₀ ∧ m = m₀) (Triple.lift
    (fun _ _ _ hOk h => ⟨hOk, h⟩) fun _ _ _ _ h => h) fun result => Triple.given fun hOk => ?_
  obtain ⟨recovered, _ | head⟩ := result
  · refine Triple.pure fun d m h => ⟨h, ?_⟩
    obtain ⟨rfl, -⟩ | ⟨_, -, -, -, -, -, -, hNone⟩ :=
      RecorderView.recoverSuccessorActivation_eq_ok hOk
    · rfl
    · cases hNone
  · exact Triple.bind (checkpointWal_failed d₀ m₀ hFailed) fun _ _ _ _ _ h => h.elim

omit hFailed in
theorem read_failed {α : Type} (read : RecorderView → Result α) :
    Triple F (fun d m => d = d₀ ∧ m = m₀)
      (do recoverIntent node; Program.lift (read (← readView node)) : Io α)
      (fun _ d m => d = d₀ ∧ m = m₀) (fun _ d m => d = d₀ ∧ m = m₀) (fun _ => False) := by
  refine Triple.bind (recoverIntent_failed hIntent hHeadIntent) fun _ => ?_
  refine Triple.bind (readView_named d₀ m₀) fun v => Triple.given fun _ => ?_
  exact Triple.lift (fun _ _ _ _ h => h) fun _ _ _ _ h => h

end Failed

end Calls

end Rhiza.Quepaxa
