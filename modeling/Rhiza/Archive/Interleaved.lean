import Rhiza.Archive.Sound

/-! # Every interleaving of publications, snapshots and restores

What a call has planned stays good while other calls go on: objects are only
added, and a manifest that has been current keeps holding. A swap that succeeds
replaces exactly the manifest from which it was planned.
-/

namespace Rhiza.Archive

open Core Library

section Interleaved

variable [Sha256] (log : CommittedLog) (archive : ObjectArchiveStore)

/-- Publications that passed `validate_publication_entries`. -/
structure Accepted (entries : List LogEntry) : Prop where
  fromLog : FromLog log archive entries
  ordered : ∀ last, entries.getLast? = some last → ∀ entry ∈ entries, entry.index ≤ last.index

def Goal.Sound : Goal → Prop
  | .publish entries => Accepted log archive entries
  | .flush pending entries =>
    (∀ flush ∈ pending, Accepted log archive flush) ∧ FromLog log archive entries
  | _ => True

def Goal.Ready (objects : Objects) (goal : Goal) : Stage → Prop
  | .migration => True
  | .main => ∀ anchor bytes, goal = .snapshot anchor bytes →
      Present objects (ObjectArchiveStore.snapshotBase anchor bytes)

structure Proposed (objects : Objects) (goal : Goal) (stage : Stage)
    (loaded next : CheckpointManifest) : Prop where
  holds : Holds log archive objects next
  advances : Advances loaded next
  answers : stage = .main → ∀ entries, goal = .publish entries → Covers archive objects next entries

structure Restoring (loaded : CheckpointManifest)
    (snapshot : Option (RecoveryAnchor × Bytes)) (records : List CheckpointSegmentRecord)
    (tip : CheckpointTip) (restored : List LogEntry) : Prop where
  records_mem : ∀ record ∈ records, record ∈ loaded.segments
  base_le : loaded.base.tip.index ≤ tip.index
  tip_le : tip.index ≤ log.entries.length
  restored_eq : restored = log.between loaded.base.tip.index tip.index
  genesis : loaded.base = .genesis → snapshot = none
  snapshot : ∀ base, loaded.base = .snapshot base → ∃ bytes,
    snapshot = some (base.anchor, bytes) ∧ bytes.length = base.sizeBytes ∧
      LogHash.digest [bytes] = base.digest

def Phase.Sound (objects : Objects) (manifests : List CheckpointManifest) (goal : Goal) :
    Phase → Prop
  | .initializing | .loading => goal.Sound log archive
  | .planning stage _ loaded =>
    goal.Sound log archive ∧ loaded ∈ manifests ∧ goal.Ready objects stage
  | .storing stage _ loaded object next =>
    goal.Sound log archive ∧ loaded ∈ manifests ∧ goal.Ready objects stage ∧
      ∀ objects', Grows objects objects' → objects' object.1 = some object.2 →
        Proposed log archive objects' goal stage loaded next
  | .swapping stage _ loaded next =>
    goal.Sound log archive ∧ loaded ∈ manifests ∧ goal.Ready objects stage ∧
      Proposed log archive objects goal stage loaded next
  | .reloading stage _ => goal.Sound log archive ∧ goal.Ready objects stage
  | .uploading loaded | .verifying loaded => goal.Sound log archive ∧ loaded ∈ manifests
  | .answering loaded pending =>
    loaded ∈ manifests ∧ ∀ flush ∈ pending, Accepted log archive flush
  | .downloading loaded snapshot => loaded ∈ manifests ∧ loaded.base = .snapshot snapshot
  | .restoring loaded snapshot records tip restored =>
    loaded ∈ manifests ∧ Restoring log loaded snapshot records tip restored
  | .finished _ => True

def RestoredCheckpoint.Of (restored : RestoredCheckpoint) (manifest : CheckpointManifest) : Prop :=
  restored.tip = manifest.tip ∧
    restored.suffix = log.between manifest.base.tip.index manifest.tip.index ∧
    (manifest.base = .genesis → restored.snapshot = none) ∧
    ∀ base, manifest.base = .snapshot base → ∃ bytes,
      restored.snapshot = some (base.anchor, bytes) ∧ bytes.length = base.sizeBytes ∧
        LogHash.digest [bytes] = base.digest

structure World.Sound (w : World) : Prop where
  holds : ∀ manifest ∈ w.manifests, Holds log archive w.objects manifest
  forward : w.manifests.Pairwise fun newer older => Advances older newer
  publishers : ∀ publisher loaded, w.publishers publisher = some loaded → loaded ∈ w.manifests
  processes : ∀ process ∈ w.processes,
    process.phase.Sound log archive w.objects w.manifests process.goal
  answers : ∀ entries manifest, (entries, manifest) ∈ w.answers →
    manifest ∈ w.manifests ∧ Covers archive w.objects manifest entries
  restores : ∀ restored manifest, (restored, some manifest) ∈ w.restores →
    manifest ∈ w.manifests ∧ restored.Of log manifest
  emptyRestores : ∀ restored, (restored, none) ∈ w.restores →
    restored = ⟨none, [], ⟨0, .zero⟩⟩

def Event.FromLog : Event → Prop
  | .call (.publish entries) => ∀ entry ∈ entries, entry ∈ log.entries
  | .flush _ pending => ∀ entries ∈ pending, ∀ entry ∈ entries, entry ∈ log.entries
  | _ => True

variable {log archive} {w : World} {objects objects' : Objects}
  {manifests manifests' : List CheckpointManifest} {goal : Goal}

section Stable

theorem Goal.Ready.mono {stage : Stage} (h : goal.Ready objects stage)
    (hGrows : Grows objects objects') : goal.Ready objects' stage := by
  cases stage with
  | migration => trivial
  | main => exact fun anchor bytes hGoal => (h anchor bytes hGoal).mono hGrows

theorem Proposed.mono {stage : Stage} {loaded next : CheckpointManifest}
    (h : Proposed log archive objects goal stage loaded next) (hGrows : Grows objects objects') :
    Proposed log archive objects' goal stage loaded next where
  holds := h.holds.mono hGrows
  advances := h.advances
  answers hStage entries hGoal := (h.answers hStage entries hGoal).mono hGrows

theorem Phase.Sound.mono {phase : Phase} (h : phase.Sound log archive objects manifests goal)
    (hGrows : Grows objects objects') (hManifests : manifests ⊆ manifests') :
    phase.Sound log archive objects' manifests' goal := by
  cases phase with
  | initializing => exact h
  | loading => exact h
  | planning stage lost loaded => exact ⟨h.1, hManifests h.2.1, h.2.2.mono hGrows⟩
  | storing stage lost loaded object next =>
    obtain ⟨hGoal, hLoaded, hReady, hNext⟩ := h
    exact ⟨hGoal, hManifests hLoaded, hReady.mono hGrows,
      fun objects'' hGrows' hObject => hNext objects'' (hGrows.trans hGrows') hObject⟩
  | swapping stage lost loaded next =>
    obtain ⟨hGoal, hLoaded, hReady, hNext⟩ := h
    exact ⟨hGoal, hManifests hLoaded, hReady.mono hGrows, hNext.mono hGrows⟩
  | reloading stage lost => exact ⟨h.1, h.2.mono hGrows⟩
  | uploading loaded => exact ⟨h.1, hManifests h.2⟩
  | verifying loaded => exact ⟨h.1, hManifests h.2⟩
  | answering loaded pending => exact ⟨hManifests h.1, h.2⟩
  | downloading loaded snapshot => exact ⟨hManifests h.1, h.2⟩
  | restoring loaded snapshot records tip restored =>
    exact ⟨hManifests h.1, { h.2 with }⟩
  | finished result => trivial

end Stable

section Changes

theorem World.Sound.grow (h : w.Sound log archive) (hGrows : Grows w.objects objects') :
    World.Sound log archive { w with objects := objects' } where
  holds manifest hMem := (h.holds manifest hMem).mono hGrows
  forward := h.forward
  publishers := h.publishers
  processes process hMem := (h.processes process hMem).mono hGrows (List.Subset.refl _)
  answers entries manifest hMem :=
    ⟨(h.answers entries manifest hMem).1, (h.answers entries manifest hMem).2.mono hGrows⟩
  restores := h.restores
  emptyRestores := h.emptyRestores

theorem World.Sound.create (h : w.Sound log archive) {key : ObjectKey} {bytes : Bytes}
    {stored : World} (hCreate : w.create key bytes = some stored) :
    stored.Sound log archive ∧ stored.manifests = w.manifests ∧
      stored.processes = w.processes ∧ Grows w.objects stored.objects ∧
      stored.objects key = some bytes := by
  unfold World.create at hCreate
  split at hCreate
  · rename_i hAbsent
    obtain rfl := Option.some.inj hCreate
    have hGrows : Grows w.objects (Function.update w.objects key (some bytes)) := by
      intro other found hFound
      have hNe : other ≠ key := by
        rintro rfl
        cases hAbsent.symm.trans hFound
      rw [Function.update_of_ne hNe]
      exact hFound
    exact ⟨h.grow hGrows, rfl, rfl, hGrows, Function.update_self ..⟩
  · rename_i existing hExisting
    split at hCreate
    · rename_i hSame
      obtain rfl := Option.some.inj hCreate
      exact ⟨h, rfl, rfl, Grows.refl _, hSame ▸ hExisting⟩
    · cases hCreate

theorem World.Sound.setPhase (h : w.Sound log archive) (position : Nat) (process : Process)
    {phase : Phase} (hPhase : phase.Sound log archive w.objects w.manifests process.goal) :
    (w.setPhase position process phase).Sound log archive where
  holds := h.holds
  forward := h.forward
  publishers := h.publishers
  processes other hMem := by
    rcases List.mem_or_eq_of_mem_set hMem with hMem | rfl
    · exact h.processes other hMem
    · exact hPhase
  answers := h.answers
  restores := h.restores
  emptyRestores := h.emptyRestores

theorem World.Sound.finish (h : w.Sound log archive) (position : Nat) (process : Process)
    (result : Result Unit) :
    (w.setPhase position process (.finished result)).Sound log archive :=
  h.setPhase position process trivial

theorem World.Sound.spawn (h : w.Sound log archive) {process : Process}
    (hPhase : process.phase.Sound log archive w.objects w.manifests process.goal) :
    (w.spawn process).Sound log archive where
  holds := h.holds
  forward := h.forward
  publishers := h.publishers
  processes other hMem := by
    rcases List.mem_append.mp hMem with hMem | hMem
    · exact h.processes other hMem
    · obtain rfl := List.mem_singleton.mp hMem
      exact hPhase
  answers := h.answers
  restores := h.restores
  emptyRestores := h.emptyRestores

theorem World.Sound.cache (h : w.Sound log archive) (process : Process)
    {loaded : CheckpointManifest} (hLoaded : loaded ∈ w.manifests) :
    (w.cache process loaded).Sound log archive := by
  unfold World.cache
  split
  · exact h
  · rename_i publisher hPublisher
    refine { h with publishers := fun other found hFound => ?_ }
    by_cases hSame : other = publisher
    · subst hSame
      simp only [Function.update_self] at hFound
      obtain rfl := Option.some.inj hFound
      exact hLoaded
    · simp only [Function.update_of_ne hSame] at hFound
      exact h.publishers other found hFound

theorem World.Sound.answer (h : w.Sound log archive) {entries : List LogEntry}
    {manifest : CheckpointManifest} (hManifest : manifest ∈ w.manifests)
    (hCovers : Covers archive w.objects manifest entries) :
    World.Sound log archive { w with answers := (entries, manifest) :: w.answers } := by
  refine { h with answers := fun found other hMem => ?_ }
  rcases List.mem_cons.mp hMem with hSame | hMem
  · obtain ⟨rfl, rfl⟩ := Prod.mk.inj hSame
    exact ⟨hManifest, hCovers⟩
  · exact h.answers found other hMem

theorem World.Sound.swap (h : w.Sound log archive) {loaded next : CheckpointManifest}
    (hLoaded : w.manifest? = some loaded) (hHolds : Holds log archive w.objects next)
    (hAdvances : Advances loaded next) :
    World.Sound log archive { w with manifests := next :: w.manifests } where
  holds manifest hMem := by
    rcases List.mem_cons.mp hMem with rfl | hMem
    · exact hHolds
    · exact h.holds manifest hMem
  forward := by
    obtain ⟨rest, hRest⟩ := List.head?_eq_some_iff.mp hLoaded
    refine List.pairwise_cons.mpr ⟨fun older hOlder => ?_, h.forward⟩
    have hForward := h.forward
    rw [hRest] at hOlder hForward
    rcases List.mem_cons.mp hOlder with rfl | hOlder
    · exact hAdvances
    · have hBefore := (List.pairwise_cons.mp hForward).1 older hOlder
      exact ⟨hBefore.tip_le.trans hAdvances.tip_le, hBefore.base_le.trans hAdvances.base_le⟩
  publishers publisher found hFound := List.mem_cons_of_mem _ (h.publishers publisher found hFound)
  processes process hMem :=
    (h.processes process hMem).mono (Grows.refl _) (List.subset_cons_self _ _)
  answers entries manifest hMem :=
    ⟨List.mem_cons_of_mem _ (h.answers entries manifest hMem).1,
      (h.answers entries manifest hMem).2⟩
  restores restored manifest hMem :=
    ⟨List.mem_cons_of_mem _ (h.restores restored manifest hMem).1,
      (h.restores restored manifest hMem).2⟩
  emptyRestores := h.emptyRestores

end Changes

section Calls

/-- A planned change is a proposal as soon as its object is stored. -/
structure Proposes (log : CommittedLog) (archive : ObjectArchiveStore) (objects : Objects)
    (goal : Goal) (stage : Stage) (loaded : CheckpointManifest)
    (change : ObjectArchiveStore.Change) : Prop where
  stored : ∀ object, change.object = some object → ∀ objects', Grows objects objects' →
    objects' object.1 = some object.2 → Proposed log archive objects' goal stage loaded change.next
  bare : change.object = none → Proposed log archive objects goal stage loaded change.next

theorem plan_eq_some {stage : Stage} {loaded : CheckpointManifest}
    {change : ObjectArchiveStore.Change}
    (hPlan : World.plan archive objects goal stage loaded = .ok (some change))
    (hGoal : goal.Sound log archive) (hReady : goal.Ready objects stage)
    (hHolds : Holds log archive objects loaded) :
    Proposes log archive objects goal stage loaded change := by
  have hWithout : ∀ {change : ObjectArchiveStore.Change},
      (change.object = none ∧ Advances loaded change.next ∧
        Holds log archive objects change.next) →
      (stage = .main → ∀ entries, goal ≠ .publish entries) →
      Proposes log archive objects goal stage loaded change := by
    rintro change ⟨hNone, hAdvances, hNext⟩ hOther
    refine ⟨fun object hObject => ?_, fun _ => ⟨hNext, hAdvances, ?_⟩⟩
    · cases hNone.symm.trans hObject
    · exact fun hStage entries hPublish => absurd hPublish (hOther hStage entries)
  have hPublication : ∀ {entries : List LogEntry} {change : ObjectArchiveStore.Change},
      Publishes log archive objects loaded entries change →
      (∀ published, goal = .publish published → published = entries ∧
        Accepted log archive published) →
      Proposes log archive objects goal stage loaded change := by
    rintro entries change ⟨hAdvances, ⟨key, bytes, hObject, hStored⟩, hTip⟩ hSame
    refine ⟨fun object hFound objects' hGrows hThere => ?_, fun hNone => ?_⟩
    · obtain rfl := Option.some.inj (hObject.symm.trans hFound)
      have hNext := hStored objects' hGrows hThere
      refine ⟨hNext, hAdvances, fun _ published hPublish => ?_⟩
      obtain ⟨rfl, hAccepted⟩ := hSame published hPublish
      refine hNext.covers (fun entry hEntry => (hAccepted.fromLog entry hEntry).1) ?_
      intro entry hEntry
      obtain ⟨last, hLast⟩ : ∃ last, published.getLast? = some last :=
        ⟨_, List.getLast?_eq_some_getLast (List.ne_nil_of_mem hEntry)⟩
      exact (hAccepted.ordered last hLast entry hEntry).trans (hTip last hLast)
    · cases hObject.symm.trans hNone
  cases stage with
  | migration =>
    exact hWithout (planMigration_eq_some hPlan hHolds) fun hStage => by cases hStage
  | main =>
    cases goal with
    | publish entries =>
      refine hPublication (planPublication_eq_some hPlan hHolds hGoal.fromLog) ?_
      intro published hPublish
      obtain rfl := Goal.publish.inj hPublish
      exact ⟨rfl, hGoal⟩
    | flush pending entries =>
      refine hPublication (planPublication_eq_some hPlan hHolds hGoal.2) ?_
      intro published hPublish
      cases hPublish
    | snapshot anchor bytes =>
      refine hWithout (planSnapshot_eq_some hPlan hHolds (hReady anchor bytes rfl)) ?_
      intro _ entries hPublish
      cases hPublish
    | «open» => cases Except.ok.inj hPlan
    | restore => cases Except.ok.inj hPlan

theorem planPublication_eq_none {entries : List LogEntry} {loaded : CheckpointManifest}
    (hPlan : archive.planPublication objects entries loaded = .ok none) :
    archive.publicationSuffixStart objects loaded entries = .ok none := by
  obtain ⟨start, hStart, hPlan⟩ := bind_ok_iff.mp hPlan
  cases start with
  | none => exact hStart
  | some start =>
    exfalso
    obtain ⟨decoded, -, hPlan⟩ := bind_ok_iff.mp hPlan
    simp only [unit_bind_ok_iff] at hPlan
    obtain ⟨-, hPlan⟩ := hPlan
    obtain ⟨record, -, hPlan⟩ := bind_ok_iff.mp hPlan
    simp only [unit_bind_ok_iff] at hPlan
    cases Except.ok.inj hPlan.2

theorem Accepted.covers {entries : List LogEntry} {loaded : CheckpointManifest}
    (h : Accepted log archive entries) (hHolds : Holds log archive objects loaded)
    (hNone : archive.publicationSuffixStart objects loaded entries = .ok none) :
    Covers archive objects loaded entries := by
  refine hHolds.covers (fun entry hEntry => (h.fromLog entry hEntry).1) fun entry hEntry => ?_
  obtain ⟨last, hLast⟩ : ∃ last, entries.getLast? = some last :=
    ⟨_, List.getLast?_eq_some_getLast (List.ne_nil_of_mem hEntry)⟩
  exact (h.ordered last hLast entry hEntry).trans (publicationSuffixStart_eq_none hNone hLast)

theorem World.Sound.leaveLoop (h : w.Sound log archive) (position : Nat) {process : Process}
    {loaded : CheckpointManifest} {stage : Stage} (hGoal : process.goal.Sound log archive)
    (hLoaded : loaded ∈ w.manifests)
    (hAnswers : stage = .main → ∀ entries, process.goal = .publish entries →
      Covers archive w.objects loaded entries) :
    (World.leaveLoop archive w position process loaded stage).Sound log archive := by
  cases stage with
  | migration =>
    unfold World.leaveLoop
    simp only
    split
    · refine (h.finish position process _).answer hLoaded ?_
      exact fun entry hEntry => by cases hEntry
    · rename_i entry entries hPublish
      refine h.setPhase position process ⟨hGoal, hLoaded, fun anchor bytes hSnapshot => ?_⟩
      cases hPublish.symm.trans hSnapshot
    · split
      · exact h.finish position process _
      · exact h.setPhase position process ⟨hGoal, hLoaded⟩
    · exact (h.finish position process _).cache process hLoaded
  | main =>
    unfold World.leaveLoop
    simp only
    split
    · rename_i entries hPublish
      exact (h.finish position process _).answer hLoaded (hAnswers rfl entries hPublish)
    · rename_i pending entries hFlush
      rw [hFlush] at hGoal
      have hAnswering : (Phase.answering loaded pending).Sound log archive w.objects w.manifests
          process.goal := ⟨hLoaded, hGoal.1⟩
      exact (h.setPhase position process hAnswering).cache process hLoaded
    · exact (h.finish position process _).cache process hLoaded

theorem World.Sound.advanceLoop (h : w.Sound log archive) (position : Nat) {process : Process}
    {stage : Stage} {lost : Nat} {loaded : CheckpointManifest}
    (hPhase : (Phase.planning stage lost loaded).Sound log archive w.objects w.manifests
      process.goal) :
    (World.advanceLoop archive w position process stage lost loaded).Sound log archive := by
  obtain ⟨hGoal, hLoaded, hReady⟩ := hPhase
  have hHolds := h.holds loaded hLoaded
  unfold World.advanceLoop
  split
  · exact h.finish position process _
  · split
    · exact h.finish position process _
    · rename_i hPlan
      refine h.leaveLoop position hGoal hLoaded ?_
      rintro rfl entries hPublish
      simp only [World.plan, hPublish] at hPlan
      rw [hPublish] at hGoal
      exact Accepted.covers hGoal hHolds (planPublication_eq_none hPlan)
    · rename_i object next hPlan
      refine h.setPhase position process ⟨hGoal, hLoaded, hReady, ?_⟩
      exact (plan_eq_some hPlan hGoal hReady hHolds).stored object rfl
    · rename_i next hPlan
      refine h.setPhase position process ⟨hGoal, hLoaded, hReady, ?_⟩
      exact (plan_eq_some hPlan hGoal hReady hHolds).bare rfl

theorem World.Sound.advanceSwap (h : w.Sound log archive) (position : Nat) {process : Process}
    {stage : Stage} {lost : Nat} {loaded next : CheckpointManifest} (wins : Bool)
    (hPhase : (Phase.swapping stage lost loaded next).Sound log archive w.objects w.manifests
      process.goal) :
    (World.advanceSwap archive w position process stage lost loaded next wins).Sound log
      archive := by
  obtain ⟨hGoal, hLoaded, hReady, hNext⟩ := hPhase
  unfold World.advanceSwap
  split
  · rename_i hWins
    have hSwapped := h.swap hWins.2 hNext.holds hNext.advances
    exact hSwapped.leaveLoop position hGoal List.mem_cons_self hNext.answers
  · exact h.setPhase position process ⟨hGoal, hReady⟩

theorem load_eq_ok {manifest : CheckpointManifest} (h : World.load archive w = .ok manifest) :
    manifest ∈ w.manifests := by
  unfold World.load at h
  split at h
  · cases h
  · rename_i found hFound
    simp only [unit_bind_ok_iff] at h
    obtain rfl := Except.ok.inj h.2
    exact List.mem_of_head? hFound

theorem holds_new (hValid : validateCheckpointManifest archive.identity
      (.new archive.identity) = .ok ()) :
    Holds log archive objects (.new archive.identity) where
  valid := hValid
  base_bounded := Nat.zero_le _
  base_hash := rfl
  segments record hRecord := by cases hRecord
  snapshot snapshot hSnapshot := by cases hSnapshot

omit [Sha256] in
theorem validate_new [Sha256] (identity : CheckpointIdentity) :
    validateCheckpointManifest identity (.new identity) = .ok () := by
  simp only [validateCheckpointManifest, unit_bind_ok_iff, check_eq_ok, decide_eq_true_eq]
  refine ⟨.inl rfl, fun h => (by cases h), ?_, rfl, rfl, ?_⟩
  · simp [validateCheckpointIdentity, CheckpointManifest.new, check, bind, Except.bind]
  · rfl

theorem World.Sound.initializeCheckpoint (h : w.Sound log archive) (position : Nat)
    {process : Process} (hGoal : process.goal.Sound log archive) :
    (World.initializeCheckpoint archive w position process).Sound log archive := by
  unfold World.initializeCheckpoint
  simp only
  split
  · rename_i hAbsent
    have hEmpty : w.manifests = [] := List.head?_eq_none_iff.mp hAbsent
    have hNew : World.Sound log archive { w with
        manifests := [CheckpointManifest.new archive.identity] } := by
      refine ⟨fun manifest hMem => ?_, List.pairwise_singleton _ _, ?_, ?_, ?_, ?_,
        h.emptyRestores⟩
      · obtain rfl := List.mem_singleton.mp hMem
        exact holds_new (validate_new _)
      · intro publisher loaded hLoaded
        have hMem := h.publishers publisher loaded hLoaded
        rw [hEmpty] at hMem
        cases hMem
      · intro other hMem
        refine (h.processes other hMem).mono (Grows.refl _) ?_
        rw [hEmpty]
        exact List.nil_subset _
      · intro entries manifest hMem
        have hOld := (h.answers entries manifest hMem).1
        rw [hEmpty] at hOld
        cases hOld
      · intro restored manifest hMem
        have hOld := (h.restores restored manifest hMem).1
        rw [hEmpty] at hOld
        cases hOld
    exact hNew.setPhase position process ⟨hGoal, List.mem_singleton_self _, trivial⟩
  · rename_i current hCurrent
    split
    · rename_i hSame
      refine h.setPhase position process ⟨hGoal, ?_, trivial⟩
      exact hSame ▸ List.mem_of_head? hCurrent
    · exact h.setPhase position process hGoal

theorem Restoring.segment {loaded : CheckpointManifest}
    {snapshot : Option (RecoveryAnchor × Bytes)} {record : CheckpointSegmentRecord}
    {records : List CheckpointSegmentRecord} {tip next : CheckpointTip}
    {restored entries : List LogEntry}
    (h : Restoring log loaded snapshot (record :: records) tip restored)
    (hHolds : Holds log archive objects loaded)
    (hSegment : World.restoreSegment archive objects record tip = .ok (entries, next)) :
    Restoring log loaded snapshot records next (restored ++ entries) := by
  obtain ⟨found, hLoad, hSegment⟩ := bind_ok_iff.mp hSegment
  simp only [unit_bind_ok_iff] at hSegment
  obtain ⟨hValidated, hSegment⟩ := hSegment
  split at hSegment
  · cases hSegment
  · rename_i last hLast
    obtain ⟨rfl, rfl⟩ := Prod.mk.inj (Except.ok.inj hSegment)
    have hStored := hHolds.segments record (h.records_mem record List.mem_cons_self)
    have hLog := hStored.load hLoad
    obtain ⟨hRange, hBound⟩ := validateDecodedEntries_eq_ok hValidated hLog
    have hNonempty : found ≠ [] := by
      rintro rfl
      cases hLast
    have hLength := hBound hNonempty
    have hPositive : 0 < found.length := List.length_pos_of_ne_nil hNonempty
    obtain ⟨last', hLast', -, hIndex⟩ := CommittedLog.getLast?_between
      (a := tip.index) (by omega) hLength
    rw [← hRange, hLast] at hLast'
    obtain rfl := Option.some.inj hLast'
    refine ⟨fun other hOther => h.records_mem other (List.mem_cons_of_mem _ hOther), ?_, ?_, ?_,
      h.genesis, h.snapshot⟩
    · have := h.base_le
      simp only
      omega
    · simp only
      omega
    · simp only [hIndex]
      rw [h.restored_eq]
      conv_lhs => rw [hRange]
      exact log.between_append h.base_le (Nat.le_add_right _ _) h.tip_le

theorem World.Sound.finishRestore (h : w.Sound log archive) (position : Nat) (process : Process)
    {loaded : CheckpointManifest} {snapshot : Option (RecoveryAnchor × Bytes)}
    {tip : CheckpointTip} {restored : List LogEntry} (hLoaded : loaded ∈ w.manifests)
    (hRestoring : Restoring log loaded snapshot [] tip restored) :
    (World.finishRestore w position process loaded snapshot tip restored).Sound log archive := by
  unfold World.finishRestore
  split
  · rename_i hTip
    refine { h.finish position process (.ok ()) with restores := ?_, emptyRestores := ?_ }
    · intro found manifest hMem
      rcases List.mem_cons.mp hMem with hSame | hMem
      · obtain ⟨rfl, hManifest⟩ := Prod.mk.inj hSame
        obtain rfl := Option.some.inj hManifest
        refine ⟨hLoaded, hTip, ?_, hRestoring.genesis, hRestoring.snapshot⟩
        rw [hRestoring.restored_eq, hTip]
      · exact h.restores found manifest hMem
    · intro found hMem
      rcases List.mem_cons.mp hMem with hSame | hMem
      · cases (Prod.mk.inj hSame).2
      · exact h.emptyRestores found hMem
  · exact h.finish position process _

theorem World.Sound.beginRestore (h : w.Sound log archive) (position : Nat) (process : Process) :
    (World.beginRestore archive w position process).Sound log archive := by
  unfold World.beginRestore
  split
  · refine { h.finish position process (.ok ()) with restores := ?_, emptyRestores := ?_ }
    · intro found manifest hMem
      rcases List.mem_cons.mp hMem with hSame | hMem
      · cases (Prod.mk.inj hSame).2
      · exact h.restores found manifest hMem
    · intro found hMem
      rcases List.mem_cons.mp hMem with hSame | hMem
      · exact (Prod.mk.inj hSame).1
      · exact h.emptyRestores found hMem
  · rename_i manifest hManifest
    have hMem := List.mem_of_head? hManifest
    split
    · exact h.finish position process _
    · split
      · rename_i hBase
        refine h.setPhase position process ⟨hMem, fun _ hRecord => hRecord, le_refl _,
          (h.holds manifest hMem).base_bounded, (log.between_self _).symm, fun _ => rfl, ?_⟩
        intro base hSnapshot
        cases hBase.symm.trans hSnapshot
      · rename_i snapshot hBase
        exact h.setPhase position process ⟨hMem, hBase⟩

omit [Sha256] in
theorem downloadVerified_eq_ok [Sha256] {key : ObjectKey} {sizeBytes : Nat} {sha256 : LogHash}
    {bytes : Bytes}
    (h : ObjectArchiveStore.downloadVerified objects key sizeBytes sha256 = .ok bytes) :
    objects key = some bytes ∧ bytes.length = sizeBytes ∧ LogHash.digest [bytes] = sha256 := by
  unfold ObjectArchiveStore.downloadVerified at h
  split at h
  · cases h
  · rename_i found hFound
    simp only [unit_bind_ok_iff, check_eq_ok, decide_eq_true_eq] at h
    obtain ⟨hSize, hHash, h⟩ := h
    obtain rfl := Except.ok.inj h
    exact ⟨hFound, hSize, hHash⟩

theorem World.Sound.advance (h : w.Sound log archive) {position : Nat} {process : Process}
    (hMem : process ∈ w.processes) (wins : Bool) {w' : World}
    (hStep : World.advance archive w position process wins = some w') :
    w'.Sound log archive := by
  have hPhase := h.processes process hMem
  unfold World.advance at hStep
  split at hStep
  · rename_i hAt
    rw [hAt] at hPhase
    obtain rfl := Option.some.inj hStep
    exact h.initializeCheckpoint position hPhase
  · rename_i hAt
    rw [hAt] at hPhase
    split at hStep
    · obtain rfl := Option.some.inj hStep
      exact h.beginRestore position process
    · split at hStep
      · obtain rfl := Option.some.inj hStep
        exact h.finish position process _
      · rename_i manifest hLoad
        obtain rfl := Option.some.inj hStep
        exact h.setPhase position process ⟨hPhase, load_eq_ok hLoad, trivial⟩
  · rename_i stage lost loaded hAt
    rw [hAt] at hPhase
    obtain rfl := Option.some.inj hStep
    exact h.advanceLoop position hPhase
  · rename_i stage lost loaded object next hAt
    rw [hAt] at hPhase
    split at hStep
    · obtain rfl := Option.some.inj hStep
      exact h.finish position process _
    · rename_i stored hCreate
      obtain rfl := Option.some.inj hStep
      obtain ⟨hStored, hManifests, -, hGrows, hThere⟩ := h.create hCreate
      obtain ⟨hGoal, hLoaded, hReady, hNext⟩ := hPhase
      refine hStored.setPhase position process ⟨hGoal, ?_, hReady.mono hGrows,
        hNext _ hGrows hThere⟩
      rw [hManifests]
      exact hLoaded
  · rename_i stage lost loaded next hAt
    rw [hAt] at hPhase
    obtain rfl := Option.some.inj hStep
    exact h.advanceSwap position wins hPhase
  · rename_i stage lost hAt
    rw [hAt] at hPhase
    split at hStep
    · obtain rfl := Option.some.inj hStep
      exact h.finish position process _
    · rename_i manifest hLoad
      obtain rfl := Option.some.inj hStep
      exact h.setPhase position process ⟨hPhase.1, load_eq_ok hLoad, hPhase.2⟩
  · rename_i loaded hAt
    rw [hAt] at hPhase
    split at hStep
    · rename_i anchor bytes hSnapshot
      obtain rfl := Option.some.inj hStep
      cases hCreate : w.create (checkpointSnapshotKey anchor) bytes with
      | none => exact h.setPhase position process hPhase
      | some stored =>
        obtain ⟨hStored, hManifests, -⟩ := h.create hCreate
        refine hStored.setPhase position process ⟨hPhase.1, ?_⟩
        rw [hManifests]
        exact hPhase.2
    · cases hStep
  · rename_i loaded hAt
    rw [hAt] at hPhase
    split at hStep
    · rename_i anchor bytes hSnapshot
      split at hStep
      · obtain rfl := Option.some.inj hStep
        exact h.finish position process _
      · rename_i found hFound
        obtain rfl := Option.some.inj hStep
        refine h.setPhase position process ⟨hPhase.1, hPhase.2, fun other content hOther => ?_⟩
        obtain ⟨rfl, rfl⟩ := Goal.snapshot.inj (hSnapshot.symm.trans hOther)
        exact ⟨found, downloadVerified_eq_ok hFound⟩
    · cases hStep
  · rename_i loaded pending hAt
    rw [hAt] at hPhase
    obtain ⟨hLoaded, hAccepted⟩ := hPhase
    split at hStep
    · obtain rfl := Option.some.inj hStep
      exact h.finish position process _
    · rename_i entries rest
      have hRest : (Phase.answering loaded rest).Sound log archive w.objects w.manifests
          process.goal :=
        ⟨hLoaded, fun flush hFlush => hAccepted flush (List.mem_cons_of_mem _ hFlush)⟩
      split at hStep
      · rename_i hNone
        obtain rfl := Option.some.inj hStep
        refine (h.setPhase position process hRest).answer hLoaded ?_
        exact (hAccepted entries List.mem_cons_self).covers (h.holds loaded hLoaded) hNone
      · obtain rfl := Option.some.inj hStep
        exact h.setPhase position process hRest
  · rename_i loaded snapshot hAt
    rw [hAt] at hPhase
    obtain ⟨hLoaded, hBase⟩ := hPhase
    split at hStep
    · obtain rfl := Option.some.inj hStep
      exact h.finish position process _
    · rename_i bytes hBytes
      obtain rfl := Option.some.inj hStep
      refine h.setPhase position process ⟨hLoaded, fun _ hRecord => hRecord, le_refl _,
        (h.holds loaded hLoaded).base_bounded, (log.between_self _).symm, ?_, ?_⟩
      · intro hGenesis
        cases hBase.symm.trans hGenesis
      · intro base hOther
        obtain rfl := CheckpointBase.snapshot.inj (hBase.symm.trans hOther)
        exact ⟨bytes, rfl, (downloadVerified_eq_ok hBytes).2⟩
  · rename_i loaded snapshot records tip restored hAt
    rw [hAt] at hPhase
    obtain ⟨hLoaded, hRestoring⟩ := hPhase
    split at hStep
    · obtain rfl := Option.some.inj hStep
      exact h.finishRestore position process hLoaded hRestoring
    · rename_i record records
      split at hStep
      · obtain rfl := Option.some.inj hStep
        exact h.finish position process _
      · rename_i entries next hSegment
        obtain rfl := Option.some.inj hStep
        exact h.setPhase position process
          ⟨hLoaded, hRestoring.segment (h.holds loaded hLoaded) hSegment⟩
  · cases hStep

end Calls

section Steps

theorem validatePublicationEntries_some {previous : LogEntry} {entries : List LogEntry}
    (h : archive.validatePublicationEntries (some previous) entries = .ok ()) {last : LogEntry}
    (hLast : (previous :: entries).getLast? = some last) :
    ∀ entry ∈ previous :: entries, entry.index ≤ last.index := by
  induction entries generalizing previous with
  | nil =>
    intro entry hEntry
    rw [List.mem_singleton.mp hEntry]
    exact le_of_eq (congrArg LogEntry.index (Option.some.inj hLast))
  | cons next entries ih =>
    simp only [ObjectArchiveStore.validatePublicationEntries, unit_bind_ok_iff, check_eq_ok] at h
    obtain ⟨-, -, hNext, -, h⟩ := h
    have hIndex : next.index = previous.index + 1 := by
      simp only [Option.all_some, decide_eq_true_eq] at hNext
      exact checkedSucc_eq_some hNext
    have hRest := ih h (by simpa using hLast)
    intro entry hEntry
    rcases List.mem_cons.mp hEntry with rfl | hEntry
    · have := hRest next List.mem_cons_self
      omega
    · exact hRest entry hEntry

theorem clusterId_of_validatePublicationEntries {previous : Option LogEntry}
    {entries : List LogEntry}
    (h : archive.validatePublicationEntries previous entries = .ok ()) :
    ∀ entry ∈ entries, entry.clusterId = archive.identity.clusterId := by
  induction entries generalizing previous with
  | nil => exact fun entry hEntry => by cases hEntry
  | cons first entries ih =>
    simp only [ObjectArchiveStore.validatePublicationEntries, unit_bind_ok_iff] at h
    obtain ⟨hIdentity, -, -, -, h⟩ := h
    simp only [validateEntryIdentity, unit_bind_ok_iff, check_eq_ok, decide_eq_true_eq] at hIdentity
    intro entry hEntry
    rcases List.mem_cons.mp hEntry with rfl | hEntry
    · exact hIdentity.1.symm
    · exact ih h entry hEntry

theorem accepted_of_validate {entries : List LogEntry}
    (h : archive.validatePublicationEntries none entries = .ok ())
    (hLog : ∀ entry ∈ entries, entry ∈ log.entries) : Accepted log archive entries where
  fromLog entry hEntry :=
    ⟨hLog entry hEntry, clusterId_of_validatePublicationEntries h entry hEntry⟩
  ordered last hLast := by
    cases entries with
    | nil => cases hLast
    | cons first entries =>
      simp only [ObjectArchiveStore.validatePublicationEntries, unit_bind_ok_iff] at h
      obtain ⟨-, -, -, -, h⟩ := h
      exact validatePublicationEntries_some h hLast

omit [Sha256] in
theorem mem_of_coalesce {coalesced entries merged : List LogEntry}
    (h : ObjectArchiveStore.coalesce coalesced entries = .ok merged) :
    ∀ entry ∈ merged, entry ∈ coalesced ∨ entry ∈ entries := by
  induction entries generalizing coalesced with
  | nil =>
    obtain rfl := Except.ok.inj h
    exact fun entry hEntry => .inl hEntry
  | cons first entries ih =>
    unfold ObjectArchiveStore.coalesce at h
    split at h
    · split at h
      · split at h
        · cases h
        · intro entry hEntry
          exact (ih h entry hEntry).imp_right (List.mem_cons_of_mem _)
      · intro entry hEntry
        rcases ih h entry hEntry with hOld | hNew
        · rcases List.mem_append.mp hOld with hOld | hFirst
          · exact .inl hOld
          · exact .inr (List.mem_singleton.mp hFirst ▸ List.mem_cons_self)
        · exact .inr (List.mem_cons_of_mem _ hNew)
    · intro entry hEntry
      rcases ih h entry hEntry with hFirst | hNew
      · exact .inr (List.mem_singleton.mp hFirst ▸ List.mem_cons_self)
      · exact .inr (List.mem_cons_of_mem _ hNew)

omit [Sha256] in
theorem mem_of_coalescePendingEntries {pending : List (List LogEntry)} {index : Nat}
    {merged : List LogEntry}
    (h : ObjectArchiveStore.coalescePendingEntries pending index = .ok merged) :
    ∀ entry ∈ merged, ∃ flush ∈ pending, entry ∈ flush := by
  intro entry hEntry
  rcases mem_of_coalesce h entry hEntry with hNone | hSome
  · cases hNone
  · have hSorted := (List.perm_insertionSort _ _).mem_iff.mp hSome
    exact List.mem_flatten.mp (List.mem_of_mem_filter hSorted)

theorem flushPhase_sound {pending : List (List LogEntry)} {loaded : CheckpointManifest}
    (hLoaded : loaded ∈ manifests) (hAccepted : ∀ flush ∈ pending, Accepted log archive flush) :
    (World.flushPhase pending loaded).2.Sound log archive objects manifests
      (World.flushPhase pending loaded).1 := by
  unfold World.flushPhase
  split
  · trivial
  · exact ⟨hLoaded, hAccepted⟩
  · rename_i entry entries hMerged
    refine ⟨⟨hAccepted, fun other hOther => ?_⟩, hLoaded, fun anchor bytes hGoal => ?_⟩
    · obtain ⟨flush, hFlush, hMem⟩ := mem_of_coalescePendingEntries hMerged other hOther
      exact (hAccepted flush hFlush).fromLog other hMem
    · cases hGoal

theorem World.Sound.step (h : w.Sound log archive) {event : Event} (hLog : event.FromLog log)
    {w' : World} (hStep : World.step archive w event = some w') : w'.Sound log archive := by
  cases event with
  | call goal =>
    obtain rfl := Option.some.inj hStep
    refine h.spawn ?_
    cases goal with
    | publish entries =>
      simp only [World.firstPhase]
      split
      · trivial
      · rename_i hValid
        exact accepted_of_validate hValid hLog
    | flush pending entries => trivial
    | «open» => trivial
    | snapshot anchor bytes => trivial
    | restore => trivial
  | openPublisher publisher =>
    obtain rfl := Option.some.inj hStep
    exact h.spawn trivial
  | flush publisher pending =>
    simp only [World.step] at hStep
    split at hStep
    · cases hStep
    · rename_i loaded hCached
      split at hStep
      · rename_i hPublishable
        obtain rfl := Option.some.inj hStep
        refine h.spawn (flushPhase_sound (h.publishers publisher loaded hCached) ?_)
        intro flush hFlush
        have hValid := List.all_eq_true.mp hPublishable flush hFlush
        simp only [decide_eq_true_eq] at hValid
        exact accepted_of_validate hValid.2 (hLog flush hFlush)
      · cases hStep
  | publisherSnapshot publisher anchor bytes =>
    simp only [World.step] at hStep
    split at hStep
    · cases hStep
    · rename_i loaded hCached
      split at hStep
      · cases hStep
      · obtain rfl := Option.some.inj hStep
        exact h.spawn ⟨trivial, h.publishers publisher loaded hCached⟩
  | reload publisher =>
    simp only [World.step] at hStep
    split at hStep
    · cases hStep
    · rename_i manifest hLoad
      obtain rfl := Option.some.inj hStep
      exact h.cache ⟨some publisher, .restore, .loading⟩ (load_eq_ok hLoad)
  | advance position wins =>
    simp only [World.step] at hStep
    split at hStep
    · cases hStep
    · rename_i process hProcess
      exact h.advance (List.mem_of_getElem? hProcess) wins hStep
  | crash position =>
    simp only [World.step] at hStep
    split at hStep
    · cases hStep
    · obtain rfl := Option.some.inj hStep
      exact h.finish position _ _

theorem World.sound_start {manifest : Option CheckpointManifest}
    (h : ∀ found, manifest = some found → Holds log archive objects found) :
    (World.start objects manifest).Sound log archive where
  holds found hMem := h found (Option.mem_toList.mp hMem)
  forward := by
    cases manifest with
    | none => exact List.Pairwise.nil
    | some found => exact List.pairwise_singleton _ _
  publishers publisher loaded hLoaded := by cases hLoaded
  processes process hMem := by cases hMem
  answers entries found hMem := by cases hMem
  restores restored found hMem := by cases hMem
  emptyRestores restored hMem := by cases hMem

end Steps

structure World.OneChain (log : CommittedLog) (archive : ObjectArchiveStore) (w : World) : Prop where
  valid : ∀ manifest, w.manifest? = some manifest →
    validateCheckpointManifest archive.identity manifest = .ok ()
  committed : ∀ manifest, w.manifest? = some manifest →
    manifest.base.tip.hash = log.hashAt manifest.base.tip.index ∧
      manifest.tip.hash = log.hashAt manifest.tip.index ∧
      manifest.tip.index ≤ log.entries.length
  forward : w.manifests.Pairwise fun newer older => Advances older newer
  segments : ∀ manifest, w.manifest? = some manifest → ∀ record ∈ manifest.segments,
    ∃ bytes, w.objects record.objectKey = some bytes ∧ bytes.length = record.sizeBytes ∧
      LogHash.digest [bytes] = record.sha256
  snapshot : ∀ manifest, w.manifest? = some manifest → ∀ snapshot,
    manifest.base = .snapshot snapshot → Present w.objects snapshot
  answers : ∀ entries manifest, (entries, manifest) ∈ w.answers →
    manifest ∈ w.manifests ∧ Covers archive w.objects manifest entries
  restores : ∀ restored manifest, (restored, some manifest) ∈ w.restores →
    manifest ∈ w.manifests ∧ restored.Of log manifest
  emptyRestores : ∀ restored, (restored, none) ∈ w.restores →
    restored = ⟨none, [], ⟨0, .zero⟩⟩

theorem World.Sound.oneChain (h : w.Sound log archive) : w.OneChain log archive where
  valid manifest hManifest := (h.holds manifest (List.mem_of_head? hManifest)).valid
  committed manifest hManifest := by
    have hHolds := h.holds manifest (List.mem_of_head? hManifest)
    exact ⟨hHolds.base_hash, hHolds.tip.2.2, hHolds.tip.2.1⟩
  forward := h.forward
  segments manifest hManifest record hRecord := by
    have hStored := (h.holds manifest (List.mem_of_head? hManifest)).segments record hRecord
    exact ⟨_, hStored.object, hStored.size_eq.symm, hStored.sha_eq.symm⟩
  snapshot manifest hManifest snapshot hBase :=
    (h.holds manifest (List.mem_of_head? hManifest)).snapshot snapshot hBase
  answers := h.answers
  restores := h.restores
  emptyRestores := h.emptyRestores

/-- Whatever calls are made, in whatever order their operations come and wherever they
stop, the archive stays one chain of the log from which publications come. -/
theorem World.archive_is_one_chain {manifest : Option CheckpointManifest}
    (hStart : ∀ found, manifest = some found → Holds log archive objects found)
    (h : Run (World.step archive) (fun _ event => event.FromLog log)
      (World.start objects manifest) w) : w.OneChain log archive :=
  (h.invariant (P := World.Sound log archive) (World.sound_start hStart)
    fun _ _ _ hSound hLog hStep => hSound.step hLog hStep).oneChain

end Interleaved

namespace Sample

attribute [local instance] Sha256.rolling

def identity : CheckpointIdentity := ⟨"c", 1, 1, 1⟩

def entryAt (index : Nat) (prevHash : LogHash) : LogEntry where
  clusterId := "c"
  epoch := 1
  configId := 1
  index := index
  entryType := .noop
  payload := []
  prevHash := prevHash
  hash := calculateHash "c" index 1 1 .noop prevHash []

def first : LogEntry := entryAt 1 .zero
def second : LogEntry := entryAt 2 first.hash

def log : CommittedLog where
  entries := [first, second]
  indexed i h := by
    match i, h with
    | 0, _ => rfl
    | 1, _ => rfl
  hashed entry h := by
    simp only [List.mem_cons, List.not_mem_nil, or_false] at h
    rcases h with rfl | rfl <;> rfl
  chained i h := by
    match i, h with
    | 0, _ => rfl

def encode (entries : List LogEntry) : Bytes :=
  if entries = [first] then [1] else if entries = [second] then [2] else []

def decode (bytes : Bytes) : Option (List LogEntry) :=
  if bytes = [1] then some [first] else if bytes = [2] then some [second] else none

theorem decode_encode {entries decoded : List LogEntry}
    (h : decode (encode entries) = some decoded) : decoded = entries := by
  unfold encode at h
  split at h
  · rename_i hFirst
    exact (Option.some.inj h).symm.trans hFirst.symm
  · split at h
    · rename_i hSecond
      exact (Option.some.inj h).symm.trans hSecond.symm
    · cases h

def archive : ObjectArchiveStore :=
  ⟨identity, encode, fun _ => decode, fun _ _ _ _ h => decode_encode h⟩

def anchor : RecoveryAnchor :=
  ⟨2, "c", 1, 1, .active 1 .zero, 1, ⟨1, first.hash⟩, LogHash.digest [[7]], 1, none⟩

def advance (position times : Nat) : List Event :=
  List.replicate times (.advance position true)

/-- Two publications and a snapshot between them, with a restore that loads the manifest
before the second publication is swapped in. -/
def events : List Event :=
  [.call (.publish [first])] ++ advance 0 5 ++ [.call (.snapshot anchor [7])] ++ advance 1 7 ++
    [.call (.publish [second])] ++ advance 2 5 ++ [.call .restore] ++ advance 3 1 ++ advance 2 1 ++
    advance 3 2

theorem fromLog_events : ∀ event ∈ events, event.FromLog log := by
  have hAdvance : ∀ position times, ∀ event ∈ advance position times, event.FromLog log := by
    intro position times event hEvent
    rw [List.eq_of_mem_replicate hEvent]
    trivial
  have hPublish : ∀ entry ∈ [first, second], Event.FromLog log (.call (.publish [entry])) := by
    intro entry hEntry published hPublished
    rw [List.mem_singleton.mp hPublished]
    exact hEntry
  intro event hEvent
  simp only [events, List.mem_append, List.mem_singleton] at hEvent
  obtain (((((((((rfl | hEvent) | rfl) | hEvent) | rfl) | hEvent) | rfl) | hEvent) | hEvent) |
    hEvent) := hEvent
  · exact hPublish first List.mem_cons_self
  · exact hAdvance _ _ _ hEvent
  · trivial
  · exact hAdvance _ _ _ hEvent
  · exact hPublish second (List.mem_cons_of_mem _ List.mem_cons_self)
  · exact hAdvance _ _ _ hEvent
  · trivial
  · exact hAdvance _ _ _ hEvent
  · exact hAdvance _ _ _ hEvent
  · exact hAdvance _ _ _ hEvent

theorem sample_is_one_chain : ∃ w : World,
    Run (World.step archive) (fun _ event => event.FromLog log)
      (World.start (fun _ => none) none) w ∧
    w.answers.length = 2 ∧ w.manifests.length = 4 ∧
    w.restores.map (fun restored => (restored.1.snapshot.isSome, restored.1.suffix)) =
      [(true, [])] ∧ w.OneChain log archive := by
  have hEnd : (execute (World.step archive) (World.start (fun _ => none) none) events).any
      fun w => decide (w.answers.length = 2 ∧ w.manifests.length = 4 ∧
        w.restores.map (fun restored => (restored.1.snapshot.isSome, restored.1.suffix)) =
          [(true, [])]) := by
    decide +kernel
  obtain ⟨w, hw, hEnd⟩ := (Option.any_eq_true _ _).mp hEnd
  obtain ⟨hAnswers, hManifests, hRestores⟩ := of_decide_eq_true hEnd
  have hRun := Run.of_execute (fun event hEvent _ => fromLog_events event hEvent) hw
  refine ⟨w, hRun, hAnswers, hManifests, hRestores, World.archive_is_one_chain ?_ hRun⟩
  intro found hFound
  cases hFound

end Sample

end Rhiza.Archive
