import Rhiza.Archive.Publish

/-! # Flushes that succeed

A publisher merges what its callers publish and swaps it in. If the base of no manifest
that a flush meets is beyond its entries, then the flush succeeds and every caller is
answered.
-/

namespace Rhiza.Archive

open Core Library

section Flush

variable [Sha256] (log : CommittedLog) (archive : ObjectArchiveStore)

def Faithful (objects : Objects) : Prop :=
  ∀ a b bytes, objects (.segment a b) = some bytes →
    bytes = archive.codec.encode (log.between (a - 1) b)

def Within (pending : List (List LogEntry)) (n : Nat) : Prop :=
  ∀ flush ∈ pending, ∃ a b, IsRange log flush a b ∧ b ≤ n

def Goal.OnFlush (goal : Goal) (P : List (List LogEntry) → List LogEntry → Prop) : Prop :=
  ∀ pending entries, goal = .flush pending entries → P pending entries

def Merged (pending : List (List LogEntry)) (entries : List LogEntry) (start : Nat) : Prop :=
  ∃ a b, IsRange log entries a b ∧ a ≤ start ∧ Within log pending b

def Phase.Fit (manifests : List CheckpointManifest) (goal : Goal) : Phase → Prop
  | .planning stage _ loaded => goal.OnFlush fun pending entries =>
      stage = .main ∧ Merged log pending entries loaded.tip.index
  | .storing stage _ loaded object next =>
    (∃ a b, object = (.segment (a + 1) b, archive.codec.encode (log.between a b))) ∧
      goal.OnFlush fun pending entries =>
        stage = .main ∧ Merged log pending entries loaded.tip.index ∧
          Within log pending next.tip.index
  | .swapping stage _ loaded next => goal.OnFlush fun pending entries =>
      stage = .main ∧ Merged log pending entries loaded.tip.index ∧
        Within log pending next.tip.index
  | .reloading stage _ => goal.OnFlush fun pending entries =>
      stage = .main ∧ ∃ old ∈ manifests, Merged log pending entries old.tip.index
  | .answering loaded pending => Within log pending loaded.tip.index
  | .finished (.ok _) => True
  | _ => goal.OnFlush fun _ _ => False

structure World.Fit (w : World) : Prop where
  faithful : Faithful log archive w.objects
  processes : ∀ process ∈ w.processes, process.phase.Fit log archive w.manifests process.goal

def World.Smooth (w : World) : Event → Prop
  | .advance place _ => ∀ process, w.processes[place]? = some process →
    (∀ stage lost loaded pending entries, process.phase = .planning stage lost loaded →
      process.goal = .flush pending entries → lost < maxCheckpointCasAttempts ∧
        ∀ last, entries.getLast? = some last → loaded.base.tip.index ≤ last.index) ∧
    ∀ loaded entries rest, process.phase = .answering loaded (entries :: rest) →
      ∀ last, entries.getLast? = some last → loaded.base.tip.index ≤ last.index
  | .flush publisher pending => ∀ loaded, w.publishers publisher = some loaded →
      ∀ entries ∈ pending, ∀ first, entries.head? = some first →
        first.index ≤ loaded.tip.index + 1
  | .crash place => ∀ process, w.processes[place]? = some process →
      process.goal.OnFlush fun _ _ => False
  | _ => True

variable {log archive} {w : World} {objects : Objects} {manifests manifests' : List CheckpointManifest}
  {goal : Goal}

omit [Sha256] in
theorem Goal.OnFlush.vacuous (h : goal.OnFlush fun _ _ => False)
    (P : List (List LogEntry) → List LogEntry → Prop) : goal.OnFlush P :=
  fun pending entries hGoal => (h pending entries hGoal).elim

theorem Within.mono {pending : List (List LogEntry)} {m n : Nat} (h : Within log pending m)
    (hmn : m ≤ n) : Within log pending n := by
  intro flush hFlush
  obtain ⟨a, b, hRange, hb⟩ := h flush hFlush
  exact ⟨a, b, hRange, hb.trans hmn⟩

theorem Merged.mono {pending : List (List LogEntry)} {entries : List LogEntry} {m n : Nat}
    (h : Merged log pending entries m) (hmn : m ≤ n) : Merged log pending entries n := by
  obtain ⟨a, b, hRange, ha, hWithin⟩ := h
  exact ⟨a, b, hRange, ha.trans hmn, hWithin⟩

theorem Phase.Fit.mono {phase : Phase} (h : phase.Fit log archive manifests goal)
    (hMore : manifests ⊆ manifests') : phase.Fit log archive manifests' goal := by
  cases phase with
  | reloading stage lost =>
    intro pending entries hGoal
    obtain ⟨hStage, old, hOld, hMerged⟩ := h pending entries hGoal
    exact ⟨hStage, old, hMore hOld, hMerged⟩
  | finished result => cases result <;> exact h
  | _ => exact h

theorem World.Fit.setPhase (h : w.Fit log archive) (position : Nat) (process : Process)
    {phase : Phase} (hPhase : phase.Fit log archive w.manifests process.goal) :
    (w.setPhase position process phase).Fit log archive where
  faithful := h.faithful
  processes other hMem := by
    rcases List.mem_or_eq_of_mem_set hMem with hMem | rfl
    · exact h.processes other hMem
    · exact hPhase

theorem World.Fit.cache (h : w.Fit log archive) (process : Process) (loaded : CheckpointManifest) :
    (w.cache process loaded).Fit log archive := by
  unfold World.cache
  split
  · exact h
  · exact ⟨h.faithful, h.processes⟩

theorem World.Fit.leaveLoop (h : w.Fit log archive) (position : Nat) (process : Process)
    (loaded : CheckpointManifest) (stage : Stage)
    (hFlush : process.goal.OnFlush fun pending _ =>
      stage = .main ∧ Within log pending loaded.tip.index) :
    (World.leaveLoop archive w position process loaded stage).Fit log archive := by
  have hFinish : (w.setPhase position process (.finished (.ok ()))).Fit log archive :=
    h.setPhase position process trivial
  cases stage with
  | migration =>
    have hNone : process.goal.OnFlush fun _ _ => False := by
      intro pending entries hGoal
      cases (hFlush pending entries hGoal).1
    unfold World.leaveLoop
    simp only
    split
    · exact ⟨hFinish.faithful, hFinish.processes⟩
    · exact h.setPhase position process (hNone.vacuous _)
    · split
      · exact h.setPhase position process hNone
      · exact h.setPhase position process hNone
    · exact hFinish.cache process loaded
  | main =>
    unfold World.leaveLoop
    simp only
    split
    · exact ⟨hFinish.faithful, hFinish.processes⟩
    · rename_i pending entries hGoal
      have hAnswering : (w.setPhase position process (.answering loaded pending)).Fit log archive :=
        h.setPhase position process (hFlush pending entries hGoal).2
      exact hAnswering.cache process loaded
    · exact hFinish.cache process loaded

theorem planPublication_segment {entries : List LogEntry} {loaded : CheckpointManifest}
    {change : ObjectArchiveStore.Change}
    (hPlan : archive.planPublication objects entries loaded = .ok (some change))
    (hLog : FromLog log archive entries) :
    ∃ a b, change.object = some (.segment (a + 1) b, archive.codec.encode (log.between a b)) := by
  obtain ⟨start, record, hPlanned⟩ := planPublication_planned hPlan hLog
  obtain rfl := hPlanned.change_eq
  obtain ⟨first, last, hFirst, hLast, rfl⟩ := checkpointSegmentRecord_eq_ok hPlanned.recorded
  have hSpans := spans_of_validateDecoded hPlanned.validated
    (fun entry hEntry => (hPlanned.fromLog entry hEntry).1) hFirst hLast
  refine ⟨loaded.tip.index, last.index, ?_⟩
  simp only [hSpans.first_index]
  rw [← hSpans.range]

theorem plan_segment {stage : Stage} {loaded : CheckpointManifest}
    {change : ObjectArchiveStore.Change} {object : ObjectKey × Bytes}
    (hPlan : World.plan archive objects goal stage loaded = .ok (some change))
    (hObject : change.object = some object) (hGoal : goal.Sound log archive) :
    ∃ a b, object = (.segment (a + 1) b, archive.codec.encode (log.between a b)) := by
  have hPublished : ∀ entries, FromLog log archive entries →
      archive.planPublication objects entries loaded = .ok (some change) →
      ∃ a b, object = (.segment (a + 1) b, archive.codec.encode (log.between a b)) := by
    intro entries hLog hPlan
    obtain ⟨a, b, hSegment⟩ := planPublication_segment hPlan hLog
    exact ⟨a, b, Option.some.inj (hObject.symm.trans hSegment)⟩
  cases stage with
  | migration =>
    obtain rfl := (planMigration_eq_ok hPlan).2
    cases hObject
  | main =>
    cases goal with
    | publish entries => exact hPublished entries hGoal.fromLog hPlan
    | flush pending entries => exact hPublished entries hGoal.2 hPlan
    | snapshot anchor bytes =>
      obtain ⟨-, -, -, rfl⟩ := planSnapshot_eq_ok hPlan
      cases hObject
    | «open» => cases Except.ok.inj hPlan
    | restore => cases Except.ok.inj hPlan

theorem World.Fit.advanceLoop (h : w.Fit log archive) (hSound : w.Sound log archive)
    (hLegible : w.Legible log archive) (hEncodable : Encodable log archive) (position : Nat)
    {process : Process} {stage : Stage} {lost : Nat} {loaded : CheckpointManifest}
    (hGoal : process.goal.Sound log archive) (hLoaded : loaded ∈ w.manifests)
    (hFit : (Phase.planning stage lost loaded).Fit log archive w.manifests process.goal)
    (hSmooth : ∀ pending entries, process.goal = .flush pending entries →
      lost < maxCheckpointCasAttempts ∧
        ∀ last, entries.getLast? = some last → loaded.base.tip.index ≤ last.index) :
    (World.advanceLoop archive w position process stage lost loaded).Fit log archive := by
  by_cases hFlush : ∃ pending entries, process.goal = .flush pending entries
  · obtain ⟨pending, entries, hFlush⟩ := hFlush
    obtain ⟨rfl, a, b, hRange, hGap, hWithin⟩ := hFit pending entries hFlush
    obtain ⟨hLost, hBase⟩ := hSmooth pending entries hFlush
    obtain ⟨last, hLast, hIndex, -⟩ := hRange.last
    have hNotBeyond := hBase last hLast
    rw [hIndex] at hNotBeyond
    have hHolds := hSound.holds loaded hLoaded
    have hRead := hLegible.manifests loaded hLoaded
    unfold World.advanceLoop
    rw [if_neg (not_le.mpr hLost)]
    rcases Nat.lt_or_ge loaded.tip.index b with hBeyond | hCovered
    · have hPlan := hEncodable.planPublication_beyond hHolds hRead hRange hBeyond hGap
      simp only [World.plan, hFlush, hPlan]
      refine h.setPhase position process ⟨⟨_, _, rfl⟩, fun pending' entries' hSame => ?_⟩
      obtain ⟨rfl, rfl⟩ := Goal.flush.inj (hFlush.symm.trans hSame)
      exact ⟨rfl, ⟨a, b, hRange, hGap, hWithin⟩, hWithin⟩
    · have hStart := (publicationSuffixStart_covered hHolds hRead hRange hCovered).mpr hNotBeyond
      have hPlan : archive.planPublication w.objects entries loaded = .ok none :=
        bind_ok_iff.mpr ⟨none, hStart, rfl⟩
      simp only [World.plan, hFlush, hPlan]
      refine h.leaveLoop position process loaded .main fun pending' entries' hSame => ?_
      obtain ⟨rfl, rfl⟩ := Goal.flush.inj (hFlush.symm.trans hSame)
      exact ⟨rfl, hWithin.mono hCovered⟩
  · have hNone : process.goal.OnFlush fun _ _ => False :=
      fun pending entries hSame => hFlush ⟨pending, entries, hSame⟩
    unfold World.advanceLoop
    split
    · exact h.setPhase position process hNone
    · split
      · exact h.setPhase position process hNone
      · exact h.leaveLoop position process loaded stage (hNone.vacuous _)
      · rename_i object next hPlan
        exact h.setPhase position process ⟨plan_segment hPlan rfl hGoal, hNone.vacuous _⟩
      · exact h.setPhase position process (hNone.vacuous _)

theorem World.Fit.advanceSwap (h : w.Fit log archive) (position : Nat) {process : Process}
    {stage : Stage} {lost : Nat} {loaded next : CheckpointManifest} (wins : Bool)
    (hLoaded : loaded ∈ w.manifests)
    (hFit : (Phase.swapping stage lost loaded next).Fit log archive w.manifests process.goal) :
    (World.advanceSwap archive w position process stage lost loaded next wins).Fit log
      archive := by
  unfold World.advanceSwap
  split
  · have hSwapped : World.Fit log archive { w with manifests := next :: w.manifests } :=
      ⟨h.faithful, fun other hMem => (h.processes other hMem).mono (List.subset_cons_self _ _)⟩
    refine hSwapped.leaveLoop position process next stage fun pending entries hGoal => ?_
    obtain ⟨hStage, -, hWithin⟩ := hFit pending entries hGoal
    exact ⟨hStage, hWithin⟩
  · refine h.setPhase position process fun pending entries hGoal => ?_
    obtain ⟨hStage, hMerged, -⟩ := hFit pending entries hGoal
    exact ⟨hStage, loaded, hLoaded, hMerged⟩

theorem Faithful.create (h : Faithful log archive w.objects) {a b : Nat} :
    ∃ stored, w.create (.segment (a + 1) b) (archive.codec.encode (log.between a b)) =
      some stored := by
  unfold World.create
  split
  · exact ⟨_, rfl⟩
  · rename_i existing hExisting
    have hSame := h (a + 1) b existing hExisting
    rw [Nat.add_sub_cancel] at hSame
    rw [if_pos hSame]
    exact ⟨w, rfl⟩

theorem World.Fit.create (h : w.Fit log archive) {key : ObjectKey} {bytes : Bytes}
    {stored : World} (hCreate : w.create key bytes = some stored)
    (hKey : ∀ a b, key = .segment a b → bytes = archive.codec.encode (log.between (a - 1) b)) :
    stored.Fit log archive ∧ stored.manifests = w.manifests := by
  unfold World.create at hCreate
  split at hCreate
  · obtain rfl := Option.some.inj hCreate
    refine ⟨⟨fun a b found hFound => ?_, h.processes⟩, rfl⟩
    simp only at hFound
    by_cases hSame : ObjectKey.segment a b = key
    · rw [hSame, Function.update_self] at hFound
      rw [← Option.some.inj hFound]
      exact hKey a b hSame.symm
    · rw [Function.update_of_ne hSame] at hFound
      exact h.faithful a b found hFound
  · split at hCreate
    · obtain rfl := Option.some.inj hCreate
      exact ⟨h, rfl⟩
    · cases hCreate

theorem load_newest (hSound : w.Sound log archive) {old : CheckpointManifest}
    (hOld : old ∈ w.manifests) :
    ∃ current, World.load archive w = .ok current ∧ old.tip.index ≤ current.tip.index := by
  unfold World.load
  cases hCurrent : w.manifest? with
  | none =>
    rw [List.head?_eq_none_iff.mp hCurrent] at hOld
    cases hOld
  | some current =>
    obtain ⟨rest, hRest⟩ := List.head?_eq_some_iff.mp hCurrent
    have hForward := hSound.forward
    have hValid := (hSound.holds current (List.mem_of_head? hCurrent)).valid
    rw [hRest] at hForward hOld
    refine ⟨current, unit_bind_ok_iff.mpr ⟨hValid, rfl⟩, ?_⟩
    rcases List.mem_cons.mp hOld with rfl | hOld
    · exact le_refl _
    · exact ((List.pairwise_cons.mp hForward).1 old hOld).tip_le

theorem World.Fit.beginRestore (h : w.Fit log archive) (position : Nat) {process : Process}
    (hNone : process.goal.OnFlush fun _ _ => False) :
    (World.beginRestore archive w position process).Fit log archive := by
  unfold World.beginRestore
  split
  · have hFinish : (w.setPhase position process (.finished (.ok ()))).Fit log archive :=
      h.setPhase position process trivial
    exact ⟨hFinish.faithful, hFinish.processes⟩
  · split
    · exact h.setPhase position process hNone
    · split
      · exact h.setPhase position process hNone
      · exact h.setPhase position process hNone

theorem World.Fit.initializeCheckpoint (h : w.Fit log archive) (position : Nat)
    {process : Process} (hNone : process.goal.OnFlush fun _ _ => False) :
    (World.initializeCheckpoint archive w position process).Fit log archive := by
  unfold World.initializeCheckpoint
  simp only
  split
  · rename_i hAbsent
    have hNew : World.Fit log archive { w with
        manifests := [CheckpointManifest.new archive.identity] } := by
      refine ⟨h.faithful, fun other hMem => (h.processes other hMem).mono ?_⟩
      rw [List.head?_eq_none_iff.mp hAbsent]
      exact List.nil_subset _
    exact hNew.setPhase position process (hNone.vacuous _)
  · split
    · exact h.setPhase position process (hNone.vacuous _)
    · exact h.setPhase position process hNone

theorem World.Fit.advance (h : w.Fit log archive) (hSound : w.Sound log archive)
    (hLegible : w.Legible log archive) (hEncodable : Encodable log archive) {position : Nat}
    {process : Process} (hAt : w.processes[position]? = some process) (wins : Bool)
    (hSmooth : w.Smooth (.advance position wins)) {w' : World}
    (hStep : World.advance archive w position process wins = some w') : w'.Fit log archive := by
  have hMem := List.mem_of_getElem? hAt
  have hPhase := hSound.processes process hMem
  have hFit := h.processes process hMem
  obtain ⟨hLoop, -⟩ := hSmooth process hAt
  unfold World.advance at hStep
  split at hStep
  · rename_i hHere
    rw [hHere] at hFit
    obtain rfl := Option.some.inj hStep
    exact h.initializeCheckpoint position hFit
  · rename_i hHere
    rw [hHere] at hFit
    split at hStep
    · obtain rfl := Option.some.inj hStep
      exact h.beginRestore position hFit
    · split at hStep
      · obtain rfl := Option.some.inj hStep
        exact h.setPhase position process hFit
      · obtain rfl := Option.some.inj hStep
        exact h.setPhase position process (hFit.vacuous _)
  · rename_i stage lost loaded hHere
    rw [hHere] at hPhase hFit
    obtain rfl := Option.some.inj hStep
    exact h.advanceLoop hSound hLegible hEncodable position hPhase.1 hPhase.2.1 hFit
      fun pending entries hGoal => hLoop stage lost loaded pending entries hHere hGoal
  · rename_i stage lost loaded object next hHere
    rw [hHere] at hFit
    obtain ⟨⟨a, b, rfl⟩, hFlush⟩ := hFit
    obtain ⟨stored, hCreate⟩ := h.faithful.create (a := a) (b := b)
    rw [hCreate] at hStep
    obtain rfl := Option.some.inj hStep
    have hKey : ∀ a' b', ObjectKey.segment (a + 1) b = .segment a' b' →
        archive.codec.encode (log.between a b) =
          archive.codec.encode (log.between (a' - 1) b') := by
      intro a' b' hSame
      obtain ⟨rfl, rfl⟩ := ObjectKey.segment.inj hSame
      rw [Nat.add_sub_cancel]
    obtain ⟨hStored, -⟩ := h.create hCreate hKey
    exact hStored.setPhase position process hFlush
  · rename_i stage lost loaded next hHere
    rw [hHere] at hPhase hFit
    obtain rfl := Option.some.inj hStep
    exact h.advanceSwap position wins hPhase.2.1 hFit
  · rename_i stage lost hHere
    rw [hHere] at hFit
    split at hStep
    · rename_i error hError
      obtain rfl := Option.some.inj hStep
      refine h.setPhase position process fun pending entries hGoal => ?_
      obtain ⟨-, old, hOld, -⟩ := hFit pending entries hGoal
      obtain ⟨current, hCurrent, -⟩ := load_newest hSound hOld
      cases hError.symm.trans hCurrent
    · rename_i manifest hLoad
      obtain rfl := Option.some.inj hStep
      refine h.setPhase position process fun pending entries hGoal => ?_
      obtain ⟨hStage, old, hOld, hMerged⟩ := hFit pending entries hGoal
      obtain ⟨current, hCurrent, hNewer⟩ := load_newest hSound hOld
      obtain rfl := Except.ok.inj (hCurrent.symm.trans hLoad)
      exact ⟨hStage, hMerged.mono hNewer⟩
  · rename_i loaded hHere
    rw [hHere] at hFit
    split at hStep
    · rename_i anchor bytes hSnapshot
      obtain rfl := Option.some.inj hStep
      cases hCreate : w.create (checkpointSnapshotKey anchor) bytes with
      | none => exact h.setPhase position process hFit
      | some stored =>
        obtain ⟨hStored, -⟩ := h.create hCreate fun a b hSame => by
          unfold checkpointSnapshotKey at hSame
          cases hSame
        exact hStored.setPhase position process hFit
    · cases hStep
  · rename_i loaded hHere
    rw [hHere] at hFit
    split at hStep
    · split at hStep
      · obtain rfl := Option.some.inj hStep
        exact h.setPhase position process hFit
      · obtain rfl := Option.some.inj hStep
        exact h.setPhase position process (hFit.vacuous _)
    · cases hStep
  · rename_i loaded pending hHere
    rw [hHere] at hFit
    split at hStep
    · obtain rfl := Option.some.inj hStep
      exact h.setPhase position process trivial
    · rename_i entries rest
      have hRest : (w.setPhase position process (.answering loaded rest)).Fit log archive :=
        h.setPhase position process fun flush hFlush => hFit flush (List.mem_cons_of_mem _ hFlush)
      split at hStep
      · obtain rfl := Option.some.inj hStep
        exact ⟨hRest.faithful, hRest.processes⟩
      · obtain rfl := Option.some.inj hStep
        exact hRest
  · rename_i loaded snapshot hHere
    rw [hHere] at hFit
    split at hStep
    · obtain rfl := Option.some.inj hStep
      exact h.setPhase position process hFit
    · obtain rfl := Option.some.inj hStep
      exact h.setPhase position process hFit
  · rename_i loaded snapshot records tip restored hHere
    rw [hHere] at hFit
    split at hStep
    · obtain rfl := Option.some.inj hStep
      unfold World.finishRestore
      split
      · have hFinish : (w.setPhase position process (.finished (.ok ()))).Fit log archive :=
          h.setPhase position process trivial
        exact ⟨hFinish.faithful, hFinish.processes⟩
      · exact h.setPhase position process hFit
    · split at hStep
      · obtain rfl := Option.some.inj hStep
        exact h.setPhase position process hFit
      · obtain rfl := Option.some.inj hStep
        exact h.setPhase position process hFit
  · cases hStep

theorem range_of_validate_some {previous : LogEntry} {entries : List LogEntry}
    (h : archive.validatePublicationEntries (some previous) entries = .ok ())
    (hPrevious : previous ∈ log.entries) (hLog : ∀ entry ∈ entries, entry ∈ log.entries) :
    previous :: entries =
        log.between (previous.index - 1) (previous.index + entries.length) ∧
      previous.index + entries.length ≤ log.entries.length := by
  obtain ⟨i, hi, hGet⟩ := CommittedLog.getElem?_of_mem hPrevious
  have hLess := (List.getElem?_eq_some_iff.mp hGet).1
  have hStart : previous.index - 1 = i := by omega
  induction entries generalizing previous i with
  | nil =>
    rw [hStart, hi, List.length_nil, Nat.add_zero, CommittedLog.between_succ hGet]
    exact ⟨rfl, hLess⟩
  | cons next entries ih =>
    simp only [ObjectArchiveStore.validatePublicationEntries, unit_bind_ok_iff, check_eq_ok] at h
    obtain ⟨-, -, hNext, -, h⟩ := h
    simp only [Option.all_some, decide_eq_true_eq] at hNext
    have hIndex := checkedSucc_eq_some hNext
    have hMem := hLog next List.mem_cons_self
    obtain ⟨j, hj, hNextGet⟩ := CommittedLog.getElem?_of_mem hMem
    obtain ⟨hRest, hBound⟩ := ih h hMem (fun e he => hLog e (List.mem_cons_of_mem _ he)) j hj
      hNextGet (List.getElem?_eq_some_iff.mp hNextGet).1 (by omega)
    rw [List.length_cons]
    refine ⟨?_, by omega⟩
    rw [hRest, hStart, show next.index - 1 = i + 1 by omega,
      show next.index + entries.length = previous.index + (entries.length + 1) by omega,
      ← CommittedLog.between_append (Nat.le_succ i) (by omega) hLess,
      CommittedLog.between_succ hGet]
    rfl

theorem range_of_validate {entries : List LogEntry}
    (h : archive.validatePublicationEntries none entries = .ok ()) (hNonempty : entries ≠ [])
    (hLog : ∀ entry ∈ entries, entry ∈ log.entries) : ∃ a b, IsRange log entries a b := by
  cases entries with
  | nil => exact absurd rfl hNonempty
  | cons first entries =>
    simp only [ObjectArchiveStore.validatePublicationEntries, unit_bind_ok_iff] at h
    obtain ⟨-, -, -, -, h⟩ := h
    have hFirst := hLog first List.mem_cons_self
    have hPositive := CommittedLog.index_le_of_mem hFirst
    obtain ⟨hRange, hBound⟩ := range_of_validate_some h hFirst
      fun e he => hLog e (List.mem_cons_of_mem _ he)
    exact ⟨_, _, hRange, by omega, hBound⟩

theorem World.Fit.spawn (h : w.Fit log archive) {process : Process}
    (hPhase : process.phase.Fit log archive w.manifests process.goal) :
    (w.spawn process).Fit log archive where
  faithful := h.faithful
  processes other hMem := by
    rcases List.mem_append.mp hMem with hMem | hMem
    · exact h.processes other hMem
    · rw [List.mem_singleton.mp hMem]
      exact hPhase

theorem flushPhase_fit {pending : List (List LogEntry)} {loaded : CheckpointManifest}
    (hTip : loaded.tip.index ≤ log.entries.length)
    (hPending : ∀ flush ∈ pending, ∃ a b, IsRange log flush a b ∧ a ≤ loaded.tip.index) :
    (World.flushPhase pending loaded).2.Fit log archive manifests
      (World.flushPhase pending loaded).1 := by
  obtain ⟨last, hLast, hLength, hMerged, hAll⟩ := coalescePendingEntries_eq hTip hPending
  have hWithin : Within log pending last := by
    intro flush hFlush
    obtain ⟨a, b, hRange, -⟩ := hPending flush hFlush
    obtain ⟨final, hFinal, hIndex, -⟩ := hRange.last
    have := hAll flush hFlush final (List.mem_of_getLast? hFinal)
    exact ⟨a, b, hRange, by omega⟩
  unfold World.flushPhase
  rw [hMerged]
  have hCount := CommittedLog.length_between (a := loaded.tip.index) hLength
  split
  · rename_i hError
    cases hError
  · rename_i hNil
    rw [Except.ok.inj hNil, List.length_nil] at hCount
    exact hWithin.mono (by omega)
  · rename_i entry entries hCons
    have hEntries := Except.ok.inj hCons
    rw [hEntries, List.length_cons] at hCount
    intro pending' entries' hGoal
    obtain ⟨rfl, rfl⟩ := Goal.flush.inj hGoal
    exact ⟨rfl, loaded.tip.index, last, ⟨hEntries.symm, by omega, hLength⟩, le_refl _, hWithin⟩

theorem World.Fit.step (h : w.Fit log archive) (hSound : w.Sound log archive)
    (hLegible : w.Legible log archive) (hEncodable : Encodable log archive) {event : Event}
    (hLog : event.FromLog log) (hSmooth : w.Smooth event) {w' : World}
    (hStep : World.step archive w event = some w') : w'.Fit log archive := by
  have hOther : ∀ {goal : Goal}, (∀ pending entries, goal ≠ .flush pending entries) →
      goal.OnFlush fun _ _ => False := fun hGoal pending entries hSame =>
    hGoal pending entries hSame
  cases event with
  | call goal =>
    obtain rfl := Option.some.inj hStep
    refine h.spawn ?_
    cases goal with
    | publish entries =>
      simp only [World.firstPhase]
      split
      · exact hOther fun _ _ hSame => by cases hSame
      · exact hOther fun _ _ hSame => by cases hSame
    | flush pending entries => trivial
    | «open» => exact hOther fun _ _ hSame => by cases hSame
    | snapshot anchor bytes => exact hOther fun _ _ hSame => by cases hSame
    | restore => exact hOther fun _ _ hSame => by cases hSame
  | openPublisher publisher =>
    obtain rfl := Option.some.inj hStep
    refine h.spawn ?_
    exact hOther fun _ _ hSame => by cases hSame
  | flush publisher pending =>
    simp only [World.step] at hStep
    split at hStep
    · cases hStep
    · rename_i loaded hCached
      split at hStep
      · rename_i hPublishable
        obtain rfl := Option.some.inj hStep
        have hMem := hSound.publishers publisher loaded hCached
        refine h.spawn (flushPhase_fit (hSound.holds loaded hMem).tip.2.1 fun flush hFlush => ?_)
        have hValid := List.all_eq_true.mp hPublishable flush hFlush
        simp only [decide_eq_true_eq] at hValid
        have hNonempty : flush ≠ [] := by simpa using hValid.1
        obtain ⟨a, b, hRange⟩ := range_of_validate hValid.2 hNonempty (hLog flush hFlush)
        obtain ⟨first, hFirst, hIndex, -⟩ := hRange.first
        have := hSmooth loaded hCached flush hFlush first hFirst
        exact ⟨a, b, hRange, by omega⟩
      · cases hStep
  | publisherSnapshot publisher anchor bytes =>
    simp only [World.step] at hStep
    split at hStep
    · cases hStep
    · split at hStep
      · cases hStep
      · obtain rfl := Option.some.inj hStep
        refine h.spawn ?_
        exact hOther fun _ _ hSame => by cases hSame
  | reload publisher =>
    simp only [World.step] at hStep
    split at hStep
    · cases hStep
    · obtain rfl := Option.some.inj hStep
      exact ⟨h.faithful, h.processes⟩
  | advance position wins =>
    simp only [World.step] at hStep
    split at hStep
    · cases hStep
    · rename_i process hProcess
      exact h.advance hSound hLegible hEncodable hProcess wins hSmooth hStep
  | crash position =>
    simp only [World.step] at hStep
    split at hStep
    · cases hStep
    · rename_i process hProcess
      obtain rfl := Option.some.inj hStep
      exact h.setPhase position process (hSmooth process hProcess)

theorem publicationSuffixStart_answered (h : w.Fit log archive) (hSound : w.Sound log archive)
    (hLegible : w.Legible log archive) {place : Nat} {process : Process}
    (hAt : w.processes[place]? = some process) {wins : Bool}
    (hSmooth : w.Smooth (.advance place wins)) {loaded : CheckpointManifest}
    {entries : List LogEntry} {rest : List (List LogEntry)}
    (hPhase : process.phase = .answering loaded (entries :: rest)) :
    archive.publicationSuffixStart w.objects loaded entries = .ok none ∧
      loaded ∈ w.manifests := by
  have hMem := List.mem_of_getElem? hAt
  have hStands := hSound.processes process hMem
  have hFit := h.processes process hMem
  rw [hPhase] at hStands hFit
  obtain ⟨hLoaded, -⟩ := hStands
  obtain ⟨a, b, hRange, hTip⟩ := hFit entries List.mem_cons_self
  obtain ⟨last, hLast, hIndex, -⟩ := hRange.last
  have hBase := (hSmooth process hAt).2 loaded entries rest hPhase last hLast
  rw [hIndex] at hBase
  exact ⟨(publicationSuffixStart_covered (hSound.holds loaded hLoaded)
    (hLegible.manifests loaded hLoaded) hRange hTip).mpr hBase, hLoaded⟩

section Owes

def Phase.Owes (pending : List (List LogEntry)) (entries : List LogEntry) : Phase → Prop
  | .planning .. | .storing .. | .swapping .. | .reloading .. => entries ∈ pending
  | .answering _ rest => entries ∈ rest
  | _ => False

def World.Owes (w : World) (place : Nat) (entries : List LogEntry) : Prop :=
  ∃ process pending merged, w.processes[place]? = some process ∧
    process.goal = .flush pending merged ∧ process.phase.Owes pending entries

omit [Sha256] in
theorem World.processes_cache (w : World) (process : Process) (loaded : CheckpointManifest) :
    (w.cache process loaded).processes = w.processes := by
  unfold World.cache
  split <;> rfl

omit [Sha256] in
theorem World.processes_create {key : ObjectKey} {bytes : Bytes} {stored : World}
    (h : w.create key bytes = some stored) : stored.processes = w.processes := by
  unfold World.create at h
  split at h
  · obtain rfl := Option.some.inj h
    rfl
  · split at h
    · obtain rfl := Option.some.inj h
      rfl
    · cases h

def World.Moves (w w' : World) (position : Nat) (process : Process) : Prop :=
  ∃ phase, w'.processes = w.processes.set position { process with phase := phase }

theorem World.moves_leaveLoop (w : World) (position : Nat) (process : Process)
    (loaded : CheckpointManifest) (stage : Stage) :
    w.Moves (World.leaveLoop archive w position process loaded stage) position process := by
  cases stage with
  | migration =>
    unfold World.leaveLoop
    simp only
    split
    · exact ⟨_, rfl⟩
    · exact ⟨_, rfl⟩
    · split <;> exact ⟨_, rfl⟩
    · exact ⟨_, World.processes_cache _ _ _⟩
  | main =>
    unfold World.leaveLoop
    simp only
    split
    · exact ⟨_, rfl⟩
    · exact ⟨_, World.processes_cache _ _ _⟩
    · exact ⟨_, World.processes_cache _ _ _⟩

theorem World.advance_moves {position : Nat} {process : Process} {wins : Bool} {w' : World}
    (hStep : World.advance archive w position process wins = some w') :
    w.Moves w' position process := by
  unfold World.advance at hStep
  split at hStep
  · obtain rfl := Option.some.inj hStep
    unfold World.initializeCheckpoint
    simp only
    split
    · exact ⟨_, rfl⟩
    · split <;> exact ⟨_, rfl⟩
  · split at hStep
    · obtain rfl := Option.some.inj hStep
      unfold World.beginRestore
      split
      · exact ⟨_, rfl⟩
      · split
        · exact ⟨_, rfl⟩
        · split <;> exact ⟨_, rfl⟩
    · split at hStep <;> obtain rfl := Option.some.inj hStep <;> exact ⟨_, rfl⟩
  · rename_i stage lost loaded hAt
    obtain rfl := Option.some.inj hStep
    unfold World.advanceLoop
    split
    · exact ⟨_, rfl⟩
    · split
      · exact ⟨_, rfl⟩
      · exact w.moves_leaveLoop position process loaded stage
      · exact ⟨_, rfl⟩
      · exact ⟨_, rfl⟩
  · rename_i stage lost loaded object next hAt
    split at hStep
    · obtain rfl := Option.some.inj hStep
      exact ⟨_, rfl⟩
    · rename_i stored hCreate
      obtain rfl := Option.some.inj hStep
      refine ⟨.swapping stage lost loaded next, ?_⟩
      rw [← World.processes_create hCreate]
      rfl
  · rename_i stage lost loaded next hAt
    obtain rfl := Option.some.inj hStep
    unfold World.advanceSwap
    split
    · exact World.moves_leaveLoop _ position process next stage
    · exact ⟨_, rfl⟩
  · split at hStep <;> obtain rfl := Option.some.inj hStep <;> exact ⟨_, rfl⟩
  · rename_i loaded hAt
    split at hStep
    · rename_i anchor bytes hSnapshot
      obtain rfl := Option.some.inj hStep
      cases hCreate : w.create (checkpointSnapshotKey anchor) bytes with
      | none => exact ⟨_, rfl⟩
      | some stored =>
        refine ⟨.verifying loaded, ?_⟩
        rw [← World.processes_create hCreate]
        rfl
    · cases hStep
  · split at hStep
    · split at hStep <;> obtain rfl := Option.some.inj hStep <;> exact ⟨_, rfl⟩
    · cases hStep
  · split at hStep
    · obtain rfl := Option.some.inj hStep
      exact ⟨_, rfl⟩
    · split at hStep <;> obtain rfl := Option.some.inj hStep <;> exact ⟨_, rfl⟩
  · split at hStep <;> obtain rfl := Option.some.inj hStep <;> exact ⟨_, rfl⟩
  · split at hStep
    · obtain rfl := Option.some.inj hStep
      unfold World.finishRestore
      split <;> exact ⟨_, rfl⟩
    · split at hStep <;> obtain rfl := Option.some.inj hStep <;> exact ⟨_, rfl⟩
  · cases hStep

omit [Sha256] in
theorem getElem?_moved {position : Nat} {process : Process} {phase : Phase} {w' : World}
    (hAt : w.processes[position]? = some process)
    (hMoved : w'.processes = w.processes.set position { process with phase := phase }) :
    w'.processes[position]? = some { process with phase := phase } := by
  rw [hMoved]
  exact List.getElem?_set_self (List.getElem?_eq_some_iff.mp hAt).1

theorem owes_leaveLoop {position : Nat} {process : Process} {loaded : CheckpointManifest}
    {pending : List (List LogEntry)} {merged entries : List LogEntry}
    (hAt : w.processes[position]? = some process) (hGoal : process.goal = .flush pending merged)
    (hMem : entries ∈ pending) :
    (World.leaveLoop archive w position process loaded .main).Owes position entries := by
  unfold World.leaveLoop
  simp only [hGoal]
  refine ⟨{ process with phase := .answering loaded pending }, pending, merged, ?_, hGoal, hMem⟩
  exact getElem?_moved hAt (World.processes_cache _ _ _)

omit [Sha256] in
theorem owes_setPhase {position : Nat} {process : Process} {phase : Phase}
    {pending : List (List LogEntry)} {merged entries : List LogEntry}
    (hAt : w.processes[position]? = some process) (hGoal : process.goal = .flush pending merged)
    (hOwes : phase.Owes pending entries) :
    (w.setPhase position process phase).Owes position entries :=
  ⟨{ process with phase := phase }, pending, merged, getElem?_moved hAt rfl, hGoal, hOwes⟩

theorem advance_owes {position : Nat} {process : Process} {wins : Bool} {w' : World}
    (hAt : w.processes[position]? = some process) {pending : List (List LogEntry)}
    {merged entries : List LogEntry} (hGoal : process.goal = .flush pending merged)
    (hFit : process.phase.Fit log archive w.manifests process.goal)
    (hOwes : process.phase.Owes pending entries)
    (hStep : World.advance archive w position process wins = some w') :
    w'.Owes position entries ∨ (∃ loaded rest, process.phase = .answering loaded (entries :: rest)) ∨
      ∃ error, w'.processes[position]? = some { process with phase := .finished (.error error) } := by
  have hFailed : ∀ error, (w.setPhase position process (.finished (.error error))).processes[position]? =
      some { process with phase := .finished (.error error) } :=
    fun error => getElem?_moved hAt rfl
  cases hPhase : process.phase with
  | planning stage lost loaded =>
    simp only [hPhase] at hFit hOwes
    obtain ⟨rfl, -⟩ := hFit pending merged hGoal
    simp only [World.advance, hPhase] at hStep
    obtain rfl := Option.some.inj hStep
    unfold World.advanceLoop
    split
    · exact .inr (.inr ⟨_, hFailed _⟩)
    · split
      · exact .inr (.inr ⟨_, hFailed _⟩)
      · exact .inl (owes_leaveLoop hAt hGoal hOwes)
      · exact .inl (owes_setPhase hAt hGoal hOwes)
      · exact .inl (owes_setPhase hAt hGoal hOwes)
  | storing stage lost loaded object next =>
    simp only [hPhase] at hOwes
    simp only [World.advance, hPhase] at hStep
    split at hStep
    · obtain rfl := Option.some.inj hStep
      exact .inr (.inr ⟨_, hFailed _⟩)
    · rename_i stored hCreate
      obtain rfl := Option.some.inj hStep
      rw [← World.processes_create hCreate] at hAt
      exact .inl (owes_setPhase hAt hGoal hOwes)
  | swapping stage lost loaded next =>
    simp only [hPhase] at hFit hOwes
    obtain ⟨rfl, -⟩ := hFit pending merged hGoal
    simp only [World.advance, hPhase] at hStep
    obtain rfl := Option.some.inj hStep
    unfold World.advanceSwap
    split
    · exact .inl (owes_leaveLoop hAt hGoal hOwes)
    · exact .inl (owes_setPhase hAt hGoal hOwes)
  | reloading stage lost =>
    simp only [hPhase] at hOwes
    simp only [World.advance, hPhase] at hStep
    split at hStep
    · obtain rfl := Option.some.inj hStep
      exact .inr (.inr ⟨_, hFailed _⟩)
    · obtain rfl := Option.some.inj hStep
      exact .inl (owes_setPhase hAt hGoal hOwes)
  | answering loaded waiting =>
    simp only [hPhase] at hOwes
    cases waiting with
    | nil => cases hOwes
    | cons first rest =>
      rcases List.mem_cons.mp hOwes with rfl | hRest
      · exact .inr (.inl ⟨loaded, rest, rfl⟩)
      · left
        have hRemaining : (w.setPhase position process (.answering loaded rest)).Owes position
            entries := owes_setPhase hAt hGoal hRest
        simp only [World.advance, hPhase] at hStep
        split at hStep
        · obtain rfl := Option.some.inj hStep
          exact hRemaining
        · obtain rfl := Option.some.inj hStep
          exact hRemaining
  | initializing => rw [hPhase] at hOwes; cases hOwes
  | loading => rw [hPhase] at hOwes; cases hOwes
  | uploading loaded => rw [hPhase] at hOwes; cases hOwes
  | verifying loaded => rw [hPhase] at hOwes; cases hOwes
  | downloading loaded snapshot => rw [hPhase] at hOwes; cases hOwes
  | restoring loaded snapshot records tip restored => rw [hPhase] at hOwes; cases hOwes
  | finished result => rw [hPhase] at hOwes; cases hOwes

theorem World.Owes.step {w' : World} {place : Nat} {entries : List LogEntry}
    (h : w.Owes place entries) (hFit : w.Fit log archive) (hNext : w'.Fit log archive)
    {event : Event} (hSmooth : w.Smooth event) (hStep : World.step archive w event = some w') :
    w'.Owes place entries ∨ ∃ wins process loaded rest, event = .advance place wins ∧
      w.processes[place]? = some process ∧ process.phase = .answering loaded (entries :: rest) := by
  obtain ⟨process, pending, merged, hAt, hGoal, hOwes⟩ := h
  have hSpawn : ∀ spawned, (w.spawn spawned).Owes place entries := by
    intro spawned
    refine ⟨process, pending, merged, ?_, hGoal, hOwes⟩
    simp only [World.spawn]
    rw [List.getElem?_append_left (List.getElem?_eq_some_iff.mp hAt).1]
    exact hAt
  cases event with
  | call goal =>
    obtain rfl := Option.some.inj hStep
    exact .inl (hSpawn _)
  | openPublisher publisher =>
    obtain rfl := Option.some.inj hStep
    exact .inl (hSpawn _)
  | flush publisher waiting =>
    simp only [World.step] at hStep
    split at hStep
    · cases hStep
    · split at hStep
      · obtain rfl := Option.some.inj hStep
        exact .inl (hSpawn _)
      · cases hStep
  | publisherSnapshot publisher anchor bytes =>
    simp only [World.step] at hStep
    split at hStep
    · cases hStep
    · split at hStep
      · cases hStep
      · obtain rfl := Option.some.inj hStep
        exact .inl (hSpawn _)
  | reload publisher =>
    simp only [World.step] at hStep
    split at hStep
    · cases hStep
    · obtain rfl := Option.some.inj hStep
      exact .inl ⟨process, pending, merged, hAt, hGoal, hOwes⟩
  | advance position wins =>
    simp only [World.step] at hStep
    split at hStep
    · cases hStep
    · rename_i moved hMoved
      by_cases hSame : position = place
      · subst hSame
        obtain rfl := Option.some.inj (hMoved.symm.trans hAt)
        have hHere := hFit.processes moved (List.mem_of_getElem? hAt)
        rcases advance_owes hAt hGoal hHere hOwes hStep with hStill | ⟨loaded, rest, hGiven⟩ |
          ⟨error, hError⟩
        · exact .inl hStill
        · exact .inr ⟨wins, moved, loaded, rest, rfl, hAt, hGiven⟩
        · exact (hNext.processes _ (List.mem_of_getElem? hError) pending merged hGoal).elim
      · obtain ⟨phase, hProcesses⟩ := World.advance_moves hStep
        refine .inl ⟨process, pending, merged, ?_, hGoal, hOwes⟩
        rw [hProcesses, List.getElem?_set_ne hSame]
        exact hAt
  | crash position =>
    simp only [World.step] at hStep
    split at hStep
    · cases hStep
    · rename_i moved hMoved
      obtain rfl := Option.some.inj hStep
      by_cases hSame : position = place
      · subst hSame
        obtain rfl := Option.some.inj (hMoved.symm.trans hAt)
        exact (hSmooth moved hAt pending merged hGoal).elim
      · refine .inl ⟨process, pending, merged, ?_, hGoal, hOwes⟩
        simp only [World.setPhase]
        rw [List.getElem?_set_ne hSame]
        exact hAt

end Owes

end Flush

end Rhiza.Archive
