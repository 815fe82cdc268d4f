import Rhiza.Sql.Apply

/-! # The machines that can be reached

A machine is created or opened, and then entries are applied to it, some of them
with database failures on the way. A call that fails after it raised the pending
fence leaves a machine that nothing reads from and that only a retry gets past.
-/

namespace Rhiza.Sql

open Rhiza.Core Rhiza.Library

section Applying

variable [Sha256] [SqlResultJson] [QwalPostcard]

/-- A machine in use, and the entries that were presented to it and its predecessors on the
same files. -/
inductive Machine.Lives : Machine → List LogEntry → Prop
  | created {m : Machine} (clusterId : ClusterId) (epoch : Nat) (configuration : ConfigurationState)
    (materializerFingerprint : String) (file : Bytes)
    (h : createNew clusterId epoch configuration materializerFingerprint file = .ok m) : Lives m []
  | called {m : Machine} {past : List LogEntry} (faults : Faults) (entry : LogEntry)
    (h : Lives m past) : Lives (m.applyEntry faults entry).2 (entry :: past)
  | reopened {m m' : Machine} {past : List LogEntry} (h : Lives m past)
    (hOpen : openExistingFile m.control m.canonical = .ok m') : Lives m' past

omit [SqlResultJson] [QwalPostcard] in
theorem Machine.createNew_eq_ok {clusterId : ClusterId} {epoch : Nat}
    {configuration : ConfigurationState} {materializerFingerprint : String} {file : Bytes}
    {m : Machine} (h : createNew clusterId epoch configuration materializerFingerprint file = .ok m) :
    ∃ control cache, m = opened control file cache false ∧ control.receipts = [] ∧
      control.pending = none ∧ control.appliedTip = ⟨0, .zero⟩ ∧ rebuildPageState file = .ok cache ∧
      cache.identity = .ok control.userState := by
  obtain ⟨cache, hCache, h⟩ := bind_ok_iff.mp h
  obtain ⟨userState, hState, h⟩ := bind_ok_iff.mp h
  obtain ⟨_, -, h⟩ := bind_ok_iff.mp h
  cases h
  exact ⟨_, cache, rfl, rfl, rfl, rfl, hCache, hState⟩

omit [QwalPostcard] in
theorem Machine.openExistingFile_eq_ok {control : Control} {file : Bytes} {m : Machine}
    (h : openExistingFile control file = .ok m) :
    ∃ cache pendingFence, m = opened control file cache pendingFence ∧
      (pendingFence = false → control.pending = none) ∧ rebuildPageState file = .ok cache ∧
      ((∃ pending, control.pending = some pending ∧
          (cache.identity = .ok pending.baseState ∨ cache.identity = .ok pending.targetState)) ∨
        cache.identity = .ok control.userState) := by
  obtain ⟨_, -, h⟩ := bind_ok_iff.mp h
  obtain ⟨_, -, h⟩ := bind_ok_iff.mp h
  obtain ⟨⟨cache, pendingFence⟩, hPair, h⟩ := bind_ok_iff.mp h
  cases h
  obtain ⟨rebuilt, hRebuilt, hPair⟩ := bind_ok_iff.mp hPair
  obtain ⟨actual, hActual, hPair⟩ := bind_ok_iff.mp hPair
  split at hPair
  · rename_i pending hPending
    split at hPair
    · cases hPair
    obtain ⟨_, -, hPair⟩ := bind_ok_iff.mp hPair
    obtain ⟨_, hState, hPair⟩ := bind_ok_iff.mp hPair
    cases hPair
    refine ⟨_, _, rfl, nofun, hRebuilt, .inl ⟨pending, hPending, ?_⟩⟩
    rw [hActual]
    rcases require_eq_ok.mp hState with rfl | rfl
    · exact .inl rfl
    · exact .inr rfl
  · rename_i hPending
    obtain ⟨_, hState, hPair⟩ := bind_ok_iff.mp hPair
    cases hPair
    exact ⟨_, _, rfl, fun _ => hPending, hRebuilt, .inr (require_eq_ok.mp hState ▸ hActual)⟩

structure Machine.Kept (m m' : Machine) : Prop where
  control : m'.control = m.control
  fence : m'.pendingFence = m.pendingFence

/-- What an installation leaves alone, and that one that succeeds leaves the connection open. -/
structure Machine.Installed (m : Machine) (run : Except Error Unit × Machine) : Prop where
  kept : m.Kept run.2
  connected : run.1 = .ok () → run.2.connected = true

omit [Sha256] [SqlResultJson] [QwalPostcard] in
theorem Machine.Installed.failed {m m' : Machine} {error : Error} (h : m.Kept m') :
    m.Installed (.error error, m') :=
  ⟨h, nofun⟩

omit [Sha256] [SqlResultJson] [QwalPostcard] in
theorem Machine.reopenConnection_installed (m : Machine) (faults : Faults) :
    m.Installed (m.reopenConnection faults) := by
  unfold reopenConnection
  split
  · exact .failed ⟨rfl, rfl⟩
  · exact ⟨⟨rfl, rfl⟩, fun _ => rfl⟩

omit [SqlResultJson] [QwalPostcard] in
theorem Machine.publishInstalled_installed (m : Machine) (faults : Faults) (effect : QwalEnvelope)
    (effectPayload : Bytes) : m.Installed (m.publishInstalled faults effect effectPayload) := by
  unfold publishInstalled
  split
  · exact .failed ⟨rfl, rfl⟩
  split
  · exact .failed ⟨rfl, rfl⟩
  · rename_i cache _
    dsimp only
    split
    · exact .failed ⟨rfl, rfl⟩
    · obtain ⟨hKept, hConnected⟩ := reopenConnection_installed
        (rememberUncommittedEffect { m with cache, isSealed := true } effectPayload) faults
      exact ⟨⟨hKept.control, hKept.fence⟩, hConnected⟩

omit [QwalPostcard] in
theorem Machine.installInPlace_installed (m : Machine) (faults : Faults) (effect : QwalEnvelope)
    (effectPayload : Bytes) : m.Installed (m.installInPlace faults effect effectPayload) := by
  unfold installInPlace
  split
  · exact .failed ⟨rfl, rfl⟩
  split
  · exact .failed ⟨rfl, rfl⟩
  split
  · exact .failed ⟨rfl, rfl⟩
  · rename_i installed _
    obtain ⟨hKept, hConnected⟩ := publishInstalled_installed
      { m with canonical := installed, isSealed := false } faults effect effectPayload
    exact ⟨⟨hKept.control, hKept.fence⟩, hConnected⟩

omit [QwalPostcard] in
theorem Machine.patchCanonical_installed (m : Machine) (faults : Faults) (effect : QwalEnvelope)
    (effectPayload : Bytes) : m.Installed (m.patchCanonical faults effect effectPayload) := by
  unfold patchCanonical
  split
  · exact .failed ⟨rfl, rfl⟩
  split
  · exact .failed ⟨rfl, rfl⟩
  dsimp only
  split
  · exact .failed ⟨rfl, rfl⟩
  split
  · exact .failed ⟨rfl, rfl⟩
  · obtain ⟨hKept, hConnected⟩ :=
      { m with connected := false }.installInPlace_installed faults effect effectPayload
    exact ⟨⟨hKept.control, hKept.fence⟩, hConnected⟩

omit [QwalPostcard] in
theorem Machine.promote_installed (m : Machine) (faults : Faults) (prepared : PreparedTarget)
    (effect : QwalEnvelope) (effectPayload : Bytes) :
    m.Installed (m.promote faults prepared effect effectPayload) := by
  have hReopened := { m with connected := false }.reopenConnection_installed faults
  unfold promote
  dsimp only
  split
  · exact .failed ⟨rfl, rfl⟩
  split
  · exact .failed ⟨hReopened.kept.control, hReopened.kept.fence⟩
  split
  · -- the target is gone: the canonical file is patched after all
    split
    · rename_i hReopen
      rw [hReopen] at hReopened
      exact .failed ⟨hReopened.kept.control, hReopened.kept.fence⟩
    · rename_i reopened hReopen
      rw [hReopen] at hReopened
      obtain ⟨hKept, hConnected⟩ := reopened.patchCanonical_installed faults effect effectPayload
      exact ⟨⟨hKept.control.trans hReopened.kept.control, hKept.fence.trans hReopened.kept.fence⟩,
        hConnected⟩
  split
  · exact .failed ⟨rfl, rfl⟩
  split
  · exact .failed ⟨rfl, rfl⟩
  · rename_i installed _ _ _ _ _
    obtain ⟨hKept, hConnected⟩ := publishInstalled_installed
      { m with canonical := installed, isSealed := false, connected := false } faults effect
      effectPayload
    exact ⟨⟨hKept.control, hKept.fence⟩, hConnected⟩

omit [QwalPostcard] in
theorem Machine.installQwalEffect_installed (m : Machine) (faults : Faults) (effect : QwalEnvelope)
    (effectPayload : Bytes) (entryAnchor : LogAnchor) :
    m.Installed (m.installQwalEffect faults effect effectPayload entryAnchor) := by
  unfold installQwalEffect
  split
  · exact .failed ⟨rfl, rfl⟩
  · dsimp only
    split
    · rename_i hConnected
      exact ⟨⟨rfl, rfl⟩, fun _ => hConnected⟩
    · obtain ⟨hKept, hConnected⟩ :=
        (m.rememberUncommittedEffect effectPayload).reopenConnection_installed faults
      exact ⟨⟨hKept.control, hKept.fence⟩, hConnected⟩
  split
  · exact .failed ⟨rfl, rfl⟩
  split
  · exact m.patchCanonical_installed faults effect effectPayload
  · rename_i prepared _
    exact m.promote_installed faults prepared effect effectPayload

def HashesApart (entries : List LogEntry) : Prop :=
  ∀ a ∈ entries, ∀ b ∈ entries, a.recomputeHash = b.recomputeHash → a = b

structure Machine.Sound (m : Machine) (past : List LogEntry) : Prop where
  kept : m.control.WellKept
  idle : m.pendingFence = false →
    m.connected = true ∧ m.uncommittedEffect = none ∧ m.control.pending = none
  pending : ∀ pending, m.control.pending = some pending →
    m.connected = true ∧ m.uncommittedEffect = none ∧
      ∃ entry ∈ past, entry.entryType ≠ .command ∧ entry.recomputeHash = pending.entry.hash

omit [SqlResultJson] [QwalPostcard] in
theorem Machine.Sound.more {m : Machine} {past : List LogEntry} (h : m.Sound past) (entry : LogEntry) :
    m.Sound (entry :: past) where
  kept := h.kept
  idle := h.idle
  pending pending hPending := by
    obtain ⟨hConnected, hNone, other, hOther, hType⟩ := h.pending pending hPending
    exact ⟨hConnected, hNone, other, List.mem_cons_of_mem _ hOther, hType⟩

omit [SqlResultJson] [QwalPostcard] in
theorem Machine.Sound.metadata {m : Machine} {past : List LogEntry} {faults : Faults}
    {entry : LogEntry} (h : m.Sound past) (hAdmit : m.checkEntry faults entry = .ok ())
    (hType : entry.entryType ≠ .command) : m.connected = true ∧ m.uncommittedEffect = none := by
  obtain ⟨-, -, hInstalled, hPending⟩ := checkEntry_eq_ok hAdmit
  have hNone : m.uncommittedEffect = none := by
    cases hEffect : m.uncommittedEffect with
    | none => rfl
    | some installed => exact absurd (hInstalled installed hEffect).1 hType
  refine ⟨?_, hNone⟩
  cases hFence : m.pendingFence with
  | false => exact (h.idle hFence).1
  | true =>
    obtain ⟨pending, hSome, -⟩ := Option.map_eq_some_iff.mp (hPending hNone hFence)
    exact (h.pending pending hSome).1

omit [SqlResultJson] [QwalPostcard] in
theorem Machine.Sound.command {m : Machine} {past : List LogEntry} {faults : Faults}
    {entry : LogEntry} (h : m.Sound past) (hApart : HashesApart (entry :: past))
    (hAdmit : m.checkEntry faults entry = .ok ()) (hType : entry.entryType = .command) :
    m.control.pending = none := by
  obtain ⟨-, hHash, -, hPending⟩ := checkEntry_eq_ok hAdmit
  cases hFence : m.pendingFence with
  | false => exact (h.idle hFence).2.2
  | true =>
    cases hSome : m.control.pending with
    | none => rfl
    | some pending =>
      -- the entry would be the configuration change that is pending
      obtain ⟨-, hNone, other, hOther, hChange, hSame⟩ := h.pending pending hSome
      have hAnchor := hPending hNone hFence
      rw [hSome, Option.map_some, Option.some.injEq] at hAnchor
      rw [hAnchor] at hSame
      have hEq := hApart entry List.mem_cons_self other (List.mem_cons_of_mem _ hOther)
        (hHash.trans hSame.symm)
      exact absurd (hEq ▸ hType) hChange

omit [SqlResultJson] [QwalPostcard] in
theorem lt_of_extends {clusterId : ClusterId} {epoch : Nat} {tip : LogAnchor} {entry : LogEntry}
    (h : ExtendsLog clusterId epoch tip entry) : tip.index < entry.index := by
  rw [checkedSucc_eq_some h.index]
  exact Nat.lt_succ_self _

omit [Sha256] [SqlResultJson] [QwalPostcard] in
theorem Control.WellKept.record {control : Control} (h : control.WellKept) {tip : LogAnchor}
    (hNext : control.appliedTip.index < tip.index) (hNone : control.pending = none)
    (embeddedQlog : List LogEntry) :
    WellKept { control with embeddedQlog, appliedTip := tip } where
  unique := h.unique
  anchored receipt hReceipt := Nat.le_trans (h.anchored receipt hReceipt) (Nat.le_of_lt hNext)
  pending pending hPending := by
    rw [hNone] at hPending
    cases hPending

omit [SqlResultJson] [QwalPostcard] in
theorem Control.WellKept.begin {control : Control} (h : control.WellKept) {entry : LogEntry}
    (hLog : ExtendsLog control.clusterId control.epoch control.appliedTip entry)
    (embeddedQlog : List LogEntry) :
    WellKept
      { control with
        embeddedQlog
        pending := some ⟨control.appliedTip, ⟨entry.index, entry.hash⟩, control.userState,
          control.userState⟩ } where
  unique := h.unique
  anchored := h.anchored
  pending pending hPending := by
    cases hPending
    exact ⟨rfl, rfl, rfl, hLog.index⟩

theorem Machine.Sound.applyEntry {m m' : Machine} {past : List LogEntry} {faults : Faults}
    {entry : LogEntry} {result : Except Error ApplyOutcome} (h : m.Sound past)
    (hApart : HashesApart (entry :: past)) (hCall : m.applyEntry faults entry = (result, m')) :
    m'.Sound (entry :: past) := by
  rcases applyEntry_cases hCall with ⟨_, -, hSame⟩ | ⟨plan, hAdmit, hPlanned, hDone⟩
  · rw [hSame]
    exact h.more entry
  have hHash := (checkEntry_eq_ok hAdmit).2.1
  cases hPlanned with
  | replayed sqlResult hTip hResult =>
    rw [← (Prod.mk.inj hDone).2]
    exact h.more entry
  | metadataOnly hLog hNext hType =>
    rcases carryOut_metadataOnly hDone with ⟨_, -, hSame⟩ | ⟨control, hCommit, -, hSame⟩
    · rw [hSame]
      exact h.more entry
    rw [hSame]
    obtain ⟨hNone, embeddedQlog, rfl⟩ := Control.commitMetadataOnlyEntryWithLog_eq_ok hCommit
    refine ⟨h.kept.record (lt_of_extends hLog) hNone embeddedQlog, fun hFence => h.idle hFence, ?_⟩
    intro pending hPending
    exact absurd (hNone.symm.trans hPending) nofun
  | configure next hLog hNext hType =>
    obtain ⟨hConnected, hClean⟩ := h.metadata hAdmit hType
    have hBegin := h.kept.begin hLog
    rcases carryOut_configure hDone with ⟨_, -, hSame⟩ | ⟨begun, hBegun, hRest⟩
    · rw [hSame]
      exact ⟨h.kept, nofun, (h.more entry).pending⟩
    obtain ⟨embeddedQlog, rfl⟩ := Control.beginPendingWithEntry_eq_ok hBegun
    rcases hRest with ⟨_, -, hSame⟩ | ⟨control, hCommit, -, hSame⟩
    · rw [hSame]
      refine ⟨hBegin embeddedQlog, nofun, fun pending hPending => ?_⟩
      cases hPending
      exact ⟨hConnected, hClean, entry, List.mem_cons_self, hType, hHash⟩
    · rw [hSame]
      obtain ⟨-, -, -, rfl⟩ :=
        Control.commitApplied_eq_ok (hBegin embeddedQlog) (lt_of_extends hLog) hCommit
      exact ⟨h.kept.advance (lt_of_extends hLog) List.nodup_nil nofun nofun,
        fun _ => ⟨hConnected, hClean, rfl⟩, nofun⟩
  | install effect next results hLog hNext hType hEffect hBase hResults =>
    have hNone := h.command hApart hAdmit hType
    obtain ⟨installed, done, hInstalled, hRest⟩ := carryOut_install hDone
    have hDone := { m with pendingFence := true }.installQwalEffect_installed faults effect
      entry.payload ⟨entry.index, entry.hash⟩
    rw [hInstalled] at hDone
    obtain ⟨hKept, hConnected⟩ := hDone
    have hControl : done.control = m.control := hKept.control
    have hFence : done.pendingFence = true := hKept.fence
    rcases hRest with ⟨_, -, -, hSame⟩ | ⟨hOk, ⟨_, -, hSame⟩ | ⟨control, hCommit, -, hSame⟩⟩
    · rw [hSame]
      refine ⟨hControl ▸ h.kept, fun hDown => ?_, fun pending hPending => ?_⟩
      · exact absurd (hFence.symm.trans hDown) nofun
      · rw [hControl, hNone] at hPending
        cases hPending
    · rw [hSame]
      refine ⟨hControl ▸ h.kept, fun hDown => ?_, fun pending hPending => ?_⟩
      · exact absurd (hFence.symm.trans hDown) nofun
      · change done.control.pending = some pending at hPending
        rw [hControl, hNone] at hPending
        cases hPending
    · rw [hSame]
      rw [hControl] at hCommit
      obtain ⟨hUnique, hFresh, hAnchor, embeddedQlog, rfl⟩ :=
        Control.commitRebuildableApply_eq_ok h.kept (lt_of_extends hLog) hCommit
      exact ⟨h.kept.advance (lt_of_extends hLog) hUnique hFresh hAnchor,
        fun _ => ⟨hConnected hOk, rfl, rfl⟩, nofun⟩

theorem Machine.Lives.sound {m : Machine} {past : List LogEntry} (h : m.Lives past)
    (hApart : HashesApart past) : m.Sound past := by
  induction h with
  | created clusterId epoch configuration materializerFingerprint file h =>
    obtain ⟨control, cache, rfl, hReceipts, hPending, -, -, -⟩ := createNew_eq_ok h
    refine ⟨⟨?_, ?_, ?_⟩, fun _ => ⟨rfl, rfl, hPending⟩, ?_⟩
    · change (control.receipts.map _).Nodup
      rw [hReceipts]
      exact List.nodup_nil
    · intro receipt hReceipt
      change receipt ∈ control.receipts at hReceipt
      rw [hReceipts] at hReceipt
      cases hReceipt
    · exact fun pending hSome => absurd (hPending.symm.trans hSome) nofun
    · exact fun pending hSome => absurd (hPending.symm.trans hSome) nofun
  | called faults entry h ih =>
    have hBefore := ih fun a ha b hb =>
      hApart a (List.mem_cons_of_mem _ ha) b (List.mem_cons_of_mem _ hb)
    exact hBefore.applyEntry hApart rfl
  | reopened h hOpen ih =>
    obtain ⟨cache, pendingFence, rfl, hNone, -, -⟩ := openExistingFile_eq_ok hOpen
    have hBefore := ih hApart
    refine ⟨hBefore.kept, fun hDown => ⟨rfl, rfl, hNone hDown⟩, fun pending hSome => ?_⟩
    exact ⟨rfl, rfl, (hBefore.pending pending hSome).2.2⟩

structure Machine.StaysUsable (m m' : Machine) : Prop where
  reads : ∀ (α : Type) (find : Bytes → Except Error α) (value : α),
    m.read find = .ok value → m'.read find = .ok value
  accepts : ∀ (faults : Faults) (entry : LogEntry) (outcome : ApplyOutcome),
    (m.applyEntry faults entry).1 = .ok outcome → ∃ outcome', (m'.applyEntry faults entry).1 = .ok outcome'

def Plan.isFenced : Plan → Bool
  | .replayed _ => false
  | .metadataOnly => false
  | .configure _ _ => true
  | .install _ _ _ _ _ => true

def Machine.raisesFence (m : Machine) (faults : Faults) (entry : LogEntry) : Bool :=
  match m.checkEntry faults entry with
  | .error _ => false
  | .ok _ =>
    match m.plan faults entry with
    | .error _ => false
    | .ok plan => plan.isFenced

theorem Machine.applyEntry_unfenced {m m' : Machine} {faults : Faults} {entry : LogEntry}
    {error : Error} (hFence : m.raisesFence faults entry = false)
    (hCall : m.applyEntry faults entry = (.error error, m')) : m' = m := by
  unfold raisesFence at hFence
  unfold applyEntry at hCall
  split at hCall
  · exact (Prod.mk.inj hCall).2.symm
  rename_i hAdmit
  split at hCall
  · exact (Prod.mk.inj hCall).2.symm
  rename_i plan hPlan
  simp only [hAdmit, hPlan] at hFence
  cases plan with
  | replayed outcome => cases hCall
  | metadataOnly =>
    rcases carryOut_metadataOnly hCall with ⟨_, -, hSame⟩ | ⟨control, -, hOk, -⟩
    · exact hSame
    · cases hOk
  | configure pending next => cases hFence
  | install effect pending next receipts sqlResult => cases hFence

theorem Machine.applyEntry_fenced {m m' : Machine} {faults : Faults} {entry : LogEntry}
    {error : Error} (hFence : m.raisesFence faults entry = true)
    (hCall : m.applyEntry faults entry = (.error error, m')) : m'.pendingFence = true := by
  unfold raisesFence at hFence
  unfold applyEntry at hCall
  split at hFence
  · cases hFence
  rename_i hAdmit
  split at hFence
  · cases hFence
  rename_i plan hPlan
  simp only [hAdmit, hPlan] at hCall
  cases plan with
  | replayed outcome => cases hFence
  | metadataOnly => cases hFence
  | configure pending next =>
    rcases carryOut_configure hCall with
      ⟨_, -, hSame⟩ | ⟨begun, -, ⟨_, -, hSame⟩ | ⟨control, -, hOk, -⟩⟩
    · rw [hSame]
    · rw [hSame]
    · cases hOk
  | install effect pending next receipts sqlResult =>
    obtain ⟨installed, done, hInstalled, hRest⟩ := carryOut_install hCall
    have hDone := { m with pendingFence := true }.installQwalEffect_installed faults effect
      entry.payload ⟨entry.index, entry.hash⟩
    rw [hInstalled] at hDone
    have hKept := hDone.kept
    rcases hRest with ⟨_, -, -, hSame⟩ | ⟨-, ⟨_, -, hSame⟩ | ⟨control, -, hOk, -⟩⟩
    · rw [hSame]
      exact hKept.fence
    · rw [hSame]
      exact hKept.fence
    · cases hOk

omit [Sha256] [SqlResultJson] [QwalPostcard] in
@[simp] theorem Faults.check_eq_ok {faults : Faults} {op : Op} {u : Unit} :
    faults.check op = .ok u ↔ faults.fails op = false := by
  unfold check
  cases faults.fails op <;> simp

omit [Sha256] [SqlResultJson] [QwalPostcard] in
theorem duplicateId_eq_none {seen ids : List String} :
    duplicateId seen ids = none ↔ ids.Nodup ∧ ∀ id ∈ ids, id ∉ seen := by
  induction ids generalizing seen with
  | nil => simp [duplicateId]
  | cons id ids ih =>
    unfold duplicateId
    split
    · rename_i hSeen
      exact ⟨nofun, fun h => absurd hSeen (h.2 id List.mem_cons_self)⟩
    · rename_i hNew
      rw [ih, List.nodup_cons, List.forall_mem_cons]
      constructor
      · rintro ⟨hNodup, hApart⟩
        have hFresh : id ∉ ids := fun hMem => hApart id hMem List.mem_cons_self
        exact ⟨⟨hFresh, hNodup⟩, hNew, fun other hOther hSeen =>
          hApart other hOther (List.mem_cons_of_mem _ hSeen)⟩
      · rintro ⟨⟨hFresh, hNodup⟩, -, hApart⟩
        refine ⟨hNodup, fun other hOther hMem => ?_⟩
        rcases List.mem_cons.mp hMem with rfl | hSeen
        · exact hFresh hOther
        · exact hApart other hOther hSeen

omit [Sha256] [QwalPostcard] in
theorem validateReceipt_nodup {receipts : List QwalReceipt} {seen : List String} {resultBytes : Nat}
    {done : List String × Nat} (h : receipts.foldlM validateReceipt (seen, resultBytes) = .ok done) :
    (receipts.map (·.requestId)).Nodup ∧ ∀ id ∈ receipts.map (·.requestId), id ∉ seen := by
  induction receipts generalizing seen resultBytes with
  | nil => exact ⟨List.nodup_nil, nofun⟩
  | cons receipt receipts ih =>
    rw [List.foldlM_cons] at h
    obtain ⟨⟨counted, bytes⟩, hFirst, h⟩ := bind_ok_iff.mp h
    obtain ⟨_, -, hFirst⟩ := bind_ok_iff.mp hFirst
    obtain ⟨_, hNew, hFirst⟩ := bind_ok_iff.mp hFirst
    have hNew := require_eq_ok.mp hNew
    split at hFirst
    · cases hFirst
    obtain ⟨_, -, hFirst⟩ := bind_ok_iff.mp hFirst
    cases hFirst
    obtain ⟨hNodup, hApart⟩ := ih h
    refine ⟨List.nodup_cons.mpr ⟨fun hMem => hApart _ hMem List.mem_cons_self, hNodup⟩, ?_⟩
    exact List.forall_mem_cons.mpr ⟨hNew, fun id hId hSeen =>
      hApart id hId (List.mem_cons_of_mem _ hSeen)⟩

omit [Sha256] in
theorem decodeQwalCommand_validates {payload : Bytes} {effect : QwalEnvelope}
    (h : decodeQwalCommand payload = .ok effect) :
    effect.receipts.length ≤ maxQwalReceipts ∧ (effect.receipts.map (·.requestId)).Nodup := by
  obtain ⟨_, -, h⟩ := bind_ok_iff.mp h
  obtain ⟨_, -, h⟩ := bind_ok_iff.mp h
  obtain ⟨_, -, h⟩ := bind_ok_iff.mp h
  obtain ⟨_, -, h⟩ := bind_ok_iff.mp h
  split at h
  · cases h
  rename_i decoded _
  obtain ⟨_, hValid, h⟩ := bind_ok_iff.mp h
  obtain rfl : decoded = effect := by
    split at h
    · cases h
    obtain ⟨_, -, h⟩ := bind_ok_iff.mp h
    exact Except.ok.inj h
  obtain ⟨_, -, hValid⟩ := bind_ok_iff.mp hValid
  obtain ⟨_, -, hValid⟩ := bind_ok_iff.mp hValid
  obtain ⟨_, -, hValid⟩ := bind_ok_iff.mp hValid
  obtain ⟨_, -, hValid⟩ := bind_ok_iff.mp hValid
  obtain ⟨_, -, hValid⟩ := bind_ok_iff.mp hValid
  obtain ⟨_, hFew, hValid⟩ := bind_ok_iff.mp hValid
  obtain ⟨done, hReceipts, -⟩ := bind_ok_iff.mp hValid
  exact ⟨(require_eq_ok.mp hFew).2, (validateReceipt_nodup hReceipts).1⟩

/-- A result that the code reads and writes back as the same bytes. -/
def QwalReceipt.IsCanonical (receipt : QwalReceipt) : Prop :=
  ∃ result, decodeSqlResult receipt.resultBlob = .ok result ∧
    encodeSqlResult result = .ok receipt.resultBlob

omit [Sha256] [QwalPostcard] in
theorem decodeResults_ok_iff {receipts : List QwalReceipt} :
    (∃ results, decodeResults receipts = .ok results) ↔ ∀ receipt ∈ receipts, receipt.IsCanonical := by
  induction receipts with
  | nil => exact ⟨fun _ => nofun, fun _ => ⟨[], rfl⟩⟩
  | cons receipt receipts ih =>
    rw [List.forall_mem_cons, ← ih]
    constructor
    · rintro ⟨results, h⟩
      obtain ⟨result, hDecode, h⟩ := bind_ok_iff.mp h
      obtain ⟨encoded, hEncode, h⟩ := bind_ok_iff.mp h
      obtain ⟨_, hSame, h⟩ := bind_ok_iff.mp h
      obtain ⟨rest, hRest, -⟩ := bind_ok_iff.mp h
      exact ⟨⟨result, hDecode, require_eq_ok.mp hSame ▸ hEncode⟩, rest, hRest⟩
    · rintro ⟨⟨result, hDecode, hEncode⟩, rest, hRest⟩
      refine ⟨result :: rest, bind_ok_iff.mpr ⟨_, hDecode, bind_ok_iff.mpr ⟨_, hEncode, ?_⟩⟩⟩
      exact bind_ok_iff.mpr ⟨(), require_eq_ok.mpr rfl, bind_ok_iff.mpr ⟨_, hRest, rfl⟩⟩

omit [Sha256] [SqlResultJson] [QwalPostcard] in
/-- Every stored receipt is of an entry before this one, so that only ids with no receipt
pass. -/
theorem checkExisting_ok_iff {stored : List RequestReceipt} {anchor : LogAnchor}
    (hStored : ∀ receipt ∈ stored, receipt.originalAnchor.index < anchor.index)
    {receipts : List QwalReceipt} :
    checkExisting (receipts.map (·.at anchor))
        ((receipts.map fun receipt => (receipt.requestId, receipt.requestDigest)).map fun request =>
          lookupOne stored request.1 request.2) = .ok () ↔
      ∀ receipt ∈ receipts, ∀ found ∈ stored, found.requestId ≠ receipt.requestId := by
  induction receipts with
  | nil => exact ⟨fun _ => nofun, fun _ => rfl⟩
  | cons receipt receipts ih =>
    rw [List.forall_mem_cons, ← ih]
    simp only [List.map_cons, checkExisting]
    constructor
    · intro h
      obtain ⟨existing, hFound, h⟩ := bind_ok_iff.mp h
      cases existing with
      | none =>
        refine ⟨fun found hMem hSame => ?_, h⟩
        exact lookupOne_none hFound (hSame ▸ List.mem_map_of_mem hMem)
      | some existing =>
        obtain ⟨_, hSame, -⟩ := bind_ok_iff.mp h
        have hBefore := hStored existing (lookupOne_some hFound)
        rw [require_eq_ok.mp hSame] at hBefore
        exact absurd hBefore (Nat.lt_irrefl _)
    · rintro ⟨hFresh, h⟩
      have hNone : lookupOne stored receipt.requestId receipt.requestDigest = .ok none := by
        have hFind : stored.find? (·.requestId = receipt.requestId) = none :=
          List.find?_eq_none.mpr fun found hMem => by simpa using hFresh found hMem
        rw [lookupOne, hFind]
      exact bind_ok_iff.mpr ⟨none, hNone, h⟩

/-- An effect that is made for the state of the control sidecar: for its identity and
configuration, on its tip and its pages, with results of the canonical form and for requests
that have no receipt yet. What the pages of the effect lead to is not part of it. -/
structure QwalEnvelope.Fits (effect : QwalEnvelope) (control : Control) : Prop where
  cluster : effect.clusterId = control.clusterId
  epoch : effect.epoch = control.epoch
  configuration : effect.configurationId = control.configuration.configId
  generation : effect.recoveryGeneration = control.recoveryGeneration
  fingerprint : effect.materializerFingerprint = control.materializerFingerprint
  state : effect.baseState = control.userState
  index : effect.baseIndex = control.appliedTip.index
  hash : effect.baseHash = control.appliedTip.hash
  results : ∀ receipt ∈ effect.receipts, receipt.IsCanonical
  fresh : ∀ receipt ∈ effect.receipts, ∀ stored ∈ control.receipts,
    stored.requestId ≠ receipt.requestId

/-- The entry is the next one of the sealed machine, the configuration admits it, and it is a
configuration change, or a command with an effect that fits; and none of the reads that this
takes fails. -/
structure Machine.ReachesFence (m : Machine) (faults : Faults) (entry : LogEntry) : Prop where
  reads : ∀ op ∈ [Op.verifySeal, .readIdentity, .readTip, .readConfiguration], faults.fails op = false
  isSealed : m.isSealed = true
  log : ExtendsLog m.control.clusterId m.control.epoch m.control.appliedTip entry
  admitted : ∃ next, m.control.configuration.validateEntry entry = .ok next
  fits : entry.entryType = .configChange ∧ faults.fails .readUserState = false ∨
    entry.entryType = .command ∧ faults.fails .readReceipts = false ∧
      ∃ effect, decodeQwalCommand entry.payload = .ok effect ∧ effect.Fits m.control

omit [SqlResultJson] [QwalPostcard] in
theorem Machine.Sound.checkEntry_iff {m : Machine} {past : List LogEntry} (h : m.Sound past)
    (hIdle : m.pendingFence = false) {faults : Faults} {entry : LogEntry} :
    m.checkEntry faults entry = .ok () ↔
      faults.fails .verifySeal = false ∧ m.isSealed = true ∧ entry.recomputeHash = entry.hash := by
  unfold checkEntry
  rw [(h.idle hIdle).2.1, hIdle]
  simp [bind_ok_iff, require_eq_ok]

omit [SqlResultJson] [QwalPostcard] in
theorem validateEntry_noop {state next : ConfigurationState} {entry : LogEntry}
    (hType : entry.entryType = .noop) (h : state.validateEntry entry = .ok next) : next = state := by
  obtain ⟨-, change, hChange, h⟩ := ConfigurationState.validateEntry_eq_ok h
  obtain rfl : change = none := by
    unfold ConfigurationState.changeOf at hChange
    rw [hType] at hChange
    simpa using hChange.symm
  cases state with
  | active configId digest =>
    simp only [ConfigurationState.leaveActive] at h
    split at h
    · exact (Except.ok.inj h).symm
    · cases h
  | stopped configId digest stop binding => cases binding <;> cases h

theorem Machine.Sound.planInstall_iff {m : Machine} {past : List LogEntry} (h : m.Sound past)
    {faults : Faults} {entry : LogEntry} (next : ConfigurationState)
    (hNext : m.control.appliedTip.index < entry.index) :
    (∃ plan, m.planInstall faults entry next = .ok plan ∧ plan.isFenced = true) ↔
      faults.fails .readReceipts = false ∧
        ∃ effect, decodeQwalCommand entry.payload = .ok effect ∧ effect.Fits m.control := by
  have hStored : ∀ receipt ∈ m.control.receipts,
      receipt.originalAnchor.index < (LogAnchor.mk entry.index entry.hash).index :=
    fun receipt hReceipt => Nat.lt_of_le_of_lt (h.kept.anchored receipt hReceipt) hNext
  have hLookups {effect : QwalEnvelope} (hEffect : decodeQwalCommand entry.payload = .ok effect) :
      lookupRequestsFrom m.control.receipts
          (effect.receipts.map fun receipt => (receipt.requestId, receipt.requestDigest)) =
        .ok ((effect.receipts.map fun receipt => (receipt.requestId, receipt.requestDigest)).map
          fun request => lookupOne m.control.receipts request.1 request.2) := by
    obtain ⟨hFew, hNodup⟩ := decodeQwalCommand_validates hEffect
    refine bind_ok_iff.mpr ⟨(), require_eq_ok.mpr ((List.length_map _).trans_le hFew), ?_⟩
    rw [List.map_map, show (·.1) ∘ (fun receipt : QwalReceipt =>
      (receipt.requestId, receipt.requestDigest)) = (·.requestId) from rfl,
      duplicateId_eq_none.mpr ⟨hNodup, fun _ _ => List.not_mem_nil⟩]
  constructor
  · rintro ⟨plan, hPlan, -⟩
    obtain ⟨effect, hEffect, hPlan⟩ := bind_ok_iff.mp hPlan
    obtain ⟨_, hIdentity, hPlan⟩ := bind_ok_iff.mp hPlan
    obtain ⟨_, hBase, hPlan⟩ := bind_ok_iff.mp hPlan
    obtain ⟨results, hResults, hPlan⟩ := bind_ok_iff.mp hPlan
    obtain ⟨_, hRead, hPlan⟩ := bind_ok_iff.mp hPlan
    obtain ⟨existing, hExisting, hPlan⟩ := bind_ok_iff.mp hPlan
    obtain ⟨_, hChecked, -⟩ := bind_ok_iff.mp hPlan
    obtain rfl := Except.ok.inj ((hLookups hEffect).symm.trans hExisting)
    obtain ⟨hCluster, hEpoch, hConfiguration, hGeneration, hFingerprint, hState⟩ :=
      require_eq_ok.mp hIdentity
    obtain ⟨hIndex, hHash⟩ := require_eq_ok.mp hBase
    exact ⟨Faults.check_eq_ok.mp hRead, effect, hEffect, hCluster, hEpoch, hConfiguration,
      hGeneration, hFingerprint, hState, hIndex, hHash, decodeResults_ok_iff.mp ⟨results, hResults⟩,
      (checkExisting_ok_iff hStored).mp hChecked⟩
  · rintro ⟨hRead, effect, hEffect, hFits⟩
    obtain ⟨results, hResults⟩ := decodeResults_ok_iff.mpr hFits.results
    refine ⟨_, bind_ok_iff.mpr ⟨effect, hEffect, bind_ok_iff.mpr ⟨(), require_eq_ok.mpr
      ⟨hFits.cluster, hFits.epoch, hFits.configuration, hFits.generation, hFits.fingerprint,
        hFits.state⟩, bind_ok_iff.mpr ⟨(), require_eq_ok.mpr ⟨hFits.index, hFits.hash⟩,
      bind_ok_iff.mpr ⟨results, hResults, bind_ok_iff.mpr ⟨(), Faults.check_eq_ok.mpr hRead,
      bind_ok_iff.mpr ⟨_, hLookups hEffect, bind_ok_iff.mpr ⟨(),
        (checkExisting_ok_iff hStored).mpr hFits.fresh, rfl⟩⟩⟩⟩⟩⟩⟩, rfl⟩

omit [SqlResultJson] [QwalPostcard] in
/-- A `Noop` never changes the configuration, so only a change is planned with the fence. -/
theorem Machine.planMetadata_iff {m : Machine} {faults : Faults} {entry : LogEntry}
    {next : ConfigurationState} (hType : entry.entryType ≠ .command)
    (hNext : m.control.configuration.validateEntry entry = .ok next) :
    (∃ plan, m.planMetadata faults entry next = .ok plan ∧ plan.isFenced = true) ↔
      entry.entryType = .configChange ∧ faults.fails .readUserState = false := by
  constructor
  · rintro ⟨plan, hPlan, hFenced⟩
    obtain ⟨_, hKnown, hPlan⟩ := bind_ok_iff.mp hPlan
    obtain ⟨_, hRead, hPlan⟩ := bind_ok_iff.mp hPlan
    refine ⟨?_, Faults.check_eq_ok.mp hRead⟩
    cases hEntry : entry.entryType with
    | configChange => rfl
    | command => exact absurd hEntry hType
    | noop =>
      rw [if_pos ⟨hEntry, validateEntry_noop hEntry hNext⟩] at hPlan
      cases hPlan
      cases hFenced
    | snapshotBarrier =>
      rw [checkMetadataType, hEntry] at hKnown
      cases hKnown
    | snapshotPublished =>
      rw [checkMetadataType, hEntry] at hKnown
      cases hKnown
  · rintro ⟨hEntry, hRead⟩
    have hKnown : checkMetadataType entry = .ok () := by rw [checkMetadataType, hEntry]
    have hChange : ¬(entry.entryType = .noop ∧ next = m.control.configuration) := by
      rw [hEntry]
      exact fun h => nomatch h.1
    refine ⟨.configure ⟨m.control.appliedTip, ⟨entry.index, entry.hash⟩, m.control.userState,
      m.control.userState⟩ next, bind_ok_iff.mpr ⟨(), hKnown, bind_ok_iff.mpr ⟨(),
      Faults.check_eq_ok.mpr hRead, ?_⟩⟩, rfl⟩
    rw [if_neg hChange]
    rfl

theorem Machine.Sound.raisesFence_iff {m : Machine} {past : List LogEntry} (h : m.Sound past)
    (hIdle : m.pendingFence = false) {faults : Faults} {entry : LogEntry} :
    m.raisesFence faults entry = true ↔ m.ReachesFence faults entry := by
  constructor
  · intro hFence
    unfold raisesFence at hFence
    split at hFence
    · cases hFence
    rename_i hAdmit
    split at hFence
    · cases hFence
    rename_i plan hPlan
    obtain ⟨hSeal, hSealed, hHash⟩ := (h.checkEntry_iff hIdle).mp hAdmit
    obtain ⟨_, hIdentity, hPlan⟩ := bind_ok_iff.mp hPlan
    obtain ⟨_, hCluster, hPlan⟩ := bind_ok_iff.mp hPlan
    obtain ⟨_, hEpoch, hPlan⟩ := bind_ok_iff.mp hPlan
    obtain ⟨_, hTip, hPlan⟩ := bind_ok_iff.mp hPlan
    split at hPlan
    · obtain ⟨_, -, hPlan⟩ := bind_ok_iff.mp hPlan
      obtain ⟨_, -, hPlan⟩ := bind_ok_iff.mp hPlan
      cases hPlan
      cases hFence
    split at hPlan
    · cases hPlan
    rename_i nextIndex hNextIndex
    obtain ⟨_, hExtends, hPlan⟩ := bind_ok_iff.mp hPlan
    obtain ⟨_, hConfiguration, hPlan⟩ := bind_ok_iff.mp hPlan
    obtain ⟨hIndex, hPrev⟩ := require_eq_ok.mp hExtends
    split at hPlan
    · cases hPlan
    rename_i next hNext
    have hLog : ExtendsLog m.control.clusterId m.control.epoch m.control.appliedTip entry :=
      ⟨require_eq_ok.mp hCluster, require_eq_ok.mp hEpoch, hIndex ▸ hNextIndex, hPrev, hHash⟩
    refine ⟨?_, hSealed, hLog, ⟨next, hNext⟩, ?_⟩
    · simpa using ⟨hSeal, Faults.check_eq_ok.mp hIdentity, Faults.check_eq_ok.mp hTip,
        Faults.check_eq_ok.mp hConfiguration⟩
    split at hPlan
    · rename_i hType
      exact .inr ⟨hType, (h.planInstall_iff next (lt_of_extends hLog)).mp ⟨plan, hPlan, hFence⟩⟩
    · rename_i hType
      exact .inl ((planMetadata_iff hType hNext).mp ⟨plan, hPlan, hFence⟩)
  · rintro ⟨hReads, hSealed, hLog, ⟨next, hNext⟩, hFits⟩
    have hPlanned : ∃ plan, (if entry.entryType = .command then m.planInstall faults entry next
        else m.planMetadata faults entry next) = .ok plan ∧ plan.isFenced = true := by
      rcases hFits with ⟨hType, hRead⟩ | ⟨hType, hFits⟩
      · have hOther : entry.entryType ≠ .command := by
          rw [hType]
          decide
        rw [if_neg hOther]
        exact (planMetadata_iff hOther hNext).mpr ⟨hType, hRead⟩
      · rw [if_pos hType]
        exact (h.planInstall_iff next (lt_of_extends hLog)).mpr hFits
    obtain ⟨plan, hPlanned, hFenced⟩ := hPlanned
    have hAdmit := (h.checkEntry_iff hIdle).mpr ⟨hReads .verifySeal (by simp), hSealed, hLog.hash⟩
    have hPlan : m.plan faults entry = .ok plan := by
      refine bind_ok_iff.mpr ⟨(), Faults.check_eq_ok.mpr (hReads .readIdentity (by simp)),
        bind_ok_iff.mpr ⟨(), require_eq_ok.mpr hLog.cluster, bind_ok_iff.mpr ⟨(),
        require_eq_ok.mpr hLog.epoch, bind_ok_iff.mpr ⟨(),
        Faults.check_eq_ok.mpr (hReads .readTip (by simp)), ?_⟩⟩⟩⟩
      rw [if_neg (Nat.ne_of_gt (lt_of_extends hLog)), hLog.index]
      refine bind_ok_iff.mpr ⟨(), require_eq_ok.mpr ⟨rfl, hLog.prev⟩, bind_ok_iff.mpr ⟨(),
        Faults.check_eq_ok.mpr (hReads .readConfiguration (by simp)), ?_⟩⟩
      rw [hNext]
      exact hPlanned
    rw [raisesFence, hAdmit]
    simp only [hPlan]
    exact hFenced

/-- A failed call on a machine with nothing pending leaves it usable exactly if the entry did not
reach the pending fence. -/
theorem failed_apply_stays_usable_iff {m : Machine} {past : List LogEntry} (hLives : m.Lives past)
    (hApart : HashesApart past) (hIdle : m.pendingFence = false) {m' : Machine} {faults : Faults}
    {entry : LogEntry} {error : Error} (hCall : m.applyEntry faults entry = (.error error, m')) :
    m.StaysUsable m' ↔ ¬m.ReachesFence faults entry := by
  have hSound := hLives.sound hApart
  rw [← hSound.raisesFence_iff hIdle]
  constructor
  · intro hUsable hRaised
    have hFence := Machine.applyEntry_fenced hRaised hCall
    have hConnected := (hSound.idle hIdle).1
    have hBefore : m.read (fun _ => Except.ok ()) = .ok () := by
      rw [Machine.read, hIdle, hConnected]
      rfl
    have hAfter := hUsable.reads Unit (fun _ => .ok ()) () hBefore
    obtain ⟨_, hDown, -⟩ := bind_ok_iff.mp hAfter
    exact absurd (hFence.symm.trans (require_eq_ok.mp hDown)) nofun
  · intro hRaised
    rw [Machine.applyEntry_unfenced (Bool.eq_false_of_not_eq_true hRaised) hCall]
    exact ⟨fun _ _ _ h => h, fun _ _ outcome h => ⟨outcome, h⟩⟩

end Applying

namespace Sample

@[reducible] def noEnvelopes : QwalPostcard where
  fromBytes _ := .error "not an envelope of this sample"
  toAllocvec _ := .error "not an envelope of this sample"

attribute [local instance] Sha256.rolling json noEnvelopes

def created : Except Error Machine :=
  Machine.createNew "cluster" 1 (.active 1 .zero) "fingerprint" base

def stopEntry : LogEntry :=
  let stop := (ConfigChange.stop 1 .zero).toStoredCommand
  { clusterId := "cluster", index := 1, epoch := 1, configId := 1, entryType := stop.entryType,
    payload := stop.payload, prevHash := .zero,
    hash := calculateHash "cluster" 1 1 1 stop.entryType .zero stop.payload }

def beginFails : Faults := ⟨fun op => op = .beginPending, 0, .none⟩

/-- Whether the failed stop wrote nothing and yet keeps the same stop from being accepted. -/
def isWedged : Bool :=
  match created with
  | .error _ => false
  | .ok m =>
    match m.applyEntry beginFails stopEntry with
    | (.ok _, _) => false
    | (.error _, m') =>
      m.pendingFence = false && m'.canonical = m.canonical && m'.control = m.control &&
        m'.isSealed && (m.applyEntry .none stopEntry).1.isOk &&
        (m'.applyEntry .none stopEntry).1.isOk = false

theorem isOk_iff {ε α : Type} {x : Except ε α} : x.isOk = true ↔ ∃ a, x = .ok a := by
  cases x with
  | error error => exact ⟨nofun, nofun⟩
  | ok a => exact ⟨fun _ => ⟨a, rfl⟩, fun _ => rfl⟩

/-- A stop whose `begin_pending_with_entry` fails wrote no page and no row, but neither a read
nor the same stop succeeds on the machine any more. -/
theorem failed_begin_wedges :
    ∃ (m m' : Machine) (error : Error), m.Lives [] ∧ m.pendingFence = false ∧
      m.applyEntry beginFails stopEntry = (.error error, m') ∧ m'.canonical = m.canonical ∧
      m'.control = m.control ∧ m'.isSealed = true ∧
      (∃ outcome, (m.applyEntry .none stopEntry).1 = .ok outcome) ∧
      (¬∃ outcome, (m'.applyEntry .none stopEntry).1 = .ok outcome) ∧ ¬m.StaysUsable m' := by
  have hRun : isWedged = true := by decide +kernel
  unfold isWedged at hRun
  split at hRun
  · cases hRun
  rename_i m hCreated
  split at hRun
  · cases hRun
  rename_i error m' hCall
  simp only [Bool.and_eq_true, decide_eq_true_eq] at hRun
  obtain ⟨⟨⟨⟨⟨hIdle, hFile⟩, hControl⟩, hSealed⟩, hBefore⟩, hAfter⟩ := hRun
  have hRefused : ¬∃ outcome, (m'.applyEntry .none stopEntry).1 = .ok outcome := fun hSome =>
    absurd (isOk_iff.mpr hSome) (by rw [hAfter]; nofun)
  obtain ⟨outcome, hOutcome⟩ := isOk_iff.mp hBefore
  refine ⟨m, m', error, .created _ _ _ _ _ hCreated, hIdle, hCall, hFile, hControl, hSealed,
    ⟨outcome, hOutcome⟩, hRefused, fun hUsable => ?_⟩
  exact hRefused (hUsable.accepts .none stopEntry outcome hOutcome)

theorem failed_begin_stays_usable_iff :
    ∃ (m m' : Machine) (error : Error), created = .ok m ∧
      m.applyEntry beginFails stopEntry = (.error error, m') ∧
      (m.StaysUsable m' ↔ ¬m.ReachesFence beginFails stopEntry) := by
  have hRun : isWedged = true := by decide +kernel
  unfold isWedged at hRun
  split at hRun
  · cases hRun
  rename_i m hCreated
  split at hRun
  · cases hRun
  rename_i error m' hCall
  simp only [Bool.and_eq_true, decide_eq_true_eq] at hRun
  exact ⟨m, m', error, hCreated, hCall, failed_apply_stays_usable_iff
    (.created _ _ _ _ _ hCreated) nofun hRun.1.1.1.1.1 hCall⟩

end Sample

end Rhiza.Sql
