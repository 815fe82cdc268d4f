import Rhiza.Quepaxa.Service

/-! # Opening a root again

A root that the store kept is opened again with the content that it stands for.
The store refuses it only where a file is too large, where it is asked to open
another configuration, or where a step fails on the way.
-/

namespace Rhiza.Quepaxa

open Core Library

section Reading

variable [Sha256] {K : StoredCommand → Prop} {node : Identity} {d : Disk} {hash : LogHash}
  {command : StoredCommand}

def FitsCache (K : StoredCommand → Prop) : Prop :=
  ∀ command, K command → (encodeStoredCommand command).length ≤ maxCommandCacheBytes

theorem readExistingCommandCache_eq_ok (hFits : FitsCache K) (hKeyed : Keyed K d.commands)
    (h : d.commands hash = some command) : d.readExistingCommandCache hash = .ok command := by
  obtain ⟨hHash, hKnown⟩ := hKeyed hash command h
  have hSize : decide ((encodeStoredCommand command).length ≤ maxCommandCacheBytes) = true :=
    decide_eq_true (hFits command hKnown)
  unfold Disk.readExistingCommandCache
  simp only [h, checkBounded, checkDecode, hSize, if_true]
  exact if_neg (not_not.mpr hHash)

theorem fetchCommandCache_of_some (hFits : FitsCache K) (hKeyed : Keyed K d.commands)
    (h : d.commands hash = some command) : d.fetchCommandCache hash = .ok (some command) := by
  unfold Disk.fetchCommandCache
  rw [readExistingCommandCache_eq_ok hFits hKeyed h]

theorem fetchCommandCache_of_none (h : d.commands hash = none) :
    d.fetchCommandCache hash = .ok none := by
  unfold Disk.fetchCommandCache Disk.readExistingCommandCache
  simp only [h]

theorem cachedCommand_eq_ok (hFits : FitsCache K) (hKeyed : Keyed K d.commands)
    (h : d.commandOf hash = .ok command) : d.cachedCommand hash = .ok command := by
  unfold Disk.cachedCommand
  rw [fetchCommandCache_of_some hFits hKeyed (okOr_eq_ok.mp h)]

theorem replayFrames_of_unchanged {checkpoint : WalCheckpoint}
    {cached : LogHash → Result StoredCommand} {s s' : Replay} {frames : List WalFrame}
    {c : ConfigurationState} (hSame : configurationStructureChanged s.configuration c = false)
    (h : replayFrames node checkpoint cached s frames = .ok s') :
    ∃ s'', replayFrames node checkpoint cached { s with configuration := c } frames = .ok s'' := by
  induction frames generalizing s with
  | nil => exact ⟨_, rfl⟩
  | cons f rest ih =>
    obtain ⟨next, hNext, hRest⟩ := bind_ok_iff.mp h
    have hFrame : (f.generation < checkpoint.generation ∧ next = s) ∨
        replayFrame node checkpoint cached { s with configuration := c } f = .ok next := by
      have hc := eq_of_structure_unchanged hSame
      unfold replayFrame at hNext ⊢
      split at hNext
      · rename_i hStale
        exact .inl ⟨hStale, (Except.ok.inj hNext).symm⟩
      · rename_i hStale
        right
        rw [if_neg hStale]
        have hChanged : configurationStructureChanged c f.configuration =
            configurationStructureChanged s.configuration f.configuration := by
          rw [hc]
          rfl
        rw [← hNext]
        simp only [hChanged]
    rcases hFrame with ⟨hStale, rfl⟩ | hFrame
    · obtain ⟨s'', hs''⟩ := ih hSame hRest
      exact ⟨s'', bind_ok_iff.mpr ⟨_, if_pos hStale, hs''⟩⟩
    · exact ⟨s', bind_ok_iff.mpr ⟨next, hFrame, hRest⟩⟩

theorem checkEvidence_eq_ok (hFits : FitsCache K) {m : Memory} (hSlots : m.wal.slots = [])
    (hCommands : m.wal.commands = []) (hKeyed : Keyed K d.commands)
    (hResolved : Resolved node d.slots d.commands) {provenance : RecordedHeadProvenance}
    (hEvidence : Evidence node m.configuration d.slots provenance) :
    checkEvidence node m d m.configuration provenance = .ok () := by
  cases provenance with
  | empty => rfl
  | slotBacked slot =>
    obtain ⟨state, hState, hOwned⟩ := hEvidence
    obtain ⟨hValued, hSmall, hBacked⟩ := hResolved slot state hState
    have hLoad : m.loadUnlocked node d slot m.configuration.configDigest = .ok state := by
      unfold Memory.loadUnlocked
      simp only [hSlots, Assoc.get, hState, unit_bind_ok_iff, checkBounded, checkDecode_eq_ok,
        decide_eq_true_eq]
      exact ⟨hSmall, ⟨hOwned.slot_eq, hOwned.cluster_eq, hOwned.epoch_eq, hOwned.config_eq,
        fun _ => hOwned.digest_eq⟩, trivial⟩
    refine bind_ok_iff.mpr ⟨state, hLoad, unit_bind_ok_iff.mpr ⟨?_, validateAll_eq_ok.mpr ?_⟩⟩
    · exact checkDecode_eq_ok.mpr (decide_eq_true hValued)
    · intro value hValue
      obtain ⟨command, hCommand, hFrom⟩ := hBacked value hValue
      refine bind_ok_iff.mpr ⟨command, RecorderView.commandForValue_eq_ok.mpr ?_, ?_⟩
      · change m.fetchCommand d value.commandHash = .ok (some command)
        unfold Memory.fetchCommand
        rw [hCommands]
        exact fetchCommandCache_of_some hFits hKeyed hCommand
      · refine ensure_eq_ok.mpr (decide_eq_true ?_)
        rw [hOwned.config_eq] at hFrom
        exact hFrom
  | checkpointBacked stopSlot prefixHash recoveredTip recoveredHash =>
    obtain ⟨predecessor, hPredecessor, hActive, hStop, hPrefix, hTip, hHash, hMax⟩ := hEvidence
    refine bind_ok_iff.mpr ⟨predecessor, okOr_eq_ok.mpr hPredecessor, ?_⟩
    exact checkDecode_eq_ok.mpr (decide_eq_true ⟨hActive, hStop, hPrefix, hTip, hHash, hMax⟩)

end Reading

section Tail

variable [Sha256] {K : StoredCommand → Prop} {node : Identity} {F : Faults Site} {L : Content}
  {c : ConfigurationState} {h : RecordedHead} {w : WalFile} {s : Replay}

structure Configured (K : StoredCommand → Prop) (node : Identity) (c : ConfigurationState)
    (h : RecordedHead) (w : WalFile) (s : Replay) (d : Disk) (m : Memory) : Prop where
  stored : Stored K node True d c h w s
  unchanged : configurationStructureChanged c m.configuration = false
  evidence : Evidence node m.configuration d.slots h.provenance
  slots : m.wal.slots = []
  commands : m.wal.commands = []

structure Opened (K : StoredCommand → Prop) (node : Identity) (h : RecordedHead) (w : WalFile)
    (s : Replay) (d₀ d : Disk) (m : Memory) : Prop where
  disk_eq : d = { d₀ with wal := some ⟨w.frames, 0⟩ }
  replay_eq : m.replay = s
  checkpoint_eq : m.wal.checkpoint = h.checkpoint
  bytes_eq : m.wal.byteCount = (w.frames.map (·.size)).sum
  live : Live K node True (s.content d₀) d m

theorem Stored.trimmed {d : Disk} (hs : Stored K node True d c h w s) :
    Stored K node True { d with wal := some ⟨w.frames, 0⟩ } c h ⟨w.frames, 0⟩ s := by
  obtain ⟨hIntent, hHeadIntent, hConfiguration, hHead, hWal, hReplayed, hFramed, hUnchanged, hMatched,
    hFirm⟩ := hs
  refine ⟨hIntent, hHeadIntent, hConfiguration, hHead, rfl, hReplayed, hFramed, hUnchanged, hMatched,
    fun hStrict => ?_⟩
  have hFirm := hFirm hStrict
  exact ⟨hFirm.cluster_eq, hFirm.epoch_eq, hFirm.config_eq, hFirm.digest_eq, hFirm.generation,
    hFirm.valid, hFirm.evidence, hFirm.keyed, hFirm.resolved⟩

theorem replayWal_triple (hFits : FitsCache K) (d₀ : Disk)
    (hs : Stored K node True d₀ c h w s) :
    Triple F (fun d m => d = d₀ ∧ m.configuration = h.provenance.recover c ∧
        m.recordedHead = h.provenance ∧ m.wal.checkpoint = h.checkpoint)
      (replayWal node w) (fun _ d m => Opened K node h w s d₀ d m)
      (fun _ d _ => (w.bytes ≤ maxRecorderWalBytes → Errs F) ∧
        Settled K node True (s.content d₀) d)
      (fun d => Settled K node True (s.content d₀) d) := by
  have hFirm := hs.firm trivial
  have hCached : ∀ hash command, d₀.commandOf hash = .ok command →
      d₀.cachedCommand hash = .ok command :=
    fun _ _ => cachedCommand_eq_ok hFits hFirm.keyed
  have hReplay := replayFrames_mono hCached (hs.valid trivial)
  have hSettled : Settled K node True (s.content d₀) d₀ := ⟨c, h, w, s, hs, rfl⟩
  have hTrimmed : Settled K node True (s.content d₀) { d₀ with wal := some ⟨w.frames, 0⟩ } :=
    ⟨c, h, _, s, hs.trimmed, rfl⟩
  refine Triple.bind (Q := fun d₁ d m => d₁ = d₀ ∧ d = d₀ ∧ m.configuration = h.provenance.recover c ∧
    m.recordedHead = h.provenance ∧ m.wal.checkpoint = h.checkpoint)
    (Triple.disk fun d m h => ⟨h.1, h⟩) fun d₁ => Triple.given ?_
  rintro rfl
  refine Triple.bind (Q := fun m₁ d m => (m₁.configuration = h.provenance.recover c ∧
    m₁.recordedHead = h.provenance ∧ m₁.wal.checkpoint = h.checkpoint) ∧ d = d₁ ∧
    m.wal.checkpoint = h.checkpoint)
    (Triple.memory fun d m h => ⟨h.2, h.1, h.2.2.2⟩) fun m₁ => Triple.given ?_
  rintro ⟨hConfiguration, hHead, hCheckpoint⟩
  rw [hConfiguration, hHead, hCheckpoint]
  refine Triple.bind (Q := fun _ d m => d = d₁ ∧ m.wal.checkpoint = h.checkpoint)
    (Triple.lift (fun _ _ _ _ h => h) fun e d m hError hHere => ⟨fun hBounded => ?_, ?_⟩)
    fun _ => ?_
  · rw [checkBounded, checkDecode, if_pos (decide_eq_true hBounded)] at hError
    cases hError
  · rw [hHere.1]
    exact hSettled
  refine Triple.bind (Q := fun s' d m => s' = s ∧ d = d₁ ∧ m.wal.checkpoint = h.checkpoint)
    (Triple.lift (fun s' d m hOk h => ⟨Except.ok.inj (hOk.symm.trans hReplay), h⟩)
      fun e d m hError _ => ?_) fun s' => Triple.given ?_
  · cases hReplay.symm.trans hError
  rintro rfl
  have hFinish : ∀ m : Memory, m.wal.checkpoint = h.checkpoint →
      Opened K node h w s' d₁ { d₁ with wal := some ⟨w.frames, 0⟩ }
        (m.replayed s' (w.frames.map (·.size)).sum) :=
    fun m hSame => ⟨rfl, rfl, hSame, rfl, ⟨c, h, w.frames, hs.trimmed, hSame.symm⟩, rfl, rfl⟩
  by_cases hTorn : w.torn = 0
  · have hWhole : ({ d₁ with wal := some ⟨w.frames, 0⟩ } : Disk) = d₁ := by
      have hWal := hs.wal
      obtain ⟨frames, torn⟩ := w
      obtain rfl : torn = 0 := hTorn
      rw [← hWal]
    rw [if_neg (not_not.mpr hTorn)]
    refine Triple.setMemory ?_
    rintro d m ⟨rfl, hSame⟩
    have hDone := hFinish m hSame
    rw [hWhole] at hDone
    exact hDone
  · rw [if_pos hTorn]
    refine Triple.bind (Q := fun _ d m => d = { d₁ with wal := some ⟨w.frames, 0⟩ } ∧
      m.wal.checkpoint = h.checkpoint) (Triple.perform ?_ ?_ ?_) fun _ => Triple.setMemory ?_
    · rintro d m ⟨rfl, hSame⟩
      exact ⟨rfl, hSame⟩
    · rintro d m n - ⟨rfl, -⟩
      change Settled K node True _ (if n = 0 then d else _)
      split
      · exact hSettled
      · exact hTrimmed
    · rintro d m n message hF ⟨rfl, -⟩
      refine ⟨fun _ => ⟨_, _, hF⟩, ?_⟩
      change Settled K node True _ (if n = 0 then d else _)
      split
      · exact hSettled
      · exact hTrimmed
    · rintro d m ⟨rfl, hSame⟩
      exact hFinish m hSame

theorem openHead_triple (hFits : FitsCache K) (existingFormat : Bool) (d₀ : Disk) :
    Triple F (fun d m => d = d₀ ∧ Configured K node c h w s d m)
      (do openOrInitializeRecordedHead node existingFormat; openOrReplayWal node)
      (fun _ d m => Opened K node h w s d₀ d m)
      (fun _ d _ => (w.bytes ≤ maxRecorderWalBytes → Errs F) ∧
        Settled K node True (s.content d₀) d)
      (fun d => Settled K node True (s.content d₀) d) := by
  refine Triple.named fun d₁ m₁ hHere => ?_
  obtain ⟨rfl, hs, hUnchanged, hEvidence, hSlots, hCommands⟩ := hHere
  have hFirm := hs.firm trivial
  have hConfiguration := eq_of_structure_unchanged hUnchanged
  have hRecover : ({ m₁.configuration with
      maxAcceptedOrDecidedSlot := h.provenance.recoveredMax } : ConfigurationState) =
      h.provenance.recover c := by
    rw [hConfiguration]
    rfl
  have hValidate : validateRecordedHead node m₁.configuration h = .ok () := by
    refine unit_bind_ok_iff.mpr ⟨checkDecode_eq_ok.mpr (decide_eq_true ⟨hFirm.cluster_eq,
      hFirm.epoch_eq, ?_, ?_⟩), checkDecode_eq_ok.mpr (decide_eq_true hFirm.generation)⟩
    · rw [hConfiguration]
      exact hFirm.config_eq
    · rw [hConfiguration]
      exact hFirm.digest_eq
  have hCheck := checkEvidence_eq_ok hFits hSlots hCommands hFirm.keyed hFirm.resolved hEvidence
  have hInstalled : ∀ fault, openOrInitializeRecordedHead node existingFormat d₁ m₁ fault =
      ⟨d₁, { m₁ with
        configuration := h.provenance.recover c
        recordedHead := h.provenance
        wal := { m₁.wal with
          checkpoint := h.checkpoint
          nextSequence := h.checkpoint.throughSequence + 1 } }, fault, .value ()⟩ := by
    intro fault
    rw [← hRecover]
    simp only [openOrInitializeRecordedHead, installRecordedHead, Bind.bind, Program.bind, Program.disk,
      Program.memory, hs.head, hValidate, hCheck, Program.lift, Program.pure, Program.setMemory]
  have hReplayed : ∀ m fault, openOrReplayWal node d₁ m fault = replayWal node w d₁ m fault := by
    intro m fault
    simp only [openOrReplayWal, Bind.bind, Program.bind, Program.disk, hs.wal]
  rintro d m fault hAllow ⟨rfl, rfl⟩
  have hSame : (do openOrInitializeRecordedHead node existingFormat; openOrReplayWal node : Io Unit)
      d m fault = replayWal node w d { m with
        configuration := h.provenance.recover c
        recordedHead := h.provenance
        wal := { m.wal with
          checkpoint := h.checkpoint
          nextSequence := h.checkpoint.throughSequence + 1 } } fault := by
    change Program.bind _ _ d m fault = _
    unfold Program.bind
    rw [hInstalled fault]
    exact hReplayed _ fault
  rw [hSame]
  exact replayWal_triple hFits d hs _ _ _ hAllow ⟨rfl, rfl, rfl, rfl⟩

end Tail

section Preflight

variable [Sha256] {K : StoredCommand → Prop} {node : Identity} {F : Faults Site} {L : Content}
  {d : Disk} {c : ConfigurationState} {h : RecordedHead} {w : WalFile} {s : Replay} {configId : Nat}
  {membership : Membership}

structure Openable (L : Content) (d : Disk) (configId : Nat) (membership : Membership) : Prop where
  configId_eq : L.configuration.configId = configId
  membership_eq : L.configuration.membership = some membership
  bounded : ∀ w, d.wal = some w → w.bytes ≤ maxRecorderWalBytes

theorem Openable.preflightConfiguration (h : Openable L d configId membership)
    (hInstalled : Installed L.configuration)
    (hSame : configurationStructureChanged L.configuration c = false) :
    validatePreflightConfiguration c configId membership = .ok () := by
  obtain ⟨-, member, hMember, hDigest⟩ := hInstalled
  obtain rfl := Option.some.inj (hMember.symm.trans h.membership_eq)
  rw [eq_of_structure_unchanged hSame]
  exact checkDecode_eq_ok.mpr (decide_eq_true ⟨h.configId_eq, hDigest, hMember⟩)

omit [Sha256] in
theorem structure_unchanged_symm {c c' : ConfigurationState}
    (h : configurationStructureChanged c c' = false) :
    configurationStructureChanged c' c = false := by
  rw [eq_of_structure_unchanged h]
  simp [configurationStructureChanged]

theorem preflight_settled (hFits : FitsCache K) (hs : Stored K node True d c h w s)
    (hInstalled : Installed s.configuration)
    (hOpenable : Openable (s.content d) d configId membership) :
    ∃ r, r ≠ .missing ∧ preflight node configId membership d = .ok r := by
  have hFirm := hs.firm trivial
  have hCached : ∀ hash command, d.commandOf hash = .ok command →
      d.readExistingCommandCache hash = .ok command :=
    fun _ _ hCommand => readExistingCommandCache_eq_ok hFits hFirm.keyed (okOr_eq_ok.mp hCommand)
  have hReplay := replayFrames_mono hCached (hs.valid trivial)
  have hSame : configurationStructureChanged (h.start c).configuration c = false := by
    simp [configurationStructureChanged, RecordedHead.start, Replay.start,
      RecordedHeadProvenance.recover]
  obtain ⟨s', hs'⟩ := replayFrames_of_unchanged hSame hReplay
  refine ⟨if w.torn = 0 then .valid else .recoverable, by split <;> simp, ?_⟩
  unfold preflight
  rw [if_neg (by simp [hs.configuration])]
  simp only [hs.intent, hs.headIntent, hs.configuration, hs.head, hs.wal]
  refine bind_ok_iff.mpr ⟨c, rfl, unit_bind_ok_iff.mpr ⟨?_, bind_ok_iff.mpr ⟨h, rfl,
    unit_bind_ok_iff.mpr ⟨?_, bind_ok_iff.mpr ⟨w, rfl, unit_bind_ok_iff.mpr ⟨?_,
      bind_ok_iff.mpr ⟨s', hs', rfl⟩⟩⟩⟩⟩⟩⟩
  · exact hOpenable.preflightConfiguration hInstalled (structure_unchanged_symm hs.unchanged)
  · exact unit_bind_ok_iff.mpr ⟨checkDecode_eq_ok.mpr (decide_eq_true ⟨hFirm.cluster_eq,
      hFirm.epoch_eq, hFirm.config_eq, hFirm.digest_eq⟩),
      checkDecode_eq_ok.mpr (decide_eq_true hFirm.generation)⟩
  · exact checkDecode_eq_ok.mpr (decide_eq_true (hOpenable.bounded w hs.wal))

omit [Sha256] in
theorem validateEmptyRecoveryWal_eq_ok (h : d.wal = some ⟨[], 0⟩) :
    validateEmptyRecoveryWal d = .ok () := by
  unfold validateEmptyRecoveryWal
  rw [h]
  rfl

theorem preflight_headIntended {i : ConfigurationHeadIntent} (hi : HeadIntended K node True L d i)
    (hOpenable : Openable L d configId membership) :
    preflight node configId membership d = .ok .recoverable := by
  have hGood := hi.good trivial
  obtain ⟨w, hw, -, hEmpty⟩ := hi.wal
  rw [hEmpty trivial] at hw
  have hConfiguration : L.configuration = i.configuration := by rw [← hi.content_eq]
  unfold preflight
  rw [if_neg (by simp [hi.headIntent])]
  simp only [hi.intent, hi.headIntent, unit_bind_ok_iff, and_true]
  refine ⟨unit_bind_ok_iff.mpr ⟨?_, ?_⟩, validateEmptyRecoveryWal_eq_ok hw⟩
  · refine hOpenable.preflightConfiguration hGood.installed ?_
    simp [configurationStructureChanged, hConfiguration]
  · exact unit_bind_ok_iff.mpr ⟨checkDecode_eq_ok.mpr (decide_eq_true ⟨hi.cluster_eq, hi.epoch_eq,
      hi.config_eq, hi.digest_eq⟩), checkDecode_eq_ok.mpr (decide_eq_true (hi.generation trivial))⟩

theorem preflight_intended (hFits : FitsCache K) {i : TransitionIntent}
    (hi : Intended K node True L d i) (hOpenable : Openable L d configId membership) :
    preflight node configId membership d = .ok .recoverable := by
  have hGood := hi.good trivial
  have hOwned := hi.owned trivial
  obtain ⟨w, hw, -, hEmpty⟩ := hi.wal
  rw [hEmpty trivial] at hw
  have hConfiguration : L.configuration = i.configuration := by rw [← hi.content_eq]
  have hCommands : L.commands = d.commands := by rw [← hi.content_eq]
  have hSlot : L.slots i.slot = some i.state := by
    rw [← hi.content_eq]
    exact Function.update_self ..
  have hKeyed := hGood.keyed
  rw [hCommands] at hKeyed
  unfold preflight
  rw [if_neg (by simp [hi.intent])]
  simp only [hi.intent, hi.headIntent, unit_bind_ok_iff, and_true]
  refine ⟨unit_bind_ok_iff.mpr ⟨?_, unit_bind_ok_iff.mpr ⟨?_, validateAll_eq_ok.mpr ?_⟩⟩,
    validateEmptyRecoveryWal_eq_ok hw⟩
  · refine hOpenable.preflightConfiguration hGood.installed ?_
    simp [configurationStructureChanged, hConfiguration]
  · exact checkDecode_eq_ok.mpr (decide_eq_true ⟨hOwned.slot_eq, hOwned.cluster_eq, hOwned.epoch_eq,
      hOwned.config_eq, hOwned.digest_eq⟩)
  · intro value hValue
    obtain ⟨command, hCommand, hFrom⟩ := (hGood.resolved i.slot i.state hSlot).backed value hValue
    rw [hCommands] at hCommand
    refine bind_ok_iff.mpr ⟨command, readExistingCommandCache_eq_ok hFits hKeyed hCommand,
      checkDecode_eq_ok.mpr (decide_eq_true ?_)⟩
    rw [hOwned.config_eq] at hFrom
    exact hFrom

end Preflight

section Open

variable [Sha256] {K : StoredCommand → Prop} {node : Identity} {F : Faults Site} {L : Content}
  {d d₀ : Disk} {m : Memory} {c : ConfigurationState} {h : RecordedHead} {w : WalFile} {s : Replay}
  {configId : Nat} {membership : Membership} {existingOnly : Bool}

/-- `open_with_membership` after `configuration-head.intent`. -/
def openRest (node : Identity) (existingFormat : Bool) (configId : Nat) (membership : Membership) :
    Io Unit := do
  let configured ← openConfiguration node existingFormat configId membership
  Program.lift (checkDecode (configured.membership.all fun current =>
    current.digest = configured.configDigest) "installed membership digest mismatch")
  Program.setMemory fun m => { m with configuration := configured }
  recoverIntent node
  openOrInitializeRecordedHead node existingFormat
  openOrReplayWal node

def Memory.configured (m : Memory) (configuration : ConfigurationState) : Memory :=
  { m with configuration := configuration }

theorem Installed.checked (hInstalled : Installed c) :
    (checkDecode (c.membership.all fun current => current.digest = c.configDigest)
      "installed membership digest mismatch") = .ok () := by
  obtain ⟨-, member, hMember, hDigest⟩ := hInstalled
  rw [hMember, checkDecode_eq_ok]
  exact decide_eq_true hDigest.symm

theorem Installed.congr {c' : ConfigurationState} (h : Installed c)
    (hSame : configurationStructureChanged c c' = false) : Installed c' := by
  rw [eq_of_structure_unchanged hSame]
  exact h

theorem openRest_eq (hConfiguration : d.configuration = some c) (hInstalled : Installed c)
    (existingFormat : Bool) (fault : StoreFault) :
    openRest node existingFormat configId membership d m fault =
      (do recoverIntent node; openOrInitializeRecordedHead node existingFormat
          openOrReplayWal node : Io Unit) d (m.configured c) fault := by
  change Program.bind _ _ d m fault = _
  simp only [openConfiguration, Bind.bind, Program.bind, Program.disk, hConfiguration, Pure.pure,
    Program.pure, hInstalled.checked, Program.lift, Program.setMemory]
  rfl

theorem openRest_settled (hFits : FitsCache K) (existingFormat : Bool) (d₀ : Disk)
    (hInstalled : Installed s.configuration) :
    Triple F (fun d m => d = d₀ ∧ m = .blank configId ∧ Stored K node True d c h w s)
      (openRest node existingFormat configId membership)
      (fun _ d m => Opened K node h w s d₀ d m)
      (fun _ d _ => (w.bytes ≤ maxRecorderWalBytes → Errs F) ∧
        Settled K node True (s.content d₀) d)
      (fun d => Settled K node True (s.content d₀) d) := by
  rintro d m fault hAllow ⟨rfl, rfl, hs⟩
  rw [openRest_eq hs.configuration (hInstalled.congr (structure_unchanged_symm hs.unchanged))]
  refine Triple.bind (recoverIntent_idle (P := fun d' m' => d' = d ∧ Configured K node c h w s d' m') ?_)
    (fun _ => openHead_triple hFits existingFormat d) d _ fault hAllow ⟨rfl, hs, ?_, ?_, rfl, rfl⟩
  · rintro d' m' ⟨rfl, -⟩
    exact ⟨hs.intent, hs.headIntent⟩
  · simp [configurationStructureChanged, Memory.configured]
  · exact (hs.firm trivial).evidence

theorem recoverConfigurationHeadIntent_triple {i : ConfigurationHeadIntent} (m₀ : Memory) :
    Triple F (fun d m => m = m₀ ∧ HeadIntended K node True L d i) recoverConfigurationHeadIntent
      (fun _ d m => m = m₀ ∧ Stored K node True d i.configuration i.head ⟨[], 0⟩
        (i.head.start i.configuration) ∧ (i.head.start i.configuration).content d = L)
      (fun _ d _ => Errs F ∧ Kept K node True L d) (fun d => Kept K node True L d) := by
  refine Triple.bind (Q := fun d₁ d m => d₁.headIntent = some i ∧ m = m₀ ∧
    HeadIntended K node True L d i ∧ True) (Triple.disk fun d m h => ⟨h.2.headIntent, h.1, h.2, trivial⟩)
    fun d₁ => Triple.given fun hIntent => ?_
  rw [hIntent]
  refine Triple.bind (write_triple (I := fun p d => HeadIntended K node p L d i)
    (B := fun d => d.configuration = some i.configuration) _ _ HeadIntended.weaken
    HeadIntended.configurationFile (fun d _ => rfl) (fun _ _ _ h => h)
    (fun d h => .headIntended i h) fun e d n hF h => ⟨⟨_, n, hF⟩, .headIntended i h⟩) fun _ => ?_
  refine Triple.bind (write_triple (I := fun p d => HeadIntended K node p L d i)
    (B := fun d => d.configuration = some i.configuration ∧ d.recordedHead = some i.head) _ _
    HeadIntended.weaken HeadIntended.headFile (fun d h => ⟨h, rfl⟩) (fun _ _ _ h => h)
    (fun d h => .headIntended i h) fun e d n hF h => ⟨⟨_, n, hF⟩, .headIntended i h⟩) fun _ => ?_
  have hFinish : ∀ d, HeadIntended K node True L d i → d.configuration = some i.configuration →
      d.recordedHead = some i.head → Stored K node True { d with headIntent := none } i.configuration
        i.head ⟨[], 0⟩ (i.head.start i.configuration) ∧
        (i.head.start i.configuration).content { d with headIntent := none } = L := by
    intro d hi hConfiguration hHead
    obtain ⟨w, hw, -, hEmpty⟩ := hi.wal
    rw [hEmpty trivial] at hw
    exact hi.finish hi.good hi.generation hConfiguration hHead hw fun f hf => (by cases hf)
  refine Triple.bind (Q := fun _ d m => m = m₀ ∧ Stored K node True d i.configuration i.head ⟨[], 0⟩
    (i.head.start i.configuration) ∧ (i.head.start i.configuration).content d = L)
    (Triple.perform ?_ ?_ ?_) fun _ => Triple.perform (fun _ _ h => h) ?_ ?_
  · rintro d m ⟨rfl, hi, hConfiguration, hHead⟩
    exact ⟨rfl, hFinish d hi hConfiguration hHead⟩
  · rintro d m n - ⟨rfl, hi, hConfiguration, hHead⟩
    change Kept K node True L (if n = 0 then d else _)
    split
    · exact .headIntended i hi
    · obtain ⟨hs, hContent⟩ := hFinish d hi hConfiguration hHead
      exact .settled ⟨_, _, _, _, hs, hContent⟩
  · rintro d m n message hF ⟨rfl, hi, -⟩
    exact ⟨⟨_, n, hF⟩, .headIntended i hi⟩
  · rintro d m n - ⟨rfl, hs, hContent⟩
    exact .settled ⟨_, _, _, _, hs, hContent⟩
  · rintro d m n message hF ⟨rfl, hs, hContent⟩
    exact ⟨⟨_, n, hF⟩, .settled ⟨_, _, _, _, hs, hContent⟩⟩

theorem openRest_intended (hFits : FitsCache K) (hCluster : (utf8 node.clusterId).length ≤ 65535)
    (existingFormat : Bool) {i : TransitionIntent} :
    Triple F (fun d m => m = .blank configId ∧ Intended K node True L d i)
      (openRest node existingFormat configId membership)
      (fun _ d m => Live K node True L d m)
      (fun _ d _ => Errs F ∧ Kept K node True L d) (fun d => Kept K node True L d) := by
  rintro d m fault hAllow ⟨rfl, hi⟩
  obtain ⟨c, hConfiguration, hInstalled⟩ := hi.configured
  obtain ⟨w, hw, -, hEmpty⟩ := hi.wal
  rw [hEmpty trivial] at hw
  have hPending : Pending K node True L d ((Memory.blank configId).configured c) i :=
    ⟨hi, rfl, ⟨[], hw, fun f hf => (by cases hf)⟩, fun _ => Nat.one_ne_zero⟩
  rw [openRest_eq hConfiguration (hInstalled trivial)]
  refine Triple.bind (E := fun _ d _ => Errs F ∧ Kept K node True L d) (Q := fun _ d m =>
      Live K node True L d m ∧ m.wal.frameCount = 0 ∧ (True → d.wal = some ⟨[], 0⟩))
    ((recoverIntent_triple (i := i) ((Memory.blank configId).configured c)).conseq (fun _ _ h => h)
      (fun _ _ _ h => h) ?_ fun _ h => h) (fun _ => ?_) d _ fault hAllow ⟨rfl, hPending⟩
  · rintro e d m ⟨rfl, h | ⟨h, -⟩, hErrs⟩
    · exact ⟨hErrs hCluster, h.kept⟩
    · exact ⟨hErrs hCluster, .settled h⟩
  refine Triple.named fun d₁ m₁ hHere => ?_
  obtain ⟨hLive, hCount, hWal⟩ := hHere
  obtain ⟨hSlots, hCommands, hStart, frames, hFrames, -⟩ := hLive.flushed hCount
  have hHead := hLive.head_eq
  have hCurrent := hLive.configuration_eq
  have hGood := hi.good trivial
  have hContent := hLive.content_eq
  obtain ⟨c', head, frames', hs, -⟩ := hLive.stored
  obtain ⟨-, hReplay⟩ := hs.eq_start hCount
  have hProvenance : m₁.recordedHead = head.provenance := congrArg Replay.head hReplay
  have hBounded : (⟨frames', 0⟩ : WalFile).bytes ≤ maxRecorderWalBytes := by
    rw [Option.some.inj (hs.wal.symm.trans (hWal trivial))]
    decide
  refine (openHead_triple (c := c') (h := head) (w := ⟨frames', 0⟩) (s := m₁.replay) hFits
    existingFormat d₁).conseq ?_ (fun _ d m h => ?_) (fun _ d _ h => ?_) fun d h => ?_
  · rintro d m ⟨rfl, rfl⟩
    refine ⟨rfl, hs, hs.unchanged, ?_, ?_, ?_⟩
    · rw [hCurrent, hSlots, ← hProvenance, hHead]
      exact hGood.evidence
    · rw [hStart]
    · rw [hStart]
  · have hLive' := h.live
    rw [show m₁.replay.content d₁ = L from hContent] at hLive'
    exact hLive'
  · rw [show m₁.replay.content d₁ = L from hContent] at h
    exact ⟨h.1 hBounded, .settled h.2⟩
  · rw [show m₁.replay.content d₁ = L from hContent] at h
    exact .settled h

omit [Sha256] in
theorem acceptPreflight_ok [Sha256] (existingOnly existingFormat : Bool) {r : RecorderPreflight}
    (h : r ≠ .missing) : acceptPreflight existingOnly existingFormat (.ok r) = .ok () := by
  cases r with
  | missing => exact absurd rfl h
  | recoverable => rfl
  | valid => rfl

theorem openWithMembership_triple {P : Prop} {Q : Disk → Memory → Prop}
    {E : Disk → Prop} {C : Disk → Prop} (d₀ : Disk) (hError : E d₀)
    (hAccept : P → ∃ r, r ≠ .missing ∧ preflight node configId membership d₀ = .ok r)
    (hRest : Triple F (fun d m => d = d₀ ∧ m = .blank configId)
      (do recoverConfigurationHeadIntent; openRest node d₀.existingFormat configId membership)
      (fun _ => Q) (fun _ d _ => (P → Errs F) ∧ E d) C) :
    Triple F (fun d m => d = d₀ ∧ m = .blank configId)
      (openWithMembership node existingOnly configId membership)
      (fun _ => Q) (fun _ d _ => (P → Errs F) ∧ E d) C := by
  refine Triple.bind (Q := fun d₁ d m => d₁ = d₀ ∧ d = d₀ ∧ m = .blank configId)
    (Triple.disk fun d m h => ⟨h.1, h⟩) fun d₁ => Triple.given ?_
  rintro rfl
  refine Triple.bind (Q := fun _ d m => d = d₁ ∧ m = .blank configId)
    (Triple.lift (fun _ _ _ _ h => h) ?_) fun _ => hRest
  rintro e d m hRefused ⟨rfl, -⟩
  refine ⟨fun hP => ?_, hError⟩
  obtain ⟨r, hr, hOk⟩ := hAccept hP
  rw [hOk, acceptPreflight_ok existingOnly _ hr] at hRefused
  cases hRefused

theorem open_settled (existingOnly : Bool) (configId : Nat) (membership : Membership)
    (hFits : FitsCache K) (hs : Stored K node True d₀ c h w s)
    (hInstalled : Installed s.configuration) :
    Triple F (fun d m => d = d₀ ∧ m = .blank configId)
      (openWithMembership node existingOnly configId membership)
      (fun _ d m => Opened K node h w s d₀ d m)
      (fun _ d _ => (Openable (s.content d₀) d₀ configId membership → Errs F) ∧
        Settled K node True (s.content d₀) d)
      (fun d => Settled K node True (s.content d₀) d) := by
  refine openWithMembership_triple d₀ ⟨c, h, w, s, hs, rfl⟩
    (preflight_settled hFits hs hInstalled) ?_
  refine Triple.bind (Q := fun _ d m => d = d₀ ∧ m = .blank configId ∧ Stored K node True d c h w s)
    ?_ fun _ => (openRest_settled hFits _ d₀ hInstalled).conseq (fun _ _ h => h) (fun _ _ _ h => h)
      (fun _ _ _ h => ⟨fun hOpenable => h.1 (hOpenable.bounded w hs.wal), h.2⟩) fun _ h => h
  rintro d m fault hAllow ⟨rfl, rfl⟩
  have hIdle : recoverConfigurationHeadIntent d (.blank configId) fault =
      ⟨d, .blank configId, fault, .value ()⟩ := by
    simp only [recoverConfigurationHeadIntent, Bind.bind, Program.bind, Program.disk, hs.headIntent,
      Pure.pure, Program.pure]
  rw [hIdle]
  exact ⟨⟨rfl, rfl, hs⟩, hAllow⟩

theorem open_kept (existingOnly : Bool) (configId : Nat) (membership : Membership)
    (hFits : FitsCache K) (hCluster : (utf8 node.clusterId).length ≤ 65535)
    (hGood : L.Good K node) (hKept : Kept K node True L d₀) :
    Triple F (fun d m => d = d₀ ∧ m = .blank configId)
      (openWithMembership node existingOnly configId membership)
      (fun _ d m => Live K node True L d m)
      (fun _ d _ => (Openable L d₀ configId membership → Errs F) ∧ Kept K node True L d)
      (fun d => Kept K node True L d) := by
  cases hKept with
  | settled hSettled =>
    obtain ⟨c, h, w, s, hs, rfl⟩ := hSettled
    exact (open_settled existingOnly configId membership hFits hs hGood.installed).conseq (fun _ _ h => h) (fun _ _ _ h => h.live)
      (fun _ _ _ h => ⟨h.1, .settled h.2⟩) fun _ h => .settled h
  | headIntended i hi =>
    refine openWithMembership_triple d₀ (.headIntended i hi)
      (fun hOpenable => ⟨.recoverable, nofun, preflight_headIntended hi hOpenable⟩) ?_
    refine Triple.bind ((recoverConfigurationHeadIntent_triple (i := i) (.blank configId)).conseq ?_
      (fun _ _ _ h => h) (fun _ _ _ h => ⟨fun _ => h.1, h.2⟩) fun _ h => h) fun _ => ?_
    · rintro d m ⟨rfl, rfl⟩
      exact ⟨rfl, hi⟩
    refine Triple.named fun d₁ m₁ hHere => ?_
    obtain ⟨rfl, hs, hContent⟩ := hHere
    have hInstalled : Installed (i.head.start i.configuration).configuration := by
      have h := hGood.installed
      rw [← hContent] at h
      exact h
    refine (openRest_settled (c := i.configuration) (h := i.head) (w := ⟨[], 0⟩) hFits _ d₁
      hInstalled).conseq ?_ (fun _ d m h => ?_) (fun _ d _ h => ?_) fun d h => ?_
    · rintro d m ⟨rfl, rfl⟩
      exact ⟨rfl, rfl, hs⟩
    · rw [← hContent]
      exact h.live
    · rw [hContent] at h
      exact ⟨fun _ => h.1 (by decide), .settled h.2⟩
    · rw [hContent] at h
      exact .settled h
  | intended i hi =>
    refine openWithMembership_triple d₀ (.intended i hi)
      (fun hOpenable => ⟨.recoverable, nofun, preflight_intended hFits hi hOpenable⟩) ?_
    refine Triple.bind (Q := fun _ d m => m = .blank configId ∧ Intended K node True L d i) ?_
      fun _ => (openRest_intended hFits hCluster _).conseq (fun _ _ h => h) (fun _ _ _ h => h)
        (fun _ _ _ h => ⟨fun _ => h.1, h.2⟩) fun _ h => h
    rintro d m fault hAllow ⟨rfl, rfl⟩
    have hIdle : recoverConfigurationHeadIntent d (.blank configId) fault =
        ⟨d, .blank configId, fault, .value ()⟩ := by
      simp only [recoverConfigurationHeadIntent, Bind.bind, Program.bind, Program.disk, hi.headIntent,
        Pure.pure, Program.pure]
    rw [hIdle]
    exact ⟨⟨rfl, hi⟩, hAllow⟩

omit [Sha256] in
theorem calm_commitConfigurationHead [Sha256] (configuration : ConfigurationState)
    (provenance : RecordedHeadProvenance) :
    (commitConfigurationHead node configuration provenance).Calm :=
  .bind .memory fun _ => .bind (.lift _) fun _ => .bind (.lift _) fun _ => .bind (.perform _) fun _ =>
    .bind (.perform _) fun _ => .bind (.perform _) fun _ => .bind (.perform _) fun _ => .perform _

omit [Sha256] in
theorem calm_recoverConfigurationHeadIntent : recoverConfigurationHeadIntent.Calm := by
  refine .bind .disk fun d => ?_
  cases d.headIntent with
  | none => exact .pure ()
  | some i =>
    exact .bind (.perform _) fun _ => .bind (.perform _) fun _ => .bind (.perform _) fun _ => .perform _

omit [Sha256] in
theorem calm_recoverIntent : (recoverIntent node).Calm := by
  refine .bind calm_recoverConfigurationHeadIntent fun _ => .bind .disk fun d => ?_
  cases d.intent with
  | none => exact .pure ()
  | some i =>
    exact .bind .memory fun _ => .bind (.perform _) fun _ => .bind (.perform _) fun _ =>
      .bind (.lift _) fun _ => .bind (.perform _) fun _ => .bind (.perform _) fun _ =>
      .bind (.perform _) fun _ => .setMemory _

theorem calm_replayWal (w : WalFile) : (replayWal node w).Calm := by
  refine .bind .disk fun _ => .bind .memory fun _ => .bind (.lift _) fun _ => .bind (.lift _) fun _ => ?_
  split
  · exact .bind (.perform _) fun _ => .setMemory _
  · exact .setMemory _

theorem calm_openRest (existingFormat : Bool) :
    (openRest node existingFormat configId membership).Calm := by
  refine .bind ?_ fun _ => .bind (.lift _) fun _ => .bind (.setMemory _) fun _ =>
    .bind calm_recoverIntent fun _ => .bind ?_ fun _ => ?_
  · refine .bind .disk fun d => ?_
    split
    · exact .pure _
    · split
      · exact .lift _
      · exact .bind (calm_commitConfigurationHead _ _) fun _ => .pure _
  · refine .bind .memory fun _ => .bind .disk fun d => ?_
    have hInstall : ∀ configuration head, (installRecordedHead node configuration head).Calm :=
      fun _ _ => .bind .disk fun _ => .bind .memory fun _ => .bind (.lift _) fun _ => .setMemory _
    split
    · exact .bind (.lift _) fun _ => hInstall _ _
    · split
      · exact .lift _
      · exact .bind (.lift _) fun _ => .bind (.perform _) fun _ => hInstall _ _
  · refine .bind .disk fun d => ?_
    split
    · exact calm_replayWal _
    · exact .bind (.perform _) fun _ => .bind (.perform _) fun _ => calm_replayWal _

theorem calm_openWithMembership :
    (openWithMembership node existingOnly configId membership).Calm :=
  .bind .disk fun _ => .bind (.lift _) fun _ => .bind calm_recoverConfigurationHeadIntent fun _ =>
    calm_openRest _

end Open

end Rhiza.Quepaxa
