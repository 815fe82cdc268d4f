import Rhiza.Quepaxa.FileRecorder

/-! # What the store keeps of its files

`Stored` says that the files agree with a replay of the log, and, in the runs
where that is wanted (`strict`), that the store will accept them again. `Live`
says the same of a running store, and `Kept` of a root on which a pending intent
may lie. All of them determine the content of the root.
-/

namespace Rhiza.Quepaxa

open Core Library

section Content

variable [Sha256] (K : StoredCommand → Prop) (node : Identity)

def Keyed (commands : LogHash → Option StoredCommand) : Prop :=
  ∀ hash command, commands hash = some command → command.hash = hash ∧ K command

def TellsApart : Prop := ∀ c c', K c → K c' → c.hash = c'.hash → c = c'

def Backs (slot configId : Nat) (commands : LogHash → Option StoredCommand)
    (value : AcceptedValue) : Prop :=
  ∃ command, commands value.commandHash = some command ∧
    AcceptedValue.fromCommand node.clusterId slot node.epoch configId value.prevHash command = value

structure ReadsBack (commands : LogHash → Option StoredCommand) (slot : Nat)
    (state : RecorderSlotState) : Prop where
  valued : recorderStateValues state ≠ []
  small : sizeOf (encodeRecorderState state) ≤ maxRecorderStateBytes
  backed : ∀ value ∈ recorderStateValues state, Backs node slot state.configId commands value

def Resolved (slots : Nat → Option RecorderSlotState)
    (commands : LogHash → Option StoredCommand) : Prop :=
  ∀ slot state, slots slot = some state → ReadsBack node commands slot state

omit [Sha256] in
structure Owned (configuration : ConfigurationState) (slot : Nat) (state : RecorderSlotState) :
    Prop where
  slot_eq : state.slot = slot
  cluster_eq : state.clusterId = node.clusterId
  epoch_eq : state.epoch = node.epoch
  config_eq : state.configId = configuration.configId
  digest_eq : state.configDigest = configuration.configDigest

omit [Sha256] in
def Evidence (configuration : ConfigurationState) (slots : Nat → Option RecorderSlotState) :
    RecordedHeadProvenance → Prop
  | .empty => True
  | .slotBacked slot => ∃ state, slots slot = some state ∧ Owned node configuration slot state
  | .checkpointBacked stopSlot prefixHash recoveredTip recoveredHash =>
    ∃ predecessor, configuration.predecessor = some predecessor ∧ configuration.activated ∧
      predecessor.stopSlot = stopSlot ∧ predecessor.prefixHash = prefixHash ∧
      stopSlot < recoveredTip ∧ recoveredHash ≠ .zero ∧
      configuration.maxAcceptedOrDecidedSlot = some recoveredTip

def Installed (configuration : ConfigurationState) : Prop :=
  configuration.configDigest ≠ .zero ∧ ∃ membership, configuration.membership = some membership ∧
    configuration.configDigest = membership.digest

structure Content.Good (L : Content) : Prop where
  installed : Installed L.configuration
  keyed : Keyed K L.commands
  resolved : Resolved node L.slots L.commands
  evidence : Evidence node L.configuration L.slots L.head

end Content

section Files

structure WalFrame.Framed (checkpoint : WalCheckpoint) (f : WalFrame) : Prop where
  size : 0 < f.size
  slot : f.slot = f.state.slot
  generation : f.generation ≤ checkpoint.generation

def Disk.commandOf (d : Disk) (hash : LogHash) : Result StoredCommand :=
  okOr .commandUnavailable (d.commands hash)

variable [Sha256] (K : StoredCommand → Prop) (node : Identity)

structure Firm (d : Disk) (c : ConfigurationState) (h : RecordedHead) (frames : List WalFrame) :
    Prop where
  cluster_eq : h.clusterId = node.clusterId
  epoch_eq : h.epoch = node.epoch
  config_eq : h.configId = c.configId
  digest_eq : h.configDigest = c.configDigest
  generation : h.checkpoint.generation ≠ 0
  valid : ∃ s, replayFrames node h.checkpoint d.commandOf (h.start c) frames = .ok s
  evidence : Evidence node c d.slots h.provenance
  keyed : Keyed K d.commands
  resolved : Resolved node d.slots d.commands

structure Stored (strict : Prop) (d : Disk) (c : ConfigurationState) (h : RecordedHead)
    (w : WalFile) (s : Replay) : Prop where
  intent : d.intent = none
  headIntent : d.headIntent = none
  configuration : d.configuration = some c
  head : d.recordedHead = some h
  wal : d.wal = some w
  replayed : replayAll h.checkpoint (h.start c) w.frames = s
  framed : ∀ f ∈ w.frames, f.Framed h.checkpoint
  unchanged : configurationStructureChanged c s.configuration = false
  matched : s.head.recoveredMax = s.configuration.maxAcceptedOrDecidedSlot
  firm : strict → Firm K node d c h w.frames

def Settled (strict : Prop) (L : Content) (d : Disk) : Prop :=
  ∃ c h w s, Stored K node strict d c h w s ∧ s.content d = L

structure Intended (strict : Prop) (L : Content) (d : Disk) (i : TransitionIntent) : Prop where
  intent : d.intent = some i
  headIntent : d.headIntent = none
  slot_eq : i.slot = i.state.slot
  max_eq : i.configuration.maxAcceptedOrDecidedSlot = some i.slot
  valued : recorderStateValues i.state ≠ []
  configured : ∃ c, d.configuration = some c ∧ (strict → Installed c)
  wal : ∃ w, d.wal = some w ∧ (∀ f ∈ w.frames, 0 < f.size) ∧ (strict → w = ⟨[], 0⟩)
  content_eq : ⟨i.configuration, .slotBacked i.slot,
    Function.update d.slots i.slot (some i.state), d.commands⟩ = L
  owned : strict → Owned node i.configuration i.slot i.state
  good : strict → L.Good K node

structure HeadIntended (strict : Prop) (L : Content) (d : Disk) (i : ConfigurationHeadIntent) :
    Prop where
  intent : d.intent = none
  headIntent : d.headIntent = some i
  matched : i.head.provenance.recoveredMax = i.configuration.maxAcceptedOrDecidedSlot
  wal : ∃ w, d.wal = some w ∧ (∀ f ∈ w.frames, 0 < f.size) ∧ (strict → w = ⟨[], 0⟩)
  content_eq : ⟨i.configuration, i.head.provenance, d.slots, d.commands⟩ = L
  cluster_eq : i.head.clusterId = node.clusterId
  epoch_eq : i.head.epoch = node.epoch
  config_eq : i.head.configId = i.configuration.configId
  digest_eq : i.head.configDigest = i.configuration.configDigest
  generation : strict → i.head.checkpoint.generation ≠ 0
  good : strict → L.Good K node

inductive Kept (strict : Prop) (L : Content) (d : Disk) : Prop
  | settled (h : Settled K node strict L d)
  | intended (i : TransitionIntent) (h : Intended K node strict L d i)
  | headIntended (i : ConfigurationHeadIntent) (h : HeadIntended K node strict L d i)

structure Live (strict : Prop) (L : Content) (d : Disk) (m : Memory) : Prop where
  stored : ∃ c h frames, Stored K node strict d c h ⟨frames, 0⟩ m.replay ∧
    h.checkpoint = m.wal.checkpoint
  content_eq : m.content d = L
  working : m.wal.failed = false

end Files

section Replaying

variable {checkpoint : WalCheckpoint} {s s' : Replay} {frames : List WalFrame}

theorem replayAll_induction {P : Replay → Prop} (hStart : P s)
    (hStep : ∀ s f, f ∈ frames → P s → P (s.advance f)) : P (replayAll checkpoint s frames) := by
  induction frames generalizing s with
  | nil => exact hStart
  | cons f rest ih =>
    rw [replayAll, List.foldl_cons]
    refine ih ?_ fun s f hf => hStep s f (List.mem_cons_of_mem _ hf)
    split
    · exact hStart
    · exact hStep s f List.mem_cons_self hStart

theorem frameCount_le_replayAll (checkpoint : WalCheckpoint) (s : Replay) (frames : List WalFrame) :
    s.frameCount ≤ (replayAll checkpoint s frames).frameCount :=
  replayAll_induction (P := fun s' => s.frameCount ≤ s'.frameCount) le_rfl
    fun _ _ _ h => h.trans (Nat.le_succ _)

theorem stale_of_frameCount (h : (replayAll checkpoint s frames).frameCount = s.frameCount) :
    ∀ f ∈ frames, f.generation < checkpoint.generation := by
  induction frames generalizing s with
  | nil => exact fun f hf => by cases hf
  | cons f rest ih =>
    rw [replayAll, List.foldl_cons] at h
    split at h
    · rename_i hStale
      intro f' hf'
      rcases List.mem_cons.mp hf' with rfl | hf'
      · exact hStale
      · exact ih h f' hf'
    · have hLe := frameCount_le_replayAll checkpoint (s.advance f) rest
      change (replayAll checkpoint (s.advance f) rest).frameCount = _ at h
      rw [h] at hLe
      exact absurd hLe (Nat.not_succ_le_self _)

theorem sorted_replayAll (h : Assoc.Sorted s.slots) :
    Assoc.Sorted (replayAll checkpoint s frames).slots :=
  replayAll_induction (P := fun s => Assoc.Sorted s.slots) h fun _ f _ h => h.insert f.slot f.state

theorem distinct_replayAll (h : Assoc.Distinct s.commands) :
    Assoc.Distinct (replayAll checkpoint s frames).commands := by
  refine replayAll_induction (P := fun s => Assoc.Distinct s.commands) h fun s f _ h => ?_
  change Assoc.Distinct (insertCommand s.commands f.command)
  cases f.command with
  | none => exact h
  | some entry => exact h.insertNew entry.1 entry.2

theorem nextSequence_le_replayAll (checkpoint : WalCheckpoint) (s : Replay)
    (frames : List WalFrame) : s.nextSequence ≤ (replayAll checkpoint s frames).nextSequence :=
  replayAll_induction (P := fun s' => s.nextSequence ≤ s'.nextSequence) le_rfl
    fun _ _ _ h => h.trans (Nat.le_succ _)

variable [Sha256] {node : Identity} {cached cached' : LogHash → Result StoredCommand}

omit [Sha256] in
theorem validateAll_eq_ok {check : AcceptedValue → Result Unit} {values : List AcceptedValue} :
    validateAll check values = .ok () ↔ ∀ value ∈ values, check value = .ok () := by
  induction values with
  | nil => simp [validateAll]
  | cons value rest ih => simp [validateAll, unit_bind_ok_iff, ih]

theorem replayFrame_current {f : WalFrame} {commands : List (LogHash × StoredCommand)}
    (hGeneration : f.generation = checkpoint.generation) (hSequence : f.sequence = s.nextSequence)
    (hDigest : f.prevDigest = s.lastDigest) (hOwned : Owned node f.configuration f.slot f.state)
    (hUnchanged : configurationStructureChanged s.configuration f.configuration = false)
    (hCommands : commandsWith s.commands f.command = .ok commands)
    (hValues : ∀ value ∈ recorderStateValues f.state,
      validateExistingValue node cached f.slot f.configuration.configId commands value = .ok ())
    (hHead : f.head = headAfterSlotState s.head f.configuration f.state) :
    replayFrame node checkpoint cached s f = .ok (s.advance f) := by
  obtain ⟨hSlot, hCluster, hEpoch, hConfig, hConfigDigest⟩ := hOwned
  unfold replayFrame
  rw [if_neg (by omega)]
  simp only [unit_bind_ok_iff, checkDecode_eq_ok, decide_eq_true_eq]
  refine ⟨⟨hGeneration, hSequence, hDigest⟩,
    ⟨hSlot, hCluster, hEpoch, hConfig, hConfigDigest, by simp [hUnchanged]⟩, ?_⟩
  rw [hCommands]
  change (validateAll _ _ >>= fun _ => _) = _
  simp only [unit_bind_ok_iff, checkDecode_eq_ok, decide_eq_true_eq]
  refine ⟨validateAll_eq_ok.mpr hValues, hHead, ?_⟩
  rw [commandsWith_eq_ok hCommands]
  rfl

theorem validateExistingValue_mono (hCached : ∀ hash command, cached hash = .ok command →
      cached' hash = .ok command) {slot configId : Nat}
    {commands : List (LogHash × StoredCommand)} {value : AcceptedValue}
    (h : validateExistingValue node cached slot configId commands value = .ok ()) :
    validateExistingValue node cached' slot configId commands value = .ok () := by
  obtain ⟨command, hCommand, h⟩ := bind_ok_iff.mp h
  refine bind_ok_iff.mpr ⟨command, ?_, h⟩
  unfold existingCommand at hCommand ⊢
  split
  · rename_i own hGet
    rw [hGet] at hCommand
    exact hCommand
  · rename_i hGet
    rw [hGet] at hCommand
    exact hCached _ _ hCommand

theorem replayFrame_mono (hCached : ∀ hash command, cached hash = .ok command →
      cached' hash = .ok command) {f : WalFrame}
    (h : replayFrame node checkpoint cached s f = .ok s') :
    replayFrame node checkpoint cached' s f = .ok s' := by
  unfold replayFrame at h ⊢
  split
  · rename_i hStale
    rw [if_pos hStale] at h
    exact h
  · rename_i hStale
    rw [if_neg hStale] at h
    simp only [unit_bind_ok_iff] at h ⊢
    obtain ⟨hChain, hIdentity, h⟩ := h
    refine ⟨hChain, hIdentity, ?_⟩
    obtain ⟨commands, hCommands, h⟩ := bind_ok_iff.mp h
    refine bind_ok_iff.mpr ⟨commands, hCommands, ?_⟩
    simp only [unit_bind_ok_iff] at h ⊢
    obtain ⟨hValues, h⟩ := h
    refine ⟨validateAll_eq_ok.mpr fun value hValue => ?_, h⟩
    exact validateExistingValue_mono hCached (validateAll_eq_ok.mp hValues value hValue)

theorem replayFrames_mono (hCached : ∀ hash command, cached hash = .ok command →
      cached' hash = .ok command)
    (h : replayFrames node checkpoint cached s frames = .ok s') :
    replayFrames node checkpoint cached' s frames = .ok s' := by
  induction frames generalizing s with
  | nil => exact h
  | cons f rest ih =>
    obtain ⟨next, hNext, h⟩ := bind_ok_iff.mp h
    exact bind_ok_iff.mpr ⟨next, replayFrame_mono hCached hNext, ih h⟩

theorem replayFrames_append {f : WalFrame} {s'' : Replay}
    (h : replayFrames node checkpoint cached s frames = .ok s')
    (hLast : replayFrame node checkpoint cached s' f = .ok s'') :
    replayFrames node checkpoint cached s (frames ++ [f]) = .ok s'' := by
  induction frames generalizing s with
  | nil =>
    obtain rfl := Except.ok.inj h
    exact bind_ok_iff.mpr ⟨s'', hLast, rfl⟩
  | cons first rest ih =>
    obtain ⟨next, hNext, h⟩ := bind_ok_iff.mp h
    exact bind_ok_iff.mpr ⟨next, hNext, ih h⟩

theorem replayFrames_stale (h : ∀ f ∈ frames, f.generation < checkpoint.generation) :
    replayFrames node checkpoint cached s frames = .ok s := by
  induction frames with
  | nil => rfl
  | cons f rest ih =>
    refine bind_ok_iff.mpr ⟨s, ?_, ih fun f hf => h f (List.mem_cons_of_mem _ hf)⟩
    exact if_pos (h f List.mem_cons_self)

omit [Sha256] in
theorem Owned.congr {c c' : ConfigurationState} {slot : Nat} {state : RecorderSlotState}
    (h : Owned node c slot state) (hUnchanged : configurationStructureChanged c c' = false) :
    Owned node c' slot state := by
  rw [eq_of_structure_unchanged hUnchanged]
  exact ⟨h.slot_eq, h.cluster_eq, h.epoch_eq, h.config_eq, h.digest_eq⟩

theorem owned_of_replayFrames
    (hOwned : ∀ entry ∈ s.slots, Owned node s.configuration entry.1 entry.2)
    (h : replayFrames node checkpoint cached s frames = .ok s') :
    ∀ entry ∈ s'.slots, Owned node s'.configuration entry.1 entry.2 := by
  induction frames generalizing s with
  | nil =>
    obtain rfl := Except.ok.inj h
    exact hOwned
  | cons f rest ih =>
    obtain ⟨next, hNext, h⟩ := bind_ok_iff.mp h
    refine ih ?_ h
    have hAdvance := replayFrame_eq_ok hNext
    unfold replayFrame at hNext
    split at hNext
    · rename_i hStale
      rw [if_pos hStale] at hAdvance
      rw [hAdvance]
      exact hOwned
    · rename_i hStale
      rw [if_neg hStale] at hAdvance
      simp only [unit_bind_ok_iff, checkDecode_eq_ok, decide_eq_true_eq] at hNext
      obtain ⟨-, ⟨hSlot, hCluster, hEpoch, hConfig, hDigest, hUnchanged⟩, -⟩ := hNext
      rw [hAdvance]
      intro entry hEntry
      rcases Assoc.mem_of_mem_insert hEntry with rfl | hEntry
      · exact ⟨hSlot, hCluster, hEpoch, hConfig, hDigest⟩
      · exact (hOwned entry hEntry).congr (Bool.eq_false_iff.mpr hUnchanged)

end Replaying

section Updates

variable [Sha256] {K : StoredCommand → Prop} {node : Identity} {strict : Prop} {d d' : Disk}
  {c c' : ConfigurationState} {h : RecordedHead} {w : WalFile} {s : Replay} {L : Content}
  {slots : Nat → Option RecorderSlotState} {commands commands' : LogHash → Option StoredCommand}

theorem Backs.mono {slot configId : Nat} {value : AcceptedValue}
    (h : Backs node slot configId commands value)
    (hMore : ∀ hash command, commands hash = some command → commands' hash = some command) :
    Backs node slot configId commands' value := by
  obtain ⟨command, hCommand, hValue⟩ := h
  exact ⟨command, hMore _ _ hCommand, hValue⟩

theorem Resolved.mono (h : Resolved node slots commands)
    (hMore : ∀ hash command, commands hash = some command → commands' hash = some command) :
    Resolved node slots commands' := by
  intro slot state hState
  obtain ⟨hSome, hSmall, hValues⟩ := h slot state hState
  exact ⟨hSome, hSmall, fun value hValue => (hValues value hValue).mono hMore⟩

theorem Resolved.update (h : Resolved node slots commands) {slot : Nat} {state : RecorderSlotState}
    (hReadsBack : ReadsBack node commands slot state) :
    Resolved node (Function.update slots slot (some state)) commands := by
  intro slot' state' hState
  by_cases hSlot : slot' = slot
  · subst hSlot
    rw [Function.update_self] at hState
    obtain rfl := Option.some.inj hState
    exact hReadsBack
  · rw [Function.update_of_ne hSlot] at hState
    exact h slot' state' hState

omit [Sha256] in
theorem Evidence.update {provenance : RecordedHeadProvenance}
    (h : Evidence node c slots provenance) {slot : Nat} {state : RecorderSlotState}
    (hOwned : Owned node c slot state) :
    Evidence node c (Function.update slots slot (some state)) provenance := by
  cases provenance with
  | slotBacked slot' =>
    obtain ⟨old, hOld, hOldOwned⟩ := h
    by_cases hSlot : slot' = slot
    · subst hSlot
      exact ⟨state, Function.update_self .., hOwned⟩
    · exact ⟨old, by rw [Function.update_of_ne hSlot]; exact hOld, hOldOwned⟩
  | _ => exact h

def RecordedHeadProvenance.Covers (provenance : RecordedHeadProvenance)
    (configuration : ConfigurationState) : Prop :=
  ∀ stopSlot prefixHash recoveredTip recoveredHash,
    provenance = .checkpointBacked stopSlot prefixHash recoveredTip recoveredHash →
      configuration.maxAcceptedOrDecidedSlot = some recoveredTip

omit [Sha256] in
theorem Evidence.congr {provenance : RecordedHeadProvenance} (h : Evidence node c slots provenance)
    (hUnchanged : configurationStructureChanged c c' = false) (hCovers : provenance.Covers c') :
    Evidence node c' slots provenance := by
  cases provenance with
  | empty => trivial
  | slotBacked slot =>
    obtain ⟨state, hState, hOwned⟩ := h
    exact ⟨state, hState, hOwned.congr hUnchanged⟩
  | checkpointBacked stopSlot prefixHash recoveredTip recoveredHash =>
    obtain ⟨predecessor, hPredecessor, hActive, hStop, hPrefix, hTip, hHash, -⟩ := h
    have hMax := hCovers _ _ _ _ rfl
    rw [eq_of_structure_unchanged hUnchanged]
    exact ⟨predecessor, hPredecessor, hActive, hStop, hPrefix, hTip, hHash, hMax⟩

theorem Firm.withCommands {frames : List WalFrame} (hf : Firm K node d c h frames)
    (hMore : ∀ hash command, d.commands hash = some command → commands hash = some command)
    (hKeyed : Keyed K commands) : Firm K node { d with commands := commands } c h frames := by
  refine { hf with
    valid := ?_, evidence := hf.evidence, keyed := hKeyed, resolved := hf.resolved.mono hMore }
  obtain ⟨s, hs⟩ := hf.valid
  refine ⟨s, replayFrames_mono (fun hash command hCommand => ?_) hs⟩
  exact okOr_eq_ok.mpr (hMore _ _ (okOr_eq_ok.mp hCommand))

theorem Firm.withSlot {frames : List WalFrame} (hf : Firm K node d c h frames) {slot : Nat}
    {state : RecorderSlotState} (hOwned : Owned node c slot state)
    (hReadsBack : ReadsBack node d.commands slot state) :
    Firm K node { d with slots := Function.update d.slots slot (some state) } c h frames :=
  { hf with
    valid := hf.valid
    evidence := hf.evidence.update hOwned
    keyed := hf.keyed
    resolved := hf.resolved.update hReadsBack }

namespace Stored

theorem content_eq (hs : Stored K node strict d c h w s) : d.content = s.content d := by
  rw [← hs.replayed]
  simp only [Disk.content, hs.intent, hs.headIntent, hs.configuration, hs.head, Disk.frames, hs.wal]
  rfl

theorem sorted (hs : Stored K node strict d c h w s) : Assoc.Sorted s.slots := by
  rw [← hs.replayed]
  exact sorted_replayAll List.Pairwise.nil

theorem distinct (hs : Stored K node strict d c h w s) : Assoc.Distinct s.commands := by
  rw [← hs.replayed]
  exact distinct_replayAll List.Pairwise.nil

theorem slot_of_mem (hs : Stored K node strict d c h w s) : ∀ entry ∈ s.slots, entry.2.slot = entry.1 := by
  rw [← hs.replayed]
  have hStart : ∀ entry ∈ (h.start c).slots, entry.2.slot = entry.1 :=
    fun entry hEntry => absurd hEntry List.not_mem_nil
  refine replayAll_induction (P := fun s => ∀ entry ∈ s.slots, entry.2.slot = entry.1) hStart ?_
  intro s f hf hSlots entry hEntry
  rcases Assoc.mem_of_mem_insert hEntry with rfl | hEntry
  · exact (hs.framed f hf).slot.symm
  · exact hSlots entry hEntry

theorem valid (hs : Stored K node strict d c h w s) (hStrict : strict) :
    replayFrames node h.checkpoint d.commandOf (h.start c) w.frames = .ok s := by
  obtain ⟨s', hValid⟩ := (hs.firm hStrict).valid
  rw [hValid, replayFrames_eq_ok hValid, hs.replayed]

theorem owned (hs : Stored K node strict d c h w s) (hStrict : strict) :
    ∀ entry ∈ s.slots, Owned node s.configuration entry.1 entry.2 :=
  owned_of_replayFrames (fun _ hEntry => by cases hEntry) (hs.valid hStrict)

theorem eq_start (hs : Stored K node strict d c h w s) (hCount : s.frameCount = 0) :
    (∀ f ∈ w.frames, f.generation < h.checkpoint.generation) ∧ s = h.start c := by
  have hStale : ∀ f ∈ w.frames, f.generation < h.checkpoint.generation := by
    refine stale_of_frameCount (s := h.start c) ?_
    rw [hs.replayed, hCount]
    rfl
  refine ⟨hStale, ?_⟩
  rw [← hs.replayed, replayAll_stale hStale]

theorem nextSequence_pos (hs : Stored K node strict d c h w s) : 0 < s.nextSequence := by
  rw [← hs.replayed]
  exact (Nat.succ_pos h.checkpoint.throughSequence).trans_le
    (nextSequence_le_replayAll h.checkpoint (h.start c) w.frames)

theorem weaken {strict' : Prop} (hs : Stored K node strict d c h w s) (hWeak : strict' → strict) :
    Stored K node strict' d c h w s :=
  { hs with firm := fun h' => hs.firm (hWeak h') }

theorem withCommands (hs : Stored K node strict d c h w s)
    (hFirm : strict → (∀ hash command, d.commands hash = some command →
      commands hash = some command) ∧ Keyed K commands) :
    Stored K node strict { d with commands := commands } c h w s :=
  { hs with firm := fun hStrict => (hs.firm hStrict).withCommands (hFirm hStrict).1 (hFirm hStrict).2 }

theorem withSlot (hs : Stored K node strict d c h w s) {slot : Nat} {state : RecorderSlotState}
    (hEntry : (slot, state) ∈ s.slots)
    (hFirm : strict → ReadsBack node d.commands slot state) :
    Stored K node strict { d with slots := Function.update d.slots slot (some state) } c h w s where
  __ := hs
  firm hStrict := by
    have hOwned := hs.owned hStrict _ hEntry
    have hUnchanged : configurationStructureChanged s.configuration c = false := by
      have hChanged := hs.unchanged
      simp only [configurationStructureChanged, decide_eq_false_iff_not, not_or, not_not] at hChanged ⊢
      simp [hChanged]
    exact (hs.firm hStrict).withSlot (hOwned.congr hUnchanged) (hFirm hStrict)

end Stored

omit [Sha256] in
theorem RecordedHeadProvenance.recover_of_eq {provenance : RecordedHeadProvenance}
    {configuration : ConfigurationState}
    (h : provenance.recoveredMax = configuration.maxAcceptedOrDecidedSlot) :
    provenance.recover configuration = configuration := by
  rw [recover, h]

omit [Sha256] in
theorem headAfterSlotState_of_max (current : RecordedHeadProvenance)
    {configuration : ConfigurationState} {state : RecorderSlotState}
    (hMax : configuration.maxAcceptedOrDecidedSlot = some state.slot)
    (hValued : recorderStateValues state ≠ []) :
    headAfterSlotState current configuration state = .slotBacked state.slot :=
  if_pos ⟨hMax, hValued⟩

theorem Kept.content_eq (h : Kept K node strict L d) : d.content = L := by
  cases h with
  | settled h =>
    obtain ⟨c, head, w, s, hs, rfl⟩ := h
    exact hs.content_eq
  | intended i h =>
    rw [← h.content_eq]
    simp only [Disk.content, h.intent,
      headAfterSlotState_of_max .empty (h.max_eq.trans (congrArg some h.slot_eq)) h.valued]
    rw [RecordedHeadProvenance.recover_of_eq, h.slot_eq]
    exact (h.max_eq.trans (congrArg some h.slot_eq)).symm
  | headIntended i h =>
    rw [← h.content_eq]
    simp only [Disk.content, h.intent, h.headIntent]
    rw [RecordedHeadProvenance.recover_of_eq h.matched]

end Updates

end Rhiza.Quepaxa
