import Rhiza.Quepaxa.Durability

/-! # The durable steps of a running store

For each part of an operation: what it leaves when it ends well, when a step
returns an error, and when the process stops. `F` stands for the disturbances
that may happen, `strict` for the runs in which every root must open again.
-/

namespace Rhiza.Quepaxa

open Core Library

def Errs (F : Faults Site) : Prop := ∃ site n, F site false n

def leavesIntent : Site → Bool → Nat → Prop
  | .intentWrite, _, n => n ≠ 0
  | .headIntentWrite, _, n => n ≠ 0
  | .transitionSlot, _, _ => True
  | .transitionConfiguration, _, _ => True
  | .transitionHead, _, _ => True
  | .commitConfiguration, _, _ => True
  | .commitHead, _, _ => True
  | .intentRemove, crash, n => crash = false ∨ n = 0
  | .headIntentRemove, crash, n => crash = false ∨ n = 0
  | _, _, _ => False

def splitsCheckpoint : Site → Bool → Nat → Prop
  | .checkpointConfiguration, crash, n => crash = true ∧ n ≠ 0
  | .checkpointHead, _, n => n = 0
  | _, _, _ => False

def splitsMemory : Site → Bool → Nat → Prop
  | .checkpointHead, crash, n => crash = false ∧ n ≠ 0
  | .headIntentWrite, crash, n => crash = false ∧ n ≠ 0
  | .transitionSync, crash, _ => crash = false
  | .recoverSync, crash, _ => crash = false
  | .commitConfiguration, crash, _ => crash = false
  | .commitHead, crash, _ => crash = false
  | .headIntentRemove, crash, _ => crash = false
  | .commitSync, crash, _ => crash = false
  | .recoverHeadConfiguration, crash, _ => crash = false
  | .recoverHeadHead, crash, _ => crash = false
  | .recoverHeadRemove, crash, _ => crash = false
  | .recoverHeadSync, crash, _ => crash = false
  | _, _, _ => False

structure Harmless (strict : Prop) (F : Faults Site) (d : Disk) (m : Memory) : Prop where
  joined : ∀ site crash n, F site crash n → ¬ splitsMemory site crash n
  covered : strict → ∀ site crash n, F site crash n → splitsCheckpoint site crash n →
    m.wal.frameCount ≠ 0 → ∀ head, d.recordedHead = some head →
      head.provenance.Covers m.configuration
  clean : strict → ∀ site crash n, F site crash n → leavesIntent site crash n →
    m.wal.frameCount = 0 → d.wal = some ⟨[], 0⟩

section Checkpoint

section States

variable [Sha256] (K : StoredCommand → Prop) (node : Identity)

/-- An intent that an error left behind a running store, whose memory is older. -/
structure Pending (strict : Prop) (L : Content) (d : Disk) (m : Memory) (i : TransitionIntent) :
    Prop where
  intended : Intended K node strict L d i
  start : m.wal = ⟨m.wal.checkpoint, m.wal.checkpoint.throughSequence + 1, .zero, 0,
    m.wal.byteCount, [], [], false⟩
  wal : ∃ frames, d.wal = some ⟨frames, 0⟩ ∧ ∀ f ∈ frames, f.Framed m.wal.checkpoint ∧
    f.generation < m.wal.checkpoint.generation
  generation : strict → m.wal.checkpoint.generation ≠ 0

omit [Sha256] in
structure Trails (L : Content) (d : Disk) (m : Memory) : Prop where
  commands : ∀ hash command, Assoc.layered m.wal.commands d.commands hash = some command →
    L.commands hash = some command
  decided : ∀ slot state, Assoc.layered m.wal.slots d.slots slot = some state →
    state.decidedProof ≠ none → L.slots slot = some state
  configuration : configurationStructureChanged m.configuration L.configuration = false

inductive Standing (F : Faults Site) (strict : Prop) (L : Content) (d : Disk) (m : Memory) : Prop
  | live (h : Live K node strict L d m)
  | failed (hErrs : Errs F) (hFailed : m.wal.failed = true) (hTrails : strict → Trails L d m)
      (h : Settled K node strict L d)
  | pending (hErrs : Errs F) (i : TransitionIntent) (h : Pending K node strict L d m i)

end States

variable [Sha256] {K : StoredCommand → Prop} {node : Identity} {strict : Prop} {F : Faults Site}
  {L : Content} {d : Disk} {m : Memory}

theorem Live.settled (h : Live K node strict L d m) : Settled K node strict L d := by
  obtain ⟨⟨c, head, frames, hs, -⟩, hContent, -⟩ := h
  exact ⟨c, head, ⟨frames, 0⟩, m.replay, hs, hContent⟩

theorem Live.configuration_eq (h : Live K node strict L d m) : m.configuration = L.configuration :=
  congrArg Content.configuration h.content_eq

theorem Live.head_eq (h : Live K node strict L d m) : m.recordedHead = L.head :=
  congrArg Content.head h.content_eq

theorem Live.slots_eq (h : Live K node strict L d m) :
    Assoc.layered m.wal.slots d.slots = L.slots :=
  congrArg Content.slots h.content_eq

theorem Live.commands_eq (h : Live K node strict L d m) :
    Assoc.layered m.wal.commands d.commands = L.commands :=
  congrArg Content.commands h.content_eq

theorem Live.trails (h : Live K node strict L d m) : Trails L d m := by
  refine ⟨fun hash command hCommand => ?_, fun slot state hState _ => ?_, ?_⟩
  · rwa [h.commands_eq] at hCommand
  · rwa [h.slots_eq] at hState
  · rw [h.configuration_eq]
    simp [configurationStructureChanged]

omit [Sha256] in
theorem Trails.congr {d' : Disk} {m' : Memory} (h : Trails L d m) (hSlots : d'.slots = d.slots)
    (hCommands : d'.commands = d.commands) (hMemory : m'.wal.slots = m.wal.slots)
    (hStaged : m'.wal.commands = m.wal.commands) (hConfiguration : m'.configuration = m.configuration) :
    Trails L d' m' := by
  refine ⟨?_, ?_, ?_⟩
  · rw [hCommands, hStaged]
    exact h.commands
  · rw [hSlots, hMemory]
    exact h.decided
  · rw [hConfiguration]
    exact h.configuration

theorem Live.weaken {strict' : Prop} (h : Live K node strict L d m) (hWeak : strict' → strict) :
    Live K node strict' L d m := by
  obtain ⟨⟨c, head, frames, hs, hCheckpoint⟩, hContent, hWorking⟩ := h
  exact ⟨⟨c, head, frames, hs.weaken hWeak, hCheckpoint⟩, hContent, hWorking⟩

theorem Live.commandFile (h : Live K node strict L d m) (hK : TellsApart K)
    (hGood : strict → L.Good K node) {hash : LogHash} {command : StoredCommand}
    (hGet : Assoc.get m.wal.commands hash = some command) :
    Live K node strict L { d with commands := Function.update d.commands hash (some command) } m := by
  have hHere : L.commands hash = some command := by
    rw [← h.commands_eq, Assoc.layered, hGet]
    rfl
  obtain ⟨⟨c, head, frames, hs, hCheckpoint⟩, hContent, hWorking⟩ := h
  refine ⟨⟨c, head, frames, hs.withCommands fun hStrict => ?_, hCheckpoint⟩, ?_, hWorking⟩
  · obtain ⟨hHash, hKnown⟩ := (hGood hStrict).keyed _ _ hHere
    have hOld := (hs.firm hStrict).keyed
    constructor
    · intro hash' old hOldHere
      by_cases hSame : hash' = hash
      · subst hSame
        obtain ⟨hOldHash, hOldKnown⟩ := hOld _ _ hOldHere
        rw [Function.update_self, hK old command hOldKnown hKnown (hOldHash.trans hHash.symm)]
      · rw [Function.update_of_ne hSame]
        exact hOldHere
    · intro hash' command' hCommand
      by_cases hSame : hash' = hash
      · subst hSame
        rw [Function.update_self] at hCommand
        obtain rfl := Option.some.inj hCommand
        exact ⟨hHash, hKnown⟩
      · rw [Function.update_of_ne hSame] at hCommand
        exact hOld _ _ hCommand
  · rw [← hContent]
    change Content.mk _ _ _ (Assoc.layered m.wal.commands _) = Content.mk _ _ _ _
    rw [Assoc.layered_update hGet]
    rfl

theorem Live.slotFile (h : Live K node strict L d m) (hGood : strict → L.Good K node)
    (hCommands : d.commands = L.commands) {slot : Nat} {state : RecorderSlotState}
    (hGet : Assoc.get m.wal.slots slot = some state) :
    Live K node strict L { d with slots := Function.update d.slots slot (some state) } m := by
  have hHere : L.slots slot = some state := by
    rw [← h.slots_eq, Assoc.layered, hGet]
    rfl
  obtain ⟨⟨c, head, frames, hs, hCheckpoint⟩, hContent, hWorking⟩ := h
  refine ⟨⟨c, head, frames, hs.withSlot (Assoc.mem_of_get hGet) fun hStrict => ?_, hCheckpoint⟩, ?_,
    hWorking⟩
  · rw [hCommands]
    exact (hGood hStrict).resolved slot state hHere
  · rw [← hContent]
    change Content.mk _ _ (Assoc.layered m.wal.slots _) _ = Content.mk _ _ _ _
    rw [Assoc.layered_update hGet]
    rfl

theorem Live.configurationFile (h : Live K node strict L d m) {head : RecordedHead}
    (hHead : d.recordedHead = some head) :
    Live K node (strict ∧ head.provenance.Covers m.configuration) L
      { d with configuration := some m.configuration } m := by
  obtain ⟨⟨c, head', frames, hs, hCheckpoint⟩, hContent, hWorking⟩ := h
  obtain rfl := Option.some.inj (hHead.symm.trans hs.head)
  have hStart : head.start m.configuration = head.start c := by
    have hSame : m.configuration =
        { c with maxAcceptedOrDecidedSlot := m.configuration.maxAcceptedOrDecidedSlot } :=
      eq_of_structure_unchanged hs.unchanged
    unfold RecordedHead.start RecordedHeadProvenance.recover
    rw [hSame]
  refine ⟨⟨m.configuration, head, frames, ?_, hCheckpoint⟩, hContent, hWorking⟩
  refine ⟨hs.intent, hs.headIntent, rfl, hs.head, hs.wal, ?_, hs.framed, ?_, hs.matched, ?_⟩
  · rw [hStart]
    exact hs.replayed
  · simp [configurationStructureChanged, Memory.replay]
  · rintro ⟨hStrict, hCovers⟩
    have hFirm := hs.firm hStrict
    have hUnchanged : configurationStructureChanged c m.configuration = false := hs.unchanged
    have hSame := eq_of_structure_unchanged hUnchanged
    refine ⟨hFirm.cluster_eq, hFirm.epoch_eq, ?_, ?_, hFirm.generation, ?_,
      hFirm.evidence.congr hUnchanged hCovers, hFirm.keyed, hFirm.resolved⟩
    · rw [hSame]
      exact hFirm.config_eq
    · rw [hSame]
      exact hFirm.digest_eq
    · rw [hStart]
      exact hFirm.valid

def Memory.emptied (m : Memory) : Memory := { m with wal := m.wal.emptied }

theorem Live.headFile {strict' : Prop} (h : Live K node strict' L d m)
    (hGood : strict → L.Good K node) (hConfiguration : d.configuration = some m.configuration)
    (hSlots : d.slots = L.slots) (hCommands : d.commands = L.commands) {head : RecordedHead}
    (hHead : node.head m.configuration m.recordedHead m.wal.nextCheckpoint = .ok head) :
    Live K node strict L { d with recordedHead := some head } m.emptied := by
  have hSame := h.configuration_eq
  have hProvenance := h.head_eq
  obtain ⟨⟨c, head', frames, hs, hCheckpoint⟩, hContent, hWorking⟩ := h
  obtain rfl := encodeRecordedHead_eq_ok hHead
  have hStale : ∀ f ∈ frames, f.generation < m.wal.nextCheckpoint.generation := by
    intro f hf
    have := (hs.framed f hf).generation
    rw [hCheckpoint] at this
    exact Nat.lt_succ_of_le this
  have hMatched : m.recordedHead.recover m.configuration = m.configuration := by
    have := hs.matched
    change m.recordedHead.recoveredMax = m.configuration.maxAcceptedOrDecidedSlot at this
    rw [RecordedHeadProvenance.recover, this]
  have hStart : RecordedHead.start ⟨node.clusterId, node.epoch, m.configuration.configId,
      m.configuration.configDigest, m.recordedHead, m.wal.nextCheckpoint⟩ m.configuration =
      m.emptied.replay := by
    have hPos := hs.nextSequence_pos
    change 0 < m.wal.nextSequence at hPos
    unfold RecordedHead.start
    rw [hMatched]
    simp only [Replay.start, Memory.replay, Memory.emptied, RecorderWal.emptied,
      RecorderWal.nextCheckpoint, Replay.mk.injEq, and_true]
    omega
  refine ⟨⟨m.configuration, ⟨node.clusterId, node.epoch, m.configuration.configId,
    m.configuration.configDigest, m.recordedHead, m.wal.nextCheckpoint⟩, frames, ?_, rfl⟩, ?_, hWorking⟩
  · refine ⟨hs.intent, hs.headIntent, hConfiguration, rfl, hs.wal, ?_, ?_, ?_, hs.matched, ?_⟩
    · rw [replayAll_stale hStale, hStart]
    · intro f hf
      exact { hs.framed f hf with generation := (hStale f hf).le }
    · simp [configurationStructureChanged, Memory.replay, Memory.emptied]
    · intro hStrict
      have hL := hGood hStrict
      refine ⟨rfl, rfl, rfl, rfl, Nat.succ_ne_zero _, ⟨_, replayFrames_stale hStale⟩, ?_, ?_, ?_⟩
      · change Evidence node m.configuration d.slots m.recordedHead
        rw [hSame, hProvenance, hSlots]
        exact hL.evidence
      · change Keyed K d.commands
        rw [hCommands]
        exact hL.keyed
      · change Resolved node d.slots d.commands
        rw [hSlots, hCommands]
        exact hL.resolved
  · change Content.mk m.configuration m.recordedHead d.slots d.commands = L
    rw [hSame, hProvenance, hSlots, hCommands]

theorem Live.truncate (h : Live K node strict L d m) (hCount : m.wal.frameCount = 0) :
    Live K node strict L { d with wal := some ⟨[], 0⟩ } m := by
  obtain ⟨⟨c, head, frames, hs, hCheckpoint⟩, hContent, hWorking⟩ := h
  obtain ⟨hStale, hStart⟩ := hs.eq_start hCount
  refine ⟨⟨c, head, [], ?_, hCheckpoint⟩, hContent, hWorking⟩
  refine ⟨hs.intent, hs.headIntent, hs.configuration, hs.head, rfl, hStart.symm, ?_, hs.unchanged,
    hs.matched, fun hStrict => ?_⟩
  · intro f hf
    cases hf
  · have hFirm := hs.firm hStrict
    exact ⟨hFirm.cluster_eq, hFirm.epoch_eq, hFirm.config_eq, hFirm.digest_eq, hFirm.generation,
      ⟨head.start c, rfl⟩, hFirm.evidence, hFirm.keyed, hFirm.resolved⟩

structure Setting (K : StoredCommand → Prop) (node : Identity) (strict : Prop) (L : Content) :
    Prop where
  apart : TellsApart K
  fits : strict → (utf8 node.clusterId).length ≤ 65535
  good : strict → L.Good K node

omit [Sha256] in
theorem head_ok (hFits : (utf8 node.clusterId).length ≤ 65535) (configuration : ConfigurationState)
    (provenance : RecordedHeadProvenance) (checkpoint : WalCheckpoint) :
    ∃ head, node.head configuration provenance checkpoint = .ok head := by
  simp only [Identity.head, encodeRecordedHead, putBytes, if_pos hFits]
  exact ⟨_, rfl⟩

theorem checkpointCommands_triple (hSetting : Setting K node strict L) (m₀ : Memory)
    (head₀ : Option RecordedHead) :
    Triple F (fun d m => m = m₀ ∧ d.recordedHead = head₀ ∧ Live K node strict L d m₀)
      (Program.performAll (fun entry : LogHash × StoredCommand =>
        FileStep.replace .checkpointCommand fun d =>
          { d with commands := Function.update d.commands entry.1 (some entry.2) }) m₀.wal.commands)
      (fun _ d m => m = m₀ ∧ d.recordedHead = head₀ ∧ Live K node strict L d m₀ ∧
        d.commands = L.commands)
      (fun _ d m => Standing K node F strict L d m)
      (fun d => Settled K node strict L d) := by
  -- what is not yet written still lies over the files
  refine Triple.conseq (Triple.performAll (I := fun rest d m => m = m₀ ∧ d.recordedHead = head₀ ∧
    Live K node strict L d m₀ ∧ Assoc.layered rest d.commands = L.commands ∧ Assoc.Distinct rest ∧
    ∀ entry ∈ rest, Assoc.get m₀.wal.commands entry.1 = some entry.2) ?_ ?_ ?_) ?_ ?_
    (fun _ _ _ h => h) (fun _ h => h)
  · rintro d m ⟨hash, command⟩ rest ⟨rfl, hHead, hLive, hOver, hDistinct, hGet⟩
    refine ⟨rfl, hHead, hLive.commandFile hSetting.apart hSetting.good (hGet _ List.mem_cons_self),
      ?_, (List.pairwise_cons.mp hDistinct).2, fun entry hEntry => hGet entry
        (List.mem_cons_of_mem _ hEntry)⟩
    rw [← hOver]
    exact Assoc.layered_update_cons hDistinct d.commands
  · rintro d m ⟨hash, command⟩ rest n - ⟨rfl, -, hLive, -, -, hGet⟩
    change Settled K node strict L (if n = 0 then d else _)
    split
    · exact hLive.settled
    · exact (hLive.commandFile hSetting.apart hSetting.good (hGet _ List.mem_cons_self)).settled
  · rintro d m entry rest n message - ⟨rfl, -, hLive, -⟩
    exact .live hLive
  · rintro d m ⟨rfl, hHead, hLive⟩
    obtain ⟨c, head, frames, hs, -⟩ := hLive.stored
    exact ⟨rfl, hHead, hLive, hLive.commands_eq, hs.distinct,
      fun entry hEntry => Assoc.get_of_mem hs.distinct hEntry⟩
  · rintro - d m ⟨rfl, hHead, hLive, hOver, -⟩
    exact ⟨rfl, hHead, hLive, hOver⟩

theorem checkpointSlots_triple (hSetting : Setting K node strict L) (m₀ : Memory)
    (head₀ : Option RecordedHead) :
    Triple F (fun d m => m = m₀ ∧ d.recordedHead = head₀ ∧ Live K node strict L d m₀ ∧
        d.commands = L.commands)
      (Program.performAll (fun entry : Nat × RecorderSlotState =>
        FileStep.replace .checkpointSlot fun d =>
          { d with slots := Function.update d.slots entry.1 (some entry.2) }) m₀.wal.slots)
      (fun _ d m => m = m₀ ∧ d.recordedHead = head₀ ∧ Live K node strict L d m₀ ∧
        d.commands = L.commands ∧ d.slots = L.slots)
      (fun _ d m => Standing K node F strict L d m)
      (fun d => Settled K node strict L d) := by
  refine Triple.conseq (Triple.performAll (I := fun rest d m => m = m₀ ∧ d.recordedHead = head₀ ∧
    Live K node strict L d m₀ ∧ d.commands = L.commands ∧ Assoc.layered rest d.slots = L.slots ∧
    Assoc.Distinct rest ∧ ∀ entry ∈ rest, Assoc.get m₀.wal.slots entry.1 = some entry.2) ?_ ?_ ?_)
    ?_ ?_ (fun _ _ _ h => h) (fun _ h => h)
  · rintro d m ⟨slot, state⟩ rest ⟨rfl, hHead, hLive, hCommands, hOver, hDistinct, hGet⟩
    refine ⟨rfl, hHead, hLive.slotFile hSetting.good hCommands (hGet _ List.mem_cons_self), hCommands,
      ?_, (List.pairwise_cons.mp hDistinct).2, fun entry hEntry => hGet entry
        (List.mem_cons_of_mem _ hEntry)⟩
    rw [← hOver]
    exact Assoc.layered_update_cons hDistinct d.slots
  · rintro d m ⟨slot, state⟩ rest n - ⟨rfl, -, hLive, hCommands, -, -, hGet⟩
    change Settled K node strict L (if n = 0 then d else _)
    split
    · exact hLive.settled
    · exact (hLive.slotFile hSetting.good hCommands (hGet _ List.mem_cons_self)).settled
  · rintro d m entry rest n message - ⟨rfl, -, hLive, -⟩
    exact .live hLive
  · rintro d m ⟨rfl, hHead, hLive, hCommands⟩
    obtain ⟨c, head, frames, hs, -⟩ := hLive.stored
    exact ⟨rfl, hHead, hLive, hCommands, hLive.slots_eq, hs.sorted.distinct,
      fun entry hEntry => Assoc.get_of_mem hs.sorted.distinct hEntry⟩
  · rintro - d m ⟨rfl, hHead, hLive, hCommands, hOver, -⟩
    exact ⟨rfl, hHead, hLive, hCommands, hOver⟩

theorem checkpointFiles_triple (hSetting : Setting K node strict L) (m₀ : Memory)
    (head₀ : RecordedHead) (hJoined : ∀ site crash n, F site crash n → ¬ splitsMemory site crash n)
    (hCovered : strict → ∀ site crash n, F site crash n → splitsCheckpoint site crash n →
      head₀.provenance.Covers m₀.configuration) :
    Triple F (fun d m => m = m₀ ∧ d.recordedHead = some head₀ ∧ Live K node strict L d m₀)
      (checkpointFiles node m₀)
      (fun _ d m => Live K node strict L d m ∧ m.wal.frameCount = 0 ∧ d.wal = some ⟨[], 0⟩)
      (fun _ d m => Standing K node F strict L d m)
      (fun d => Settled K node strict L d) := by
  refine (checkpointCommands_triple hSetting m₀ (some head₀)).bind fun _ => ?_
  refine (checkpointSlots_triple hSetting m₀ (some head₀)).bind fun _ => ?_
  refine Triple.bind (Q := fun _ d m => m = m₀ ∧ d.recordedHead = some head₀ ∧
    Live K node strict L d m₀ ∧ d.commands = L.commands ∧ d.slots = L.slots)
    (Triple.lift (fun _ _ _ _ h => h) ?_) fun _ => ?_
  · rintro e d m - ⟨rfl, -, hLive, -⟩
    exact .live hLive
  -- the head is still the old one, so the new configuration may not go with it
  refine Triple.bind (Q := fun _ d m => m = m₀ ∧ d.configuration = some m₀.configuration ∧
    Live K node (strict ∧ head₀.provenance.Covers m₀.configuration) L d m₀ ∧
    d.commands = L.commands ∧ d.slots = L.slots) (Triple.perform ?_ ?_ ?_) fun _ => ?_
  · rintro d m ⟨rfl, hHead, hLive, hCommands, hSlots⟩
    exact ⟨rfl, rfl, hLive.configurationFile hHead, hCommands, hSlots⟩
  · rintro d m n hF ⟨rfl, hHead, hLive, -⟩
    change Settled K node strict L (if n = 0 then d else _)
    split
    · exact hLive.settled
    · rename_i hn
      exact ((hLive.configurationFile hHead).weaken fun hStrict =>
        ⟨hStrict, hCovered hStrict _ _ _ hF ⟨rfl, hn⟩⟩).settled
  · rintro d m n message - ⟨rfl, -, hLive, -⟩
    exact .live hLive
  refine Triple.bind (Q := fun head d m => m = m₀ ∧ d.configuration = some m₀.configuration ∧
    Live K node (strict ∧ head₀.provenance.Covers m₀.configuration) L d m₀ ∧
    d.commands = L.commands ∧ d.slots = L.slots ∧
    node.head m₀.configuration m₀.recordedHead m₀.wal.nextCheckpoint = .ok head)
    (Triple.lift ?_ ?_) fun head => ?_
  · rintro head d m hHead ⟨rfl, hConfiguration, hLive, hCommands, hSlots⟩
    exact ⟨rfl, hConfiguration, hLive, hCommands, hSlots, hHead⟩
  · rintro e d m hError ⟨rfl, -, hLive, -⟩
    refine .live (hLive.weaken fun hStrict => ?_)
    obtain ⟨head, hHead⟩ := head_ok (hSetting.fits hStrict) m.configuration m.recordedHead
      m.wal.nextCheckpoint
    cases hHead.symm.trans hError
  refine Triple.bind (Q := fun _ d m => m = m₀ ∧ Live K node strict L d m₀.emptied ∧ Trails L d m₀)
    (Triple.perform ?_ ?_ ?_) fun _ => ?_
  · rintro d m ⟨rfl, hConfiguration, hLive, hCommands, hSlots, hHead⟩
    exact ⟨rfl, hLive.headFile hSetting.good hConfiguration hSlots hCommands hHead,
      hLive.trails.congr rfl rfl rfl rfl rfl⟩
  · rintro d m n hF ⟨rfl, hConfiguration, hLive, hCommands, hSlots, hHead⟩
    change Settled K node strict L (if n = 0 then d else _)
    split
    · rename_i hn
      exact (hLive.weaken fun hStrict => ⟨hStrict, hCovered hStrict _ _ _ hF hn⟩).settled
    · exact (hLive.headFile hSetting.good hConfiguration hSlots hCommands hHead).settled
  · rintro d m n message hF ⟨rfl, -, hLive, -⟩
    change Standing K node F strict L (if n = 0 then d else _) m
    split
    · rename_i hn
      exact .live (hLive.weaken fun hStrict => ⟨hStrict, hCovered hStrict _ _ _ hF hn⟩)
    · rename_i hn
      exact absurd ⟨rfl, hn⟩ (hJoined _ _ _ hF)
  refine Triple.bind (Q := fun _ d m => m = m₀ ∧ Live K node strict L d m₀.emptied ∧
    d.wal = some ⟨[], 0⟩) (Triple.onError (Triple.perform ?_ ?_ ?_)) fun _ => ?_
  · rintro d m ⟨rfl, hLive, -⟩
    exact ⟨rfl, hLive.truncate rfl, rfl⟩
  · rintro d m n - ⟨rfl, hLive, -⟩
    change Settled K node strict L (if n = 0 then d else _)
    split
    · exact hLive.settled
    · exact (hLive.truncate rfl).settled
  · rintro d m n message hF ⟨rfl, hLive, hTrails⟩
    refine .failed ⟨_, _, hF⟩ rfl (fun _ => ?_) ?_
    · refine hTrails.congr ?_ ?_ rfl rfl rfl
      · change Disk.slots (if n = 0 then d else _) = _
        split <;> rfl
      · change Disk.commands (if n = 0 then d else _) = _
        split <;> rfl
    · change Settled K node strict L (if n = 0 then d else _)
      split
      · exact hLive.settled
      · exact (hLive.truncate rfl).settled
  · refine Triple.setMemory ?_
    rintro d m ⟨rfl, hLive, hWal⟩
    exact ⟨hLive, rfl, hWal⟩

def Clean (F : Faults Site) (strict : Prop) (d : Disk) : Prop :=
  strict → ∀ site crash n, F site crash n → leavesIntent site crash n → d.wal = some ⟨[], 0⟩

theorem checkpointWal_triple (hSetting : Setting K node strict L) :
    Triple F (fun d m => Live K node strict L d m ∧ Harmless strict F d m) (checkpointWal node)
      (fun _ d m => Live K node strict L d m ∧ m.wal.frameCount = 0 ∧ Clean F strict d)
      (fun _ d m => Standing K node F strict L d m)
      (fun d => Settled K node strict L d) := by
  refine Triple.bind (Q := fun m₀ d m => m = m₀ ∧ Live K node strict L d m ∧ Harmless strict F d m)
    (Triple.memory fun d m h => ⟨rfl, h⟩) fun m₀ => ?_
  by_cases hFailed : m₀.wal.failed
  · rw [if_pos hFailed]
    refine Triple.fail ?_
    rintro d m ⟨rfl, hLive, -⟩
    exact .live hLive
  · rw [if_neg hFailed]
    by_cases hCount : m₀.wal.frameCount = 0
    · rw [if_pos hCount]
      refine Triple.pure ?_
      rintro d m ⟨rfl, hLive, hHarmless⟩
      exact ⟨hLive, hCount, fun hStrict site crash n hF hLeaves =>
        hHarmless.clean hStrict site crash n hF hLeaves hCount⟩
    · rw [if_neg hCount]
      intro d m fault hAllow hHere
      obtain ⟨rfl, hLive, hHarmless⟩ := hHere
      obtain ⟨c, head, frames, hs, -⟩ := hLive.stored
      have hTriple := checkpointFiles_triple (F := F) hSetting m head hHarmless.joined
        fun hStrict site crash n hF hSplits => hHarmless.covered hStrict site crash n hF hSplits
          hCount head hs.head
      refine (hTriple.conseq (fun _ _ h => h) ?_ (fun _ _ _ h => h) fun _ h => h) d m fault hAllow
        ⟨rfl, hs.head, hLive⟩
      rintro - d m ⟨hLive, hCount, hWal⟩
      exact ⟨hLive, hCount, fun _ _ _ _ _ _ => hWal⟩

end Checkpoint

section Commands

variable [Sha256] {K : StoredCommand → Prop} {node : Identity} {strict : Prop} {F : Faults Site}
  {L : Content} {d : Disk} {m : Memory}

omit [Sha256] in
theorem Content.keepCommand_of_some {hash : LogHash} {old command : StoredCommand}
    (h : L.commands hash = some old) : L.keepCommand false hash command = L := by
  simp [Content.keepCommand, h]

omit [Sha256] in
theorem Content.keepCommand_of_none {replaces : Bool} {hash : LogHash} {command : StoredCommand}
    (h : L.commands hash = none) : L.keepCommand replaces hash command =
      { L with commands := Function.update L.commands hash (some command) } := by
  simp [Content.keepCommand, h]

theorem Keyed.update {commands : LogHash → Option StoredCommand} (h : Keyed K commands)
    {hash : LogHash} {command : StoredCommand} (hHash : command.hash = hash) (hKnown : K command) :
    Keyed K (Function.update commands hash (some command)) := by
  intro hash' command' hCommand
  by_cases hSame : hash' = hash
  · subst hSame
    rw [Function.update_self] at hCommand
    obtain rfl := Option.some.inj hCommand
    exact ⟨hHash, hKnown⟩
  · rw [Function.update_of_ne hSame] at hCommand
    exact h _ _ hCommand

omit [Sha256] in
theorem keeps_update {commands : LogHash → Option StoredCommand} {hash : LogHash}
    (hNone : commands hash = none) (command : StoredCommand) :
    ∀ hash' old, commands hash' = some old →
      Function.update commands hash (some command) hash' = some old := by
  intro hash' old hOld
  have hNe : hash' ≠ hash := by
    rintro rfl
    cases hNone.symm.trans hOld
  exact (Function.update_of_ne hNe _ _).trans hOld

theorem Stored.storeFile {c : ConfigurationState} {head : RecordedHead} {w : WalFile} {s : Replay}
    (h : Stored K node strict d c head w s) {hash : LogHash} {command : StoredCommand}
    (hHash : command.hash = hash) (hKnown : strict → K command) (hFile : d.commands hash = none) :
    Stored K node strict
      { d with commands := Function.update d.commands hash (some command) } c head w s :=
  h.withCommands fun hStrict =>
    ⟨keeps_update hFile command, (h.firm hStrict).keyed.update hHash (hKnown hStrict)⟩

omit [Sha256] in
theorem Replay.content_storeFile (s : Replay) {hash : LogHash} (hFile : d.commands hash = none)
    (command : StoredCommand) :
    s.content { d with commands := Function.update d.commands hash (some command) } =
      (s.content d).keepCommand false hash command := by
  cases hGet : Assoc.get s.commands hash with
  | some old =>
    have hOld : (s.content d).commands hash = some old := by
      change Assoc.layered s.commands d.commands hash = some old
      rw [Assoc.layered, hGet]
      rfl
    rw [Content.keepCommand_of_some hOld, Replay.content, Replay.content, Assoc.layered_update hGet]
  | none =>
    have hNone : (s.content d).commands hash = none := by
      change Assoc.layered s.commands d.commands hash = none
      rw [Assoc.layered, hGet, hFile]
      rfl
    rw [Content.keepCommand_of_none hNone, Replay.content, Replay.content,
      Assoc.layered_update_of_none hGet]

theorem Live.storeFile (h : Live K node strict L d m) {hash : LogHash} {command : StoredCommand}
    (hHash : command.hash = hash) (hKnown : strict → K command) (hFile : d.commands hash = none) :
    Live K node strict (L.keepCommand false hash command)
      { d with commands := Function.update d.commands hash (some command) } m := by
  obtain ⟨⟨c, head, frames, hs, hCheckpoint⟩, hContent, hWorking⟩ := h
  refine ⟨⟨c, head, frames, hs.storeFile hHash hKnown hFile, hCheckpoint⟩, ?_, hWorking⟩
  rw [← hContent]
  exact m.replay.content_storeFile hFile command

theorem Settled.storeFile (h : Settled K node strict L d) {hash : LogHash} {command : StoredCommand}
    (hHash : command.hash = hash) (hKnown : strict → K command) (hFile : d.commands hash = none) :
    Settled K node strict (L.keepCommand false hash command)
      { d with commands := Function.update d.commands hash (some command) } := by
  obtain ⟨c, head, w, s, hs, rfl⟩ := h
  exact ⟨c, head, w, s, hs.storeFile hHash hKnown hFile, s.content_storeFile hFile command⟩

/-- What `store_command_unlocked` found when it stored a command. -/
def Storable (L : Content) (hash : LogHash) (command : StoredCommand) : Prop :=
  command.hash = hash ∧ (L.commands hash = none ∨ L.commands hash = some command)

theorem fetchCommandCache_eq_ok {hash : LogHash} {found : Option StoredCommand}
    (h : d.fetchCommandCache hash = .ok found) : found = d.commands hash := by
  unfold Disk.fetchCommandCache at h
  cases hRead : d.readExistingCommandCache hash with
  | error e =>
    rw [hRead] at h
    cases e with
    | commandUnavailable =>
      unfold Disk.readExistingCommandCache at hRead
      cases hFile : d.commands hash with
      | none => exact (Except.ok.inj h).symm
      | some command =>
        simp only [hFile] at hRead
        rcases Bool.eq_false_or_eq_true (decide ((encodeStoredCommand command).length ≤
          maxCommandCacheBytes)) with hSize | hSize
        · simp only [checkBounded, checkDecode, hSize, if_true] at hRead
          change (if _ then _ else _) = _ at hRead
          split at hRead <;> cases hRead
        · simp only [checkBounded, checkDecode, hSize] at hRead
          cases hRead
    | _ => cases h
  | ok command =>
    rw [hRead] at h
    obtain rfl := Except.ok.inj h
    unfold Disk.readExistingCommandCache at hRead
    cases hFile : d.commands hash with
    | none =>
      rw [hFile] at hRead
      cases hRead
    | some stored =>
      simp only [hFile, unit_bind_ok_iff] at hRead
      obtain ⟨-, hRead⟩ := hRead
      split at hRead
      · cases hRead
      · rw [Except.ok.inj hRead]

/-- The files after `store_command_unlocked`, which writes a command only where there is none. -/
def Stores (d₀ : Disk) (m₀ : Memory) (hash : LogHash) (command : StoredCommand) (d : Disk) : Prop :=
  d = d₀ ∨ command.hash = hash ∧ Assoc.get m₀.wal.commands hash = none ∧ d₀.commands hash = none ∧
    d = { d₀ with commands := Function.update d₀.commands hash (some command) }

theorem stageCommand_effect {hash : LogHash} {command : StoredCommand} (d₀ : Disk) (m₀ : Memory)
    (hHash : command.hash = hash) (hGet : Assoc.get m₀.wal.commands hash = none) :
    Triple F (fun d m => d = d₀ ∧ m = m₀) (stageCommand hash command)
      (fun _ d m => m = m₀ ∧ Stores d₀ m₀ hash command d ∧ d.commands hash = some command)
      (fun _ d m => m = m₀ ∧ Stores d₀ m₀ hash command d) (Stores d₀ m₀ hash command) := by
  refine Triple.bind (Q := fun d₁ d m => d₁ = d₀ ∧ d = d₀ ∧ m = m₀)
    (Triple.disk fun d m h => ⟨h.1, h⟩) fun d₁ => Triple.given ?_
  rintro rfl
  by_cases hFile : (d₁.commands hash).isSome
  · rw [if_pos hFile]
    refine Triple.bind (Q := fun found d m => found = d₁.commands hash ∧ d = d₁ ∧ m = m₀)
      (Triple.lift ?_ ?_) fun found => Triple.given fun hFound => ?_
    · rintro found d m hFound ⟨rfl, rfl⟩
      exact ⟨fetchCommandCache_eq_ok hFound, rfl, rfl⟩
    · rintro e d m - ⟨rfl, rfl⟩
      exact ⟨rfl, .inl rfl⟩
    · by_cases hSame : found = some command
      · rw [if_pos hSame]
        refine Triple.pure ?_
        rintro d m ⟨rfl, rfl⟩
        exact ⟨rfl, .inl rfl, hFound.symm.trans hSame⟩
      · rw [if_neg hSame]
        refine Triple.fail ?_
        rintro d m ⟨rfl, rfl⟩
        exact ⟨rfl, .inl rfl⟩
  · rw [if_neg hFile]
    have hAbsent : d₁.commands hash = none := by simpa using hFile
    refine Triple.perform ?_ ?_ ?_
    · rintro d m ⟨rfl, rfl⟩
      exact ⟨rfl, .inr ⟨hHash, hGet, hAbsent, rfl⟩, Function.update_self ..⟩
    · rintro d m n - ⟨rfl, rfl⟩
      change Stores d m hash command (if n = 0 then d else _)
      split
      · exact .inl rfl
      · exact .inr ⟨hHash, hGet, hAbsent, rfl⟩
    · rintro d m n message - ⟨rfl, rfl⟩
      exact ⟨rfl, .inl rfl⟩

theorem storeCommand_effect (hash : LogHash) (command : StoredCommand) (d₀ : Disk) (m₀ : Memory) :
    Triple F (fun d m => d = d₀ ∧ m = m₀) (storeCommand hash command)
      (fun _ d m => m = m₀ ∧ Stores d₀ m₀ hash command d ∧ command.hash = hash ∧
        Assoc.layered m₀.wal.commands d.commands hash = some command)
      (fun _ d m => m = m₀ ∧ Stores d₀ m₀ hash command d) (Stores d₀ m₀ hash command) := by
  have hKept : ∀ (_ : Error) (d : Disk) (m : Memory), d = d₀ ∧ m = m₀ →
      m = m₀ ∧ Stores d₀ m₀ hash command d := fun _ _ _ h => ⟨h.2, .inl h.1⟩
  unfold storeCommand
  by_cases hHash : command.hash = hash
  · rw [if_neg (not_not.mpr hHash)]
    refine Triple.bind (Q := fun m₁ d m => m₁ = m₀ ∧ d = d₀ ∧ m = m₀)
      (Triple.memory fun d m h => ⟨h.2, h⟩) fun m₁ => Triple.given ?_
    rintro rfl
    cases hGet : Assoc.get m₁.wal.commands hash with
    | some existing =>
      by_cases hSame : existing = command
      · simp only [hSame, if_true]
        refine Triple.pure ?_
        rintro d m ⟨rfl, rfl⟩
        refine ⟨rfl, .inl rfl, hHash, ?_⟩
        rw [Assoc.layered, hGet, hSame]
        rfl
      · simp only [hSame, if_false]
        exact Triple.fail fun d m h => hKept .commandHashMismatch d m h
    | none =>
      refine Triple.bind (stageCommand_effect d₀ m₁ hHash hGet) fun _ => Triple.perform ?_ ?_ ?_
      · rintro d m ⟨rfl, hStores, hFile⟩
        refine ⟨rfl, hStores, hHash, ?_⟩
        change Assoc.layered m.wal.commands d.commands hash = some command
        rw [Assoc.layered, hGet, hFile]
        rfl
      · exact fun d m n _ h => h.2.1
      · exact fun d m n message _ h => ⟨h.1, h.2.1⟩
  · rw [if_pos hHash]
    exact Triple.fail fun d m h => hKept .commandHashMismatch d m h

theorem storeCommand_triple (hash : LogHash) (command : StoredCommand)
    (hKnown : strict → K command) (m₀ : Memory) (wal₀ : Option WalFile) :
    Triple F (fun d m => m = m₀ ∧ d.wal = wal₀ ∧ Live K node strict L d m)
      (storeCommand hash command)
      (fun _ d m => m = m₀ ∧ d.wal = wal₀ ∧ Live K node strict (L.keepCommand false hash command) d m ∧
        Storable L hash command)
      (fun _ d m => Live K node strict L d m ∨
        Live K node strict (L.keepCommand false hash command) d m ∧ Storable L hash command)
      (fun d => Settled K node strict L d ∨
        Settled K node strict (L.keepCommand false hash command) d ∧ Storable L hash command) := by
  refine Triple.named fun d₀ m₁ hHere => ?_
  obtain ⟨rfl, rfl, hLive⟩ := hHere
  have hStored : ∀ d, Stores d₀ m₁ hash command d → d = d₀ ∨ d.wal = d₀.wal ∧
      Live K node strict (L.keepCommand false hash command) d m₁ ∧ Storable L hash command := by
    rintro d (rfl | ⟨hHash, hGet, hAbsent, rfl⟩)
    · exact .inl rfl
    · refine .inr ⟨rfl, hLive.storeFile hHash hKnown hAbsent, hHash, .inl ?_⟩
      rw [← hLive.commands_eq, Assoc.layered, hGet, hAbsent]
      rfl
  refine (storeCommand_effect hash command d₀ m₁).conseq (fun _ _ h => h) ?_ ?_ ?_
  · rintro - d m ⟨rfl, hStores, hHash, hHere⟩
    rcases hStored d hStores with rfl | ⟨hWal, hNext⟩
    · rw [hLive.commands_eq] at hHere
      rw [Content.keepCommand_of_some hHere]
      exact ⟨rfl, rfl, hLive, hHash, .inr hHere⟩
    · exact ⟨rfl, hWal, hNext⟩
  · rintro - d m ⟨rfl, hStores⟩
    rcases hStored d hStores with rfl | ⟨-, hNext⟩
    · exact .inl hLive
    · exact .inr hNext
  · rintro d hStores
    rcases hStored d hStores with rfl | ⟨-, hNext, hStorable⟩
    · exact .inl hLive.settled
    · exact .inr ⟨hNext.settled, hStorable⟩

end Commands

end Rhiza.Quepaxa
