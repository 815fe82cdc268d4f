import Rhiza.Quepaxa.Persist

/-! # One change made durable

A change goes to the log as a frame, or to the files with an intent before them.
Either way a stop of the process leaves the content before it or after it.
-/

namespace Rhiza.Quepaxa

open Core Library

section Changes

variable [Sha256] (K : StoredCommand → Prop) (node : Identity)

structure Fitting (strict : Prop) (L : Content) (t : Transition) : Prop where
  valued : recorderStateValues t.state ≠ []
  matched : (headAfterSlotState L.head t.configuration t.state).recoveredMax =
    t.configuration.maxAcceptedOrDecidedSlot
  raised : configurationStructureChanged L.configuration t.configuration = true →
    t.configuration.maxAcceptedOrDecidedSlot = some t.state.slot
  undecided : ∀ state, L.slots t.state.slot = some state → state.decidedProof = none
  owned : strict → Owned node t.configuration t.state.slot t.state
  known : strict → ∀ hash command, t.command = some (hash, command) → command.hash = hash ∧ K command
  staged : strict → (L.stage false t.command).Good K node
  good : strict → ∀ replaces, (L.apply replaces t).Good K node

end Changes

section Append

variable [Sha256] {K : StoredCommand → Prop} {node : Identity} {strict : Prop} {F : Faults Site}
  {L : Content} {d : Disk} {m : Memory} {t : Transition}

omit [Sha256] in
theorem existingCommand_eq_ok {commands : List (LogHash × StoredCommand)} {hash : LogHash}
    {command : StoredCommand} (h : Assoc.layered commands d.commands hash = some command) :
    existingCommand d.commandOf commands hash = .ok command := by
  unfold existingCommand
  unfold Assoc.layered at h
  cases hGet : Assoc.get commands hash with
  | some own =>
    rw [hGet] at h
    exact congrArg Except.ok (Option.some.inj h)
  | none =>
    rw [hGet] at h
    exact okOr_eq_ok.mpr h

theorem commandsWith_ok (hK : TellsApart K) {commands : List (LogHash × StoredCommand)}
    {command : Option (LogHash × StoredCommand)}
    (hKnown : ∀ hash c, command = some (hash, c) → c.hash = hash ∧ K c)
    (hKeyed : ∀ hash c, Assoc.get commands hash = some c → c.hash = hash ∧ K c) :
    commandsWith commands command = .ok (insertCommand commands command) := by
  cases command with
  | none => rfl
  | some entry =>
    obtain ⟨hash, c⟩ := entry
    obtain ⟨hHash, hHere⟩ := hKnown hash c rfl
    simp only [commandsWith, unit_bind_ok_iff, checkDecode_eq_ok, decide_eq_true_eq]
    refine ⟨hHash, ?_⟩
    unfold upsertWalCommand
    rw [insertCommand, Assoc.insertNew]
    cases hGet : Assoc.get commands hash with
    | none => rfl
    | some existing =>
      obtain ⟨hExisting, hExistingKnown⟩ := hKeyed hash existing hGet
      have hSame : existing = c := hK _ _ hExistingKnown hHere (hExisting.trans hHash.symm)
      simp [hSame]

def Memory.replaces (m : Memory) : Option (LogHash × StoredCommand) → Bool
  | some (hash, _) => (Assoc.get m.wal.commands hash).isNone
  | none => false

omit [Sha256] in
theorem layered_insertCommand (m : Memory) (d : Disk) (command : Option (LogHash × StoredCommand)) :
    Assoc.layered (insertCommand m.wal.commands command) d.commands =
      ((m.content d).stage (m.replaces command) command).commands := by
  cases command with
  | none => rfl
  | some entry =>
    obtain ⟨hash, c⟩ := entry
    rw [insertCommand, Assoc.layered_insertNew, Content.stage, Content.keepCommand]
    have hHere : (m.content d).commands hash = (Assoc.get m.wal.commands hash).or (d.commands hash) :=
      rfl
    cases hGet : Assoc.get m.wal.commands hash with
    | none => simp [Memory.replaces, hGet, Memory.content, Replay.content, Memory.replay]
    | some old =>
      rw [hHere, hGet]
      simp [Memory.replaces, hGet, Memory.content, Replay.content, Memory.replay]

def Memory.after (m : Memory) (frame : WalFrame) : Memory :=
  ⟨frame.configuration, frame.head, m.wal.appended frame⟩

theorem Live.append (h : Live K node strict L d m) (hK : TellsApart K)
    (hGood : strict → L.Good K node) (ht : Fitting K node strict L t)
    (hUnchanged : configurationStructureChanged L.configuration t.configuration = false)
    {frame : WalFrame} (hFrame : encodeWalFrame m.wal.checkpoint.generation m.wal.nextSequence
      m.wal.lastDigest t.state t.configuration (headAfterSlotState L.head t.configuration t.state)
      t.command = .ok frame) :
    Live K node strict (L.apply (m.replaces t.command) t)
      ((FileStep.append frame).complete d) (m.after frame) := by
  have hConfiguration := h.configuration_eq
  have hHead := h.head_eq
  have hCommands := h.commands_eq
  have hSlots := h.slots_eq
  have hContent := h.content_eq
  obtain ⟨⟨c, head, frames, hs, hCheckpoint⟩, -, hWorking⟩ := h
  obtain ⟨digest, size, hSize, rfl⟩ := encodeWalFrame_eq_ok hFrame
  have hOver : Assoc.layered (insertCommand m.wal.commands t.command) d.commands =
      (L.apply (m.replaces t.command) t).commands := by
    rw [layered_insertCommand, hContent]
    rfl
  refine ⟨⟨c, head, frames ++ [⟨m.wal.checkpoint.generation, m.wal.nextSequence, m.wal.lastDigest,
    digest, t.state.slot, t.state, t.configuration, headAfterSlotState L.head t.configuration t.state,
    t.command, size⟩], ⟨hs.intent, hs.headIntent, hs.configuration, hs.head, ?_, ?_, ?_, ?_, ?_,
    fun hStrict => ?_⟩, hCheckpoint⟩, ?_, hWorking⟩
  · change d.wal.map _ = _
    rw [hs.wal]
    rfl
  · rw [replayAll_append, if_neg (by rw [hCheckpoint]; exact lt_irrefl _), hs.replayed]
    rfl
  · intro f hf
    rcases List.mem_append.mp hf with hf | hf
    · exact hs.framed f hf
    · obtain rfl := List.mem_singleton.mp hf
      exact ⟨hSize, rfl, by rw [hCheckpoint]⟩
  · change configurationStructureChanged c t.configuration = false
    have hFirst : configurationStructureChanged c L.configuration = false :=
      hConfiguration ▸ hs.unchanged
    rw [eq_of_structure_unchanged hUnchanged, eq_of_structure_unchanged hFirst]
    simp [configurationStructureChanged]
  · exact ht.matched
  · -- the frame passes every check of the replay
    have hFirm := hs.firm hStrict
    have hGood' := ht.good hStrict (m.replaces t.command)
    refine ⟨hFirm.cluster_eq, hFirm.epoch_eq, hFirm.config_eq, hFirm.digest_eq, hFirm.generation,
      ⟨_, replayFrames_append (hs.valid hStrict) (replayFrame_current
        (congrArg WalCheckpoint.generation hCheckpoint.symm) rfl rfl (ht.owned hStrict) ?_ (commandsWith_ok hK (ht.known hStrict) ?_) ?_ ?_)⟩, hFirm.evidence,
      hFirm.keyed, hFirm.resolved⟩
    · change configurationStructureChanged m.configuration t.configuration = false
      rw [hConfiguration]
      exact hUnchanged
    · intro hash command hGet
      refine (hGood hStrict).keyed hash command ?_
      rw [← hCommands, Assoc.layered]
      rw [show Assoc.get m.wal.commands hash = some command from hGet]
      rfl
    · intro value hValue
      have hSlot : (L.apply (m.replaces t.command) t).slots t.state.slot = some t.state :=
        Function.update_self ..
      obtain ⟨command, hCommand, hFrom⟩ := (hGood'.resolved _ _ hSlot).backed value hValue
      rw [← hOver] at hCommand
      refine bind_ok_iff.mpr ⟨command, existingCommand_eq_ok hCommand, ?_⟩
      rw [checkDecode_eq_ok, decide_eq_true_eq]
      rw [(ht.owned hStrict).config_eq] at hFrom
      exact hFrom
    · change headAfterSlotState L.head _ _ = headAfterSlotState m.recordedHead _ _
      rw [hHead]
  · change Content.mk t.configuration _
      (Assoc.layered (Assoc.insert t.state.slot t.state m.wal.slots) d.slots)
      (Assoc.layered (insertCommand m.wal.commands t.command) d.commands) = _
    rw [Assoc.layered_insert, hOver, hSlots]
    rfl

theorem Content.stage_of_known (hApart : TellsApart K) (hKeyed : Keyed K L.commands)
    {command : Option (LogHash × StoredCommand)}
    (hKnown : ∀ hash c, command = some (hash, c) → c.hash = hash ∧ K c) (replaces : Bool) :
    L.stage replaces command = L.stage false command := by
  cases command with
  | none => rfl
  | some entry =>
    obtain ⟨hash, c⟩ := entry
    obtain ⟨hHash, hHere⟩ := hKnown hash c rfl
    change L.keepCommand replaces hash c = L.keepCommand false hash c
    cases hOld : L.commands hash with
    | none => rw [keepCommand_of_none hOld, keepCommand_of_none hOld]
    | some old =>
      obtain ⟨hOldHash, hOldKnown⟩ := hKeyed hash old hOld
      obtain rfl := hApart old c hOldKnown hHere (hOldHash.trans hHash.symm)
      have hSame : Function.update L.commands hash (some old) = L.commands := by
        rw [← hOld, Function.update_eq_self]
      rw [keepCommand_of_some hOld]
      unfold keepCommand
      rw [hSame]
      split <;> rfl

omit [Sha256] in
theorem Content.commands_stage {hash : LogHash} {command : StoredCommand}
    (h : L.commands hash = some command) (staged : Option (LogHash × StoredCommand)) :
    (L.stage false staged).commands hash = some command := by
  cases staged with
  | none => exact h
  | some entry =>
    obtain ⟨other, c⟩ := entry
    change (L.keepCommand false other c).commands hash = some command
    cases hOld : L.commands other with
    | some old =>
      rw [keepCommand_of_some hOld]
      exact h
    | none =>
      have hNe : hash ≠ other := by
        rintro rfl
        cases hOld.symm.trans h
      rw [keepCommand_of_none hOld]
      exact (Function.update_of_ne hNe _ _).trans h

theorem Live.trails_apply (h : Live K node strict L d m) (hK : TellsApart K)
    (hGood : strict → L.Good K node) (ht : Fitting K node strict L t)
    (hUnchanged : configurationStructureChanged L.configuration t.configuration = false)
    (replaces : Bool) (hStrict : strict) : Trails (L.apply replaces t) d m := by
  refine ⟨fun hash command hCommand => ?_, fun slot state hState hDecided => ?_, ?_⟩
  · rw [h.commands_eq] at hCommand
    change (L.stage replaces t.command).commands hash = some command
    rw [Content.stage_of_known hK (hGood hStrict).keyed (ht.known hStrict) replaces]
    exact Content.commands_stage hCommand _
  · rw [h.slots_eq] at hState
    have hNe : slot ≠ t.state.slot := by
      rintro rfl
      exact hDecided (ht.undecided state hState)
    exact (Function.update_of_ne hNe _ _).trans hState
  · rw [h.configuration_eq]
    exact hUnchanged

theorem Live.torn (h : Live K node strict L d m) (n : Nat) :
    Settled K node strict L { d with wal := d.wal.map fun wal => { wal with torn := n } } := by
  obtain ⟨⟨c, head, frames, hs, -⟩, hContent, -⟩ := h
  refine ⟨c, head, ⟨frames, n⟩, m.replay, ⟨hs.intent, hs.headIntent, hs.configuration, hs.head, ?_,
    hs.replayed, hs.framed, hs.unchanged, hs.matched, fun hStrict => ?_⟩, hContent⟩
  · change d.wal.map _ = _
    rw [hs.wal]
    rfl
  · have hFirm := hs.firm hStrict
    exact ⟨hFirm.cluster_eq, hFirm.epoch_eq, hFirm.config_eq, hFirm.digest_eq, hFirm.generation,
      hFirm.valid, hFirm.evidence, hFirm.keyed, hFirm.resolved⟩

theorem Live.appended (h : Live K node strict L d m) {L' : Content} {m' : Memory} {frame : WalFrame}
    (h' : Live K node strict L' ((FileStep.append frame).complete d) m') (n : Nat) :
    Settled K node strict L ((FileStep.append frame).crashed n d) ∨
      Settled K node strict L' ((FileStep.append frame).crashed n d) := by
  by_cases hn : frame.size ≤ n
  · right
    have hComplete : (FileStep.append frame).crashed n d = (FileStep.append frame).complete d := by
      simp [FileStep.append, hn]
    rw [hComplete]
    exact h'.settled
  · left
    have hTorn : (FileStep.append frame).crashed n d =
        { d with wal := d.wal.map fun wal => { wal with torn := n } } := by
      simp [FileStep.append, hn]
    rw [hTorn]
    exact h.torn n

theorem appendFrame_triple (hSetting : Setting K node strict L) (ht : Fitting K node strict L t)
    (hUnchanged : configurationStructureChanged L.configuration t.configuration = false) :
    Triple F (fun d m => Live K node strict L d m)
      (appendFrame t.state t.configuration (headAfterSlotState L.head t.configuration t.state)
        t.command)
      (fun _ d m => ∃ replaces, Live K node strict (L.apply replaces t) d
        ⟨t.configuration, headAfterSlotState L.head t.configuration t.state, m.wal⟩)
      (fun _ d m => Standing K node F strict L d m ∨
        ∃ replaces, Standing K node F strict (L.apply replaces t) d m)
      (fun d => Settled K node strict L d ∨
        ∃ replaces, Settled K node strict (L.apply replaces t) d) := by
  refine Triple.bind (Q := fun m₀ d m => m = m₀ ∧ Live K node strict L d m₀)
    (Triple.memory fun d m h => ⟨rfl, h⟩) fun m₀ => ?_
  refine Triple.bind (Q := fun frame d m => m = m₀ ∧ Live K node strict L d m₀ ∧
    Live K node strict (L.apply (m₀.replaces t.command) t) ((FileStep.append frame).complete d)
      (m₀.after frame) ∧ frame.configuration = t.configuration ∧
      frame.head = headAfterSlotState L.head t.configuration t.state)
    (Triple.lift ?_ ?_) fun frame => ?_
  · rintro frame d m hFrame ⟨rfl, hLive⟩
    refine ⟨rfl, hLive, hLive.append hSetting.apart hSetting.good ht hUnchanged hFrame, ?_⟩
    obtain ⟨digest, size, -, rfl⟩ := encodeWalFrame_eq_ok hFrame
    exact ⟨rfl, rfl⟩
  · rintro e d m - ⟨rfl, hLive⟩
    exact .inl (.live hLive)
  refine Triple.bind (Q := fun _ d m => m = m₀ ∧
    Live K node strict (L.apply (m₀.replaces t.command) t) d (m₀.after frame) ∧
    frame.configuration = t.configuration ∧
    frame.head = headAfterSlotState L.head t.configuration t.state)
    (Triple.onError (Triple.perform ?_ ?_ ?_)) fun _ => Triple.setMemory ?_
  · rintro d m ⟨rfl, -, hNext, hFrame⟩
    exact ⟨rfl, hNext, hFrame⟩
  · rintro d m n - ⟨rfl, hLive, hNext, -⟩
    exact (hLive.appended hNext n).imp id fun h => ⟨_, h⟩
  · rintro d m n message hF ⟨rfl, hLive, hNext, -⟩
    refine (hLive.appended hNext n).imp (fun h => .failed ⟨_, _, hF⟩ rfl (fun _ => ?_) h)
      fun h => ⟨_, .failed ⟨_, _, hF⟩ rfl (fun hStrict => ?_) h⟩
    · exact hLive.trails.congr rfl rfl rfl rfl rfl
    · exact (hLive.trails_apply hSetting.apart hSetting.good ht hUnchanged _ hStrict).congr rfl rfl rfl
        rfl rfl
  · rintro d m ⟨rfl, hNext, hConfiguration, hHead⟩
    refine ⟨m.replaces t.command, ?_⟩
    rw [← hHead, ← hConfiguration]
    exact hNext

theorem appendWal_triple (hSetting : Setting K node strict L) (ht : Fitting K node strict L t)
    (hUnchanged : configurationStructureChanged L.configuration t.configuration = false) :
    Triple F (fun d m => Live K node strict L d m ∧ Harmless strict F d m)
      (appendWal node t.state t.configuration (headAfterSlotState L.head t.configuration t.state)
        t.command)
      (fun _ d m => ∃ replaces, Live K node strict (L.apply replaces t) d
        ⟨t.configuration, headAfterSlotState L.head t.configuration t.state, m.wal⟩)
      (fun _ d m => Standing K node F strict L d m ∨
        ∃ replaces, Standing K node F strict (L.apply replaces t) d m)
      (fun d => Settled K node strict L d ∨
        ∃ replaces, Settled K node strict (L.apply replaces t) d) := by
  refine Triple.bind (Q := fun _ d m => Live K node strict L d m ∧ Harmless strict F d m)
    (Triple.memory fun d m h => h) fun m₀ => ?_
  by_cases hFailed : m₀.wal.failed
  · rw [if_pos hFailed]
    exact Triple.fail fun d m h => .inl (.live h.1)
  · rw [if_neg hFailed]
    have hAppend := appendFrame_triple (F := F) hSetting ht hUnchanged
    split
    · exact ((checkpointWal_triple hSetting).conseq (fun _ _ h => h) (fun _ _ _ h => h.1)
        (fun _ _ _ h => .inl h) fun _ h => .inl h).bind fun _ => hAppend
    · exact hAppend.conseq (fun _ _ h => h.1) (fun _ _ _ h => h) (fun _ _ _ h => h) fun _ h => h

end Append

section Transition

variable [Sha256] {K : StoredCommand → Prop} {node : Identity} {strict strict' : Prop}
  {F : Faults Site} {L : Content} {d : Disk} {m : Memory} {t : Transition} {i : TransitionIntent}

theorem Live.flushed (h : Live K node strict L d m) (hCount : m.wal.frameCount = 0) :
    d.slots = L.slots ∧ d.commands = L.commands ∧
      m.wal = ⟨m.wal.checkpoint, m.wal.checkpoint.throughSequence + 1, .zero, 0, m.wal.byteCount, [],
        [], false⟩ ∧
      ∃ frames, d.wal = some ⟨frames, 0⟩ ∧ ∀ f ∈ frames, f.Framed m.wal.checkpoint ∧
        f.generation < m.wal.checkpoint.generation := by
  have hSlots := h.slots_eq
  have hCommands := h.commands_eq
  obtain ⟨⟨c, head, frames, hs, hCheckpoint⟩, -, hWorking⟩ := h
  obtain ⟨hStale, hStart⟩ := hs.eq_start hCount
  have hNoSlots : m.wal.slots = [] := congrArg Replay.slots hStart
  have hNoCommands : m.wal.commands = [] := congrArg Replay.commands hStart
  have hSequence : m.wal.nextSequence = head.checkpoint.throughSequence + 1 :=
    congrArg Replay.nextSequence hStart
  have hDigest : m.wal.lastDigest = .zero := congrArg Replay.lastDigest hStart
  rw [hNoSlots] at hSlots
  rw [hNoCommands] at hCommands
  rw [hCheckpoint] at hSequence
  refine ⟨hSlots, hCommands, ?_, frames, hs.wal, ?_⟩
  · cases hWal : m.wal
    simp only [hWal] at hNoSlots hNoCommands hSequence hDigest hCount hWorking
    simp only [hNoSlots, hNoCommands, hSequence, hDigest, hCount, hWorking]
  · intro f hf
    rw [← hCheckpoint]
    exact ⟨hs.framed f hf, hStale f hf⟩

theorem Live.installed (h : Live K node strict L d m) (hInstalled : Installed L.configuration) :
    ∃ c, d.configuration = some c ∧ Installed c := by
  have hConfiguration := h.configuration_eq
  obtain ⟨⟨c, head, frames, hs, -⟩, -, -⟩ := h
  have hUnchanged : configurationStructureChanged c m.configuration = false := hs.unchanged
  rw [hConfiguration] at hUnchanged
  refine ⟨c, hs.configuration, ?_⟩
  obtain ⟨hNonzero, membership, hMembership, hDigest⟩ := hInstalled
  rw [eq_of_structure_unchanged hUnchanged] at hNonzero hMembership hDigest
  exact ⟨hNonzero, membership, hMembership, hDigest⟩

theorem Live.intentFile (h : Live K node strict L d m) (hCount : m.wal.frameCount = 0)
    (hGood : strict → L.Good K node) (ht : Fitting K node strict L t) (hCommand : t.command = none)
    (hMax : t.configuration.maxAcceptedOrDecidedSlot = some t.state.slot) :
    Pending K node (strict ∧ d.wal = some ⟨[], 0⟩) (L.apply false t)
      { d with intent := some ⟨t.state.slot, t.state, t.configuration⟩ } m
      ⟨t.state.slot, t.state, t.configuration⟩ := by
  obtain ⟨hSlots, hCommands, hStart, frames, hWal, hFrames⟩ := h.flushed hCount
  have hInstalled := h.installed
  obtain ⟨⟨c, head, frames', hs, hCheckpoint⟩, -, -⟩ := h
  refine ⟨⟨rfl, hs.headIntent, rfl, hMax, ht.valued, ⟨c, hs.configuration, ?_⟩,
    ⟨_, hWal, fun f hf => (hFrames f hf).1.size, ?_⟩, ?_, fun hStrict => ht.owned hStrict.1,
    fun hStrict => ht.good hStrict.1 false⟩, hStart, ⟨frames, hWal, hFrames⟩, ?_⟩
  · rintro ⟨hStrict, -⟩
    obtain ⟨c', hc', hInstalled⟩ := hInstalled (hGood hStrict).installed
    obtain rfl := Option.some.inj (hs.configuration.symm.trans hc')
    exact hInstalled
  · rintro ⟨-, hEmpty⟩
    exact Option.some.inj (hWal.symm.trans hEmpty)
  · rw [Content.apply, hCommand, headAfterSlotState_of_max _ hMax ht.valued, ← hSlots]
    exact congrArg (Content.mk _ _ _) hCommands
  · rintro ⟨hStrict, -⟩
    rw [← hCheckpoint]
    exact (hs.firm hStrict).generation

theorem Pending.weaken (h : Pending K node strict L d m i) (hWeak : strict' → strict) :
    Pending K node strict' L d m i := by
  obtain ⟨⟨hIntent, hHeadIntent, hSlot, hMax, hValued, ⟨c, hc, hInstalled⟩, ⟨w, hw, hFrames, hEmpty⟩,
    hContent, hOwned, hGood⟩, hStart, hWal, hGeneration⟩ := h
  exact ⟨⟨hIntent, hHeadIntent, hSlot, hMax, hValued, ⟨c, hc, fun h => hInstalled (hWeak h)⟩,
    ⟨w, hw, hFrames, fun h => hEmpty (hWeak h)⟩, hContent, fun h => hOwned (hWeak h),
    fun h => hGood (hWeak h)⟩, hStart, hWal, fun h => hGeneration (hWeak h)⟩

theorem Pending.slotFile (h : Pending K node strict L d m i) :
    Pending K node strict L
      { d with slots := Function.update d.slots i.slot (some i.state) } m i := by
  obtain ⟨⟨hIntent, hHeadIntent, hSlot, hMax, hValued, hConfigured, hWal, hContent, hOwned, hGood⟩,
    hStart, hFrames, hGeneration⟩ := h
  refine ⟨⟨hIntent, hHeadIntent, hSlot, hMax, hValued, hConfigured, hWal, ?_, hOwned, hGood⟩, hStart,
    hFrames, hGeneration⟩
  rw [← hContent]
  simp only [Function.update_idem]

theorem Pending.configurationFile (h : Pending K node strict L d m i) :
    Pending K node strict L { d with configuration := some i.configuration } m i := by
  obtain ⟨⟨hIntent, hHeadIntent, hSlot, hMax, hValued, -, hWal, hContent, hOwned, hGood⟩,
    hStart, hFrames, hGeneration⟩ := h
  refine ⟨⟨hIntent, hHeadIntent, hSlot, hMax, hValued, ⟨i.configuration, rfl, fun hStrict => ?_⟩, hWal,
    hContent, hOwned, hGood⟩, hStart, hFrames, hGeneration⟩
  have hInstalled := (hGood hStrict).installed
  rw [← hContent] at hInstalled
  exact hInstalled

theorem Pending.headFile (h : Pending K node strict L d m i) (head : RecordedHead) :
    Pending K node strict L { d with recordedHead := some head } m i := by
  obtain ⟨⟨hIntent, hHeadIntent, hSlot, hMax, hValued, hConfigured, hWal, hContent, hOwned, hGood⟩,
    hStart, hFrames, hGeneration⟩ := h
  exact ⟨⟨hIntent, hHeadIntent, hSlot, hMax, hValued, hConfigured, hWal, hContent, hOwned, hGood⟩,
    hStart, hFrames, hGeneration⟩

theorem Pending.finish (h : Pending K node strict' L d m i) (hGood : strict → L.Good K node)
    (hGeneration : strict → m.wal.checkpoint.generation ≠ 0)
    (hSlot : d.slots i.slot = some i.state) (hConfiguration : d.configuration = some i.configuration)
    {head : RecordedHead} (hFile : d.recordedHead = some head)
    (hHead : node.head i.configuration (.slotBacked i.state.slot) m.wal.checkpoint = .ok head) :
    Live K node strict L { d with intent := none }
      ⟨i.configuration, .slotBacked i.state.slot, m.wal⟩ := by
  obtain ⟨hi, hStart, ⟨frames, hWal, hFrames⟩, -⟩ := h
  obtain rfl := encodeRecordedHead_eq_ok hHead
  have hContent := hi.content_eq
  have hSame : Function.update d.slots i.slot (some i.state) = d.slots := by
    rw [← hSlot, Function.update_eq_self]
  rw [hSame] at hContent
  have hMax : i.configuration.maxAcceptedOrDecidedSlot = some i.state.slot :=
    hi.max_eq.trans (congrArg some hi.slot_eq)
  have hRecover : RecordedHeadProvenance.recover (.slotBacked i.state.slot) i.configuration =
      i.configuration := RecordedHeadProvenance.recover_of_eq hMax.symm
  have hReplay : Memory.replay ⟨i.configuration, .slotBacked i.state.slot, m.wal⟩ =
      RecordedHead.start ⟨node.clusterId, node.epoch, i.configuration.configId,
        i.configuration.configDigest, .slotBacked i.state.slot, m.wal.checkpoint⟩ i.configuration := by
    rw [hStart]
    unfold RecordedHead.start
    rw [hRecover]
    rfl
  have hStale : ∀ f ∈ frames, f.generation < m.wal.checkpoint.generation :=
    fun f hf => (hFrames f hf).2
  refine ⟨⟨i.configuration, _, frames, ⟨rfl, hi.headIntent, hConfiguration, hFile, hWal, ?_,
    fun f hf => (hFrames f hf).1, ?_, hMax.symm, fun hStrict => ?_⟩, rfl⟩, ?_, ?_⟩
  · rw [replayAll_stale hStale, hReplay]
  · simp [configurationStructureChanged, Memory.replay]
  · have hL := hGood hStrict
    rw [← hContent] at hL
    refine ⟨rfl, rfl, rfl, rfl, hGeneration hStrict, ⟨_, replayFrames_stale hStale⟩, ?_, hL.keyed,
      hL.resolved⟩
    have hEvidence := hL.evidence
    rw [hi.slot_eq] at hEvidence
    exact hEvidence
  · rw [← hContent, Memory.content, hReplay, hi.slot_eq]
    unfold RecordedHead.start
    rw [hRecover]
    rfl
  · change m.wal.failed = false
    rw [hStart]

theorem Pending.kept (h : Pending K node strict L d m i) : Kept K node strict L d :=
  .intended i h.intended

omit [Sha256] in
theorem write_triple {I : Prop → Disk → Prop} {m₀ : Memory} {A B : Disk → Prop} {p q : Prop}
    {E : Error → Disk → Memory → Prop} {C : Disk → Prop} (site : Site) (write : Disk → Disk)
    (hWeaken : ∀ {p q d}, I p d → (q → p) → I q d) (hKeeps : ∀ {p d}, I p d → I p (write d))
    (hB : ∀ d, A d → B (write d)) (hStrict : ∀ crash n, F site crash n → q → p)
    (hCrash : ∀ d, I q d → C d) (hError : ∀ e d n, F site false n → I q d → E e d m₀) :
    Triple F (fun d m => m = m₀ ∧ I p d ∧ A d) (Program.perform (FileStep.write site write))
      (fun _ d m => m = m₀ ∧ I p d ∧ B d) E C := by
  refine Triple.perform ?_ ?_ ?_
  · rintro d m ⟨rfl, hHere, hOther⟩
    exact ⟨rfl, hKeeps hHere, hB d hOther⟩
  · rintro d m n hF ⟨rfl, hHere, -⟩
    have hHere := hWeaken hHere (hStrict _ _ hF)
    change C (if n = 0 then d else write d)
    split
    · exact hCrash d hHere
    · exact hCrash _ (hKeeps hHere)
  · rintro d m n message hF ⟨rfl, hHere, -⟩
    have hHere := hWeaken hHere (hStrict _ _ hF)
    change E _ (if n = 0 then d else write d) m
    split
    · exact hError _ d n hF hHere
    · exact hError _ _ n hF (hKeeps hHere)

theorem commitTransition_triple (hSetting : Setting K node strict L) (ht : Fitting K node strict L t)
    (hCommand : t.command = none)
    (hMax : t.configuration.maxAcceptedOrDecidedSlot = some t.state.slot)
    (hJoined : ∀ site crash n, F site crash n → ¬ splitsMemory site crash n) (m₀ : Memory)
    (wal₀ : Option WalFile) (hClean : strict → ∀ site crash n, F site crash n →
      leavesIntent site crash n → wal₀ = some ⟨[], 0⟩) :
    Triple F (fun d m => m = m₀ ∧ d.wal = wal₀ ∧ Live K node strict L d m₀ ∧ m₀.wal.frameCount = 0)
      (commitTransition node t.state t.configuration)
      (fun _ d m => Live K node strict (L.apply false t) d m)
      (fun _ d m => Standing K node F strict L d m ∨ Standing K node F strict (L.apply false t) d m)
      (fun d => Kept K node strict L d ∨ Kept K node strict (L.apply false t) d) := by
  have hLift : ∀ (e : Error) (d : Disk) (m : Memory), (m = m₀ ∧ d.wal = wal₀ ∧
      Live K node strict L d m₀ ∧ m₀.wal.frameCount = 0) →
      Standing K node F strict L d m ∨ Standing K node F strict (L.apply false t) d m := by
    rintro e d m ⟨rfl, -, hLive, -⟩
    exact .inl (.live hLive)
  have hStrict : ∀ {site crash n}, F site crash n → leavesIntent site crash n → strict →
      strict ∧ wal₀ = some ⟨[], 0⟩ := fun hF hLeaves h => ⟨h, hClean h _ _ _ hF hLeaves⟩
  refine Triple.bind (Q := fun m₁ d m => m₁ = m₀ ∧ m = m₀ ∧ d.wal = wal₀ ∧
    Live K node strict L d m₀ ∧ m₀.wal.frameCount = 0)
    (Triple.memory fun d m h => ⟨h.1, h⟩) fun m₁ => Triple.given ?_
  rintro rfl
  refine Triple.bind (Q := fun _ => _) (Triple.lift (fun _ _ _ _ h => h) fun e d m _ => hLift e d m)
    fun _ => ?_
  refine Triple.bind (Q := fun _ => _) (Triple.lift (fun _ _ _ _ h => h) fun e d m _ => hLift e d m)
    fun _ => ?_
  rw [headAfterSlotState_of_max _ hMax ht.valued]
  refine Triple.bind (Q := fun head d m =>
    node.head t.configuration (.slotBacked t.state.slot) m₁.wal.checkpoint = .ok head ∧ _)
    (Triple.lift (fun _ _ _ hHead h => ⟨hHead, h⟩) fun e d m _ => hLift e d m)
    fun head => Triple.given fun hHead => ?_
  refine Triple.bind (Q := fun intent d m => intent = ⟨t.state.slot, t.state, t.configuration⟩ ∧ _)
    (Triple.lift (fun _ _ _ h h' => ⟨encodeTransitionIntent_eq_ok h, h'⟩) fun e d m _ => hLift e d m)
    fun intent => Triple.given ?_
  rintro rfl
  -- from here on the intent lies on the root until all files are written
  refine Triple.bind (Q := fun _ d m => m = m₁ ∧ Pending K node (strict ∧ wal₀ = some ⟨[], 0⟩)
    (L.apply false t) d m₁ ⟨t.state.slot, t.state, t.configuration⟩ ∧
    (strict → m₁.wal.checkpoint.generation ≠ 0)) (Triple.perform ?_ ?_ ?_) fun _ => ?_
  · rintro d m ⟨rfl, rfl, hLive, hCount⟩
    obtain ⟨c, head', frames, hs, hCheckpoint⟩ := hLive.stored
    refine ⟨rfl, hLive.intentFile hCount hSetting.good ht hCommand hMax, fun h => ?_⟩
    rw [← hCheckpoint]
    exact (hs.firm h).generation
  · rintro d m n hF ⟨rfl, rfl, hLive, hCount⟩
    change Kept K node strict L (if n = 0 then d else _) ∨
      Kept K node strict _ (if n = 0 then d else _)
    split
    · exact .inl (.settled hLive.settled)
    · rename_i hn
      exact .inr ((hLive.intentFile hCount hSetting.good ht hCommand hMax).weaken (hStrict hF hn)).kept
  · rintro d m n message hF ⟨rfl, rfl, hLive, hCount⟩
    change Standing K node F strict L (if n = 0 then d else _) m ∨
      Standing K node F strict _ (if n = 0 then d else _) m
    split
    · exact .inl (.live hLive)
    · rename_i hn
      exact .inr (.pending ⟨_, _, hF⟩ _
        ((hLive.intentFile hCount hSetting.good ht hCommand hMax).weaken (hStrict hF hn)))
  refine Triple.bind (write_triple (I := fun p d => Pending K node p (L.apply false t) d m₁
    ⟨t.state.slot, t.state, t.configuration⟩) (B := fun d => (strict → m₁.wal.checkpoint.generation ≠ 0) ∧
    d.slots t.state.slot = some t.state) _ _ Pending.weaken Pending.slotFile (fun d h => ⟨h, Function.update_self ..⟩)
    (fun _ _ hF => hStrict hF trivial) (fun d h => .inr h.kept)
    fun e d n hF h => .inr (.pending ⟨_, n, hF⟩ _ h)) fun _ => ?_
  refine Triple.bind (write_triple (I := fun p d => Pending K node p (L.apply false t) d m₁
    ⟨t.state.slot, t.state, t.configuration⟩) (B := fun d => (strict → m₁.wal.checkpoint.generation ≠ 0) ∧
    d.slots t.state.slot = some t.state ∧ d.configuration = some t.configuration) _ _
    Pending.weaken Pending.configurationFile (fun d h => ⟨h.1, h.2, rfl⟩) (fun _ _ hF => hStrict hF trivial)
    (fun d h => .inr h.kept) fun e d n hF h => .inr (.pending ⟨_, n, hF⟩ _ h)) fun _ => ?_
  refine Triple.bind (write_triple (I := fun p d => Pending K node p (L.apply false t) d m₁
    ⟨t.state.slot, t.state, t.configuration⟩) (B := fun d => (strict → m₁.wal.checkpoint.generation ≠ 0) ∧
    d.slots t.state.slot = some t.state ∧ d.configuration = some t.configuration ∧
    d.recordedHead = some head) _ _ Pending.weaken (fun h => h.headFile head) (fun d h => ⟨h.1, h.2.1, h.2.2, rfl⟩)
    (fun _ _ hF => hStrict hF trivial) (fun d h => .inr h.kept)
    fun e d n hF h => .inr (.pending ⟨_, n, hF⟩ _ h)) fun _ => ?_
  refine Triple.bind (Q := fun _ d m => m = m₁ ∧
    Live K node strict (L.apply false t) d ⟨t.configuration, .slotBacked t.state.slot, m₁.wal⟩)
    (Triple.perform ?_ ?_ ?_) fun _ => ?_
  · rintro d m ⟨rfl, hPending, hGeneration, hSlot, hConfiguration, hFile⟩
    exact ⟨rfl, hPending.finish (fun h => ht.good h false) hGeneration hSlot hConfiguration hFile hHead⟩
  · rintro d m n hF ⟨rfl, hPending, hGeneration, hSlot, hConfiguration, hFile⟩
    change _ ∨ Kept K node strict _ (if n = 0 then d else _)
    split
    · rename_i hn
      exact .inr (hPending.weaken (hStrict hF (.inr hn))).kept
    · exact .inr (.settled (hPending.finish (fun h => ht.good h false) hGeneration hSlot
        hConfiguration hFile hHead).settled)
  · rintro d m n message hF ⟨rfl, hPending, -⟩
    exact .inr (.pending ⟨_, _, hF⟩ _ (hPending.weaken (hStrict hF (.inl rfl))))
  refine Triple.bind (Q := fun _ d m => m = m₁ ∧
    Live K node strict (L.apply false t) d ⟨t.configuration, .slotBacked t.state.slot, m₁.wal⟩)
    (Triple.perform (fun _ _ h => h) ?_ ?_) fun _ => Triple.setMemory ?_
  · rintro d m n - ⟨rfl, hLive⟩
    exact .inr (.settled hLive.settled)
  · rintro d m n message hF -
    exact absurd rfl (hJoined _ _ _ hF)
  · rintro d m ⟨rfl, hLive⟩
    exact hLive

theorem recoverTransition_triple (m₀ : Memory) :
    Triple F (fun d m => m = m₀ ∧ Pending K node strict L d m₀ i) (recoverTransition node i)
      (fun _ d m => Live K node strict L d m ∧ m.wal.frameCount = 0 ∧
        (strict → d.wal = some ⟨[], 0⟩))
      (fun _ d m => m = m₀ ∧ (Pending K node strict L d m i ∨
        Settled K node strict L d ∧ ∃ n, F .recoverSync false n) ∧
        ((utf8 node.clusterId).length ≤ 65535 → Errs F))
      (fun d => Kept K node strict L d) := by
  refine Triple.bind (Q := fun m₁ d m => m₁ = m₀ ∧ m = m₀ ∧ Pending K node strict L d m₀ i)
    (Triple.memory fun d m h => ⟨h.1, h⟩) fun m₁ => Triple.given ?_
  rintro rfl
  refine Triple.named fun d₀ m h => ?_
  obtain ⟨rfl, hPending₀⟩ := h
  have hi := hPending₀.intended
  have hMax : i.configuration.maxAcceptedOrDecidedSlot = some i.state.slot :=
    hi.max_eq.trans (congrArg some hi.slot_eq)
  rw [headAfterSlotState_of_max _ hMax hi.valued]
  refine Triple.bind (Q := fun _ d m' => m' = m ∧ Pending K node strict L d m i ∧
    d.slots i.slot = some i.state)
    ((write_triple (I := fun p d => Pending K node p L d m i) (p := strict) (A := fun _ => True) _ _
      Pending.weaken Pending.slotFile
      (fun d _ => Function.update_self ..) (fun _ _ _ h => h) (fun d h => h.kept)
      fun e d n hF h => ⟨rfl, .inl h, fun _ => ⟨_, n, hF⟩⟩).conseq ?_ (fun _ _ _ h => h) (fun _ _ _ h => h) fun _ h => h)
    fun _ => ?_
  · rintro d m' ⟨rfl, rfl⟩
    exact ⟨rfl, hPending₀, trivial⟩
  refine Triple.bind (write_triple (I := fun p d => Pending K node p L d m i) (B := fun d => d.slots i.slot = some i.state ∧
    d.configuration = some i.configuration) _ _ Pending.weaken Pending.configurationFile (fun d h => ⟨h, rfl⟩)
    (fun _ _ _ h => h) (fun d h => h.kept) fun e d n hF h => ⟨rfl, .inl h, fun _ => ⟨_, n, hF⟩⟩) fun _ => ?_
  refine Triple.bind (Q := fun head d m' =>
    node.head i.configuration (.slotBacked i.state.slot) m.wal.checkpoint = .ok head ∧ m' = m ∧
    Pending K node strict L d m i ∧ d.slots i.slot = some i.state ∧
    d.configuration = some i.configuration)
    (Triple.lift (fun _ _ _ hHead h => ⟨hHead, h⟩) fun e d m' hError h =>
      ⟨h.1, .inl (h.1 ▸ h.2.1), fun hFits => ?_⟩) fun head => Triple.given fun hHead => ?_
  · obtain ⟨head, hHead⟩ := head_ok hFits i.configuration (.slotBacked i.state.slot) m.wal.checkpoint
    cases hHead.symm.trans hError
  refine Triple.bind (write_triple (I := fun p d => Pending K node p L d m i) (B := fun d => d.slots i.slot = some i.state ∧
    d.configuration = some i.configuration ∧ d.recordedHead = some head) _ _
    Pending.weaken (fun h => h.headFile head) (fun d h => ⟨h.1, h.2, rfl⟩) (fun _ _ _ h => h) (fun d h => h.kept)
    fun e d n hF h => ⟨rfl, .inl h, fun _ => ⟨_, n, hF⟩⟩) fun _ => ?_
  refine Triple.bind (Q := fun _ d m' => m' = m ∧
    Live K node strict L d ⟨i.configuration, .slotBacked i.state.slot, m.wal⟩ ∧
    m.wal.frameCount = 0 ∧ (strict → d.wal = some ⟨[], 0⟩))
    (Triple.perform ?_ ?_ ?_) fun _ => ?_
  · rintro d _ ⟨rfl, hPending, hSlot, hConfiguration, hFile⟩
    refine ⟨rfl, hPending.finish hPending.intended.good hPending.generation hSlot hConfiguration hFile
      hHead, ?_, fun hStrict => ?_⟩
    · rw [hPending.start]
    · obtain ⟨w, hw, -, hEmpty⟩ := hPending.intended.wal
      rw [← hEmpty hStrict]
      exact hw
  · rintro d _ n - ⟨rfl, hPending, hSlot, hConfiguration, hFile⟩
    change Kept K node strict L (if n = 0 then d else _)
    split
    · exact hPending.kept
    · exact .settled (hPending.finish hPending.intended.good hPending.generation hSlot
        hConfiguration hFile hHead).settled
  · rintro d _ n message hF ⟨rfl, hPending, -⟩
    exact ⟨rfl, .inl hPending, fun _ => ⟨_, n, hF⟩⟩
  refine Triple.bind (Q := fun _ d m' => m' = m ∧
    Live K node strict L d ⟨i.configuration, .slotBacked i.state.slot, m.wal⟩ ∧
    m.wal.frameCount = 0 ∧ (strict → d.wal = some ⟨[], 0⟩))
    (Triple.perform (fun _ _ h => h) ?_ ?_) fun _ => Triple.setMemory ?_
  · rintro d _ n - ⟨rfl, hLive, -⟩
    exact .settled hLive.settled
  · rintro d _ n message hF ⟨rfl, hLive, -⟩
    exact ⟨rfl, .inr ⟨hLive.settled, n, hF⟩, fun _ => ⟨_, n, hF⟩⟩
  · rintro d _ ⟨rfl, hLive, hCount, hWal⟩
    exact ⟨hLive, hCount, hWal⟩

omit [Sha256] in
theorem recoverIntent_idle {P : Disk → Memory → Prop} {E : Error → Disk → Memory → Prop}
    {C : Disk → Prop} (h : ∀ d m, P d m → d.intent = none ∧ d.headIntent = none) :
    Triple F P (recoverIntent node) (fun _ => P) E C := by
  intro d m fault hAllow hHere
  obtain ⟨hIntent, hHeadIntent⟩ := h d m hHere
  have hIdle : recoverIntent node d m fault = ⟨d, m, fault, .value ()⟩ := by
    simp only [recoverIntent, recoverConfigurationHeadIntent, Bind.bind, Program.bind, Program.disk,
      hHeadIntent, Pure.pure, Program.pure, hIntent]
  rw [hIdle]
  exact ⟨hHere, hAllow⟩

theorem recoverIntent_triple (m₀ : Memory) :
    Triple F (fun d m => m = m₀ ∧ Pending K node strict L d m₀ i) (recoverIntent node)
      (fun _ d m => Live K node strict L d m ∧ m.wal.frameCount = 0 ∧
        (strict → d.wal = some ⟨[], 0⟩))
      (fun _ d m => m = m₀ ∧ (Pending K node strict L d m i ∨
        Settled K node strict L d ∧ ∃ n, F .recoverSync false n) ∧
        ((utf8 node.clusterId).length ≤ 65535 → Errs F))
      (fun d => Kept K node strict L d) := by
  intro d m fault hAllow hHere
  have hHeadIntent := hHere.2.intended.headIntent
  have hIntent := hHere.2.intended.intent
  have hSame : recoverIntent node d m fault = recoverTransition node i d m fault := by
    simp only [recoverIntent, recoverConfigurationHeadIntent, Bind.bind, Program.bind, Program.disk,
      hHeadIntent, Pure.pure, Program.pure, hIntent]
  rw [hSame]
  exact recoverTransition_triple m₀ d m fault hAllow hHere

theorem persistStateTransition_triple (hSetting : Setting K node strict L)
    (ht : Fitting K node strict L t) :
    Triple F (fun d m => Live K node strict L d m ∧ Harmless strict F d m)
      (persistStateTransition node L.configuration t)
      (fun _ d m => ∃ replaces, Live K node strict (L.apply replaces t) d m)
      (fun _ d m => Standing K node F strict L d m ∨
        Standing K node F strict (L.stage false t.command) d m ∨
        ∃ replaces, Standing K node F strict (L.apply replaces t) d m)
      (fun d => Kept K node strict L d ∨ Kept K node strict (L.stage false t.command) d ∨
        ∃ replaces, Kept K node strict (L.apply replaces t) d) := by
  unfold persistStateTransition
  split
  · rename_i hChanged
    have hMax := ht.raised hChanged
    -- the command goes to its file before the intent is written
    have hStaged : Setting K node strict (L.stage false t.command) :=
      ⟨hSetting.apart, hSetting.fits, ht.staged⟩
    have hSame : (L.stage false t.command).apply false ⟨t.state, t.configuration, none⟩ =
        L.apply false t := by
      simp only [Content.apply, Content.stage_head, Content.stage_slots]
      rfl
    have hSame' : ∀ replaces, (L.stage false t.command).apply replaces
        ⟨t.state, t.configuration, none⟩ = L.apply false t := by
      intro replaces
      rw [← hSame]
      rfl
    have hFitting : Fitting K node strict (L.stage false t.command)
        ⟨t.state, t.configuration, none⟩ := by
      refine ⟨ht.valued, ?_, fun _ => hMax, ?_, ht.owned, fun _ _ _ h => (by cases h), ht.staged,
        fun h replaces => hSame' replaces ▸ ht.good h false⟩
      · rw [Content.stage_head]
        exact ht.matched
      · rw [Content.stage_slots]
        exact ht.undecided
    refine Triple.bind (Q := fun _ d m => Live K node strict L d m ∧ m.wal.frameCount = 0 ∧
      Clean F strict d ∧ ∀ site crash n, F site crash n → ¬ splitsMemory site crash n) ?_ fun _ => ?_
    · intro d m fault hAllow hHere
      refine ((checkpointWal_triple hSetting).conseq (fun _ _ h => h) (fun _ d m h => ⟨h.1, h.2.1,
        h.2.2, hHere.2.joined⟩) (fun _ _ _ h => .inl h) fun _ h => .inl (.settled h)) d m fault
        hAllow hHere
    refine Triple.named fun d₀ m₀ hHere => ?_
    obtain ⟨hLive₀, hCount, hClean, hJoined⟩ := hHere
    have hCommit := commitTransition_triple hStaged hFitting rfl hMax hJoined m₀ d₀.wal
      fun hStrict site crash n hF hLeaves => hClean hStrict site crash n hF hLeaves
    rw [hSame] at hCommit
    have hCommit' : Triple F
        (fun d m => m = m₀ ∧ d.wal = d₀.wal ∧ Live K node strict (L.stage false t.command) d m)
        (commitTransition node t.state t.configuration)
        (fun _ d m => ∃ replaces, Live K node strict (L.apply replaces t) d m)
        (fun _ d m => Standing K node F strict L d m ∨
          Standing K node F strict (L.stage false t.command) d m ∨
          ∃ replaces, Standing K node F strict (L.apply replaces t) d m)
        (fun d => Kept K node strict L d ∨ Kept K node strict (L.stage false t.command) d ∨
          ∃ replaces, Kept K node strict (L.apply replaces t) d) :=
      hCommit.conseq (fun d m h => ⟨h.1, h.2.1, h.1 ▸ h.2.2, hCount⟩) (fun _ _ _ h => ⟨false, h⟩)
        (fun _ _ _ h => h.elim (fun h => .inr (.inl h)) fun h => .inr (.inr ⟨false, h⟩))
        (fun _ h => h.elim (fun h => .inr (.inl h)) fun h => .inr (.inr ⟨false, h⟩))
    cases hCommand : t.command with
    | none =>
      rw [hCommand] at hCommit'
      refine hCommit'.conseq ?_ (fun _ _ _ h => h) (fun _ _ _ h => h) fun _ h => h
      rintro d m ⟨rfl, rfl⟩
      exact ⟨rfl, rfl, hLive₀⟩
    | some entry =>
      obtain ⟨hash, command⟩ := entry
      have hKnown : strict → K command := fun h => (ht.known h hash command hCommand).2
      rw [hCommand] at hCommit'
      refine Triple.bind ((storeCommand_triple hash command hKnown m₀ d₀.wal).conseq ?_
        (fun _ _ _ h => ⟨h.1, h.2.1, h.2.2.1⟩) ?_ ?_) fun _ => hCommit'
      · rintro d m ⟨rfl, rfl⟩
        exact ⟨rfl, rfl, hLive₀⟩
      · exact fun _ _ _ h => h.elim (fun h => .inl (.live h)) fun h => .inr (.inl (.live h.1))
      · exact fun _ h => h.elim (fun h => .inl (.settled h)) fun h => .inr (.inl (.settled h.1))
  · rename_i hUnchanged
    have hUnchanged := Bool.eq_false_iff.mpr hUnchanged
    refine Triple.bind (Q := fun m₀ d m => m₀.recordedHead = L.head ∧ Live K node strict L d m ∧
      Harmless strict F d m) (Triple.memory fun d m h => ⟨h.1.head_eq, h⟩) fun m₀ => Triple.given ?_
    intro hHead
    rw [hHead]
    refine Triple.bind ((appendWal_triple hSetting ht hUnchanged).conseq (fun _ _ h => h)
      (fun _ _ _ h => h) (fun _ _ _ h => h.imp_right .inr)
      fun _ h => h.elim (fun h => .inl (.settled h)) fun ⟨replaces, h⟩ =>
        .inr (.inr ⟨replaces, .settled h⟩)) fun _ => Triple.setMemory ?_
    exact fun d m h => h

end Transition

section Heads

variable [Sha256] {K : StoredCommand → Prop} {node : Identity} {strict strict' : Prop}
  {F : Faults Site} {L : Content} {d : Disk} {m : Memory} {i : ConfigurationHeadIntent}

theorem HeadIntended.weaken (h : HeadIntended K node strict L d i) (hWeak : strict' → strict) :
    HeadIntended K node strict' L d i := by
  obtain ⟨w, hw, hFrames, hEmpty⟩ := h.wal
  exact { h with
    wal := ⟨w, hw, hFrames, fun h' => hEmpty (hWeak h')⟩
    generation := fun h' => h.generation (hWeak h')
    good := fun h' => h.good (hWeak h') }

theorem HeadIntended.configurationFile (h : HeadIntended K node strict L d i) :
    HeadIntended K node strict L { d with configuration := some i.configuration } i :=
  ⟨h.intent, h.headIntent, h.matched, h.wal, h.content_eq, h.cluster_eq, h.epoch_eq, h.config_eq,
    h.digest_eq, h.generation, h.good⟩

theorem HeadIntended.headFile (h : HeadIntended K node strict L d i) :
    HeadIntended K node strict L { d with recordedHead := some i.head } i :=
  ⟨h.intent, h.headIntent, h.matched, h.wal, h.content_eq, h.cluster_eq, h.epoch_eq, h.config_eq,
    h.digest_eq, h.generation, h.good⟩

theorem HeadIntended.finish (h : HeadIntended K node strict' L d i) (hGood : strict → L.Good K node)
    (hGeneration : strict → i.head.checkpoint.generation ≠ 0)
    (hConfiguration : d.configuration = some i.configuration)
    (hHead : d.recordedHead = some i.head) {w : WalFile} (hWal : d.wal = some w)
    (hFrames : ∀ f ∈ w.frames, f.Framed i.head.checkpoint ∧
      f.generation < i.head.checkpoint.generation) :
    Stored K node strict { d with headIntent := none } i.configuration i.head w
        (i.head.start i.configuration) ∧
      (i.head.start i.configuration).content { d with headIntent := none } = L := by
  have hStale : ∀ f ∈ w.frames, f.generation < i.head.checkpoint.generation :=
    fun f hf => (hFrames f hf).2
  have hRecover := RecordedHeadProvenance.recover_of_eq h.matched
  have hContent := h.content_eq
  refine ⟨⟨h.intent, rfl, hConfiguration, hHead, hWal, replayAll_stale hStale _,
    fun f hf => (hFrames f hf).1, ?_, rfl, fun hStrict => ?_⟩, ?_⟩
  · unfold RecordedHead.start
    rw [hRecover]
    simp [configurationStructureChanged, Replay.start]
  · have hL := hGood hStrict
    rw [← hContent] at hL
    exact ⟨h.cluster_eq, h.epoch_eq, h.config_eq, h.digest_eq, hGeneration hStrict,
      ⟨_, replayFrames_stale hStale⟩, hL.evidence, hL.keyed, hL.resolved⟩
  · unfold RecordedHead.start
    rw [hRecover, ← hContent]
    rfl

theorem Live.headIntentFile (h : Live K node strict L d m) (hCount : m.wal.frameCount = 0)
    {configuration : ConfigurationState} {provenance : RecordedHeadProvenance}
    (hMatched : provenance.recoveredMax = configuration.maxAcceptedOrDecidedSlot)
    (hGood : strict → (L.install configuration provenance).Good K node) {head : RecordedHead}
    (hHead : node.head configuration provenance m.wal.checkpoint = .ok head) :
    HeadIntended K node (strict ∧ d.wal = some ⟨[], 0⟩) (L.install configuration provenance)
      { d with headIntent := some ⟨configuration, head⟩ } ⟨configuration, head⟩ := by
  obtain ⟨hSlots, hCommands, hStart, frames, hWal, hFrames⟩ := h.flushed hCount
  obtain ⟨⟨c, head', frames', hs, hCheckpoint⟩, -, -⟩ := h
  obtain rfl := encodeRecordedHead_eq_ok hHead
  refine ⟨hs.intent, rfl, hMatched, ⟨_, hWal, fun f hf => (hFrames f hf).1.size, ?_⟩, ?_, rfl, rfl, rfl,
    rfl, ?_, fun hStrict => hGood hStrict.1⟩
  · rintro ⟨-, hEmpty⟩
    exact Option.some.inj (hWal.symm.trans hEmpty)
  · rw [Content.install, ← hSlots, ← hCommands]
  · rintro ⟨hStrict, -⟩
    change m.wal.checkpoint.generation ≠ 0
    rw [← hCheckpoint]
    exact (hs.firm hStrict).generation

theorem commitConfigurationHead_triple {configuration : ConfigurationState}
    {provenance : RecordedHeadProvenance}
    (hMatched : provenance.recoveredMax = configuration.maxAcceptedOrDecidedSlot)
    (hGood : strict → (L.install configuration provenance).Good K node)
    (hJoined : ∀ site crash n, F site crash n → ¬ splitsMemory site crash n) (m₀ : Memory)
    (wal₀ : Option WalFile) (hClean : strict → ∀ site crash n, F site crash n →
      leavesIntent site crash n → wal₀ = some ⟨[], 0⟩) :
    Triple F (fun d m => m = m₀ ∧ d.wal = wal₀ ∧ Live K node strict L d m₀ ∧ m₀.wal.frameCount = 0)
      (commitConfigurationHead node configuration provenance)
      (fun _ d m => m = m₀ ∧ Live K node strict (L.install configuration provenance) d
        ⟨configuration, provenance, m₀.wal⟩)
      (fun _ d m => Live K node strict L d m)
      (fun d => Kept K node strict L d ∨
        Kept K node strict (L.install configuration provenance) d) := by
  have hStrict : ∀ {site crash n}, F site crash n → leavesIntent site crash n → strict →
      strict ∧ wal₀ = some ⟨[], 0⟩ := fun hF hLeaves h => ⟨h, hClean h _ _ _ hF hLeaves⟩
  have hLift : ∀ (e : Error) (d : Disk) (m : Memory), (m = m₀ ∧ d.wal = wal₀ ∧
      Live K node strict L d m₀ ∧ m₀.wal.frameCount = 0) → Live K node strict L d m := by
    rintro e d m ⟨rfl, -, hLive, -⟩
    exact hLive
  refine Triple.bind (Q := fun m₁ d m => m₁ = m₀ ∧ m = m₀ ∧ d.wal = wal₀ ∧
    Live K node strict L d m₀ ∧ m₀.wal.frameCount = 0)
    (Triple.memory fun d m h => ⟨h.1, h⟩) fun m₁ => Triple.given ?_
  rintro rfl
  refine Triple.bind (Q := fun _ => _) (Triple.lift (fun _ _ _ _ h => h) fun e d m _ => hLift e d m)
    fun _ => ?_
  refine Triple.bind (Q := fun head d m =>
    node.head configuration provenance m₁.wal.checkpoint = .ok head ∧ _)
    (Triple.lift (fun _ _ _ hHead h => ⟨hHead, h⟩) fun e d m _ => hLift e d m)
    fun head => Triple.given fun hHead => ?_
  have hCheckpoint : head.checkpoint = m₁.wal.checkpoint ∧ head.provenance = provenance := by
    obtain rfl := encodeRecordedHead_eq_ok hHead
    exact ⟨rfl, rfl⟩
  -- what the memory knows of the log is the same before and after
  refine Triple.bind (Q := fun _ d m => m = m₁ ∧ HeadIntended K node (strict ∧ wal₀ = some ⟨[], 0⟩)
    (L.install configuration provenance) d ⟨configuration, head⟩ ∧
    (d.wal = wal₀ ∧ (strict → m₁.wal.checkpoint.generation ≠ 0) ∧
      m₁.wal = ⟨m₁.wal.checkpoint, m₁.wal.checkpoint.throughSequence + 1, .zero, 0,
        m₁.wal.byteCount, [], [], false⟩ ∧
      ∃ frames, wal₀ = some ⟨frames, 0⟩ ∧ ∀ f ∈ frames, f.Framed m₁.wal.checkpoint ∧
        f.generation < m₁.wal.checkpoint.generation)) (Triple.perform ?_ ?_ ?_) fun _ => ?_
  · rintro d m ⟨rfl, rfl, hLive, hCount⟩
    obtain ⟨-, -, hStart, hFrames⟩ := hLive.flushed hCount
    obtain ⟨c, head', frames, hs, hSame⟩ := hLive.stored
    refine ⟨rfl, hLive.headIntentFile hCount hMatched hGood hHead, rfl, fun h => ?_, hStart, hFrames⟩
    rw [← hSame]
    exact (hs.firm h).generation
  · rintro d m n hF ⟨rfl, rfl, hLive, hCount⟩
    change Kept K node strict L (if n = 0 then d else _) ∨
      Kept K node strict _ (if n = 0 then d else _)
    split
    · exact .inl (.settled hLive.settled)
    · rename_i hn
      exact .inr (.headIntended _
        ((hLive.headIntentFile hCount hMatched hGood hHead).weaken (hStrict hF hn)))
  · rintro d m n message hF ⟨rfl, rfl, hLive, hCount⟩
    change Live K node strict L (if n = 0 then d else _) m
    split
    · exact hLive
    · rename_i hn
      exact absurd ⟨rfl, hn⟩ (hJoined _ _ _ hF)
  refine Triple.bind (write_triple (I := fun p d => HeadIntended K node p
    (L.install configuration provenance) d ⟨configuration, head⟩) (B := fun d =>
      (d.wal = wal₀ ∧ _) ∧ d.configuration = some configuration) _ _ HeadIntended.weaken
    HeadIntended.configurationFile (fun d h => ⟨h, rfl⟩) (fun _ _ hF => hStrict hF trivial)
    (fun d h => .inr (.headIntended _ h)) fun e d n hF _ => absurd rfl (hJoined _ _ _ hF)) fun _ => ?_
  refine Triple.bind (write_triple (I := fun p d => HeadIntended K node p
    (L.install configuration provenance) d ⟨configuration, head⟩) (B := fun d =>
      (d.wal = wal₀ ∧ _) ∧ d.configuration = some configuration ∧ d.recordedHead = some head) _ _
    HeadIntended.weaken HeadIntended.headFile (fun d h => ⟨h.1, h.2, rfl⟩)
    (fun _ _ hF => hStrict hF trivial) (fun d h => .inr (.headIntended _ h))
    fun e d n hF _ => absurd rfl (hJoined _ _ _ hF)) fun _ => ?_
  have hFinish : ∀ d, HeadIntended K node (strict ∧ wal₀ = some ⟨[], 0⟩)
      (L.install configuration provenance) d ⟨configuration, head⟩ → d.wal = wal₀ →
      (strict → m₁.wal.checkpoint.generation ≠ 0) →
      m₁.wal = ⟨m₁.wal.checkpoint, m₁.wal.checkpoint.throughSequence + 1, .zero, 0,
        m₁.wal.byteCount, [], [], false⟩ →
      (∃ frames, wal₀ = some ⟨frames, 0⟩ ∧ ∀ f ∈ frames, f.Framed m₁.wal.checkpoint ∧
        f.generation < m₁.wal.checkpoint.generation) →
      d.configuration = some configuration → d.recordedHead = some head →
      Live K node strict (L.install configuration provenance) { d with headIntent := none }
        ⟨configuration, provenance, m₁.wal⟩ := by
    rintro d hIntended hWal hGeneration hStart ⟨frames, rfl, hFrames⟩ hConfiguration hFile
    rw [← hCheckpoint.1] at hFrames hGeneration
    obtain ⟨hStored, hContent⟩ := hIntended.finish hGood hGeneration hConfiguration hFile hWal hFrames
    have hReplay : Memory.replay ⟨configuration, provenance, m₁.wal⟩ = head.start configuration := by
      rw [hStart]
      unfold RecordedHead.start
      rw [hCheckpoint.1, hCheckpoint.2, RecordedHeadProvenance.recover_of_eq hMatched]
      rfl
    refine ⟨⟨configuration, head, frames, ?_, hCheckpoint.1⟩, ?_, ?_⟩
    · rw [hReplay]
      exact hStored
    · rw [Memory.content, hReplay]
      exact hContent
    · change m₁.wal.failed = false
      rw [hStart]
  refine Triple.bind (Q := fun _ d m => m = m₁ ∧ Live K node strict
    (L.install configuration provenance) d ⟨configuration, provenance, m₁.wal⟩)
    (Triple.perform ?_ ?_ ?_) fun _ => Triple.perform (fun _ _ h => h) ?_ ?_
  · rintro d m ⟨rfl, hIntended, ⟨hWal, hGeneration, hStart, hFrames⟩, hConfiguration, hFile⟩
    exact ⟨rfl, hFinish d hIntended hWal hGeneration hStart hFrames hConfiguration hFile⟩
  · rintro d m n hF ⟨rfl, hIntended, ⟨hWal, hGeneration, hStart, hFrames⟩, hConfiguration, hFile⟩
    change _ ∨ Kept K node strict _ (if n = 0 then d else _)
    split
    · rename_i hn
      exact .inr (.headIntended _ (hIntended.weaken (hStrict hF (.inr hn))))
    · exact .inr (.settled (hFinish d hIntended hWal hGeneration hStart hFrames hConfiguration
        hFile).settled)
  · rintro d m n message hF -
    exact absurd rfl (hJoined _ _ _ hF)
  · rintro d m n - ⟨rfl, hLive⟩
    exact .inr (.settled hLive.settled)
  · rintro d m n message hF -
    exact absurd rfl (hJoined _ _ _ hF)

end Heads

end Rhiza.Quepaxa
