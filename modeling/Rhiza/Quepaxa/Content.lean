import Rhiza.Quepaxa.FileStore
import Rhiza.Quepaxa.History

/-! # What the files of a recorder stand for

The files of a root, with the frames of the log replayed over them and a pending
intent carried out, stand for the state of a recorder. Nothing here can fail:
where the store refuses to open a root, the content is what it refuses.
-/

namespace Rhiza.Quepaxa

open Core Library

structure Content where
  configuration : ConfigurationState
  head : RecordedHeadProvenance
  slots : Nat → Option RecorderSlotState
  commands : LogHash → Option StoredCommand

namespace Content

def recorder (self : Identity) (retired : List ConfigurationState) (L : Content) : Recorder :=
  ⟨self.recorderId, self.clusterId, self.epoch, L.configuration, retired, L.slots, L.commands⟩

def keepCommand (L : Content) (replaces : Bool) (hash : LogHash) (command : StoredCommand) :
    Content :=
  if (L.commands hash).isSome ∧ ¬ replaces then L
  else { L with commands := Function.update L.commands hash (some command) }

def stage (L : Content) (replaces : Bool) : Option (LogHash × StoredCommand) → Content
  | some (hash, command) => L.keepCommand replaces hash command
  | none => L

def apply (L : Content) (replaces : Bool) (transition : Transition) : Content :=
  { L.stage replaces transition.command with
    configuration := transition.configuration
    head := headAfterSlotState L.head transition.configuration transition.state
    slots := Function.update L.slots transition.state.slot (some transition.state) }

def install (L : Content) (configuration : ConfigurationState) (head : RecordedHeadProvenance) :
    Content :=
  { L with configuration := configuration, head := head }

variable (self : Identity) (retired : List ConfigurationState) (L : Content) (replaces : Bool)

theorem recorder_keepCommand (hash : LogHash) (command : StoredCommand) :
    (L.keepCommand replaces hash command).recorder self retired =
      (L.recorder self retired).keepCommand replaces hash command := by
  unfold keepCommand Recorder.keepCommand
  change _ = if (L.commands hash).isSome ∧ ¬ replaces then _ else _
  split <;> rfl

theorem recorder_stage (command : Option (LogHash × StoredCommand)) :
    (L.stage replaces command).recorder self retired =
      (L.recorder self retired).stage replaces command := by
  cases command with
  | none => rfl
  | some command => exact recorder_keepCommand self retired L replaces command.1 command.2

theorem recorder_apply (transition : Transition) :
    (L.apply replaces transition).recorder self retired =
      (L.recorder self retired).apply replaces transition := by
  have hStage := recorder_stage self retired L replaces transition.command
  unfold apply Recorder.apply
  rw [← hStage]
  rfl

@[simp] theorem keepCommand_configuration (hash : LogHash) (command : StoredCommand) :
    (L.keepCommand replaces hash command).configuration = L.configuration := by
  unfold keepCommand
  split <;> rfl

@[simp] theorem keepCommand_head (hash : LogHash) (command : StoredCommand) :
    (L.keepCommand replaces hash command).head = L.head := by
  unfold keepCommand
  split <;> rfl

@[simp] theorem keepCommand_slots (hash : LogHash) (command : StoredCommand) :
    (L.keepCommand replaces hash command).slots = L.slots := by
  unfold keepCommand
  split <;> rfl

@[simp] theorem stage_configuration (command : Option (LogHash × StoredCommand)) :
    (L.stage replaces command).configuration = L.configuration := by
  cases command <;> simp [stage]

@[simp] theorem stage_head (command : Option (LogHash × StoredCommand)) :
    (L.stage replaces command).head = L.head := by
  cases command <;> simp [stage]

@[simp] theorem stage_slots (command : Option (LogHash × StoredCommand)) :
    (L.stage replaces command).slots = L.slots := by
  cases command <;> simp [stage]

end Content

section Replay

variable [Sha256]

omit [Sha256] in
def Replay.advance (s : Replay) (f : WalFrame) : Replay :=
  ⟨s.nextSequence + 1, f.digest, s.frameCount + 1, Assoc.insert f.slot f.state s.slots,
    insertCommand s.commands f.command, f.configuration, f.head⟩

omit [Sha256] in
/-- The frames of the current generation, taken over without a check. -/
def replayAll (checkpoint : WalCheckpoint) (s : Replay) (frames : List WalFrame) : Replay :=
  frames.foldl (fun s f => if f.generation < checkpoint.generation then s else s.advance f) s

omit [Sha256] in
theorem replayAll_append (checkpoint : WalCheckpoint) (s : Replay) (frames : List WalFrame)
    (f : WalFrame) : replayAll checkpoint s (frames ++ [f]) =
      if f.generation < checkpoint.generation then replayAll checkpoint s frames
      else (replayAll checkpoint s frames).advance f := by
  rw [replayAll, List.foldl_append]
  rfl

omit [Sha256] in
theorem replayAll_stale {checkpoint : WalCheckpoint} {frames : List WalFrame}
    (h : ∀ f ∈ frames, f.generation < checkpoint.generation) (s : Replay) :
    replayAll checkpoint s frames = s := by
  induction frames with
  | nil => rfl
  | cons f rest ih =>
    rw [replayAll, List.foldl_cons, if_pos (h f List.mem_cons_self)]
    exact ih fun f hf => h f (List.mem_cons_of_mem _ hf)

theorem commandsWith_eq_ok {commands next : List (LogHash × StoredCommand)}
    {command : Option (LogHash × StoredCommand)} (h : commandsWith commands command = .ok next) :
    next = insertCommand commands command := by
  cases command with
  | none => exact (Except.ok.inj h).symm
  | some entry =>
    obtain ⟨hash, command⟩ := entry
    simp only [commandsWith, unit_bind_ok_iff] at h
    obtain ⟨-, h⟩ := h
    unfold upsertWalCommand at h
    rw [insertCommand, Assoc.insertNew]
    cases hGet : Assoc.get commands hash with
    | none =>
      simp only [hGet] at h
      exact (Except.ok.inj h).symm
    | some existing =>
      simp only [hGet] at h
      split at h
      · cases h
      · exact (Except.ok.inj h).symm

variable {self : Identity} {checkpoint : WalCheckpoint} {cached : LogHash → Result StoredCommand}

theorem replayFrame_eq_ok {s s' : Replay} {f : WalFrame}
    (h : replayFrame self checkpoint cached s f = .ok s') :
    s' = if f.generation < checkpoint.generation then s else s.advance f := by
  unfold replayFrame at h
  split at h
  · rename_i hStale
    rw [if_pos hStale]
    exact (Except.ok.inj h).symm
  · rename_i hStale
    rw [if_neg hStale]
    simp only [unit_bind_ok_iff] at h
    obtain ⟨-, -, h⟩ := h
    obtain ⟨commands, hCommands, h⟩ := bind_ok_iff.mp h
    simp only [unit_bind_ok_iff] at h
    obtain ⟨-, -, h⟩ := h
    obtain rfl := commandsWith_eq_ok hCommands
    exact (Except.ok.inj h).symm

theorem replayFrames_eq_ok {s s' : Replay} {frames : List WalFrame}
    (h : replayFrames self checkpoint cached s frames = .ok s') :
    s' = replayAll checkpoint s frames := by
  induction frames generalizing s with
  | nil => exact (Except.ok.inj h).symm
  | cons f rest ih =>
    obtain ⟨next, hNext, h⟩ := bind_ok_iff.mp h
    obtain rfl := replayFrame_eq_ok hNext
    exact ih h

end Replay

def RecordedHeadProvenance.recover (provenance : RecordedHeadProvenance)
    (configuration : ConfigurationState) : ConfigurationState :=
  { configuration with maxAcceptedOrDecidedSlot := provenance.recoveredMax }

def RecordedHead.start (head : RecordedHead) (configuration : ConfigurationState) : Replay :=
  .start (head.provenance.recover configuration) head.provenance head.checkpoint

def Replay.content (s : Replay) (d : Disk) : Content :=
  ⟨s.configuration, s.head, Assoc.layered s.slots d.slots, Assoc.layered s.commands d.commands⟩

def Disk.frames (d : Disk) : List WalFrame := d.wal.elim [] (·.frames)

def Disk.content (d : Disk) : Content :=
  match d.intent, d.headIntent, d.configuration, d.recordedHead with
  | some intent, _, _, _ =>
    let head := headAfterSlotState .empty intent.configuration intent.state
    ⟨head.recover intent.configuration, head,
      Function.update d.slots intent.slot (some intent.state), d.commands⟩
  | none, some intent, _, _ =>
    ⟨intent.head.provenance.recover intent.configuration, intent.head.provenance, d.slots, d.commands⟩
  | none, none, some configuration, some head =>
    (replayAll head.checkpoint (head.start configuration) d.frames).content d
  | none, none, _, _ => ⟨.initial 0 .zero none, .empty, d.slots, d.commands⟩

def Memory.replay (m : Memory) : Replay :=
  ⟨m.wal.nextSequence, m.wal.lastDigest, m.wal.frameCount, m.wal.slots, m.wal.commands,
    m.configuration, m.recordedHead⟩

def Memory.content (m : Memory) (d : Disk) : Content := m.replay.content d

end Rhiza.Quepaxa
