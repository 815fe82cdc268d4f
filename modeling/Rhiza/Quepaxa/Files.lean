import Rhiza.Library.Assoc
import Rhiza.Library.Durable
import Rhiza.Quepaxa.Codec

/-! # The files and the memory of a recorder

A recorder keeps its latest changes in a write-ahead log and in memory, and the
older ones in one file for each slot and each command. Reads look at the memory
first. The files of the root that carry authority (configuration, recorded head
and log) are absent only before the first open; slot and command files are
written only to a root that has been opened.
-/

namespace Rhiza.Quepaxa

open Core Library

structure Identity where
  recorderId : NodeId
  clusterId : ClusterId
  epoch : Nat
  deriving DecidableEq

/-- `recorder.wal`: complete frames and the bytes of an incomplete one behind them. -/
structure WalFile where
  frames : List WalFrame
  torn : Nat

structure Disk where
  configuration : Option ConfigurationState
  recordedHead : Option RecordedHead
  intent : Option TransitionIntent
  headIntent : Option ConfigurationHeadIntent
  slots : Nat → Option RecorderSlotState
  commands : LogHash → Option StoredCommand
  wal : Option WalFile

structure RecorderWal where
  checkpoint : WalCheckpoint
  nextSequence : Nat
  lastDigest : LogHash
  frameCount : Nat
  byteCount : Nat
  slots : List (Nat × RecorderSlotState)
  commands : List (LogHash × StoredCommand)
  failed : Bool

def RecorderWal.default : RecorderWal := ⟨.default, 1, .zero, 0, 0, [], [], false⟩

structure Memory where
  configuration : ConfigurationState
  recordedHead : RecordedHeadProvenance
  wal : RecorderWal

def Memory.blank (configId : Nat) : Memory :=
  ⟨.initial configId .zero none, .empty, .default⟩

inductive Site
  | checkpointCommand | checkpointSlot | checkpointConfiguration | checkpointHead
  | checkpointTruncate
  | commandFile | commandSync
  | walAppend
  | intentWrite | transitionSlot | transitionConfiguration | transitionHead | intentRemove
  | transitionSync
  | recoverSlot | recoverConfiguration | recoverHead | recoverRemove | recoverSync
  | headIntentWrite | commitConfiguration | commitHead | headIntentRemove | commitSync
  | recoverHeadConfiguration | recoverHeadHead | recoverHeadRemove | recoverHeadSync
  | initialHead | walCreate | walCreateSync | walTrim
  deriving DecidableEq

abbrev FileStep := DurableStep Site Disk Error
abbrev Io := Program Site Disk Memory Error

namespace FileStep

/-- `atomic_replace`: a new file takes the place of the old one in one step. -/
def replace (site : Site) (write : Disk → Disk) : FileStep where
  site := site
  complete := write
  crashed n d := if n = 0 then d else write d
  failed _ d := d
  error := .io

/-- `atomic_write`: the synchronisation of the directory can still fail. -/
def write (site : Site) (write : Disk → Disk) : FileStep where
  site := site
  complete := write
  crashed n d := if n = 0 then d else write d
  failed n d := if n = 0 then d else write d
  error := .io

/-- `remove_file`. -/
def remove (site : Site) (write : Disk → Disk) : FileStep := replace site write

def sync (site : Site) : FileStep where
  site := site
  complete := id
  crashed _ d := d
  failed _ d := d
  error := .io

def append (frame : WalFrame) : FileStep where
  site := .walAppend
  complete d := { d with wal := d.wal.map fun wal => { wal with frames := wal.frames ++ [frame] } }
  crashed n d :=
    { d with wal := d.wal.map fun wal =>
        if frame.size ≤ n then { wal with frames := wal.frames ++ [frame] } else { wal with torn := n } }
  failed n d :=
    { d with wal := d.wal.map fun wal =>
        if frame.size ≤ n then { wal with frames := wal.frames ++ [frame] } else { wal with torn := n } }
  error := .io

/-- `set_len` of the log, followed by a synchronisation. -/
def cut (site : Site) (wal : WalFile) : FileStep := write site fun d => { d with wal := some wal }

end FileStep

def maxCommandCacheBytes : Nat := 4 + 2 + 1 + 8 + 512 * 1024 + 32
def maxRecorderStateBytes : Nat := 1024 * 1024
def maxRecorderWalBytes : Nat := 64 * 1024 * 1024 + 2 * 1024 * 1024
def recorderWalSoftByteLimit : Nat := 64 * 1024 * 1024
def recorderWalHardFrameLimit : Nat := 1024

def checkDecode (check : Bool) (message : String) : Result Unit :=
  if check then .ok () else .error (.decode message)

@[simp] theorem checkDecode_eq_ok {check : Bool} {message : String} :
    checkDecode check message = .ok () ↔ check := by
  cases check <;> simp [checkDecode]

/-- The bound of `read_regular_file_bounded`. The files without one here are too
small to exceed theirs. -/
def checkBounded (size maximum : Nat) (name : String) : Result Unit :=
  checkDecode (size ≤ maximum) ("recorder " ++ name ++ " must be a bounded regular file")

def WalFile.bytes (wal : WalFile) : Nat := (wal.frames.map (·.size)).sum + wal.torn

section Reads

variable [Sha256]

def Disk.readExistingCommandCache (d : Disk) (commandHash : LogHash) : Result StoredCommand :=
  match d.commands commandHash with
  | none => .error .commandUnavailable
  | some command => do
    checkBounded (encodeStoredCommand command).length maxCommandCacheBytes "command cache entry"
    if command.hash ≠ commandHash then .error .commandHashMismatch else .ok command

/-- `fetch_command_cache_unlocked`. -/
def Disk.fetchCommandCache (d : Disk) (commandHash : LogHash) : Result (Option StoredCommand) :=
  match d.readExistingCommandCache commandHash with
  | .error .commandUnavailable => .ok none
  | .error error => .error error
  | .ok command => .ok (some command)

/-- `fetch_command_unlocked`. -/
def Memory.fetchCommand (m : Memory) (d : Disk) (commandHash : LogHash) :
    Result (Option StoredCommand) :=
  match Assoc.get m.wal.commands commandHash with
  | some command => .ok (some command)
  | none => d.fetchCommandCache commandHash

def Memory.loadUnlocked (self : Identity) (m : Memory) (d : Disk) (slot : Nat)
    (configDigest : LogHash) : Result RecorderSlotState :=
  let owned (state : RecorderSlotState) : Bool :=
    state.clusterId = self.clusterId ∧ state.epoch = self.epoch ∧
      state.configId = m.configuration.configId ∧
      (configDigest ≠ .zero → state.configDigest = configDigest)
  match Assoc.get m.wal.slots slot with
  | some state => do
    checkDecode (owned state) "recorder WAL state identity mismatch"
    .ok state
  | none =>
    match d.slots slot with
    | none => .ok (.newWithDigest slot self.clusterId self.epoch m.configuration.configId configDigest)
    | some state => do
      checkBounded (sizeOf (encodeRecorderState state)) maxRecorderStateBytes "slot cache"
      checkDecode (state.slot = slot ∧ owned state) "recorder state identity mismatch"
      .ok state

def Memory.view (self : Identity) (m : Memory) (d : Disk) : RecorderView where
  recorderId := self.recorderId
  clusterId := self.clusterId
  epoch := self.epoch
  configuration := m.configuration
  load := m.loadUnlocked self d
  holdsSlot slot := (Assoc.get m.wal.slots slot).isSome || (d.slots slot).isSome
  fetch := m.fetchCommand d

end Reads

def headAfterSlotState (current : RecordedHeadProvenance) (configuration : ConfigurationState)
    (state : RecorderSlotState) : RecordedHeadProvenance :=
  if configuration.maxAcceptedOrDecidedSlot = some state.slot ∧ recorderStateValues state ≠ [] then
    .slotBacked state.slot
  else current

/-- The maximal slot that `install_recorded_head` recovers from a head. -/
def RecordedHeadProvenance.recoveredMax : RecordedHeadProvenance → Option Nat
  | .empty => none
  | .slotBacked slot => some slot
  | .checkpointBacked _ _ recoveredTip _ => some recoveredTip

section Replay

variable [Sha256]

structure Replay where
  nextSequence : Nat
  lastDigest : LogHash
  frameCount : Nat
  slots : List (Nat × RecorderSlotState)
  commands : List (LogHash × StoredCommand)
  configuration : ConfigurationState
  head : RecordedHeadProvenance

def upsertWalCommand (commands : List (LogHash × StoredCommand)) (hash : LogHash)
    (command : StoredCommand) : Result (List (LogHash × StoredCommand)) :=
  match Assoc.get commands hash with
  | some existing => if existing ≠ command then .error .commandHashMismatch else .ok commands
  | none => .ok (commands ++ [(hash, command)])

def existingCommand (cached : LogHash → Result StoredCommand)
    (commands : List (LogHash × StoredCommand)) (hash : LogHash) : Result StoredCommand :=
  match Assoc.get commands hash with
  | some command => .ok command
  | none => cached hash

def validateExistingValue (self : Identity) (cached : LogHash → Result StoredCommand)
    (slot configId : Nat) (commands : List (LogHash × StoredCommand)) (value : AcceptedValue) :
    Result Unit := do
  let command ← existingCommand cached commands value.commandHash
  checkDecode (AcceptedValue.fromCommand self.clusterId slot self.epoch configId value.prevHash
    command = value) "recorder WAL value mismatch"

def validateAll (check : AcceptedValue → Result Unit) : List AcceptedValue → Result Unit
  | [] => .ok ()
  | value :: rest => do
    check value
    validateAll check rest

def commandsWith (commands : List (LogHash × StoredCommand)) :
    Option (LogHash × StoredCommand) → Result (List (LogHash × StoredCommand))
  | none => .ok commands
  | some (hash, command) => do
    checkDecode (command.hash = hash) "recorder WAL inline command hash mismatch"
    upsertWalCommand commands hash command

/-- The body of the loops in `open_or_replay_wal` and `validate_existing_wal`. -/
def replayFrame (self : Identity) (checkpoint : WalCheckpoint)
    (cached : LogHash → Result StoredCommand) (s : Replay) (f : WalFrame) : Result Replay :=
  if f.generation < checkpoint.generation then .ok s
  else do
    checkDecode (f.generation = checkpoint.generation ∧ f.sequence = s.nextSequence ∧
      f.prevDigest = s.lastDigest) "recorder WAL sequence or digest chain mismatch"
    checkDecode (f.state.slot = f.slot ∧ f.state.clusterId = self.clusterId ∧
      f.state.epoch = self.epoch ∧ f.state.configId = f.configuration.configId ∧
      f.state.configDigest = f.configuration.configDigest ∧
      ¬ configurationStructureChanged s.configuration f.configuration)
      "recorder WAL state identity mismatch"
    let commands ← commandsWith s.commands f.command
    validateAll (validateExistingValue self cached f.slot f.configuration.configId commands)
      (recorderStateValues f.state)
    checkDecode (f.head = headAfterSlotState s.head f.configuration f.state)
      "recorder WAL head mismatch"
    .ok ⟨s.nextSequence + 1, f.digest, s.frameCount + 1, Assoc.insert f.slot f.state s.slots,
      commands, f.configuration, f.head⟩

def replayFrames (self : Identity) (checkpoint : WalCheckpoint)
    (cached : LogHash → Result StoredCommand) : Replay → List WalFrame → Result Replay
  | s, [] => .ok s
  | s, f :: rest => do
    let s ← replayFrame self checkpoint cached s f
    replayFrames self checkpoint cached s rest

def Replay.start (configuration : ConfigurationState) (provenance : RecordedHeadProvenance)
    (checkpoint : WalCheckpoint) : Replay :=
  ⟨checkpoint.throughSequence + 1, .zero, 0, [], [], configuration, provenance⟩

inductive RecorderPreflight
  | missing
  | recoverable
  | valid
  deriving DecidableEq

def validatePreflightConfiguration (configuration : ConfigurationState) (configId : Nat)
    (membership : Membership) : Result Unit :=
  checkDecode (configuration.configId = configId ∧
    configuration.configDigest = membership.digest ∧ configuration.membership = some membership)
    "recorder configuration does not exactly match expected membership"

/-- The identity checks of `decode_recorded_head`. -/
def validateRecordedHead (self : Identity) (configuration : ConfigurationState)
    (head : RecordedHead) : Result Unit := do
  checkDecode (head.clusterId = self.clusterId ∧ head.epoch = self.epoch ∧
    head.configId = configuration.configId ∧ head.configDigest = configuration.configDigest)
    "recorder durable head identity mismatch"
  checkDecode (head.checkpoint.generation ≠ 0) "recorder durable head has zero WAL generation"

def validateEmptyRecoveryWal (d : Disk) : Result Unit :=
  checkDecode (d.wal.all fun wal => wal.bytes = 0) "recorder recovery intent requires an empty WAL"

def validateRecoverableTransitionIntent (self : Identity) (configId : Nat)
    (membership : Membership) (d : Disk) (intent : TransitionIntent) : Result Unit := do
  validatePreflightConfiguration intent.configuration configId membership
  checkDecode (intent.state.slot = intent.slot ∧ intent.state.clusterId = self.clusterId ∧
    intent.state.epoch = self.epoch ∧ intent.state.configId = intent.configuration.configId ∧
    intent.state.configDigest = intent.configuration.configDigest)
    "recorder transition intent state identity mismatch"
  validateAll (validateExistingValue self d.readExistingCommandCache intent.slot
    intent.configuration.configId []) (recorderStateValues intent.state)

def validateRecoverableConfigurationHeadIntent (self : Identity) (configId : Nat)
    (membership : Membership) (intent : ConfigurationHeadIntent) : Result Unit := do
  validatePreflightConfiguration intent.configuration configId membership
  validateRecordedHead self intent.configuration intent.head

def missingFile (name : String) : Error := .decode ("recorder is missing " ++ name)

/-- `preflight_existing_with_membership_outcome` on a root whose lock is held. -/
def preflight (self : Identity) (configId : Nat) (membership : Membership) (d : Disk) :
    Result RecorderPreflight :=
  if d.configuration.isNone ∧ d.recordedHead.isNone ∧ d.intent.isNone ∧ d.headIntent.isNone ∧
      d.wal.isNone then .ok .missing
  else
    match d.intent, d.headIntent with
    | some _, some _ => .error (.decode "recorder has conflicting recovery intents")
    | some intent, none => do
      validateRecoverableTransitionIntent self configId membership d intent
      validateEmptyRecoveryWal d
      .ok .recoverable
    | none, some intent => do
      validateRecoverableConfigurationHeadIntent self configId membership intent
      validateEmptyRecoveryWal d
      .ok .recoverable
    | none, none => do
      let configuration ← okOr (missingFile "configuration.rec") d.configuration
      validatePreflightConfiguration configuration configId membership
      let head ← okOr (missingFile "recorded-head.rec") d.recordedHead
      validateRecordedHead self configuration head
      let wal ← okOr (missingFile "recorder.wal") d.wal
      checkBounded wal.bytes maxRecorderWalBytes "recorder.wal"
      let _ ← replayFrames self head.checkpoint d.readExistingCommandCache
        (.start configuration head.provenance head.checkpoint) wal.frames
      .ok (if wal.torn = 0 then .valid else .recoverable)

end Replay

end Rhiza.Quepaxa
