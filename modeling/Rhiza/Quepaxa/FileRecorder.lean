import Rhiza.Quepaxa.Content
import Rhiza.Quepaxa.Cluster

/-! # A recorder on its files

The process of a recorder may stop in the middle of a call and be started again
on the same root. A call to a recorder that does not run gets an error.
-/

namespace Rhiza.Quepaxa

open Core Library

/-- `memory` is empty while the process does not run. `retired` lists the
configurations that the recorder has left, as the recorder without files does. -/
structure FileRecorder where
  self : Identity
  disk : Disk
  memory : Option Memory
  retired : List ConfigurationState

abbrev StoreFault := Option (Fault Site)

inductive StoreEvent
  | storeCommand (fault : StoreFault) (hash : LogHash) (command : StoredCommand)
  | installSuccessor (fault : StoreFault) (membership : Membership) (stopProof : DecisionProof)
  | recoverActivation (fault : StoreFault) (stopSlot : Nat) (prefixHash : LogHash)
      (recoveredTip : Nat) (recoveredHash : LogHash)
  | reopen (fault : StoreFault) (existingOnly : Bool) (configId : Nat) (membership : Membership)

namespace FileRecorder

def recorder (s : FileRecorder) : Recorder := s.disk.content.recorder s.self s.retired

/-- The recorder with other files, which may belong to the next configuration. -/
def moved (s : FileRecorder) (d : Disk) (memory : Option Memory) : FileRecorder where
  self := s.self
  disk := d
  memory := memory
  retired :=
    if d.content.configuration.configId = s.disk.content.configuration.configId then s.retired
    else s.disk.content.configuration :: s.retired

def stopped : Error := .io "recorder does not run"

def call {α : Type} (s : FileRecorder) (fault : StoreFault) (program : Io α) :
    FileRecorder × Result α :=
  match s.memory with
  | none => (s, .error stopped)
  | some m =>
    let outcome := program s.disk m fault
    match outcome.exit with
    | .value a => (s.moved outcome.disk (some outcome.memory), .ok a)
    | .error e => (s.moved outcome.disk (some outcome.memory), .error e)
    | .crash => (s.moved outcome.disk none, .error stopped)

section Calls

variable [Sha256]

def reopen (s : FileRecorder) (fault : StoreFault) (existingOnly : Bool) (configId : Nat)
    (membership : Membership) : FileRecorder :=
  let outcome := openWithMembership s.self existingOnly configId membership s.disk
    (.blank configId) fault
  match outcome.exit with
  | .value _ => s.moved outcome.disk (some outcome.memory)
  | _ => s.moved outcome.disk none

def occur (s : FileRecorder) : StoreEvent → FileRecorder
  | .storeCommand fault hash command => (s.call fault (storeCommand hash command)).1
  | .installSuccessor fault membership stopProof =>
    (s.call fault (installSuccessorFromProof s.self membership stopProof)).1
  | .recoverActivation fault stopSlot prefixHash recoveredTip recoveredHash =>
    (s.call fault (recoverSuccessorActivationFromCheckpoint s.self stopSlot prefixHash recoveredTip
      recoveredHash)).1
  | .reopen fault existingOnly configId membership =>
    s.reopen fault existingOnly configId membership

instance : RecorderRpc FileRecorder StoreFault StoreEvent where
  record s fault request := s.call fault (recordProposal s.self request)
  installDecisionProof s fault proof membership :=
    s.call fault (installDecisionProofRecord s.self proof membership)
  inspectRecordSummary s fault slot := s.call fault (inspectRecordSummary s.self slot)
  supportsContextReadFence _ := true
  observeReadFence s fault request := s.call fault (observeReadFence s.self request)
  occur := occur
  register s := s.recorder.register
  holds s proof := ∃ slot state, s.recorder.slots slot = some state ∧
    state.decidedProof = some proof

def freshDisk (self : Identity) (configId : Nat) (membership : Membership) : Disk where
  configuration := some (.initial configId membership.digest (some membership))
  recordedHead := some ⟨self.clusterId, self.epoch, configId, membership.digest, .empty, .default⟩
  intent := none
  headIntent := none
  slots := fun _ => none
  commands := fun _ => none
  wal := some ⟨[], 0⟩

def fresh (self : Identity) (configId : Nat) (membership : Membership) : FileRecorder where
  self := self
  disk := freshDisk self configId membership
  memory := some ⟨.initial configId membership.digest (some membership), .empty, .default⟩
  retired := []

end Calls

end FileRecorder

end Rhiza.Quepaxa
