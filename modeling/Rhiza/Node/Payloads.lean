import Rhiza.Graph.Canonical
import Rhiza.Kv.Canonical

/-! # Replicated payloads are canonical -/

namespace Rhiza.Node

open Core Library

structure Constructed (command : Graph.GraphCommandV1) : Prop where
  valid : command.validate = .ok ()
  inRange : command.operation.InRange

/-- What is written is read back, and what is read was written like this, by the batch or the single
command that it holds. The members of a batch have the payloads that they have alone, and commands
have one payload in each form. -/
theorem payloads_are_canonical :
    ((∀ command payload, Kv.encodeReplicatedKvCommand command = .ok payload →
        Kv.decodeReplicatedKvCommands payload = .ok [⟨command, payload⟩]) ∧
      (∀ commands payload, Kv.encodeReplicatedKvBatch commands = .ok payload →
        ∃ members, Kv.decodeReplicatedKvCommands payload = .ok members ∧
          members.map (·.command) = commands) ∧
      (∀ payload members, Kv.decodeReplicatedKvCommands payload = .ok members →
        (∀ member ∈ members,
          Kv.encodeReplicatedKvCommand member.command = .ok member.individualPayload) ∧
        ((∃ command, members = [⟨command, payload⟩]) ∨
          Kv.encodeReplicatedKvBatch (members.map (·.command)) = .ok payload)) ∧
      ∀ payload payload' members members', Kv.decodeReplicatedKvCommands payload = .ok members →
        Kv.decodeReplicatedKvCommands payload' = .ok members' →
        members.map (·.command) = members'.map (·.command) →
        ReplicatedCommandEnvelope.formOf payload = ReplicatedCommandEnvelope.formOf payload' →
        payload = payload') ∧
    (∀ command payload, Constructed command →
        Graph.encodeReplicatedGraphCommand command = .ok payload →
        Graph.decodeReplicatedGraphCommands payload = .ok [⟨command, payload⟩]) ∧
      (∀ commands payload, (∀ command ∈ commands, Constructed command) →
        Graph.encodeReplicatedGraphBatch commands = .ok payload →
        ∃ members, Graph.decodeReplicatedGraphCommands payload = .ok members ∧
          members.map (·.command) = commands) ∧
      (∀ payload members, Graph.decodeReplicatedGraphCommands payload = .ok members →
        (∀ member ∈ members,
          Graph.encodeReplicatedGraphCommand member.command = .ok member.individualPayload) ∧
        ((∃ command, members = [⟨command, payload⟩]) ∨
          Graph.encodeReplicatedGraphBatch (members.map (·.command)) = .ok payload)) ∧
      ∀ payload payload' members members', Graph.decodeReplicatedGraphCommands payload = .ok members →
        Graph.decodeReplicatedGraphCommands payload' = .ok members' →
        members.map (·.command) = members'.map (·.command) →
        ReplicatedCommandEnvelope.formOf payload = ReplicatedCommandEnvelope.formOf payload' →
        payload = payload' := by
  refine ⟨⟨?_, ?_, ?_, ?_⟩, ?_, ?_, ?_, ?_⟩
  · intro command payload h
    exact Kv.decodeReplicatedKvCommands_single h
  · intro commands payload h
    exact Kv.decode_of_encodeReplicatedKvBatch h
  · intro payload members h
    exact Kv.decodeReplicatedKvCommands_iff.mp h
  · intro payload payload' members members' h h' hCommands hForm
    exact Kv.payload_unique h h' hCommands hForm
  · intro command payload hConstructed h
    exact Graph.decodeReplicatedGraphCommands_single hConstructed.inRange hConstructed.valid h
  · intro commands payload hConstructed h
    exact Graph.decode_of_encodeReplicatedGraphBatch
      (fun command hCommand => (hConstructed command hCommand).inRange) h
  · intro payload members h
    obtain ⟨hMembers, hForm⟩ := Graph.written_of_decode h
    exact ⟨fun member hMember => (hMembers member hMember).2, hForm⟩
  · intro payload payload' members members' h h' hCommands hForm
    exact Graph.payload_unique h h' hCommands hForm

namespace Deleted

def command : Kv.KvCommandV1 := ⟨"r", .delete [1]⟩

def payload : Bytes :=
  ReplicatedCommandEnvelope.layout ⟨.kv, Kv.commandVersion, command.requestId, command.encode⟩

/-- The payload of one deletion. -/
theorem payload_is_read : Kv.encodeReplicatedKvCommand command = .ok payload ∧
    Kv.decodeReplicatedKvCommands payload = .ok [⟨command, payload⟩] := by
  have hEncode : Kv.encodeReplicatedKvCommand command = .ok payload := by decide +kernel
  exact ⟨hEncode, payloads_are_canonical.1.1 command payload hEncode⟩

end Deleted

end Rhiza.Node
