import Rhiza.Graph.RoundTrip

/-! # Commands of the graph profile have one payload

As for the key-value profile. The decoder compares what it has read with its encoding.
-/

namespace Rhiza.Graph

open Core Library

theorem GraphCommandV1.encode_decode {encoded : Bytes} {command : GraphCommandV1}
    (h : decode encoded = .ok command) : command.validate = .ok () ∧ command.encode = encoded := by
  simp only [decode, bind_ok_iff, exists_ensure_iff] at h
  obtain ⟨⟨magic, afterMagic⟩, -, -, ⟨requestId, afterId⟩, -, ⟨tag, afterTag⟩, -, ⟨operation, rest⟩, -,
    -, ⟨⟩, hValid, hSame, h⟩ := h
  cases h
  exact ⟨hValid, hSame⟩

theorem writeBytes_length (bytes : Bytes) : (writeBytes bytes).length = 4 + bytes.length := by
  rw [writeBytes, List.length_append, toBeBytes_length]

theorem GraphValueV1.encode_length {value : GraphValueV1} (h : value.validate = .ok ()) :
    value.encode.length ≤ 9 + maxStringBytes := by
  have hLess : maxBlobBytes ≤ maxStringBytes := by decide
  cases value with
  | null => exact Nat.le_add_left _ _
  | bool value =>
    cases value <;> exact Nat.le_add_left _ _
  | i64 value =>
    simp only [encode, List.length_append, toBeBytes_length, List.length_cons, List.length_nil]
    omega
  | u64 value =>
    simp only [encode, List.length_append, toBeBytes_length, List.length_cons, List.length_nil]
    omega
  | f64 value =>
    simp only [encode, List.length_append, toBeBytes_length, List.length_cons, List.length_nil]
    omega
  | string value =>
    have hFits : (utf8 value).length ≤ maxStringBytes := ensure_ok_iff.mp h
    simp only [encode, List.length_append, writeBytes_length, List.length_cons, List.length_nil]
    omega
  | bytes value =>
    have hFits : value.length ≤ maxBlobBytes := ensure_ok_iff.mp h
    simp only [encode, List.length_append, writeBytes_length, List.length_cons, List.length_nil]
    omega

theorem GraphOperationV1.encode_length {operation : GraphOperationV1}
    (h : operation.validate = .ok ()) :
    operation.encode.length ≤ 14 + maxDocumentIdBytes + maxStringBytes := by
  cases operation with
  | putDocument id value =>
    obtain ⟨⟨⟩, hId, hValue⟩ := bind_ok_iff.mp h
    have hFits := (ensure_ok_iff.mp hId).2
    have hSize := GraphValueV1.encode_length hValue
    simp only [encode, List.length_append, writeBytes_length, List.length_cons, List.length_nil]
    omega
  | deleteDocument id =>
    have hFits := (ensure_ok_iff.mp h).2
    simp only [encode, List.length_append, writeBytes_length, List.length_cons, List.length_nil]
    omega

theorem GraphCommandV1.encode_length {command : GraphCommandV1} (h : command.validate = .ok ()) :
    command.encode.length < 2 ^ 32 := by
  obtain ⟨⟨⟩, hId, hOperation⟩ := bind_ok_iff.mp h
  have hFits := (ensure_ok_iff.mp hId).2
  have hSize := GraphOperationV1.encode_length hOperation
  have hMagic : commandMagic.length = 6 := by decide
  have hSum : 10 + maxRequestIdBytes + (14 + maxDocumentIdBytes + maxStringBytes) < 2 ^ 32 := by decide
  simp only [encode, List.length_append, writeBytes_length, hMagic]
  omega

theorem encodeReplicatedGraphCommand_of_valid {command : GraphCommandV1}
    (h : command.validate = .ok ()) : encodeReplicatedGraphCommand command =
      .ok (ReplicatedCommandEnvelope.layout
        ⟨.graph, commandVersion, command.requestId, command.encode⟩) := by
  obtain ⟨⟨⟩, hId, -⟩ := bind_ok_iff.mp h
  obtain ⟨hNamed, hFits⟩ := ensure_ok_iff.mp hId
  have hFields : validateCommandEnvelopeFields commandVersion command.requestId command.encode =
      .ok () := by
    have hIdLength : (utf8 command.requestId).length < 2 ^ 16 := lt_of_le_of_lt hFits (by decide)
    simp only [validateCommandEnvelopeFields, unit_bind_ok_iff, ensure_ok_iff]
    exact ⟨by decide, hNamed, hIdLength, GraphCommandV1.encode_length h⟩
  exact encodeEnvelope_iff.mpr ⟨hFields, rfl⟩

theorem encode_of_decodeReplicated {payload : Bytes} {command : GraphCommandV1}
    (h : decodeReplicatedGraphCommand payload = .ok command) :
    command.validate = .ok () ∧ encodeReplicatedGraphCommand command = .ok payload := by
  simp only [decodeReplicatedGraphCommand, expectGraphProfile, bind_ok_iff, exists_ensure_iff] at h
  obtain ⟨envelope, hEnvelope, hProfile, hVersion, decoded, hDecode, hId, h⟩ := h
  cases h
  obtain ⟨hValid, hBody⟩ := GraphCommandV1.encode_decode hDecode
  have hRead : ReplicatedCommandEnvelope.decode payload = .ok envelope := by
    cases hResult : ReplicatedCommandEnvelope.decode payload with
    | error error =>
      rw [hResult] at hEnvelope
      cases hEnvelope
    | ok read =>
      rw [hResult] at hEnvelope
      exact congrArg Except.ok (Except.ok.inj hEnvelope)
  obtain ⟨-, hLayout⟩ := ReplicatedCommandEnvelope.layout_of_decode hRead
  refine ⟨hValid, ?_⟩
  rw [encodeReplicatedGraphCommand_of_valid hValid, hLayout, ← hId, hBody, ← hProfile, ← hVersion]

def Written (payload : Bytes) (members : List DecodedGraphCommand) : Prop :=
  (∀ member ∈ members, member.command.validate = .ok () ∧
    encodeReplicatedGraphCommand member.command = .ok member.individualPayload) ∧
  ((∃ command, members = [⟨command, payload⟩]) ∨
    encodeReplicatedGraphBatch (members.map (·.command)) = .ok payload)

theorem individual_of_decodeBatchMembers {count : Nat} {seen : List String} {input rest : Bytes}
    {members : List DecodedGraphCommand}
    (h : decodeBatchMembers count seen input = .ok (members, rest)) :
    ∀ member ∈ members, member.command.validate = .ok () ∧
      encodeReplicatedGraphCommand member.command = .ok member.individualPayload := by
  induction count generalizing seen input members rest with
  | zero =>
    cases h
    exact fun _ hMember => absurd hMember List.not_mem_nil
  | succ count ih =>
    simp only [decodeBatchMembers, bind_ok_iff, exists_ensure_iff] at h
    obtain ⟨⟨encoded, afterMember⟩, -, command, hDecode, -, payload, hPayload, ⟨later, last⟩, hLater,
      h⟩ := h
    cases h
    exact List.forall_mem_cons.mpr ⟨⟨(GraphCommandV1.encode_decode hDecode).1, hPayload⟩, ih hLater⟩

theorem written_of_decode {payload : Bytes} {members : List DecodedGraphCommand}
    (h : decodeReplicatedGraphCommands payload = .ok members) : Written payload members := by
  simp only [decodeReplicatedGraphCommands, bind_ok_iff] at h
  obtain ⟨envelope, -, ⟨⟩, -, h⟩ := h
  split at h
  · obtain ⟨command, hCommand, h⟩ := bind_ok_iff.mp h
    cases h
    refine ⟨List.forall_mem_singleton.mpr ?_, .inl ⟨command, rfl⟩⟩
    exact encode_of_decodeReplicated hCommand
  · split at h
    · simp only [decodeBatch, bind_ok_iff, exists_ensure_iff] at h
      obtain ⟨-, magic, -, -, count, -, -, ⟨decoded, rest⟩, hMembers, -, canonical, hCanonical,
        rfl, h⟩ := h
      cases h
      exact ⟨individual_of_decodeBatchMembers hMembers, .inr hCanonical⟩
    · cases h

theorem decode_of_written {payload : Bytes} {members : List DecodedGraphCommand}
    (hRange : ∀ member ∈ members, member.command.operation.InRange) (h : Written payload members) :
    decodeReplicatedGraphCommands payload = .ok members := by
  obtain ⟨hIndividual, ⟨command, rfl⟩ | hBatch⟩ := h
  · obtain ⟨hValid, hEncode⟩ := hIndividual _ List.mem_cons_self
    exact decodeReplicatedGraphCommands_single (hRange _ List.mem_cons_self) hValid hEncode
  · refine decodeReplicatedGraphCommands_batch hRange (fun member hMember => ?_)
      (fun member hMember => (hIndividual member hMember).2) hBatch
    exact GraphCommandV1.encode_length (hIndividual member hMember).1

theorem decode_of_encodeReplicatedGraphBatch {commands : List GraphCommandV1} {payload : Bytes}
    (hRange : ∀ command ∈ commands, command.operation.InRange)
    (h : encodeReplicatedGraphBatch commands = .ok payload) :
    ∃ members, decodeReplicatedGraphCommands payload = .ok members ∧
      members.map (·.command) = commands := by
  obtain ⟨-, hBatchable, -⟩ := encodeReplicatedGraphBatch_eq_ok.mp h
  let member (command : GraphCommandV1) : DecodedGraphCommand :=
    ⟨command,
      ReplicatedCommandEnvelope.layout ⟨.graph, commandVersion, command.requestId, command.encode⟩⟩
  have hSame : (commands.map member).map (·.command) = commands := by
    rw [List.map_map]
    exact List.map_id commands
  refine ⟨commands.map member, decode_of_written (fun decoded hDecoded => ?_)
    ⟨fun decoded hDecoded => ?_, .inr ?_⟩, hSame⟩
  · obtain ⟨command, hCommand, rfl⟩ := List.mem_map.mp hDecoded
    exact hRange command hCommand
  · obtain ⟨command, hCommand, rfl⟩ := List.mem_map.mp hDecoded
    have hValid := hBatchable.valid command hCommand
    exact ⟨hValid, encodeReplicatedGraphCommand_of_valid hValid⟩
  · rwa [hSame]

theorem formOf_single {command : GraphCommandV1} {payload : Bytes}
    (h : encodeReplicatedGraphCommand command = .ok payload) :
    ReplicatedCommandEnvelope.formOf payload = some commandVersion := by
  rw [ReplicatedCommandEnvelope.formOf, encodeEnvelope_eq_ok (by decide) h]
  rfl

theorem formOf_batch {commands : List GraphCommandV1} {payload : Bytes}
    (h : encodeReplicatedGraphBatch commands = .ok payload) :
    ReplicatedCommandEnvelope.formOf payload = some batchCommandVersion := by
  obtain ⟨-, -, hEnvelope⟩ := encodeReplicatedGraphBatch_eq_ok.mp h
  rw [ReplicatedCommandEnvelope.formOf, encodeEnvelope_eq_ok (by decide) hEnvelope]
  rfl

theorem payload_unique {payload payload' : Bytes} {members members' : List DecodedGraphCommand}
    (h : decodeReplicatedGraphCommands payload = .ok members)
    (h' : decodeReplicatedGraphCommands payload' = .ok members')
    (hCommands : members.map (·.command) = members'.map (·.command))
    (hSame : ReplicatedCommandEnvelope.formOf payload = ReplicatedCommandEnvelope.formOf payload') :
    payload = payload' := by
  obtain ⟨hIndividual, hForm⟩ := written_of_decode h
  obtain ⟨hIndividual', hForm'⟩ := written_of_decode h'
  have hOther : some commandVersion ≠ some batchCommandVersion := by decide
  rcases hForm with ⟨command, rfl⟩ | hBatch
  · have hEncode := (hIndividual _ List.mem_cons_self).2
    rcases hForm' with ⟨command', rfl⟩ | hBatch'
    · have hEncode' := (hIndividual' _ List.mem_cons_self).2
      obtain rfl : command = command' := (List.cons.inj hCommands).1
      exact Except.ok.inj (hEncode.symm.trans hEncode')
    · rw [formOf_single hEncode, formOf_batch hBatch'] at hSame
      exact absurd hSame hOther
  · rcases hForm' with ⟨command', rfl⟩ | hBatch'
    · rw [formOf_batch hBatch, formOf_single ((hIndividual' _ List.mem_cons_self).2)] at hSame
      exact absurd hSame.symm hOther
    · rw [hCommands] at hBatch
      exact Except.ok.inj (hBatch.symm.trans hBatch')

end Rhiza.Graph
