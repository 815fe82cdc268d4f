import Rhiza.Kv.RoundTrip

/-! # Commands of the key-value profile have one payload

What is decoded was written like this: a payload that is accepted is the encoding of
the commands that come out of it, alone or as a batch.
-/

namespace Rhiza.Kv

open Core Library

theorem takeBytes_inverse {n : Nat} {input front rest : Bytes}
    (h : takeBytes n input = .ok (front, rest)) : input = front ++ rest ∧ front.length = n :=
  takeOr_eq_ok h

theorem takeUint_inverse {width n : Nat} {input rest : Bytes}
    (h : takeUint width input = .ok (n, rest)) : input = toBeBytes width n ++ rest :=
  takeUintOr_eq_ok h

theorem lengthPrefixedU32_inverse {maximum : Nat} {name : String} {input bytes rest : Bytes}
    (h : lengthPrefixedU32 maximum name input = .ok (bytes, rest)) :
    input = toBeBytes 4 bytes.length ++ bytes ++ rest := by
  simp only [lengthPrefixedU32, bind_ok_iff, exists_ensure_iff] at h
  obtain ⟨⟨length, body⟩, hLength, -, hBytes⟩ := h
  obtain ⟨rfl, rfl⟩ := takeBytes_inverse hBytes
  rw [takeUint_inverse hLength, List.append_assoc]

theorem KvOperationV1.encode_decodeTagged {tag : Nat} {input rest : Bytes}
    {operation : KvOperationV1} (h : decodeTagged tag input = .ok (operation, rest)) :
    toBeBytes 1 tag ++ input = operation.encode ++ rest := by
  unfold decodeTagged at h
  split at h
  · rename_i hTag
    simp only [bind_ok_iff] at h
    obtain ⟨⟨key, afterKey⟩, hKey, ⟨value, afterValue⟩, hValue, h⟩ := h
    cases h
    dsimp only at hValue ⊢
    rw [hTag, lengthPrefixedU32_inverse hKey, lengthPrefixedU32_inverse hValue]
    simp only [encode, List.append_assoc]
    rfl
  · split at h
    · rename_i hTag
      obtain ⟨⟨key, afterKey⟩, hKey, h⟩ := bind_ok_iff.mp h
      cases h
      rw [hTag, lengthPrefixedU32_inverse hKey]
      simp only [encode, List.append_assoc]
      rfl
    · cases h

theorem KvCommandV1.encode_decode {encoded : Bytes} {command : KvCommandV1}
    (h : decode encoded = .ok command) : command.validate = .ok () ∧ command.encode = encoded := by
  simp only [decode, bind_ok_iff, exists_ensure_iff, finish] at h
  obtain ⟨⟨magic, afterMagic⟩, hMagic, rfl, ⟨length, afterLength⟩, hLength, ⟨bytes, afterId⟩, hBytes,
    requestId, hId, ⟨tag, afterTag⟩, hTag, ⟨operation, rest⟩, hOperation, rfl, ⟨⟩, hValid, h⟩ := h
  cases h
  refine ⟨hValid, ?_⟩
  dsimp only at *
  rw [requestIdFromUtf8, elim_ok_iff] at hId
  obtain ⟨rfl, -⟩ := takeBytes_inverse hMagic
  obtain ⟨rfl, rfl⟩ := takeBytes_inverse hBytes
  rw [takeUint_inverse hLength, takeUint_inverse hTag, KvOperationV1.encode_decodeTagged hOperation,
    encode, utf8_of_fromUtf8 hId, List.append_nil]
  simp only [List.append_assoc]

theorem KvOperationV1.encode_length {operation : KvOperationV1}
    (hKey : operation.key.length ≤ maxKvKeyBytes)
    (hValue : operation.value?.all (·.length ≤ maxKvValueBytes) = true) :
    operation.encode.length ≤ 9 + maxKvKeyBytes + maxKvValueBytes := by
  cases operation with
  | put key value =>
    have hKeyFits : key.length ≤ maxKvKeyBytes := hKey
    have hValueFits : value.length ≤ maxKvValueBytes := of_decide_eq_true hValue
    simp only [encode, List.length_append, toBeBytes_length, List.length_cons, List.length_nil]
    omega
  | delete key =>
    have hKeyFits : key.length ≤ maxKvKeyBytes := hKey
    simp only [encode, List.length_append, toBeBytes_length, List.length_cons, List.length_nil]
    omega

theorem KvCommandV1.encode_length {command : KvCommandV1} (h : command.validate = .ok ()) :
    command.encode.length < 2 ^ 32 := by
  have hValid := validate_iff.mp h
  have hOperation := KvOperationV1.encode_length hValid.key hValid.value
  have hId := hValid.requestId
  have hMagic : commandMagic.length = 6 := by decide
  have hSum : 8 + maxRequestIdBytes + (9 + maxKvKeyBytes + maxKvValueBytes) < 2 ^ 32 := by decide
  simp only [encode, List.length_append, toBeBytes_length, hMagic]
  omega

theorem encodeReplicatedKvCommand_of_valid {command : KvCommandV1} (h : command.validate = .ok ()) :
    encodeReplicatedKvCommand command =
      .ok (ReplicatedCommandEnvelope.layout ⟨.kv, commandVersion, command.requestId, command.encode⟩) := by
  have hValid := KvCommandV1.validate_iff.mp h
  have hFields : validateCommandEnvelopeFields commandVersion command.requestId command.encode =
      .ok () := by
    have hId : (utf8 command.requestId).length < 2 ^ 16 := lt_of_le_of_lt hValid.requestId (by decide)
    simp only [validateCommandEnvelopeFields, unit_bind_ok_iff, ensure_ok_iff]
    exact ⟨by decide, hValid.named, hId, KvCommandV1.encode_length h⟩
  rw [encodeReplicatedKvCommand, h, ok_bind]
  exact encodeEnvelope_iff.mpr ⟨hFields, rfl⟩

theorem encode_of_decodeReplicated {payload : Bytes} {command : KvCommandV1}
    (h : decodeReplicatedKvCommand payload = .ok command) :
    encodeReplicatedKvCommand command = .ok payload := by
  simp only [decodeReplicatedKvCommand, expectKvProfile, bind_ok_iff, exists_ensure_iff] at h
  obtain ⟨envelope, hEnvelope, hProfile, hVersion, decoded, hDecode, hId, h⟩ := h
  cases h
  obtain ⟨hValid, hBody⟩ := KvCommandV1.encode_decode hDecode
  have hRead : ReplicatedCommandEnvelope.decode payload = .ok envelope := by
    cases hResult : ReplicatedCommandEnvelope.decode payload with
    | error error =>
      rw [hResult] at hEnvelope
      cases hEnvelope
    | ok read =>
      rw [hResult] at hEnvelope
      exact congrArg Except.ok (Except.ok.inj hEnvelope)
  obtain ⟨-, hLayout⟩ := ReplicatedCommandEnvelope.layout_of_decode hRead
  rw [encodeReplicatedKvCommand_of_valid hValid, hLayout, hId, hBody, ← hProfile, ← hVersion]

def Written (payload : Bytes) (members : List DecodedKvCommand) : Prop :=
  (∀ member ∈ members,
    encodeReplicatedKvCommand member.command = .ok member.individualPayload) ∧
  ((∃ command, members = [⟨command, payload⟩]) ∨
    encodeReplicatedKvBatch (members.map (·.command)) = .ok payload)

theorem individual_of_decodeBatchMembers {count : Nat} {seen : List String} {input rest : Bytes}
    {members : List DecodedKvCommand} (h : decodeBatchMembers count seen input = .ok (members, rest)) :
    ∀ member ∈ members, encodeReplicatedKvCommand member.command = .ok member.individualPayload := by
  induction count generalizing seen input members rest with
  | zero =>
    cases h
    exact fun _ hMember => absurd hMember List.not_mem_nil
  | succ count ih =>
    simp only [decodeBatchMembers, bind_ok_iff, exists_ensure_iff] at h
    obtain ⟨length, -, encoded, -, command, -, -, -, payload, hPayload, ⟨later, last⟩, hLater, h⟩ := h
    cases h
    exact List.forall_mem_cons.mpr ⟨hPayload, ih hLater⟩

theorem decodeReplicatedKvCommands_iff {payload : Bytes} {members : List DecodedKvCommand} :
    decodeReplicatedKvCommands payload = .ok members ↔ Written payload members := by
  constructor
  · intro h
    simp only [decodeReplicatedKvCommands, bind_ok_iff] at h
    obtain ⟨envelope, -, ⟨⟩, -, h⟩ := h
    split at h
    · obtain ⟨command, hCommand, h⟩ := bind_ok_iff.mp h
      cases h
      refine ⟨List.forall_mem_singleton.mpr ?_, .inl ⟨command, rfl⟩⟩
      exact encode_of_decodeReplicated hCommand
    · split at h
      · simp only [decodeBatch, bind_ok_iff, exists_ensure_iff] at h
        obtain ⟨-, magic, -, -, count, -, -, ⟨decoded, rest⟩, hMembers, ⟨⟩, -, canonical, hCanonical,
          rfl, h⟩ := h
        cases h
        exact ⟨individual_of_decodeBatchMembers hMembers, .inr hCanonical⟩
      · cases h
  · rintro ⟨hIndividual, ⟨command, rfl⟩ | hBatch⟩
    · exact decodeReplicatedKvCommands_single (hIndividual _ List.mem_cons_self)
    · exact decodeReplicatedKvCommands_batch hIndividual hBatch

theorem decode_of_encodeReplicatedKvBatch {commands : List KvCommandV1} {payload : Bytes}
    (h : encodeReplicatedKvBatch commands = .ok payload) :
    ∃ members, decodeReplicatedKvCommands payload = .ok members ∧
      members.map (·.command) = commands := by
  obtain ⟨-, hBatchable, -⟩ := encodeReplicatedKvBatch_eq_ok.mp h
  let member (command : KvCommandV1) : DecodedKvCommand :=
    ⟨command, ReplicatedCommandEnvelope.layout ⟨.kv, commandVersion, command.requestId, command.encode⟩⟩
  have hSame : (commands.map member).map (·.command) = commands := by
    rw [List.map_map]
    exact List.map_id commands
  refine ⟨commands.map member, decodeReplicatedKvCommands_iff.mpr ⟨fun decoded hDecoded => ?_, .inr ?_⟩,
    hSame⟩
  · obtain ⟨command, hCommand, rfl⟩ := List.mem_map.mp hDecoded
    exact encodeReplicatedKvCommand_of_valid (hBatchable.valid command hCommand)
  · rwa [hSame]

theorem formOf_single {command : KvCommandV1} {payload : Bytes}
    (h : encodeReplicatedKvCommand command = .ok payload) :
    ReplicatedCommandEnvelope.formOf payload = some commandVersion := by
  obtain ⟨⟨⟩, -, hEnvelope⟩ := bind_ok_iff.mp h
  rw [ReplicatedCommandEnvelope.formOf, encodeEnvelope_eq_ok (by decide) hEnvelope]
  rfl

theorem formOf_batch {commands : List KvCommandV1} {payload : Bytes}
    (h : encodeReplicatedKvBatch commands = .ok payload) :
    ReplicatedCommandEnvelope.formOf payload = some batchCommandVersion := by
  obtain ⟨-, -, hEnvelope⟩ := encodeReplicatedKvBatch_eq_ok.mp h
  rw [ReplicatedCommandEnvelope.formOf, encodeEnvelope_eq_ok (by decide) hEnvelope]
  rfl

theorem payload_unique {payload payload' : Bytes} {members members' : List DecodedKvCommand}
    (h : decodeReplicatedKvCommands payload = .ok members)
    (h' : decodeReplicatedKvCommands payload' = .ok members')
    (hCommands : members.map (·.command) = members'.map (·.command))
    (hSame : ReplicatedCommandEnvelope.formOf payload = ReplicatedCommandEnvelope.formOf payload') :
    payload = payload' := by
  obtain ⟨hIndividual, hForm⟩ := decodeReplicatedKvCommands_iff.mp h
  obtain ⟨hIndividual', hForm'⟩ := decodeReplicatedKvCommands_iff.mp h'
  have hOther : some commandVersion ≠ some batchCommandVersion := by decide
  rcases hForm with ⟨command, rfl⟩ | hBatch
  · have hEncode := hIndividual _ List.mem_cons_self
    rcases hForm' with ⟨command', rfl⟩ | hBatch'
    · have hEncode' := hIndividual' _ List.mem_cons_self
      obtain rfl : command = command' := (List.cons.inj hCommands).1
      exact Except.ok.inj (hEncode.symm.trans hEncode')
    · rw [formOf_single hEncode, formOf_batch hBatch'] at hSame
      exact absurd hSame hOther
  · rcases hForm' with ⟨command', rfl⟩ | hBatch'
    · rw [formOf_batch hBatch, formOf_single (hIndividual' _ List.mem_cons_self)] at hSame
      exact absurd hSame.symm hOther
    · rw [hCommands] at hBatch
      exact Except.ok.inj (hBatch.symm.trans hBatch')

end Rhiza.Kv
