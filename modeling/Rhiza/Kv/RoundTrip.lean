import Rhiza.Core.EnvelopeTrip
import Rhiza.Kv.Materialize

/-! # Commands of the key-value profile are read back

What is written is read back: a command, its entry, and a batch with the
payloads that its members would have had alone.
-/

namespace Rhiza.Kv

open Core Library

theorem lengthPrefixedU32_append {maximum : Nat} {name : String} {bytes : Bytes}
    (h : bytes.length ≤ maximum) (hFits : maximum < 256 ^ 4) (rest : Bytes) :
    lengthPrefixedU32 maximum name (toBeBytes 4 bytes.length ++ (bytes ++ rest)) =
      .ok (bytes, rest) := by
  rw [lengthPrefixedU32, takeUint_append 4 _ (lt_of_le_of_lt h hFits), ok_bind]
  dsimp only
  rw [ensure_of h, ok_bind, takeBytes_append rest rfl]

structure KvCommandV1.Valid (command : KvCommandV1) : Prop where
  named : command.requestId ≠ ""
  requestId : (utf8 command.requestId).length ≤ maxRequestIdBytes
  keyed : command.operation.key ≠ []
  key : command.operation.key.length ≤ maxKvKeyBytes
  value : command.operation.value?.all (·.length ≤ maxKvValueBytes) = true

theorem KvCommandV1.validate_iff {command : KvCommandV1} :
    command.validate = .ok () ↔ command.Valid := by
  simp only [validate, validateKey, unit_bind_ok_iff, ensure_ok_iff]
  constructor
  · rintro ⟨hNamed, hId, ⟨hKeyed, hKey⟩, hValue⟩
    exact ⟨hNamed, hId, hKeyed, hKey, hValue⟩
  · intro h
    exact ⟨h.named, h.requestId, ⟨h.keyed, h.key⟩, h.value⟩

theorem KvOperationV1.decode_encode {operation : KvOperationV1}
    (hKey : operation.key.length ≤ maxKvKeyBytes)
    (hValue : operation.value?.all (·.length ≤ maxKvValueBytes) = true) (rest : Bytes) :
    ∃ tag body, operation.encode = toBeBytes 1 tag ++ body ∧ tag < 256 ^ 1 ∧
      decodeTagged tag (body ++ rest) = .ok (operation, rest) := by
  cases operation with
  | put key value =>
    refine ⟨1, toBeBytes 4 key.length ++ (key ++ (toBeBytes 4 value.length ++ value)), ?_,
      by decide, ?_⟩
    · simp only [encode, List.append_assoc]
      rfl
    · have hKeyFits : key.length ≤ maxKvKeyBytes := hKey
      have hValueFits : value.length ≤ maxKvValueBytes := of_decide_eq_true hValue
      simp only [decodeTagged, if_true, List.append_assoc]
      rw [lengthPrefixedU32_append hKeyFits (by decide), ok_bind]
      dsimp only
      rw [lengthPrefixedU32_append hValueFits (by decide), ok_bind]
  | delete key =>
    refine ⟨2, toBeBytes 4 key.length ++ key, ?_, by decide, ?_⟩
    · simp only [encode, List.append_assoc]
      rfl
    · have hKeyFits : key.length ≤ maxKvKeyBytes := hKey
      simp only [decodeTagged, if_neg (by decide : ¬(2 = 1)), if_true, List.append_assoc]
      rw [lengthPrefixedU32_append hKeyFits (by decide), ok_bind]

theorem KvCommandV1.decode_encode {command : KvCommandV1} (h : command.validate = .ok ()) :
    decode command.encode = .ok command := by
  have hValid := validate_iff.mp h
  obtain ⟨tag, body, hOperation, hTag, hDecode⟩ :=
    KvOperationV1.decode_encode hValid.key hValid.value []
  have hId : (utf8 command.requestId).length < 256 ^ 2 :=
    lt_of_le_of_lt hValid.requestId (by decide)
  rw [List.append_nil] at hDecode
  unfold decode encode
  simp only [hOperation, List.append_assoc]
  rw [takeBytes_append _ rfl, ok_bind]
  dsimp only
  rw [ensure_of rfl, ok_bind, takeUint_append 2 _ hId, ok_bind]
  dsimp only
  rw [takeBytes_append _ rfl, ok_bind]
  dsimp only
  rw [requestIdFromUtf8, fromUtf8_utf8, Option.elim_some, ok_bind, takeUint_append 1 _ hTag, ok_bind]
  dsimp only
  rw [hDecode, ok_bind]
  dsimp only
  rw [finish, ensure_of rfl, ok_bind, h, ok_bind]

theorem encodeEnvelope_iff {version : Nat} {requestId : String} {body payload : Bytes} :
    encodeEnvelope version requestId body = .ok payload ↔
      validateCommandEnvelopeFields version requestId body = .ok () ∧
        payload = ReplicatedCommandEnvelope.layout ⟨.kv, version, requestId, body⟩ := by
  rw [← ReplicatedCommandEnvelope.new_encode_eq_ok, encodeEnvelope]
  cases ReplicatedCommandEnvelope.new .kv version requestId body >>=
      ReplicatedCommandEnvelope.encode with
  | error error => exact ⟨nofun, nofun⟩
  | ok bytes => exact ⟨fun h => congrArg Except.ok (Except.ok.inj h),
      fun h => congrArg Except.ok (Except.ok.inj h)⟩

theorem encodeEnvelope_eq_ok {version : Nat} {requestId : String} {body payload : Bytes}
    (hVersion : version < 2 ^ 16) (h : encodeEnvelope version requestId body = .ok payload) :
    ReplicatedCommandEnvelope.decode payload = .ok ⟨.kv, version, requestId, body⟩ := by
  obtain ⟨hFields, hLayout⟩ := encodeEnvelope_iff.mp h
  exact ReplicatedCommandEnvelope.decode_encode hVersion
    (ReplicatedCommandEnvelope.encode_eq_ok.mpr ⟨hFields, hLayout⟩)

theorem length_le_of_encodeEnvelope {version : Nat} {requestId : String} {body payload : Bytes}
    (h : encodeEnvelope version requestId body = .ok payload) : body.length ≤ payload.length := by
  obtain ⟨-, rfl⟩ := encodeEnvelope_iff.mp h
  rw [ReplicatedCommandEnvelope.layout_length]
  exact Nat.le_add_left _ _

theorem decodeReplicatedKvCommand_encode {command : KvCommandV1} {payload : Bytes}
    (h : encodeReplicatedKvCommand command = .ok payload) :
    decodeReplicatedKvCommand payload = .ok command := by
  obtain ⟨⟨⟩, hValid, hEnvelope⟩ := bind_ok_iff.mp h
  rw [decodeReplicatedKvCommand, encodeEnvelope_eq_ok (by decide) hEnvelope, liftEnvelope, ok_bind,
    expectKvProfile, ensure_of rfl, ok_bind]
  dsimp only
  rw [ensure_of rfl, ok_bind, KvCommandV1.decode_encode hValid, ok_bind, ensure_of rfl, ok_bind]

theorem decodeReplicatedKvCommands_single {command : KvCommandV1} {payload : Bytes}
    (h : encodeReplicatedKvCommand command = .ok payload) :
    decodeReplicatedKvCommands payload = .ok [⟨command, payload⟩] := by
  have hDecode := decodeReplicatedKvCommand_encode h
  obtain ⟨⟨⟩, hValid, hEnvelope⟩ := bind_ok_iff.mp h
  rw [decodeReplicatedKvCommands, encodeEnvelope_eq_ok (by decide) hEnvelope, liftEnvelope, ok_bind,
    expectKvProfile, ensure_of rfl, ok_bind, if_pos rfl, hDecode, ok_bind]

def memberBytes (command : KvCommandV1) : Bytes :=
  toBeBytes 4 command.encode.length ++ command.encode

structure Batchable (seen : List String) (commands : List KvCommandV1) : Prop where
  valid : ∀ command ∈ commands, command.validate = .ok ()
  length : ∀ command ∈ commands, command.encode.length < 2 ^ 32
  new : ∀ command ∈ commands, command.requestId ∉ seen
  distinct : (commands.map (·.requestId)).Nodup

theorem batchable_cons {seen : List String} {command : KvCommandV1} {commands : List KvCommandV1} :
    Batchable seen (command :: commands) ↔ command.validate = .ok () ∧ command.requestId ∉ seen ∧
      command.encode.length < 2 ^ 32 ∧ Batchable (command.requestId :: seen) commands := by
  constructor
  · intro h
    obtain ⟨hFirst, hRest⟩ := List.nodup_cons.mp h.distinct
    refine ⟨h.valid _ List.mem_cons_self, h.new _ List.mem_cons_self, h.length _ List.mem_cons_self,
      fun c hc => h.valid c (List.mem_cons_of_mem _ hc),
      fun c hc => h.length c (List.mem_cons_of_mem _ hc), fun c hc hSeen => ?_, hRest⟩
    rcases List.mem_cons.mp hSeen with hSame | hSeen
    · exact hFirst (List.mem_map.mpr ⟨c, hc, hSame⟩)
    · exact h.new c (List.mem_cons_of_mem _ hc) hSeen
  · rintro ⟨hValid, hNew, hLength, h⟩
    refine ⟨List.forall_mem_cons.mpr ⟨hValid, h.valid⟩, List.forall_mem_cons.mpr ⟨hLength, h.length⟩,
      List.forall_mem_cons.mpr ⟨hNew, fun c hc hSeen => h.new c hc (List.mem_cons_of_mem _ hSeen)⟩,
      List.nodup_cons.mpr ⟨fun hMem => ?_, h.distinct⟩⟩
    obtain ⟨c, hc, hSame⟩ := List.mem_map.mp hMem
    exact h.new c hc (List.mem_cons.mpr (.inl hSame))

theorem encodeBatchMembers_eq_ok {seen : List String} {body encoded : Bytes}
    {commands : List KvCommandV1} :
    encodeBatchMembers seen body commands = .ok encoded ↔
      Batchable seen commands ∧ encoded = body ++ commands.flatMap memberBytes := by
  induction commands generalizing seen body with
  | nil =>
    rw [encodeBatchMembers, List.flatMap_nil, List.append_nil, Except.ok.injEq, eq_comm]
    exact (and_iff_right ⟨nofun, nofun, nofun, List.nodup_nil⟩).symm
  | cons command commands ih =>
    rw [encodeBatchMembers, batchable_cons]
    simp only [unit_bind_ok_iff, ensure_ok_iff, ih, List.flatMap_cons, memberBytes,
      List.append_assoc, and_assoc]

theorem decodeBatchMembers_append {members : List DecodedKvCommand} {seen : List String}
    (hBatchable : Batchable seen (members.map (·.command)))
    (hPayload : ∀ member ∈ members,
      encodeReplicatedKvCommand member.command = .ok member.individualPayload) (rest : Bytes) :
    decodeBatchMembers members.length seen
      ((members.map (·.command)).flatMap memberBytes ++ rest) = .ok (members, rest) := by
  induction members generalizing seen with
  | nil => rfl
  | cons member members ih =>
    obtain ⟨hValid, hNew, hLength, hRest⟩ := batchable_cons.mp hBatchable
    have hTail := ih hRest fun m hm => hPayload m (List.mem_cons_of_mem _ hm)
    simp only [List.map_cons, List.flatMap_cons, memberBytes, List.append_assoc, List.length_cons,
      decodeBatchMembers]
    rw [takeUint_append 4 _ hLength, ok_bind]
    dsimp only
    rw [takeBytes_append _ rfl, ok_bind]
    dsimp only
    rw [KvCommandV1.decode_encode hValid, ok_bind, ensure_of rfl, ok_bind, ensure_of hNew, ok_bind,
      hPayload member List.mem_cons_self, ok_bind, hTail, ok_bind]

theorem encodeReplicatedKvBatch_eq_ok {commands : List KvCommandV1} {payload : Bytes} :
    encodeReplicatedKvBatch commands = .ok payload ↔
      (commands ≠ [] ∧ commands.length ≤ maxReplicatedKvBatchMembers) ∧ Batchable [] commands ∧
        encodeEnvelope batchCommandVersion batchRequestId (batchCommandMagic ++
          toBeBytes 2 commands.length ++ commands.flatMap memberBytes) = .ok payload := by
  rw [encodeReplicatedKvBatch, unit_bind_ok_iff, ensure_ok_iff, bind_ok_iff]
  refine and_congr_right fun _ => ?_
  simp only [encodeBatchMembers_eq_ok]
  exact ⟨fun ⟨_, ⟨hBatchable, hBody⟩, h⟩ => ⟨hBatchable, hBody ▸ h⟩,
    fun ⟨hBatchable, h⟩ => ⟨_, ⟨hBatchable, rfl⟩, h⟩⟩

theorem decodeReplicatedKvCommands_batch {members : List DecodedKvCommand} {payload : Bytes}
    (hPayload : ∀ member ∈ members,
      encodeReplicatedKvCommand member.command = .ok member.individualPayload)
    (h : encodeReplicatedKvBatch (members.map (·.command)) = .ok payload) :
    decodeReplicatedKvCommands payload = .ok members := by
  obtain ⟨⟨hSome, hFew⟩, hBatchable, hEnvelope⟩ := encodeReplicatedKvBatch_eq_ok.mp h
  have hMembers := decodeBatchMembers_append hBatchable hPayload []
  rw [List.length_map] at hFew hEnvelope
  have hCount : members.length ≠ 0 := fun hZero =>
    hSome (List.map_eq_nil_iff.mpr (List.length_eq_zero_iff.mp hZero))
  have hFits : members.length < 256 ^ 2 := lt_of_le_of_lt hFew (by decide)
  have hOther : batchCommandVersion ≠ commandVersion := by decide
  rw [List.append_nil] at hMembers
  rw [decodeReplicatedKvCommands, encodeEnvelope_eq_ok (by decide) hEnvelope, liftEnvelope, ok_bind,
    expectKvProfile, ensure_of rfl, ok_bind, if_neg hOther, if_pos rfl, decodeBatch,
    ensure_of rfl, ok_bind]
  simp only [List.append_assoc]
  rw [takeBytes_append _ rfl, ok_bind]
  dsimp only
  rw [ensure_of rfl, ok_bind, takeUint_append 2 _ hFits, ok_bind]
  dsimp only
  rw [ensure_of ⟨hCount, hFew⟩, ok_bind, hMembers, ok_bind]
  dsimp only
  rw [finish, ensure_of rfl, ok_bind, h, ok_bind, ensure_of rfl, ok_bind]

end Rhiza.Kv
