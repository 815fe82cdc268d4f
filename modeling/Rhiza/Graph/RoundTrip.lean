import Rhiza.Core.EnvelopeTrip
import Rhiza.Graph.Materialize

/-! # Commands of the graph profile are read back

As for the key-value profile, for values that the types of the source have.
-/

namespace Rhiza.Graph

open Core Library

theorem takeBytes_append {n : Nat} {front : Bytes} (rest : Bytes) (h : front.length = n) :
    takeBytes n (front ++ rest) = .ok (front, rest) :=
  takeOr_append _ rest h

theorem takeUint_append (width : Nat) {n : Nat} (rest : Bytes) (h : n < 256 ^ width) :
    takeUint width (toBeBytes width n ++ rest) = .ok (n, rest) :=
  takeUintOr_append _ width rest h

theorem prefixedBytes_append {maximum : Option Nat} {bytes : Bytes}
    (hMaximum : maximum.all (bytes.length ≤ ·) = true) (hFits : bytes.length < 256 ^ 4)
    (rest : Bytes) : prefixedBytes maximum (writeBytes bytes ++ rest) = .ok (bytes, rest) := by
  rw [prefixedBytes, writeBytes, List.append_assoc, takeUint_append 4 _ hFits, ok_bind]
  dsimp only
  rw [ensure_of hMaximum, ok_bind, takeBytes_append rest rfl]

theorem prefixedString_append {maximum : Nat} {text : String}
    (hMaximum : (utf8 text).length ≤ maximum) (hFits : maximum < 256 ^ 4) (rest : Bytes) :
    prefixedString maximum (writeBytes (utf8 text) ++ rest) = .ok (text, rest) := by
  have hAll : (some maximum).all ((utf8 text).length ≤ ·) = true := decide_eq_true hMaximum
  rw [prefixedString, prefixedBytes_append hAll (lt_of_le_of_lt hMaximum hFits), ok_bind]
  dsimp only
  rw [fromUtf8_utf8, Option.elim_some, ok_bind]

def GraphValueV1.InRange : GraphValueV1 → Prop
  | u64 value => value < 2 ^ 64
  | f64 value => value.bits < 2 ^ 64 ∧ CanonicalF64.new value.bits = .ok value
  | _ => True

def GraphOperationV1.InRange : GraphOperationV1 → Prop
  | putDocument _ value => value.InRange
  | deleteDocument _ => True

theorem GraphValueV1.decode_encode {value : GraphValueV1} (hRange : value.InRange)
    (hValid : value.validate = .ok ()) (rest : Bytes) :
    decode (value.encode ++ rest) = .ok (value, rest) := by
  have hTag : ∃ tag body, value.encode = toBeBytes 1 tag ++ body ∧ tag < 256 ^ 1 ∧
      decodeTagged (body ++ rest) tag = .ok (value, rest) := by
    cases value with
    | null => exact ⟨0, [], rfl, by decide, rfl⟩
    | bool value =>
      cases value with
      | false => exact ⟨1, [], rfl, by decide, rfl⟩
      | true => exact ⟨2, [], rfl, by decide, rfl⟩
    | i64 value =>
      refine ⟨3, toBeBytes 8 value.toUInt64.toNat, rfl, by decide, ?_⟩
      rw [decodeTagged, takeUint_append 8 _ value.toUInt64.toNat_lt, ok_bind]
      dsimp only
      rw [UInt64.ofNat_toNat, Int64.toInt64_toUInt64]
    | u64 value =>
      refine ⟨4, toBeBytes 8 value, rfl, by decide, ?_⟩
      rw [decodeTagged, takeUint_append 8 _ hRange, ok_bind]
    | f64 value =>
      refine ⟨5, toBeBytes 8 value.bits, rfl, by decide, ?_⟩
      rw [decodeTagged, takeUint_append 8 _ hRange.1, ok_bind]
      dsimp only
      rw [hRange.2, ok_bind, ensure_of rfl, ok_bind]
    | string value =>
      have hFits : (utf8 value).length ≤ maxStringBytes := ensure_ok_iff.mp hValid
      refine ⟨6, writeBytes (utf8 value), rfl, by decide, ?_⟩
      rw [decodeTagged, prefixedString_append hFits (by decide), ok_bind]
    | bytes value =>
      have hFits : value.length ≤ maxBlobBytes := ensure_ok_iff.mp hValid
      have hAll : (some maxBlobBytes).all (value.length ≤ ·) = true := decide_eq_true hFits
      refine ⟨7, writeBytes value, rfl, by decide, ?_⟩
      rw [decodeTagged, prefixedBytes_append hAll (lt_of_le_of_lt hFits (by decide)), ok_bind]
  obtain ⟨tag, body, hEncode, hTag, hDecode⟩ := hTag
  rw [decode, hEncode, List.append_assoc, takeUint_append 1 _ hTag, ok_bind]
  dsimp only
  rw [hDecode, ok_bind]
  dsimp only
  rw [hValid, ok_bind]

theorem GraphOperationV1.decode_encode {operation : GraphOperationV1} (hRange : operation.InRange)
    (hValid : operation.validate = .ok ()) (rest : Bytes) :
    ∃ tag body, operation.encode = toBeBytes 1 tag ++ body ∧ tag < 256 ^ 1 ∧
      decodeTagged tag (body ++ rest) = .ok (operation, rest) := by
  cases operation with
  | putDocument id value =>
    obtain ⟨⟨⟩, hId, hValue⟩ := bind_ok_iff.mp hValid
    have hFits := (ensure_ok_iff.mp hId).2
    refine ⟨1, writeBytes (utf8 id) ++ value.encode, ?_, by decide, ?_⟩
    · simp only [encode, List.append_assoc]
      rfl
    · simp only [decodeTagged, if_true, List.append_assoc]
      rw [prefixedString_append hFits (by decide), ok_bind]
      dsimp only
      rw [GraphValueV1.decode_encode hRange hValue, ok_bind]
  | deleteDocument id =>
    have hFits := (ensure_ok_iff.mp hValid).2
    refine ⟨2, writeBytes (utf8 id), rfl, by decide, ?_⟩
    simp only [decodeTagged, if_neg (by decide : ¬(2 = 1)), if_true]
    rw [prefixedString_append hFits (by decide), ok_bind]

theorem GraphCommandV1.decode_encode {command : GraphCommandV1} (hRange : command.operation.InRange)
    (hValid : command.validate = .ok ()) : decode command.encode = .ok command := by
  obtain ⟨⟨⟩, hId, hOperation⟩ := bind_ok_iff.mp hValid
  have hFits := (ensure_ok_iff.mp hId).2
  obtain ⟨tag, body, hEncode, hTag, hDecode⟩ :=
    GraphOperationV1.decode_encode hRange hOperation []
  rw [List.append_nil] at hDecode
  have hBytes : command.encode =
      commandMagic ++ (writeBytes (utf8 command.requestId) ++ (toBeBytes 1 tag ++ body)) := by
    rw [encode, hEncode, List.append_assoc]
  rw [decode, hBytes, takeBytes_append _ rfl, ok_bind]
  dsimp only
  rw [ensure_of rfl, ok_bind, prefixedString_append hFits (by decide), ok_bind]
  dsimp only
  rw [takeUint_append 1 _ hTag, ok_bind]
  dsimp only
  rw [hDecode, ok_bind]
  dsimp only
  rw [ensure_of rfl, ok_bind, hValid, ok_bind, ensure_of hBytes, ok_bind]

theorem encodeEnvelope_iff {version : Nat} {requestId : String} {body payload : Bytes} :
    encodeEnvelope version requestId body = .ok payload ↔
      validateCommandEnvelopeFields version requestId body = .ok () ∧
        payload = ReplicatedCommandEnvelope.layout ⟨.graph, version, requestId, body⟩ := by
  rw [← ReplicatedCommandEnvelope.new_encode_eq_ok, encodeEnvelope]
  cases ReplicatedCommandEnvelope.new .graph version requestId body >>=
      ReplicatedCommandEnvelope.encode with
  | error error => exact ⟨nofun, nofun⟩
  | ok bytes => exact ⟨fun h => congrArg Except.ok (Except.ok.inj h),
      fun h => congrArg Except.ok (Except.ok.inj h)⟩

theorem encodeEnvelope_eq_ok {version : Nat} {requestId : String} {body payload : Bytes}
    (hVersion : version < 2 ^ 16) (h : encodeEnvelope version requestId body = .ok payload) :
    ReplicatedCommandEnvelope.decode payload = .ok ⟨.graph, version, requestId, body⟩ := by
  obtain ⟨hFields, hLayout⟩ := encodeEnvelope_iff.mp h
  exact ReplicatedCommandEnvelope.decode_encode hVersion
    (ReplicatedCommandEnvelope.encode_eq_ok.mpr ⟨hFields, hLayout⟩)

theorem length_le_of_encodeEnvelope {version : Nat} {requestId : String} {body payload : Bytes}
    (h : encodeEnvelope version requestId body = .ok payload) : body.length ≤ payload.length := by
  obtain ⟨-, rfl⟩ := encodeEnvelope_iff.mp h
  rw [ReplicatedCommandEnvelope.layout_length]
  exact Nat.le_add_left _ _

theorem decodeReplicatedGraphCommand_encode {command : GraphCommandV1} {payload : Bytes}
    (hRange : command.operation.InRange) (hValid : command.validate = .ok ())
    (h : encodeReplicatedGraphCommand command = .ok payload) :
    decodeReplicatedGraphCommand payload = .ok command := by
  rw [decodeReplicatedGraphCommand, encodeEnvelope_eq_ok (by decide) h, liftEnvelope, ok_bind,
    expectGraphProfile, ensure_of rfl, ok_bind]
  dsimp only
  rw [ensure_of rfl, ok_bind, GraphCommandV1.decode_encode hRange hValid, ok_bind, ensure_of rfl,
    ok_bind]

theorem decodeReplicatedGraphCommands_single {command : GraphCommandV1} {payload : Bytes}
    (hRange : command.operation.InRange) (hValid : command.validate = .ok ())
    (h : encodeReplicatedGraphCommand command = .ok payload) :
    decodeReplicatedGraphCommands payload = .ok [⟨command, payload⟩] := by
  rw [decodeReplicatedGraphCommands, encodeEnvelope_eq_ok (by decide) h, liftEnvelope, ok_bind,
    expectGraphProfile, ensure_of rfl, ok_bind, if_pos rfl,
    decodeReplicatedGraphCommand_encode hRange hValid h, ok_bind]

structure Batchable (seen : List String) (commands : List GraphCommandV1) : Prop where
  valid : ∀ command ∈ commands, command.validate = .ok ()
  new : ∀ command ∈ commands, command.requestId ∉ seen
  distinct : (commands.map (·.requestId)).Nodup

theorem batchable_cons {seen : List String} {command : GraphCommandV1}
    {commands : List GraphCommandV1} :
    Batchable seen (command :: commands) ↔ command.validate = .ok () ∧ command.requestId ∉ seen ∧
      Batchable (command.requestId :: seen) commands := by
  constructor
  · intro h
    obtain ⟨hFirst, hRest⟩ := List.nodup_cons.mp h.distinct
    refine ⟨h.valid _ List.mem_cons_self, h.new _ List.mem_cons_self,
      fun c hc => h.valid c (List.mem_cons_of_mem _ hc), fun c hc hSeen => ?_, hRest⟩
    rcases List.mem_cons.mp hSeen with hSame | hSeen
    · exact hFirst (List.mem_map.mpr ⟨c, hc, hSame⟩)
    · exact h.new c (List.mem_cons_of_mem _ hc) hSeen
  · rintro ⟨hValid, hNew, h⟩
    refine ⟨List.forall_mem_cons.mpr ⟨hValid, h.valid⟩,
      List.forall_mem_cons.mpr ⟨hNew, fun c hc hSeen => h.new c hc (List.mem_cons_of_mem _ hSeen)⟩,
      List.nodup_cons.mpr ⟨fun hMem => ?_, h.distinct⟩⟩
    obtain ⟨c, hc, hSame⟩ := List.mem_map.mp hMem
    exact h.new c hc (List.mem_cons.mpr (.inl hSame))

theorem encodeBatchMembers_eq_ok {seen : List String} {body encoded : Bytes}
    {commands : List GraphCommandV1} :
    encodeBatchMembers seen body commands = .ok encoded ↔
      Batchable seen commands ∧
        encoded = body ++ commands.flatMap fun command => writeBytes command.encode := by
  induction commands generalizing seen body with
  | nil =>
    rw [encodeBatchMembers, List.flatMap_nil, List.append_nil, Except.ok.injEq, eq_comm]
    exact (and_iff_right ⟨nofun, nofun, List.nodup_nil⟩).symm
  | cons command commands ih =>
    rw [encodeBatchMembers, batchable_cons]
    simp only [unit_bind_ok_iff, ensure_ok_iff, ih, List.flatMap_cons, List.append_assoc, and_assoc]

theorem decodeBatchMembers_append {members : List DecodedGraphCommand} {seen : List String}
    (hBatchable : Batchable seen (members.map (·.command)))
    (hRange : ∀ member ∈ members, member.command.operation.InRange)
    (hLength : ∀ member ∈ members, member.command.encode.length < 2 ^ 32)
    (hPayload : ∀ member ∈ members,
      encodeReplicatedGraphCommand member.command = .ok member.individualPayload) (rest : Bytes) :
    decodeBatchMembers members.length seen
      ((members.map (·.command)).flatMap (fun command => writeBytes command.encode) ++ rest) =
        .ok (members, rest) := by
  induction members generalizing seen with
  | nil => rfl
  | cons member members ih =>
    obtain ⟨hValid, hNew, hRest⟩ := batchable_cons.mp hBatchable
    have hTail := ih hRest (fun m hm => hRange m (List.mem_cons_of_mem _ hm))
      (fun m hm => hLength m (List.mem_cons_of_mem _ hm))
      fun m hm => hPayload m (List.mem_cons_of_mem _ hm)
    simp only [List.map_cons, List.flatMap_cons, List.append_assoc, List.length_cons,
      decodeBatchMembers]
    rw [prefixedBytes_append rfl (hLength member List.mem_cons_self), ok_bind]
    dsimp only
    rw [GraphCommandV1.decode_encode (hRange member List.mem_cons_self) hValid, ok_bind,
      ensure_of hNew, ok_bind, hPayload member List.mem_cons_self, ok_bind, hTail, ok_bind]

theorem encodeReplicatedGraphBatch_eq_ok {commands : List GraphCommandV1} {payload : Bytes} :
    encodeReplicatedGraphBatch commands = .ok payload ↔
      (commands ≠ [] ∧ commands.length ≤ maxGraphBatchMembers) ∧ Batchable [] commands ∧
        encodeEnvelope batchCommandVersion batchRequestId (batchCommandMagic ++
          toBeBytes 2 commands.length ++
            commands.flatMap fun command => writeBytes command.encode) = .ok payload := by
  rw [encodeReplicatedGraphBatch, unit_bind_ok_iff, ensure_ok_iff, bind_ok_iff]
  refine and_congr_right fun _ => ?_
  simp only [encodeBatchMembers_eq_ok]
  exact ⟨fun ⟨_, ⟨hBatchable, hBody⟩, h⟩ => ⟨hBatchable, hBody ▸ h⟩,
    fun ⟨hBatchable, h⟩ => ⟨_, ⟨hBatchable, rfl⟩, h⟩⟩

theorem decodeReplicatedGraphCommands_batch {members : List DecodedGraphCommand} {payload : Bytes}
    (hRange : ∀ member ∈ members, member.command.operation.InRange)
    (hLength : ∀ member ∈ members, member.command.encode.length < 2 ^ 32)
    (hPayload : ∀ member ∈ members,
      encodeReplicatedGraphCommand member.command = .ok member.individualPayload)
    (h : encodeReplicatedGraphBatch (members.map (·.command)) = .ok payload) :
    decodeReplicatedGraphCommands payload = .ok members := by
  obtain ⟨⟨hSome, hFew⟩, hBatchable, hEnvelope⟩ := encodeReplicatedGraphBatch_eq_ok.mp h
  have hMembers := decodeBatchMembers_append hBatchable hRange hLength hPayload []
  rw [List.length_map] at hFew hEnvelope
  have hCount : members.length ≠ 0 := fun hZero =>
    hSome (List.map_eq_nil_iff.mpr (List.length_eq_zero_iff.mp hZero))
  have hFits : members.length < 256 ^ 2 := lt_of_le_of_lt hFew (by decide)
  have hOther : batchCommandVersion ≠ commandVersion := by decide
  rw [List.append_nil] at hMembers
  rw [decodeReplicatedGraphCommands, encodeEnvelope_eq_ok (by decide) hEnvelope, liftEnvelope,
    ok_bind, expectGraphProfile, ensure_of rfl, ok_bind, if_neg hOther, if_pos rfl, decodeBatch,
    ensure_of rfl, ok_bind]
  simp only [List.append_assoc]
  rw [takeBytes_append _ rfl, ok_bind]
  dsimp only
  rw [ensure_of rfl, ok_bind, takeUint_append 2 _ hFits, ok_bind]
  dsimp only
  rw [ensure_of ⟨hCount, hFew⟩, ok_bind, hMembers, ok_bind]
  dsimp only
  rw [ensure_of rfl, ok_bind, h, ok_bind, ensure_of rfl, ok_bind]

end Rhiza.Graph
