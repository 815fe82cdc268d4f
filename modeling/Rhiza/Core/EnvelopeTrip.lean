import Rhiza.Core.Canonical
import Rhiza.Core.Envelope

namespace Rhiza.Core

open Library

theorem length_flatMap_le {α : Type} {f : α → Bytes} {most : Nat} {items : List α}
    (h : ∀ item ∈ items, (f item).length ≤ most) :
    (items.flatMap f).length ≤ items.length * most := by
  induction items with
  | nil => exact Nat.zero_le _
  | cons item items ih =>
    obtain ⟨hItem, hItems⟩ := List.forall_mem_cons.mp h
    have hRest := ih hItems
    rw [List.flatMap_cons, List.length_append, List.length_cons, Nat.succ_mul]
    omega

theorem takeUintOr_eq_ok {ε : Type} {error : ε} {width n : Nat} {input rest : Bytes}
    (h : takeUintOr error width input = .ok (n, rest)) : input = toBeBytes width n ++ rest := by
  obtain ⟨⟨bytes, last⟩, hBytes, h⟩ := bind_ok_iff.mp h
  cases h
  obtain ⟨rfl, hLength⟩ := takeOr_eq_ok hBytes
  rw [← hLength, toBeBytes_fromBeBytes]

namespace ReplicatedCommandEnvelope

def layout (envelope : ReplicatedCommandEnvelope) : Bytes :=
  replicatedCommandMagic ++ toBeBytes 2 replicatedCommandFormatVersion ++
    [envelope.profile.wireId] ++ toBeBytes 2 envelope.commandVersion ++
    toBeBytes 2 (utf8 envelope.requestId).length ++ toBeBytes 4 envelope.body.length ++
    utf8 envelope.requestId ++ envelope.body

theorem replicatedCommandMagic_length : replicatedCommandMagic.length = 4 := by decide

theorem layout_length (envelope : ReplicatedCommandEnvelope) : envelope.layout.length =
    replicatedCommandHeaderBytes + (utf8 envelope.requestId).length + envelope.body.length := by
  simp only [layout, List.length_append, replicatedCommandMagic_length, toBeBytes_length,
    List.length_cons, List.length_nil, replicatedCommandHeaderBytes]

theorem layout_windows (envelope : ReplicatedCommandEnvelope) :
    window envelope.layout 0 4 = replicatedCommandMagic ∧
      window envelope.layout 4 2 = toBeBytes 2 replicatedCommandFormatVersion ∧
      window envelope.layout 6 1 = [envelope.profile.wireId] ∧
      window envelope.layout 7 2 = toBeBytes 2 envelope.commandVersion ∧
      window envelope.layout 9 2 = toBeBytes 2 (utf8 envelope.requestId).length ∧
      window envelope.layout 11 4 = toBeBytes 4 envelope.body.length ∧
      window envelope.layout 15 (utf8 envelope.requestId).length = utf8 envelope.requestId := by
  have hOne : [envelope.profile.wireId].length = 1 := rfl
  refine ⟨?_, ?_, ?_, ?_, ?_, ?_, ?_⟩ <;>
    simp (disch := simp [replicatedCommandMagic_length]) only [layout, List.append_assoc,
      window_skip, window_front, replicatedCommandMagic_length, toBeBytes_length, hOne,
      Nat.reduceSub]

theorem layout_body (envelope : ReplicatedCommandEnvelope) :
    window envelope.layout (replicatedCommandHeaderBytes + (utf8 envelope.requestId).length)
      envelope.body.length = envelope.body := by
  have hFront : ∃ front : Bytes, envelope.layout = front ++ envelope.body ∧
      front.length = replicatedCommandHeaderBytes + (utf8 envelope.requestId).length := by
    refine ⟨_, rfl, ?_⟩
    simp only [List.length_append, replicatedCommandMagic_length, toBeBytes_length,
      List.length_cons, List.length_nil, replicatedCommandHeaderBytes]
  obtain ⟨front, hLayout, hLength⟩ := hFront
  rw [hLayout, window_skip _ (le_of_eq hLength), hLength, Nat.sub_self, window, List.drop_zero,
    List.take_length]

theorem encode_eq_ok {envelope : ReplicatedCommandEnvelope} {encoded : Bytes} :
    envelope.encode = .ok encoded ↔
      validateCommandEnvelopeFields envelope.commandVersion envelope.requestId envelope.body =
        .ok () ∧ encoded = envelope.layout := by
  rw [encode, unit_bind_ok_iff, layout, Except.ok.injEq, eq_comm (a := encoded)]

theorem new_encode_eq_ok {profile : ExecutionProfile} {version : Nat} {requestId : String}
    {body payload : Bytes} :
    (new profile version requestId body >>= encode) = .ok payload ↔
      validateCommandEnvelopeFields version requestId body = .ok () ∧
        payload = layout ⟨profile, version, requestId, body⟩ := by
  rw [new]
  cases hFields : validateCommandEnvelopeFields version requestId body with
  | error error => exact ⟨nofun, fun h => nomatch h.1⟩
  | ok _ =>
    rw [ok_bind, ok_bind, encode_eq_ok]
    exact and_congr_left fun _ => iff_of_true hFields rfl

theorem decode_encode {envelope : ReplicatedCommandEnvelope} {encoded : Bytes}
    (hVersion : envelope.commandVersion < 2 ^ 16) (h : envelope.encode = .ok encoded) :
    decode encoded = .ok envelope := by
  obtain ⟨hFields, rfl⟩ := encode_eq_ok.mp h
  obtain ⟨hMagic, hFormat, hProfile, hCommand, hIdLength, hBodyLength, hId⟩ := layout_windows envelope
  have hBody := layout_body envelope
  have hLength := layout_length envelope
  have hHeader : replicatedCommandHeaderBytes ≤ envelope.layout.length := by
    rw [hLength]
    omega
  have hFieldsHold := hFields
  simp only [validateCommandEnvelopeFields, unit_bind_ok_iff, ensure_ok_iff] at hFieldsHold
  obtain ⟨-, -, hIdBound, hBodyBound⟩ := hFieldsHold
  have hWire : ExecutionProfile.fromWireId (envelope.layout.getD 6 0) = some envelope.profile := by
    rw [getD_of_window 0 hProfile]
    cases envelope.profile <;> rfl
  rw [decode, hMagic, hFormat, hWire, hCommand, hIdLength, hBodyLength,
    fromBeBytes_toBeBytes 2 _ (by decide), fromBeBytes_toBeBytes 2 _ hVersion,
    fromBeBytes_toBeBytes 2 _ hIdBound, fromBeBytes_toBeBytes 4 _ hBodyBound]
  dsimp only
  rw [show window envelope.layout replicatedCommandHeaderBytes _ = utf8 envelope.requestId from hId,
    hBody, fromUtf8_utf8, ensure_of hHeader, ensure_of rfl, ensure_of rfl, ensure_of (le_of_eq hLength.symm),
    ensure_of hLength]
  simp only [ok_bind, Option.elim_some, new, hFields]

theorem take_of_windows {bytes front part : Bytes} {offset width : Nat}
    (hFront : bytes.take offset = front) (hPart : window bytes offset width = part) :
    bytes.take (offset + width) = front ++ part := by
  rw [List.take_add, hFront, ← hPart, window]

theorem toBeBytes_window {bytes : Bytes} {offset width : Nat} (h : offset + width ≤ bytes.length) :
    toBeBytes width (fromBeBytes (window bytes offset width)) = window bytes offset width := by
  have hRead := toBeBytes_fromBeBytes (window bytes offset width)
  rwa [window_length h] at hRead

theorem window_one {bytes : Bytes} {offset : Nat} (h : offset < bytes.length) :
    window bytes offset 1 = [bytes.getD offset 0] := by
  rw [window, List.drop_eq_getElem_cons h, List.take_succ_cons, List.take_zero,
    List.getD_eq_getElem?_getD, List.getElem?_eq_getElem h, Option.getD_some]

theorem wireId_of_fromWireId {value : UInt8} {profile : ExecutionProfile}
    (h : ExecutionProfile.fromWireId value = some profile) : profile.wireId = value := by
  unfold ExecutionProfile.fromWireId at h
  split at h
  · rename_i hValue
    cases h
    exact hValue.symm
  · split at h
    · rename_i hValue
      cases h
      exact hValue.symm
    · split at h
      · rename_i hValue
        cases h
        exact hValue.symm
      · cases h

theorem layout_of_decode {encoded : Bytes} {envelope : ReplicatedCommandEnvelope}
    (h : decode encoded = .ok envelope) :
    validateCommandEnvelopeFields envelope.commandVersion envelope.requestId envelope.body = .ok () ∧
      encoded = envelope.layout := by
  simp only [decode, new, bind_ok_iff, exists_ensure_iff, elim_ok_iff] at h
  obtain ⟨hHeader, hMagic, hFormat, profile, hProfile, -, hLength, requestId, hId, ⟨⟩, hFields, h⟩ := h
  cases h
  refine ⟨hFields, ?_⟩
  have hHead : replicatedCommandHeaderBytes = 15 := rfl
  have hIdBytes := utf8_of_fromUtf8 hId
  have hWindow : ∀ offset width, offset + width ≤ 15 →
      window encoded offset width = toBeBytes width (fromBeBytes (window encoded offset width)) :=
    fun offset width hInside => (toBeBytes_window (by omega)).symm
  have hFormatBytes := hWindow 4 2 (by decide)
  rw [hFormat] at hFormatBytes
  have hProfileByte : window encoded 6 1 = [encoded.getD 6 0] := window_one (by omega)
  rw [← wireId_of_fromWireId hProfile] at hProfileByte
  have hCommand := hWindow 7 2 (by decide)
  have hIdLength := hWindow 9 2 (by decide)
  have hBodyLength := hWindow 11 4 (by decide)
  generalize hIdLen : fromBeBytes (window encoded 9 2) = idLen at *
  generalize hBodyLen : fromBeBytes (window encoded 11 4) = bodyLen at *
  have hIdWindow : window encoded 15 idLen = utf8 requestId := hIdBytes.symm
  have hIdSize : (utf8 requestId).length = idLen := by
    rw [← hIdWindow]
    exact window_length (by omega)
  have hBodySize : (window encoded (15 + idLen) bodyLen).length = bodyLen := window_length (by omega)
  have hStart : encoded.take 4 = replicatedCommandMagic := by
    rw [← hMagic, window, List.drop_zero]
  have hRead := take_of_windows (take_of_windows (take_of_windows (take_of_windows (take_of_windows
    (take_of_windows (take_of_windows hStart hFormatBytes) hProfileByte) hCommand) hIdLength)
      hBodyLength) hIdWindow) (rfl : window encoded (15 + idLen) bodyLen = _)
  have hWhole : encoded.take (15 + idLen + bodyLen) = encoded :=
    List.take_of_length_le (by omega)
  rw [layout, hIdSize, hHead, hBodySize]
  exact hWhole.symm.trans hRead

def formOf (payload : Bytes) : Option Nat := (decode payload).toOption.map (·.commandVersion)

end ReplicatedCommandEnvelope

end Rhiza.Core
