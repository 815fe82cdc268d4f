import Rhiza.Core.ConfigChange

/-! # Configuration changes have one payload

Each reader of a payload accepts exactly what its writer wrote: what it returns,
written again, is what it consumed. A configuration change therefore has one
payload, and one command hash.
-/

namespace Rhiza.Core

open Library

theorem fromBeBytes_cons (b : UInt8) (bytes : Bytes) :
    fromBeBytes (b :: bytes) = b.toNat * 256 ^ bytes.length + fromBeBytes bytes := by
  rw [fromBeBytes, List.foldl_cons, foldl_be_eq, Nat.mul_zero, Nat.zero_add]

theorem fromBeBytes_lt (bytes : Bytes) : fromBeBytes bytes < 256 ^ bytes.length := by
  induction bytes with
  | nil => exact Nat.one_pos
  | cons b bytes ih =>
    have hByte : b.toNat + 1 ≤ 256 := b.toNat_lt
    calc fromBeBytes (b :: bytes)
        = b.toNat * 256 ^ bytes.length + fromBeBytes bytes := fromBeBytes_cons b bytes
      _ < b.toNat * 256 ^ bytes.length + 256 ^ bytes.length := Nat.add_lt_add_left ih _
      _ = (b.toNat + 1) * 256 ^ bytes.length := by ring
      _ ≤ 256 * 256 ^ bytes.length := Nat.mul_le_mul_right _ hByte
      _ = 256 ^ (b :: bytes).length := by rw [List.length_cons, Nat.pow_succ, Nat.mul_comm]

theorem toBeBytes_fromBeBytes (bytes : Bytes) : toBeBytes bytes.length (fromBeBytes bytes) = bytes := by
  induction bytes with
  | nil => rfl
  | cons b bytes ih =>
    have hPos : 0 < 256 ^ bytes.length := Nat.pow_pos (by decide)
    have hDiv : fromBeBytes (b :: bytes) / 256 ^ bytes.length = b.toNat := by
      rw [fromBeBytes_cons, Nat.mul_comm, Nat.mul_add_div hPos,
        Nat.div_eq_of_lt (fromBeBytes_lt bytes), Nat.add_zero]
    have hMod : fromBeBytes (b :: bytes) % 256 ^ bytes.length = fromBeBytes bytes := by
      rw [fromBeBytes_cons, Nat.mul_comm, Nat.mul_add_mod, Nat.mod_eq_of_lt (fromBeBytes_lt bytes)]
    rw [List.length_cons, toBeBytes, hDiv, hMod, ih, UInt8.ofNat_toNat]

theorem readUint_inverse {width n : Nat} {input rest : Bytes}
    (h : readUint width input = some (n, rest)) :
    input = toBeBytes width n ++ rest ∧ n < 256 ^ width := by
  obtain ⟨⟨front, rest'⟩, hTake, hRead⟩ := Option.map_eq_some_iff.mp h
  cases hRead
  obtain ⟨rfl, rfl⟩ := takeExactly_eq_some hTake
  exact ⟨by rw [toBeBytes_fromBeBytes], fromBeBytes_lt front⟩

theorem readHash_inverse {hash : LogHash} {input rest : Bytes} (h : readHash input = some (hash, rest)) :
    input = hash.bytes ++ rest := by
  unfold readHash at h
  split at h
  · rename_i front rest' hTake
    cases h
    exact (takeExactly_eq_some hTake).1
  · cases h

theorem readString_inverse {text : String} {input rest : Bytes}
    (h : readString input = some (text, rest)) : input = encodeString text ++ rest := by
  obtain ⟨⟨length, rest₁⟩, hLength, h⟩ := Option.bind_eq_some_iff.mp h
  obtain ⟨⟨front, rest₂⟩, hTake, h⟩ := Option.bind_eq_some_iff.mp h
  obtain ⟨found, hText, h⟩ := Option.bind_eq_some_iff.mp h
  cases h
  obtain ⟨rfl, -⟩ := readUint_inverse hLength
  obtain ⟨rfl, rfl⟩ := takeExactly_eq_some hTake
  rw [encodeString, utf8_of_fromUtf8 hText, List.append_assoc]

theorem readMany_inverse {α : Type} {read : Bytes → Option (α × Bytes)} {write : α → Bytes}
    (hRead : ∀ item input rest, read input = some (item, rest) → input = write item ++ rest)
    {count : Nat} {items : List α} {input rest : Bytes}
    (h : readMany read count input = some (items, rest)) :
    input = items.flatMap write ++ rest ∧ items.length = count := by
  induction count generalizing items input with
  | zero =>
    cases h
    exact ⟨rfl, rfl⟩
  | succ count ih =>
    obtain ⟨⟨item, rest₁⟩, hItem, h⟩ := Option.bind_eq_some_iff.mp h
    obtain ⟨⟨others, rest₂⟩, hOthers, h⟩ := Option.bind_eq_some_iff.mp h
    cases h
    obtain ⟨rfl, hLength⟩ := ih hOthers
    exact ⟨by rw [hRead _ _ _ hItem, List.flatMap_cons, List.append_assoc],
      by rw [List.length_cons, hLength]⟩

variable [Sha256]

omit [Sha256] in
theorem SuccessorDescriptor.new_sorted {clusterId : ClusterId} {predecessorConfigId : Nat}
    {predecessorConfigDigest : LogHash} {configId : Nat} {members : List NodeId}
    {successor : SuccessorDescriptor} (hSorted : members.IsChain (· < ·))
    (h : SuccessorDescriptor.new clusterId predecessorConfigId predecessorConfigDigest configId
      members = some successor) :
    successor.clusterId = clusterId ∧ successor.predecessorConfigId = predecessorConfigId ∧
      successor.predecessorConfigDigest = predecessorConfigDigest ∧
      successor.configId = configId ∧ successor.members = members := by
  have hPairwise := List.isChain_iff_pairwise.mp hSorted
  have hSame : (members.insertionSort (· ≤ ·)).dedup = members := by
    rw [(hPairwise.imp fun hlt => le_of_lt hlt).insertionSort_eq]
    exact List.dedup_eq_self.mpr (hPairwise.imp fun hlt => ne_of_lt hlt)
  simp only [SuccessorDescriptor.new, hSame] at h
  split at h
  · split at h
    · split at h
      · split at h
        · split at h
          · obtain rfl := Option.some.inj h
            exact ⟨rfl, rfl, rfl, rfl, rfl⟩
          · cases h
        · cases h
      · cases h
    · cases h
  · cases h

theorem decodeSuccessor_inverse {successor : SuccessorDescriptor} {input rest : Bytes}
    (h : decodeSuccessor input = some (successor, rest)) :
    input = encodeSuccessor successor ++ rest := by
  obtain ⟨⟨clusterId, rest₁⟩, hCluster, h⟩ := Option.bind_eq_some_iff.mp h
  obtain ⟨⟨predecessorConfigId, rest₂⟩, hPredecessor, h⟩ := Option.bind_eq_some_iff.mp h
  obtain ⟨⟨predecessorDigest, rest₃⟩, hPredecessorDigest, h⟩ := Option.bind_eq_some_iff.mp h
  obtain ⟨⟨configId, rest₄⟩, hConfig, h⟩ := Option.bind_eq_some_iff.mp h
  obtain ⟨⟨encodedDigest, rest₅⟩, hDigest, h⟩ := Option.bind_eq_some_iff.mp h
  obtain ⟨⟨count, rest₆⟩, hCount, h⟩ := Option.bind_eq_some_iff.mp h
  dsimp only at h
  split at h
  · obtain ⟨⟨members, rest₇⟩, hMembers, h⟩ := Option.bind_eq_some_iff.mp h
    dsimp only at h
    split at h
    · rename_i hSorted
      obtain ⟨found, hNew, h⟩ := Option.bind_eq_some_iff.mp h
      split at h
      · rename_i hSame
        cases h
        obtain ⟨rfl, rfl, rfl, rfl, rfl⟩ := SuccessorDescriptor.new_sorted hSorted hNew
        subst hSame
        obtain ⟨rfl, rfl⟩ := readMany_inverse (fun _ _ _ => readString_inverse) hMembers
        rw [readString_inverse hCluster, (readUint_inverse hPredecessor).1,
          readHash_inverse hPredecessorDigest, (readUint_inverse hConfig).1,
          readHash_inverse hDigest, (readUint_inverse hCount).1]
        simp only [encodeSuccessor, List.append_assoc]
      · cases h
    · cases h
  · cases h

def ConfigChange.Fits : ConfigChange → Prop
  | .stop configId _ => configId < u64Bound
  | .activationBarrier configId _ stopSlot _ => configId < u64Bound ∧ stopSlot < u64Bound
  | .boundStop _ => True
  | .boundActivationBarrier _ stopSlot _ _ => stopSlot < u64Bound

theorem recognizeUnbound_inverse {change : ConfigChange} {input : Bytes}
    (h : recognizeUnbound input = some change) :
    change.Fits ∧
      change.toStoredCommand.payload = configChangeMagic ++ toBeBytes 2 configChangeVersion ++ input := by
  obtain ⟨⟨kind, rest₁⟩, hKind, h₁⟩ := Option.bind_eq_some_iff.mp h
  obtain ⟨⟨configId, rest₂⟩, hConfig, h₂⟩ := Option.bind_eq_some_iff.mp h₁
  obtain ⟨⟨configDigest, rest₃⟩, hDigest, h₃⟩ := Option.bind_eq_some_iff.mp h₂
  dsimp only at h₃
  obtain ⟨rfl, -⟩ := readUint_inverse hKind
  obtain ⟨rfl, hConfigBound⟩ := readUint_inverse hConfig
  obtain rfl := readHash_inverse hDigest
  split at h₃
  · rename_i hStop
    subst hStop
    split at h₃
    · rename_i hEnd
      cases h₃
      subst hEnd
      refine ⟨hConfigBound, ?_⟩
      simp only [ConfigChange.toStoredCommand, List.append_assoc, List.append_nil]
      rfl
    · cases h₃
  split at h₃
  · rename_i hBarrier
    subst hBarrier
    obtain ⟨⟨stopSlot, rest₄⟩, hSlot, h₄⟩ := Option.bind_eq_some_iff.mp h₃
    obtain ⟨⟨prefixHash, rest₅⟩, hPrefix, h₅⟩ := Option.bind_eq_some_iff.mp h₄
    dsimp only at h₅
    obtain ⟨rfl, hSlotBound⟩ := readUint_inverse hSlot
    obtain rfl := readHash_inverse hPrefix
    split at h₅
    · rename_i hEnd
      cases h₅
      subst hEnd
      refine ⟨⟨hConfigBound, hSlotBound⟩, ?_⟩
      simp only [ConfigChange.toStoredCommand, List.append_assoc, List.append_nil]
      rfl
    · cases h₅
  · cases h₃

theorem recognizeBound_inverse {change : ConfigChange} {input : Bytes}
    (h : recognizeBound input = some change) :
    change.Fits ∧ change.toStoredCommand.payload =
      configChangeMagic ++ toBeBytes 2 boundConfigChangeVersion ++ input := by
  obtain ⟨⟨kind, rest₁⟩, hKind, h₁⟩ := Option.bind_eq_some_iff.mp h
  obtain ⟨⟨successor, rest₂⟩, hSuccessor, h₂⟩ := Option.bind_eq_some_iff.mp h₁
  dsimp only at h₂
  obtain ⟨rfl, -⟩ := readUint_inverse hKind
  obtain rfl := decodeSuccessor_inverse hSuccessor
  split at h₂
  · rename_i hStop
    subst hStop
    split at h₂
    · rename_i hEnd
      cases h₂
      subst hEnd
      refine ⟨trivial, ?_⟩
      simp only [ConfigChange.toStoredCommand, List.append_assoc, List.append_nil]
      rfl
    · cases h₂
  split at h₂
  · rename_i hBarrier
    subst hBarrier
    obtain ⟨⟨stopSlot, rest₃⟩, hSlot, h₃⟩ := Option.bind_eq_some_iff.mp h₂
    obtain ⟨⟨prefixHash, rest₄⟩, hPrefix, h₄⟩ := Option.bind_eq_some_iff.mp h₃
    obtain ⟨⟨stopCommandHash, rest₅⟩, hCommand, h₅⟩ := Option.bind_eq_some_iff.mp h₄
    dsimp only at h₅
    obtain ⟨rfl, hSlotBound⟩ := readUint_inverse hSlot
    obtain rfl := readHash_inverse hPrefix
    obtain rfl := readHash_inverse hCommand
    split at h₅
    · rename_i hEnd
      cases h₅
      subst hEnd
      refine ⟨hSlotBound, ?_⟩
      simp only [ConfigChange.toStoredCommand, List.append_assoc, List.append_nil]
      rfl
    · cases h₅
  · cases h₂

theorem ConfigChange.recognizeParts_inverse {change : ConfigChange} {payload : Bytes}
    (h : recognizeParts .configChange payload = some change) :
    change.Fits ∧ change.toStoredCommand = ⟨.configChange, payload⟩ := by
  unfold recognizeParts at h
  rw [if_pos rfl] at h
  obtain ⟨⟨magic, rest₁⟩, hMagic, h₁⟩ := Option.bind_eq_some_iff.mp h
  dsimp only at h₁
  obtain ⟨rfl, -⟩ := takeExactly_eq_some hMagic
  split at h₁
  · rename_i hIsMagic
    subst hIsMagic
    obtain ⟨⟨version, rest₂⟩, hVersion, h₂⟩ := Option.bind_eq_some_iff.mp h₁
    dsimp only at h₂
    obtain ⟨rfl, -⟩ := readUint_inverse hVersion
    split at h₂
    · rename_i hBound
      subst hBound
      obtain ⟨hFits, hPayload⟩ := recognizeBound_inverse h₂
      rw [List.append_assoc] at hPayload
      exact ⟨hFits, congrArg (StoredCommand.mk .configChange) hPayload⟩
    split at h₂
    · rename_i hUnbound
      subst hUnbound
      obtain ⟨hFits, hPayload⟩ := recognizeUnbound_inverse h₂
      rw [List.append_assoc] at hPayload
      exact ⟨hFits, congrArg (StoredCommand.mk .configChange) hPayload⟩
    · cases h₂
  · cases h₁

theorem recognizeParts_bound (input : Bytes) :
    ConfigChange.recognizeParts .configChange
      (configChangeMagic ++ (toBeBytes 2 boundConfigChangeVersion ++ input)) = recognizeBound input := by
  have hMagic : configChangeMagic.length = 4 := by decide
  simp only [ConfigChange.recognizeParts, if_true, takeExactly_append hMagic, Option.bind_eq_bind,
    Option.bind_some, readUint_append _ (show boundConfigChangeVersion < 256 ^ 2 by decide)]

theorem recognizeParts_unbound (input : Bytes) :
    ConfigChange.recognizeParts .configChange
      (configChangeMagic ++ (toBeBytes 2 configChangeVersion ++ input)) = recognizeUnbound input := by
  have hMagic : configChangeMagic.length = 4 := by decide
  have hOther : configChangeVersion ≠ boundConfigChangeVersion := by decide
  simp only [ConfigChange.recognizeParts, if_true, takeExactly_append hMagic, Option.bind_eq_bind,
    Option.bind_some, readUint_append _ (show configChangeVersion < 256 ^ 2 by decide), hOther,
    if_false]

theorem ConfigChange.recognize_toStoredCommand {change : ConfigChange} (h : change.Fits) :
    recognize change.toStoredCommand = some change := by
  cases change with
  | stop configId configDigest =>
    have hId : configId < 256 ^ 8 := h
    have hDigest := readHash_append [] configDigest
    rw [List.append_nil] at hDigest
    simp only [recognize, toStoredCommand, List.append_assoc, recognizeParts_unbound]
    rw [recognizeUnbound, show ([1] : Bytes) = toBeBytes 1 1 by decide,
      readUint_append _ (by decide : 1 < 256 ^ 1)]
    simp only [Option.bind_eq_bind, Option.bind_some, readUint_append _ hId, hDigest, if_true]
    rfl
  | activationBarrier configId configDigest stopSlot prefixHash =>
    have hId : configId < 256 ^ 8 := h.1
    have hSlot : stopSlot < 256 ^ 8 := h.2
    have hPrefix := readHash_append [] prefixHash
    rw [List.append_nil] at hPrefix
    simp only [recognize, toStoredCommand, List.append_assoc, recognizeParts_unbound]
    rw [recognizeUnbound, show ([2] : Bytes) = toBeBytes 1 2 by decide,
      readUint_append _ (by decide : 2 < 256 ^ 1)]
    simp only [Option.bind_eq_bind, Option.bind_some, readUint_append _ hId, readHash_append,
      readUint_append _ hSlot, hPrefix, if_true]
    rfl
  | boundStop successor => exact recognize_boundStop successor
  | boundActivationBarrier successor stopSlot prefixHash stopCommandHash =>
    have hSlot : stopSlot < 256 ^ 8 := h
    have hCommand := readHash_append [] stopCommandHash
    rw [List.append_nil] at hCommand
    simp only [recognize, toStoredCommand, List.append_assoc, recognizeParts_bound]
    rw [recognizeBound, show ([2] : Bytes) = toBeBytes 1 2 by decide,
      readUint_append _ (by decide : 2 < 256 ^ 1)]
    simp only [Option.bind_eq_bind, Option.bind_some, decodeSuccessor_append,
      readUint_append _ hSlot, readHash_append, hCommand, if_true]
    rfl

/-- Encoding and recognising are inverse to each other, so every change has exactly one
payload. -/
theorem config_change_payloads_are_canonical :
    (∀ change : ConfigChange, change.Fits →
      ConfigChange.recognize change.toStoredCommand = some change) ∧
    (∀ (payload : Bytes) (change : ConfigChange),
      ConfigChange.recognizeParts .configChange payload = some change →
        change.toStoredCommand.payload = payload) ∧
    ∀ (change : ConfigChange) (command : StoredCommand),
      ConfigChange.recognize command = some change →
        command = change.toStoredCommand ∧ command.hash = change.toStoredCommand.hash := by
  refine ⟨fun change => ConfigChange.recognize_toStoredCommand, fun payload change h => ?_,
    fun change command h => ?_⟩
  · exact congrArg StoredCommand.payload (ConfigChange.recognizeParts_inverse h).2
  · have hType : command.entryType = .configChange := by
      by_contra hOther
      simp [ConfigChange.recognize, ConfigChange.recognizeParts, hOther] at h
    rw [ConfigChange.recognize, hType] at h
    have hCommand : command = change.toStoredCommand := by
      rw [(ConfigChange.recognizeParts_inverse h).2, ← hType]
    exact ⟨hCommand, congrArg StoredCommand.hash hCommand⟩

omit [Sha256] in
/-- An unbound barrier with the largest slot. -/
theorem barrier_payload_is_canonical :
    letI := Sha256.rolling
    (ConfigChange.activationBarrier 2 .zero (2 ^ 64 - 1) .zero).Fits ∧
      ConfigChange.recognize
          (ConfigChange.activationBarrier 2 .zero (2 ^ 64 - 1) .zero).toStoredCommand =
        some (.activationBarrier 2 .zero (2 ^ 64 - 1) .zero) := by
  let _ := Sha256.rolling
  have hFits : (ConfigChange.activationBarrier 2 .zero (2 ^ 64 - 1) .zero).Fits :=
    ⟨by decide, by decide⟩
  exact ⟨hFits, config_change_payloads_are_canonical.1 _ hFits⟩

end Rhiza.Core
