import Rhiza.Log.Anchor

/-! # Reading an anchor back

Every reader of the file finds the field that was written at its cursor. The files of
the first version are the exception: the writer puts an executor fingerprint into them
and their reader does not expect one.
-/

namespace Rhiza.Log

open Core Library

section Fields

variable {bytes : Bytes} {cursor stop : Nat}

theorem readUint_at {width n : Nat} {message : String} (hWidth : 0 < width) (hn : n < 256 ^ width)
    (h : StandsAt bytes cursor (toBeBytes width n)) : readUint width message bytes cursor = .ok n := by
  have hFits := h.fits (by rwa [toBeBytes_length])
  rw [toBeBytes_length] at hFits
  refine readUint_ok_iff.mpr ⟨hFits, ?_⟩
  rw [StandsAt, toBeBytes_length] at h
  rw [h, fromBeBytes_toBeBytes width n hn]

theorem readHash_at {hash : LogHash} (h : StandsAt bytes cursor hash.bytes) :
    readHash bytes cursor = .ok hash := by
  have hFits := h.fits (by rw [hash.size]; decide)
  rw [hash.size] at hFits
  rw [StandsAt, hash.size] at h
  exact readHash_ok_iff.mpr ⟨hFits, h⟩

theorem readState_at {α : Type} {width : Nat} {read : Bytes → Nat → Result α} {value : α}
    (h : read bytes cursor = .ok value) (hStop : cursor + width ≤ stop) :
    readState bytes cursor stop width read = .ok (value, cursor + width) := by
  rw [readState, ensure_of hStop, ok_bind, h, ok_bind]
  rfl

theorem readStateU8_at {n : Nat} (h : StandsAt bytes cursor (toBeBytes 1 n)) (hn : n < 256)
    (hStop : cursor + 1 ≤ stop) : readStateU8 bytes cursor stop = .ok (n, cursor + 1) :=
  readState_at (readUint_at Nat.one_pos (by omega) h) hStop

theorem readStateU16_at {n : Nat} (h : StandsAt bytes cursor (toBeBytes 2 n)) (hn : n < 65536)
    (hStop : cursor + 2 ≤ stop) : readStateU16 bytes cursor stop = .ok (n, cursor + 2) :=
  readState_at (readUint_at (by decide) (by omega) h) hStop

theorem readStateU64_at {n : Nat} (h : StandsAt bytes cursor (toBeBytes 8 n)) (hn : n < u64Bound)
    (hStop : cursor + 8 ≤ stop) : readStateU64 bytes cursor stop = .ok (n, cursor + 8) :=
  readState_at (readUint_at (by decide) hn h) hStop

theorem readStateHash_at {hash : LogHash} (h : StandsAt bytes cursor hash.bytes)
    (hStop : cursor + 32 ≤ stop) : readStateHash bytes cursor stop = .ok (hash, cursor + 32) :=
  readState_at (readHash_at h) hStop

theorem encodeString_length (text : String) :
    (encodeString text).length = 2 + (utf8 text).length := by
  rw [encodeString, List.length_append, toBeBytes_length]

theorem readString_at {text field : String} (h : StandsAt bytes cursor (encodeString text))
    (hNamed : text ≠ "") (hShort : (utf8 text).length < 65536)
    (hStop : cursor + (encodeString text).length ≤ stop) :
    readString bytes cursor stop field = .ok (text, cursor + (encodeString text).length) := by
  rw [encodeString, standsAt_append, toBeBytes_length] at h
  rw [encodeString_length] at hStop
  have hText : String.fromUTF8? ⟨(utf8 text).toArray⟩ = some text := fromUtf8_utf8 text
  have hWindow : window bytes (cursor + 2) (utf8 text).length = utf8 text := h.2
  have hLength : readU16 bytes cursor = .ok (utf8 text).length :=
    readUint_at (by decide) (by omega) h.1
  have hName : readIntentName bytes cursor stop = .ok (text, cursor + 2 + (utf8 text).length) := by
    rw [readIntentName, hLength, ok_bind, ensure_of (by omega), ok_bind, hWindow, hText]
    rfl
  rw [readString, hName, ok_bind]
  dsimp only
  rw [ensure_of hNamed, ok_bind, encodeString_length, ← Nat.add_assoc]
  rfl

theorem readMembers_at {members : List String}
    (h : StandsAt bytes cursor (members.flatMap encodeString))
    (hNamed : ∀ member ∈ members, member ≠ "")
    (hShort : ∀ member ∈ members, (utf8 member).length < 65536)
    (hStop : cursor + (members.flatMap encodeString).length ≤ stop) :
    readMembers bytes stop members.length cursor =
      .ok (members, cursor + (members.flatMap encodeString).length) := by
  induction members generalizing cursor with
  | nil => rfl
  | cons member members ih =>
    rw [List.flatMap_cons, standsAt_append] at h
    rw [List.flatMap_cons, List.length_append] at hStop ⊢
    rw [List.length_cons, readMembers, readString_at h.1 (hNamed member List.mem_cons_self)
      (hShort member List.mem_cons_self) (by omega), ok_bind]
    dsimp only
    rw [ih h.2 (fun m hm => hNamed m (List.mem_cons_of_mem _ hm))
      (fun m hm => hShort m (List.mem_cons_of_mem _ hm)) (by omega), ok_bind, Nat.add_assoc]
    rfl

end Fields

section Parts

variable [Sha256] {bytes : Bytes} {cursor stop : Nat}

def successorBytes (successor : SuccessorDescriptor) : Bytes :=
  encodeString successor.clusterId ++ (toBeBytes 8 successor.predecessorConfigId ++
    (successor.predecessorConfigDigest.bytes ++ (toBeBytes 8 successor.configId ++
    (successor.digest.bytes ++ (toBeBytes 2 successor.members.length ++
    successor.members.flatMap encodeString)))))

def bindingBytes : StopBinding → Bytes
  | .unknown => toBeBytes 1 0
  | .unbound => toBeBytes 1 1
  | .bound successor stopCommandHash =>
    toBeBytes 1 2 ++ (successorBytes successor ++ stopCommandHash.bytes)

def stateBytes : ConfigurationState → Bytes
  | .active _ digest => toBeBytes 1 1 ++ digest.bytes
  | .stopped _ digest stop binding => toBeBytes 1 2 ++ (digest.bytes ++ (toBeBytes 8 stop.index ++
      (stop.hash.bytes ++ bindingBytes binding)))

omit [Sha256] in
theorem putString_eq {value field : String} (h : (utf8 value).length < 65536) :
    putString value field = .ok (encodeString value) := by
  rw [putString, ensure_of h, ok_bind]
  rfl

omit [Sha256] in
theorem mapM_putString {values : List String} {field : String}
    (h : ∀ value ∈ values, (utf8 value).length < 65536) :
    values.mapM (putString · field) = .ok (values.map encodeString) := by
  induction values with
  | nil => rfl
  | cons value values ih =>
    rw [List.mapM_cons, putString_eq (h value List.mem_cons_self), ok_bind,
      ih fun v hv => h v (List.mem_cons_of_mem _ hv), ok_bind]
    rfl

theorem encodeSuccessorDescriptor_eq (successor : SuccessorDescriptor) :
    encodeSuccessorDescriptor successor = .ok (successorBytes successor) := by
  have hCluster : (utf8 successor.clusterId).length < 65536 := by
    have hBounded := successor.clusterBounded
    omega
  have hMembers : ∀ member ∈ successor.members, (utf8 member).length < 65536 := by
    intro member hMember
    have hBounded := successor.canonical.bounded member hMember
    omega
  rw [encodeSuccessorDescriptor, putString_eq hCluster, ok_bind, mapM_putString hMembers, ok_bind,
    ← List.flatMap_def]
  rfl

theorem encodeConfigurationState_eq (state : ConfigurationState) :
    encodeConfigurationState state = .ok (stateBytes state) := by
  cases state with
  | active configId digest => rfl
  | stopped configId digest stop binding =>
    cases binding with
    | unknown => rfl
    | unbound => rfl
    | bound successor stopCommandHash =>
      rw [encodeConfigurationState, encodeStopBinding, encodeSuccessorDescriptor_eq]
      rfl

omit [Sha256] in
theorem successor_bounds (successor : SuccessorDescriptor) :
    successor.configId < u64Bound ∧ successor.predecessorConfigId < u64Bound := by
  have hNext := successor.next
  unfold checkedSucc at hNext
  split at hNext
  · rename_i hBound
    obtain hConfig := Option.some.inj hNext
    omega
  · cases hNext

theorem decodeSuccessorDescriptor_at {successor : SuccessorDescriptor}
    (h : StandsAt bytes cursor (successorBytes successor))
    (hStop : cursor + (successorBytes successor).length ≤ stop) :
    decodeSuccessorDescriptor bytes cursor stop =
      .ok (successor, cursor + (successorBytes successor).length) := by
  simp only [successorBytes, standsAt_append, toBeBytes_length, LogHash.size] at h
  obtain ⟨hCluster, hPredecessor, hPredecessorDigest, hConfig, hDigest, hCount, hMembers⟩ := h
  simp only [successorBytes, List.length_append, toBeBytes_length, LogHash.size] at hStop ⊢
  have hClusterShort : (utf8 successor.clusterId).length < 65536 := by
    have hBounded := successor.clusterBounded
    omega
  have hShort : ∀ member ∈ successor.members, (utf8 member).length < 65536 := by
    intro member hMember
    have hBounded := successor.canonical.bounded member hMember
    omega
  have hAtMost := successor.canonical.atMost
  obtain ⟨hConfigBound, hPredecessorBound⟩ := successor_bounds successor
  unfold decodeSuccessorDescriptor
  rw [readString_at hCluster successor.clusterNamed hClusterShort (by omega), ok_bind]
  dsimp only
  rw [readStateU64_at hPredecessor hPredecessorBound (by omega), ok_bind]
  dsimp only
  rw [readStateHash_at hPredecessorDigest (by omega), ok_bind]
  dsimp only
  rw [readStateU64_at hConfig hConfigBound (by omega), ok_bind]
  dsimp only
  rw [readStateHash_at hDigest (by omega), ok_bind]
  dsimp only
  rw [readStateU16_at hCount (by omega) (by omega), ok_bind]
  dsimp only
  rw [readMembers_at hMembers successor.canonical.named hShort (by omega), ok_bind]
  dsimp only
  rw [SuccessorDescriptor.new_self, Option.elim_some, ok_bind, ensure_of rfl, ok_bind]
  simp only [Nat.add_assoc]
  rfl

theorem decodeStopBinding_at {binding : StopBinding} (h : StandsAt bytes cursor (bindingBytes binding))
    (hStop : cursor + (bindingBytes binding).length ≤ stop) :
    decodeStopBinding bytes cursor stop = .ok (binding, cursor + (bindingBytes binding).length) := by
  unfold decodeStopBinding
  cases binding with
  | unknown =>
    rw [bindingBytes, toBeBytes_length] at hStop
    rw [readStateU8_at h (by decide) hStop]
    rfl
  | unbound =>
    rw [bindingBytes, toBeBytes_length] at hStop
    rw [readStateU8_at h (by decide) hStop]
    rfl
  | bound successor stopCommandHash =>
    simp only [bindingBytes, standsAt_append, toBeBytes_length] at h
    obtain ⟨hKind, hSuccessor, hHash⟩ := h
    simp only [bindingBytes, List.length_append, toBeBytes_length, LogHash.size] at hStop ⊢
    rw [readStateU8_at hKind (by decide) (by omega), ok_bind]
    dsimp only
    rw [decodeSuccessorDescriptor_at hSuccessor (by omega), ok_bind]
    dsimp only
    rw [readStateHash_at hHash (by omega), ok_bind]
    simp only [Nat.add_assoc]
    rfl

theorem decodeConfigurationState_at {state : ConfigurationState}
    (hStopIndex : ∀ anchor ∈ state.stop?, anchor.index < u64Bound)
    (h : StandsAt bytes cursor (stateBytes state))
    (hStop : cursor + (stateBytes state).length ≤ stop) :
    decodeConfigurationState bytes cursor stop state.configId anchorVersion =
      .ok (state, cursor + (stateBytes state).length) := by
  unfold decodeConfigurationState
  cases state with
  | active configId digest =>
    simp only [stateBytes, standsAt_append, toBeBytes_length] at h
    simp only [stateBytes, List.length_append, toBeBytes_length, LogHash.size] at hStop ⊢
    rw [readStateU8_at h.1 (by decide) (by omega), ok_bind]
    dsimp only
    rw [readStateHash_at h.2 (by omega), ok_bind]
    simp only [Nat.add_assoc]
    rfl
  | stopped configId digest anchor binding =>
    simp only [stateBytes, standsAt_append, toBeBytes_length, LogHash.size] at h
    obtain ⟨hKind, hDigest, hIndex, hHash, hBinding⟩ := h
    simp only [stateBytes, List.length_append, toBeBytes_length, LogHash.size] at hStop ⊢
    rw [readStateU8_at hKind (by decide) (by omega), ok_bind]
    dsimp only
    rw [readStateHash_at hDigest (by omega), ok_bind]
    dsimp only
    rw [readStateU64_at hIndex (hStopIndex anchor rfl) (by omega), ok_bind]
    dsimp only
    rw [readStateHash_at hHash (by omega), ok_bind]
    dsimp only
    rw [decodeBindingOf, if_pos rfl, decodeStopBinding_at hBinding (by omega), ok_bind]
    simp only [Nat.add_assoc]
    rfl

omit [Sha256] in
theorem decodeFingerprint_at {fingerprint : Option LogHash}
    (h : StandsAt bytes 112 (encodeFingerprint fingerprint)) :
    decodeFingerprint bytes = .ok fingerprint := by
  unfold decodeFingerprint
  cases fingerprint with
  | none =>
    have hZero : encodeFingerprint none = toBeBytes 1 0 ++ LogHash.zero.bytes := rfl
    rw [hZero, standsAt_append, toBeBytes_length] at h
    rw [readUint_at Nat.one_pos (by decide) h.1, ok_bind, readHash_at h.2, ok_bind]
    rfl
  | some hash =>
    have hOne : encodeFingerprint (some hash) = toBeBytes 1 1 ++ hash.bytes := rfl
    rw [hOne, standsAt_append, toBeBytes_length] at h
    rw [readUint_at Nat.one_pos (by decide) h.1, ok_bind, readHash_at h.2, ok_bind]
    rfl

end Parts

section File

variable [Sha256]

structure RecoveryAnchor.Fits (anchor : RecoveryAnchor) : Prop where
  epoch : anchor.epoch < u64Bound
  configId : anchor.configId < u64Bound
  recoveryGeneration : anchor.recoveryGeneration < u64Bound
  index : anchor.compacted.index < u64Bound
  sizeBytes : anchor.snapshot.sizeBytes < u64Bound
  clusterId : (utf8 anchor.clusterId).length < 65536
  snapshotId : (utf8 anchor.snapshot.snapshotId).length < 65536

def storedState (anchor : RecoveryAnchor) : Bytes :=
  if anchor.formatVersion = recoveryAnchorFormatVersion then stateBytes anchor.configurationState
  else []

def anchorBody (anchor : RecoveryAnchor) : Bytes :=
  anchorPrefix anchor ++ (encodeFingerprint anchor.snapshot.executorFingerprint ++
    (storedState anchor ++ (encodeString anchor.clusterId ++ encodeString anchor.snapshot.snapshotId)))

def anchorFile (anchor : RecoveryAnchor) : Bytes :=
  anchorBody anchor ++ toBeBytes 4 (crc32c (anchorBody anchor)).toNat

theorem encodeStateOf_eq (anchor : RecoveryAnchor) :
    encodeStateOf anchor = .ok (storedState anchor) := by
  unfold encodeStateOf storedState
  split
  · exact encodeConfigurationState_eq _
  · rfl

theorem encodeAnchor_eq {anchor : RecoveryAnchor} (hValid : validateAnchor anchor = .ok ())
    (hFits : anchor.Fits) : encodeAnchor anchor = .ok (anchorFile anchor) := by
  rw [encodeAnchor, hValid, ok_bind, encodeStateOf_eq, ok_bind, putString_eq hFits.clusterId, ok_bind,
    putString_eq hFits.snapshotId, ok_bind]
  rfl

omit [Sha256] in
theorem anchorPrefix_length (anchor : RecoveryAnchor) : (anchorPrefix anchor).length = 112 := by
  have hMagic : anchorMagic.length = 4 := by decide
  simp only [anchorPrefix, List.length_append, toBeBytes_length, hMagic, LogHash.size]

omit [Sha256] in
theorem encodeFingerprint_length (fingerprint : Option LogHash) :
    (encodeFingerprint fingerprint).length = 33 := by
  cases fingerprint <;> simp [encodeFingerprint, LogHash.size]

omit [Sha256] in
theorem anchorPrefix_standsAt {anchor : RecoveryAnchor} {bytes : Bytes}
    (h : StandsAt bytes 0 (anchorPrefix anchor)) :
    StandsAt bytes 0 anchorMagic ∧
      StandsAt bytes 4 (toBeBytes 2 (if anchor.formatVersion = recoveryAnchorV1FormatVersion then
        anchorV1Version else anchorVersion)) ∧
      StandsAt bytes 6 (toBeBytes 2 0) ∧ StandsAt bytes 8 (toBeBytes 8 anchor.epoch) ∧
      StandsAt bytes 16 (toBeBytes 8 anchor.configId) ∧
      StandsAt bytes 24 (toBeBytes 8 anchor.recoveryGeneration) ∧
      StandsAt bytes 32 (toBeBytes 8 anchor.compacted.index) ∧
      StandsAt bytes 40 anchor.compacted.hash.bytes ∧
      StandsAt bytes 72 anchor.snapshot.digest.bytes ∧
      StandsAt bytes 104 (toBeBytes 8 anchor.snapshot.sizeBytes) := by
  have hMagic : anchorMagic.length = 4 := by decide
  simpa only [anchorPrefix, standsAt_append, toBeBytes_length, hMagic, LogHash.size, Nat.zero_add,
    Nat.reduceAdd] using h

theorem anchorFile_length (anchor : RecoveryAnchor) :
    (anchorFile anchor).length = (anchorBody anchor).length + 4 := by
  rw [anchorFile, List.length_append, toBeBytes_length]

theorem anchorBody_length (anchor : RecoveryAnchor) :
    (anchorBody anchor).length = 145 + (storedState anchor).length +
      (encodeString anchor.clusterId).length + (encodeString anchor.snapshot.snapshotId).length := by
  simp only [anchorBody, List.length_append, anchorPrefix_length, encodeFingerprint_length]
  omega

theorem anchorFile_standsAt (anchor : RecoveryAnchor) :
    StandsAt (anchorFile anchor) 0 (anchorPrefix anchor) ∧
      StandsAt (anchorFile anchor) 112 (encodeFingerprint anchor.snapshot.executorFingerprint) ∧
      StandsAt (anchorFile anchor) 145 (storedState anchor) ∧
      StandsAt (anchorFile anchor) (145 + (storedState anchor).length) (encodeString anchor.clusterId) ∧
      StandsAt (anchorFile anchor)
        (145 + (storedState anchor).length + (encodeString anchor.clusterId).length)
        (encodeString anchor.snapshot.snapshotId) := by
  have hBody : StandsAt (anchorFile anchor) 0 (anchorBody anchor) := standsAt_front _ _
  simpa only [anchorBody, standsAt_append, anchorPrefix_length, encodeFingerprint_length,
    Nat.zero_add, Nat.reduceAdd] using hBody

omit [Sha256] in
theorem validateAnchor_ok {anchor : RecoveryAnchor} (h : validateAnchor anchor = .ok ()) :
    anchor.clusterId ≠ "" ∧ anchor.snapshot.snapshotId ≠ "" ∧
      anchor.configurationState.configId = anchor.configId ∧
      ∀ stop ∈ anchor.configurationState.stop?, stop = anchor.compacted := by
  obtain ⟨⟨⟩, -, h⟩ := bind_ok_iff.mp h
  obtain ⟨⟨⟩, hIdentity, hConfiguration⟩ := bind_ok_iff.mp h
  obtain ⟨hCluster, -, -, hSnapshot, -⟩ := ensure_ok_iff.mp hIdentity
  obtain ⟨hConfig, hStop⟩ := ensure_ok_iff.mp hConfiguration
  exact ⟨hCluster, hSnapshot, hConfig, hStop⟩

/-- The checks of `decode_anchor` up to its version. -/
theorem anchorFile_head (anchor : RecoveryAnchor) {version : Nat} (hVersionBound : version < 65536)
    (hVersion : (if anchor.formatVersion = recoveryAnchorV1FormatVersion then anchorV1Version
      else anchorVersion) = version) :
    120 ≤ (anchorFile anchor).length ∧ window (anchorFile anchor) 0 4 = anchorMagic ∧
      readU32 (anchorFile anchor) ((anchorFile anchor).length - 4) =
        .ok (crc32c ((anchorFile anchor).take ((anchorFile anchor).length - 4))).toNat ∧
      readU16 (anchorFile anchor) 4 = .ok version ∧ readU16 (anchorFile anchor) 6 = .ok 0 := by
  obtain ⟨hMagic, hVersionAt, hReserved, -⟩ := anchorPrefix_standsAt (anchorFile_standsAt anchor).1
  have hLength := anchorFile_length anchor
  have hBody := anchorBody_length anchor
  have hCut : (anchorFile anchor).length - 4 = (anchorBody anchor).length := by omega
  have hCrc : StandsAt (anchorFile anchor) (anchorBody anchor).length
      (toBeBytes 4 (crc32c (anchorBody anchor)).toNat) := by
    rw [StandsAt, toBeBytes_length, anchorFile, window_skip _ le_rfl, Nat.sub_self, window,
      List.drop_zero, List.take_of_length_le (toBeBytes_length 4 _).le]
  rw [hVersion] at hVersionAt
  refine ⟨by omega, hMagic, ?_, readUint_at (by decide) (by omega) hVersionAt,
    readUint_at (by decide) (by decide) hReserved⟩
  rw [hCut]
  have hTake : (anchorFile anchor).take (anchorBody anchor).length = anchorBody anchor :=
    List.take_left
  rw [hTake]
  exact readUint_at (by decide) (crc32c_lt _) hCrc

theorem decodeAnchor_anchorFile {anchor : RecoveryAnchor} (hValid : validateAnchor anchor = .ok ())
    (hFits : anchor.Fits) (hFormat : anchor.formatVersion = recoveryAnchorFormatVersion) :
    decodeAnchor (anchorFile anchor) = .ok anchor := by
  have hStored : storedState anchor = stateBytes anchor.configurationState := if_pos hFormat
  obtain ⟨hEnough, hMagic, hCrc, hVersion, hReserved⟩ :=
    anchorFile_head anchor (show anchorVersion < 65536 by decide) (by rw [hFormat]; rfl)
  obtain ⟨hPrefix, hFingerprint, hState, hCluster, hSnapshot⟩ := anchorFile_standsAt anchor
  obtain ⟨-, -, -, hEpoch, hConfig, hGeneration, hIndex, hHash, hDigest, hSize⟩ :=
    anchorPrefix_standsAt hPrefix
  obtain ⟨hClusterNamed, hSnapshotNamed, hConfigId, hStop⟩ := validateAnchor_ok hValid
  have hEnd : (anchorFile anchor).length - 4 = 145 + (storedState anchor).length +
      (encodeString anchor.clusterId).length + (encodeString anchor.snapshot.snapshotId).length := by
    have hLength := anchorFile_length anchor
    have hBody := anchorBody_length anchor
    omega
  have hStopIndex : ∀ stop ∈ anchor.configurationState.stop?, stop.index < u64Bound := by
    intro stop hMem
    rw [hStop stop hMem]
    exact hFits.index
  have hStateRead : decodeStateOf (anchorFile anchor) 145 ((anchorFile anchor).length - 4)
      anchor.configId anchorVersion =
        .ok (anchor.configurationState, 145 + (storedState anchor).length) := by
    rw [hStored] at hState hEnd
    rw [decodeStateOf, if_pos (by decide), ← hConfigId, hStored]
    exact decodeConfigurationState_at hStopIndex hState (by omega)
  have hAnchor : RecoveryAnchor.ofVersion anchorVersion anchor.clusterId anchor.epoch anchor.configId
      anchor.configurationState anchor.recoveryGeneration anchor.compacted anchor.snapshot =
        anchor := by
    rw [RecoveryAnchor.ofVersion, if_neg (by decide), RecoveryAnchor.newWithConfiguration, hConfigId,
      ← hFormat]
  unfold decodeAnchor
  simp only [bind_ok_iff, exists_ensure_iff]
  exact ⟨⟨hEnough, hMagic⟩, _, hCrc, rfl, anchorVersion, hVersion, 0, hReserved, by decide,
    anchor.snapshot.executorFingerprint, decodeFingerprint_at hFingerprint, anchor.configId,
    readUint_at (by decide) hFits.configId hConfig, _, hStateRead, _,
    readString_at hCluster hClusterNamed hFits.clusterId (by omega), _,
    readString_at hSnapshot hSnapshotNamed hFits.snapshotId (by omega), hEnd.symm,
    anchor.compacted.index, readUint_at (by decide) hFits.index hIndex, anchor.compacted.hash,
    readHash_at hHash, anchor.snapshot.digest, readHash_at hDigest, anchor.snapshot.sizeBytes,
    readUint_at (by decide) hFits.sizeBytes hSize, anchor.epoch,
    readUint_at (by decide) hFits.epoch hEpoch, anchor.recoveryGeneration,
    readUint_at (by decide) hFits.recoveryGeneration hGeneration, (), hAnchor.symm ▸ hValid,
    congrArg _ hAnchor⟩

omit [Sha256] in
theorem readString_cursor {bytes : Bytes} {cursor stop next : Nat} {text field : String}
    (hEnd : stop ≤ bytes.length) (h : readString bytes cursor stop field = .ok (text, next)) :
    next = cursor + (encodeString text).length := by
  obtain ⟨⟨value, next'⟩, hName, h⟩ := bind_ok_iff.mp h
  obtain ⟨⟨⟩, -, h⟩ := bind_ok_iff.mp h
  cases h
  obtain ⟨length, -, hName⟩ := bind_ok_iff.mp hName
  obtain ⟨⟨⟩, hStop, hName⟩ := bind_ok_iff.mp hName
  obtain ⟨found, hFound, hName⟩ := bind_ok_iff.mp hName
  cases hName
  have hInside := ensure_ok_iff.mp hStop
  have hText := utf8_of_fromUtf8 (elim_ok_iff.mp hFound)
  rw [encodeString_length, hText, window_length (by omega)]
  omega

theorem decodeAnchor_anchorFile_v1 {anchor : RecoveryAnchor}
    (hFormat : anchor.formatVersion = recoveryAnchorV1FormatVersion) :
    decodeAnchor (anchorFile anchor) ≠ .ok anchor := by
  intro h
  obtain ⟨-, -, -, hVersion, -⟩ :=
    anchorFile_head anchor (show anchorV1Version < 65536 by decide) (by rw [if_pos hFormat])
  have hEnd : (anchorFile anchor).length - 4 = 145 +
      (encodeString anchor.clusterId).length + (encodeString anchor.snapshot.snapshotId).length := by
    have hStored : storedState anchor = [] := if_neg (by rw [hFormat]; decide)
    have hLength := anchorFile_length anchor
    have hBody := anchorBody_length anchor
    rw [hStored] at hBody
    simp only [List.length_nil, Nat.add_zero] at hBody
    omega
  unfold decodeAnchor at h
  simp only [bind_ok_iff, exists_ensure_iff] at h
  obtain ⟨-, _, -, -, version, hRead, _, -, -, _, -, _, -, ⟨state, cursor⟩, hState, ⟨clusterId, cursor'⟩,
    hCluster, ⟨snapshotId, cursor''⟩, hSnapshot, hCursor, _, -, _, -, _, -, _, -, _, -, _, -, -, -,
    hAnchor⟩ := h
  obtain rfl := Except.ok.inj (hVersion.symm.trans hRead)
  obtain ⟨-, rfl⟩ := Prod.mk.inj (Except.ok.inj hState)
  have hSame := Except.ok.inj hAnchor
  obtain rfl : clusterId = anchor.clusterId := congrArg RecoveryAnchor.clusterId hSame
  obtain rfl : snapshotId = anchor.snapshot.snapshotId :=
    congrArg (fun anchor => anchor.snapshot.snapshotId) hSame
  have hFirst := readString_cursor (Nat.sub_le _ _) hCluster
  have hSecond := readString_cursor (Nat.sub_le _ _) hSnapshot
  dsimp only at hFirst hSecond hCursor
  rw [if_neg (by decide)] at hFirst
  omega

end File

end Rhiza.Log
