import Rhiza.Library.Fallible
import Rhiza.Core.ConfigChange

/-! # Segments of the log

A segment is a header, one frame for each entry and, once it is closed, a footer.
The name of the cluster is not stored, only its hash, but it enters the hash of
every entry.
-/

namespace Rhiza.Log

open Core Library

inductive Error
  | invalidIndexRange (start stop : Nat)
  | compactionAboveTip (target : Nat) (tip : Option Nat)
  | compactionHashMismatch (index : Nat)
  | compactionRegression (target anchor : Nat)
  | compactionConflict (index : Nat)
  | decode (message : String)
  deriving DecidableEq

abbrev Result (α : Type) := Except Error α

def qlogMagic : Bytes := utf8 "QLOG"
def qlogFormatVersion : Nat := 1
def qlogHeaderLen : Nat := 76
def qlogFrameMagic : Bytes := utf8 "QFRM"
def qlogFooterMagic : Bytes := utf8 "QEND"
def headerWithoutCrcLen : Nat := 72
def framePrefixLen : Nat := 108
def frameMinLen : Nat := 144
def footerLen : Nat := 88

def readUint (width : Nat) (message : String) (bytes : Bytes) (offset : Nat) : Result Nat :=
  if offset + width ≤ bytes.length then .ok (fromBeBytes (window bytes offset width))
  else .error (.decode message)

def readU16 : Bytes → Nat → Result Nat := readUint 2 "short qlog u16"
def readU32 : Bytes → Nat → Result Nat := readUint 4 "short qlog u32"
def readU64 : Bytes → Nat → Result Nat := readUint 8 "short qlog u64"

def readHash (bytes : Bytes) (offset : Nat) : Result LogHash :=
  if h : offset + 32 ≤ bytes.length then .ok ⟨window bytes offset 32, window_length h⟩
  else .error (.decode "short qlog hash")

def crc32cShift (crc : UInt32) : UInt32 := (crc >>> 1) ^^^ (0x82f63b78 &&& (0 - (crc &&& 1)))

def crc32c (bytes : Bytes) : UInt32 :=
  ~~~(bytes.foldl (fun crc byte => Nat.repeat crc32cShift 8 (crc ^^^ byte.toUInt32)) (~~~0))

theorem crc32c_lt (bytes : Bytes) : (crc32c bytes).toNat < 256 ^ 4 := (crc32c bytes).toNat_lt

def toHex (hash : LogHash) : String :=
  String.ofList (hash.bytes.flatMap fun byte => [Nat.digitChar (byte.toNat / 16), Nat.digitChar (byte.toNat % 16)])

structure SegmentHeader where
  clusterIdHash : LogHash
  epoch : Nat
  configId : Nat
  startIndex : Nat
  createdAtUnixMs : Nat
  deriving DecidableEq

section Codec

variable [Sha256]

def headerBody (first : LogEntry) : Bytes :=
  qlogMagic ++ (toBeBytes 2 qlogFormatVersion ++ (toBeBytes 2 qlogHeaderLen ++
    (toBeBytes 8 first.index ++ (toBeBytes 8 first.epoch ++ (toBeBytes 8 first.configId ++
    ((LogHash.digest [utf8 first.clusterId]).bytes ++ toBeBytes 8 0))))))

def encodeHeader (first : LogEntry) : Bytes :=
  headerBody first ++ toBeBytes 4 (crc32c (headerBody first)).toNat

def decodeHeader (bytes : Bytes) (clusterId : ClusterId) : Result (SegmentHeader × Nat) := do
  ensure (qlogHeaderLen ≤ bytes.length) (.decode "short qlog header")
  ensure (window bytes 0 4 = qlogMagic) (.decode "wrong qlog magic")
  let version ← readU16 bytes 4
  ensure (version = qlogFormatVersion) (.decode "unsupported qlog version")
  let headerLen ← readU16 bytes 6
  ensure (headerLen = qlogHeaderLen) (.decode "invalid qlog header_len")
  let expectedCrc ← readU32 bytes headerWithoutCrcLen
  ensure ((crc32c (bytes.take headerWithoutCrcLen)).toNat = expectedCrc)
    (.decode "qlog header crc mismatch")
  let clusterIdHash ← readHash bytes 32
  ensure (clusterId = "" ∨ LogHash.digest [utf8 clusterId] = clusterIdHash)
    (.decode "qlog cluster_id hash mismatch")
  let epoch ← readU64 bytes 16
  let configId ← readU64 bytes 24
  let startIndex ← readU64 bytes 8
  let createdAtUnixMs ← readU64 bytes 64
  pure (⟨clusterIdHash, epoch, configId, startIndex, createdAtUnixMs⟩, qlogHeaderLen)

def framePrefix (entry : LogEntry) : Bytes :=
  qlogFrameMagic ++ (toBeBytes 4 (frameMinLen + entry.payload.length) ++ (toBeBytes 8 entry.index ++
    (toBeBytes 8 entry.epoch ++ (toBeBytes 8 entry.configId ++ ([entry.entryType.asU8] ++
    (List.replicate 7 0 ++ (entry.prevHash.bytes ++ ((LogHash.digest [entry.payload]).bytes ++
    toBeBytes 4 entry.payload.length))))))))

def frameBody (entry : LogEntry) : Bytes := framePrefix entry ++ (entry.payload ++ entry.hash.bytes)

def encodeFrame (entry : LogEntry) : Bytes :=
  frameBody entry ++ toBeBytes 4 (crc32c (frameBody entry)).toNat

/-- `decode_frame`; `tail` is what the source reads from `offset` on. -/
def decodeFrame (bytes : Bytes) (offset : Nat) (clusterId : ClusterId) : Result (LogEntry × Nat) := do
  let tail := bytes.drop offset
  ensure (frameMinLen ≤ tail.length) (.decode "short qlog frame")
  ensure (window tail 0 4 = qlogFrameMagic) (.decode "wrong qlog frame magic")
  let frameLen ← readU32 tail 4
  ensure (frameMinLen ≤ frameLen ∧ frameLen ≤ tail.length) (.decode "invalid qlog frame_len")
  let expectedCrc ← readU32 tail (frameLen - 4)
  ensure ((crc32c (tail.take (frameLen - 4))).toNat = expectedCrc) (.decode "qlog frame crc mismatch")
  let index ← readU64 tail 8
  let epoch ← readU64 tail 16
  let configId ← readU64 tail 24
  let entryType ← (EntryType.fromU8 (tail.getD 32 0)).elim
    (.error (.decode "invalid qlog entry_type")) .ok
  let prevHash ← readHash tail 40
  let payloadHash ← readHash tail 72
  let payloadLen ← readU32 tail 104
  ensure (frameMinLen + payloadLen = frameLen) (.decode "qlog frame_len does not match payload_len")
  let payload := window tail framePrefixLen payloadLen
  ensure (LogHash.digest [payload] = payloadHash) (.decode "qlog payload_hash mismatch")
  let hash ← readHash tail (framePrefixLen + payloadLen)
  let entry : LogEntry := ⟨clusterId, epoch, configId, index, entryType, payload, prevHash, hash⟩
  ensure (entry.recomputeHash = hash) (.decode "qlog entry_hash mismatch")
  pure (entry, offset + frameLen)

def footerStart (endIndex entryCount : Nat) (lastEntryHash : LogHash) : Bytes :=
  qlogFooterMagic ++ (toBeBytes 8 endIndex ++ (toBeBytes 8 entryCount ++ lastEntryHash.bytes))

def footerBody (header entryHashes : Bytes) (endIndex entryCount : Nat) (lastEntryHash : LogHash) :
    Bytes :=
  let start := footerStart endIndex entryCount lastEntryHash
  start ++ (LogHash.digest [header, entryHashes, start]).bytes

def encodeFooter (header entryHashes : Bytes) (endIndex entryCount : Nat) (lastEntryHash : LogHash) :
    Bytes :=
  let out := footerBody header entryHashes endIndex entryCount lastEntryHash
  out ++ toBeBytes 4 (crc32c out).toNat

def decodeFooter (bytes : Bytes) (offset : Nat) (header entryHashes : Bytes)
    (entries : List LogEntry) : Result Unit := do
  let footer := bytes.drop offset
  ensure (footer.length = footerLen) (.decode "invalid qlog footer length")
  let expectedCrc ← readU32 footer (footerLen - 4)
  ensure ((crc32c (footer.take (footerLen - 4))).toNat = expectedCrc)
    (.decode "qlog footer crc mismatch")
  let endIndex ← readU64 footer 4
  let entryCount ← readU64 footer 12
  let lastHash ← readHash footer 20
  let segmentHash ← readHash footer 52
  ensure (segmentHash = LogHash.digest [header, entryHashes, footer.take 52])
    (.decode "qlog segment_hash mismatch")
  ensure (entries.length % u64Bound = entryCount) (.decode "qlog footer entry_count mismatch")
  match entries.getLast? with
  | some last =>
    ensure (last.index = endIndex ∧ last.hash = lastHash) (.decode "qlog footer last entry mismatch")
  | none => ensure (entryCount = 0) (.decode "qlog empty footer mismatch")

omit [Sha256] in
def validateDecodedEntry (header : SegmentHeader) (position : Nat) (previous : Option LogEntry)
    (entry : LogEntry) : Result Unit := do
  ensure (header.startIndex + position < u64Bound ∧ header.startIndex + position = entry.index)
    (.decode "qlog index gap")
  ensure (entry.epoch = header.epoch ∧ entry.configId = header.configId)
    (.decode "qlog epoch/config mismatch")
  ensure (∀ last ∈ previous, entry.prevHash = last.hash) (.decode "qlog hash chain mismatch")

omit [Sha256] in
/-- `validate_entries` from a position on. -/
def validateFrom (header : SegmentHeader) : Nat → Option LogEntry → List LogEntry → Result Unit
  | _, _, [] => .ok ()
  | position, previous, entry :: entries => do
    validateDecodedEntry header position previous entry
    validateFrom header (position + 1) (some entry) entries

omit [Sha256] in
def validateEntries (header : SegmentHeader) (entries : List LogEntry) : Result Unit :=
  validateFrom header 0 none entries

/-- What a frame that `decode_frame` accepts holds. -/
structure FrameAt (tail : Bytes) (frameLen : Nat) (entry : LogEntry) : Prop where
  magic : window tail 0 4 = qlogFrameMagic
  declared : fromBeBytes (window tail 4 4) = frameLen
  complete : frameLen ≤ tail.length
  checksum : fromBeBytes (window tail (frameLen - 4) 4) = (crc32c (tail.take (frameLen - 4))).toNat
  index : fromBeBytes (window tail 8 8) = entry.index
  epoch : fromBeBytes (window tail 16 8) = entry.epoch
  configId : fromBeBytes (window tail 24 8) = entry.configId
  entryType : EntryType.fromU8 (tail.getD 32 0) = some entry.entryType
  prevHash : window tail 40 32 = entry.prevHash.bytes
  payloadHash : window tail 72 32 = (LogHash.digest [entry.payload]).bytes
  payloadLen : fromBeBytes (window tail 104 4) = entry.payload.length
  length : frameMinLen + entry.payload.length = frameLen
  payload : window tail framePrefixLen entry.payload.length = entry.payload
  hash : window tail (framePrefixLen + entry.payload.length) 32 = entry.hash.bytes
  recomputes : entry.recomputeHash = entry.hash

omit [Sha256] in
theorem readUint_ok_iff {width n : Nat} {message : String} {bytes : Bytes} {offset : Nat} :
    readUint width message bytes offset = .ok n ↔
      offset + width ≤ bytes.length ∧ fromBeBytes (window bytes offset width) = n := by
  unfold readUint
  split
  · rename_i h
    simp [h]
  · rename_i h
    simp [h]

omit [Sha256] in
theorem readHash_ok_iff {hash : LogHash} {bytes : Bytes} {offset : Nat} :
    readHash bytes offset = .ok hash ↔
      offset + 32 ≤ bytes.length ∧ window bytes offset 32 = hash.bytes := by
  unfold readHash
  split
  · rename_i h
    constructor
    · intro hRead
      obtain rfl := Except.ok.inj hRead
      exact ⟨h, rfl⟩
    · rintro ⟨-, hWindow⟩
      exact congrArg _ (LogHash.bytes_injective hWindow)
  · rename_i h
    simp [h]

theorem decodeFrame_ok_iff {bytes : Bytes} {offset next : Nat} {clusterId : ClusterId}
    {entry : LogEntry} :
    decodeFrame bytes offset clusterId = .ok (entry, next) ↔
      entry.clusterId = clusterId ∧ ∃ frameLen, next = offset + frameLen ∧
        FrameAt (bytes.drop offset) frameLen entry := by
  unfold decodeFrame
  simp only [bind_ok_iff, exists_ensure_iff, readU32, readU64, readUint_ok_iff, readHash_ok_iff,
    elim_ok_iff]
  constructor
  · rintro ⟨-, hMagic, frameLen, ⟨-, hFrameLen⟩, ⟨hMin, hComplete⟩, crc, ⟨-, hCrc⟩, hChecksum,
      index, ⟨-, hIndex⟩, epoch, ⟨-, hEpoch⟩, configId, ⟨-, hConfig⟩, entryType, hType, prevHash,
      ⟨-, hPrev⟩, payloadHash, ⟨-, hPayloadHash⟩, payloadLen, ⟨-, hPayloadLen⟩, hLength, hDigest,
      hash, ⟨-, hHash⟩, hRecomputes, hResult⟩
    obtain ⟨rfl, rfl⟩ := Prod.mk.inj (Except.ok.inj hResult)
    have hPayload : (window (bytes.drop offset) framePrefixLen payloadLen).length = payloadLen := by
      apply window_length
      have hPrefix : framePrefixLen + 36 = frameMinLen := rfl
      omega
    refine ⟨rfl, frameLen, rfl, ?_⟩
    exact
      { magic := hMagic
        declared := hFrameLen
        complete := hComplete
        checksum := hCrc.trans hChecksum.symm
        index := hIndex
        epoch := hEpoch
        configId := hConfig
        entryType := hType
        prevHash := hPrev
        payloadHash := by rw [hPayloadHash, hDigest]
        payloadLen := hPayloadLen.trans hPayload.symm
        length := by rw [hPayload]; exact hLength
        payload := by rw [hPayload]
        hash := by rw [hPayload]; exact hHash
        recomputes := hRecomputes }
  · rintro ⟨rfl, frameLen, rfl, h⟩
    have hMin : frameMinLen = 144 := rfl
    have hPrefix : framePrefixLen = 108 := rfl
    have hLength := h.length
    have hComplete := h.complete
    refine ⟨by omega, h.magic, frameLen, ⟨by omega, h.declared⟩, ⟨by omega, h.complete⟩, _,
      ⟨by omega, h.checksum⟩, rfl, entry.index, ⟨by omega, h.index⟩, entry.epoch,
      ⟨by omega, h.epoch⟩, entry.configId, ⟨by omega, h.configId⟩, entry.entryType, ?_,
      entry.prevHash, ⟨by omega, h.prevHash⟩, LogHash.digest [entry.payload],
      ⟨by omega, h.payloadHash⟩, entry.payload.length, ⟨by omega, h.payloadLen⟩, h.length, ?_,
      entry.hash, ⟨by omega, h.hash⟩, ?_, ?_⟩
    · exact h.entryType
    · rw [h.payload]
    · rw [h.payload]
      exact h.recomputes
    · rw [h.payload]
      rfl

theorem decodeFrame_advances {bytes : Bytes} {offset next : Nat} {clusterId : ClusterId}
    {entry : LogEntry} (h : decodeFrame bytes offset clusterId = .ok (entry, next)) :
    offset < next ∧ next ≤ bytes.length := by
  obtain ⟨-, frameLen, rfl, hFrame⟩ := decodeFrame_ok_iff.mp h
  have hLength := hFrame.length
  have hComplete := hFrame.complete
  have hMin : frameMinLen = 144 := rfl
  rw [List.length_drop] at hComplete
  omega

/-- The loop of `decode_segment_for_cluster`. -/
def decodeFrames (bytes : Bytes) (clusterId : ClusterId) (header : SegmentHeader) (offset : Nat)
    (entryHashes : Bytes) (entries : List LogEntry) : Result (List LogEntry) :=
  if bytes.length ≤ offset then .error (.decode "missing qlog footer")
  else if window bytes offset 4 = qlogFooterMagic then do
    decodeFooter bytes offset (bytes.take qlogHeaderLen) entryHashes entries
    validateEntries header entries
    pure entries
  else
    match h : decodeFrame bytes offset clusterId with
    | .error error => .error error
    | .ok (entry, next) =>
      have := decodeFrame_advances h
      decodeFrames bytes clusterId header next (entryHashes ++ entry.hash.bytes)
        (entries ++ [entry])
termination_by bytes.length - offset

omit [Sha256] in
def readerName (clusterId : ClusterId) (header : SegmentHeader) : ClusterId :=
  if clusterId = "" then toHex header.clusterIdHash else clusterId

def decodeSegmentForCluster (bytes : Bytes) (clusterId : ClusterId) : Result (List LogEntry) := do
  let (header, offset) ← decodeHeader bytes clusterId
  decodeFrames bytes (readerName clusterId header) header offset [] []

def decodeSegment (bytes : Bytes) : Result (List LogEntry) := decodeSegmentForCluster bytes ""

def encodeSegmentInner (entries : List LogEntry) (closed : Bool) : Bytes :=
  match entries.head?, entries.getLast? with
  | some first, some last =>
    let header := encodeHeader first
    let out := header ++ entries.flatMap encodeFrame
    if closed then
      out ++ encodeFooter header (entries.flatMap (·.hash.bytes)) last.index entries.length last.hash
    else out
  | _, _ => []

def encodeSegment (entries : List LogEntry) : Bytes := encodeSegmentInner entries true

def encodeOpenSegment (entries : List LogEntry) : Bytes := encodeSegmentInner entries false

structure Fits (entry : LogEntry) : Prop where
  index : entry.index < u64Bound
  epoch : entry.epoch < u64Bound
  configId : entry.configId < u64Bound
  payload : entry.payload.length < 2 ^ 32 - frameMinLen

omit [Sha256] in
theorem qlogFrameMagic_length : qlogFrameMagic.length = 4 := by decide

@[simp] theorem framePrefix_length (entry : LogEntry) :
    (framePrefix entry).length = framePrefixLen := by
  simp only [framePrefix, List.length_append, toBeBytes_length, qlogFrameMagic_length, LogHash.size,
    List.length_replicate, List.length_cons, List.length_nil, framePrefixLen]

@[simp] theorem frameBody_length (entry : LogEntry) :
    (frameBody entry).length = 140 + entry.payload.length := by
  rw [frameBody, List.length_append, List.length_append, framePrefix_length, LogHash.size,
    framePrefixLen]
  omega

@[simp] theorem encodeFrame_length (entry : LogEntry) :
    (encodeFrame entry).length = frameMinLen + entry.payload.length := by
  rw [encodeFrame, List.length_append, frameBody_length, toBeBytes_length, frameMinLen]
  omega

theorem framePrefix_windows (entry : LogEntry) (rest : Bytes) :
    window (framePrefix entry ++ rest) 0 4 = qlogFrameMagic ∧
      window (framePrefix entry ++ rest) 4 4 = toBeBytes 4 (frameMinLen + entry.payload.length) ∧
      window (framePrefix entry ++ rest) 8 8 = toBeBytes 8 entry.index ∧
      window (framePrefix entry ++ rest) 16 8 = toBeBytes 8 entry.epoch ∧
      window (framePrefix entry ++ rest) 24 8 = toBeBytes 8 entry.configId ∧
      window (framePrefix entry ++ rest) 32 1 = [entry.entryType.asU8] ∧
      window (framePrefix entry ++ rest) 40 32 = entry.prevHash.bytes ∧
      window (framePrefix entry ++ rest) 72 32 = (LogHash.digest [entry.payload]).bytes ∧
      window (framePrefix entry ++ rest) 104 4 = toBeBytes 4 entry.payload.length := by
  have hOne : [entry.entryType.asU8].length = 1 := rfl
  refine ⟨?_, ?_, ?_, ?_, ?_, ?_, ?_, ?_, ?_⟩ <;>
    simp (disch := simp [qlogFrameMagic_length, LogHash.size]) only [framePrefix, List.append_assoc,
      window_skip, window_front, qlogFrameMagic_length, toBeBytes_length, LogHash.size, hOne,
      List.length_replicate, Nat.reduceSub]

theorem frameAt_encodeFrame {entry : LogEntry} (hFits : Fits entry) (rest : Bytes)
    (clusterId : ClusterId)
    (hHash : { entry with clusterId := clusterId }.recomputeHash = entry.hash) :
    FrameAt (encodeFrame entry ++ rest) (frameMinLen + entry.payload.length)
      { entry with clusterId := clusterId } := by
  have hPayload := hFits.payload
  have hMin : frameMinLen = 144 := rfl
  have hCut : frameMinLen + entry.payload.length - 4 = (frameBody entry).length := by
    rw [frameBody_length]
    omega
  have hComplete : frameMinLen + entry.payload.length ≤ (encodeFrame entry ++ rest).length := by
    rw [List.length_append, encodeFrame_length]
    omega
  have hBody : encodeFrame entry ++ rest =
      frameBody entry ++ (toBeBytes 4 (crc32c (frameBody entry)).toNat ++ rest) := by
    rw [encodeFrame, List.append_assoc]
  have hPrefix : encodeFrame entry ++ rest = framePrefix entry ++ (entry.payload ++
      (entry.hash.bytes ++ (toBeBytes 4 (crc32c (frameBody entry)).toNat ++ rest))) := by
    rw [hBody]
    nth_rewrite 1 [frameBody]
    rw [List.append_assoc, List.append_assoc]
  obtain ⟨hMagic, hLen, hIndex, hEpoch, hConfig, hType, hPrev, hDigest, hPayloadLen⟩ :=
    framePrefix_windows entry (entry.payload ++
      (entry.hash.bytes ++ (toBeBytes 4 (crc32c (frameBody entry)).toNat ++ rest)))
  rw [← hPrefix] at hMagic hLen hIndex hEpoch hConfig hType hPrev hDigest hPayloadLen
  exact
    { magic := hMagic
      declared := by
        rw [hLen]
        exact fromBeBytes_toBeBytes 4 _ (by omega)
      complete := hComplete
      checksum := by
        rw [hCut, hBody, List.take_left, window_skip _ le_rfl, Nat.sub_self,
          window_front _ (toBeBytes_length 4 _)]
        exact fromBeBytes_toBeBytes 4 _ (crc32c_lt _)
      index := by
        rw [hIndex]
        exact fromBeBytes_toBeBytes 8 _ hFits.index
      epoch := by
        rw [hEpoch]
        exact fromBeBytes_toBeBytes 8 _ hFits.epoch
      configId := by
        rw [hConfig]
        exact fromBeBytes_toBeBytes 8 _ hFits.configId
      entryType := by rw [getD_of_window 0 hType, EntryType.fromU8_asU8]
      prevHash := hPrev
      payloadHash := hDigest
      payloadLen := by
        rw [hPayloadLen]
        exact fromBeBytes_toBeBytes 4 _ (by omega)
      length := rfl
      payload := by
        rw [hPrefix, window_skip _ (framePrefix_length entry).le, framePrefix_length, Nat.sub_self,
          window_front _ rfl]
      hash := by
        rw [hPrefix, window_skip _ (by rw [framePrefix_length]; omega), framePrefix_length,
          Nat.add_sub_cancel_left, window_skip _ le_rfl, Nat.sub_self, window_front _ (LogHash.size _)]
      recomputes := hHash }

end Codec

end Rhiza.Log
