import Mathlib.Data.List.Chain
import Rhiza.Log.Segment

/-! # Closed segments read back

Reading a segment under the name of its cluster gives its entries. Without a name
the reader puts the hash of the name, in hex, where the name was, and the hashes of
the entries do not recompute.
-/

namespace Rhiza.Log

open Core Library

theorem toBeBytes_mod (width n : Nat) : toBeBytes width (n % 256 ^ width) = toBeBytes width n := by
  cases width with
  | zero => rfl
  | succ width =>
    have hDigit : UInt8.ofNat (n % 256 ^ (width + 1) / 256 ^ width) = UInt8.ofNat (n / 256 ^ width) := by
      rw [Nat.pow_succ, Nat.mod_mul_right_div_self]
      exact UInt8.toNat_inj.mp (by simp)
    rw [toBeBytes, toBeBytes, hDigit, Nat.mod_mod_of_dvd _ (Nat.pow_dvd_pow 256 (Nat.le_succ width))]

theorem fromBeBytes_toBeBytes_mod (width n : Nat) :
    fromBeBytes (toBeBytes width n) = n % 256 ^ width := by
  rw [← toBeBytes_mod, fromBeBytes_toBeBytes width _ (Nat.mod_lt _ (Nat.pow_pos (by decide)))]

section Written

variable [Sha256]

def headerOf (first : LogEntry) : SegmentHeader :=
  ⟨LogHash.digest [utf8 first.clusterId], first.epoch, first.configId, first.index, 0⟩

theorem headerBody_length (first : LogEntry) : (headerBody first).length = headerWithoutCrcLen := by
  have hMagic : qlogMagic.length = 4 := by decide
  simp only [headerBody, List.length_append, toBeBytes_length, hMagic, LogHash.size,
    headerWithoutCrcLen]

theorem encodeHeader_length (first : LogEntry) : (encodeHeader first).length = qlogHeaderLen := by
  rw [encodeHeader, List.length_append, headerBody_length, toBeBytes_length]
  rfl

theorem headerBody_windows (first : LogEntry) (rest : Bytes) :
    window (headerBody first ++ rest) 0 4 = qlogMagic ∧
      window (headerBody first ++ rest) 4 2 = toBeBytes 2 qlogFormatVersion ∧
      window (headerBody first ++ rest) 6 2 = toBeBytes 2 qlogHeaderLen ∧
      window (headerBody first ++ rest) 8 8 = toBeBytes 8 first.index ∧
      window (headerBody first ++ rest) 16 8 = toBeBytes 8 first.epoch ∧
      window (headerBody first ++ rest) 24 8 = toBeBytes 8 first.configId ∧
      window (headerBody first ++ rest) 32 32 = (LogHash.digest [utf8 first.clusterId]).bytes ∧
      window (headerBody first ++ rest) 64 8 = toBeBytes 8 0 := by
  have hMagic : qlogMagic.length = 4 := by decide
  refine ⟨?_, ?_, ?_, ?_, ?_, ?_, ?_, ?_⟩ <;>
    simp (disch := simp [hMagic, LogHash.size]) only [headerBody, List.append_assoc, window_skip,
      window_front, hMagic, toBeBytes_length, LogHash.size, Nat.reduceSub]

theorem decodeHeader_encodeHeader {first : LogEntry} (hFits : Fits first) (rest : Bytes)
    {clusterId : ClusterId}
    (hCluster : clusterId = "" ∨
      LogHash.digest [utf8 clusterId] = LogHash.digest [utf8 first.clusterId]) :
    decodeHeader (encodeHeader first ++ rest) clusterId = .ok (headerOf first, qlogHeaderLen) := by
  have hLength : qlogHeaderLen ≤ (encodeHeader first ++ rest).length := by
    rw [List.length_append, encodeHeader_length]
    omega
  have hLen : qlogHeaderLen = 76 := rfl
  have hBody : encodeHeader first ++ rest =
      headerBody first ++ (toBeBytes 4 (crc32c (headerBody first)).toNat ++ rest) := by
    rw [encodeHeader, List.append_assoc]
  obtain ⟨hMagic, hVersion, hHeaderLen, hIndex, hEpoch, hConfig, hHash, hCreated⟩ :=
    headerBody_windows first (toBeBytes 4 (crc32c (headerBody first)).toNat ++ rest)
  rw [← hBody] at hMagic hVersion hHeaderLen hIndex hEpoch hConfig hHash hCreated
  have hCut : (encodeHeader first ++ rest).take headerWithoutCrcLen = headerBody first := by
    rw [hBody, List.take_left' (headerBody_length first)]
  have hCrc : window (encodeHeader first ++ rest) headerWithoutCrcLen 4 =
      toBeBytes 4 (crc32c (headerBody first)).toNat := by
    rw [hBody, window_skip _ (headerBody_length first).le, headerBody_length, Nat.sub_self,
      window_front _ (toBeBytes_length 4 _)]
  unfold decodeHeader
  simp only [bind_ok_iff, exists_ensure_iff, readU16, readU32, readU64, readUint_ok_iff,
    readHash_ok_iff]
  refine ⟨hLength, hMagic, qlogFormatVersion, ⟨by omega, ?_⟩, rfl, qlogHeaderLen, ⟨by omega, ?_⟩,
    rfl, _, ⟨by rw [headerWithoutCrcLen]; omega, rfl⟩, ?_, LogHash.digest [utf8 first.clusterId],
    ⟨by omega, hHash⟩, hCluster, first.epoch, ⟨by omega, ?_⟩, first.configId, ⟨by omega, ?_⟩,
    first.index, ⟨by omega, ?_⟩, 0, ⟨by omega, ?_⟩, rfl⟩
  · rw [hVersion]
    exact fromBeBytes_toBeBytes 2 _ (by decide)
  · rw [hHeaderLen]
    exact fromBeBytes_toBeBytes 2 _ (by decide)
  · rw [hCut, hCrc, fromBeBytes_toBeBytes 4 _ (crc32c_lt _)]
  · rw [hEpoch]
    exact fromBeBytes_toBeBytes 8 _ hFits.epoch
  · rw [hConfig]
    exact fromBeBytes_toBeBytes 8 _ hFits.configId
  · rw [hIndex]
    exact fromBeBytes_toBeBytes 8 _ hFits.index
  · rw [hCreated]
    exact fromBeBytes_toBeBytes 8 _ (by decide)

omit [Sha256] in
theorem footerStart_length (endIndex entryCount : Nat) (lastEntryHash : LogHash) :
    (footerStart endIndex entryCount lastEntryHash).length = 52 := by
  have hMagic : qlogFooterMagic.length = 4 := by decide
  simp only [footerStart, List.length_append, toBeBytes_length, hMagic, LogHash.size]

theorem footerBody_length (header entryHashes : Bytes) (endIndex entryCount : Nat)
    (lastEntryHash : LogHash) :
    (footerBody header entryHashes endIndex entryCount lastEntryHash).length = footerLen - 4 := by
  simp only [footerBody, List.length_append, footerStart_length, LogHash.size, footerLen]

theorem footerBody_windows (header entryHashes : Bytes) (endIndex entryCount : Nat)
    (lastEntryHash : LogHash) (rest : Bytes) :
    let body := footerBody header entryHashes endIndex entryCount lastEntryHash
    window (body ++ rest) 0 4 = qlogFooterMagic ∧
      window (body ++ rest) 4 8 = toBeBytes 8 endIndex ∧
      window (body ++ rest) 12 8 = toBeBytes 8 entryCount ∧
      window (body ++ rest) 20 32 = lastEntryHash.bytes ∧
      window (body ++ rest) 52 32 = (LogHash.digest [header, entryHashes,
        footerStart endIndex entryCount lastEntryHash]).bytes := by
  have hMagic : qlogFooterMagic.length = 4 := by decide
  refine ⟨?_, ?_, ?_, ?_, ?_⟩ <;>
    simp (disch := simp [hMagic, LogHash.size]) only [footerBody, footerStart, List.append_assoc,
      window_skip, window_front, hMagic, toBeBytes_length, LogHash.size, Nat.reduceSub]

theorem decodeFooter_encodeFooter (front header entryHashes : Bytes) {entries : List LogEntry}
    {last : LogEntry} (hLast : entries.getLast? = some last) (hIndex : last.index < u64Bound) :
    decodeFooter (front ++ encodeFooter header entryHashes last.index entries.length last.hash)
      front.length header entryHashes entries = .ok () := by
  set body := footerBody header entryHashes last.index entries.length last.hash with hBodyEq
  have hFooter : encodeFooter header entryHashes last.index entries.length last.hash =
      body ++ (toBeBytes 4 (crc32c body).toNat ++ []) := by
    rw [List.append_nil]
    rfl
  have hBody : body.length = footerLen - 4 := footerBody_length ..
  have hLen : footerLen = 88 := rfl
  obtain ⟨-, hEnd, hEntryCount, hLastHash, hSegment⟩ := footerBody_windows header entryHashes
    last.index entries.length last.hash (toBeBytes 4 (crc32c body).toNat ++ [])
  have hStart : (body ++ (toBeBytes 4 (crc32c body).toNat ++ [])).take 52 =
      footerStart last.index entries.length last.hash := by
    rw [hBodyEq, footerBody, List.append_assoc, List.take_left' (footerStart_length ..)]
  have hLength : (body ++ (toBeBytes 4 (crc32c body).toNat ++ [])).length = footerLen := by
    rw [List.length_append, List.append_nil, hBody, toBeBytes_length]
    omega
  have hCrc : window (body ++ (toBeBytes 4 (crc32c body).toNat ++ [])) (footerLen - 4) 4 =
      toBeBytes 4 (crc32c body).toNat := by
    rw [window_skip _ hBody.le, hBody, Nat.sub_self, window_front _ (toBeBytes_length 4 _)]
  unfold decodeFooter
  simp only [List.drop_left, bind_ok_iff, exists_ensure_iff, readU32, readU64, readUint_ok_iff,
    readHash_ok_iff, hFooter, hLast, ensure_ok_iff]
  refine ⟨hLength, _, ⟨by omega, rfl⟩, ?_, last.index, ⟨by omega, ?_⟩, entries.length % u64Bound,
    ⟨by omega, ?_⟩, last.hash, ⟨by omega, hLastHash⟩, _, ⟨by omega, hSegment⟩, ?_, rfl, rfl, rfl⟩
  · rw [hCrc, List.take_left' hBody, fromBeBytes_toBeBytes 4 _ (crc32c_lt _)]
  · rw [hEnd]
    exact fromBeBytes_toBeBytes 8 _ hIndex
  · rw [hEntryCount]
    exact fromBeBytes_toBeBytes_mod 8 _
  · rw [hStart]

theorem FrameAt.magic_ne {tail : Bytes} {frameLen : Nat} {entry : LogEntry}
    (h : FrameAt tail frameLen entry) : window tail 0 4 ≠ qlogFooterMagic := by
  rw [h.magic]
  decide

theorem decodeFrames_frame {bytes : Bytes} {clusterId : ClusterId} {header : SegmentHeader}
    {offset next : Nat} {entryHashes : Bytes} {entries : List LogEntry} {entry : LogEntry}
    (h : decodeFrame bytes offset clusterId = .ok (entry, next)) :
    decodeFrames bytes clusterId header offset entryHashes entries =
      decodeFrames bytes clusterId header next (entryHashes ++ entry.hash.bytes)
        (entries ++ [entry]) := by
  have hAdvances := decodeFrame_advances h
  obtain ⟨-, frameLen, -, hFrame⟩ := decodeFrame_ok_iff.mp h
  have hMagic : window bytes offset 4 ≠ qlogFooterMagic := by
    have hNe := hFrame.magic_ne
    rwa [window, List.drop_zero] at hNe
  rw [decodeFrames, if_neg (by omega), if_neg hMagic]
  split
  · rename_i error hError
    cases h.symm.trans hError
  · rename_i entry' next' hOk
    obtain ⟨rfl, rfl⟩ := Prod.mk.inj (Except.ok.inj (h.symm.trans hOk))
    rfl

def renamed (clusterId : ClusterId) (entry : LogEntry) : LogEntry :=
  { entry with clusterId := clusterId }

theorem decodeFrame_encodeFrame {entry : LogEntry} (hFits : Fits entry) {clusterId : ClusterId}
    (hHash : (renamed clusterId entry).recomputeHash = entry.hash) (front rest : Bytes) :
    decodeFrame (front ++ (encodeFrame entry ++ rest)) front.length clusterId =
      .ok (renamed clusterId entry, front.length + (encodeFrame entry).length) := by
  refine decodeFrame_ok_iff.mpr ⟨rfl, frameMinLen + entry.payload.length, ?_, ?_⟩
  · rw [encodeFrame_length]
  · rw [List.drop_left]
    exact frameAt_encodeFrame hFits rest clusterId hHash

theorem decodeFrames_frames {entries : List LogEntry} (hFits : ∀ entry ∈ entries, Fits entry)
    {clusterId : ClusterId}
    (hHash : ∀ entry ∈ entries, (renamed clusterId entry).recomputeHash = entry.hash)
    (front rest : Bytes) (header : SegmentHeader) (entryHashes : Bytes) (before : List LogEntry) :
    decodeFrames (front ++ (entries.flatMap encodeFrame ++ rest)) clusterId header front.length
        entryHashes before =
      decodeFrames (front ++ (entries.flatMap encodeFrame ++ rest)) clusterId header
        (front ++ entries.flatMap encodeFrame).length
        (entryHashes ++ entries.flatMap (·.hash.bytes)) (before ++ entries.map (renamed clusterId)) := by
  induction entries generalizing front entryHashes before with
  | nil => simp
  | cons entry entries ih =>
    have hEntry := decodeFrame_encodeFrame (hFits entry List.mem_cons_self)
      (hHash entry List.mem_cons_self) front (entries.flatMap encodeFrame ++ rest)
    have hBytes : front ++ ((entry :: entries).flatMap encodeFrame ++ rest) =
        front ++ (encodeFrame entry ++ (entries.flatMap encodeFrame ++ rest)) := by
      rw [List.flatMap_cons, List.append_assoc]
    have hNext : front ++ ((entry :: entries).flatMap encodeFrame ++ rest) =
        (front ++ encodeFrame entry) ++ (entries.flatMap encodeFrame ++ rest) := by
      rw [hBytes, List.append_assoc]
    rw [← hBytes] at hEntry
    rw [decodeFrames_frame hEntry, ← List.length_append, hNext,
      ih (fun e he => hFits e (List.mem_cons_of_mem _ he))
        (fun e he => hHash e (List.mem_cons_of_mem _ he))]
    simp [renamed, List.append_assoc]

theorem FrameAt.unique {tail : Bytes} {frameLen frameLen' : Nat} {entry entry' : LogEntry}
    (h : FrameAt tail frameLen entry) (h' : FrameAt tail frameLen' entry') :
    frameLen' = frameLen ∧ entry' = renamed entry'.clusterId entry := by
  have hLen : entry'.payload.length = entry.payload.length := h'.payloadLen.symm.trans h.payloadLen
  have hPayload : entry'.payload = entry.payload := by
    rw [← h'.payload, ← h.payload, hLen]
  have hHash : entry'.hash = entry.hash := by
    apply LogHash.bytes_injective
    rw [← h'.hash, ← h.hash, hLen]
  refine ⟨h'.declared.symm.trans h.declared, ?_⟩
  cases entry'
  cases entry
  simp only [renamed, LogEntry.mk.injEq, true_and]
  exact ⟨h'.epoch.symm.trans h.epoch, h'.configId.symm.trans h.configId,
    h'.index.symm.trans h.index, Option.some.inj (h'.entryType.symm.trans h.entryType), hPayload,
    LogHash.bytes_injective (h'.prevHash.symm.trans h.prevHash), hHash⟩

theorem decodeFrame_of_decodeFrames {bytes : Bytes} {clusterId : ClusterId} {header : SegmentHeader}
    {offset frameLen : Nat} {entryHashes : Bytes} {before out : List LogEntry} {entry : LogEntry}
    (hFrame : FrameAt (bytes.drop offset) frameLen entry)
    (h : decodeFrames bytes clusterId header offset entryHashes before = .ok out) :
    decodeFrame bytes offset clusterId = .ok (renamed clusterId entry, offset + frameLen) := by
  have hMagic : window bytes offset 4 ≠ qlogFooterMagic := by
    have hNe := hFrame.magic_ne
    rwa [window, List.drop_zero] at hNe
  rw [decodeFrames] at h
  split at h
  · cases h
  · split at h
    · cases h
    · rename_i entry' next hDecode
      obtain ⟨hCluster, frameLen', hNext, hFrame'⟩ := decodeFrame_ok_iff.mp hDecode
      obtain ⟨rfl, hEntry⟩ := hFrame.unique hFrame'
      rw [hDecode, hNext, hEntry, hCluster]

theorem recomputes_of_decodeFrames {entries : List LogEntry}
    (hFits : ∀ entry ∈ entries, Fits entry)
    (hOwn : ∀ entry ∈ entries, entry.recomputeHash = entry.hash) {clusterId : ClusterId}
    {front rest : Bytes} {header : SegmentHeader} {entryHashes : Bytes} {before out : List LogEntry}
    (h : decodeFrames (front ++ (entries.flatMap encodeFrame ++ rest)) clusterId header front.length
      entryHashes before = .ok out) :
    ∀ entry ∈ entries, (renamed clusterId entry).recomputeHash = entry.hash := by
  induction entries generalizing front entryHashes before with
  | nil =>
    intro entry hEntry
    cases hEntry
  | cons entry entries ih =>
    have hNext : front ++ ((entry :: entries).flatMap encodeFrame ++ rest) =
        (front ++ encodeFrame entry) ++ (entries.flatMap encodeFrame ++ rest) := by
      rw [List.flatMap_cons, List.append_assoc, List.append_assoc]
    have hFrame : FrameAt
        (((front ++ encodeFrame entry) ++ (entries.flatMap encodeFrame ++ rest)).drop front.length)
        (frameMinLen + entry.payload.length) entry := by
      rw [List.append_assoc, List.drop_left]
      exact frameAt_encodeFrame (hFits entry List.mem_cons_self) _ entry.clusterId
        (hOwn entry List.mem_cons_self)
    rw [hNext] at h
    have hDecode := decodeFrame_of_decodeFrames hFrame h
    obtain ⟨-, _, -, hFrame'⟩ := decodeFrame_ok_iff.mp hDecode
    rw [decodeFrames_frame hDecode, ← encodeFrame_length, ← List.length_append] at h
    intro e he
    rcases List.mem_cons.mp he with rfl | he
    · exact hFrame'.recomputes
    · exact ih (fun e he => hFits e (List.mem_cons_of_mem _ he))
        (fun e he => hOwn e (List.mem_cons_of_mem _ he)) h e he

theorem decodeFrames_sound {bytes : Bytes} {clusterId : ClusterId} {header : SegmentHeader}
    {offset : Nat} {entryHashes : Bytes} {before out : List LogEntry}
    (hBefore : ∀ entry ∈ before, entry.recomputeHash = entry.hash)
    (h : decodeFrames bytes clusterId header offset entryHashes before = .ok out) :
    validateEntries header out = .ok () ∧ ∀ entry ∈ out, entry.recomputeHash = entry.hash := by
  fun_induction decodeFrames bytes clusterId header offset entryHashes before with
  | case1 => cases h
  | case2 offset entryHashes before =>
    obtain ⟨_, -, h⟩ := bind_ok_iff.mp h
    obtain ⟨_, hValid, h⟩ := bind_ok_iff.mp h
    cases h
    exact ⟨hValid, hBefore⟩
  | case3 => cases h
  | case4 offset entryHashes before _ _ entry next hDecode _ ih =>
    obtain ⟨-, _, -, hFrame⟩ := decodeFrame_ok_iff.mp hDecode
    refine ih (fun e he => ?_) h
    rcases List.mem_append.mp he with he | he
    · exact hBefore e he
    · obtain rfl := List.mem_singleton.mp he
      exact hFrame.recomputes

def Follows (previous entry : LogEntry) : Prop :=
  entry.index = previous.index + 1 ∧ entry.prevHash = previous.hash

omit [Sha256] in
theorem validateDecodedEntry_ok_iff {header : SegmentHeader} {position : Nat}
    {previous : Option LogEntry} {entry : LogEntry} :
    validateDecodedEntry header position previous entry = .ok () ↔
      (header.startIndex + position < u64Bound ∧ header.startIndex + position = entry.index) ∧
        (entry.epoch = header.epoch ∧ entry.configId = header.configId) ∧
        ∀ last ∈ previous, entry.prevHash = last.hash := by
  unfold validateDecodedEntry
  simp only [bind_ok_iff, exists_ensure_iff, ensure_ok_iff]

omit [Sha256] in
/-- `validate_entries` accepts the chains that start where the header says. -/
theorem validateFrom_ok_iff {header : SegmentHeader} {position : Nat} {previous : Option LogEntry}
    {entries : List LogEntry} (hPrevious : ∀ last ∈ previous, header.startIndex + position = last.index + 1) :
    validateFrom header position previous entries = .ok () ↔
      (previous.toList ++ entries).IsChain Follows ∧
        (∀ entry ∈ entries.head?, entry.index = header.startIndex + position) ∧
        ∀ entry ∈ entries, entry.index < u64Bound ∧ entry.epoch = header.epoch ∧
          entry.configId = header.configId := by
  induction entries generalizing position previous with
  | nil =>
    cases previous <;> simp [validateFrom]
  | cons entry entries ih =>
    constructor
    · intro h
      obtain ⟨⟨⟩, hEntry, hRest⟩ := bind_ok_iff.mp h
      obtain ⟨⟨hBound, hIndex⟩, hSame, hChain⟩ := validateDecodedEntry_ok_iff.mp hEntry
      have hNext : ∀ last ∈ some entry, header.startIndex + (position + 1) = last.index + 1 := by
        rintro last ⟨⟩
        omega
      obtain ⟨hRestChain, -, hRestSame⟩ := (ih hNext).mp hRest
      refine ⟨?_, ?_, ?_⟩
      · cases previous with
        | none => exact hRestChain
        | some last =>
          have hLast := hPrevious last rfl
          exact List.isChain_cons_cons.mpr ⟨⟨by omega, hChain last rfl⟩, hRestChain⟩
      · rintro first ⟨⟩
        exact hIndex.symm
      · intro e he
        rcases List.mem_cons.mp he with rfl | he
        · exact ⟨by omega, hSame⟩
        · exact hRestSame e he
    · rintro ⟨hChain, hFirst, hSame⟩
      have hIndex := hFirst entry rfl
      have hHere := hSame entry List.mem_cons_self
      have hNext : ∀ last ∈ some entry, header.startIndex + (position + 1) = last.index + 1 := by
        rintro last ⟨⟩
        omega
      have hTail : (entry :: entries).IsChain Follows := by
        cases previous with
        | none => exact hChain
        | some last => exact (List.isChain_cons_cons.mp hChain).2
      refine bind_ok_iff.mpr ⟨(), validateDecodedEntry_ok_iff.mpr ⟨⟨by omega, hIndex.symm⟩, hHere.2, ?_⟩,
        (ih hNext).mpr ⟨hTail, ?_, fun e he => hSame e (List.mem_cons_of_mem _ he)⟩⟩
      · rintro last ⟨⟩
        exact (List.isChain_cons_cons.mp hChain).1.2
      · intro second hSecond
        cases entries with
        | nil => cases hSecond
        | cons e es =>
          cases hSecond
          have hFollows := (List.isChain_cons_cons.mp hTail).1.1
          omega

/-- What the callers of `encode_segment` hand to it: entries of one cluster, epoch and
configuration in the order of the log. -/
structure OneSegment (clusterId : ClusterId) (epoch configId : Nat) (entries : List LogEntry) :
    Prop where
  chained : entries.IsChain Follows
  hashes : ∀ entry ∈ entries, entry.recomputeHash = entry.hash
  cluster : ∀ entry ∈ entries, entry.clusterId = clusterId
  epoch : ∀ entry ∈ entries, entry.epoch = epoch
  configId : ∀ entry ∈ entries, entry.configId = configId
  fits : ∀ entry ∈ entries, Fits entry

omit [Sha256] in
theorem renamed_self {clusterId : ClusterId} {entry : LogEntry} (h : entry.clusterId = clusterId) :
    renamed clusterId entry = entry := by
  rw [← h]
  rfl

omit [Sha256] in
theorem map_renamed_self {clusterId : ClusterId} {entries : List LogEntry}
    (h : ∀ entry ∈ entries, entry.clusterId = clusterId) :
    entries.map (renamed clusterId) = entries := by
  have hSame : ∀ entry ∈ entries, renamed clusterId entry = id entry := fun entry hEntry =>
    renamed_self (h entry hEntry)
  rw [List.map_congr_left hSame, List.map_id]

theorem encodeSegment_eq {entries : List LogEntry} {first last : LogEntry}
    (hFirst : entries.head? = some first) (hLast : entries.getLast? = some last) :
    encodeSegment entries = encodeHeader first ++ (entries.flatMap encodeFrame ++
      encodeFooter (encodeHeader first) (entries.flatMap (·.hash.bytes)) last.index entries.length
        last.hash) := by
  simp only [encodeSegment, encodeSegmentInner, hFirst, hLast, if_true, List.append_assoc]

section OneSegment

variable {clusterId : ClusterId} {epoch configId : Nat} {entries : List LogEntry}
  {first last : LogEntry}

omit [Sha256] in
theorem exists_last (h : entries.head? = some first) : ∃ last, entries.getLast? = some last := by
  cases entries with
  | nil => cases h
  | cons e es => exact ⟨_, List.getLast?_cons⟩

theorem OneSegment.validates (h : OneSegment clusterId epoch configId entries)
    (hFirst : entries.head? = some first) (name : ClusterId) :
    validateEntries (headerOf first) (entries.map (renamed name)) = .ok () := by
  have hMem := List.mem_of_head? hFirst
  refine (validateFrom_ok_iff fun last hLast => by cases hLast).mpr ⟨?_, ?_, ?_⟩
  · exact (List.isChain_map (renamed name)).mpr h.chained
  · rw [List.head?_map, hFirst]
    rintro entry ⟨⟩
    rfl
  · intro entry hEntry
    obtain ⟨e, he, rfl⟩ := List.mem_map.mp hEntry
    exact ⟨(h.fits e he).index, (h.epoch e he).trans (h.epoch first hMem).symm,
      (h.configId e he).trans (h.configId first hMem).symm⟩

theorem OneSegment.decodeFrames (h : OneSegment clusterId epoch configId entries)
    (hFirst : entries.head? = some first) {name : ClusterId}
    (hName : ∀ entry ∈ entries, (renamed name entry).recomputeHash = entry.hash) :
    decodeFrames (encodeSegment entries) name (headerOf first) qlogHeaderLen [] [] =
      .ok (entries.map (renamed name)) := by
  obtain ⟨last, hLast⟩ := exists_last hFirst
  have hLastMem := List.mem_of_getLast? hLast
  set footer := encodeFooter (encodeHeader first) (entries.flatMap (·.hash.bytes)) last.index
    entries.length last.hash with hFooterEq
  have hBytes : encodeSegment entries =
      encodeHeader first ++ (entries.flatMap encodeFrame ++ footer) := encodeSegment_eq hFirst hLast
  have hEnd : encodeSegment entries = (encodeHeader first ++ entries.flatMap encodeFrame) ++ footer := by
    rw [hBytes, List.append_assoc]
  have hHeader : (encodeSegment entries).take qlogHeaderLen = encodeHeader first := by
    rw [hBytes, List.take_left' (encodeHeader_length first)]
  have hMagic : window (encodeSegment entries)
      (encodeHeader first ++ entries.flatMap encodeFrame).length 4 = qlogFooterMagic := by
    rw [hEnd, window_skip _ le_rfl, Nat.sub_self]
    exact (footerBody_windows ..).1
  have hMore : ¬(encodeSegment entries).length ≤
      (encodeHeader first ++ entries.flatMap encodeFrame).length := by
    have hFooterLen : footer.length = footerLen := by
      rw [hFooterEq, encodeFooter, List.length_append, footerBody_length, toBeBytes_length]
      rfl
    rw [hEnd, List.length_append, hFooterLen, footerLen]
    omega
  have hFrames := decodeFrames_frames h.fits hName (encodeHeader first) footer (headerOf first) [] []
  have hFooter : decodeFooter (encodeSegment entries)
      (encodeHeader first ++ entries.flatMap encodeFrame).length (encodeHeader first)
      (entries.flatMap (·.hash.bytes)) (entries.map (renamed name)) = .ok () := by
    have hLength : entries.length = (entries.map (renamed name)).length := (List.length_map _).symm
    have hRenamed : (entries.map (renamed name)).getLast? = some (renamed name last) := by
      rw [List.getLast?_map, hLast, Option.map_some]
    have hIndex : (renamed name last).index < u64Bound := (h.fits last hLastMem).index
    rw [hEnd, hFooterEq, hLength]
    have hDecode := decodeFooter_encodeFooter (encodeHeader first ++ entries.flatMap encodeFrame)
      (encodeHeader first) (entries.flatMap (·.hash.bytes)) hRenamed hIndex
    exact hDecode
  rw [← hBytes, encodeHeader_length, List.nil_append, List.nil_append] at hFrames
  rw [hFrames, Log.decodeFrames, if_neg hMore, if_pos hMagic, hHeader]
  exact bind_ok_iff.mpr ⟨(), hFooter, bind_ok_iff.mpr ⟨(), h.validates hFirst name, rfl⟩⟩

theorem OneSegment.recomputes (h : OneSegment clusterId epoch configId entries)
    (hFirst : entries.head? = some first) {name : ClusterId} {out : List LogEntry}
    (hOut : Log.decodeFrames (encodeSegment entries) name (headerOf first) qlogHeaderLen [] [] =
      .ok out) : ∀ entry ∈ entries, (renamed name entry).recomputeHash = entry.hash := by
  obtain ⟨last, hLast⟩ := exists_last hFirst
  rw [encodeSegment_eq hFirst hLast, ← encodeHeader_length first] at hOut
  exact recomputes_of_decodeFrames h.fits h.hashes hOut

theorem OneSegment.decodeHeader (h : OneSegment clusterId epoch configId entries)
    (hFirst : entries.head? = some first) {name : ClusterId} (hName : name = "" ∨ name = clusterId) :
    Log.decodeHeader (encodeSegment entries) name = .ok (headerOf first, qlogHeaderLen) := by
  obtain ⟨last, hLast⟩ := exists_last hFirst
  have hMem := List.mem_of_head? hFirst
  rw [encodeSegment_eq hFirst hLast]
  refine decodeHeader_encodeHeader (h.fits first hMem) _ (hName.imp_right ?_)
  rintro rfl
  rw [h.cluster first hMem]

/-- Where `decode_segment` puts the name of the cluster. -/
def nameless (clusterId : ClusterId) : ClusterId := toHex (LogHash.digest [utf8 clusterId])

theorem nameless_ne_empty (clusterId : ClusterId) : nameless clusterId ≠ "" := by
  intro h
  have hNil := String.ofList_eq_empty_iff.mp h
  have hSize := (LogHash.digest [utf8 clusterId]).size
  have hBytes : (LogHash.digest [utf8 clusterId]).bytes ≠ [] := by
    intro hBytes
    rw [hBytes] at hSize
    cases hSize
  obtain ⟨byte, hByte⟩ := List.exists_mem_of_ne_nil _ hBytes
  have hDigits := List.flatMap_eq_nil_iff.mp hNil byte hByte
  cases hDigits

theorem OneSegment.decodeSegment_eq (h : OneSegment clusterId epoch configId entries)
    (hFirst : entries.head? = some first) :
    decodeSegment (encodeSegment entries) =
      Log.decodeFrames (encodeSegment entries) (nameless clusterId) (headerOf first) qlogHeaderLen
        [] [] := by
  have hCluster := h.cluster first (List.mem_of_head? hFirst)
  rw [decodeSegment, decodeSegmentForCluster, h.decodeHeader hFirst (.inl rfl), ok_bind, nameless,
    ← hCluster]
  rfl

def ReadsBack (clusterId : ClusterId) (entries : List LogEntry) : Prop :=
  decodeSegmentForCluster (encodeSegment entries) clusterId = .ok entries ∧
    ∃ decoded, decodeSegment (encodeSegment entries) = .ok decoded ∧
      decoded.map (renamed clusterId) = entries

theorem OneSegment.forCluster_iff (h : OneSegment clusterId epoch configId entries)
    (hNonempty : entries ≠ []) :
    decodeSegmentForCluster (encodeSegment entries) clusterId = .ok entries ↔ clusterId ≠ "" := by
  have hFirst := List.head?_eq_some_head hNonempty
  constructor
  · rintro hDecode rfl
    rw [← decodeSegment, h.decodeSegment_eq hFirst] at hDecode
    have hRenamed := h.decodeFrames hFirst (h.recomputes hFirst hDecode)
    have hSame := Except.ok.inj (hRenamed.symm.trans hDecode)
    have hHead : renamed (nameless "") (entries.head hNonempty) = entries.head hNonempty := by
      have hHeads := congrArg List.head? hSame
      rw [List.head?_map, hFirst, Option.map_some] at hHeads
      exact Option.some.inj hHeads
    have hEmpty : nameless "" = "" :=
      (congrArg LogEntry.clusterId hHead).trans (h.cluster _ (List.head_mem hNonempty))
    exact nameless_ne_empty "" hEmpty
  · intro hName
    rw [decodeSegmentForCluster, h.decodeHeader hFirst (.inr rfl), ok_bind]
    dsimp only
    rw [readerName, if_neg hName]
    have hHashes : ∀ entry ∈ entries, (renamed clusterId entry).recomputeHash = entry.hash := by
      intro entry hEntry
      rw [renamed_self (h.cluster entry hEntry)]
      exact h.hashes entry hEntry
    have hDecode := h.decodeFrames hFirst hHashes
    rwa [map_renamed_self h.cluster] at hDecode

theorem OneSegment.readsBack_iff (h : OneSegment clusterId epoch configId entries)
    (hNonempty : entries ≠ []) :
    ReadsBack clusterId entries ↔ clusterId ≠ "" ∧
      ∀ entry ∈ entries, (renamed (nameless clusterId) entry).recomputeHash = entry.hash := by
  have hFirst := List.head?_eq_some_head hNonempty
  refine and_congr (h.forCluster_iff hNonempty) ?_
  rw [h.decodeSegment_eq hFirst]
  constructor
  · rintro ⟨decoded, hDecoded, -⟩
    exact h.recomputes hFirst hDecoded
  · intro hName
    refine ⟨_, h.decodeFrames hFirst hName, ?_⟩
    rw [List.map_map]
    exact map_renamed_self h.cluster

end OneSegment

theorem collision_of_renamed {clusterId name : ClusterId} {entry : LogEntry}
    (hOwn : (renamed clusterId entry).recomputeHash = entry.hash)
    (hName : (renamed name entry).recomputeHash = entry.hash) :
    name = clusterId ∨ ∃ a b : Bytes, a ≠ b ∧ Sha256.finalize a = Sha256.finalize b := by
  by_cases hEq : name = clusterId
  · exact .inl hEq
  · refine .inr ⟨_, _, ?_, hName.trans hOwn.symm⟩
    intro hFlat
    simp only [renamed, List.flatten_cons, List.append_assoc] at hFlat
    have hNames := List.append_cancel_left (List.append_cancel_left hFlat)
    obtain ⟨-, hNames⟩ := List.append_inj hNames (by rw [toBeBytes_length, toBeBytes_length])
    exact hEq (utf8_inj.mp (List.append_cancel_right hNames))

/-- Segments read back under the name of their cluster. Without the name they read back
only where the hashes of the entries also recompute under the name that the reader makes
up, which asks for a collision. Whatever is accepted is a chain with right hashes. -/
theorem closed_segments_read_back :
    (∀ clusterId epoch configId entries, OneSegment clusterId epoch configId entries →
      entries ≠ [] →
      (ReadsBack clusterId entries ↔ clusterId ≠ "" ∧
        ∀ entry ∈ entries, (renamed (nameless clusterId) entry).recomputeHash = entry.hash) ∧
      (decodeSegmentForCluster (encodeSegment entries) clusterId = .ok entries ↔ clusterId ≠ "") ∧
      ((∀ entry ∈ entries, (renamed (nameless clusterId) entry).recomputeHash = entry.hash) →
        nameless clusterId = clusterId ∨
          ∃ a b : Bytes, a ≠ b ∧ Sha256.finalize a = Sha256.finalize b)) ∧
    ∀ bytes clusterId entries, decodeSegmentForCluster bytes clusterId = .ok entries →
      entries.IsChain Follows ∧ ∀ entry ∈ entries, entry.recomputeHash = entry.hash := by
  constructor
  · intro clusterId epoch configId entries h hNonempty
    refine ⟨h.readsBack_iff hNonempty, h.forCluster_iff hNonempty, fun hName => ?_⟩
    obtain ⟨entry, hEntry⟩ := List.exists_mem_of_ne_nil _ hNonempty
    refine collision_of_renamed ?_ (hName entry hEntry)
    rw [renamed_self (h.cluster entry hEntry)]
    exact h.hashes entry hEntry
  · intro bytes clusterId entries h
    obtain ⟨⟨header, offset⟩, -, h⟩ := bind_ok_iff.mp h
    obtain ⟨hValid, hHashes⟩ := decodeFrames_sound (fun entry hEntry => by cases hEntry) h
    exact ⟨((validateFrom_ok_iff fun last hLast => by cases hLast).mp hValid).1, hHashes⟩

end Written

namespace Sample

scoped instance hash : Sha256 := Sha256.rolling

def sealed (entry : LogEntry) : LogEntry := { entry with hash := entry.recomputeHash }

def first : LogEntry := sealed ⟨"c", 1, 1, 1, .command, [7], .zero, .zero⟩

def second : LogEntry := sealed ⟨"c", 1, 1, 2, .command, [8, 9], first.hash, .zero⟩

end Sample

open scoped Sample

theorem sample_oneSegment : OneSegment "c" 1 1 [Sample.first, Sample.second] where
  chained := List.isChain_pair.mpr ⟨rfl, rfl⟩
  hashes := by simp only [List.forall_mem_cons]; exact ⟨rfl, rfl, nofun⟩
  cluster := by decide
  epoch := by decide
  configId := by decide
  fits := by
    simp only [List.forall_mem_cons]
    exact ⟨⟨by decide, by decide, by decide, by decide⟩,
      ⟨by decide, by decide, by decide, by decide⟩, nofun⟩

/-- A segment of two entries reads back under its name. -/
theorem sample_reads_back_by_name : OneSegment "c" 1 1 [Sample.first, Sample.second] ∧
    decodeSegmentForCluster (encodeSegment [Sample.first, Sample.second]) "c" =
      .ok [Sample.first, Sample.second] :=
  ⟨sample_oneSegment, ((closed_segments_read_back.1 "c" 1 1 _ sample_oneSegment
    (List.cons_ne_nil _ _)).2.1).mpr (by decide)⟩

/-- It does not without its name. -/
theorem sample_is_refused_nameless : OneSegment "c" 1 1 [Sample.first, Sample.second] ∧
    (∀ decoded, decodeSegment (encodeSegment [Sample.first, Sample.second]) ≠ .ok decoded) ∧
    ¬ReadsBack "c" [Sample.first, Sample.second] := by
  have hHash : (renamed (nameless "c") Sample.first).recomputeHash ≠ Sample.first.hash := by
    decide +kernel
  have hFails : ∀ decoded,
      decodeSegment (encodeSegment [Sample.first, Sample.second]) ≠ .ok decoded := by
    intro decoded hDecoded
    rw [sample_oneSegment.decodeSegment_eq rfl] at hDecoded
    exact hHash (sample_oneSegment.recomputes rfl hDecoded _ List.mem_cons_self)
  exact ⟨sample_oneSegment, hFails, fun h => h.2.elim fun decoded hDecoded =>
    hFails decoded hDecoded.1⟩

end Rhiza.Log
