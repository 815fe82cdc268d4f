import Rhiza.Log.Lossless

/-! # Open segments after a torn write

Recovery keeps the frames that are wholly there. It takes a frame for torn only if its
own length field says that bytes of it are missing, or is itself not all there.
-/

namespace Rhiza.Log

open Core Library

def finalFrameIsIncomplete (bytes : Bytes) (offset : Nat) : Result Bool :=
  let tail := bytes.drop offset
  let magicPrefixLen := min tail.length qlogFrameMagic.length
  if tail.take magicPrefixLen ≠ qlogFrameMagic.take magicPrefixLen then .ok false
  else if tail.length < 8 then .ok true
  else do
    let frameLen ← readU32 tail 4
    if frameLen < frameMinLen then .ok false
    else if framePrefixLen ≤ tail.length then do
      let payloadLen ← readU32 tail 104
      if frameMinLen + payloadLen ≠ frameLen then .ok false
      else .ok (decide (tail.length < frameLen))
    else .ok (decide (tail.length < frameLen))

def CompleteFrame (bytes : Bytes) (offset : Nat) : Prop :=
  8 ≤ (bytes.drop offset).length ∧
    fromBeBytes (window (bytes.drop offset) 4 4) ≤ (bytes.drop offset).length

theorem finalFrameIsIncomplete_complete {bytes : Bytes} {offset : Nat}
    (h : CompleteFrame bytes offset) : finalFrameIsIncomplete bytes offset ≠ .ok true := by
  obtain ⟨hEight, hDeclared⟩ := h
  have hRead : readU32 (bytes.drop offset) 4 =
      .ok (fromBeBytes (window (bytes.drop offset) 4 4)) := readUint_ok_iff.mpr ⟨by omega, rfl⟩
  unfold finalFrameIsIncomplete
  dsimp only
  rw [if_neg (show ¬(bytes.drop offset).length < 8 by omega), hRead, ok_bind]
  have hNot : decide ((bytes.drop offset).length < fromBeBytes (window (bytes.drop offset) 4 4)) =
      false := by
    simpa using hDeclared
  rw [hNot]
  split
  · simp
  · split
    · simp
    · split
      · intro hTrue
        obtain ⟨payloadLen, -, hTrue⟩ := bind_ok_iff.mp hTrue
        split at hTrue <;> simp at hTrue
      · simp

section Recovery

variable [Sha256]

/-- The loop of `recover_open_segment_prefix`; `valid_len` is the offset it has come to. -/
def recoverFrames (bytes : Bytes) (clusterId : ClusterId) (header : SegmentHeader) (offset : Nat)
    (entries : List LogEntry) : Result (List LogEntry × Nat) :=
  if bytes.length ≤ offset then .ok (entries, offset)
  else
    match h : decodeFrame bytes offset clusterId with
    | .error error => do
      if ← finalFrameIsIncomplete bytes offset then .ok (entries, offset) else .error error
    | .ok (entry, next) =>
      have := decodeFrame_advances h
      match validateDecodedEntry header entries.length entries.getLast? entry with
      | .error error => .error error
      | .ok () => recoverFrames bytes clusterId header next (entries ++ [entry])
termination_by bytes.length - offset

def recoverOpenSegmentPrefix (bytes : Bytes) (clusterId : ClusterId) :
    Result (List LogEntry × Nat) := do
  let (header, offset) ← decodeHeader bytes clusterId
  recoverFrames bytes clusterId header offset []

inductive Reached (bytes : Bytes) (clusterId : ClusterId) (header : SegmentHeader) :
    Nat → List LogEntry → Prop
  | start : Reached bytes clusterId header qlogHeaderLen []
  | frame {offset next : Nat} {entries : List LogEntry} {entry : LogEntry}
      (hBefore : Reached bytes clusterId header offset entries)
      (hDecode : decodeFrame bytes offset clusterId = .ok (entry, next))
      (hValid : validateDecodedEntry header entries.length entries.getLast? entry = .ok ()) :
      Reached bytes clusterId header next (entries ++ [entry])

section Steps

variable {bytes : Bytes} {clusterId : ClusterId} {header : SegmentHeader} {offset next : Nat}
  {entries : List LogEntry} {entry : LogEntry}

theorem recoverFrames_frame (hDecode : decodeFrame bytes offset clusterId = .ok (entry, next))
    (hValid : validateDecodedEntry header entries.length entries.getLast? entry = .ok ()) :
    recoverFrames bytes clusterId header offset entries =
      recoverFrames bytes clusterId header next (entries ++ [entry]) := by
  have hAdvances := decodeFrame_advances hDecode
  rw [recoverFrames, if_neg (by omega)]
  split
  · rename_i error hError
    cases hDecode.symm.trans hError
  · rename_i entry' next' hOk
    obtain ⟨rfl, rfl⟩ := Prod.mk.inj (Except.ok.inj (hDecode.symm.trans hOk))
    rw [hValid]

theorem recoverFrames_torn {error : Error} (hMore : offset < bytes.length)
    (hDecode : decodeFrame bytes offset clusterId = .error error)
    (hTorn : finalFrameIsIncomplete bytes offset = .ok true) :
    recoverFrames bytes clusterId header offset entries = .ok (entries, offset) := by
  rw [recoverFrames, if_neg (by omega)]
  split
  · rw [hTorn]
    rfl
  · rename_i entry' next' hOk
    cases hDecode.symm.trans hOk

theorem Reached.recoverFrames_eq (h : Reached bytes clusterId header offset entries) :
    recoverFrames bytes clusterId header qlogHeaderLen [] =
      recoverFrames bytes clusterId header offset entries := by
  induction h with
  | start => rfl
  | frame _ hDecode hValid ih => rw [ih, recoverFrames_frame hDecode hValid]

def RightFrame (bytes : Bytes) (clusterId : ClusterId) (header : SegmentHeader) (offset : Nat)
    (entries : List LogEntry) : Prop :=
  ∃ entry frameLen, entry.clusterId = clusterId ∧ FrameAt (bytes.drop offset) frameLen entry ∧
    entry.index = header.startIndex + entries.length ∧ entry.index < u64Bound ∧
    entry.epoch = header.epoch ∧ entry.configId = header.configId ∧
    ∀ last ∈ entries.getLast?, entry.prevHash = last.hash

theorem recoverFrames_wrong (hComplete : CompleteFrame bytes offset)
    (hWrong : ¬RightFrame bytes clusterId header offset entries) :
    ∃ error, recoverFrames bytes clusterId header offset entries = .error error := by
  have hMore : ¬bytes.length ≤ offset := by
    have hEight := hComplete.1
    rw [List.length_drop] at hEight
    omega
  rw [recoverFrames, if_neg hMore]
  split
  · rename_i error _
    cases hTorn : finalFrameIsIncomplete bytes offset with
    | error error' => exact ⟨error', rfl⟩
    | ok torn =>
      cases torn with
      | true => exact absurd hTorn (finalFrameIsIncomplete_complete hComplete)
      | false => exact ⟨error, rfl⟩
  · rename_i entry next hDecode
    obtain ⟨hCluster, frameLen, -, hFrame⟩ := decodeFrame_ok_iff.mp hDecode
    split
    · exact ⟨_, rfl⟩
    · rename_i hValid
      obtain ⟨⟨hBound, hIndex⟩, ⟨hEpoch, hConfig⟩, hChain⟩ := validateDecodedEntry_ok_iff.mp hValid
      exact absurd ⟨entry, frameLen, hCluster, hFrame, hIndex.symm, by omega, hEpoch, hConfig, hChain⟩
        hWrong

theorem recoverFrames_ok {kept : List LogEntry} {validLen : Nat}
    (h : recoverFrames bytes clusterId header offset entries = .ok (kept, validLen))
    (hReached : Reached bytes clusterId header offset entries) (hOffset : offset ≤ bytes.length) :
    Reached bytes clusterId header validLen kept ∧
      (validLen = bytes.length ∨ validLen < bytes.length ∧ ¬CompleteFrame bytes validLen) := by
  fun_induction recoverFrames bytes clusterId header offset entries with
  | case1 offset entries hEnd =>
    obtain ⟨rfl, rfl⟩ := Prod.mk.inj (Except.ok.inj h)
    exact ⟨hReached, .inl (by omega)⟩
  | case2 offset entries hMore error hDecode =>
    obtain ⟨torn, hTorn, h⟩ := bind_ok_iff.mp h
    cases torn with
    | false => cases h
    | true =>
      obtain ⟨rfl, rfl⟩ := Prod.mk.inj (Except.ok.inj h)
      exact ⟨hReached, .inr ⟨by omega, fun hComplete =>
        finalFrameIsIncomplete_complete hComplete hTorn⟩⟩
  | case3 => cases h
  | case4 offset entries hMore entry next hDecode hAdvances hValid ih =>
    exact ih h (hReached.frame hDecode hValid) hAdvances.2

end Steps

theorem decodeHeader_length {bytes : Bytes} {clusterId : ClusterId} {header : SegmentHeader}
    {offset : Nat} (h : decodeHeader bytes clusterId = .ok (header, offset)) :
    qlogHeaderLen ≤ bytes.length := by
  obtain ⟨⟨⟩, hLength, -⟩ := bind_ok_iff.mp h
  exact ensure_ok_iff.mp hLength

theorem FrameAt.cut_incomplete {tail : Bytes} {frameLen room : Nat} {entry : LogEntry}
    (h : FrameAt tail frameLen entry) (hRoom : room < frameLen) (front : Bytes) :
    finalFrameIsIncomplete (front ++ tail.take room) front.length = .ok true := by
  have hComplete := h.complete
  have hLength := h.length
  have hMagicLength : qlogFrameMagic.length = 4 := qlogFrameMagic_length
  have hSize : (tail.take room).length = room := by
    rw [List.length_take]
    omega
  have hMagic : (tail.take room).take (min room 4) = qlogFrameMagic.take (min room 4) := by
    have hFour : tail.take 4 = qlogFrameMagic := h.magic
    rw [← hFour, List.take_take, List.take_take]
    congr 1
    omega
  unfold finalFrameIsIncomplete
  dsimp only
  rw [List.drop_left, hSize, hMagicLength, if_neg (not_not.mpr hMagic)]
  split
  · rfl
  · have hLen : readU32 (tail.take room) 4 = .ok frameLen := by
      refine readUint_ok_iff.mpr ⟨by omega, ?_⟩
      rw [window_take (by omega)]
      exact h.declared
    rw [hLen, ok_bind, if_neg (by omega)]
    have hShort : decide (room < frameLen) = true := decide_eq_true hRoom
    rw [hShort]
    split
    · rename_i hLong
      have hPayload : readU32 (tail.take room) 104 = .ok entry.payload.length := by
        refine readUint_ok_iff.mpr ⟨?_, ?_⟩
        · rw [framePrefixLen] at hLong
          omega
        · rw [window_take (by rw [framePrefixLen] at hLong; omega)]
          exact h.payloadLen
      rw [hPayload, ok_bind, if_neg (not_not.mpr hLength)]
    · rfl

theorem FrameAt.cut_fails {tail : Bytes} {frameLen room : Nat} {entry : LogEntry}
    (h : FrameAt tail frameLen entry) (hRoom : room < frameLen) (front : Bytes)
    (clusterId : ClusterId) :
    ∃ error, decodeFrame (front ++ tail.take room) front.length clusterId = .error error := by
  cases hDecode : decodeFrame (front ++ tail.take room) front.length clusterId with
  | error error => exact ⟨error, rfl⟩
  | ok result =>
    obtain ⟨entry', next⟩ := result
    obtain ⟨-, frameLen', -, hFrame⟩ := decodeFrame_ok_iff.mp hDecode
    rw [List.drop_left] at hFrame
    have hComplete := hFrame.complete
    have hLength := hFrame.length
    have hMin : frameMinLen = 144 := rfl
    rw [List.length_take] at hComplete
    have hDeclared := hFrame.declared
    rw [window_take (by omega), h.declared] at hDeclared
    omega

theorem recoverFrames_cut {clusterId : ClusterId} {header : SegmentHeader} {entries : List LogEntry}
    (hFits : ∀ entry ∈ entries, Fits entry)
    (hHash : ∀ entry ∈ entries, entry.recomputeHash = entry.hash)
    (hCluster : ∀ entry ∈ entries, entry.clusterId = clusterId) {before : List LogEntry}
    (hValid : validateFrom header before.length before.getLast? entries = .ok ())
    (front : Bytes) {room : Nat} (hRoom : room ≤ (entries.flatMap encodeFrame).length) :
    ∃ n ≤ entries.length,
      recoverFrames (front ++ (entries.flatMap encodeFrame).take room) clusterId header front.length
        before = .ok (before ++ entries.take n,
          front.length + ((entries.take n).flatMap encodeFrame).length) ∧
      ((entries.take n).flatMap encodeFrame).length ≤ room ∧
      ∀ i, n < i → i ≤ entries.length → room < ((entries.take i).flatMap encodeFrame).length := by
  induction entries generalizing before front room with
  | nil =>
    refine ⟨0, le_rfl, ?_, Nat.zero_le _, fun i hi hLength => ?_⟩
    · rw [List.flatMap_nil, List.take_nil, List.append_nil, recoverFrames, if_pos le_rfl]
      simp
    · rw [List.length_nil] at hLength
      omega
  | cons entry entries ih =>
    obtain ⟨⟨⟩, hHere, hRest⟩ := bind_ok_iff.mp hValid
    have hOwn : (renamed clusterId entry).recomputeHash = entry.hash := by
      rw [renamed_self (hCluster entry List.mem_cons_self)]
      exact hHash entry List.mem_cons_self
    have hFrame := frameAt_encodeFrame (hFits entry List.mem_cons_self) [] clusterId hOwn
    rw [List.append_nil, ← encodeFrame_length] at hFrame
    by_cases hWhole : (encodeFrame entry).length ≤ room
    · -- the frame is wholly there, and the rest of the room is for the frames behind it
      have hTake : ((entry :: entries).flatMap encodeFrame).take room = encodeFrame entry ++
          (entries.flatMap encodeFrame).take (room - (encodeFrame entry).length) := by
        rw [List.flatMap_cons, List.take_append, List.take_of_length_le hWhole]
      have hDecode := decodeFrame_encodeFrame (hFits entry List.mem_cons_self) hOwn front
        ((entries.flatMap encodeFrame).take (room - (encodeFrame entry).length))
      rw [renamed_self (hCluster entry List.mem_cons_self), ← hTake] at hDecode
      rw [List.flatMap_cons, List.length_append] at hRoom
      have hNext : validateFrom header (before ++ [entry]).length (before ++ [entry]).getLast?
          entries = .ok () := by
        rw [List.length_append, List.getLast?_concat]
        exact hRest
      obtain ⟨n, hn, hRecover, hInside, hOutside⟩ := ih
        (fun e he => hFits e (List.mem_cons_of_mem _ he))
        (fun e he => hHash e (List.mem_cons_of_mem _ he))
        (fun e he => hCluster e (List.mem_cons_of_mem _ he)) hNext (front ++ encodeFrame entry)
        (show room - (encodeFrame entry).length ≤ (entries.flatMap encodeFrame).length by omega)
      refine ⟨n + 1, Nat.succ_le_succ hn, ?_, ?_, ?_⟩
      · rw [recoverFrames_frame hDecode hHere, hTake, ← List.append_assoc, ← List.length_append,
          hRecover]
        simp [List.append_assoc, Nat.add_assoc]
      · rw [List.take_succ_cons, List.flatMap_cons, List.length_append]
        omega
      · intro i hi hLength
        obtain ⟨j, rfl⟩ : ∃ j, i = j + 1 := ⟨i - 1, by omega⟩
        have hFar := hOutside j (by omega) (Nat.le_of_succ_le_succ hLength)
        rw [List.take_succ_cons, List.flatMap_cons, List.length_append]
        omega
    · -- the cut is inside the frame or right before it
      have hTake : ((entry :: entries).flatMap encodeFrame).take room =
          (encodeFrame entry).take room := by
        rw [List.flatMap_cons, List.take_append_of_le_length (by omega)]
      refine ⟨0, Nat.zero_le _, ?_, Nat.zero_le _, ?_⟩
      · rw [hTake, List.take_zero, List.append_nil, List.flatMap_nil, List.length_nil, Nat.add_zero]
        rcases Nat.eq_zero_or_pos room with rfl | hPos
        · rw [List.take_zero, List.append_nil, recoverFrames, if_pos le_rfl]
        · have hInside : room < (encodeFrame entry).length := by omega
          obtain ⟨error, hDecode⟩ := hFrame.cut_fails hInside front clusterId
          have hMore : front.length < (front ++ (encodeFrame entry).take room).length := by
            rw [List.length_append, List.length_take]
            omega
          exact recoverFrames_torn hMore hDecode (hFrame.cut_incomplete hInside front)
      · intro i hi hLength
        obtain ⟨j, rfl⟩ : ∃ j, i = j + 1 := ⟨i - 1, by omega⟩
        rw [List.take_succ_cons, List.flatMap_cons, List.length_append]
        omega

def framesEnd (entries : List LogEntry) : Nat :=
  qlogHeaderLen + (entries.flatMap encodeFrame).length

/-- Recovery of a cut segment keeps exactly the entries whose frames end before the cut.
On any bytes, a complete frame that is wrong is an error, and what recovery leaves behind
is not a complete frame. -/
theorem torn_segments_recover :
    (∀ clusterId epoch configId entries, OneSegment clusterId epoch configId entries →
      ∀ cut, qlogHeaderLen ≤ cut → cut ≤ (encodeOpenSegment entries).length →
      ∃ n ≤ entries.length,
        recoverOpenSegmentPrefix ((encodeOpenSegment entries).take cut) clusterId =
          .ok (entries.take n, framesEnd (entries.take n)) ∧
        framesEnd (entries.take n) ≤ cut ∧
        ∀ i, n < i → i ≤ entries.length → cut < framesEnd (entries.take i)) ∧
    ∀ bytes clusterId header, decodeHeader bytes clusterId = .ok (header, qlogHeaderLen) →
      (∀ offset entries, Reached bytes clusterId header offset entries →
        CompleteFrame bytes offset → ¬RightFrame bytes clusterId header offset entries →
        ∃ error, recoverOpenSegmentPrefix bytes clusterId = .error error) ∧
      ∀ entries validLen, recoverOpenSegmentPrefix bytes clusterId = .ok (entries, validLen) →
        Reached bytes clusterId header validLen entries ∧
          (validLen = bytes.length ∨ validLen < bytes.length ∧ ¬CompleteFrame bytes validLen) := by
  constructor
  · intro clusterId epoch configId entries h cut hHeader hCut
    cases hFirst : entries.head? with
    | none =>
      obtain rfl := List.head?_eq_none_iff.mp hFirst
      have hEmpty : cut ≤ 0 := hCut
      have hLen : qlogHeaderLen = 76 := rfl
      omega
    | some first =>
      obtain ⟨last, hLast⟩ := exists_last hFirst
      have hMem := List.mem_of_head? hFirst
      have hOpen : encodeOpenSegment entries =
          encodeHeader first ++ entries.flatMap encodeFrame := by
        simp [encodeOpenSegment, encodeSegmentInner, hFirst, hLast]
      have hTake : (encodeOpenSegment entries).take cut =
          encodeHeader first ++ (entries.flatMap encodeFrame).take (cut - qlogHeaderLen) := by
        rw [hOpen, List.take_append, encodeHeader_length,
          List.take_of_length_le (by rw [encodeHeader_length]; exact hHeader)]
      have hValid : validateFrom (headerOf first) ([] : List LogEntry).length
          ([] : List LogEntry).getLast? entries = .ok () := by
        have hRenamed := h.validates hFirst clusterId
        rwa [map_renamed_self h.cluster] at hRenamed
      rw [hOpen, List.length_append, encodeHeader_length] at hCut
      obtain ⟨n, hn, hRecover, hInside, hOutside⟩ := recoverFrames_cut h.fits h.hashes h.cluster
        hValid (encodeHeader first)
        (show cut - qlogHeaderLen ≤ (entries.flatMap encodeFrame).length by omega)
      refine ⟨n, hn, ?_, ?_, ?_⟩
      · rw [hTake, recoverOpenSegmentPrefix, decodeHeader_encodeHeader (h.fits first hMem) _
          (.inr (by rw [h.cluster first hMem])), ok_bind]
        rw [encodeHeader_length] at hRecover
        exact hRecover
      · rw [framesEnd]
        omega
      · intro i hi hLength
        have hFar := hOutside i hi hLength
        rw [framesEnd]
        omega
  · intro bytes clusterId header hDecode
    have hStart : recoverOpenSegmentPrefix bytes clusterId =
        recoverFrames bytes clusterId header qlogHeaderLen [] := by
      rw [recoverOpenSegmentPrefix, hDecode, ok_bind]
    refine ⟨fun offset entries hReached hComplete hWrong => ?_, fun entries validLen hRecover => ?_⟩
    · obtain ⟨error, hError⟩ := recoverFrames_wrong hComplete hWrong
      exact ⟨error, by rw [hStart, hReached.recoverFrames_eq, hError]⟩
    · rw [hStart] at hRecover
      exact recoverFrames_ok hRecover .start (decodeHeader_length hDecode)

end Recovery

open scoped Sample

/-- Two entries, cut inside the frame of the second: the first is kept. -/
theorem sample_cut_recovers :
    recoverOpenSegmentPrefix ((encodeOpenSegment [Sample.first, Sample.second]).take 300) "c" =
      .ok ([Sample.first], 221) := by
  have hOpen : (encodeOpenSegment [Sample.first, Sample.second]).length = 367 := by decide +kernel
  obtain ⟨n, hn, hRecover, hInside, hOutside⟩ := torn_segments_recover.1 "c" 1 1
    [Sample.first, Sample.second] sample_oneSegment 300 (by decide) (by rw [hOpen]; decide)
  have hFirst : framesEnd [Sample.first] = 221 := by decide +kernel
  have hBoth : framesEnd [Sample.first, Sample.second] = 367 := by decide +kernel
  obtain rfl | rfl | rfl : n = 0 ∨ n = 1 ∨ n = 2 := by
    rw [List.length_cons, List.length_singleton] at hn
    omega
  · have hShort : 300 < framesEnd [Sample.first] := hOutside 1 (by decide) (by decide)
    omega
  · rw [← hFirst]
    exact hRecover
  · have hWhole : framesEnd [Sample.first, Sample.second] ≤ 300 := hInside
    omega

end Rhiza.Log
