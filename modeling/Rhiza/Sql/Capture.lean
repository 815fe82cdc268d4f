import Rhiza.Sql.Install
import Rhiza.Sql.Validators

/-! # What a captured transaction is

`capture_wal` checks a log while it reads it. Here the log is taken apart first:
a header and frames, each a window of the bytes. A log is a transaction by what
its header and its frames say, and its captured pages stand for its frames.
-/

namespace Rhiza.Sql

open Rhiza.Core Rhiza.Library

structure WalFrame where
  pageNo : Nat
  commitPages : Nat
  salts : Nat × Nat
  checksum : Nat × Nat
  fields : Bytes
  image : Bytes

def WalFrame.ofBytes (frame : Bytes) : WalFrame where
  pageNo := beU32 0 frame
  commitPages := beU32 4 frame
  salts := (beU32 8 frame, beU32 12 frame)
  checksum := (beU32 16 frame, beU32 20 frame)
  fields := frame.take 8
  image := frame.drop walFrameHeaderBytes

def WalFrame.rolled (order : ChecksumOrder) (sum : Nat × Nat) (frame : WalFrame) : Nat × Nat :=
  Sql.checksum order frame.image (Sql.checksum order frame.fields sum)

def WalFrame.page (frame : WalFrame) : QwalPage := ⟨frame.pageNo, frame.image⟩

structure WalFrame.InRange (frame : WalFrame) : Prop where
  pageNo : 1 ≤ frame.pageNo ∧ frame.pageNo ≤ maxPageNo
  commitPages : frame.commitPages ≤ maxPageNo

def walPageSize (wal : Bytes) : Nat := beU32 8 wal

def walSalts (wal : Bytes) : Nat × Nat := (beU32 16 wal, beU32 20 wal)

def walHeaderSum (wal : Bytes) : Nat × Nat := (beU32 24 wal, beU32 28 wal)

def walFrameBytes (wal : Bytes) : Nat := walFrameHeaderBytes + walPageSize wal

def walFrames (wal : Bytes) : List WalFrame :=
  (Paged.chunksExact (walFrameBytes wal) (wal.drop walHeaderBytes)).map WalFrame.ofBytes

def ChecksumOrder.magic : ChecksumOrder → Nat
  | .big => walMagicBigChecksum
  | .little => walMagicLittleChecksum

structure ValidHeader (wal : Bytes) (order : ChecksumOrder) : Prop where
  complete : walHeaderBytes ≤ wal.length
  magic : beU32 0 wal = order.magic
  version : beU32 4 wal = walVersion
  pageSize : IsPageSize (walPageSize wal)
  checksum : checksum order (wal.take 24) (0, 0) = walHeaderSum wal

def Rolling (order : ChecksumOrder) : Nat × Nat → List WalFrame → Prop
  | _, [] => True
  | sum, frame :: frames => frame.checksum = frame.rolled order sum ∧ Rolling order frame.checksum frames

structure Transaction (wal : Bytes) (baseDbPages commitPages : Nat) : Prop where
  base : 1 ≤ baseDbPages ∧ baseDbPages ≤ maxPageNo
  rolling : ∃ order, ValidHeader wal order ∧ Rolling order (walHeaderSum wal) (walFrames wal)
  whole : wal.length = walHeaderBytes + (walFrames wal).length * walFrameBytes wal
  inRange : ∀ frame ∈ walFrames wal, frame.InRange
  salts : ∀ frame ∈ walFrames wal, frame.salts = walSalts wal
  marked : ∃ earlier last, walFrames wal = earlier ++ [last] ∧
    (∀ frame ∈ earlier, frame.commitPages = 0) ∧ last.commitPages = commitPages ∧ commitPages ≠ 0
  grown : ∀ pageNo, baseDbPages < pageNo → pageNo ≤ commitPages →
    ∃ frame ∈ walFrames wal, frame.pageNo = pageNo

def CaptureState.after (s : CaptureState) (frame : WalFrame) : CaptureState :=
  let committed : Bool := frame.commitPages ≠ 0
  { rollingChecksum := frame.checksum
    pages := Assoc.insert frame.pageNo frame.image s.pages
    finalDbPages := if committed then frame.commitPages else s.finalDbPages
    lastFrameCommitted := committed }

def Accepted (order : ChecksumOrder) (salts : Nat × Nat) : CaptureState → List WalFrame → Prop
  | _, [] => True
  | s, frame :: frames =>
    s.lastFrameCommitted = false ∧ frame.InRange ∧ frame.salts = salts ∧
      frame.checksum = frame.rolled order s.rollingChecksum ∧ Accepted order salts (s.after frame) frames

theorem beU32_take {offset n : Nat} (bytes : Bytes) (h : offset + 4 ≤ n) :
    beU32 offset (bytes.take n) = beU32 offset bytes := by
  rw [beU32, beU32, List.drop_take, List.take_take, Nat.min_eq_left (by omega)]

theorem takeBytes_eq_ok_iff {n : Nat} {truncated : String} {rest : Bytes} {result : Bytes × Bytes} :
    takeBytes n truncated rest = .ok result ↔ n ≤ rest.length ∧ result = (rest.take n, rest.drop n) := by
  unfold takeBytes
  split
  · rename_i hLong
    rw [Except.ok.injEq, and_iff_right hLong, eq_comm]
  · rename_i hShort
    exact ⟨nofun, fun h => absurd h.1 hShort⟩

theorem ofBytes_front {pageSize : Nat} (rest : Bytes) :
    WalFrame.ofBytes (rest.take (walFrameHeaderBytes + pageSize)) =
      { pageNo := beU32 0 (rest.take walFrameHeaderBytes)
        commitPages := beU32 4 (rest.take walFrameHeaderBytes)
        salts := (beU32 8 (rest.take walFrameHeaderBytes), beU32 12 (rest.take walFrameHeaderBytes))
        checksum := (beU32 16 (rest.take walFrameHeaderBytes), beU32 20 (rest.take walFrameHeaderBytes))
        fields := (rest.take walFrameHeaderBytes).take 8
        image := (rest.drop walFrameHeaderBytes).take pageSize } := by
  have hField (offset : Nat) (h : offset + 4 ≤ walFrameHeaderBytes) :
      beU32 offset (rest.take (walFrameHeaderBytes + pageSize)) =
        beU32 offset (rest.take walFrameHeaderBytes) := by
    rw [beU32_take _ (Nat.le_trans h (Nat.le_add_right _ _)), beU32_take _ h]
  unfold WalFrame.ofBytes
  rw [hField 0 (by decide), hField 4 (by decide), hField 8 (by decide), hField 12 (by decide),
    hField 16 (by decide), hField 20 (by decide), List.take_take, List.take_take,
    Nat.min_eq_left (by unfold walFrameHeaderBytes; omega), Nat.min_eq_left (by decide),
    List.drop_take, Nat.add_sub_cancel_left]

theorem header_magic (wal : Bytes) : beU32 0 (wal.take walHeaderBytes) = beU32 0 wal :=
  beU32_take wal (by decide)

theorem header_version (wal : Bytes) : beU32 4 (wal.take walHeaderBytes) = beU32 4 wal :=
  beU32_take wal (by decide)

theorem header_pageSize (wal : Bytes) : beU32 8 (wal.take walHeaderBytes) = walPageSize wal :=
  beU32_take wal (by decide)

theorem header_salts (wal : Bytes) :
    (beU32 16 (wal.take walHeaderBytes), beU32 20 (wal.take walHeaderBytes)) = walSalts wal := by
  rw [beU32_take wal (by decide), beU32_take wal (by decide), walSalts]

theorem header_sum (wal : Bytes) :
    (beU32 24 (wal.take walHeaderBytes), beU32 28 (wal.take walHeaderBytes)) = walHeaderSum wal := by
  rw [beU32_take wal (by decide), beU32_take wal (by decide), walHeaderSum]

theorem header_fields (wal : Bytes) : (wal.take walHeaderBytes).take 24 = wal.take 24 := by
  rw [List.take_take, Nat.min_eq_left (by decide)]

theorem captureFrame_eq_ok {order : ChecksumOrder} {salts : Nat × Nat}
    {pageSize maxChangedBytes : Nat} {s s' : CaptureState} {rest rest' : Bytes}
    (h : captureFrame order salts pageSize maxChangedBytes s rest = .ok (s', rest')) :
    let frame := WalFrame.ofBytes (rest.take (walFrameHeaderBytes + pageSize))
    (s.lastFrameCommitted = false ∧ frame.InRange ∧ frame.salts = salts ∧
      frame.checksum = frame.rolled order s.rollingChecksum) ∧
      s' = s.after frame ∧ rest' = rest.drop (walFrameHeaderBytes + pageSize) := by
  obtain ⟨_, hOpen, h⟩ := bind_ok_iff.mp h
  obtain ⟨⟨frameHeader, rest₁⟩, hHeader, h⟩ := bind_ok_iff.mp h
  obtain ⟨_, hNo, h⟩ := bind_ok_iff.mp h
  obtain ⟨_, hCommit, h⟩ := bind_ok_iff.mp h
  obtain ⟨_, hSalts, h⟩ := bind_ok_iff.mp h
  obtain ⟨⟨afterImage, rest₂⟩, hImage, h⟩ := bind_ok_iff.mp h
  obtain ⟨_, hSum, h⟩ := bind_ok_iff.mp h
  rw [require_eq_ok] at hOpen hNo hCommit hSalts hSum
  obtain ⟨-, hHeader⟩ := takeBytes_eq_ok_iff.mp hHeader
  obtain ⟨-, hImage⟩ := takeBytes_eq_ok_iff.mp hImage
  cases hHeader
  cases hImage
  simp only [ofBytes_front, ← List.drop_drop]
  refine ⟨⟨hOpen, ⟨hNo, hCommit⟩, hSalts, hSum.symm⟩, ?_⟩
  dsimp only at hSum h
  rw [hSum] at h
  split at h
  · obtain ⟨_, -, h⟩ := bind_ok_iff.mp h
    cases h
    exact ⟨rfl, rfl⟩
  · cases h
    exact ⟨rfl, rfl⟩

theorem captureFrame_ok {order : ChecksumOrder} {salts : Nat × Nat} {pageSize maxChangedBytes : Nat}
    {s : CaptureState} {rest : Bytes} (hOpen : s.lastFrameCommitted = false)
    (hRange : (WalFrame.ofBytes (rest.take (walFrameHeaderBytes + pageSize))).InRange)
    (hSalts : (WalFrame.ofBytes (rest.take (walFrameHeaderBytes + pageSize))).salts = salts)
    (hSum : (WalFrame.ofBytes (rest.take (walFrameHeaderBytes + pageSize))).checksum =
      (WalFrame.ofBytes (rest.take (walFrameHeaderBytes + pageSize))).rolled order s.rollingChecksum)
    (hLong : walFrameHeaderBytes + pageSize ≤ rest.length)
    (hEnough : (s.pages.length + 1) * pageSize ≤ maxChangedBytes) :
    captureFrame order salts pageSize maxChangedBytes s rest =
      .ok (s.after (WalFrame.ofBytes (rest.take (walFrameHeaderBytes + pageSize))),
        rest.drop (walFrameHeaderBytes + pageSize)) := by
  have hHeader : takeBytes walFrameHeaderBytes "SQLite WAL frame header is truncated" rest =
      .ok (rest.take walFrameHeaderBytes, rest.drop walFrameHeaderBytes) :=
    takeBytes_eq_ok_iff.mpr ⟨by omega, rfl⟩
  have hImage : takeBytes pageSize "SQLite WAL frame page is truncated"
      (rest.drop walFrameHeaderBytes) =
      .ok ((rest.drop walFrameHeaderBytes).take pageSize,
        (rest.drop walFrameHeaderBytes).drop pageSize) :=
    takeBytes_eq_ok_iff.mpr ⟨by rw [List.length_drop]; omega, rfl⟩
  simp only [ofBytes_front, WalFrame.rolled] at hRange hSalts hSum ⊢
  unfold captureFrame
  rw [require_of hOpen, ok_bind, hHeader, ok_bind]
  dsimp only
  rw [require_of hRange.pageNo, ok_bind, require_of hRange.commitPages, ok_bind, require_of hSalts,
    ok_bind, hImage, ok_bind]
  dsimp only
  rw [require_of hSum.symm, ok_bind, ← hSum, List.drop_drop]
  split
  · rw [require_of hEnough, ok_bind]
    rfl
  · rfl

def framesOf (pageSize : Nat) (rest : Bytes) : List WalFrame :=
  (Paged.chunksExact (walFrameHeaderBytes + pageSize) rest).map WalFrame.ofBytes

theorem framesOf_succ {pageSize count : Nat} {rest : Bytes}
    (hRest : rest.length = (count + 1) * (walFrameHeaderBytes + pageSize)) :
    framesOf pageSize rest = WalFrame.ofBytes (rest.take (walFrameHeaderBytes + pageSize)) ::
        framesOf pageSize (rest.drop (walFrameHeaderBytes + pageSize)) ∧
      (rest.drop (walFrameHeaderBytes + pageSize)).length =
        count * (walFrameHeaderBytes + pageSize) ∧
      walFrameHeaderBytes + pageSize ≤ rest.length := by
  have hPos : 0 < walFrameHeaderBytes + pageSize := Nat.add_pos_left (by decide) _
  rw [Nat.succ_mul] at hRest
  refine ⟨?_, by rw [List.length_drop]; omega, by omega⟩
  rw [framesOf, Paged.chunksExact_split hPos (by omega)]
  rfl

theorem framesOf_zero {pageSize : Nat} {rest : Bytes}
    (hRest : rest.length = 0 * (walFrameHeaderBytes + pageSize)) : framesOf pageSize rest = [] := by
  rw [Nat.zero_mul] at hRest
  rw [List.eq_nil_of_length_eq_zero hRest, framesOf, Paged.chunksExact, List.length_nil, Nat.zero_div]
  rfl

theorem captureFrames_eq_ok {order : ChecksumOrder} {salts : Nat × Nat}
    {pageSize maxChangedBytes count : Nat} {s s' : CaptureState} {rest rest' : Bytes}
    (hRest : rest.length = count * (walFrameHeaderBytes + pageSize))
    (h : captureFrames order salts pageSize maxChangedBytes count s rest = .ok (s', rest')) :
    Accepted order salts s (framesOf pageSize rest) ∧
      s' = (framesOf pageSize rest).foldl CaptureState.after s := by
  induction count generalizing s rest with
  | zero =>
    cases h
    rw [framesOf_zero hRest]
    exact ⟨trivial, rfl⟩
  | succ count ih =>
    obtain ⟨⟨next, rest₁⟩, hFrame, h⟩ := bind_ok_iff.mp h
    obtain ⟨hFrames, hLater, -⟩ := framesOf_succ hRest
    obtain ⟨⟨hOpen, hRange, hSalts, hSum⟩, rfl, rfl⟩ := captureFrame_eq_ok hFrame
    obtain ⟨hAccepted, rfl⟩ := ih hLater h
    rw [hFrames]
    exact ⟨⟨hOpen, hRange, hSalts, hSum, hAccepted⟩, rfl⟩

theorem captureFrames_ok {order : ChecksumOrder} {salts : Nat × Nat}
    {pageSize maxChangedBytes count : Nat} {s : CaptureState} {rest : Bytes}
    (hRest : rest.length = count * (walFrameHeaderBytes + pageSize))
    (hAccepted : Accepted order salts s (framesOf pageSize rest))
    (hEnough : (s.pages.length + count) * pageSize ≤ maxChangedBytes) :
    captureFrames order salts pageSize maxChangedBytes count s rest =
      .ok ((framesOf pageSize rest).foldl CaptureState.after s, []) := by
  induction count generalizing s rest with
  | zero =>
    rw [framesOf_zero hRest, List.eq_nil_of_length_eq_zero (hRest.trans (Nat.zero_mul _))]
    rfl
  | succ count ih =>
    obtain ⟨hFrames, hLater, hLong⟩ := framesOf_succ hRest
    rw [hFrames] at hAccepted ⊢
    obtain ⟨hOpen, hRange, hSalts, hSum, hAccepted⟩ := hAccepted
    have hOne : (s.pages.length + 1) * pageSize ≤ maxChangedBytes :=
      Nat.le_trans (Nat.mul_le_mul_right _ (by omega)) hEnough
    have hMore := Assoc.length_insert_le
      (WalFrame.ofBytes (rest.take (walFrameHeaderBytes + pageSize))).pageNo
      (WalFrame.ofBytes (rest.take (walFrameHeaderBytes + pageSize))).image s.pages
    rw [captureFrames, captureFrame_ok hOpen hRange hSalts hSum hLong hOne, ok_bind]
    refine ih hLater hAccepted (Nat.le_trans (Nat.mul_le_mul_right _ ?_) hEnough)
    change (Assoc.insert _ _ _).length + count ≤ _
    omega

theorem accepted_iff {order : ChecksumOrder} {salts : Nat × Nat} {s : CaptureState}
    {frames : List WalFrame} :
    Accepted order salts s frames ↔
      (∀ frame ∈ frames, frame.InRange) ∧ (∀ frame ∈ frames, frame.salts = salts) ∧
        Rolling order s.rollingChecksum frames ∧ (frames ≠ [] → s.lastFrameCommitted = false) ∧
        ∀ frame ∈ frames.dropLast, frame.commitPages = 0 := by
  induction frames generalizing s with
  | nil => simp [Accepted, Rolling]
  | cons first frames ih =>
    rw [Accepted, ih, Rolling]
    change _ ∧ _ ∧ _ ∧ _ ∧ _ ∧ _ ∧ Rolling order first.checksum frames ∧ _ ↔ _
    cases frames with
    | nil => simp [Rolling, CaptureState.after]; tauto
    | cons second frames =>
      simp only [List.mem_cons, forall_eq_or_imp, ne_eq, reduceCtorEq, not_false_eq_true,
        CaptureState.after, decide_not, Bool.not_eq_eq_eq_not, Bool.not_true,
        decide_eq_false_iff_not, Bool.not_false, decide_eq_true_eq, forall_const,
        List.dropLast_cons_cons]
      tauto

def lastImage (pageNo : Nat) : List QwalPage → Option Bytes
  | [] => none
  | page :: pages =>
    (lastImage pageNo pages).or (if page.pageNo = pageNo then some page.afterImage else none)

theorem get_after (frames : List WalFrame) (s : CaptureState) (pageNo : Nat) :
    Assoc.get (frames.foldl CaptureState.after s).pages pageNo =
      (lastImage pageNo (frames.map WalFrame.page)).or (Assoc.get s.pages pageNo) := by
  induction frames generalizing s with
  | nil => rfl
  | cons first frames ih =>
    have hFirst : Assoc.get (s.after first).pages pageNo =
        (if first.pageNo = pageNo then some first.image else none).or (Assoc.get s.pages pageNo) := by
      simp only [CaptureState.after, Assoc.get_insert, eq_comm (a := pageNo)]
      split <;> rfl
    rw [List.foldl_cons, ih, hFirst, List.map_cons, lastImage, Option.or_assoc]
    rfl

theorem lastImage_of_sorted {pages : List (Nat × Bytes)} (hSorted : Assoc.Sorted pages) (pageNo : Nat) :
    lastImage pageNo (pages.map fun page => ⟨page.1, page.2⟩) = Assoc.get pages pageNo := by
  induction pages with
  | nil => rfl
  | cons first pages ih =>
    obtain ⟨no, image⟩ := first
    obtain ⟨hFirst, hRest⟩ := List.pairwise_cons.mp hSorted
    rw [List.map_cons, lastImage, ih hRest, Assoc.get]
    by_cases hNo : pageNo = no
    · rw [if_pos hNo, if_pos hNo.symm, Assoc.get_eq_none fun page hPage => ?_]
      · rfl
      · rw [hNo]
        exact (Nat.ne_of_gt (hFirst page hPage))
    · rw [if_neg hNo, if_neg (Ne.symm hNo), Option.or_none]

theorem get_filter {p : Nat → Bool} {pages : List (Nat × Bytes)} {pageNo : Nat} (h : p pageNo = true) :
    Assoc.get (pages.filter fun page => p page.1) pageNo = Assoc.get pages pageNo := by
  induction pages with
  | nil => rfl
  | cons first pages ih =>
    obtain ⟨no, image⟩ := first
    rw [List.filter_cons]
    by_cases hNo : pageNo = no
    · subst hNo
      rw [if_pos h, Assoc.get, Assoc.get, if_pos rfl, if_pos rfl]
    · split
      · rw [Assoc.get, Assoc.get, if_neg hNo, if_neg hNo, ih]
      · rw [ih, Assoc.get, if_neg hNo]

theorem byteAt_overwrite {pageSize : Nat} (hSize : 0 < pageSize) {pages : List QwalPage}
    (hPages : ∀ page ∈ pages, 0 < page.pageNo ∧ page.afterImage.length = pageSize) (file : Bytes)
    (k : Nat) :
    Paged.byteAt k (overwrite pageSize pages file) =
      match lastImage (k / pageSize + 1) pages with
      | some image => Paged.byteAt (k % pageSize) image
      | none => Paged.byteAt k file := by
  induction pages generalizing file with
  | nil => rfl
  | cons first pages ih =>
    obtain ⟨hPos, hLength⟩ := hPages first List.mem_cons_self
    have hWrite : Paged.byteAt k (Paged.writeAt ((first.pageNo - 1) * pageSize) first.afterImage file) =
        if first.pageNo = k / pageSize + 1 then Paged.byteAt (k % pageSize) first.afterImage
        else Paged.byteAt k file := by
      rw [Paged.byteAt_writeAt, hLength]
      have hDiv := Nat.div_add_mod k pageSize
      have hMod := Nat.mod_lt k hSize
      by_cases hNo : first.pageNo = k / pageSize + 1
      · have hStart : (first.pageNo - 1) * pageSize = pageSize * (k / pageSize) := by
          rw [hNo, Nat.add_sub_cancel, Nat.mul_comm]
        rw [if_pos hNo, if_pos ⟨by omega, by omega⟩]
        congr 1
        omega
      · rw [if_neg hNo, if_neg]
        rintro ⟨hLow, hHigh⟩
        have hThere : k / pageSize = first.pageNo - 1 :=
          Nat.div_eq_of_lt_le hLow (by rw [Nat.succ_mul]; exact hHigh)
        omega
    have hRest := ih (fun page hPage => hPages page (List.mem_cons_of_mem _ hPage))
      (Paged.writeAt ((first.pageNo - 1) * pageSize) first.afterImage file)
    rw [overwrite, List.foldl_cons]
    refine hRest.trans ?_
    rw [lastImage]
    cases lastImage (k / pageSize + 1) pages with
    | some image => rfl
    | none =>
      dsimp only
      rw [hWrite, Option.none_or]
      split <;> rfl

theorem length_eq_iff_full {numbers : List Nat} {low high : Nat}
    (hSorted : numbers.Pairwise (· < ·)) (hRange : ∀ n ∈ numbers, low < n ∧ n ≤ high) :
    numbers.length = high - low ↔ ∀ n, low < n → n ≤ high → n ∈ numbers := by
  have hNodup : numbers.Nodup := hSorted.imp fun h => Nat.ne_of_lt h
  have hSub : numbers ⊆ List.range' (low + 1) (high - low) := fun n hn => by
    have := hRange n hn
    exact List.mem_range'_1.mpr (by omega)
  constructor
  · intro hLength n hLow hHigh
    have hPerm := (List.subperm_of_subset hNodup hSub).perm_of_length_le
      (by rw [List.length_range', hLength])
    exact hPerm.mem_iff.mpr (List.mem_range'_1.mpr (by omega))
  · intro hAll
    have hAtLeast : List.range' (low + 1) (high - low) ⊆ numbers := fun n hn => by
      have := List.mem_range'_1.mp hn
      exact hAll n (by omega) (by omega)
    have hLess := (List.subperm_of_subset (List.nodup_range') hAtLeast).length_le
    rw [List.length_range'] at hLess
    exact Nat.le_antisymm (length_le_of_increasing hSorted hRange) hLess

def CaptureState.commit (s : CaptureState) (pageSize : Nat) : WalCommit where
  pageSize
  targetDbPages := s.finalDbPages
  targetFileBytes := s.finalDbPages * pageSize
  pages := (s.pages.filter fun page => page.1 ≤ s.finalDbPages).map fun page => ⟨page.1, page.2⟩

theorem growth_iff {pages : List (Nat × Bytes)} {base final : Nat} (hSorted : Assoc.Sorted pages) :
    ((pages.filter fun page => page.1 ≤ final).filter fun page => base < page.1).length =
        final - base ↔
      ∀ pageNo, base < pageNo → pageNo ≤ final → (Assoc.get pages pageNo).isSome := by
  have hNumbers : (((pages.filter fun page => page.1 ≤ final).filter fun page =>
      base < page.1).map Prod.fst).Pairwise (· < ·) :=
    List.pairwise_map.mpr ((hSorted.filter _).filter _)
  have hRange : ∀ n ∈ ((pages.filter fun page => page.1 ≤ final).filter fun page =>
      base < page.1).map Prod.fst, base < n ∧ n ≤ final := by
    intro n hn
    obtain ⟨page, hPage, rfl⟩ := List.mem_map.mp hn
    obtain ⟨hPage, hLow⟩ := List.mem_filter.mp hPage
    exact ⟨of_decide_eq_true hLow, of_decide_eq_true (List.mem_filter.mp hPage).2⟩
  have hFull := length_eq_iff_full hNumbers hRange
  rw [List.length_map] at hFull
  rw [hFull]
  refine forall_congr' fun n => forall_congr' fun hLow => forall_congr' fun hHigh => ?_
  constructor
  · intro hn
    obtain ⟨page, hPage, rfl⟩ := List.mem_map.mp hn
    exact Assoc.isSome_of_mem (List.mem_filter.mp (List.mem_filter.mp hPage).1).1
  · intro hSome
    obtain ⟨image, hImage⟩ := Option.isSome_iff_exists.mp hSome
    have hMem := Assoc.mem_of_get hImage
    refine List.mem_map.mpr ⟨(n, image), ?_, rfl⟩
    exact List.mem_filter.mpr ⟨List.mem_filter.mpr ⟨hMem, decide_eq_true hHigh⟩, decide_eq_true hLow⟩

theorem finishCapture_eq_ok_iff {baseDbPages pageSize : Nat} {s : CaptureState} {commit : WalCommit}
    (hs : s.Fits pageSize) (hSize : IsPageSize pageSize) :
    finishCapture baseDbPages pageSize s = .ok (.committed commit) ↔
      (s.lastFrameCommitted = true ∧ s.finalDbPages ≠ 0) ∧
        (∀ pageNo, baseDbPages < pageNo → pageNo ≤ s.finalDbPages →
          (Assoc.get s.pages pageNo).isSome) ∧ commit = s.commit pageSize := by
  have hGrowth : ((s.pages.filter fun page => page.1 ≤ s.finalDbPages).filter fun page =>
      baseDbPages < page.1).length = s.finalDbPages - baseDbPages ↔ _ := growth_iff hs.sorted
  constructor
  · intro h
    obtain ⟨_, hMarker, h⟩ := bind_ok_iff.mp h
    refine ⟨require_eq_ok.mp hMarker, ?_⟩
    split at h
    · obtain ⟨_, hCount, h⟩ := bind_ok_iff.mp h
      obtain ⟨_, -, h⟩ := bind_ok_iff.mp h
      cases h
      exact ⟨hGrowth.mp (require_eq_ok.mp hCount), rfl⟩
    · obtain ⟨_, -, h⟩ := bind_ok_iff.mp h
      cases h
      exact ⟨fun pageNo hLow hHigh => by omega, rfl⟩
  · rintro ⟨hMarker, hGrown, rfl⟩
    have hBound : s.finalDbPages * pageSize < u64Bound :=
      Nat.lt_of_le_of_lt (Nat.mul_le_mul hs.bound hSize.2.1) (by decide)
    unfold finishCapture
    rw [require_of hMarker, ok_bind]
    dsimp only
    split
    · rw [require_of (hGrowth.mpr hGrown), ok_bind, require_of hBound, ok_bind]
      rfl
    · rw [require_of hBound, ok_bind]
      rfl

def CaptureState.start (sum : Nat × Nat) : CaptureState where
  rollingChecksum := sum
  pages := []
  finalDbPages := 0
  lastFrameCommitted := false

theorem CaptureState.fits_start (sum : Nat × Nat) (pageSize : Nat) :
    (CaptureState.start sum).Fits pageSize :=
  ⟨List.Pairwise.nil, nofun, nofun, Nat.zero_le _⟩

theorem checksumOrder_eq_ok_iff {magic : Nat} {order : ChecksumOrder} :
    checksumOrder magic = .ok order ↔ magic = order.magic := by
  unfold checksumOrder
  constructor
  · intro h
    split at h
    · cases h
      assumption
    split at h
    · cases h
      assumption
    · cases h
  · rintro rfl
    cases order <;> rfl

def captured (wal : Bytes) : CaptureState :=
  (walFrames wal).foldl CaptureState.after (CaptureState.start (walHeaderSum wal))

structure Framed (wal : Bytes) (baseDbPages : Nat) (order : ChecksumOrder) : Prop where
  base : 1 ≤ baseDbPages ∧ baseDbPages ≤ maxPageNo
  header : ValidHeader wal order
  whole : wal.length = walHeaderBytes + (walFrames wal).length * walFrameBytes wal
  nonempty : walFrames wal ≠ []

theorem captureWal_eq_ok {wal : Bytes} {baseDbPages maxChangedBytes : Nat} {commit : WalCommit}
    (h : captureWal wal baseDbPages maxChangedBytes = .ok (.committed commit)) :
    ∃ order, Framed wal baseDbPages order ∧
      (walFrames wal).length * walPageSize wal ≤ maxChangedBytes ∧
      Accepted order (walSalts wal) (CaptureState.start (walHeaderSum wal)) (walFrames wal) ∧
      (captured wal).Fits (walPageSize wal) ∧
      finishCapture baseDbPages (walPageSize wal) (captured wal) = .ok (.committed commit) := by
  obtain ⟨_, hBase, h⟩ := bind_ok_iff.mp h
  split at h
  · cases h
  obtain ⟨⟨header, rest⟩, hTake, h⟩ := bind_ok_iff.mp h
  obtain ⟨order, hOrder, h⟩ := bind_ok_iff.mp h
  obtain ⟨_, hVersion, h⟩ := bind_ok_iff.mp h
  obtain ⟨_, hSize, h⟩ := bind_ok_iff.mp h
  obtain ⟨_, hSum, h⟩ := bind_ok_iff.mp h
  obtain ⟨_, hWhole, h⟩ := bind_ok_iff.mp h
  obtain ⟨_, hFew, h⟩ := bind_ok_iff.mp h
  obtain ⟨⟨s, rest'⟩, hFrames, h⟩ := bind_ok_iff.mp h
  obtain ⟨_, -, h⟩ := bind_ok_iff.mp h
  rw [require_eq_ok] at hBase hVersion hSize hSum hWhole hFew
  obtain ⟨hLong, hTake⟩ := takeBytes_eq_ok_iff.mp hTake
  cases hTake
  simp only [header_magic, header_version, header_pageSize, header_salts, header_sum,
    header_fields] at hOrder hVersion hSize hSum hWhole hFew hFrames h
  have hCount : (walFrames wal).length =
      (wal.length - walHeaderBytes) / (walFrameHeaderBytes + walPageSize wal) := by
    rw [walFrames, List.length_map, Paged.length_chunksExact, List.length_drop]
    rfl
  have hPayload : wal.length - walHeaderBytes =
      (walFrames wal).length * (walFrameHeaderBytes + walPageSize wal) := by
    rw [hCount]
    exact (Nat.div_mul_cancel (Nat.dvd_of_mod_eq_zero hWhole.2)).symm
  have hRest : (wal.drop walHeaderBytes).length =
      (wal.length - walHeaderBytes) / (walFrameHeaderBytes + walPageSize wal) *
        (walFrameHeaderBytes + walPageSize wal) := by
    rw [List.length_drop]
    exact (Nat.div_mul_cancel (Nat.dvd_of_mod_eq_zero hWhole.2)).symm
  rw [hSum] at hFrames
  obtain ⟨hAccepted, rfl⟩ := captureFrames_eq_ok hRest hFrames
  refine ⟨order, ⟨hBase, ⟨hLong, checksumOrder_eq_ok_iff.mp hOrder, hVersion, hSize, hSum⟩, ?_, ?_⟩,
    ?_, ?_, ?_, ?_⟩
  · rw [walFrameBytes, ← hPayload]
    omega
  · intro hNone
    rw [hNone, List.length_nil, Nat.zero_mul] at hPayload
    exact hWhole.1 hPayload
  · rw [hCount]
    exact (Nat.le_div_iff_mul_le hSize.pos).mp hFew
  · exact hAccepted
  · exact captureFrames_fits hFrames (CaptureState.fits_start _ _)
  · rw [← header_pageSize]
    exact h

theorem Framed.rest {wal : Bytes} {baseDbPages : Nat} {order : ChecksumOrder}
    (h : Framed wal baseDbPages order) :
    (wal.drop walHeaderBytes).length =
      (walFrames wal).length * (walFrameHeaderBytes + walPageSize wal) := by
  rw [List.length_drop, h.whole, Nat.add_sub_cancel_left]
  rfl

theorem Framed.captureFrames {wal : Bytes} {baseDbPages maxChangedBytes : Nat} {order : ChecksumOrder}
    (h : Framed wal baseDbPages order)
    (hEnough : (walFrames wal).length * walPageSize wal ≤ maxChangedBytes)
    (hAccepted : Accepted order (walSalts wal) (CaptureState.start (walHeaderSum wal)) (walFrames wal)) :
    captureFrames order (walSalts wal) (walPageSize wal) maxChangedBytes (walFrames wal).length
      (CaptureState.start (walHeaderSum wal)) (wal.drop walHeaderBytes) = .ok (captured wal, []) := by
  refine captureFrames_ok h.rest hAccepted ?_
  rwa [CaptureState.start, List.length_nil, Nat.zero_add]

theorem captureWal_ok {wal : Bytes} {baseDbPages maxChangedBytes : Nat} {commit : WalCommit}
    {order : ChecksumOrder} (hFramed : Framed wal baseDbPages order)
    (hEnough : (walFrames wal).length * walPageSize wal ≤ maxChangedBytes)
    (hAccepted : Accepted order (walSalts wal) (CaptureState.start (walHeaderSum wal)) (walFrames wal))
    (hFinish : finishCapture baseDbPages (walPageSize wal) (captured wal) = .ok (.committed commit)) :
    captureWal wal baseDbPages maxChangedBytes = .ok (.committed commit) := by
  have hHeader := hFramed.header
  have hLong := hHeader.complete
  have hSize : 0 < walPageSize wal := hHeader.pageSize.pos
  have hPayload := hFramed.rest
  rw [List.length_drop] at hPayload
  have hSome : 0 < (walFrames wal).length := List.length_pos_iff.mpr hFramed.nonempty
  have hFrameBytes : 0 < walFrameHeaderBytes + walPageSize wal := Nat.add_pos_left (by decide) _
  have hCount : (wal.length - walHeaderBytes) / (walFrameHeaderBytes + walPageSize wal) =
      (walFrames wal).length := by
    rw [hPayload, Nat.mul_div_cancel _ hFrameBytes]
  have hWhole : wal.length - walHeaderBytes ≠ 0 ∧
      (wal.length - walHeaderBytes) % (walFrameHeaderBytes + walPageSize wal) = 0 := by
    rw [hPayload, Nat.mul_mod_left]
    exact ⟨Nat.ne_of_gt (Nat.mul_pos hSome hFrameBytes), rfl⟩
  have hTake : takeBytes walHeaderBytes "SQLite WAL header is truncated" wal =
      .ok (wal.take walHeaderBytes, wal.drop walHeaderBytes) := takeBytes_eq_ok_iff.mpr ⟨hLong, rfl⟩
  unfold captureWal
  rw [require_of hFramed.base, ok_bind, if_neg (by unfold walHeaderBytes at hLong; omega), hTake,
    ok_bind]
  dsimp only
  simp only [header_magic, header_version, header_pageSize, header_salts, header_sum, header_fields]
  rw [checksumOrder_eq_ok_iff.mpr hHeader.magic, ok_bind, require_of hHeader.version, ok_bind,
    require_of hHeader.pageSize, ok_bind, require_of hHeader.checksum, ok_bind, require_of hWhole,
    ok_bind, hCount, require_of ((Nat.le_div_iff_mul_le hSize).mpr hEnough), ok_bind,
    hHeader.checksum]
  refine (congrArg (· >>= _) (hFramed.captureFrames hEnough hAccepted)).trans ?_
  rw [ok_bind]
  dsimp only
  rw [require_of rfl, ok_bind]
  exact hFinish

theorem Transaction.accepted {wal : Bytes} {baseDbPages commitPages : Nat}
    (h : Transaction wal baseDbPages commitPages) :
    ∃ order, Framed wal baseDbPages order ∧
      Accepted order (walSalts wal) (CaptureState.start (walHeaderSum wal)) (walFrames wal) := by
  obtain ⟨order, hHeader, hRolling⟩ := h.rolling
  obtain ⟨earlier, last, hFrames, hEarlier, -⟩ := h.marked
  have hSome : walFrames wal ≠ [] := by
    rw [hFrames]
    exact List.append_ne_nil_of_right_ne_nil _ (List.cons_ne_nil _ _)
  refine ⟨order, ⟨h.base, hHeader, h.whole, hSome⟩, accepted_iff.mpr
    ⟨h.inRange, h.salts, hRolling, fun _ => rfl, ?_⟩⟩
  rw [hFrames, List.dropLast_concat]
  exact hEarlier

theorem captured_of_marked {wal : Bytes} {earlier : List WalFrame} {last : WalFrame}
    (hFrames : walFrames wal = earlier ++ [last]) :
    (captured wal).lastFrameCommitted = decide (last.commitPages ≠ 0) ∧
      (last.commitPages ≠ 0 → (captured wal).finalDbPages = last.commitPages) := by
  rw [captured, hFrames, List.foldl_append, List.foldl_cons, List.foldl_nil]
  exact ⟨rfl, fun hMarked => if_pos (decide_eq_true hMarked)⟩

theorem isSome_lastImage {pageNo : Nat} {pages : List QwalPage} :
    (lastImage pageNo pages).isSome ↔ ∃ page ∈ pages, page.pageNo = pageNo := by
  induction pages with
  | nil => simp [lastImage]
  | cons first pages ih =>
    rw [lastImage, Option.isSome_or, Bool.or_eq_true, ih]
    by_cases hNo : first.pageNo = pageNo <;> simp [hNo]

theorem isSome_captured {wal : Bytes} {pageNo : Nat} :
    (Assoc.get (captured wal).pages pageNo).isSome ↔ ∃ frame ∈ walFrames wal, frame.pageNo = pageNo := by
  rw [captured, get_after]
  change ((lastImage pageNo _).or none).isSome ↔ _
  rw [Option.or_none, isSome_lastImage]
  simp [WalFrame.page]

theorem transaction_of_captureWal {wal : Bytes} {baseDbPages maxChangedBytes : Nat}
    {commit : WalCommit}
    (h : captureWal wal baseDbPages maxChangedBytes = .ok (.committed commit)) :
    Transaction wal baseDbPages commit.targetDbPages ∧
      commit = (captured wal).commit (walPageSize wal) ∧ (captured wal).Fits (walPageSize wal) := by
  obtain ⟨order, hFramed, -, hAccepted, hFits, hFinish⟩ := captureWal_eq_ok h
  obtain ⟨⟨hLast, hFinal⟩, hGrown, rfl⟩ :=
    (finishCapture_eq_ok_iff hFits hFramed.header.pageSize).mp hFinish
  obtain ⟨hRange, hSalts, hRolling, -, hEarlier⟩ := accepted_iff.mp hAccepted
  obtain ⟨earlier, last, hFrames⟩ : ∃ earlier last, walFrames wal = earlier ++ [last] :=
    ⟨_, _, (List.dropLast_append_getLast hFramed.nonempty).symm⟩
  obtain ⟨hMarker, hCommit⟩ := captured_of_marked hFrames
  have hMarked : last.commitPages ≠ 0 := of_decide_eq_true (hMarker.symm.trans hLast)
  rw [hFrames, List.dropLast_concat] at hEarlier
  refine ⟨⟨hFramed.base, ⟨order, hFramed.header, hRolling⟩, hFramed.whole, hRange, hSalts,
    ⟨earlier, last, hFrames, hEarlier, (hCommit hMarked).symm, hFinal⟩, ?_⟩, rfl, hFits⟩
  exact fun pageNo hLow hHigh => isSome_captured.mp (hGrown pageNo hLow hHigh)

theorem Transaction.captureWal_ok {wal : Bytes} {baseDbPages commitPages maxChangedBytes : Nat}
    (h : Transaction wal baseDbPages commitPages)
    (hEnough : (walFrames wal).length * walPageSize wal ≤ maxChangedBytes) :
    captureWal wal baseDbPages maxChangedBytes =
      .ok (.committed ((captured wal).commit (walPageSize wal))) := by
  obtain ⟨order, hFramed, hAccepted⟩ := h.accepted
  obtain ⟨earlier, last, hFrames, -, rfl, hMarked⟩ := h.marked
  obtain ⟨hMarker, hCommit⟩ := captured_of_marked hFrames
  have hFits : (captured wal).Fits (walPageSize wal) :=
    captureFrames_fits (hFramed.captureFrames hEnough hAccepted) (CaptureState.fits_start _ _)
  refine Sql.captureWal_ok hFramed hEnough hAccepted
    ((finishCapture_eq_ok_iff hFits hFramed.header.pageSize).mpr ⟨⟨?_, ?_⟩, ?_, rfl⟩)
  · exact hMarker.trans (decide_eq_true hMarked)
  · rw [hCommit hMarked]
    exact hMarked
  · rw [hCommit hMarked]
    exact fun pageNo hLow hHigh => isSome_captured.mpr (h.grown pageNo hLow hHigh)

theorem image_of_mem_walFrames {wal : Bytes} {frame : WalFrame} (h : frame ∈ walFrames wal) :
    frame.image.length = walPageSize wal := by
  obtain ⟨bytes, hBytes, rfl⟩ := List.mem_map.mp h
  change (bytes.drop walFrameHeaderBytes).length = _
  rw [List.length_drop, Paged.length_of_mem_chunksExact hBytes, walFrameBytes, Nat.add_sub_cancel_left]

theorem lastImage_commit {wal : Bytes} (hFits : (captured wal).Fits (walPageSize wal)) {pageNo : Nat}
    (hWithin : pageNo ≤ (captured wal).finalDbPages) :
    lastImage pageNo ((captured wal).commit (walPageSize wal)).pages =
      lastImage pageNo ((walFrames wal).map WalFrame.page) := by
  rw [CaptureState.commit, lastImage_of_sorted (hFits.sorted.filter _),
    get_filter (p := fun no => decide (no ≤ (captured wal).finalDbPages)) (decide_eq_true hWithin),
    captured, get_after]
  exact Option.or_none

theorem overwrite_captured {wal : Bytes} (hFits : (captured wal).Fits (walPageSize wal))
    (hSize : 0 < walPageSize wal) (hFrames : ∀ frame ∈ walFrames wal, frame.InRange)
    {commit : WalCommit} (hCommit : commit = (captured wal).commit (walPageSize wal))
    (hPages : OrderedPages (walPageSize wal) commit.targetDbPages commit.pages) (base : Bytes) :
    overwrite (walPageSize wal) commit.pages
        (Paged.setLen (commit.targetDbPages * walPageSize wal) base) =
      Paged.setLen (commit.targetDbPages * walPageSize wal)
        (overwrite (walPageSize wal) ((walFrames wal).map WalFrame.page) base) := by
  have hLength := (overwritten_overwrite hPages
    (Paged.length_setLen (commit.targetDbPages * walPageSize wal) base)).length
  have hCaptured : ∀ page ∈ commit.pages,
      0 < page.pageNo ∧ page.afterImage.length = walPageSize wal := fun page hPage =>
    ⟨hPages.pos page hPage, hPages.sizes page hPage⟩
  have hWritten : ∀ page ∈ (walFrames wal).map WalFrame.page,
      0 < page.pageNo ∧ page.afterImage.length = walPageSize wal := by
    intro page hPage
    obtain ⟨frame, hFrame, rfl⟩ := List.mem_map.mp hPage
    exact ⟨(hFrames frame hFrame).pageNo.1, image_of_mem_walFrames hFrame⟩
  refine Paged.ext_byteAt (hLength.trans (Paged.length_setLen _ _).symm) fun k hk => ?_
  rw [hLength] at hk
  have hWithin : k / walPageSize wal + 1 ≤ commit.targetDbPages :=
    Nat.div_lt_of_lt_mul (by rwa [Nat.mul_comm])
  have hSame : lastImage (k / walPageSize wal + 1) commit.pages =
      lastImage (k / walPageSize wal + 1) ((walFrames wal).map WalFrame.page) := by
    subst hCommit
    exact lastImage_commit hFits hWithin
  rw [byteAt_overwrite hSize hCaptured, hSame, Paged.byteAt_setLen, Paged.byteAt_setLen, if_pos hk,
    if_pos hk, byteAt_overwrite hSize hWritten]

/-- A capture succeeds exactly on a transaction that fits the limit, and its pages are
what the frames leave within the new size. -/
theorem capture_is_exact (wal : Bytes) (baseDbPages maxChangedBytes : Nat) :
    ((∃ commit, captureWal wal baseDbPages maxChangedBytes = .ok (.committed commit)) ↔
        (∃ commitPages, Transaction wal baseDbPages commitPages) ∧
          (walFrames wal).length * walPageSize wal ≤ maxChangedBytes) ∧
      ∀ commit, captureWal wal baseDbPages maxChangedBytes = .ok (.committed commit) →
        Transaction wal baseDbPages commit.targetDbPages ∧ commit.pageSize = walPageSize wal ∧
          (commit.pages.Pairwise fun a b => a.pageNo < b.pageNo) ∧
          (∀ page ∈ commit.pages, 1 ≤ page.pageNo ∧ page.pageNo ≤ commit.targetDbPages ∧
            page.afterImage.length = walPageSize wal) ∧
          ∀ base : Bytes,
            overwrite (walPageSize wal) commit.pages
                (Paged.setLen (commit.targetDbPages * walPageSize wal) base) =
              Paged.setLen (commit.targetDbPages * walPageSize wal)
                (overwrite (walPageSize wal) ((walFrames wal).map WalFrame.page) base) := by
  refine ⟨⟨?_, ?_⟩, fun commit h => ?_⟩
  · rintro ⟨commit, h⟩
    obtain ⟨-, -, hEnough, -⟩ := captureWal_eq_ok h
    exact ⟨⟨_, (transaction_of_captureWal h).1⟩, hEnough⟩
  · rintro ⟨⟨commitPages, hTransaction⟩, hEnough⟩
    exact ⟨_, hTransaction.captureWal_ok hEnough⟩
  · obtain ⟨hTransaction, hCommit, hFits⟩ := transaction_of_captureWal h
    have hSize : commit.pageSize = walPageSize wal := by rw [hCommit]; rfl
    have hPages := (captureWal_fits h).pages
    rw [hSize] at hPages
    obtain ⟨order, hHeader, -⟩ := hTransaction.rolling
    refine ⟨hTransaction, hSize, hPages.sorted, fun page hPage =>
      ⟨hPages.pos page hPage, hPages.within page hPage, hPages.sizes page hPage⟩, fun base => ?_⟩
    exact overwrite_captured hFits hHeader.pageSize.pos hTransaction.inRange hCommit hPages base

namespace Sample

/-- The log of the sample writes the second page before the first. -/
theorem growth_is_exact :
    Transaction wal 1 2 ∧ overwrite 512 [⟨1, base⟩, ⟨2, List.replicate 512 7⟩] (Paged.setLen 1024 base) =
      Paged.setLen 1024 (overwrite 512 ((walFrames wal).map WalFrame.page) base) := by
  have hCapture : captureWal wal 1 maxQwalBytes = .ok capture := by decide +kernel
  have hSize : walPageSize wal = 512 := by decide +kernel
  obtain ⟨hTransaction, -, -, -, hOverlay⟩ := (capture_is_exact wal 1 maxQwalBytes).2 _ hCapture
  refine ⟨hTransaction, ?_⟩
  simpa only [hSize] using hOverlay base

end Sample

end Rhiza.Sql
