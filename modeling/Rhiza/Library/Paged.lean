import Mathlib.Data.List.Basic
import Mathlib.Tactic.Ring

/-! # Files of fixed-size pages

A file is the list of its bytes. Its length can be set, which cuts it or pads it
with zeros, and bytes can be written at an offset. Pages are numbered from zero.
-/

namespace Rhiza.Library.Paged

abbrev File := List UInt8

def setLen (n : Nat) (file : File) : File := file.take n ++ List.replicate (n - file.length) 0

/-- `seek` and then `write_all`. A write past the end leaves zeros in between. -/
def writeAt (offset : Nat) (data file : File) : File :=
  setLen offset file ++ data ++ file.drop (offset + data.length)

/-- `seek` and then `read_exact`. -/
def readAt (offset n : Nat) (file : File) : Option File :=
  if offset + n ≤ file.length then some ((file.drop offset).take n) else none

/-- Page `i` of a file with pages of `size` bytes. -/
def page (size i : Nat) (file : File) : File := (file.drop (i * size)).take size

def chunksExact (size : Nat) (file : File) : List File :=
  (List.range (file.length / size)).map fun i => page size i file

@[simp] theorem length_setLen (n : Nat) (file : File) : (setLen n file).length = n := by
  rw [setLen, List.length_append, List.length_take, List.length_replicate]
  omega

theorem setLen_self (file : File) : setLen file.length file = file := by
  simp [setLen]

theorem length_writeAt {offset : Nat} {data file : File} (h : offset + data.length ≤ file.length) :
    (writeAt offset data file).length = file.length := by
  rw [writeAt, List.length_append, List.length_append, length_setLen, List.length_drop]
  omega

@[simp] theorem length_chunksExact (size : Nat) (file : File) :
    (chunksExact size file).length = file.length / size := by
  rw [chunksExact, List.length_map, List.length_range]

theorem page_end_le {size i count : Nat} (hi : i < count) : i * size + size ≤ count * size := by
  calc i * size + size = (i + 1) * size := by ring
    _ ≤ count * size := Nat.mul_le_mul_right size hi

theorem length_page {size i : Nat} {file : File} (h : i * size + size ≤ file.length) :
    (page size i file).length = size := by
  rw [page, List.length_take, List.length_drop]
  omega

theorem readAt_page {size i : Nat} {file : File} (h : i * size + size ≤ file.length) :
    readAt (i * size) size file = some (page size i file) := by
  rw [readAt, if_pos h, page]

theorem page_setLen {size i n : Nat} {file : File} (hFile : i * size + size ≤ file.length)
    (hn : i * size + size ≤ n) : page size i (setLen n file) = page size i file := by
  unfold page setLen
  rw [List.drop_append_of_le_length (by rw [List.length_take]; omega), List.drop_take,
    List.take_append_of_le_length (by simp only [List.length_take, List.length_drop]; omega),
    List.take_take, Nat.min_eq_left (by omega)]

theorem page_writeAt_self {size i : Nat} {data file : File} (hData : data.length = size) :
    page size i (writeAt (i * size) data file) = data := by
  unfold page writeAt
  rw [List.append_assoc, List.drop_left' (length_setLen _ _), List.take_left' hData]

theorem page_writeAt_other {size i j : Nat} {data file : File} (hData : data.length = size)
    (hi : i * size + size ≤ file.length) (hNe : j ≠ i) :
    page size j (writeAt (i * size) data file) = page size j file := by
  have hTaken : setLen (i * size) file = file.take (i * size) := by
    rw [setLen, Nat.sub_eq_zero_of_le (by omega), List.replicate_zero, List.append_nil]
  have hFront : (file.take (i * size)).length = i * size := by rw [List.length_take]; omega
  unfold page writeAt
  rw [hTaken, hData]
  rcases Nat.lt_or_gt_of_ne hNe with hLess | hMore
  · have hBefore : j * size + size ≤ i * size := page_end_le hLess
    rw [List.append_assoc, List.drop_append_of_le_length (by omega), List.drop_take,
      List.take_append_of_le_length (by simp only [List.length_take, List.length_drop]; omega),
      List.take_take, Nat.min_eq_left (by omega)]
  · have hAfter : i * size + size ≤ j * size := page_end_le hMore
    have hSplit : j * size = (file.take (i * size) ++ data).length + (j * size - (i * size + size)) := by
      rw [List.length_append, hFront, hData]
      omega
    rw [hSplit, ← List.drop_drop, List.drop_left, List.drop_drop, ← hSplit]
    congr 2
    omega

theorem eq_of_pages {size count : Nat} {file file' : File} (hLength : file.length = count * size)
    (hLength' : file'.length = count * size)
    (hPages : ∀ i < count, page size i file = page size i file') : file = file' := by
  induction count generalizing file file' with
  | zero =>
    rw [Nat.zero_mul] at hLength hLength'
    rw [List.eq_nil_of_length_eq_zero hLength, List.eq_nil_of_length_eq_zero hLength']
  | succ count ih =>
    have hFirst : file.take size = file'.take size := by
      simpa [page] using hPages 0 (Nat.succ_pos count)
    have hRest : file.drop size = file'.drop size := by
      refine ih ?_ ?_ fun i hi => ?_
      · rw [List.length_drop, hLength, Nat.succ_mul, Nat.add_sub_cancel]
      · rw [List.length_drop, hLength', Nat.succ_mul, Nat.add_sub_cancel]
      · have hNext := hPages (i + 1) (Nat.succ_lt_succ hi)
        have hOffset : (i + 1) * size = size + i * size := by ring
        rw [page, page, hOffset] at hNext
        rwa [page, page, List.drop_drop, List.drop_drop]
    rw [← List.take_append_drop size file, hFirst, hRest, List.take_append_drop]

theorem getElem_chunksExact {size i : Nat} {file : File} (hi : i < (chunksExact size file).length) :
    (chunksExact size file)[i] = page size i file := by
  simp [chunksExact]

theorem chunksExact_append {size : Nat} {front rest : File} (hSize : 0 < size)
    (hFront : front.length = size) :
    chunksExact size (front ++ rest) = front :: chunksExact size rest := by
  have hCount : (front ++ rest).length / size = rest.length / size + 1 := by
    rw [List.length_append, hFront, Nat.add_comm, Nat.add_div_right _ hSize]
  rw [chunksExact, hCount, List.range_succ_eq_map, List.map_cons, List.map_map]
  congr 1
  · rw [page, Nat.zero_mul, List.drop_zero, List.take_left' hFront]
  · refine List.map_congr_left fun i _ => ?_
    have hOffset : (i + 1) * size = front.length + i * size := by rw [hFront]; ring
    have hPast : front.length ≤ front.length + i * size := Nat.le_add_right _ _
    simp only [Function.comp, page, Nat.succ_eq_add_one, hOffset]
    rw [List.drop_append, List.drop_eq_nil_of_le hPast, List.nil_append, Nat.add_sub_cancel_left]

theorem chunksExact_split {size : Nat} {file : File} (hSize : 0 < size) (hFile : size ≤ file.length) :
    chunksExact size file = file.take size :: chunksExact size (file.drop size) := by
  have hFront : (file.take size).length = size := List.length_take_of_le hFile
  conv_lhs => rw [← List.take_append_drop size file]
  exact chunksExact_append hSize hFront

theorem length_of_mem_chunksExact {size : Nat} {chunk file : File} (h : chunk ∈ chunksExact size file) :
    chunk.length = size := by
  obtain ⟨i, hi, rfl⟩ := List.mem_map.mp h
  have hEnd : i * size + size ≤ file.length / size * size := page_end_le (List.mem_range.mp hi)
  exact length_page (Nat.le_trans hEnd (Nat.div_mul_le_self _ _))

/-- The byte at a position, which reads as zero past the end. -/
def byteAt (k : Nat) (file : File) : UInt8 := file.getD k 0

theorem byteAt_of_le {k : Nat} {file : File} (h : file.length ≤ k) : byteAt k file = 0 := by
  rw [byteAt, List.getD_eq_getElem?_getD, List.getElem?_eq_none h, Option.getD_none]

theorem byteAt_append (k : Nat) (front rest : File) :
    byteAt k (front ++ rest) =
      if k < front.length then byteAt k front else byteAt (k - front.length) rest := by
  simp only [byteAt, List.getD_eq_getElem?_getD, List.getElem?_append]
  split <;> rfl

theorem byteAt_take (k n : Nat) (file : File) :
    byteAt k (file.take n) = if k < n then byteAt k file else 0 := by
  simp only [byteAt, List.getD_eq_getElem?_getD, List.getElem?_take]
  split <;> rfl

theorem byteAt_drop (k n : Nat) (file : File) : byteAt k (file.drop n) = byteAt (n + k) file := by
  simp only [byteAt, List.getD_eq_getElem?_getD, List.getElem?_drop]

theorem byteAt_setLen (k n : Nat) (file : File) :
    byteAt k (setLen n file) = if k < n then byteAt k file else 0 := by
  rw [setLen, byteAt_append, byteAt_take]
  split
  · rfl
  · have hZeros : byteAt (k - (file.take n).length) (List.replicate (n - file.length) 0) = 0 := by
      simp only [byteAt, List.getD_eq_getElem?_getD, List.getElem?_replicate]
      split <;> rfl
    rw [hZeros]
    split
    · rw [byteAt_of_le]
      rename_i hPast hWithin
      rw [List.length_take] at hPast
      omega
    · rfl

theorem byteAt_writeAt (k offset : Nat) (data file : File) :
    byteAt k (writeAt offset data file) =
      if offset ≤ k ∧ k < offset + data.length then byteAt (k - offset) data else byteAt k file := by
  rw [writeAt, byteAt_append, byteAt_append, byteAt_setLen, byteAt_drop, List.length_append,
    length_setLen]
  split_ifs with hFront hBefore hData <;> first | rfl | omega | (congr 1; omega)

theorem ext_byteAt {file file' : File} (hLength : file.length = file'.length)
    (h : ∀ k < file.length, byteAt k file = byteAt k file') : file = file' := by
  refine List.ext_getElem hLength fun k hk hk' => ?_
  have hByte := h k hk
  simpa only [byteAt, List.getD_eq_getElem?_getD, List.getElem?_eq_getElem hk,
    List.getElem?_eq_getElem hk', Option.getD_some] using hByte

end Rhiza.Library.Paged
