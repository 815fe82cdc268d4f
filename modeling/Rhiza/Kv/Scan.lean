import Rhiza.Kv.RoundTrip
import Rhiza.Library.Cursor

/-! # Ordered scans of the key-value table

A scan returns the first rows of a range, up to two limits, and a cursor where there
are more. On a table of admitted commands the pages are the range.
-/

namespace Rhiza.Kv

open Core Library

def maxKvScanRows : Nat := 1024
def maxKvScanResultBytes : Nat := 1024 * 1024

inductive ScanError
  | invalidQuery (message : String)
  | resourceExhausted (message : String)
  | materializer (error : Error)
  deriving DecidableEq

structure KvScanResult where
  rows : List (Bytes × Bytes)
  nextCursor : Option Bytes
  tip : LogAnchor
  deriving DecidableEq

def validateScanBound (name : String) (value : Bytes) : Except ScanError Unit :=
  ensure (value.length ≤ maxKvKeyBytes)
    (.invalidQuery (name ++ " exceeds " ++ toString maxKvKeyBytes ++ " bytes"))

def validateScanCursor : Option Bytes → Except ScanError Unit
  | none => .ok ()
  | some cursor => do
    ensure (cursor ≠ []) (.invalidQuery "scan cursor must not be empty")
    validateScanBound "scan cursor" cursor

def prefixSuccessor (start : Bytes) : Option Bytes :=
  match start.reverse.dropWhile (· = 255) with
  | [] => none
  | byte :: rest => some ((byte + 1) :: rest).reverse

def readTip (progress : List (String × Bytes)) : Result LogAnchor := do
  let index ← readU64Meta progress metaAppliedIndex
  let hash ← readHashMeta progress metaAppliedHash
  .ok ⟨index, hash⟩

def rowBytes (row : Bytes × Bytes) : Nat := row.1.length + row.2.length

/-- The loop of `scan_snapshot` over the rows of the range. -/
def fillPage (limit : Nat) : List (Bytes × Bytes) → Nat → List (Bytes × Bytes) →
    Except ScanError (List (Bytes × Bytes) × Bool)
  | rows, _, [] => .ok (rows, false)
  | rows, resultBytes, row :: rest => do
    ensure (rowBytes row < u64Bound) (.resourceExhausted "KV scan row size overflow")
    ensure (resultBytes + rowBytes row < u64Bound)
      (.resourceExhausted "KV scan result size overflow")
    if rows.length = limit ∨ maxKvScanResultBytes < resultBytes + rowBytes row then .ok (rows, true)
    else fillPage limit (rows ++ [row]) (resultBytes + rowBytes row) rest

def inScan (start : Bytes) (stop cursor : Option Bytes) (row : Bytes × Bytes) : Bool :=
  cursor.elim (decide (¬ row.1 < start)) (fun cursor => decide (cursor < row.1)) &&
    stop.all fun stop => decide (row.1 < stop)

namespace RedbStateMachine

def scanSnapshot (m : RedbStateMachine) (start : Bytes) (stop : Option Bytes) (limit : Nat)
    (cursor : Option Bytes) : Except ScanError KvScanResult := do
  ensure (1 ≤ limit ∧ limit ≤ maxKvScanRows)
    (.invalidQuery ("scan limit must be within 1..=" ++ toString maxKvScanRows))
  let tip ← (readTip m.tables.progress).mapError .materializer
  if stop.any fun stop => decide (¬ start < stop) then .ok ⟨[], none, tip⟩
  else do
    let (rows, hasMore) ← fillPage limit [] 0 (m.tables.data.filter (inScan start stop cursor))
    ensure (¬ (hasMore ∧ rows = []))
      (.resourceExhausted "KV row exceeds the maximum scan result size")
    .ok ⟨rows, if hasMore then rows.getLast?.map (·.1) else none, tip⟩

def scanRange (m : RedbStateMachine) (start : Bytes) (stop : Option Bytes) (limit : Nat)
    (cursor : Option Bytes) : Except ScanError KvScanResult := do
  validateScanBound "range start" start
  stop.elim (.ok ()) (validateScanBound "range end")
  validateScanCursor cursor
  ensure (¬ cursor.any fun cursor =>
      decide (cursor < start) || stop.any fun stop => decide (¬ cursor < stop))
    (.invalidQuery "cursor is outside the requested range")
  m.scanSnapshot start stop limit cursor

def scanPrefix (m : RedbStateMachine) (start : Bytes) (limit : Nat) (cursor : Option Bytes) :
    Except ScanError KvScanResult := do
  validateScanBound "prefix" start
  validateScanCursor cursor
  ensure (cursor.all fun cursor => decide (start <+: cursor))
    (.invalidQuery "cursor does not belong to the requested prefix")
  m.scanSnapshot start (prefixSuccessor start) limit cursor

end RedbStateMachine

theorem bytes_irrefl (key : Bytes) : ¬ key < key := List.lt_irrefl key

theorem bytes_trans {a b c : Bytes} (h : a < b) (h' : b < c) : a < c := List.lt_trans h h'

theorem bytes_asymm {a b : Bytes} (h : a < b) : ¬ b < a := fun h' => bytes_irrefl a (bytes_trans h h')

theorem bytes_total {a b : Bytes} (hNe : a ≠ b) (hNot : ¬ a < b) : b < a := by
  by_contra hOther
  exact hNe (List.le_antisymm (List.not_lt.mp hOther) (List.not_lt.mp hNot))

theorem bytes_le_trans {a b c : Bytes} (h : ¬ b < a) (h' : b < c) : ¬ c < a :=
  fun hLess => h (bytes_trans h' hLess)

theorem prefixSuccessor_cons (byte : UInt8) (rest : Bytes) : prefixSuccessor (byte :: rest) =
    (prefixSuccessor rest).elim (if byte = 255 then none else some [byte + 1])
      fun successor => some (byte :: successor) := by
  unfold prefixSuccessor
  rw [List.reverse_cons, List.dropWhile_append]
  cases hDrop : rest.reverse.dropWhile (· = 255) with
  | nil =>
    rw [List.isEmpty_nil, if_pos rfl, Option.elim_none, List.dropWhile_cons]
    by_cases hByte : byte = 255
    · rw [if_pos (decide_eq_true hByte), if_pos hByte]
      rfl
    · rw [if_neg (by simpa using hByte), if_neg hByte]
      rfl
  | cons last front =>
    rw [List.isEmpty_cons, if_neg Bool.false_ne_true, Option.elim_some]
    simp

theorem lt_succ_byte {a b : UInt8} (hByte : a ≠ 255) : b < a + 1 ↔ b < a ∨ b = a := by
  have hNat : a.toNat ≠ 255 := fun hSame => hByte (UInt8.toNat_inj.mp hSame)
  have hLess := a.toNat_lt
  rw [UInt8.lt_iff_toNat_lt, UInt8.lt_iff_toNat_lt, ← UInt8.toNat_inj, UInt8.toNat_add]
  have hOne : (1 : UInt8).toNat = 1 := rfl
  omega

theorem eq_of_not_lt_max {a : UInt8} (h : ¬ a < 255) : a = 255 := by
  have hLess := a.toNat_lt
  rw [UInt8.lt_iff_toNat_lt] at h
  have hMax : (255 : UInt8).toNat = 255 := rfl
  rw [← UInt8.toNat_inj]
  omega

theorem byte_irrefl (a : UInt8) : ¬ a < a := by
  rw [UInt8.lt_iff_toNat_lt]
  exact Nat.lt_irrefl _

theorem prefix_iff (start key : Bytes) :
    start <+: key ↔ ¬ key < start ∧ ∀ stop ∈ prefixSuccessor start, key < stop := by
  induction start generalizing key with
  | nil => simp [prefixSuccessor]
  | cons byte rest ih =>
    cases key with
    | nil => simp
    | cons k ks =>
      rw [List.cons_prefix_cons, ih ks, prefixSuccessor_cons, List.cons_lt_cons_iff]
      have hIrrefl := byte_irrefl k
      cases hRest : prefixSuccessor rest with
      | some successor =>
        simp only [Option.elim_some, Option.mem_def, Option.some.injEq, forall_eq',
          List.cons_lt_cons_iff]
        constructor
        · rintro ⟨rfl, hNot, hLess⟩
          exact ⟨fun h => h.elim hIrrefl fun h => hNot h.2, .inr ⟨rfl, hLess⟩⟩
        · rintro ⟨hNot, hLess | ⟨rfl, hLess⟩⟩
          · exact absurd (.inl hLess) hNot
          · exact ⟨rfl, fun h => hNot (.inr ⟨rfl, h⟩), hLess⟩
      | none =>
        by_cases hByte : byte = 255
        · subst hByte
          simp only [Option.elim_none, if_true, Option.mem_def, reduceCtorEq, false_implies,
            implies_true, and_true]
          constructor
          · rintro ⟨rfl, hNot⟩ h
            exact h.elim hIrrefl fun h => hNot h.2
          · intro hNot
            obtain rfl := eq_of_not_lt_max fun h => hNot (.inl h)
            exact ⟨rfl, fun h => hNot (.inr ⟨rfl, h⟩)⟩
        · simp only [Option.elim_none, if_neg hByte, Option.mem_def, Option.some.injEq, forall_eq',
            List.cons_lt_cons_iff, lt_succ_byte hByte, List.not_lt_nil, and_false, or_false,
            reduceCtorEq, false_implies, implies_true, and_true]
          constructor
          · rintro ⟨rfl, hNot⟩
            exact ⟨fun h => h.elim hIrrefl fun h => hNot h.2, .inr rfl⟩
          · rintro ⟨hNot, hLess | rfl⟩
            · exact absurd (.inl hLess) hNot
            · exact ⟨rfl, fun h => hNot (.inr ⟨rfl, h⟩)⟩

def bytesOf (rows : List (Bytes × Bytes)) : Nat := (rows.map rowBytes).sum

def Admitted (row : Bytes × Bytes) : Prop :=
  row.1 ≠ [] ∧ row.1.length ≤ maxKvKeyBytes ∧ row.2.length ≤ maxKvValueBytes

theorem Admitted.rowBytes_le {row : Bytes × Bytes} (h : Admitted row) :
    rowBytes row ≤ maxKvKeyBytes + maxKvValueBytes := Nat.add_le_add h.2.1 h.2.2

theorem fillPage_spec {limit : Nat} {entries rows : List (Bytes × Bytes)}
    (hRows : ∀ row ∈ entries, Admitted row) (hLimit : rows.length ≤ limit)
    (hBytes : bytesOf rows ≤ maxKvScanResultBytes) :
    ∃ taken rest, entries = taken ++ rest ∧
      fillPage limit rows (bytesOf rows) entries = .ok (rows ++ taken, decide (rest ≠ [])) ∧
      (rows ++ taken).length ≤ limit ∧ bytesOf (rows ++ taken) ≤ maxKvScanResultBytes ∧
      (rows = [] → 0 < limit → rest ≠ [] → taken ≠ []) := by
  induction entries generalizing rows with
  | nil =>
    refine ⟨[], [], rfl, ?_, ?_, ?_, ?_⟩
    · rw [List.append_nil]
      rfl
    · rwa [List.append_nil]
    · rwa [List.append_nil]
    · intro _ _ hRest
      exact absurd rfl hRest
  | cons row entries ih =>
    obtain ⟨hRow, hEntries⟩ := List.forall_mem_cons.mp hRows
    have hSize := hRow.rowBytes_le
    have hMost : maxKvKeyBytes + maxKvValueBytes ≤ maxKvScanResultBytes := by decide
    have hBound : maxKvScanResultBytes + maxKvScanResultBytes < u64Bound := by decide
    have hRowFits : rowBytes row < u64Bound := by omega
    have hSumFits : bytesOf rows + rowBytes row < u64Bound := by omega
    rw [fillPage, ensure_of hRowFits, ok_bind, ensure_of hSumFits, ok_bind]
    by_cases hFull : rows.length = limit ∨ maxKvScanResultBytes < bytesOf rows + rowBytes row
    · rw [if_pos hFull]
      refine ⟨[], row :: entries, rfl, ?_, ?_, ?_, ?_⟩
      · rw [List.append_nil, decide_eq_true (List.cons_ne_nil row entries)]
      · rwa [List.append_nil]
      · rwa [List.append_nil]
      · rintro rfl hPositive -
        rcases hFull with hLength | hOver
        · exact absurd hLength (Nat.ne_of_lt hPositive)
        · have hNothing : bytesOf [] = 0 := rfl
          omega
    · rw [if_neg hFull]
      obtain ⟨hNotLimit, hNotOver⟩ := not_or.mp hFull
      have hSum : bytesOf (rows ++ [row]) = bytesOf rows + rowBytes row := by
        simp [bytesOf]
      have hLength : (rows ++ [row]).length ≤ limit := by
        rw [List.length_append, List.length_singleton]
        omega
      obtain ⟨taken, rest, hSplit, hPage, hRowsLimit, hBytesLimit, -⟩ :=
        ih hEntries hLength (hSum ▸ Nat.not_lt.mp hNotOver)
      rw [hSum, List.append_assoc, List.singleton_append] at hPage
      rw [List.append_assoc, List.singleton_append] at hRowsLimit hBytesLimit
      refine ⟨row :: taken, rest, ?_, hPage, hRowsLimit, hBytesLimit, fun _ _ _ => List.cons_ne_nil _ _⟩
      rw [hSplit, List.cons_append]

end Rhiza.Kv
