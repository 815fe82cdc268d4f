import Rhiza.Kv.Canonical
import Rhiza.Kv.ExactlyOnce
import Rhiza.Kv.Scan

/-! # The pages of a scan

On a database that a run has built, the pages that are read by following the cursors
are the range, in the order of its keys.
-/

namespace Rhiza.Kv

open Core Library

theorem validate_of_decodeReplicated {payload : Bytes} {members : List DecodedKvCommand}
    (h : decodeReplicatedKvCommands payload = .ok members) :
    ∀ member ∈ members, member.command.validate = .ok () := by
  intro member hMember
  have hEncode := (decodeReplicatedKvCommands_iff.mp h).1 member hMember
  obtain ⟨⟨⟩, hValid, -⟩ := bind_ok_iff.mp hEncode
  exact hValid

theorem validate_of_servedBy {entry : LogEntry} {served : Served} (h : served ∈ servedBy entry) :
    served.2.command.validate = .ok () := by
  unfold servedBy at h
  split at h
  · rename_i commands hCommands
    obtain ⟨member, hMember, rfl⟩ := List.mem_map.mp h
    unfold decodedCommands at hCommands
    split at hCommands
    · exact validate_of_decodeReplicated hCommands member hMember
    · cases hCommands
      cases hMember
  · cases h

theorem mem_of_mem_firstOnly {requests : List Served} {served : Served}
    (h : served ∈ firstOnly requests) : served ∈ requests := by
  induction requests using List.reverseRecOn with
  | nil => exact h
  | append_singleton requests last ih =>
    rw [firstOnly_concat] at h
    split at h
    · exact List.mem_append_left _ (ih h)
    · exact (List.mem_append.mp h).elim (fun h => List.mem_append_left _ (ih h))
        (List.mem_append_right _)

structure Built (data : List (Bytes × Bytes)) : Prop where
  sorted : Assoc.Sorted data
  admitted : ∀ row ∈ data, Admitted row

theorem Built.run {data : List (Bytes × Bytes)} (h : Built data) {command : KvCommandV1}
    (hValid : command.validate = .ok ()) : Built (runOperation data command.operation).2 := by
  have hFields := KvCommandV1.validate_iff.mp hValid
  cases hOperation : command.operation with
  | put key value =>
    have hNew : Admitted (key, value) := by
      have hKeyed := hFields.keyed
      have hKey := hFields.key
      have hValue := hFields.value
      rw [hOperation] at hKeyed hKey hValue
      exact ⟨hKeyed, hKey, of_decide_eq_true hValue⟩
    refine ⟨Assoc.sorted_insert bytes_trans bytes_total h.sorted key value, fun row hRow => ?_⟩
    rcases Assoc.mem_of_mem_insert hRow with rfl | hOld
    · exact hNew
    · exact h.admitted row hOld
  | delete key =>
    refine ⟨h.sorted.sublist List.filter_sublist, fun row hRow => ?_⟩
    exact h.admitted row (List.mem_filter.mp hRow).1

section Runs

variable [Sha256]

theorem built_carryOut {requests : List Served}
    (h : ∀ served ∈ requests, served.2.command.validate = .ok ()) : Built (carryOut requests).data := by
  induction requests using List.reverseRecOn with
  | nil => exact ⟨List.Pairwise.nil, fun _ hRow => absurd hRow List.not_mem_nil⟩
  | append_singleton requests served ih =>
    obtain ⟨hOld, hNew⟩ := List.forall_mem_append.mp h
    rw [carryOut_concat]
    exact (ih hOld).run (hNew served List.mem_cons_self)

theorem Sound.built {id : Identity} {m : RedbStateMachine} {history : List Applied} {since : Nat}
    (h : Sound id m history since) : Built m.tables.data := by
  have hData : m.tables.data = (outcomesOf (history.map (·.1))).data := h.rows.data
  rw [hData]
  refine built_carryOut fun served hServed => ?_
  obtain ⟨entry, -, hEntry⟩ := List.mem_flatMap.mp (mem_of_mem_firstOnly hServed)
  exact validate_of_servedBy hEntry

end Runs

theorem Built.distinct {data : List (Bytes × Bytes)} (h : Built data) : Assoc.Distinct data := by
  refine h.sorted.imp fun {row later} hLess hSame => ?_
  rw [hSame] at hLess
  exact bytes_irrefl _ hLess

theorem Built.mem_iff {data : List (Bytes × Bytes)} (h : Built data) (key value : Bytes) :
    (key, value) ∈ data ↔ Assoc.get data key = some value :=
  ⟨fun hMem => Assoc.get_of_mem h.distinct hMem, Assoc.mem_of_get⟩

def inRange (start : Bytes) (stop : Option Bytes) (row : Bytes × Bytes) : Bool :=
  inScan start stop none row

theorem inRange_iff {start : Bytes} {stop : Option Bytes} {row : Bytes × Bytes} :
    inRange start stop row ↔ ¬ row.1 < start ∧ ∀ stop' ∈ stop, row.1 < stop' := by
  rw [inRange, inScan, Option.elim_none, Bool.and_eq_true, decide_eq_true_eq]
  cases stop <;> simp

def pageOf (result : KvScanResult) : Page Bytes Bytes := ⟨result.rows, result.nextCursor⟩

def WithinLimits (limit : Nat) (rows : List (Bytes × Bytes)) : Prop :=
  rows.length ≤ limit ∧ bytesOf rows ≤ maxKvScanResultBytes

variable {m : RedbStateMachine} {start : Bytes} {stop : Option Bytes} {limit : Nat} {tip : LogAnchor}

theorem filter_inScan {data : List (Bytes × Bytes)} {cursor : Option Bytes}
    (hCursor : ∀ key ∈ cursor, ¬ key < start) :
    data.filter (inScan start stop cursor) = after cursor (data.filter (inRange start stop)) := by
  rw [after, List.filter_filter]
  refine List.filter_congr fun row _ => ?_
  cases cursor with
  | none => rw [inRange, Option.all_none, Bool.true_and]
  | some key =>
    rw [Bool.eq_iff_iff, Bool.and_eq_true, inRange_iff, inScan, Option.elim_some, Bool.and_eq_true,
      Option.all_some]
    have hStart := hCursor key rfl
    constructor
    · rintro ⟨hBehind, hStop⟩
      refine ⟨hBehind, bytes_le_trans hStart (of_decide_eq_true hBehind), fun stop' hMem => ?_⟩
      rw [Option.mem_def.mp hMem] at hStop
      exact of_decide_eq_true hStop
    · rintro ⟨hBehind, -, hStop⟩
      refine ⟨hBehind, ?_⟩
      cases stop with
      | none => rfl
      | some stop' => exact decide_eq_true (hStop stop' rfl)

theorem filter_of_empty {data : List (Bytes × Bytes)}
    (hEmpty : (stop.any fun stop => decide (¬ start < stop)) = true) :
    data.filter (inRange start stop) = [] := by
  refine List.filter_eq_nil_iff.mpr fun row _ hIn => ?_
  cases stop with
  | none => cases hEmpty
  | some stop' =>
    obtain ⟨hStart, hStop⟩ := inRange_iff.mp hIn
    have hLess := hStop stop' rfl
    refine of_decide_eq_true hEmpty ?_
    by_cases hSame : row.1 = start
    · rwa [hSame] at hLess
    · exact bytes_trans (bytes_total hSame hStart) hLess

theorem scanSnapshot_page (hBuilt : Built m.tables.data) (hTip : readTip m.tables.progress = .ok tip)
    (hLimit : 1 ≤ limit ∧ limit ≤ maxKvScanRows) {cursor : Option Bytes}
    (hCursor : ∀ key ∈ cursor, ¬ key < start) :
    ∃ taken rest, after cursor (m.tables.data.filter (inRange start stop)) = taken ++ rest ∧
      pageOf <$> m.scanSnapshot start stop limit cursor =
        .ok ⟨taken, if rest = [] then none else taken.getLast?.map (·.1)⟩ ∧
      (rest ≠ [] → taken ≠ []) ∧ WithinLimits limit taken := by
  rw [RedbStateMachine.scanSnapshot, ensure_of hLimit, ok_bind, hTip, Except.mapError, ok_bind]
  by_cases hEmpty : (stop.any fun stop => decide (¬ start < stop)) = true
  · rw [if_pos hEmpty, filter_of_empty hEmpty]
    exact ⟨[], [], rfl, rfl, fun hRest => absurd rfl hRest, Nat.zero_le _, Nat.zero_le _⟩
  · rw [if_neg hEmpty, filter_inScan hCursor]
    have hAdmitted : ∀ row ∈ after cursor (m.tables.data.filter (inRange start stop)), Admitted row :=
      fun row hRow => hBuilt.admitted row (List.mem_filter.mp (List.mem_filter.mp hRow).1).1
    have hEmptyLimit : ([] : List (Bytes × Bytes)).length ≤ limit := Nat.zero_le limit
    have hEmptyBytes : bytesOf [] ≤ maxKvScanResultBytes := Nat.zero_le _
    obtain ⟨taken, rest, hSplit, hPage, hRows, hBytes, hProgress⟩ :=
      fillPage_spec hAdmitted hEmptyLimit hEmptyBytes
    rw [List.nil_append] at hPage hRows hBytes
    have hNonempty := hProgress rfl hLimit.1
    refine ⟨taken, rest, hSplit, ?_, hNonempty, hRows, hBytes⟩
    have hStart : bytesOf [] = 0 := rfl
    rw [hStart] at hPage
    rw [hPage, ok_bind]
    dsimp only
    have hFits : ¬ (decide (rest ≠ []) = true ∧ taken = []) := fun h =>
      hNonempty (of_decide_eq_true h.1) h.2
    rw [ensure_of hFits, ok_bind]
    by_cases hRest : rest = []
    · have hNoMore : ¬ decide (rest ≠ []) = true := fun h => of_decide_eq_true h hRest
      rw [if_pos hRest, if_neg hNoMore]
      rfl
    · rw [if_neg hRest, if_pos (decide_eq_true hRest)]
      rfl

theorem scanRange_fills (hBuilt : Built m.tables.data) (hTip : readTip m.tables.progress = .ok tip)
    (hLimit : 1 ≤ limit ∧ limit ≤ maxKvScanRows) (hStart : start.length ≤ maxKvKeyBytes)
    (hStop : ∀ stop' ∈ stop, stop'.length ≤ maxKvKeyBytes) :
    Fills (fun cursor => pageOf <$> m.scanRange start stop limit cursor)
      (m.tables.data.filter (inRange start stop)) (WithinLimits limit) := by
  refine ⟨fun cursor hCursor => ?_⟩
  have hKey : ∀ key ∈ cursor, validateScanCursor (some key) = .ok () ∧ ¬ key < start ∧
      ∀ stop' ∈ stop, key < stop' := by
    intro key hMem
    obtain ⟨value, hRow⟩ := hCursor key hMem
    obtain ⟨hData, hIn⟩ := List.mem_filter.mp hRow
    obtain ⟨hNonempty, hLength, -⟩ := hBuilt.admitted _ hData
    obtain ⟨hAhead, hBefore⟩ := inRange_iff.mp hIn
    refine ⟨?_, hAhead, hBefore⟩
    rw [validateScanCursor, ensure_of hNonempty, ok_bind, validateScanBound, ensure_of hLength]
  have hBounds : stop.elim (.ok ()) (validateScanBound "range end") = .ok () := by
    cases stop with
    | none => rfl
    | some stop' => exact ensure_of (hStop stop' rfl)
  have hValid : validateScanCursor cursor = .ok () := by
    cases cursor with
    | none => rfl
    | some key => exact (hKey key rfl).1
  have hInside : ¬ (cursor.any fun cursor =>
      decide (cursor < start) || stop.any fun stop => decide (¬ cursor < stop)) = true := by
    cases cursor with
    | none => exact Bool.false_ne_true
    | some key =>
      obtain ⟨-, hAhead, hBefore⟩ := hKey key rfl
      rw [Option.any_some, Bool.or_eq_true, decide_eq_true_eq]
      rintro (hLess | hOver)
      · exact hAhead hLess
      · cases stop with
        | none => cases hOver
        | some stop' => exact of_decide_eq_true hOver (hBefore stop' rfl)
  have hScan : m.scanRange start stop limit cursor = m.scanSnapshot start stop limit cursor := by
    rw [RedbStateMachine.scanRange, validateScanBound, ensure_of hStart, ok_bind, hBounds, ok_bind,
      hValid, ok_bind, ensure_of hInside, ok_bind]
  rw [hScan]
  exact scanSnapshot_page hBuilt hTip hLimit fun key hMem => (hKey key hMem).2.1

theorem scanPrefix_fills (hBuilt : Built m.tables.data) (hTip : readTip m.tables.progress = .ok tip)
    (hLimit : 1 ≤ limit ∧ limit ≤ maxKvScanRows) (hStart : start.length ≤ maxKvKeyBytes) :
    Fills (fun cursor => pageOf <$> m.scanPrefix start limit cursor)
      (m.tables.data.filter (inRange start (prefixSuccessor start))) (WithinLimits limit) := by
  refine ⟨fun cursor hCursor => ?_⟩
  have hKey : ∀ key ∈ cursor, validateScanCursor (some key) = .ok () ∧ start <+: key := by
    intro key hMem
    obtain ⟨value, hRow⟩ := hCursor key hMem
    obtain ⟨hData, hIn⟩ := List.mem_filter.mp hRow
    obtain ⟨hNonempty, hLength, -⟩ := hBuilt.admitted _ hData
    refine ⟨?_, (prefix_iff start key).mpr (inRange_iff.mp hIn)⟩
    rw [validateScanCursor, ensure_of hNonempty, ok_bind, validateScanBound, ensure_of hLength]
  have hValid : validateScanCursor cursor = .ok () := by
    cases cursor with
    | none => rfl
    | some key => exact (hKey key rfl).1
  have hBelongs : (cursor.all fun cursor => decide (start <+: cursor)) = true := by
    cases cursor with
    | none => rfl
    | some key => exact decide_eq_true (hKey key rfl).2
  have hScan : m.scanPrefix start limit cursor =
      m.scanSnapshot start (prefixSuccessor start) limit cursor := by
    rw [RedbStateMachine.scanPrefix, validateScanBound, ensure_of hStart, ok_bind, hValid, ok_bind,
      ensure_of hBelongs, ok_bind]
  rw [hScan]
  exact scanSnapshot_page hBuilt hTip hLimit fun key hMem =>
    ((prefix_iff start key).mp (hKey key hMem).2).1

def Paginates (scan : Option Bytes → Except ScanError KvScanResult) (limit : Nat)
    (data : List (Bytes × Bytes)) (Wanted : Bytes → Prop) : Prop :=
  ∃ pages, Follows (fun cursor => pageOf <$> scan cursor) none pages ∧
    Assoc.Sorted (pages.flatMap (·.rows)) ∧
    (∀ key value, (key, value) ∈ pages.flatMap (·.rows) ↔
      Assoc.get data key = some value ∧ Wanted key) ∧
    ∀ page ∈ pages, WithinLimits limit page.rows

theorem Built.paginates {scan : Option Bytes → Except ScanError KvScanResult}
    {data : List (Bytes × Bytes)} (h : Built data) (hFills : Fills (fun cursor => pageOf <$> scan cursor)
      (data.filter (inRange start stop)) (WithinLimits limit)) :
    Paginates scan limit data fun key => ¬ key < start ∧ ∀ stop' ∈ stop, key < stop' := by
  have hSorted : Assoc.Sorted (data.filter (inRange start stop)) :=
    h.sorted.sublist List.filter_sublist
  obtain ⟨pages, hFollows, hRows, hLimits⟩ := hFills.follows bytes_irrefl bytes_asymm hSorted
  refine ⟨pages, hFollows, hRows ▸ hSorted, fun key value => ?_, hLimits⟩
  rw [hRows, List.mem_filter, h.mem_iff, inRange_iff]

/-- Scans of a database that a run has built. Where the bounds are not longer than a key may be,
following the cursors of a range gives its rows, and following those of a prefix the rows whose keys
start with it. -/
theorem scans_are_exact [Sha256] [Redb] {history : List Applied} {since : Nat}
    (h : Reached m history since) (hLimit : 1 ≤ limit ∧ limit ≤ maxKvScanRows) :
    (∀ start stop, start.length ≤ maxKvKeyBytes → (∀ stop' ∈ stop, stop'.length ≤ maxKvKeyBytes) →
      Paginates (m.scanRange start stop limit) limit m.tables.data
        fun key => ¬ key < start ∧ ∀ stop' ∈ stop, key < stop') ∧
    ∀ start, start.length ≤ maxKvKeyBytes →
      Paginates (m.scanPrefix start limit) limit m.tables.data fun key => start <+: key := by
  obtain ⟨id, hSound⟩ := h.sound
  obtain ⟨known, hHolds⟩ := hSound.holds
  have hBuilt := hSound.built
  have hTip : readTip m.tables.progress = .ok (tipOf (history.map (·.1))) := by
    rw [readTip, hHolds.readU64Meta, ok_bind, hHolds.readHashMeta, ok_bind]
  constructor
  · intro start stop hStart hStop
    exact hBuilt.paginates (scanRange_fills hBuilt hTip hLimit hStart hStop)
  · intro start hStart
    have hPages := hBuilt.paginates (scanPrefix_fills hBuilt hTip hLimit hStart)
    simp only [← prefix_iff] at hPages
    exact hPages

namespace Restored

attribute [local instance] Sha256.rolling file

/-- Two rows under a prefix that has no successor, read one by one. -/
theorem third_is_scanned : Reached third history 1 ∧
    third.tables.data = [([255], [2]), ([255, 0], [3])] ∧
    Paginates (third.scanPrefix [255] 1) 1 third.tables.data fun key => [255] <+: key :=
  ⟨third_reached, by decide +kernel, (scans_are_exact third_reached (by decide)).2 [255] (by decide)⟩

def long : Bytes := List.replicate 4097 0

/-- A prefix that no key can have is refused instead of giving an empty page. -/
theorem long_prefix_is_refused : ∃ m history since start, Reached m history since ∧
    (1 ≤ maxKvScanRows ∧ ¬ Paginates (m.scanPrefix start 1) 1 m.tables.data fun key => start <+: key) := by
  refine ⟨third, _, 1, long, third_reached, by decide, ?_⟩
  have hError : third.scanPrefix long 1 none =
      .error (.invalidQuery ("prefix" ++ " exceeds " ++ toString maxKvKeyBytes ++ " bytes")) := by
    have hLong : ¬ long.length ≤ maxKvKeyBytes := by
      rw [long, List.length_replicate]
      decide
    rw [RedbStateMachine.scanPrefix, validateScanBound, ensure, if_neg hLong]
    rfl
  rintro ⟨pages, hFollows, -⟩
  cases hFollows with
  | last hPage _ =>
    rw [hError] at hPage
    cases hPage
  | more hPage _ _ =>
    rw [hError] at hPage
    cases hPage

end Restored

end Rhiza.Kv
