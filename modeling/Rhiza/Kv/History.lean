import Mathlib.Data.List.Induction
import Rhiza.Kv.Snapshot

/-! # What a database was built from

The history of a database lists the entries that it has applied, each with its outcome.
The data and the receipts are those of the requests in it, each carried out once.
-/

namespace Rhiza.Kv

open Core Library

abbrev Served := LogEntry × DecodedKvCommand

def Served.requestId (served : Served) : String := served.2.command.requestId

def firstOnly (requests : List Served) : List Served :=
  requests.foldl (fun kept served =>
    if served.requestId ∈ kept.map (·.requestId) then kept else kept ++ [served]) []

theorem firstOnly_concat (requests : List Served) (served : Served) :
    firstOnly (requests ++ [served]) =
      if served.requestId ∈ (firstOnly requests).map (·.requestId) then firstOnly requests
      else firstOnly requests ++ [served] := by
  rw [firstOnly, List.foldl_append, List.foldl_cons, List.foldl_nil]
  rfl

theorem mem_firstOnly_ids (requests : List Served) (requestId : String) :
    requestId ∈ (firstOnly requests).map (·.requestId) ↔ requestId ∈ requests.map (·.requestId) := by
  induction requests using List.reverseRecOn with
  | nil => exact Iff.rfl
  | append_singleton requests served ih =>
    rw [firstOnly_concat, List.map_append, List.map_singleton, List.mem_append, List.mem_singleton, ← ih]
    split
    · rename_i hKnown
      exact ⟨.inl, fun h => h.elim id fun hSame => hSame ▸ hKnown⟩
    · rw [List.map_append, List.map_singleton, List.mem_append, List.mem_singleton]

section Outcomes

variable [Sha256]

structure Outcomes where
  data : List (Bytes × Bytes)
  receipts : List (String × KvRequestRecord)

def receiptOf (data : List (Bytes × Bytes)) (served : Served) : KvRequestRecord :=
  ⟨LogHash.digest [served.2.individualPayload], served.1.index, served.1.hash,
    (runOperation data served.2.command.operation).1⟩

def Outcomes.add (outcomes : Outcomes) (served : Served) : Outcomes :=
  ⟨(runOperation outcomes.data served.2.command.operation).2,
    outcomes.receipts ++ [(served.requestId, receiptOf outcomes.data served)]⟩

def carryOut (requests : List Served) : Outcomes := requests.foldl Outcomes.add ⟨[], []⟩

def servedBy (entry : LogEntry) : List Served :=
  match decodedCommands entry with
  | .ok commands => commands.map (entry, ·)
  | .error _ => []

/-- What the requests of some entries come to, each of them carried out once. -/
def outcomesOf (entries : List LogEntry) : Outcomes :=
  carryOut (firstOnly (entries.flatMap servedBy))

theorem carryOut_concat (requests : List Served) (served : Served) :
    carryOut (requests ++ [served]) = (carryOut requests).add served := by
  simp only [carryOut, List.foldl_append, List.foldl_cons, List.foldl_nil]

theorem carryOut_keys (requests : List Served) :
    (carryOut requests).receipts.map (·.1) = requests.map (·.requestId) := by
  induction requests using List.reverseRecOn with
  | nil => rfl
  | append_singleton requests served ih =>
    rw [carryOut_concat, List.map_append, ← ih]
    simp [Outcomes.add]

def FirstServed (requests : List Served) (requestId : String) (record : KvRequestRecord) : Prop :=
  ∃ before served later, requests = before ++ served :: later ∧
    (∀ other ∈ before, other.requestId ≠ requestId) ∧ served.requestId = requestId ∧
    record = receiptOf (carryOut (firstOnly before)).data served

theorem firstServed_concat {requests : List Served} {served : Served} {requestId : String}
    {record : KvRequestRecord} : FirstServed (requests ++ [served]) requestId record ↔
      FirstServed requests requestId record ∨ (∀ other ∈ requests, other.requestId ≠ requestId) ∧
        served.requestId = requestId ∧ record = receiptOf (carryOut (firstOnly requests)).data served := by
  constructor
  · rintro ⟨before, first, later, hSplit, hBefore, hId, hRecord⟩
    rcases List.eq_nil_or_concat later with rfl | ⟨rest, last, rfl⟩
    · obtain ⟨rfl, hLast⟩ := List.append_inj' hSplit rfl
      obtain rfl := List.singleton_inj.mp hLast
      exact .inr ⟨hBefore, hId, hRecord⟩
    · rw [List.concat_eq_append, ← List.cons_append, ← List.append_assoc] at hSplit
      obtain ⟨rfl, -⟩ := List.append_inj' hSplit rfl
      exact .inl ⟨before, first, rest, rfl, hBefore, hId, hRecord⟩
  · rintro (⟨before, first, later, rfl, hBefore, hId, hRecord⟩ | ⟨hBefore, hId, hRecord⟩)
    · exact ⟨before, first, later ++ [served], List.append_assoc _ _ _, hBefore, hId, hRecord⟩
    · exact ⟨requests, served, [], rfl, hBefore, hId, hRecord⟩

theorem get_receipts_iff {requests : List Served} {requestId : String} {record : KvRequestRecord} :
    Assoc.get (carryOut (firstOnly requests)).receipts requestId = some record ↔
      FirstServed requests requestId record := by
  induction requests using List.reverseRecOn with
  | nil =>
    constructor
    · intro h
      cases h
    · rintro ⟨before, first, later, hSplit, -⟩
      cases (List.append_eq_nil_iff.mp hSplit.symm).2
  | append_singleton requests served ih =>
    rw [firstServed_concat, ← ih, firstOnly_concat]
    have hOld : ∀ id, id ∈ (firstOnly requests).map (·.requestId) ↔ ∃ other ∈ requests, other.requestId = id :=
      fun id => (mem_firstOnly_ids requests id).trans List.mem_map
    split
    · rename_i hKnown
      obtain ⟨other, hOther, hSame⟩ := (hOld _).mp hKnown
      constructor
      · exact .inl
      · rintro (h | ⟨hNone, hId, -⟩)
        · exact h
        · exact absurd (hSame.trans hId) (hNone other hOther)
    · rename_i hNew
      rw [carryOut_concat, Outcomes.add, Assoc.get_append]
      cases hGet : Assoc.get (carryOut (firstOnly requests)).receipts requestId with
      | some first =>
        have hMem : requestId ∈ (firstOnly requests).map (·.requestId) := by
          rw [← carryOut_keys]
          exact List.mem_map.mpr ⟨_, Assoc.mem_of_get hGet, rfl⟩
        obtain ⟨other, hOther, hSame⟩ := (hOld _).mp hMem
        rw [Option.some_or]
        constructor
        · exact .inl
        · rintro (h | ⟨hNone, -⟩)
          · exact h
          · exact absurd hSame (hNone other hOther)
      | none =>
        rw [Option.none_or, Assoc.get]
        constructor
        · intro h
          split at h
          · rename_i hId
            refine .inr ⟨fun other hOther hSame => hNew ((hOld _).mpr ⟨other, hOther, ?_⟩), hId.symm,
              (Option.some.inj h).symm⟩
            exact hSame.trans hId
          · cases h
        · rintro (h | ⟨-, hId, rfl⟩)
          · cases h
          · rw [if_pos hId.symm]

theorem carryOut_data (requests : List Served) : (carryOut requests).data =
    (requests.map (·.2.command.operation)).foldl (fun data operation => (runOperation data operation).2)
      [] := by
  induction requests using List.reverseRecOn with
  | nil => rfl
  | append_singleton requests served ih =>
    rw [carryOut_concat, List.map_append, List.foldl_append, ← ih]
    rfl

structure Rows.Hold (rows : Rows) (outcomes : Outcomes) : Prop where
  data : rows.data = outcomes.data
  receipts : ∀ requestId,
    readRequest rows.requests requestId = .ok (Assoc.get outcomes.receipts requestId)

theorem applyCommand_holds {entry : LogEntry} {rows rows' : Rows} {requests : List Served}
    {member : DecodedKvCommand} {result : KvCommandResultV1} (hIndex : entry.index < u64Bound)
    (hRows : rows.Hold (carryOut (firstOnly requests)))
    (h : applyCommand entry rows member = .ok (result, rows')) :
    rows'.Hold (carryOut (firstOnly (requests ++ [(entry, member)]))) ∧
      ∃ record, readRequest rows'.requests member.command.requestId = .ok (some record) ∧
        record.payloadHash = LogHash.digest [member.individualPayload] ∧ record.result = result := by
  have hKeys := carryOut_keys (firstOnly requests)
  rw [applyCommand, hRows.receipts, ok_bind] at h
  rw [firstOnly_concat]
  cases hGet : Assoc.get (carryOut (firstOnly requests)).receipts member.command.requestId with
  | some record =>
    have hKnown : Served.requestId (entry, member) ∈ (firstOnly requests).map (·.requestId) := by
      rw [← hKeys]
      exact List.mem_map.mpr ⟨_, Assoc.mem_of_get hGet, rfl⟩
    rw [hGet] at h
    simp only [bind_ok_iff, exists_ensure_iff] at h
    obtain ⟨hSame, h⟩ := h
    cases h
    rw [if_pos hKnown]
    refine ⟨hRows, record, ?_, hSame, rfl⟩
    rw [hRows.receipts, hGet]
  | none =>
    have hNew : Served.requestId (entry, member) ∉ (firstOnly requests).map (·.requestId) := by
      rw [← hKeys]
      intro hMem
      obtain ⟨receipt, hReceipt, hId⟩ := List.mem_map.mp hMem
      have hSome := Assoc.isSome_of_mem hReceipt
      have hKey : receipt.1 = member.command.requestId := hId
      rw [hKey, hGet] at hSome
      cases hSome
    rw [hGet] at h
    cases h
    rw [if_neg hNew, carryOut_concat]
    have hDecode : KvRequestRecord.decode (receiptOf rows.data (entry, member)).encode =
        .ok (receiptOf rows.data (entry, member)) := KvRequestRecord.decode_encode hIndex
    have hRead : readRequest (Assoc.insert (utf8 member.command.requestId)
        (receiptOf rows.data (entry, member)).encode rows.requests) member.command.requestId =
        .ok (some (receiptOf rows.data (entry, member))) := by
      rw [readRequest, Assoc.get_insert, if_pos rfl]
      simp only [hDecode, ok_bind]
    refine ⟨⟨?_, ?_⟩, _, hRead, rfl, rfl⟩
    · dsimp only
      rw [hRows.data]
      rfl
    · intro requestId
      rw [Outcomes.add, Assoc.get_append, ← hRows.data, Assoc.get]
      by_cases hSame : requestId = member.command.requestId
      · subst hSame
        rw [hGet, Option.none_or, Served.requestId, if_pos rfl]
        exact hRead
      · rw [Served.requestId, if_neg hSame, Assoc.get, Option.or_none, ← hRows.receipts, readRequest,
          Assoc.get_insert, if_neg fun hUtf8 => hSame (utf8_inj.mp hUtf8)]
        rfl

theorem receipt_kept {entry : LogEntry} {rows rows' : Rows} {requestId : String}
    {record : KvRequestRecord} {members : List DecodedKvCommand} {results : List KvCommandResultV1}
    (hRead : readRequest rows.requests requestId = .ok (some record))
    (h : applyCommands entry rows members = .ok (results, rows')) :
    readRequest rows'.requests requestId = .ok (some record) := by
  induction members generalizing rows results with
  | nil =>
    cases h
    exact hRead
  | cons member members ih =>
    rw [applyCommands] at h
    obtain ⟨⟨result, next⟩, hNext, h⟩ := bind_ok_iff.mp h
    obtain ⟨⟨rest, last⟩, hRest, h⟩ := bind_ok_iff.mp h
    cases h
    refine ih ?_ hRest
    rw [applyCommand] at hNext
    obtain ⟨known, hKnown, hNext⟩ := bind_ok_iff.mp hNext
    cases known with
    | some other =>
      simp only [bind_ok_iff, exists_ensure_iff] at hNext
      obtain ⟨-, hNext⟩ := hNext
      cases hNext
      exact hRead
    | none =>
      cases hNext
      have hOther : requestId ≠ member.command.requestId := by
        rintro rfl
        cases hKnown.symm.trans hRead
      rw [readRequest, Assoc.get_insert, if_neg fun hUtf8 => hOther (utf8_inj.mp hUtf8)]
      exact hRead

theorem applyCommands_holds {entry : LogEntry} {rows rows' : Rows} {requests : List Served}
    {members : List DecodedKvCommand} {results : List KvCommandResultV1}
    (hIndex : entry.index < u64Bound) (hRows : rows.Hold (carryOut (firstOnly requests)))
    (h : applyCommands entry rows members = .ok (results, rows')) :
    rows'.Hold (carryOut (firstOnly (requests ++ members.map (entry, ·)))) ∧
      replayedResults rows'.requests members = .ok results := by
  induction members generalizing rows requests results with
  | nil =>
    cases h
    rw [List.map_nil, List.append_nil]
    exact ⟨hRows, rfl⟩
  | cons member members ih =>
    rw [applyCommands] at h
    obtain ⟨⟨result, next⟩, hNext, h⟩ := bind_ok_iff.mp h
    obtain ⟨⟨rest, last⟩, hRest, h⟩ := bind_ok_iff.mp h
    cases h
    obtain ⟨hHold, record, hRead, hSame, hResult⟩ := applyCommand_holds hIndex hRows hNext
    obtain ⟨hLast, hReplayed⟩ := ih hHold hRest
    rw [List.append_assoc, List.singleton_append] at hLast
    refine ⟨hLast, ?_⟩
    rw [replayedResults, receipt_kept hRead hRest, ok_bind]
    simp only [Option.elim_some, ok_bind, ensure_of hSame, hReplayed, hResult]

theorem applyByType_holds {entry : LogEntry} {rows rows' : Rows} {requests : List Served}
    {commands : List DecodedKvCommand} {result : Option KvCommandResultV1}
    (hIndex : entry.index < u64Bound) (hRows : rows.Hold (carryOut (firstOnly requests)))
    (hCommands : decodedCommands entry = .ok commands)
    (h : applyByType entry rows commands = .ok (result, rows')) :
    rows'.Hold (carryOut (firstOnly (requests ++ servedBy entry))) ∧
      ∃ results, replayedResults rows'.requests commands = .ok results ∧
        result = singleResult results := by
  have hServed : servedBy entry = commands.map (entry, ·) := by
    rw [servedBy, hCommands]
  rw [hServed]
  by_cases hType : entry.entryType = .command
  · rw [applyByType, hType] at h
    obtain ⟨⟨results, last⟩, hApplied, h⟩ := bind_ok_iff.mp h
    cases h
    obtain ⟨hHold, hReplayed⟩ := applyCommands_holds hIndex hRows hApplied
    exact ⟨hHold, results, hReplayed, rfl⟩
  · obtain rfl := decodedCommands_of_ne hType hCommands
    have hNothing : rows' = rows ∧ result = none := by
      cases hEntry : entry.entryType with
      | command => exact absurd hEntry hType
      | noop =>
        simp only [applyByType, hEntry, bind_ok_iff, exists_ensure_iff] at h
        cases h.2
        exact ⟨rfl, rfl⟩
      | configChange =>
        simp only [applyByType, hEntry, bind_ok_iff, exists_ensure_iff] at h
        cases h.2
        exact ⟨rfl, rfl⟩
      | snapshotBarrier =>
        simp only [applyByType, hEntry] at h
        cases h
        exact ⟨rfl, rfl⟩
      | snapshotPublished =>
        simp only [applyByType, hEntry] at h
        cases h
        exact ⟨rfl, rfl⟩
    obtain ⟨rfl, rfl⟩ := hNothing
    rw [List.map_nil, List.append_nil]
    exact ⟨hRows, [], rfl, rfl⟩

end Outcomes

end Rhiza.Kv
