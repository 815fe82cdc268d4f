import Rhiza.Node.Batched

/-! # The loop of a batch

In every turn some of the pending members are carried out, in their order, and
answered. In the end none is pending, and the journal is the one in which all members
were carried out one after the other.
-/

namespace Rhiza.Node

open Rhiza.Core Rhiza.Library

variable {M C R D : Type}

theorem commands_eq (members : List (ProfileMember C)) (indices : List Nat) :
    ProfileBatch.commands members indices = (pick members indices).map (·.command) :=
  (List.map_filterMap ..).symm

namespace ProfileView

variable {p : Profile M C R} {v : ProfileView p D} {m₀ m : M} {n n' : Nat}
  {members : List (ProfileMember C)} {member : ProfileMember C} {scan : Scan R}
  {batch batch' : ProfileBatch M R} {done rest : List Nat}

def AnsweredAt (v : ProfileView p D) (members : List (ProfileMember C)) (batch : ProfileBatch M R)
    (i : Nat) : Prop :=
  ∃ member answer, members[i]? = some member ∧ batch.results[i]? = some (some answer) ∧
    v.Answered batch.node.machine member answer

structure Loops (v : ProfileView p D) (m₀ : M) (members : List (ProfileMember C)) (scan : Scan R)
    (n : Nat) (batch : ProfileBatch M R) : Prop where
  writable : batch.node.refusal = none
  good : v.Good batch.node.machine n
  room : n + batch.pending.length < u64Bound
  short : batch.pending.length ≤ v.limit
  records : v.Extends m₀ batch.node.machine
  journal : v.works.execAll (v.journal batch.node.machine) (pick members batch.pending) =
    v.works.execAll (v.journal m₀) members
  missing : ∀ i ∈ batch.pending, v.unrecorded batch.node.machine members i = true
  distinct : ((pick members batch.pending).map fun member => p.requestId member.command).Nodup
  length : batch.results.length = members.length
  kept : ∀ i, i ∉ scan.queued → batch.results[i]? = scan.results[i]?
  settled : ∀ i ∈ scan.queued, i ∈ batch.pending ∨ v.AnsweredAt members batch i
  within : batch.pending ⊆ scan.queued

theorem Loops.present (h : v.Loops m₀ members scan n batch) {i : Nat} (hi : i ∈ batch.pending) :
    ∃ member, members[i]? = some member := by
  obtain ⟨member, hMember, -⟩ := record_of_unrecorded (h.missing i hi)
  exact ⟨member, hMember⟩

theorem Loops.unrecorded_pick (h : v.Loops m₀ members scan n batch)
    (hMember : member ∈ pick members batch.pending) :
    v.record batch.node.machine (p.requestId member.command) = none := by
  obtain ⟨i, hi, hAt⟩ := mem_pick.mp hMember
  have hMissing := h.missing i hi
  rw [unrecorded_of hAt] at hMissing
  exact Option.isNone_iff_eq_none.mp hMissing

theorem Loops.recorded (h : v.Loops m₀ members scan n batch) {machine : M}
    (hSplit : batch.pending = done ++ rest)
    (hJournal : v.journal machine =
      v.works.execAll (v.journal batch.node.machine) (pick members done)) :
    (∀ i ∈ done, v.unrecorded machine members i = false) ∧
      ∀ i ∈ rest, v.unrecorded machine members i = true := by
  have hDone : ∀ requestId, (v.record machine requestId).isSome ↔
      (v.record batch.node.machine requestId).isSome ∨
        ∃ job ∈ pick members done, requestId = v.works.key job := by
    intro requestId
    rw [← isSome_done, hJournal, Works.isSome_done_execAll, isSome_done]
  constructor
  · intro i hi
    obtain ⟨member, hMember⟩ := h.present (hSplit ▸ List.mem_append_left _ hi)
    have hSome := (hDone (p.requestId member.command)).mpr
      (.inr ⟨member, mem_pick.mpr ⟨i, hi, hMember⟩, rfl⟩)
    rw [unrecorded_of hMember, ← Option.not_isSome, hSome]
    rfl
  · intro i hi
    have hPending : i ∈ batch.pending := hSplit ▸ List.mem_append_right _ hi
    obtain ⟨member, hMember⟩ := h.present hPending
    rw [unrecorded_of hMember, ← Option.not_isSome, Bool.not_eq_true', Bool.eq_false_iff]
    intro hSome
    rcases (hDone _).mp hSome with hOld | ⟨job, hJob, hKey⟩
    · rw [h.unrecorded_pick (mem_pick.mpr ⟨i, hPending, hMember⟩)] at hOld
      cases hOld
    · have hDistinct := h.distinct
      rw [hSplit, pick_append, List.map_append] at hDistinct
      exact (List.nodup_append.mp hDistinct).2.2 _ (List.mem_map_of_mem hJob) _
        (List.mem_map_of_mem (mem_pick.mpr ⟨i, hi, hMember⟩)) hKey.symm

theorem Loops.advance (h : v.Loops m₀ members scan n batch)
    (hSplit : batch.pending = done ++ rest) (hSome : done ≠ [])
    (hRefusal : batch'.node.refusal = none) (hGood : v.Good batch'.node.machine n')
    (hIndex : n' ≤ n + 1)
    (hJournal : v.journal batch'.node.machine =
      v.works.execAll (v.journal batch.node.machine) (pick members done))
    (hRecords : v.Extends batch.node.machine batch'.node.machine) (hPending : batch'.pending = rest)
    (hLength : batch'.results.length = batch.results.length)
    (hKept : ∀ i, i ∉ done → batch'.results[i]? = batch.results[i]?)
    (hAnswered : ∀ i ∈ done, v.AnsweredAt members batch' i) :
    v.Loops m₀ members scan n' batch' := by
  have hCount : 0 < done.length := List.length_pos_iff.mpr hSome
  have hSum : batch.pending.length = done.length + rest.length := by
    rw [hSplit, List.length_append]
  have hRoom := h.room
  have hShort := h.short
  have hDistinct := h.distinct
  rw [hSplit, pick_append, List.map_append] at hDistinct
  refine ⟨hRefusal, hGood, ?_, ?_, h.records.trans hRecords, ?_, ?_, ?_, hLength.trans h.length, ?_, ?_,
    ?_⟩
  · rw [hPending]
    omega
  · rw [hPending]
    omega
  · rw [hJournal, hPending, ← Works.execAll_append, ← pick_append, ← hSplit, h.journal]
  · rw [hPending]
    exact (h.recorded hSplit hJournal).2
  · rw [hPending]
    exact (List.nodup_append.mp hDistinct).2.1
  · intro i hOut
    rw [hKept i fun hIn => hOut (h.within (hSplit ▸ List.mem_append_left _ hIn)), h.kept i hOut]
  · intro i hIn
    by_cases hDone : i ∈ done
    · exact .inr (hAnswered i hDone)
    · rcases h.settled i hIn with hOld | ⟨member, answer, hMember, hResult, hOld⟩
      · rw [hSplit] at hOld
        exact .inl (hPending ▸ (List.mem_append.mp hOld).resolve_left hDone)
      · exact .inr ⟨member, answer, hMember, (hKept i hDone).trans hResult, hOld.extends hRecords⟩
  · rw [hPending]
    exact fun i hi => h.within (hSplit ▸ List.mem_append_right _ hi)

theorem Loops.alone (h : v.Loops m₀ members scan n batch) (hLaws : v.Lawful)
    (hFits : ∀ member ∈ members, v.Fits member) {index : Nat} (hSplit : batch.pending = index :: rest) :
    ∃ n', v.Loops m₀ members scan n'
      { batch.executeAlone p members index with pending := rest } := by
  have hIn : index ∈ batch.pending := hSplit ▸ List.mem_cons_self
  obtain ⟨member, hMember⟩ := h.present hIn
  have hRoom := h.room
  have hLength : batch.pending.length = rest.length + 1 := by rw [hSplit, List.length_cons]
  obtain ⟨answer, m', n', hMutate, hMutated⟩ := hLaws.mutate h.good (by omega)
    (hFits member (List.mem_of_getElem? hMember))
  have hNode : batch.node = ⟨batch.node.machine, none⟩ := by rw [← h.writable]
  have hAlone : batch.executeAlone p members index =
      { batch with node := ⟨m', none⟩ }.answer index answer := by
    unfold ProfileBatch.executeAlone
    rw [hMember]
    dsimp only
    rw [hNode, hMutate]
  have hHere : index < batch.results.length := by
    rw [h.length]
    exact (List.getElem?_eq_some_iff.mp hMember).1
  have hFirst : batch.pending = [index] ++ rest := hSplit
  rw [hAlone]
  refine ⟨n', h.advance hFirst (List.cons_ne_nil _ _) rfl hMutated.good hMutated.index ?_
    hMutated.records rfl List.length_set ?_ ?_⟩
  · rw [pick_cons hMember]
    exact hMutated.journal
  · intro i hOther
    exact List.getElem?_set_ne fun hSame => hOther (List.mem_singleton.mpr hSame.symm)
  · intro i hi
    obtain rfl := List.mem_singleton.mp hi
    exact ⟨member, answer, hMember, List.getElem?_set_self hHere, hMutated.answered⟩

theorem Loops.propose (h : v.Loops m₀ members scan n batch) (hLaws : v.Lawful)
    (hFits : ∀ member ∈ members, v.Fits member) {payload : Bytes}
    (hSplit : batch.pending = done ++ rest) (hSome : done ≠ [])
    (hCarries : p.Carries payload (pick members done)) :
    ∃ n', v.Loops m₀ members scan n' (batch.propose p members done.length payload) ∧
      (batch.propose p members done.length payload).pending = rest := by
  have hCount : 0 < done.length := List.length_pos_iff.mpr hSome
  have hSum : batch.pending.length = done.length + rest.length := by
    rw [hSplit, List.length_append]
  have hRoom := h.room
  have hDistinct := h.distinct
  rw [hSplit, pick_append, List.map_append] at hDistinct
  have hPicked : ∀ member ∈ pick members done, member ∈ pick members batch.pending := by
    intro member hMember
    rw [hSplit, pick_append]
    exact List.mem_append_left _ hMember
  have hJobs : ∀ member ∈ pick members done, v.Fits member := by
    intro member hMember
    obtain ⟨i, -, hAt⟩ := mem_pick.mp hMember
    exact hFits member (List.mem_of_getElem? hAt)
  obtain ⟨m', hCommit, hGood, hJournal, hRecords⟩ := hLaws.commit h.good (by omega) hCarries hJobs
    (List.nodup_append.mp hDistinct).1 fun member hMember => h.unrecorded_pick (hPicked member hMember)
  obtain ⟨hDone, hRest⟩ := h.recorded hSplit hJournal
  have hSettled := hLaws.settle hFits (fun i hi => h.present hi)
    { batch with node := { batch.node with machine := m' }, pending := [] } hGood
  unfold ProfileBatch.propose
  rw [hCommit]
  dsimp only
  generalize ProfileBatch.settle p members _ batch.pending = settled at hSettled ⊢
  -- what is pending afterwards is what was not proposed
  have hPending : settled.pending = rest := by
    rw [hSettled.pending, hSplit, List.filter_append,
      List.filter_eq_nil_iff.mpr fun i hi => by rw [hDone i hi]; decide,
      List.filter_eq_self.mpr hRest]
    rfl
  have hTake : batch.pending.take done.length = done := by
    rw [hSplit, List.take_left]
  have hNone : ¬ (settled.pending.any ((batch.pending.take done.length).contains ·)) = true := by
    rw [hPending, hTake, List.any_eq_true]
    rintro ⟨i, hi, hContains⟩
    rw [List.contains_iff_mem] at hContains
    cases (hRest i hi).symm.trans (hDone i hContains)
  have hNode : settled.node = { batch.node with machine := m' } := hSettled.node
  have hMachine : settled.node.machine = m' := by rw [hNode]
  rw [if_neg hNone]
  refine ⟨n + 1, h.advance hSplit hSome ?_ (hMachine ▸ hGood) (Nat.le_refl _) ?_ (hMachine ▸ hRecords)
    hPending hSettled.length ?_ ?_, hPending⟩
  · rw [hNode]
    exact h.writable
  · rw [hMachine, hJournal]
  · intro i hOther
    refine hSettled.kept i fun hIn => ?_
    rw [hSplit] at hIn
    exact hRest i ((List.mem_append.mp hIn).resolve_left hOther)
  · intro i hi
    have hIn : i ∈ batch.pending := hSplit ▸ List.mem_append_left _ hi
    obtain ⟨member, hMember⟩ := h.present hIn
    have hLength : i < batch.results.length := by
      rw [h.length]
      exact (List.getElem?_eq_some_iff.mp hMember).1
    obtain ⟨member, answer, hMember, hResult, hAnswered⟩ :=
      hSettled.answered i hIn (hDone i hi) hLength
    exact ⟨member, answer, hMember, hResult, hMachine ▸ hAnswered⟩

theorem Lawful.proposal (hLaws : v.Lawful) {full payload : Bytes} {count : Nat}
    (hPresent : ∀ i ∈ batch.pending, ∃ member, members[i]? = some member)
    (hSome : batch.pending ≠ [])
    (hFull : p.encodeBatch (ProfileBatch.commands members batch.pending) = .ok full)
    (h : batch.proposal p members full = some (count, payload)) :
    0 < count ∧ count ≤ batch.pending.length ∧
      p.Carries payload (pick members (batch.pending.take count)) := by
  have hLength : (ProfileBatch.commands members batch.pending).length = batch.pending.length := by
    rw [commands_eq, List.length_map, length_pick hPresent]
  have hTaken : 0 < count ∧ count ≤ batch.pending.length ∧
      p.encodeBatch ((ProfileBatch.commands members batch.pending).take count) = .ok payload := by
    unfold ProfileBatch.proposal at h
    split at h
    · obtain ⟨rfl, rfl⟩ := Prod.mk.inj (Option.some.inj h)
      rw [hLength]
      refine ⟨List.length_pos_iff.mpr hSome, Nat.le_refl _, ?_⟩
      rw [← hLength, List.take_length, hFull]
    · obtain ⟨hPositive, hLe, hEncode⟩ := hLaws.fits h
      exact ⟨hPositive, hLength ▸ hLe, hEncode⟩
  obtain ⟨hPositive, hLe, hEncode⟩ := hTaken
  refine ⟨hPositive, hLe, .inr ?_⟩
  have hFirst : ∀ i ∈ batch.pending.take count, ∃ member, members[i]? = some member :=
    fun i hi => hPresent i (List.mem_of_mem_take hi)
  have hPicked : (pick members batch.pending).take count = pick members (batch.pending.take count) := by
    have hCount : (pick members (batch.pending.take count)).length = count := by
      rw [length_pick hFirst, List.length_take]
      omega
    conv_lhs => rw [← List.take_append_drop count batch.pending, pick_append]
    exact List.take_left' hCount
  rw [← hPicked, List.map_take, ← commands_eq, hEncode]

theorem Loops.turn (h : v.Loops m₀ members scan n batch) (hLaws : v.Lawful)
    (hFits : ∀ member ∈ members, v.Fits member) (hSome : batch.pending ≠ []) :
    ∃ n', v.Loops m₀ members scan n' (batch.turn p members) ∧
      (batch.turn p members).pending.length < batch.pending.length := by
  unfold ProfileBatch.turn
  match hPending : batch.pending with
  | [] => exact absurd hPending hSome
  | [index] =>
    obtain ⟨n', hLoops⟩ := h.alone hLaws hFits hPending
    exact ⟨n', hLoops, Nat.zero_lt_one⟩
  | index :: other :: rest =>
    dsimp only
    rw [← hPending]
    have hPresent : ∀ i ∈ batch.pending, ∃ member, members[i]? = some member :=
      fun i hi => h.present hi
    have hJobs : ∀ member ∈ pick members batch.pending, v.Fits member := by
      intro member hMember
      obtain ⟨i, -, hAt⟩ := mem_pick.mp hMember
      exact hFits member (List.mem_of_getElem? hAt)
    have hPicked : (pick members batch.pending).length = batch.pending.length := length_pick hPresent
    have hPositive : 0 < batch.pending.length := List.length_pos_iff.mpr hSome
    obtain ⟨full, hFull⟩ := hLaws.encode hJobs (List.ne_nil_of_length_pos (by omega))
      (hPicked ▸ h.short) h.distinct
    rw [← commands_eq] at hFull
    rw [hFull]
    dsimp only
    cases hProposal : batch.proposal p members full with
    | none =>
      obtain ⟨n', hLoops⟩ := h.alone hLaws hFits hPending
      refine ⟨n', hLoops, ?_⟩
      rw [hPending]
      exact Nat.lt_succ_self _
    | some proposed =>
      obtain ⟨count, payload⟩ := proposed
      obtain ⟨hCount, hLe, hCarries⟩ := hLaws.proposal hPresent hSome hFull hProposal
      have hLength : (batch.pending.take count).length = count := by
        rw [List.length_take]
        omega
      obtain ⟨n', hLoops, hRest⟩ := h.propose hLaws hFits (List.take_append_drop count _).symm
        (List.ne_nil_of_length_pos (by omega)) hCarries
      rw [hLength] at hLoops hRest
      refine ⟨n', hLoops, ?_⟩
      dsimp only
      rw [hRest, List.length_drop]
      omega

theorem Loops.loop (hLaws : v.Lawful) (hFits : ∀ member ∈ members, v.Fits member) {turns : Nat}
    (h : v.Loops m₀ members scan n batch) (hTurns : batch.pending.length ≤ turns) :
    ∃ n', v.Loops m₀ members scan n' (batch.loop p members turns) ∧
      (batch.loop p members turns).pending = [] := by
  induction turns generalizing batch n with
  | zero => exact ⟨n, h, List.length_eq_zero_iff.mp (Nat.le_zero.mp hTurns)⟩
  | succ turns ih =>
    rw [ProfileBatch.loop]
    split
    · exact ⟨n, h, ‹_›⟩
    · obtain ⟨n', hLoops, hShorter⟩ := h.turn hLaws hFits ‹_›
      exact ih hLoops (by omega)

theorem pick_filter (indices : List Nat) :
    pick members (indices.filter (v.unrecorded m members)) =
      (pick members indices).filter fun member =>
        (v.record m (p.requestId member.command)).isNone := by
  induction indices with
  | nil => rfl
  | cons i indices ih =>
    cases hMember : members[i]? with
    | none =>
      have hNot : v.unrecorded m members i = false := by rw [unrecorded, hMember]; rfl
      have hSkip : pick members (i :: indices) = pick members indices :=
        List.filterMap_cons_none hMember
      rw [List.filter_cons_of_neg (by rw [hNot]; decide), ih, hSkip]
    | some member =>
      have hHere := unrecorded_of (v := v) (m := m) hMember
      rw [pick_cons hMember, List.filter_cons, List.filter_cons, hHere]
      cases (v.record m (p.requestId member.command)).isNone with
      | true => rw [if_pos rfl, if_pos rfl, pick_cons hMember, ih]
      | false => rw [if_neg Bool.false_ne_true, if_neg Bool.false_ne_true, ih]

theorem Lawful.start (hLaws : v.Lawful) (hFits : ∀ member ∈ members, v.Fits member)
    (hGood : v.Good m n) (hRoom : n + members.length < u64Bound) (hShort : members.length ≤ v.limit) :
    v.Loops m members (p.scan m members) n (p.start ⟨m, none⟩ members) ∧
      (p.start ⟨m, none⟩ members).pending.length ≤ members.length := by
  have hScan := hLaws.scanned hGood hFits
  have hQueued := hScan.short
  have hPresent : ∀ i ∈ (p.scan m members).queued, ∃ member, members[i]? = some member := by
    intro i hi
    obtain ⟨-, -, member, hMember, -⟩ := hScan.queued i hi
    exact ⟨member, hMember⟩
  unfold Profile.start
  dsimp only
  by_cases hFirst : p.looksUpFirst = true
  · rw [if_pos hFirst]
    refine ⟨⟨rfl, hGood, ?_, hQueued.trans hShort, .refl m, hScan.journal, fun i hi => ?_,
      hScan.distinct, hScan.results, fun _ _ => rfl, fun i hi => .inl hi, List.Subset.refl _⟩, hQueued⟩
    · dsimp only
      omega
    · obtain ⟨-, -, member, hMember, -, hNone⟩ := hScan.queued i hi
      rw [unrecorded_of hMember, hNone hFirst]
      rfl
  · rw [if_neg hFirst]
    have hSettled := hLaws.settle hFits hPresent ⟨⟨m, none⟩, (p.scan m members).results, []⟩ hGood
    generalize ProfileBatch.settle p members _ _ = settled at hSettled ⊢
    have hPending : settled.pending =
        (p.scan m members).queued.filter (v.unrecorded m members) := hSettled.pending
    have hMachine : settled.node.machine = m := by rw [hSettled.node]
    have hFewer : settled.pending.length ≤ (p.scan m members).queued.length := by
      rw [hPending]
      exact List.length_filter_le _ _
    refine ⟨⟨?_, hMachine ▸ hGood, by omega, by omega, ?_, ?_, ?_, ?_,
      hSettled.length.trans hScan.results, fun i hOut => ?_, fun i hi => ?_, ?_⟩, by omega⟩
    · rw [hSettled.node]
    · rw [hMachine]
      exact .refl m
    · rw [hMachine, hPending, pick_filter, Works.execAll_filter, hScan.journal]
      intro job _ hNot
      rw [isSome_done, ← Option.not_isNone]
      exact congrArg Bool.not hNot
    · rw [hMachine, hPending]
      exact fun i hi => (List.mem_filter.mp hi).2
    · rw [hPending, pick_filter]
      exact hScan.distinct.sublist (List.filter_sublist.map _)
    · exact hSettled.kept i fun hIn => absurd hIn hOut
    · obtain ⟨hResult, -, member, hMember, -⟩ := hScan.queued i hi
      cases hRecorded : v.unrecorded m members i with
      | true =>
        rw [hPending]
        exact .inl (List.mem_filter.mpr ⟨hi, hRecorded⟩)
      | false =>
        obtain ⟨member, answer, hMember, hAnswer, hAnswered⟩ :=
          hSettled.answered i hi hRecorded (List.getElem?_eq_some_iff.mp hResult).1
        exact .inr ⟨member, answer, hMember, hAnswer, hMachine ▸ hAnswered⟩
    · rw [hPending]
      exact fun i hi => (List.mem_filter.mp hi).1

theorem Loops.copied (h : v.Loops m members scan n batch) (hScan : v.Scanned m members members scan)
    (hNothing : batch.pending = []) {i : Nat} (hMember : members[i]? = some member) :
    ∃ answer, (copyAliases batch.results scan.aliases.zipIdx)[i]? = some (some answer) ∧
      (v.Clash m members member → ∃ message, answer = .error (.invalidRequest message)) ∧
        (¬ v.Clash m members member → v.Answered batch.node.machine member answer) := by
  have hAliases : ∀ {j : Nat} {x : Option Nat}, scan.aliases[j]? = some x →
      ∀ entry ∈ scan.aliases.zipIdx, entry.2 = j → entry.1 = x := by
    intro j x hAt entry hEntry hSame
    have hHere := List.mem_zipIdx_iff_getElem?.mp hEntry
    rw [hSame, hAt] at hHere
    exact (Option.some.inj hHere).symm
  have hQueuedAnswer : ∀ c ∈ scan.queued, v.AnsweredAt members batch c := by
    intro c hc
    refine (h.settled c hc).resolve_left ?_
    rw [hNothing]
    exact List.not_mem_nil
  have hNotQueued : ∀ {answer}, scan.results[i]? = some (some answer) → i ∉ scan.queued := by
    intro answer hResult hQueued
    cases hResult.symm.trans (hScan.queued i hQueued).1
  cases hScan.placed i member hMember with
  | queued hQueued hAlias =>
    obtain ⟨member', answer, hMember', hResult, hAnswered⟩ := hQueuedAnswer i hQueued
    obtain rfl := Option.some.inj (hMember.symm.trans hMember')
    obtain ⟨-, -, first, hFirst, hSelf, -⟩ := hScan.queued i hQueued
    obtain rfl := Option.some.inj (hMember.symm.trans hFirst)
    refine ⟨answer, (copyAliases_kept (hAliases hAlias)).trans hResult, ?_, fun _ => hAnswered⟩
    rintro ⟨first, hFirst, hOther, -⟩
    rw [hSelf] at hFirst
    exact absurd (congrArg _ (Option.some.inj hFirst).symm) hOther
  | copied c canonical hAlias hQueued hCanonical hFirst hKey hPayload =>
    obtain ⟨canonical', answer, hCanonical', hResult, hAnswered⟩ := hQueuedAnswer c hQueued
    obtain rfl := Option.some.inj (hCanonical.symm.trans hCanonical')
    have hLess : i < batch.results.length := by
      rw [h.length]
      exact (List.getElem?_eq_some_iff.mp hMember).1
    refine ⟨answer, copyAliases_copied (hAliases hAlias) (hAliases (hScan.queued c hQueued).2.1) hLess
      hResult (.inr (List.mem_zipIdx_iff_getElem?.mpr hAlias)), ?_,
      fun _ => hAnswered.alias hKey hPayload⟩
    rintro ⟨first, hFirst', hOther, -⟩
    rw [hFirst] at hFirst'
    obtain rfl := Option.some.inj hFirst'
    exact absurd hPayload hOther
  | clash message hAlias hResult hClash =>
    exact ⟨_, (copyAliases_kept (hAliases hAlias)).trans ((h.kept i (hNotQueued hResult)).trans hResult),
      fun _ => ⟨message, rfl⟩, fun hNot => absurd hClash hNot⟩
  | looked answer hAlias hResult hAnswered hLooks =>
    refine ⟨answer,
      (copyAliases_kept (hAliases hAlias)).trans ((h.kept i (hNotQueued hResult)).trans hResult), ?_,
      fun _ => hAnswered.extends h.records⟩
    rintro ⟨first, -, -, hNone⟩
    obtain ⟨mark, outcome, hRecord, -⟩ := hAnswered
    cases hRecord.symm.trans (hNone hLooks)

theorem Lawful.clientBatch (hLaws : v.Lawful) (hFits : ∀ member ∈ members, v.Fits member)
    (hGood : v.Good m n) (hRoom : n + members.length < u64Bound) (hShort : members.length ≤ v.limit) :
    ∃ answers m' n', p.executeClientBatchLocked ⟨m, none⟩ members = (answers, ⟨m', none⟩) ∧
      v.Good m' n' ∧ v.journal m' = v.works.execAll (v.journal m) members ∧ v.Extends m m' ∧
      List.Forall₂ (fun member answer =>
        (v.Clash m members member → ∃ message, answer = .error (.invalidRequest message)) ∧
          (¬ v.Clash m members member → v.Answered m' member answer)) members answers := by
  have hScan := hLaws.scanned hGood hFits
  obtain ⟨hStart, hTurns⟩ := hLaws.start hFits hGood hRoom hShort
  obtain ⟨n', hLoops, hNothing⟩ := hStart.loop hLaws hFits hTurns
  unfold Profile.executeClientBatchLocked
  dsimp only
  generalize (p.start ⟨m, none⟩ members).loop p members members.length = last at hLoops hNothing ⊢
  have hAll : ∀ i member, members[i]? = some member → ∃ answer,
      (copyAliases last.results (p.scan m members).aliases.zipIdx)[i]? = some (some answer) ∧
        (v.Clash m members member → ∃ message, answer = .error (.invalidRequest message)) ∧
          (¬ v.Clash m members member → v.Answered last.node.machine member answer) :=
    fun i member hMember => hLoops.copied hScan hNothing hMember
  have hLength : (copyAliases last.results (p.scan m members).aliases.zipIdx).length =
      members.length := length_copyAliases.trans hLoops.length
  generalize copyAliases last.results (p.scan m members).aliases.zipIdx = results at hAll hLength ⊢
  have hComplete : ¬ results.any Option.isNone = true := by
    rw [List.any_eq_true]
    rintro ⟨result, hResult, hNone⟩
    obtain ⟨i, hLess, rfl⟩ := List.mem_iff_getElem.mp hResult
    obtain ⟨answer, hAnswer, -⟩ := hAll i _ (List.getElem?_eq_getElem (hLength ▸ hLess))
    rw [List.getElem?_eq_getElem hLess] at hAnswer
    rw [Option.some.inj hAnswer] at hNone
    cases hNone
  rw [if_neg hComplete]
  refine ⟨_, last.node.machine, n', Prod.ext rfl ?_, hLoops.good, ?_, hLoops.records, ?_⟩
  · rw [← hLoops.writable]
  · have hJournal := hLoops.journal
    rw [hNothing] at hJournal
    exact hJournal
  · refine List.forall₂_iff_get.mpr ⟨by rw [List.length_map, hLength], fun i hMember hAnswer => ?_⟩
    obtain ⟨answer, hResult, hSpec⟩ := hAll i _ (List.getElem?_eq_getElem hMember)
    have hGet : (results.map fun result =>
        result.getD (.error (.invariant p.resultOmitted)))[i]? = some answer := by
      rw [List.getElem?_map, hResult]
      rfl
    rw [List.get_eq_getElem, List.get_eq_getElem, (List.getElem?_eq_some_iff.mp hGet).2]
    exact hSpec

end ProfileView

end Rhiza.Node
