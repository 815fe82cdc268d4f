import Rhiza.Node.SqlBatch

/-! # Failures of speculative SQL members

A member is executed on what the members before it left in the staging copy, and a
failure is recorded before the slot of the batch is decided. It is explained when the
statements also fail on a state that the log of decided entries goes through.
-/

namespace Rhiza.Node

open Rhiza.Core Rhiza.Library

variable {D S R : Type}

section States

variable (sqlite : Sqlite D S R) (members : List (SqlMember S))

def Sqlite.Fails (database : D) (index : Nat) : Prop :=
  ∃ member error, members[index]? = some member ∧
    sqlite.run database member.command.statements = .error error

def Sqlite.inside : D → List Nat → List D
  | _, [] => []
  | _, [_] => []
  | database, index :: next :: rest =>
    match members[index]? with
    | none => []
    | some member =>
      match sqlite.run database member.command.statements with
      | .error _ => []
      | .ok (_, _, staged) => staged :: inside staged (next :: rest)

def Sqlite.statesOf : D → List (List Nat × LogEntry) → List D
  | database, [] => [database]
  | database, (committed, entry) :: log =>
    database :: (sqlite.inside members database committed ++
      statesOf (sqlite.apply database entry) log)

def Sqlite.databaseAfter (database : D) (log : List (List Nat × LogEntry)) : D :=
  log.foldl (fun database decided => sqlite.apply database decided.2) database

variable {sqlite members}

theorem databaseAfter_append (database : D) (log : List (List Nat × LogEntry))
    (decided : List Nat × LogEntry) :
    sqlite.databaseAfter database (log ++ [decided]) =
      sqlite.apply (sqlite.databaseAfter database log) decided.2 :=
  List.foldl_concat _ _ _ _

theorem databaseAfter_mem (database : D) (log : List (List Nat × LogEntry)) :
    sqlite.databaseAfter database log ∈ sqlite.statesOf members database log := by
  induction log generalizing database with
  | nil => exact List.mem_singleton.mpr rfl
  | cons decided log ih =>
    exact List.mem_cons_of_mem _ (List.mem_append_right _ (ih (sqlite.apply database decided.2)))

theorem mem_statesOf_append {database state : D} {log : List (List Nat × LogEntry)}
    {committed : List Nat} {entry : LogEntry} :
    state ∈ sqlite.statesOf members database (log ++ [(committed, entry)]) ↔
      state ∈ sqlite.statesOf members database log ∨
        state ∈ sqlite.inside members (sqlite.databaseAfter database log) committed ∨
        state = sqlite.apply (sqlite.databaseAfter database log) entry := by
  induction log generalizing database with
  | nil =>
    rw [List.nil_append, Sqlite.statesOf, Sqlite.statesOf, Sqlite.statesOf, List.mem_cons,
      List.mem_append, List.mem_singleton, List.mem_singleton]
    exact Iff.rfl
  | cons decided log ih =>
    rw [List.cons_append, Sqlite.statesOf, Sqlite.statesOf, List.mem_cons, List.mem_append, ih,
      List.mem_cons, List.mem_append]
    change _ ↔ _ ∨ state ∈ sqlite.inside members
      (sqlite.databaseAfter (sqlite.apply database decided.2) log) committed ∨
        state = sqlite.apply (sqlite.databaseAfter (sqlite.apply database decided.2) log) entry
    tauto

end States

namespace SqlBatch

variable {batch : SqlBatch D R} {index : Nat} {error : Sql.Error}

def Failed (batch : SqlBatch D R) (index : Nat) (error : Sql.Error) : Prop :=
  (batch.results[index]?).join = some (.error (.failed error))

theorem failed_answer {i : Nat} {answer : Except MemberError (SqlResponse R)}
    (h : (batch.answer i answer).Failed index error) :
    i = index ∧ answer = .error (.failed error) ∨ i ≠ index ∧ batch.Failed index error := by
  unfold Failed SqlBatch.answer at h
  rw [List.getElem?_set] at h
  split at h
  · rename_i hSame
    refine .inl ⟨hSame, ?_⟩
    split at h
    · exact Option.some.inj h
    · cases h
  · rename_i hOther
    exact .inr ⟨hOther, h⟩

theorem failed_answer_refused {i : Nat} {e : NodeError}
    (h : (batch.answer i (.error (.refused e))).Failed index error) :
    i ≠ index ∧ batch.Failed index error := by
  obtain ⟨-, hAnswer⟩ | hOld := failed_answer h
  · cases hAnswer
  · exact hOld

theorem failed_answer_ok {i : Nat} {response : SqlResponse R}
    (h : (batch.answer i (.ok response)).Failed index error) : batch.Failed index error := by
  obtain ⟨-, hAnswer⟩ | ⟨-, hOld⟩ := failed_answer h
  · cases hAnswer
  · exact hOld

theorem failed_refuse {e : NodeError} {indices : List Nat}
    (h : (batch.refuse indices e).Failed index error) :
    batch.Failed index error ∧ index ∉ indices := by
  induction indices generalizing batch with
  | nil => exact ⟨h, List.not_mem_nil⟩
  | cons i rest ih =>
    obtain ⟨hFirst, hRest⟩ := ih h
    obtain ⟨hOther, hOld⟩ := failed_answer_refused hFirst
    refine ⟨hOld, fun hMem => ?_⟩
    rcases List.mem_cons.mp hMem with rfl | hLater
    · exact hOther rfl
    · exact hRest hLater

theorem failed_failPending {e : NodeError} (h : (batch.failPending e).Failed index error) :
    batch.Failed index error ∧ index ∉ batch.pending := failed_refuse h

theorem failed_clear {indices : List Nat} (h : (batch.clear indices).Failed index error) :
    batch.Failed index error ∧ index ∉ indices := by
  unfold Failed SqlBatch.clear at h
  unfold Failed
  generalize batch.results = results at h ⊢
  induction indices generalizing results with
  | nil => exact ⟨h, List.not_mem_nil⟩
  | cons i rest ih =>
    obtain ⟨hSet, hRest⟩ := ih _ h
    rw [List.getElem?_set] at hSet
    split at hSet
    · split at hSet <;> cases hSet
    · rename_i hOther
      refine ⟨hSet, fun hMem => ?_⟩
      rcases List.mem_cons.mp hMem with rfl | hLater
      · exact hOther rfl
      · exact hRest hLater

theorem failed_record {results : List (Nat × Except MemberError R)}
    (h : (batch.record results).Failed index error) :
    batch.Failed index error ∨ (index, .error (.failed error)) ∈ results := by
  induction results generalizing batch with
  | nil => exact .inl h
  | cons result rest ih =>
    obtain ⟨i, _ | value⟩ := result
    · rcases ih h with hFirst | hLater
      · obtain ⟨rfl, hAnswer⟩ | ⟨-, hOld⟩ := failed_answer hFirst
        · cases hAnswer
          exact .inr List.mem_cons_self
        · exact .inl hOld
      · exact .inr (List.mem_cons_of_mem _ hLater)
    · rcases ih h with hOld | hLater
      · exact .inl hOld
      · exact .inr (List.mem_cons_of_mem _ hLater)

theorem failed_settle {lookups : List (Nat × Except NodeError (Option (SqlResponse R)))}
    (h : (batch.settle lookups).Failed index error) : batch.Failed index error := by
  induction lookups generalizing batch with
  | nil => exact h
  | cons lookup rest ih =>
    obtain ⟨i, e | _ | response⟩ := lookup
    · exact (failed_answer_refused (ih h)).2
    · have hOld : { batch with pending := batch.pending ++ [i] }.Failed index error := ih h
      exact hOld
    · exact failed_answer_ok (ih h)

theorem failed_respond {entry : LogEntry} {prepared : List (Nat × R)}
    (h : (batch.respond entry prepared).Failed index error) : batch.Failed index error := by
  induction prepared generalizing batch with
  | nil => exact h
  | cons first rest ih => exact failed_answer_ok (ih h)

/-! What these leave as it is. -/

def Beside (batch batch' : SqlBatch D R) : Prop :=
  batch'.node = batch.node ∧ batch'.log = batch.log

theorem Beside.trans {batch' batch'' : SqlBatch D R} (h : Beside batch batch')
    (h' : Beside batch' batch'') : Beside batch batch'' := ⟨h'.1.trans h.1, h'.2.trans h.2⟩

theorem beside_refuse (e : NodeError) (indices : List Nat) :
    Beside batch (batch.refuse indices e) := by
  induction indices generalizing batch with
  | nil => exact ⟨rfl, rfl⟩
  | cons i rest ih =>
    have hFirst : Beside batch (batch.answer i (.error (.refused e))) := ⟨rfl, rfl⟩
    exact hFirst.trans ih

theorem beside_failPending (e : NodeError) : Beside batch (batch.failPending e) :=
  beside_refuse e batch.pending

theorem beside_record (results : List (Nat × Except MemberError R)) :
    Beside batch (batch.record results) ∧ (batch.record results).pending = batch.pending := by
  induction results generalizing batch with
  | nil => exact ⟨⟨rfl, rfl⟩, rfl⟩
  | cons result rest ih =>
    obtain ⟨i, e | value⟩ := result
    · have hFirst : Beside batch (batch.answer i (.error e)) := ⟨rfl, rfl⟩
      exact ⟨hFirst.trans ih.1, ih.2⟩
    · exact ih

theorem beside_settle (lookups : List (Nat × Except NodeError (Option (SqlResponse R)))) :
    Beside batch (batch.settle lookups) := by
  induction lookups generalizing batch with
  | nil => exact ⟨rfl, rfl⟩
  | cons lookup rest ih =>
    obtain ⟨i, e | _ | response⟩ := lookup
    · have hFirst : Beside batch (batch.answer i (.error (.refused e))) := ⟨rfl, rfl⟩
      exact hFirst.trans ih
    · have hFirst : Beside batch { batch with pending := batch.pending ++ [i] } := ⟨rfl, rfl⟩
      exact hFirst.trans ih
    · have hFirst : Beside batch (batch.answer i (.ok response)) := ⟨rfl, rfl⟩
      exact hFirst.trans ih

theorem beside_respond (entry : LogEntry) (prepared : List (Nat × R)) :
    Beside batch (batch.respond entry prepared) := by
  induction prepared generalizing batch with
  | nil => exact ⟨rfl, rfl⟩
  | cons first rest ih =>
    have hFirst : Beside batch (batch.answer first.1 (.ok ⟨entry.index, entry.hash, first.2⟩)) :=
      ⟨rfl, rfl⟩
    exact hFirst.trans ih

end SqlBatch

section Attempts

variable {sqlite : Sqlite D S R} {members : List (SqlMember S)}

inductive Staged (sqlite : Sqlite D S R) (members : List (SqlMember S)) :
    D → List (Nat × Except MemberError R) → D → Prop
  | nil {database : D} : Staged sqlite members database [] database
  | refused {database staged : D} {rest : List (Nat × Except MemberError R)} {index : Nat}
      {error : NodeError} (hRest : Staged sqlite members database rest staged) :
      Staged sqlite members database ((index, .error (.refused error)) :: rest) staged
  | failed {database staged : D} {rest : List (Nat × Except MemberError R)} {index : Nat}
      {error : Sql.Error} (hFails : sqlite.Fails members database index)
      (hRest : Staged sqlite members database rest staged) :
      Staged sqlite members database ((index, .error (.failed error)) :: rest) staged
  | ok {database next staged : D} {rest : List (Nat × Except MemberError R)} {index : Nat}
      {member : SqlMember S} {result : R} {blob : Bytes} (hMember : members[index]? = some member)
      (hRun : sqlite.run database member.command.statements = .ok (result, blob, next))
      (hRest : Staged sqlite members next rest staged) :
      Staged sqlite members database ((index, .ok result) :: rest) staged

theorem length_stage_le [Sha256] (database : D)
    (checked : List (SqlMember S × Except Sql.Error (Option Sql.RequestReceipt))) :
    (sqlite.stage database checked).results.length ≤ checked.length := by
  induction checked generalizing database with
  | nil => exact Nat.le_refl _
  | cons first rest ih =>
    obtain ⟨member, error | _ | receipt⟩ := first
    · exact Nat.succ_le_succ (ih database)
    · rw [Sqlite.stage]
      split
      · exact Nat.succ_le_succ (ih database)
      · exact Nat.succ_le_succ (ih _)
    · exact Nat.succ_le_succ (ih database)

theorem staged_of_stage [Sha256] {attempted : List Nat} {database : D}
    {preflight : List (Except Sql.Error (Option Sql.RequestReceipt))} {staging : Staging D R}
    (h : sqlite.stage database ((attempted.filterMap (members[·]?)).zip preflight) = staging)
    (hAligned : staging.results.length = attempted.length) :
    Staged sqlite members database (attempted.zip staging.results) staging.database := by
  induction attempted generalizing database preflight staging with
  | nil =>
    obtain rfl := h
    exact .nil
  | cons index attempted ih =>
    -- a result for every index: all of them are members that were looked up
    have hLength : (sqlite.stage database
        (((index :: attempted).filterMap (members[·]?)).zip preflight)).results.length ≤ _ :=
      length_stage_le database _
    rw [h, hAligned, List.length_zip, List.length_cons] at hLength
    have hFew : (attempted.filterMap (members[·]?)).length ≤ attempted.length :=
      List.length_filterMap_le _ _
    cases hMember : members[index]? with
    | none =>
      have hSkip : (index :: attempted).filterMap (members[·]?) = attempted.filterMap (members[·]?) :=
        List.filterMap_cons_none hMember
      rw [hSkip] at hLength
      omega
    | some member =>
      rw [List.filterMap_cons_some hMember] at h
      cases preflight with
      | nil =>
        simp only [List.length_nil] at hLength
        omega
      | cons checked preflight =>
        obtain error | _ | receipt := checked
        · obtain rfl := h
          exact .refused (ih rfl (Nat.succ.inj hAligned))
        · rw [List.zip_cons_cons, Sqlite.stage] at h
          split at h
          · rename_i error hRun
            obtain rfl := h
            exact .failed ⟨member, error, hMember, hRun⟩ (ih rfl (Nat.succ.inj hAligned))
          · rename_i hRun
            obtain rfl := h
            exact .ok hMember hRun (ih rfl (Nat.succ.inj hAligned))
        · obtain rfl := h
          exact .refused (ih rfl (Nat.succ.inj hAligned))

theorem Staged.eq_of_none {database staged : D} {results : List (Nat × Except MemberError R)}
    (h : Staged sqlite members database results staged) (hNone : proposedOf results = []) :
    staged = database := by
  induction h with
  | nil => rfl
  | refused _ ih => exact ih hNone
  | failed _ _ ih => exact ih hNone
  | ok _ _ _ _ => cases hNone

theorem Staged.fails {database staged : D} {results : List (Nat × Except MemberError R)}
    (h : Staged sqlite members database results staged) {index : Nat} {error : Sql.Error}
    (hFailed : (index, .error (.failed error)) ∈ results) :
    ∃ state, sqlite.Fails members state index ∧ (state = database ∨
      state ∈ sqlite.inside members database ((proposedOf results).map (·.1)) ∨ state = staged) := by
  induction h with
  | nil => cases hFailed
  | refused _ ih =>
    rcases List.mem_cons.mp hFailed with hHere | hLater
    · cases hHere
    · exact ih hLater
  | @failed database _ _ _ _ hFails _ ih =>
    rcases List.mem_cons.mp hFailed with hHere | hLater
    · cases hHere
      exact ⟨database, hFails, .inl rfl⟩
    · exact ih hLater
  | @ok database next staged rest first member result blob hMember hRun hRest ih =>
    rcases List.mem_cons.mp hFailed with hHere | hLater
    · cases hHere
    · obtain ⟨state, hFails, hState⟩ := ih hLater
      refine ⟨state, hFails, .inr ?_⟩
      change state ∈ sqlite.inside members database (first :: (proposedOf rest).map (·.1)) ∨ _
      cases hProposed : proposedOf rest with
      | nil =>
        rw [hProposed] at hState
        have hEq := hRest.eq_of_none hProposed
        obtain rfl | hInside | rfl := hState
        · exact .inr hEq.symm
        · cases hInside
        · exact .inr rfl
      | cons second later =>
        rw [hProposed] at hState
        rw [List.map_cons, Sqlite.inside, hMember]
        simp only [hRun]
        obtain rfl | hInside | rfl := hState
        · exact .inl List.mem_cons_self
        · exact .inl (List.mem_cons_of_mem _ hInside)
        · exact .inr rfl

def Explains (sqlite : Sqlite D S R) (members : List (SqlMember S)) (database : D) (index : Nat) :
    Option (Proposal R) → Prop
  | none => sqlite.Fails members database index
  | some proposal => ∃ state, sqlite.Fails members state index ∧ (state = database ∨
      state ∈ sqlite.inside members database (proposal.prepared.map (·.1)) ∨
        state = sqlite.install database proposal.payload)

def Tried.Sound (sqlite : Sqlite D S R) (members : List (SqlMember S)) (batch : SqlBatch D R)
    (attempted : List Nat) : Tried D R → Prop
  | .done after proposal => batch.Beside after ∧ ∀ index error, after.Failed index error →
      batch.Failed index error ∨ Explains sqlite members batch.node.database index proposal
  | .exhausted retry last _ => batch.Beside retry ∧ batch.Beside last ∧
      retry.pending = batch.pending ∧
      (∀ index error, retry.Failed index error → batch.Failed index error) ∧
      ∀ index error, last.Failed index error → batch.Failed index error ∨ index ∈ attempted

variable {batch : SqlBatch D R} {attempted : List Nat}

theorem tried_of_failPending (e : NodeError) (proposal : Option (Proposal R)) :
    (Tried.done (batch.failPending e) proposal).Sound sqlite members batch attempted :=
  ⟨SqlBatch.beside_failPending e,
    fun _ _ hFailed => .inl (SqlBatch.failed_failPending hFailed).1⟩

theorem failed_of_attempt {results : List (Except MemberError R)} {index : Nat} {error : Sql.Error}
    (h : (batch.record (attempted.zip results)).Failed index error) :
    batch.Failed index error ∨ index ∈ attempted ∧
      (index, .error (.failed error)) ∈ attempted.zip results := by
  rcases SqlBatch.failed_record h with hOld | hNew
  · exact .inl hOld
  · exact .inr ⟨(List.of_mem_zip hNew).1, hNew⟩

theorem tried_of_record {results : List (Except MemberError R)} (hPending : attempted ⊆ batch.pending)
    (e : NodeError) (proposal : Option (Proposal R)) :
    (Tried.done ((batch.record (attempted.zip results)).failPending e) proposal).Sound sqlite
      members batch attempted := by
  have hRecord : batch.Beside (batch.record (attempted.zip results)) ∧ _ := SqlBatch.beside_record _
  obtain ⟨hBeside, hSame⟩ := hRecord
  refine ⟨hBeside.trans (SqlBatch.beside_failPending e), fun index error hFailed => .inl ?_⟩
  obtain ⟨hRecorded, hNot⟩ := SqlBatch.failed_failPending hFailed
  rcases failed_of_attempt hRecorded with hOld | ⟨hAttempted, -⟩
  · exact hOld
  · rw [hSame] at hNot
    exact absurd (hPending hAttempted) hNot

variable [Sha256] [DecidableEq S]

theorem prepareSqlBatchEffect_eq_ok {s : SqlState D} {batchMembers : List (SqlMember S)}
    {base : LogAnchor} {effect : Option Bytes} {results : List (Except MemberError R)}
    (h : sqlite.prepareSqlBatchEffect s batchMembers base = .ok (effect, results)) :
    ∃ preflight, (sqlite.stage s.database (batchMembers.zip preflight)).results = results ∧
      ∀ payload, effect = some payload → sqlite.install s.database payload =
        (sqlite.stage s.database (batchMembers.zip preflight)).database := by
  obtain ⟨-, -, h⟩ := bind_ok_iff.mp h
  obtain ⟨-, -, h⟩ := bind_ok_iff.mp h
  obtain ⟨preflight, -, h⟩ := bind_ok_iff.mp h
  refine ⟨preflight, ?_⟩
  dsimp only at h
  split at h
  · cases h
    exact ⟨rfl, nofun⟩
  · obtain ⟨payload, hCapture, h⟩ := bind_ok_iff.mp h
    cases h
    refine ⟨rfl, fun other hOther => ?_⟩
    cases hOther
    exact sqlite.install_capture _ _ _ _ _ hCapture

theorem tryMembers_sound {base : LogAnchor} {fault : Option NodeError} (hPending : attempted ⊆ batch.pending) :
    (tryMembers sqlite members batch base fault attempted).Sound sqlite members batch attempted := by
  unfold tryMembers
  dsimp only
  split
  · exact ⟨⟨rfl, rfl⟩, ⟨rfl, rfl⟩, rfl, fun _ _ h => h, fun _ _ h => .inl h⟩
  · exact tried_of_failPending _ _
  · rename_i effect results hPrepared
    split
    · exact tried_of_failPending _ _
    · rename_i hAligned
      rw [not_not] at hAligned
      -- the results are those of a staging copy
      have hStaged : ∃ staged, Staged sqlite members batch.node.database (attempted.zip results)
          staged ∧ ∀ payload, effect = some payload →
            sqlite.install batch.node.database payload = staged := by
        cases fault with
        | some error => cases hPrepared
        | none =>
          have hOk : sqlite.prepareSqlBatchEffect batch.node (attempted.filterMap (members[·]?)) base =
              .ok (effect, results) := by
            generalize sqlite.prepareSqlBatchEffect batch.node (attempted.filterMap (members[·]?))
              base = prepared at hPrepared ⊢
            cases prepared with
            | error error => cases hPrepared
            | ok prepared =>
              cases hPrepared
              rfl
          obtain ⟨preflight, rfl, hInstall⟩ := prepareSqlBatchEffect_eq_ok hOk
          exact ⟨_, staged_of_stage rfl hAligned, hInstall⟩
      obtain ⟨staged, hStaged, hInstall⟩ := hStaged
      have hRecord : batch.Beside (batch.record (attempted.zip results)) ∧ _ :=
        SqlBatch.beside_record _
      obtain ⟨hBeside, hSame⟩ := hRecord
      cases effect with
      | some payload =>
        dsimp only
        split
        · exact tried_of_record hPending _ _
        · split
          · exact tried_of_record hPending _ _
          · split
            · refine ⟨hBeside, fun index error hFailed => ?_⟩
              rcases failed_of_attempt hFailed with hOld | ⟨-, hNew⟩
              · exact .inl hOld
              · rw [← hInstall payload rfl] at hStaged
                exact .inr (hStaged.fails hNew)
            · refine ⟨⟨hBeside.1, hBeside.2⟩, hBeside, hSame, fun index error hFailed => ?_,
                fun index error hFailed => ?_⟩
              · obtain ⟨hRecorded, hNot⟩ := SqlBatch.failed_clear hFailed
                rcases failed_of_attempt hRecorded with hOld | ⟨hAttempted, -⟩
                · exact hOld
                · exact absurd hAttempted hNot
              · rcases failed_of_attempt hFailed with hOld | ⟨hAttempted, -⟩
                · exact .inl hOld
                · exact .inr hAttempted
      | none =>
        dsimp only
        split
        · rename_i hNone
          have hEmpty : proposedOf (attempted.zip results) = [] := List.isEmpty_iff.mp hNone
          refine ⟨hBeside, fun index error hFailed => ?_⟩
          rcases failed_of_attempt hFailed with hOld | ⟨-, hNew⟩
          · exact .inl hOld
          · obtain ⟨state, hFails, hState⟩ := hStaged.fails hNew
            rw [hStaged.eq_of_none hEmpty, hEmpty] at hState
            obtain rfl | hInside | rfl := hState
            · exact .inr hFails
            · cases hInside
            · exact .inr hFails
        · exact tried_of_record hPending _ _

theorem attempt_sound {base : LogAnchor} {faults : Nat → Option NodeError} {eligible : List Nat} (attemptCount : Nat)
    (hPending : eligible ⊆ batch.pending) {after : SqlBatch D R} {proposal : Option (Proposal R)}
    (h : attempt sqlite members batch base faults eligible attemptCount = (after, proposal)) :
    batch.Beside after ∧ ∀ index error, after.Failed index error →
      batch.Failed index error ∨ Explains sqlite members batch.node.database index proposal := by
  induction attemptCount using Nat.strongRecOn generalizing batch with
  | ind attemptCount ih =>
    have hAttempted : eligible.take attemptCount ⊆ batch.pending :=
      fun index hMem => hPending (List.mem_of_mem_take hMem)
    have hSound : (tryMembers sqlite members batch base (faults attemptCount)
        (eligible.take attemptCount)).Sound sqlite members batch _ := tryMembers_sound hAttempted
    rw [attempt] at h
    split at h
    · rename_i hTried
      rw [hTried] at hSound
      cases h
      exact hSound
    · rename_i hTried
      rw [hTried] at hSound
      obtain ⟨hRetry, hLast, hSame, hRetryFailed, hLastFailed⟩ := hSound
      split at h
      · rename_i hMore
        obtain ⟨hBeside, hFailed⟩ := ih _ (by omega) (by rwa [hSame]) h
        refine ⟨hRetry.trans hBeside, fun index error hAfter => ?_⟩
        rcases hFailed index error hAfter with hOld | hExplained
        · exact .inl (hRetryFailed index error hOld)
        · rw [hRetry.1] at hExplained
          exact .inr hExplained
      · rename_i hOne
        cases h
        refine ⟨hLast.trans (SqlBatch.beside_refuse _ _), fun index error hAfter => .inl ?_⟩
        obtain ⟨hRecorded, hNot⟩ := SqlBatch.failed_refuse hAfter
        rcases hLastFailed index error hRecorded with hOld | hTaken
        · exact hOld
        · exact absurd (List.take_subset_take_left eligible (Nat.le_of_not_lt hOne) hTaken) hNot

end Attempts

section Answers

variable {members : List (SqlMember S)}

theorem aliases_of_nodup {before rest : List (SqlMember S)} {c : Classification}
    (hMembers : members = before ++ rest) (hIds : (members.map (·.command.requestId)).Nodup)
    (hLength : c.aliases.length = before.length)
    (hLookup : ∀ index ∈ c.lookupIndices, index < before.length)
    (hNone : ∀ canonical ∈ c.aliases, canonical = none) :
    ∀ canonical ∈ (rest.foldl (Classification.add members) c).aliases, canonical = none := by
  induction rest generalizing before c with
  | nil => exact hNone
  | cons member rest ih =>
    have hCanonicals : c.lookupIndices.filter (fun index =>
        members[index]?.any (·.command.requestId = member.command.requestId)) = [] := by
      refine List.filter_eq_nil_iff.mpr fun index hIndex hAny => ?_
      obtain ⟨earlier, hEarlier, hSame⟩ := (Option.any_eq_true _ _).mp hAny
      rw [hMembers, List.getElem?_append_left (hLookup index hIndex)] at hEarlier
      rw [hMembers, List.map_append, List.map_cons] at hIds
      have hDifferent := (List.nodup_append.mp hIds).2.2 _
        (List.mem_map_of_mem (List.mem_of_getElem? hEarlier)) _ List.mem_cons_self
      exact hDifferent (of_decide_eq_true hSame)
    have hAdd : c.add members member = ⟨c.aliases ++ [none], c.blockedBy ++ [none],
        c.lookupIndices ++ [c.aliases.length]⟩ := by
      rw [Classification.add, hCanonicals]
      rfl
    have hBefore : members = (before ++ [member]) ++ rest := by
      rw [hMembers, List.append_assoc, List.singleton_append]
    rw [List.foldl_cons, hAdd]
    refine ih hBefore ?_ ?_ ?_
    · rw [List.length_append, List.length_append, hLength, List.length_singleton,
        List.length_singleton]
    · intro index hIndex
      rw [List.length_append, List.length_singleton]
      rcases List.mem_append.mp hIndex with hOld | hNew
      · exact Nat.lt_succ_of_lt (hLookup index hOld)
      · rw [List.mem_singleton.mp hNew, hLength]
        exact Nat.lt_succ_self _
    · intro canonical hCanonical
      rcases List.mem_append.mp hCanonical with hOld | hNew
      · exact hNone canonical hOld
      · exact List.mem_singleton.mp hNew

theorem copyAliases_of_none {results : List (Option (Except MemberError (SqlResponse R)))}
    {aliases : List (Option Nat × Nat)} (h : ∀ entry ∈ aliases, entry.1 = none) :
    copyAliases results aliases = results := by
  induction aliases with
  | nil => rfl
  | cons first rest ih =>
    obtain ⟨canonical, index⟩ := first
    obtain rfl : canonical = none := h _ List.mem_cons_self
    exact ih fun entry hEntry => h entry (List.mem_cons_of_mem _ hEntry)

theorem failed_of_answers {batch : SqlBatch D R} (hIds : (members.map (·.command.requestId)).Nodup)
    {index : Nat} {error : Sql.Error}
    (h : (batch.answers members)[index]? = some (.error (.failed error))) :
    batch.Failed index error := by
  have hAliases : ∀ canonical ∈ (classify members).aliases, canonical = none := by
    refine aliases_of_nodup (List.nil_append _).symm hIds rfl nofun nofun
  have hCopied : copyAliases batch.results (classify members).aliases.zipIdx = batch.results :=
    copyAliases_of_none fun entry hEntry =>
      hAliases entry.1 (List.fst_mem_of_mem_zipIdx hEntry)
  rw [SqlBatch.answers, hCopied, List.getElem?_map] at h
  obtain ⟨result, hResult, hAnswer⟩ := Option.map_eq_some_iff.mp h
  cases result with
  | none => cases hAnswer
  | some answer =>
    rw [SqlBatch.Failed, hResult]
    exact congrArg some hAnswer

end Answers

section Runs

variable {sqlite : Sqlite D S R} {members : List (SqlMember S)} {batch batch' : SqlBatch D R}
  {round : Round} {start : D}

structure Explained (sqlite : Sqlite D S R) (members : List (SqlMember S)) (start : D)
    (batch : SqlBatch D R) : Prop where
  failures : ∀ index error, batch.Failed index error →
    ∃ state ∈ sqlite.statesOf members start batch.log, sqlite.Fails members state index
  current : batch.pending = [] ∨ batch.node.database = sqlite.databaseAfter start batch.log

theorem Explained.beside (h : Explained sqlite members start batch) (hBeside : batch.Beside batch')
    (hFailed : ∀ index error, batch'.Failed index error → batch.Failed index error)
    (hCurrent : batch'.pending = [] ∨
      batch.node.database = sqlite.databaseAfter start batch.log) :
    Explained sqlite members start batch' where
  failures index error hNow := by
    rw [hBeside.2]
    exact h.failures index error (hFailed index error hNow)
  current := by
    rw [hBeside.1, hBeside.2]
    exact hCurrent

theorem Explained.failPending (h : Explained sqlite members start batch) (e : NodeError) :
    Explained sqlite members start (batch.failPending e) :=
  h.beside (SqlBatch.beside_failPending e) (fun _ _ hNow => (SqlBatch.failed_failPending hNow).1)
    (.inl rfl)

theorem Explained.decided (h : Explained sqlite members start batch)
    (hCurrent : batch.node.database = sqlite.databaseAfter start batch.log)
    {attempted : SqlBatch D R} {proposal : Proposal R} {entry : LogEntry}
    (hBeside : batch.Beside attempted)
    (hFailed : ∀ index error, attempted.Failed index error → batch.Failed index error ∨
      sqlite.Fails members batch.node.database index ∨
        proposal.Won entry ∧ Explains sqlite members batch.node.database index (some proposal)) :
    ∀ index error, attempted.Failed index error → ∃ state ∈ sqlite.statesOf members start
      (attempted.log ++ [(proposal.committed entry, entry)]), sqlite.Fails members state index := by
  intro index error hNow
  rw [hBeside.2]
  have hBase : sqlite.databaseAfter start batch.log ∈ sqlite.statesOf members start batch.log :=
    databaseAfter_mem start batch.log
  obtain hOld | hFails | ⟨hWon, state, hFails, hState⟩ := hFailed index error hNow
  · obtain ⟨state, hMem, hFails⟩ := h.failures index error hOld
    exact ⟨state, mem_statesOf_append.mpr (.inl hMem), hFails⟩
  · rw [hCurrent] at hFails
    exact ⟨_, mem_statesOf_append.mpr (.inl hBase), hFails⟩
  · rw [hCurrent] at hState
    refine ⟨state, mem_statesOf_append.mpr ?_, hFails⟩
    rw [Proposal.committed, if_pos hWon]
    obtain rfl | hInside | rfl := hState
    · exact .inl hBase
    · exact .inr (.inl hInside)
    · refine .inr (.inr ?_)
      rw [Sqlite.apply, if_pos hWon.1, hWon.2]

def Proposal.Wins (proposal : Proposal R) (batch : SqlBatch D R) (round : Round) : Prop :=
  (checkedSucc batch.node.tip.index).isSome ∧
    ∃ entry fault, round.decision = .decided entry fault ∧ proposal.Won entry

variable [Sha256]

theorem recheck_sound (sqlite : Sqlite D S R) (members : List (SqlMember S)) (batch : SqlBatch D R)
    (fault : Option NodeError) : batch.Beside (batch.recheck sqlite members fault) ∧ ∀ index error,
      (batch.recheck sqlite members fault).Failed index error → batch.Failed index error := by
  unfold SqlBatch.recheck
  split
  · exact ⟨SqlBatch.beside_failPending _, fun _ _ h => (SqlBatch.failed_failPending h).1⟩
  · rename_i lookups _
    have hEmptied : batch.Beside { batch with pending := [] } := ⟨rfl, rfl⟩
    refine ⟨hEmptied.trans (SqlBatch.beside_settle lookups), fun index error h => ?_⟩
    have hOld : { batch with pending := [] }.Failed index error := SqlBatch.failed_settle h
    exact hOld

theorem Explained.recheck (h : Explained sqlite members start batch)
    (hCurrent : batch.node.database = sqlite.databaseAfter start batch.log)
    (fault : Option NodeError) :
    Explained sqlite members start (batch.recheck sqlite members fault) := by
  obtain ⟨hBeside, hFailed⟩ := recheck_sound sqlite members batch fault
  exact h.beside hBeside hFailed (.inr hCurrent)

theorem Explained.respond (h : Explained sqlite members start batch)
    (hCurrent : batch.node.database = sqlite.databaseAfter start batch.log) (entry : LogEntry)
    (prepared : List (Nat × R)) (fault : Option NodeError) : Explained sqlite members start
      ((batch.respond entry prepared).retainPending.recheck sqlite members fault) := by
  have hBeside : batch.Beside (batch.respond entry prepared) := SqlBatch.beside_respond entry prepared
  have hResponded : Explained sqlite members start (batch.respond entry prepared).retainPending :=
    h.beside hBeside (fun _ _ hNow => SqlBatch.failed_respond hNow) (.inr hCurrent)
  refine hResponded.recheck ?_ fault
  rw [← hBeside.1, ← hBeside.2] at hCurrent
  exact hCurrent

theorem Explained.conclude (h : Explained sqlite members start batch)
    (hCurrent : batch.node.database = sqlite.databaseAfter start batch.log)
    {attempted : SqlBatch D R} {proposal : Proposal R} (hBeside : batch.Beside attempted)
    (hFailed : ∀ index error, attempted.Failed index error →
      batch.Failed index error ∨ Explains sqlite members batch.node.database index (some proposal))
    (hHarmless : proposal.Wins batch round ∨ ∀ index error, attempted.Failed index error →
      batch.Failed index error ∨ sqlite.Fails members batch.node.database index) :
    Explained sqlite members start (attempted.conclude sqlite members round proposal) := by
  -- without a decision the proposal has not won
  have hLost : ¬proposal.Wins batch round → Explained sqlite members start attempted := by
    intro hNot
    refine ⟨fun index error hNow => ?_, .inr ?_⟩
    · rw [hBeside.2]
      rcases (hHarmless.resolve_left hNot) index error hNow with hOld | hFails
      · exact h.failures index error hOld
      · rw [hCurrent] at hFails
        exact ⟨_, databaseAfter_mem start batch.log, hFails⟩
    · rw [hBeside.1, hBeside.2]
      exact hCurrent
  unfold SqlBatch.conclude
  rw [hBeside.1]
  split
  · rename_i hSlot
    refine (hLost ?_).failPending _
    rintro ⟨hSome, -⟩
    rw [hSlot] at hSome
    cases hSome
  · split
    · rename_i hDecision
      refine (hLost ?_).failPending _
      rintro ⟨-, entry, fault, hDecided, -⟩
      rw [hDecision] at hDecided
      cases hDecided
    · rename_i entry fault hDecision
      have hStates : ∀ index error, attempted.Failed index error → ∃ state ∈ sqlite.statesOf members
          start (attempted.log ++ [(proposal.committed entry, entry)]),
          sqlite.Fails members state index := by
        refine h.decided hCurrent hBeside fun index error hNow => ?_
        rcases hHarmless with ⟨-, own, fault', hOwn, hWon⟩ | hBase
        · rw [hDecision] at hOwn
          cases hOwn
          exact (hFailed index error hNow).imp_right fun hExplained => .inr ⟨hWon, hExplained⟩
        · exact (hBase index error hNow).imp_right .inl
      dsimp only
      split
      · refine ⟨fun index error hNow => ?_, .inl rfl⟩
        rw [(SqlBatch.beside_failPending _).2]
        have hBefore : attempted.Failed index error := (SqlBatch.failed_failPending hNow).1
        exact hStates index error hBefore
      · have hPersisted : Explained sqlite members start
            { attempted with
              log := attempted.log ++ [(proposal.committed entry, entry)]
              node := sqlite.applyEntry batch.node entry } := by
          refine ⟨hStates, .inr ?_⟩
          rw [databaseAfter_append, hBeside.2, ← hCurrent]
          rfl
        have hNode : sqlite.apply batch.node.database entry = sqlite.databaseAfter start
            (attempted.log ++ [(proposal.committed entry, entry)]) := by
          rw [databaseAfter_append, hBeside.2, ← hCurrent]
        split
        · exact hPersisted.respond hNode entry proposal.prepared round.lookupFault
        · exact hPersisted.recheck hNode round.lookupFault

theorem Explained.atStart (node : SqlState D) (fault : Option NodeError) :
    Explained sqlite members node.database (SqlBatch.start sqlite members node fault) := by
  have hNone : ∀ index error, ¬(⟨node, members.map fun _ => none, [], []⟩ : SqlBatch D R).Failed
      index error := by
    intro index error hFailed
    rw [SqlBatch.Failed, List.getElem?_map] at hFailed
    cases hMember : members[index]? with
    | none =>
      rw [hMember] at hFailed
      cases hFailed
    | some member =>
      rw [hMember] at hFailed
      cases hFailed
  unfold SqlBatch.start
  dsimp only
  split
  · rename_i error _
    refine ⟨fun index e hFailed => ?_, .inl rfl⟩
    rw [SqlBatch.Failed, List.getElem?_map] at hFailed
    cases hMember : members[index]? with
    | none =>
      rw [hMember] at hFailed
      cases hFailed
    | some member =>
      rw [hMember] at hFailed
      cases hFailed
  · rename_i lookups _
    have hBeside : SqlBatch.Beside (⟨node, members.map fun _ => none, [], []⟩ : SqlBatch D R) _ :=
      SqlBatch.beside_settle lookups
    refine ⟨fun index error hFailed => ?_, .inr ?_⟩
    · exact absurd (SqlBatch.failed_settle hFailed) (hNone index error)
    · rw [hBeside.1, hBeside.2]
      rfl

variable [DecidableEq S]

theorem propose_sound {after : SqlBatch D R} {proposal : Option (Proposal R)}
    (h : batch.propose sqlite members round = (after, proposal)) :
    batch.Beside after ∧ ∀ index error, after.Failed index error →
      batch.Failed index error ∨ Explains sqlite members batch.node.database index proposal := by
  have hRefused : ∀ e : NodeError, batch.Beside (batch.failPending e) ∧ ∀ index error,
      (batch.failPending e).Failed index error → batch.Failed index error ∨
        Explains sqlite members batch.node.database index none :=
    fun e => ⟨SqlBatch.beside_failPending e,
      fun _ _ hFailed => .inl (SqlBatch.failed_failPending hFailed).1⟩
  unfold SqlBatch.propose at h
  dsimp only at h
  split at h
  · cases h
    exact hRefused _
  · split at h
    · cases h
      exact hRefused _
    · cases h
      have hPending : batch.eligible members ⊆ batch.pending := fun index hMem =>
        (List.mem_filter.mp (List.mem_of_mem_take hMem)).1
      obtain ⟨hBeside, hFailed⟩ := attempt_sound _ hPending (Prod.eta (attempt sqlite members batch
        batch.node.tip round.prepareFault (batch.eligible members)
        (batch.eligible members).length)).symm
      exact ⟨hBeside, hFailed⟩

def Harmless (sqlite : Sqlite D S R) (members : List (SqlMember S)) (batch : SqlBatch D R)
    (round : Round) : Prop :=
  ∀ after proposal, batch.propose sqlite members round = (after, some proposal) →
    proposal.Wins batch round ∨ ∀ index error, after.Failed index error →
      batch.Failed index error ∨ sqlite.Fails members batch.node.database index

theorem Explained.step (h : Explained sqlite members start batch)
    (hHarmless : Harmless sqlite members batch round)
    (hStep : batch.step sqlite members round = some batch') :
    Explained sqlite members start batch' := by
  unfold SqlBatch.step at hStep
  split at hStep
  · cases hStep
  · rename_i hPending
    have hCurrent := h.current.resolve_left hPending
    split at hStep
    · rename_i attempted hPropose
      cases hStep
      obtain ⟨hBeside, hFailed⟩ := propose_sound hPropose
      refine ⟨fun index error hNow => ?_, .inr ?_⟩
      · rw [hBeside.2]
        rcases hFailed index error hNow with hOld | hFails
        · exact h.failures index error hOld
        · refine ⟨_, databaseAfter_mem start batch.log, ?_⟩
          rw [← hCurrent]
          exact hFails
      · rw [hBeside.1, hBeside.2]
        exact hCurrent
    · rename_i attempted proposal hPropose
      cases hStep
      obtain ⟨hBeside, hFailed⟩ := propose_sound hPropose
      exact h.conclude hCurrent hBeside hFailed (hHarmless attempted proposal hPropose)

theorem failures_are_explained (hIds : (members.map (·.command.requestId)).Nodup)
    {node : SqlState D} {fault : Option NodeError} {batch : SqlBatch D R}
    (hRun : Run (SqlBatch.step sqlite members) (Harmless sqlite members)
      (SqlBatch.start sqlite members node fault) batch) {index : Nat} {error : Sql.Error}
    (hAnswer : (batch.answers members)[index]? = some (.error (.failed error))) :
    ∃ state ∈ sqlite.statesOf members node.database batch.log,
      sqlite.Fails members state index := by
  have hExplained : Explained sqlite members node.database batch := by
    refine Run.invariant (P := Explained sqlite members node.database)
      (Explained.atStart node fault) ?_ hRun
    intro batch round batch' h hHarmless hStep
    exact h.step hHarmless hStep
  exact hExplained.failures index error (failed_of_answers hIds hAnswer)

end Runs

namespace UniqueKeys

attribute [local instance] Sha256.rolling

structure Insert where
  key : UInt8
  deriving DecidableEq

def executeAll : Bytes → List Insert → Except Sql.Error (Nat × Bytes)
  | keys, [] => .ok (0, keys)
  | keys, insert :: rest =>
    if insert.key ∈ keys then .error (.sqlite "UNIQUE constraint failed: t.k")
    else do
      let (rows, keys) ← executeAll (keys ++ [insert.key]) rest
      pure (rows + 1, keys)

def encodeReceipt (receipt : QwalReceipt) : Bytes :=
  utf8 receipt.requestId ++ receipt.requestDigest.bytes ++ receipt.resultBlob

def decodeReceipts : Nat → Bytes → List QwalReceipt
  | 0, _ => []
  | count + 1, bytes =>
    if h : ((bytes.drop 1).take 32).length = 32 then
      ⟨String.ofList ((bytes.take 1).map fun b => Char.ofNat b.toNat), ⟨_, h⟩,
        (bytes.drop 33).take 1⟩ :: decodeReceipts count (bytes.drop 34)
    else []

def encodeEffect (keys : Bytes) (receipts : List QwalReceipt) : Bytes :=
  Sql.qwalMagic ++ UInt8.ofNat keys.length :: UInt8.ofNat receipts.length ::
    (keys ++ receipts.flatMap encodeReceipt)

def keysIn (payload : Bytes) : Bytes := (payload.drop 8).take (payload.getD 6 0).toNat

def receiptsIn (payload : Bytes) : List QwalReceipt :=
  decodeReceipts (payload.getD 7 0).toNat (payload.drop (8 + (payload.getD 6 0).toNat))

/-- A payload is the id of the request and the keys; an effect holds the table it leaves. -/
def sqlite : Sqlite Bytes Insert Nat where
  validateCommand _ := .ok ()
  decodeCommand
    | [] => .error (.invalidCommand "empty SQL command")
    | requestId :: keys => .ok ⟨String.ofList [Char.ofNat requestId.toNat], keys.map Insert.mk⟩
  execute := executeAll
  encodeResult rows := .ok [UInt8.ofNat rows]
  decodeResult blob := .ok (fromBeBytes blob)
  capture _ _ staged receipts :=
    let payload := encodeEffect staged receipts
    if keysIn payload = staged then .ok payload
    else .error (.resourceExhausted "QWAL envelope is too large")
  install _ payload := keysIn payload
  receiptsIn := receiptsIn
  install_capture := by
    intro base database staged receipts payload h
    dsimp only at h
    split at h
    · cases h
      assumption
    · cases h

def member (requestId : UInt8) (keys : Bytes) : SqlMember Insert :=
  ⟨requestId :: keys, ⟨String.ofList [Char.ofNat requestId.toNat], keys.map Insert.mk⟩⟩

/-- Request `a` inserts two keys, and request `b` one of them. -/
def members : List (SqlMember Insert) := [member 97 [1, 2], member 98 [1]]

def node : SqlState Bytes := ⟨⟨0, .zero⟩, [], []⟩

def foreignPayload : Bytes :=
  encodeEffect [2] [⟨"c", LogHash.digest [[99, 2]], [1]⟩]

def entry (payload : Bytes) : LogEntry where
  clusterId := "cluster"
  epoch := 1
  configId := 1
  index := 1
  entryType := .command
  payload
  prevHash := .zero
  hash := .ofByte 1

def round (payload : Bytes) : Round := ⟨none, fun _ => none, .decided (entry payload) none, none⟩

def unique : Sql.Error := .sqlite "UNIQUE constraint failed: t.k"

/-- Both requests failed; another node's entry is all that was decided. -/
def lost : SqlBatch Bytes Nat where
  node := sqlite.applyEntry node (entry foreignPayload)
  results := [some (.error (.failed unique)), some (.error (.failed unique))]
  pending := []
  log := [([], entry foreignPayload)]

/-- Request `b` fails on the keys of `a`. The slot goes to another node, and `a` fails on
what it inserted. Nothing that was ever committed explains the failure of `b`. -/
theorem lost_failure_is_reported :
    (members.map (·.command.requestId)).Nodup ∧
      Run (SqlBatch.step sqlite members) (fun _ _ => True)
        (SqlBatch.start sqlite members node none) lost ∧
      (lost.answers members)[1]? = some (.error (.failed unique)) ∧
      ∀ state ∈ sqlite.statesOf members node.database lost.log, ¬sqlite.Fails members state 1 := by
  have hRounds : execute (SqlBatch.step sqlite members) (SqlBatch.start sqlite members node none)
      [round foreignPayload, round foreignPayload] = some lost := by
    decide +kernel
  have hStates : sqlite.statesOf members node.database lost.log = [[], [2]] := by decide +kernel
  refine ⟨by decide +kernel, Run.of_execute (fun _ _ _ => trivial) hRounds, by decide +kernel, ?_⟩
  rw [hStates]
  rintro state hState ⟨m, error, hMember, hRun⟩
  cases hMember
  rcases List.mem_cons.mp hState with rfl | hState
  · cases hRun
  · rcases List.mem_singleton.mp hState with rfl
    cases hRun

def ownPayload : Bytes := encodeEffect [1, 2] [⟨"a", LogHash.digest [[97, 1, 2]], [2]⟩]

def won : SqlBatch Bytes Nat where
  node := sqlite.applyEntry node (entry ownPayload)
  results := [some (.ok ⟨1, .ofByte 1, 2⟩), some (.error (.failed unique))]
  pending := []
  log := [([0], entry ownPayload)]

theorem won_failure_is_explained :
    ∃ state ∈ sqlite.statesOf members node.database won.log, sqlite.Fails members state 1 := by
  have hPropose : (SqlBatch.start sqlite members node none).propose sqlite members
      (round ownPayload) = (⟨node, [none, some (.error (.failed unique))], [0], []⟩,
        some ⟨ownPayload, [(0, 2)]⟩) := by
    decide +kernel
  have hHarmless : Harmless sqlite members (SqlBatch.start sqlite members node none)
      (round ownPayload) := by
    intro after proposal hHere
    rw [hPropose] at hHere
    cases hHere
    exact .inl ⟨by decide +kernel, entry ownPayload, none, rfl, rfl, rfl⟩
  have hStep : (SqlBatch.start sqlite members node none).step sqlite members (round ownPayload) =
      some won := by
    decide +kernel
  exact failures_are_explained (by decide +kernel) (.step _ .refl hHarmless hStep)
    (by decide +kernel : (won.answers members)[1]? = some (.error (.failed unique)))

end UniqueKeys

end Rhiza.Node
