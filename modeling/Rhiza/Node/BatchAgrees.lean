import Rhiza.Node.BatchLoop

/-! # When a batch and the members one at a time agree

Both end with the same journal. They answer alike unless a member clashes with an
earlier one of the batch although its payload has the hash that is recorded.
-/

namespace Rhiza.Node

open Rhiza.Core Rhiza.Library

variable {M C R D : Type}

/-- The kinds of answers, seen from the state before: what was recorded then, what was
applied since, a reused request, and anything else. -/
inductive AnswerKind (R : Type)
  | recorded (outcome : MutationOutcome R)
  | applied (result : R)
  | conflict
  | failed (error : NodeError)
  deriving DecidableEq

namespace ProfileView

variable {p : Profile M C R} {v : ProfileView p D} {m m' : M} {n : Nat}
  {members : List (ProfileMember C)} {member : ProfileMember C}
  {answer : Except NodeError (MutationOutcome R)}

def kindOf (v : ProfileView p D) (m : M) (member : ProfileMember C) :
    Except NodeError (MutationOutcome R) → AnswerKind R
  | .ok outcome =>
    if (v.record m (p.requestId member.command)).isSome then .recorded outcome
    else .applied outcome.result
  | .error (.invalidRequest _) => .conflict
  | .error error => .failed error

structure Agrees (v : ProfileView p D) (m : M) (members : List (ProfileMember C))
    (batch single : List (Except NodeError (MutationOutcome R)) × ProfileNode M) : Prop where
  batchAnswers : batch.1.length = members.length
  singleAnswers : single.1.length = members.length
  kinds : List.zipWith (v.kindOf m) members batch.1 = List.zipWith (v.kindOf m) members single.1
  journal : v.journal batch.2.machine = v.journal single.2.machine

/-- The hash that the record of a request has, or will have once the first member with the
request is carried out. -/
def heldHash (v : ProfileView p D) (m : M) (requestId : String) (first : ProfileMember C) : LogHash :=
  ((v.record m requestId).map (·.1)).getD (v.digest first.payload)

def NoFalseClash (v : ProfileView p D) (m : M) (members : List (ProfileMember C)) : Prop :=
  ∀ member ∈ members, ∀ first, p.firstOf members member = some first →
    first.payload ≠ member.payload →
    (p.looksUpFirst = true → v.record m (p.requestId member.command) = none) →
    v.heldHash m (p.requestId member.command) first ≠ v.digest member.payload

def kindAt (v : ProfileView p D) (m : M) (l : Journal String LogHash R D)
    (member : ProfileMember C) : AnswerKind R :=
  match l.done (p.requestId member.command) with
  | none => .failed (.invariant p.resultOmitted)
  | some (mark, result) =>
    if mark = v.digest member.payload then
      (v.record m (p.requestId member.command)).elim (.applied result) fun record =>
        .recorded record.2
    else .conflict

theorem Answered.kind (h : v.Answered m' member answer) (hRecords : v.Extends m m') :
    v.kindOf m member answer = v.kindAt m (v.journal m') member := by
  obtain ⟨mark, outcome, hRecord, hSame, hOther⟩ := h
  have hDone : (v.journal m').done (p.requestId member.command) = some (mark, outcome.result) := by
    change (v.record m' (p.requestId member.command)).map _ = _
    rw [hRecord]
    rfl
  rw [kindAt, hDone]
  by_cases hMark : mark = v.digest member.payload
  · rw [hSame hMark, kindOf]
    dsimp only
    rw [if_pos hMark]
    cases hOld : v.record m (p.requestId member.command) with
    | none => rfl
    | some record =>
      have hKept := hRecords (p.requestId member.command) (hOld ▸ rfl)
      rw [hRecord, hOld] at hKept
      rw [← Option.some.inj hKept]
      rfl
  · obtain ⟨message, hAnswer⟩ := hOther hMark
    rw [hAnswer, kindOf]
    dsimp only
    rw [if_neg hMark]

theorem zipWith_eq_map {α β γ : Type} {f : α → β → γ} {g : α → γ} {left : List α} {right : List β}
    (h : List.Forall₂ (fun a b => f a b = g a) left right) : List.zipWith f left right = left.map g := by
  induction h with
  | nil => rfl
  | cons hHead _ ih => rw [List.zipWith_cons_cons, hHead, ih, List.map_cons]

theorem kindAt_eq_conflict {l : Journal String LogHash R D} {mark : LogHash}
    (h : (l.done (p.requestId member.command)).map (·.1) = some mark) :
    .conflict = v.kindAt m l member ↔ mark ≠ v.digest member.payload := by
  obtain ⟨⟨mark', result⟩, hDone, rfl⟩ := Option.map_eq_some_iff.mp h
  rw [kindAt, hDone]
  dsimp only
  split
  · rename_i hMark
    refine iff_of_false ?_ fun hOther => hOther hMark
    cases v.record m (p.requestId member.command) <;> nofun
  · rename_i hMark
    exact iff_of_true rfl hMark

theorem mark_at_end {first : ProfileMember C} (hFirst : p.firstOf members member = some first) :
    ((v.works.execAll (v.journal m) members).done (p.requestId member.command)).map (·.1) =
      some (v.heldHash m (p.requestId member.command) first) := by
  rw [Works.mark_done_execAll]
  have hMarks : ((v.journal m).done (p.requestId member.command)).map (·.1) =
      (v.record m (p.requestId member.command)).map (·.1) := by
    rw [journal, Option.map_map]
    rfl
  have hFind : (members.find? fun job => p.requestId member.command = v.works.key job) = some first :=
    hFirst
  rw [hMarks, hFind, heldHash]
  cases (v.record m (p.requestId member.command)).map (·.1) <;> rfl

open Classical in
theorem Lawful.agrees_iff (hLaws : v.Lawful) (hFits : ∀ member ∈ members, v.Fits member)
    (hGood : v.Good m n) (hRoom : n + members.length < u64Bound) (hShort : members.length ≤ v.limit) :
    v.Agrees m members (p.executeClientBatchLocked ⟨m, none⟩ members) (p.oneByOne ⟨m, none⟩ members) ↔
      v.NoFalseClash m members := by
  obtain ⟨answers, m₁, n₁, hBatch, -, hJournal₁, hRecords₁, hAnswers₁⟩ :=
    hLaws.clientBatch hFits hGood hRoom hShort
  obtain ⟨answers', m₂, n₂, hSingle, -, hJournal₂, hRecords₂, hAnswers₂⟩ :=
    hLaws.oneByOne hGood hRoom hFits
  have hKinds₁ : List.zipWith (v.kindOf m) members answers = members.map fun member =>
      if v.Clash m members member then .conflict else v.kindAt m (v.journal m₁) member := by
    refine zipWith_eq_map (hAnswers₁.imp fun member answer hAnswer => ?_)
    by_cases hClash : v.Clash m members member
    · obtain ⟨message, hError⟩ := hAnswer.1 hClash
      rw [if_pos hClash, hError]
      rfl
    · rw [if_neg hClash]
      exact (hAnswer.2 hClash).kind hRecords₁
  have hKinds₂ : List.zipWith (v.kindOf m) members answers' =
      members.map (v.kindAt m (v.journal m₂)) :=
    zipWith_eq_map (hAnswers₂.imp fun member answer hAnswer => hAnswer.kind hRecords₂)
  have hSame : v.journal m₁ = v.journal m₂ := hJournal₁.trans hJournal₂.symm
  have hKinds : v.Agrees m members (p.executeClientBatchLocked ⟨m, none⟩ members)
      (p.oneByOne ⟨m, none⟩ members) ↔ ∀ member ∈ members,
        (if v.Clash m members member then .conflict else v.kindAt m (v.journal m₁) member) =
          v.kindAt m (v.journal m₂) member := by
    rw [hBatch, hSingle, ← List.map_inj_left, ← hKinds₁, ← hKinds₂]
    exact ⟨fun h => h.kinds, fun h => ⟨hAnswers₁.length_eq.symm, hAnswers₂.length_eq.symm, h, hSame⟩⟩
  rw [hKinds, hSame]
  refine forall₂_congr fun member hMember => ?_
  constructor
  · intro hEqual first hFirst hOther hLooks
    have hClash : v.Clash m members member := ⟨first, hFirst, hOther, hLooks⟩
    rw [if_pos hClash] at hEqual
    exact (kindAt_eq_conflict (hJournal₂ ▸ mark_at_end hFirst)).mp hEqual
  · intro hNot
    by_cases hClash : v.Clash m members member
    · rw [if_pos hClash]
      obtain ⟨first, hFirst, hOther, hLooks⟩ := hClash
      exact (kindAt_eq_conflict (hJournal₂ ▸ mark_at_end hFirst)).mpr (hNot first hFirst hOther hLooks)
    · rw [if_neg hClash]

end ProfileView

end Rhiza.Node
