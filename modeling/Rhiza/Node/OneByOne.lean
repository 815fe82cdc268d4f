import Rhiza.Library.Journal
import Rhiza.Node.ProfileBatch

/-! # Batches against the members one at a time

The records of a materializer are a journal: who comes first with a request is carried
out, and a record never changes. Both ways of executing the members of a batch end with
the journal in which all members are carried out in order, and what a member is answered
can be read from its record there.
-/

namespace Rhiza.Node

open Rhiza.Core Rhiza.Library

variable {M C R D : Type}

def Profile.Carries (p : Profile M C R) (payload : Bytes) (jobs : List (ProfileMember C)) : Prop :=
  (∃ member, jobs = [member] ∧ payload = member.payload) ∨
    p.encodeBatch (jobs.map (·.command)) = .ok payload

/-- The data and the records of a machine, what a command does to the data, and which machines
(at which index) and members the laws are about. -/
structure ProfileView (p : Profile M C R) (D : Type) where
  run : C → D → R × D
  digest : Bytes → LogHash
  data : M → D
  record : M → String → Option (LogHash × MutationOutcome R)
  Good : M → Nat → Prop
  Fits : ProfileMember C → Prop
  limit : Nat

theorem Profile.commit_of {p : Profile M C R} {m : M} {tip : LogAnchor} {slot : Nat}
    (hTip : p.appliedTip m = .ok tip) (hSlot : checkedSucc tip.index = some slot) (payload : Bytes) :
    p.commit m payload = p.applyEntry m (p.ownEntry m tip slot payload) := by
  rw [commit, hTip, ok_bind, hSlot, Option.elim_some, ok_bind]

namespace ProfileView

variable {p : Profile M C R} (v : ProfileView p D)

def works : Works (ProfileMember C) String LogHash R D where
  key member := p.requestId member.command
  mark member := v.digest member.payload
  run member := v.run member.command

def journal (m : M) : Journal String LogHash R D where
  data := v.data m
  done requestId := (v.record m requestId).map fun record => (record.1, record.2.result)

def Extends (m m' : M) : Prop :=
  ∀ requestId, (v.record m requestId).isSome → v.record m' requestId = v.record m requestId

def Answered (m : M) (member : ProfileMember C)
    (answer : Except NodeError (MutationOutcome R)) : Prop :=
  ∃ mark outcome, v.record m (p.requestId member.command) = some (mark, outcome) ∧
    (mark = v.digest member.payload → answer = .ok outcome) ∧
    (mark ≠ v.digest member.payload → ∃ message, answer = .error (.invalidRequest message))

structure Lawful : Prop where
  check_none : ∀ {m n member}, v.Good m n → v.Fits member →
    v.record m (p.requestId member.command) = none → p.check m member = .ok none
  check_same : ∀ {m n member mark outcome}, v.Good m n → v.Fits member →
    v.record m (p.requestId member.command) = some (mark, outcome) →
    mark = v.digest member.payload → p.check m member = .ok (some outcome)
  check_other : ∀ {m n member mark outcome}, v.Good m n → v.Fits member →
    v.record m (p.requestId member.command) = some (mark, outcome) →
    mark ≠ v.digest member.payload → ∃ message, p.check m member = .error (.invalidRequest message)
  commit : ∀ {m n payload} {jobs : List (ProfileMember C)}, v.Good m n → n + 1 < u64Bound →
    p.Carries payload jobs → (∀ job ∈ jobs, v.Fits job) →
    (jobs.map fun job => p.requestId job.command).Nodup →
    (∀ job ∈ jobs, v.record m (p.requestId job.command) = none) →
    ∃ m', p.commit m payload = .ok m' ∧ v.Good m' (n + 1) ∧
      v.journal m' = v.works.execAll (v.journal m) jobs ∧ v.Extends m m'
  encode : ∀ {jobs : List (ProfileMember C)}, (∀ job ∈ jobs, v.Fits job) → jobs ≠ [] →
    jobs.length ≤ v.limit → (jobs.map fun job => p.requestId job.command).Nodup →
    ∃ payload, p.encodeBatch (jobs.map (·.command)) = .ok payload
  fits : ∀ {commands count payload}, p.fittingPrefix commands = some (count, payload) →
    0 < count ∧ count ≤ commands.length ∧ p.encodeBatch (commands.take count) = .ok payload

variable {v} {m m' m'' : M} {n : Nat} {member : ProfileMember C}

theorem Extends.refl (m : M) : v.Extends m m := fun _ _ => rfl

theorem Extends.trans (h : v.Extends m m') (h' : v.Extends m' m'') : v.Extends m m'' := by
  intro requestId hSome
  have hFirst := h requestId hSome
  rw [h' requestId (hFirst ▸ hSome), hFirst]

theorem Answered.extends {answer : Except NodeError (MutationOutcome R)}
    (h : v.Answered m member answer) (hExtends : v.Extends m m') : v.Answered m' member answer := by
  obtain ⟨mark, outcome, hRecord, hSame, hOther⟩ := h
  refine ⟨mark, outcome, ?_, hSame, hOther⟩
  rw [hExtends _ (hRecord ▸ rfl), hRecord]

theorem Answered.alias {other : ProfileMember C} {answer : Except NodeError (MutationOutcome R)}
    (h : v.Answered m other answer)
    (hKey : p.requestId other.command = p.requestId member.command)
    (hPayload : other.payload = member.payload) : v.Answered m member answer := by
  unfold Answered at h ⊢
  rwa [hKey, hPayload] at h

theorem isSome_done {requestId : String} :
    ((v.journal m).done requestId).isSome ↔ (v.record m requestId).isSome := by
  rw [journal, Option.isSome_map]

theorem Lawful.check_some (h : v.Lawful) (hGood : v.Good m n) (hFits : v.Fits member)
    (hSome : (v.record m (p.requestId member.command)).isSome) :
    (∃ outcome, p.check m member = .ok (some outcome) ∧ v.Answered m member (.ok outcome)) ∨
      ∃ error, p.check m member = .error error ∧ v.Answered m member (.error error) := by
  obtain ⟨⟨mark, outcome⟩, hRecord⟩ := Option.isSome_iff_exists.mp hSome
  by_cases hMark : mark = v.digest member.payload
  · exact .inl ⟨outcome, h.check_same hGood hFits hRecord hMark, mark, outcome, hRecord,
      fun _ => rfl, fun hOther => absurd hMark hOther⟩
  · obtain ⟨message, hCheck⟩ := h.check_other hGood hFits hRecord hMark
    exact .inr ⟨_, hCheck, mark, outcome, hRecord, fun hSame => absurd hSame hMark,
      fun _ => ⟨message, rfl⟩⟩

structure Mutated (v : ProfileView p D) (m : M) (n : Nat) (member : ProfileMember C) (m' : M)
    (n' : Nat) (answer : Except NodeError (MutationOutcome R)) : Prop where
  good : v.Good m' n'
  index : n' ≤ n + 1
  journal : v.journal m' = v.works.exec (v.journal m) member
  records : v.Extends m m'
  answered : v.Answered m' member answer

theorem Lawful.mutate (h : v.Lawful) (hGood : v.Good m n) (hRoom : n + 1 < u64Bound)
    (hFits : v.Fits member) : ∃ answer m' n', p.mutatePayloadLocked ⟨m, none⟩ member =
      (answer, ⟨m', none⟩) ∧ Mutated v m n member m' n' answer := by
  by_cases hSome : (v.record m (p.requestId member.command)).isSome
  · have hSame : v.works.exec (v.journal m) member = v.journal m :=
      Works.exec_of_done (isSome_done.mpr hSome)
    obtain ⟨outcome, hCheck, hAnswered⟩ | ⟨error, hCheck, hAnswered⟩ :=
      h.check_some hGood hFits hSome
    · refine ⟨.ok outcome, m, n, ?_, hGood, Nat.le_succ n, hSame.symm, .refl m, hAnswered⟩
      simp only [Profile.mutatePayloadLocked, hCheck]
    · refine ⟨.error error, m, n, ?_, hGood, Nat.le_succ n, hSame.symm, .refl m, hAnswered⟩
      simp only [Profile.mutatePayloadLocked, hCheck]
  · have hNone := Option.not_isSome_iff_eq_none.mp hSome
    have hCarries : p.Carries member.payload [member] := .inl ⟨member, rfl, rfl⟩
    obtain ⟨m', hCommit, hGood', hJournal, hExtends⟩ := h.commit hGood hRoom hCarries
      (by simpa using hFits) (List.nodup_singleton _) (by simpa using hNone)
    have hExec : v.journal m' = v.works.exec (v.journal m) member := hJournal
    have hRecorded : (v.record m' (p.requestId member.command)).isSome := by
      rw [← isSome_done, hExec, Works.isSome_done_exec]
      exact .inr rfl
    have hCheckNone := h.check_none hGood hFits hNone
    obtain ⟨outcome, hCheck, hAnswered⟩ | ⟨error, hCheck, hAnswered⟩ :=
      h.check_some hGood' hFits hRecorded
    · refine ⟨.ok outcome, m', n + 1, ?_, hGood', Nat.le_refl _, hExec, hExtends, hAnswered⟩
      simp only [Profile.mutatePayloadLocked, hCheckNone, hCommit, hCheck]
    · refine ⟨.error error, m', n + 1, ?_, hGood', Nat.le_refl _, hExec, hExtends, hAnswered⟩
      simp only [Profile.mutatePayloadLocked, hCheckNone, hCommit, hCheck]

theorem Lawful.oneByOne (h : v.Lawful) {members : List (ProfileMember C)} (hGood : v.Good m n)
    (hRoom : n + members.length < u64Bound) (hFits : ∀ member ∈ members, v.Fits member) :
    ∃ answers m' n', p.oneByOne ⟨m, none⟩ members = (answers, ⟨m', none⟩) ∧ v.Good m' n' ∧
      v.journal m' = v.works.execAll (v.journal m) members ∧ v.Extends m m' ∧
      List.Forall₂ (v.Answered m') members answers := by
  induction members generalizing m n with
  | nil => exact ⟨[], m, n, rfl, hGood, rfl, .refl m, .nil⟩
  | cons member members ih =>
    rw [List.length_cons] at hRoom
    obtain ⟨answer, m₁, n₁, hMutate, hMutated⟩ :=
      h.mutate hGood (by omega) (hFits member List.mem_cons_self)
    have hIndex := hMutated.index
    obtain ⟨answers, m₂, n₂, hRest, hGood₂, hJournal, hExtends, hAnswered⟩ :=
      ih hMutated.good (by omega) fun other hOther => hFits other (List.mem_cons_of_mem _ hOther)
    refine ⟨answer :: answers, m₂, n₂, ?_, hGood₂, ?_, hMutated.records.trans hExtends,
      .cons (hMutated.answered.extends hExtends) hAnswered⟩
    · simp only [Profile.oneByOne, hMutate, hRest]
    · rw [hJournal, hMutated.journal]
      rfl

end ProfileView

end Rhiza.Node
