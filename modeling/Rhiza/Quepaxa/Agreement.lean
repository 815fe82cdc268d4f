import Rhiza.Quepaxa.Cluster
import Rhiza.Quepaxa.DriveSpec

/-! # Agreement of the proposer driver

For one configuration and one slot, `Tracks` relates the whole system to a
ledger of everything the registers recorded. The answers in flight stay true of
the ledger while it grows, so a call of `drive` may use them at any later time.
-/

namespace Rhiza.Quepaxa

open Core Library

section Quorums

def Group.Quorum (G : Group) : List NodeId → Prop := Majority G.membership.members

theorem Group.Quorum.intersect {G : Group} (Q Q' : List NodeId) (h : G.Quorum Q)
    (h' : G.Quorum Q') : ∃ k, k ∈ Q ∧ k ∈ Q' :=
  Majority.intersect h h'

def Group.Offers (G : Group) (L : Ledger NodeId Proposal) (s : Nat) (p : Proposal) : Prop :=
  L.Offer G.Quorum Proposal.cmp Proposal.value s p

def Group.SoundLedger (G : Group) (L : Ledger NodeId Proposal) : Prop :=
  L.Sound G.Quorum Proposal.cmp Proposal.value

def Group.Decides (G : Group) (L : Ledger NodeId Proposal) (p : Proposal) : Prop :=
  L.Decides G.Quorum Proposal.cmp Proposal.IsTop p

def Group.FastUnique (G : Group) (L : Ledger NodeId Proposal) : Prop :=
  L.FastUnique G.Quorum Proposal.cmp Proposal.value Proposal.IsTop

theorem Group.Decides.value_eq {G : Group} {L : Ledger NodeId Proposal} {p q : Proposal}
    (hSound : G.SoundLedger L) (hUnique : G.FastUnique L) (hp : G.Decides L p)
    (hq : G.Decides L q) : p.value = q.value :=
  Ledger.Decides.agree Group.Quorum.intersect hSound (fun _ _ => Proposal.value_of_cmp) hUnique hp
    hq

end Quorums

structure Answered (G : Group) (L : Ledger NodeId Proposal) (progress : ProposerProgress)
    (reply : RecordSummary) : Prop where
  member : reply.recorderId ∈ G.membership.members
  seen : ∃ isr, reply.Shows isr ∧ Seen L reply.recorderId isr
  ahead : progress.step ≤ reply.step
  recorded : reply.step = progress.step → progress.step % 4 ≠ 0 →
    progress.proposal ∈ L.recorded reply.recorderId progress.step

namespace Answered

variable {G : Group} {L : Ledger NodeId Proposal} {progress : ProposerProgress}
  {reply : RecordSummary}

theorem mono {L' : Ledger NodeId Proposal} (hExtends : L.Extends L')
    (h : Answered G L progress reply) : Answered G L' progress reply where
  member := h.member
  seen := by
    obtain ⟨isr, hShows, hSeen⟩ := h.seen
    exact ⟨isr, hShows, hSeen.mono hExtends⟩
  ahead := h.ahead
  recorded hStep hPhase := hExtends.mem (h.recorded hStep hPhase)

theorem past (h : Answered G L progress reply) : reply.step ≤ L.step reply.recorderId := by
  obtain ⟨isr, hShows, hSeen⟩ := h.seen
  rw [hShows.1]
  exact hSeen.step_le

theorem first (h : Answered G L progress reply) (hStep : 4 ≤ progress.step) :
    ∃ p, reply.firstCurrent = some p ∧ L.first reply.recorderId reply.step = some p := by
  obtain ⟨isr, ⟨hEq, hFirst, -⟩, hSeen⟩ := h.seen
  have hAhead := h.ahead
  obtain ⟨p, hp⟩ := Option.isSome_iff_exists.mp (hSeen.present (by omega))
  exact ⟨p, hFirst.trans hp, hEq ▸ hSeen.first p hp⟩

theorem prior (h : Answered G L progress reply) {s : Nat} (hs : s + 1 = reply.step) :
    Ledger.Greatest Proposal.cmp (L.recorded reply.recorderId s) reply.aggregatePrior := by
  obtain ⟨isr, ⟨hEq, -, hPrior⟩, hSeen⟩ := h.seen
  rw [hPrior]
  exact hSeen.prior s (hs.trans hEq)

end Answered

section Turns

variable {G : Group} {L : Ledger NodeId Proposal} {e : ThreeNodeConsensus}
  {progress next : ProposerProgress} {replies chosen : List RecordSummary}

theorem quorum_of_standing (hMembership : e.membership = G.membership)
    (hAnswered : ∀ reply ∈ replies, reply.decided = none → Answered G L progress reply)
    (h : e.Standing progress replies chosen) : G.Quorum (chosen.map (·.recorderId)) := by
  refine Membership.majority h.distinct ?_ ?_
  · intro k hk
    obtain ⟨reply, hReply, rfl⟩ := List.mem_map.mp hk
    have hMem := h.mem reply hReply
    exact (hAnswered reply hMem (h.undecided reply hMem)).member
  · rw [List.length_map, h.length_eq, hMembership]

theorem answered_of_standing
    (hAnswered : ∀ reply ∈ replies, reply.decided = none → Answered G L progress reply)
    (h : e.Standing progress replies chosen) {reply : RecordSummary} (hReply : reply ∈ chosen) :
    Answered G L progress reply ∧ reply.step = progress.step :=
  ⟨hAnswered reply (h.mem reply hReply) (h.undecided reply (h.mem reply hReply)),
    h.step_eq reply hReply⟩

theorem le_maximum_of_greatest {α : Type} {f : α → Option Proposal} {xs : List α}
    {m q : Proposal} {x : α} {ps : List Proposal}
    (hMaximum : Proposal.maximum (xs.filterMap f) = some m) (hx : x ∈ xs)
    (hGreatest : Ledger.Greatest Proposal.cmp ps (f x)) (hq : q ∈ ps) :
    (Proposal.cmp q m).isLE := by
  cases hf : f x with
  | none =>
    rw [hf] at hGreatest
    rw [show ps = [] from hGreatest] at hq
    cases hq
  | some best =>
    rw [hf] at hGreatest
    exact Proposal.cmp_trans (hGreatest.2 q hq)
      ((Proposal.maximum_eq_some hMaximum).2 best (List.mem_filterMap.mpr ⟨x, hx, hf⟩))

theorem origin_of_takes {proposal : Proposal} (hMembership : e.membership = G.membership)
    (hStart : 4 ≤ progress.step)
    (hAnswered : ∀ reply ∈ replies, reply.decided = none → Answered G L progress reply)
    (hStanding : e.Standing progress replies chosen)
    (hTakes : ThreeNodeConsensus.Takes progress chosen proposal) :
    L.Origin G.Quorum Proposal.cmp Proposal.value (progress.step + 1) proposal := by
  have hQuorum := quorum_of_standing hMembership hAnswered hStanding
  cases hTakes with
  | first hPhase hMaximum =>
    obtain ⟨r, hr⟩ : ∃ r, progress.step = 4 * r := ⟨progress.step / 4, by omega⟩
    obtain ⟨hMem, hGreatest⟩ := Proposal.maximum_eq_some hMaximum
    rw [hr]
    refine .gatherFirst hQuorum ?_ ?_ ?_
    · intro k hk
      obtain ⟨reply, hReply, rfl⟩ := List.mem_map.mp hk
      obtain ⟨hAnswer, hEq⟩ := answered_of_standing hAnswered hStanding hReply
      obtain ⟨p, -, hLedger⟩ := hAnswer.first hStart
      exact ⟨p, by rw [← hr, ← hEq]; exact hLedger⟩
    · obtain ⟨reply, hReply, hFirst⟩ := List.mem_filterMap.mp hMem
      obtain ⟨hAnswer, hEq⟩ := answered_of_standing hAnswered hStanding hReply
      obtain ⟨p, hp, hLedger⟩ := hAnswer.first hStart
      rw [hFirst] at hp
      rw [← hr, ← hEq, Option.some.inj hp]
      exact ⟨reply.recorderId, List.mem_map_of_mem hReply, hLedger⟩
    · intro k hk f hf
      obtain ⟨reply, hReply, rfl⟩ := List.mem_map.mp hk
      obtain ⟨hAnswer, hEq⟩ := answered_of_standing hAnswered hStanding hReply
      obtain ⟨p, hp, hLedger⟩ := hAnswer.first hStart
      rw [← hr, ← hEq, hLedger] at hf
      rw [← Option.some.inj hf]
      exact hGreatest p (List.mem_filterMap.mpr ⟨reply, hReply, hp⟩)
  | keep hPhase hSame =>
    have hRecorded : ∀ k ∈ chosen.map (·.recorderId), proposal ∈ L.recorded k progress.step := by
      intro k hk
      obtain ⟨reply, hReply, rfl⟩ := List.mem_map.mp hk
      obtain ⟨hAnswer, hEq⟩ := answered_of_standing hAnswered hStanding hReply
      rw [hSame]
      exact hAnswer.recorded hEq (by omega)
    rcases hPhase with hPhase | hPhase
    · obtain ⟨r, hr⟩ : ∃ r, progress.step = 4 * r + 1 := ⟨progress.step / 4, by omega⟩
      rw [hr] at hRecorded ⊢
      exact .spread hQuorum hRecorded
    · obtain ⟨r, hr⟩ : ∃ r, progress.step = 4 * r + 2 := ⟨progress.step / 4, by omega⟩
      rw [hr] at hRecorded ⊢
      exact .carry hQuorum hRecorded
  | prior hPhase hMaximum =>
    obtain ⟨r, hr⟩ : ∃ r, progress.step = 4 * r + 3 := ⟨progress.step / 4, by omega⟩
    obtain ⟨hMem, -⟩ := Proposal.maximum_eq_some hMaximum
    rw [hr]
    refine .gatherPrior hQuorum ?_ ?_ ?_ rfl
    · intro k hk
      obtain ⟨reply, hReply, rfl⟩ := List.mem_map.mp hk
      obtain ⟨hAnswer, hEq⟩ := answered_of_standing hAnswered hStanding hReply
      rw [← hr, ← hEq]
      exact hAnswer.past
    · obtain ⟨reply, hReply, hPrior⟩ := List.mem_filterMap.mp hMem
      obtain ⟨hAnswer, hEq⟩ := answered_of_standing hAnswered hStanding hReply
      have hGreatest := hAnswer.prior (s := 4 * r + 2) (by omega)
      rw [hPrior] at hGreatest
      exact ⟨reply.recorderId, List.mem_map_of_mem hReply, hGreatest.1⟩
    · intro k hk q hq
      obtain ⟨reply, hReply, rfl⟩ := List.mem_map.mp hk
      obtain ⟨hAnswer, hEq⟩ := answered_of_standing hAnswered hStanding hReply
      exact le_maximum_of_greatest hMaximum hReply (hAnswer.prior (by omega)) hq

variable [Sha256]

theorem decides_of_formed {proof : DecisionProof} (hMembership : e.membership = G.membership)
    (hNotNil : ∀ k s p, p ∈ L.recorded k s → p.isNil = false) (hStart : 4 ≤ progress.step)
    (hAnswered : ∀ reply ∈ replies, reply.decided = none → Answered G L progress reply)
    (hStanding : e.Standing progress replies chosen) (hFormed : e.Formed progress chosen proof) :
    G.Decides L proof.proposal := by
  have hQuorum := quorum_of_standing hMembership hAnswered hStanding
  cases hFormed with
  | @fast proposal hStep hTop hFirst =>
    have hLedger : ∀ k ∈ chosen.map (·.recorderId), L.first k 4 = some proposal := by
      intro k hk
      obtain ⟨reply, hReply, rfl⟩ := List.mem_map.mp hk
      obtain ⟨hAnswer, hEq⟩ := answered_of_standing hAnswered hStanding hReply
      obtain ⟨p, hp, hLedger⟩ := hAnswer.first hStart
      rw [hFirst reply hReply] at hp
      rw [Option.some.inj hp, ← hStep, ← hEq]
      exact hLedger
    refine .inl ⟨chosen.map (·.recorderId), hQuorum, hLedger, ?_, hTop⟩
    obtain ⟨k, hk⟩ := List.exists_mem_of_ne_nil _ hQuorum.nonempty
    exact hNotNil k 4 proposal (List.mem_of_head? (hLedger k hk))
  | slow hPhase hMaximum =>
    obtain ⟨r, hr⟩ : ∃ r, progress.step = 4 * r + 2 := ⟨progress.step / 4, by omega⟩
    refine .inr ⟨r, chosen.map (·.recorderId), by omega, hQuorum, ?_, ?_, ?_⟩
    · intro k hk
      obtain ⟨reply, hReply, rfl⟩ := List.mem_map.mp hk
      obtain ⟨hAnswer, hEq⟩ := answered_of_standing hAnswered hStanding hReply
      rw [← hr]
      exact hAnswer.recorded hEq (by omega)
    · intro k hk
      obtain ⟨reply, hReply, rfl⟩ := List.mem_map.mp hk
      obtain ⟨hAnswer, hEq⟩ := answered_of_standing hAnswered hStanding hReply
      rw [← hr, ← hEq]
      exact hAnswer.past
    · intro k hk q hq
      obtain ⟨reply, hReply, rfl⟩ := List.mem_map.mp hk
      obtain ⟨hAnswer, hEq⟩ := answered_of_standing hAnswered hStanding hReply
      exact le_maximum_of_greatest hMaximum hReply (hAnswer.prior (by omega)) hq

theorem offers_of_turn (hMembership : e.membership = G.membership) (hSound : G.SoundLedger L)
    (hOffers : G.Offers L progress.step progress.proposal)
    (hAnswered : ∀ reply ∈ replies, reply.decided = none → Answered G L progress reply)
    (hTurn : e.Turn progress replies next) : G.Offers L next.step next.proposal := by
  cases hTurn with
  | stay hStep hProposal =>
    rw [hStep, hProposal]
    exact hOffers
  | jump hReply hDecided hAhead hStep hProposal =>
    obtain ⟨p, hp, hFirst⟩ := (hAnswered _ hReply hDecided).first hOffers.1
    rw [hStep, hProposal, hp, Option.getD_some]
    exact hSound _ _ p (List.mem_of_head? hFirst)
  | advance hStanding hStep hTakes =>
    rw [hStep]
    have hStart := hOffers.1
    exact ⟨by omega, fun _ => origin_of_takes hMembership hStart hAnswered hStanding hTakes⟩

end Turns

section Tracking

variable [Sha256] {R Fault Event : Type} [RecorderRpc R Fault Event]

def Driver.context (driver : Driver) : Context := driver.engine.context driver.progress.slot

def Call.context (call : Call) : Context := call.engine.context call.progress.slot

def DecisionProof.context (proof : DecisionProof) : Context :=
  ⟨proof.configId, proof.configDigest, proof.slot⟩

def Coherent (G : Group) : Action Fault Event → Prop
  | .start engine slot _ _ => engine.context slot = G.context slot →
      engine.membership = G.membership
  | _ => True

def startsIn (G : Group) : Action Fault Event → Bool
  | .start engine _ _ _ => decide (engine.membership = G.membership)
  | _ => true

theorem coherent_of_startsIn {G : Group} {script : List (Action Fault Event)}
    (h : script.all (startsIn G)) {a : Action Fault Event} (ha : a ∈ script) : Coherent G a := by
  have hStart := List.all_eq_true.mp h a ha
  cases a with
  | start engine slot proposal command => exact fun _ => of_decide_eq_true hStart
  | _ => trivial

def SentIn (G : Group) (slot : Nat) (w : World R) (s : Nat) (p : Proposal) : Prop :=
  ∃ call ∈ w.calls, ∃ request ∈ call.requests, request.context = G.context slot ∧
    request.step = s ∧ request.proposal = p

def ShownFirst (w : World R) (context : Context) (k : NodeId) (s : Nat) (p : Proposal) : Prop :=
  ∃ report ∈ w.reports, report.recorderId = k ∧ report.context = context ∧
    report.isr.step = s ∧ report.isr.firstCurrent = some p

structure Tracks (G : Group) (slot : Nat) (w : World R) (L : Ledger NodeId Proposal) : Prop where
  registers : ∀ k, Summarizes L k (RecorderRpc.register (w.recorders k) (G.context slot))
  sound : G.SoundLedger L
  sent : ∀ k s p, p ∈ L.recorded k s → SentIn G slot w s p
  drivers : ∀ driver ∈ w.drivers, driver.context = G.context slot →
    driver.engine.membership = G.membership ∧
      G.Offers L driver.progress.step driver.progress.proposal
  calls : ∀ call ∈ w.calls, call.context = G.context slot →
    call.engine.membership = G.membership ∧
      G.Offers L call.progress.step call.progress.proposal ∧
      call.progress.proposal.isNil = false
  requests : ∀ call ∈ w.calls, ∀ request ∈ call.requests,
    call.engine.RequestOf call.progress request
  answers : ∀ answer ∈ w.answers, ∃ call, w.calls[answer.call]? = some call ∧
    (call.context = G.context slot → ∀ reply, answer.result = .ok reply → reply.decided = none →
      Answered G L call.progress reply)
  formed : ∀ proof ∈ w.formed, proof.context = G.context slot → G.Decides L proof.proposal
  reports : ∀ report ∈ w.reports, report.context = G.context slot →
    Seen L report.recorderId report.isr
  shown : ∀ k s p, L.first k s = some p → ShownFirst w (G.context slot) k s p

namespace Tracks

variable {G : Group} {slot : Nat} {w w' : World R} {L L' : Ledger NodeId Proposal}

theorem init {recorders : NodeId → R}
    (h : ∀ k, RecorderRpc.register (recorders k) (G.context slot) = .empty) :
    Tracks G slot (World.init recorders) emptyLedger where
  registers k := by
    rw [show (World.init recorders).recorders k = recorders k from rfl, h k]
    exact .empty k
  sound k s p hp := by cases hp
  sent k s p hp := by cases hp
  drivers driver h := by cases h
  calls call h := by cases h
  requests call h := by cases h
  answers answer h := by cases h
  formed proof h := by cases h
  reports report h := by cases h
  shown k s p h := by cases h

theorem grow (h : Tracks G slot w L) (hExtends : L.Extends L')
    (hRegisters : ∀ k, Summarizes L' k (RecorderRpc.register (w'.recorders k) (G.context slot)))
    (hSound : G.SoundLedger L') (hSent : ∀ k s p, p ∈ L'.recorded k s → SentIn G slot w s p)
    (hDrivers : w'.drivers = w.drivers) (hCalls : w'.calls = w.calls)
    (hAnswers : ∀ answer ∈ w'.answers, answer ∈ w.answers ∨ ∃ call,
      w.calls[answer.call]? = some call ∧ (call.context = G.context slot → ∀ reply,
        answer.result = .ok reply → reply.decided = none → Answered G L' call.progress reply))
    (hFormed : w'.formed = w.formed)
    (hReports : ∀ report ∈ w'.reports, report ∈ w.reports ∨
      (report.context = G.context slot → Seen L' report.recorderId report.isr))
    (hKept : ∀ report ∈ w.reports, report ∈ w'.reports)
    (hShown : ∀ k s p, L'.first k s = some p →
      L.first k s = some p ∨ ShownFirst w' (G.context slot) k s p) :
    Tracks G slot w' L' where
  registers := hRegisters
  sound := hSound
  sent k s p hp := by
    rw [SentIn, hCalls]
    exact hSent k s p hp
  drivers driver hDriver hContext := by
    rw [hDrivers] at hDriver
    obtain ⟨hMembership, hOffers⟩ := h.drivers driver hDriver hContext
    exact ⟨hMembership, hOffers.mono _ _ _ hExtends⟩
  calls call hCall hContext := by
    rw [hCalls] at hCall
    obtain ⟨hMembership, hOffers, hNil⟩ := h.calls call hCall hContext
    exact ⟨hMembership, hOffers.mono _ _ _ hExtends, hNil⟩
  requests := by
    rw [hCalls]
    exact h.requests
  answers answer hAnswer := by
    rw [hCalls]
    rcases hAnswers answer hAnswer with hOld | hNew
    · obtain ⟨call, hCall, hAnswered⟩ := h.answers answer hOld
      exact ⟨call, hCall, fun hContext reply hReply hDecided =>
        (hAnswered hContext reply hReply hDecided).mono hExtends⟩
    · exact hNew
  formed proof hProof hContext := by
    rw [hFormed] at hProof
    exact (h.formed proof hProof hContext).mono _ _ hExtends
  reports report hReport hContext := by
    rcases hReports report hReport with hOld | hNew
    · exact (h.reports report hOld hContext).mono hExtends
    · exact hNew hContext
  shown k s p hp := by
    rcases hShown k s p hp with hOld | hNew
    · obtain ⟨report, hReport, hRest⟩ := h.shown k s p hOld
      exact ⟨report, hKept report hReport, hRest⟩
    · exact hNew

theorem idle (h : Tracks G slot w L)
    (hRegisters : ∀ k, RecorderRpc.register (w'.recorders k) = RecorderRpc.register (w.recorders k))
    (hDrivers : w'.drivers = w.drivers) (hCalls : w'.calls = w.calls)
    (hAnswers : w'.answers = w.answers) (hFormed : w'.formed = w.formed)
    (hReports : ∀ report ∈ w'.reports, report ∈ w.reports ∨ report.isr =
      RecorderRpc.register (w.recorders report.recorderId) report.context)
    (hKept : ∀ report ∈ w.reports, report ∈ w'.reports) : Tracks G slot w' L := by
  refine h.grow (.refl L) ?_ h.sound h.sent hDrivers hCalls ?_ hFormed ?_ hKept
    fun _ _ _ => .inl
  · intro k
    rw [hRegisters]
    exact h.registers k
  · intro answer hAnswer
    rw [hAnswers] at hAnswer
    exact .inl hAnswer
  · intro report hReport
    rcases hReports report hReport with hOld | hNew
    · exact .inl hOld
    · refine .inr fun hContext => ?_
      rw [hNew, hContext]
      exact (h.registers report.recorderId).seen

theorem start (h : Tracks G slot w L) {engine : ThreeNodeConsensus} {startSlot : Nat}
    {proposal : Proposal} {command : Option StoredCommand}
    (hCoherent : Coherent G (.start engine startSlot proposal command : Action Fault Event))
    (hDrivers : w'.drivers = w.drivers ++ [⟨engine, startProgress startSlot proposal command⟩])
    (hRest : w' = { w with drivers := w'.drivers, offers := w'.offers }) : Tracks G slot w' L := by
  rw [hRest]
  refine { h with drivers := ?_ }
  intro driver hDriver hContext
  rw [hDrivers] at hDriver
  rcases List.mem_append.mp hDriver with hOld | hNew
  · exact h.drivers driver hOld hContext
  · obtain rfl := List.mem_singleton.mp hNew
    obtain rfl : startSlot = slot := by
      simpa [Driver.context, Group.context] using congrArg Context.slot hContext
    refine ⟨hCoherent (by simpa [Driver.context] using hContext), ?_⟩
    exact ⟨by simp, fun hLater => by simp at hLater⟩

theorem broadcast (h : Tracks G slot w L) {driver : Driver} (hDriver : driver ∈ w.drivers)
    {fetched : ControlReplies (Option StoredCommand)} {sample : NodeId → Result ProposalPriority}
    {progress : ProposerProgress} {requests : List RecordRequest}
    (hRequests : driver.engine.driveRequests driver.progress fetched sample =
      .ok (progress, requests)) :
    Tracks G slot { w with calls := w.calls ++ [⟨driver.engine, progress, requests⟩] } L := by
  obtain ⟨ready, hSlot, hStep, hProposal, -, hBacked, hBuilt⟩ :=
    ThreeNodeConsensus.driveRequests_eq_ok hRequests
  have hSlot : progress.slot = driver.progress.slot := hBuilt.slot_eq.trans hSlot
  have hStep : progress.step = driver.progress.step := hBuilt.step_eq.trans hStep
  have hProposal : progress.proposal = driver.progress.proposal :=
    hBuilt.proposal_eq.trans hProposal
  refine { h with sent := ?_, calls := ?_, requests := ?_, answers := ?_ }
  · intro k s p hp
    obtain ⟨call, hCall, hRest⟩ := h.sent k s p hp
    exact ⟨call, List.mem_append_left _ hCall, hRest⟩
  · intro call hCall hContext
    rcases List.mem_append.mp hCall with hOld | hNew
    · exact h.calls call hOld hContext
    · obtain rfl := List.mem_singleton.mp hNew
      have hContext' : driver.context = G.context slot := by
        rw [← hContext, Driver.context, Call.context, hSlot]
      obtain ⟨hMembership, hOffers⟩ := h.drivers driver hDriver hContext'
      refine ⟨hMembership, ?_, ?_⟩
      · change G.Offers L progress.step progress.proposal
        rw [hStep, hProposal]
        exact hOffers
      · change progress.proposal.isNil = false
        rw [hBuilt.proposal_eq]
        exact hBacked.not_isNil
  · intro call hCall request hRequest
    rcases List.mem_append.mp hCall with hOld | hNew
    · exact h.requests call hOld request hRequest
    · obtain rfl := List.mem_singleton.mp hNew
      have hOf := hBuilt.requestOf request hRequest
      have hPhase : progress.phase = ready.phase := by
        rw [ProposerProgress.phase, ProposerProgress.phase, hBuilt.step_eq]
      refine ⟨?_, hOf.cluster_eq, hOf.epoch_eq, hOf.step_eq.trans hBuilt.step_eq.symm, ?_, ?_, ?_⟩
      · rw [hOf.context_eq, hBuilt.slot_eq]
      · rw [hOf.value_eq, hBuilt.proposal_eq]
      · intro hne
        rw [hOf.proposal_eq (hPhase ▸ hne), hBuilt.proposal_eq]
      · intro command hCommand
        rw [hBuilt.command_eq]
        exact hOf.command_eq command hCommand
  · intro answer hAnswer
    obtain ⟨call, hCall, hAnswered⟩ := h.answers answer hAnswer
    refine ⟨call, ?_, hAnswered⟩
    rw [List.getElem?_append_left (List.getElem?_eq_some_iff.mp hCall).1]
    exact hCall

theorem offers_request (h : Tracks G slot w L) {call : Call} (hCall : call ∈ w.calls)
    {request : RecordRequest} (hRequest : request ∈ call.requests)
    (hContext : request.context = G.context slot) :
    call.context = G.context slot ∧ request.step = call.progress.step ∧
      G.Offers L request.step request.proposal ∧ request.proposal.isNil = false := by
  have hOf := h.requests call hCall request hRequest
  have hCallContext : call.context = G.context slot := hOf.context_eq.symm.trans hContext
  obtain ⟨-, hOffers, hNil⟩ := h.calls call hCall hCallContext
  refine ⟨hCallContext, hOf.step_eq, ?_, ?_⟩
  · rw [hOf.step_eq]
    by_cases hPhase : call.progress.phase = 0
    · exact hOffers.congr_value _ _ _ hPhase hOf.value_eq
    · rw [hOf.proposal_eq hPhase]
      exact hOffers
  · rw [Proposal.isNil, hOf.value_eq]
    exact hNil

theorem notNil (h : Tracks G slot w L) {k : NodeId} {s : Nat} {p : Proposal}
    (hp : p ∈ L.recorded k s) : p.isNil = false := by
  obtain ⟨call, hCall, request, hRequest, hContext, -, rfl⟩ := h.sent k s p hp
  exact (h.offers_request hCall hRequest hContext).2.2.2

theorem resume (h : Tracks G slot w L) {index : Nat} {call : Call} {answers : BroadcastReplies}
    (fetched : ControlReplies (Option StoredCommand)) (installs : ControlReplies Unit)
    (hCall : w.calls[index]? = some call)
    (hAnswers : ∀ i reply, (i, .ok reply) ∈ answers.results →
      ∃ answer ∈ w.answers, answer.call = index ∧ answer.result = .ok reply) :
    Tracks G slot (w.resume call answers fetched installs) L := by
  have hAnswered : ∀ replies, Gathered (fun reply => ∃ i, (i, .ok reply) ∈ answers.results)
      replies → call.context = G.context slot → ∀ reply ∈ replies, reply.decided = none →
        Answered G L call.progress reply := by
    intro replies hGathered hContext reply hReply hDecided
    obtain ⟨i, hi⟩ := hGathered.handed reply hReply
    obtain ⟨answer, hAnswer, rfl, hResult⟩ := hAnswers i reply hi
    obtain ⟨call', hCall', hAnswered⟩ := h.answers answer hAnswer
    obtain rfl := Option.some.inj (hCall.symm.trans hCall')
    exact hAnswered hContext reply hResult hDecided
  have hCallMem := List.mem_of_getElem? hCall
  refine { h with drivers := ?_, formed := ?_ }
  · intro driver hDriver hContext
    rcases List.mem_append.mp hDriver with hOld | hNew
    · exact h.drivers driver hOld hContext
    · obtain ⟨next, hNext, rfl⟩ := List.mem_map.mp hNew
      rw [Option.mem_toList] at hNext
      obtain ⟨outcome, hOutcome, hShape⟩ := nextProgress_eq_some hNext
      obtain ⟨hSlot, replies, hGathered, hTurn⟩ :=
        ThreeNodeConsensus.driveReplies_next hOutcome hShape
      have hCallContext : call.context = G.context slot := by
        rw [← hContext, Call.context, Driver.context, hSlot]
      obtain ⟨hMembership, hOffers, -⟩ := h.calls call hCallMem hCallContext
      exact ⟨hMembership, offers_of_turn hMembership h.sound hOffers
        (hAnswered replies hGathered hCallContext) hTurn⟩
  · intro proof hProof hContext
    rcases List.mem_append.mp hProof with hOld | hNew
    · exact h.formed proof hOld hContext
    · rw [Option.mem_toList] at hNew
      obtain ⟨replies, chosen, hGathered, hStanding, hFormed⟩ :=
        ThreeNodeConsensus.driveReplies_formed hNew
      have hCallContext : call.context = G.context slot := by
        rw [← hContext]
        cases hFormed <;> rfl
      obtain ⟨hMembership, hOffers, -⟩ := h.calls call hCallMem hCallContext
      exact decides_of_formed hMembership (fun _ _ _ => h.notNil) hOffers.1
        (hAnswered replies hGathered hCallContext) hStanding hFormed

theorem agree (h : Tracks G slot w L) (hUnique : G.FastUnique L) {p q : DecisionProof}
    (hp : p ∈ w.formed) (hq : q ∈ w.formed) (hpc : p.context = G.context slot)
    (hqc : q.context = G.context slot) : p.value = q.value :=
  Group.Decides.value_eq h.sound hUnique (h.formed p hp hpc) (h.formed q hq hqc)

section Lawful

open Classical in
noncomputable def ledgerAfter (L : Ledger NodeId Proposal) (k : NodeId) (request : RecordRequest)
    (accepted : Prop) : Ledger NodeId Proposal :=
  if accepted then L.record k request.step request.proposal else L

omit [Sha256] in
theorem ledgerAfter_extends (L : Ledger NodeId Proposal) (k : NodeId) (request : RecordRequest)
    (accepted : Prop) : L.Extends (ledgerAfter L k request accepted) := by
  unfold ledgerAfter
  split
  · exact L.record_extends k _ _
  · exact .refl L

omit [Sha256] in
theorem mem_ledgerAfter {k j : NodeId} {request : RecordRequest} {accepted : Prop} {s : Nat}
    {p : Proposal} (h : p ∈ (ledgerAfter L k request accepted).recorded j s) :
    p ∈ L.recorded j s ∨ (j = k ∧ s = request.step ∧ p = request.proposal ∧ accepted) := by
  unfold ledgerAfter at h
  split at h
  · rename_i hAccepted
    exact (Ledger.mem_record h).imp id fun ⟨hj, hs, hp⟩ => ⟨hj, hs, hp, hAccepted⟩
  · exact .inl h

omit [Sha256] in
theorem first_ledgerAfter {k j : NodeId} {request : RecordRequest} {accepted : Prop} {s : Nat}
    {p : Proposal} (h : (ledgerAfter L k request accepted).first j s = some p) :
    L.first j s = some p ∨
      (j = k ∧ s = request.step ∧ accepted ∧ ¬ request.step < L.step k) := by
  unfold ledgerAfter at h
  split at h
  · rename_i hAccepted
    unfold Ledger.record at h
    split at h
    · exact .inl h
    · rename_i hStale
      by_cases hHere : j = k ∧ s = request.step
      · exact .inr ⟨hHere.1, hHere.2, hAccepted, hStale⟩
      · left
        simpa [Ledger.first, hHere] using h
  · exact .inl h

omit [Sha256] in
theorem summarizes_ledgerAfter {registers : NodeId → IsrState} {k : NodeId}
    {request : RecordRequest} {after : IsrState} {accepted : Prop}
    (h : ∀ j, Summarizes L j (registers j))
    (hAccepted : accepted → after = (registers k).next request.step request.proposal)
    (hRefused : ¬ accepted → after = registers k) (j : NodeId) :
    Summarizes (ledgerAfter L k request accepted) j (if j = k then after else registers j) := by
  unfold ledgerAfter
  split
  · rename_i hHere
    split
    · rename_i hjk
      rw [hjk, hAccepted hHere]
      exact (h k).record request.step request.proposal
    · rename_i hjk
      exact (h j).record_other hjk request.step request.proposal
  · rename_i hHere
    split
    · rename_i hjk
      rw [hjk, hRefused hHere]
      exact h k
    · exact h j

theorem register_deliver (w : World R) (index worker : Nat) (call : Call) (k : NodeId)
    (request : RecordRequest) (fault : Fault) (context : Context) (j : NodeId) :
    RecorderRpc.register ((w.deliver index worker call k request fault).recorders j) context =
      if j = k then RecorderRpc.register (RecorderRpc.record (w.recorders k) fault request).1 context
      else RecorderRpc.register (w.recorders j) context := by
  by_cases hjk : j = k
  · simp [World.deliver, hjk]
  · simp [World.deliver, hjk]

theorem checkReply_eq_ok {e : ThreeNodeConsensus} {k : NodeId} {request : RecordRequest}
    {result : Result RecordSummary} {reply : RecordSummary}
    (h : e.checkReply k request result = .ok reply) :
    result = .ok reply ∧ reply.recorderId = k ∧ reply.context = e.context request.slot := by
  unfold ThreeNodeConsensus.checkReply at h
  split at h
  · cases h
  · split at h
    · rename_i hCheck
      obtain rfl := Except.ok.inj h
      exact ⟨rfl, hCheck.1, by simp [RecordSummary.context, Group.context, hCheck]⟩
    · cases h

variable [LawfulRecorder R Fault Event]

theorem deliver_other (h : Tracks G slot w L) {index worker : Nat} {call : Call} {k : NodeId}
    {request : RecordRequest} (fault : Fault) (hCall : w.calls[index]? = some call)
    (hRequest : request ∈ call.requests) (hContext : request.context ≠ G.context slot) :
    Tracks G slot (w.deliver index worker call k request fault) L := by
  have hSame : RecorderRpc.register (RecorderRpc.record (w.recorders k) fault request).1
      (G.context slot) = RecorderRpc.register (w.recorders k) (G.context slot) :=
    (LawfulRecorder.record_register (w.recorders k) fault request (G.context slot)).resolve_right
      fun hMoved => hContext hMoved.1.symm
  refine h.grow (.refl L) ?_ h.sound h.sent rfl rfl ?_ rfl ?_ (fun _ => List.mem_append_left _)
    fun _ _ _ => .inl
  · intro j
    rw [register_deliver]
    split
    · rename_i hjk
      rw [hSame, hjk]
      exact h.registers k
    · exact h.registers j
  · intro answer hAnswer
    rcases List.mem_append.mp hAnswer with hOld | hNew
    · exact .inl hOld
    · obtain rfl := List.mem_singleton.mp hNew
      refine .inr ⟨call, hCall, fun hCallContext => ?_⟩
      have hOf := h.requests call (List.mem_of_getElem? hCall) request hRequest
      exact absurd (hOf.context_eq.trans hCallContext) hContext
  · intro report hReport
    rcases List.mem_append.mp hReport with hOld | hNew
    · exact .inl hOld
    · obtain rfl := List.mem_singleton.mp hNew
      exact .inr fun hHere => absurd hHere hContext

theorem deliver_here (h : Tracks G slot w L) {index worker : Nat} {call : Call} {k : NodeId}
    {request : RecordRequest} (fault : Fault) (hCall : w.calls[index]? = some call)
    (hMember : call.engine.membership.members[worker]? = some k)
    (hRequest : request ∈ call.requests) (hContext : request.context = G.context slot) :
    Tracks G slot (w.deliver index worker call k request fault)
      (ledgerAfter L k request (Accepts (w.recorders k) fault request)) := by
  have hCallMem := List.mem_of_getElem? hCall
  have hOf := h.requests call hCallMem request hRequest
  obtain ⟨hCallContext, hStep, hOffers, hNil⟩ := h.offers_request hCallMem hRequest hContext
  have hSummarizes : ∀ j, Summarizes
      (ledgerAfter L k request (Accepts (w.recorders k) fault request)) j
      (if j = k then
        RecorderRpc.register (RecorderRpc.record (w.recorders k) fault request).1 (G.context slot)
      else RecorderRpc.register (w.recorders j) (G.context slot)) := by
    apply summarizes_ledgerAfter h.registers
    · intro hAccepts
      rw [← hContext]
      exact register_of_accepts hAccepts
    · intro hRefused
      rw [← hContext]
      exact register_of_not_accepts hRefused
  have hExtends := ledgerAfter_extends L k request (Accepts (w.recorders k) fault request)
  refine h.grow hExtends ?_ ?_ ?_ rfl rfl ?_ rfl ?_ (fun _ => List.mem_append_left _) ?_
  · intro j
    rw [register_deliver]
    exact hSummarizes j
  · intro j s p hp
    rcases mem_ledgerAfter hp with hOld | ⟨-, rfl, rfl, -⟩
    · exact (h.sound j s p hOld).mono _ _ _ hExtends
    · exact hOffers.mono _ _ _ hExtends
  · intro j s p hp
    rcases mem_ledgerAfter hp with hOld | ⟨-, rfl, rfl, -⟩
    · exact h.sent j s p hOld
    · exact ⟨call, hCallMem, request, hRequest, hContext, rfl, rfl⟩
  · intro answer hAnswer
    rcases List.mem_append.mp hAnswer with hOld | hNew
    · exact .inl hOld
    · obtain rfl := List.mem_singleton.mp hNew
      refine .inr ⟨call, hCall, fun _ reply hReply hDecided => ?_⟩
      obtain ⟨hResult, hRecorder, hReplyContext⟩ := checkReply_eq_ok hReply
      have hSlot : request.slot = call.progress.slot := congrArg Context.slot hOf.context_eq
      have hShows := LawfulRecorder.record_reply _ _ _ _ hResult
      have hAccepts : Accepts (w.recorders k) fault request := .inr ⟨reply, hResult, hDecided⟩
      have hNext := register_of_accepts hAccepts
      rw [hReplyContext, hSlot, ← hOf.context_eq, hContext] at hShows
      rw [hContext] at hNext
      have hSeen := (hSummarizes k).seen
      rw [if_pos rfl] at hSeen
      refine ⟨?_, ⟨_, hShows, hRecorder ▸ hSeen⟩, ?_, ?_⟩
      · rw [hRecorder, ← (h.calls call hCallMem hCallContext).1]
        exact List.mem_of_getElem? hMember
      · rw [hShows.1, hNext, ← hStep]
        exact (IsrState.step_le_next _ _ _).2
      · intro hAt hPhase
        rw [← hOf.proposal_eq hPhase, ← hStep, hRecorder, ledgerAfter, if_pos hAccepts]
        refine mem_recorded_of_next (h.registers k) ?_
        rw [← hNext, ← hShows.1, hAt, hStep]
  · intro report hReport
    rcases List.mem_append.mp hReport with hOld | hNew
    · exact .inl hOld
    · obtain rfl := List.mem_singleton.mp hNew
      refine .inr fun _ => ?_
      have hSeen := (hSummarizes k).seen
      rw [if_pos rfl] at hSeen
      rw [hContext]
      exact hSeen
  · intro j s p hp
    rcases first_ledgerAfter hp with hOld | ⟨rfl, rfl, hAccepts, hFresh⟩
    · exact .inl hOld
    · have hStep : (RecorderRpc.register (RecorderRpc.record (w.recorders j) fault request).1
          (G.context slot)).step = request.step := by
        rw [← hContext, register_of_accepts hAccepts, hContext]
        exact IsrState.step_next_of_le _ (by rw [← (h.registers j).step_eq]; omega)
      have hFirst := (hSummarizes j).first
      rw [if_pos rfl, hStep, hp] at hFirst
      refine .inr ⟨_, List.mem_append_right _ (List.mem_singleton_self _), rfl, hContext, ?_, ?_⟩
      · rw [hContext]
        exact hStep
      · rw [hContext]
        exact hFirst

def AcceptedBy (G : Group) (slot : Nat) (w : World R) (a : Action Fault Event) (w' : World R)
    (k : NodeId) (p : Proposal) : Prop :=
  ∃ index worker fault request, a = .deliver index worker fault ∧
    request.context = G.context slot ∧ request.proposal = p ∧
    (∃ call ∈ w.calls, request ∈ call.requests) ∧
    w'.recorders k = (RecorderRpc.record (w.recorders k) fault request).1 ∧
    Accepts (w.recorders k) fault request

theorem step (h : Tracks G slot w L) {a : Action Fault Event} (hCoherent : Coherent G a)
    (hStep : w.step a = some w') :
    ∃ L', Tracks G slot w' L' ∧ ∀ k s p, p ∈ L'.recorded k s →
      p ∈ L.recorded k s ∨ AcceptedBy G slot w a w' k p := by
  cases a with
  | start engine startSlot proposal command =>
    obtain rfl := Option.some.inj hStep
    exact ⟨L, h.start hCoherent rfl rfl, fun _ _ _ => .inl⟩
  | broadcast index fetched sample =>
    rcases World.step_broadcast hStep with rfl | ⟨driver, hDriver, progress, requests, hRequests, rfl⟩
    · exact ⟨L, h, fun _ _ _ => .inl⟩
    · exact ⟨L, h.broadcast hDriver hRequests, fun _ _ _ => .inl⟩
  | deliver index worker fault =>
    obtain ⟨call, k, request, hCall, hMember, hRequest, rfl⟩ := World.step_deliver hStep
    have hRequestMem := List.mem_of_getElem? hRequest
    by_cases hContext : request.context = G.context slot
    · refine ⟨_, h.deliver_here fault hCall hMember hRequestMem hContext, fun j s p hp => ?_⟩
      rcases mem_ledgerAfter hp with hOld | ⟨rfl, -, rfl, hAccepts⟩
      · exact .inl hOld
      · exact .inr ⟨index, worker, fault, request, rfl, hContext, rfl,
          ⟨call, List.mem_of_getElem? hCall, hRequestMem⟩, by simp [World.deliver], hAccepts⟩
    · exact ⟨L, h.deliver_other fault hCall hRequestMem hContext, fun _ _ _ => .inl⟩
  | resume index saturatedWorkers arrivals fetched installs =>
    obtain ⟨call, answers, hCall, hAnswers, rfl⟩ := World.step_resume hStep
    exact ⟨L, h.resume fetched installs hCall hAnswers, fun _ _ _ => .inl⟩
  | install k fault proof membership =>
    obtain rfl := Option.some.inj hStep
    refine ⟨L, h.idle ?_ rfl rfl rfl rfl (fun _ => .inl) fun _ => id, fun _ _ _ => .inl⟩
    intro j
    by_cases hjk : j = k
    · simp [hjk, LawfulRecorder.install_register]
    · simp [hjk]
  | inspect k fault inspected =>
    obtain rfl := Option.some.inj hStep
    refine ⟨L, h.idle ?_ rfl rfl rfl rfl ?_ fun _ => List.mem_append_left _, fun _ _ _ => .inl⟩
    · intro j
      by_cases hjk : j = k
      · simp [hjk, World.inspect, LawfulRecorder.inspect_register]
      · simp [hjk, World.inspect]
    · intro report hReport
      rcases List.mem_append.mp hReport with hOld | hNew
      · exact .inl hOld
      · split at hNew
        · obtain rfl := List.mem_singleton.mp hNew
          right
          exact congrFun (LawfulRecorder.inspect_register _ _ _) _
        · cases hNew
  | occur k event =>
    obtain rfl := Option.some.inj hStep
    refine ⟨L, h.idle ?_ rfl rfl rfl rfl (fun _ => .inl) fun _ => id, fun _ _ _ => .inl⟩
    intro j
    by_cases hjk : j = k
    · simp [hjk, LawfulRecorder.occur_register]
    · simp [hjk]
  | openFence engine fenceSlot =>
    rw [World.step_openFence hStep]
    exact ⟨L, h.idle (fun _ => rfl) rfl rfl rfl rfl (fun _ => .inl) fun _ => id,
      fun _ _ _ => .inl⟩
  | observe index worker fault =>
    obtain ⟨fence, k, -, -, rfl⟩ := World.step_observe hStep
    refine ⟨L, h.idle ?_ rfl rfl rfl rfl (fun _ => .inl) fun _ => id, fun _ _ _ => .inl⟩
    intro j
    by_cases hjk : j = k
    · simp [hjk, World.observe, LawfulRecorder.observe_register]
    · simp [hjk, World.observe]
  | closeFence index saturated arrivals =>
    obtain ⟨fence, results, -, -, -, rfl | ⟨-, rfl⟩⟩ := World.step_closeFence hStep
    · exact ⟨L, h, fun _ _ _ => .inl⟩
    · exact ⟨L, h.idle (fun _ => rfl) rfl rfl rfl rfl (fun _ => .inl) fun _ => id,
      fun _ _ _ => .inl⟩

theorem run {recorders : NodeId → R} {allowed : World R → Action Fault Event → Prop}
    (hCoherent : ∀ w a, allowed w a → Coherent G a)
    (hFresh : ∀ k, RecorderRpc.register (recorders k) (G.context slot) = .empty)
    (hRun : Run World.step allowed (World.init recorders) w) : ∃ L, Tracks G slot w L := by
  refine hRun.invariant (P := fun w => ∃ L, Tracks G slot w L) ⟨emptyLedger, init hFresh⟩ ?_
  rintro w a w' ⟨L, hL⟩ hAllowed hStep
  obtain ⟨L', hL', -⟩ := hL.step (hCoherent w a hAllowed) hStep
  exact ⟨L', hL'⟩

end Lawful

end Tracks

end Tracking

section Isr

variable [Sha256]

def Group.recorders (G : Group) (k : NodeId) : IsrRecorder :=
  .new k G.configId G.configDigest

theorem Group.register_recorders (G : Group) (slot : Nat) (k : NodeId) :
    RecorderRpc.register (G.recorders k) (G.context slot) = .empty := by
  simp [RecorderRpc.register, IsrRecorder.register, Group.recorders, IsrRecorder.new,
    Group.context]

theorem Group.not_holds_recorders (G : Group) (k : NodeId) (proof : DecisionProof) :
    ¬ RecorderRpc.holds (G.recorders k) proof := by
  rintro ⟨slot, hSlot⟩
  cases hSlot

end Isr

end Rhiza.Quepaxa
