import Rhiza.Node.Writer

/-! # What the answer of a write says about its proposals

A call that was refused, or whose statements were rejected, has no proposal that
is or can still be decided: every slot it proposed for went to another entry. A
call that gave up, or could not persist, may have one.
-/

namespace Rhiza.Node

open Rhiza.Core Rhiza.Library

variable {D S E : Type}

structure Barred (log : List (Entry E)) (proposals : List (Nat × Entry E)) (c : Nat) : Prop where
  closed : ∀ proposal ∈ proposals, proposal.2.owner = some c → proposal.1 ≤ log.length
  absent : ∀ entry ∈ log, entry.owner ≠ some c

structure Hanging (log : List (Entry E)) (proposals : List (Nat × Entry E)) (c slot : Nat) : Prop where
  closed : ∀ proposal ∈ proposals, proposal.2.owner = some c →
    proposal.1 ≤ log.length ∨ proposal.1 = slot
  place : ∀ j entry, log[j]? = some entry → entry.owner = some c → j + 1 = slot

def Duty (log : List (Entry E)) (proposals : List (Nat × Entry E)) (c : Nat) : Phase E → Prop
  | .waiting => Barred log proposals c
  | .ready => Barred log proposals c
  | .proposed slot _ => Hanging log proposals c slot
  | .answered .refused _ => Barred log proposals c
  | .answered .rejected _ => Barred log proposals c
  | .answered _ _ => True

structure Lawful (w : World S E) : Prop where
  /-- A proposal of a call carries the receipt of its request. -/
  owned : ∀ proposal ∈ w.proposals, ∀ c, proposal.2.owner = some c →
    ∃ call, w.calls[c]? = some call ∧ proposal.2.receipts = [(call.requestId, call.payload)]
  /-- A decided entry was proposed. -/
  proposed : ∀ entry ∈ w.log, ∃ slot, (slot, entry) ∈ w.proposals
  duty : ∀ c call, w.calls[c]? = some call → Duty w.log w.proposals c call.phase

variable {w w' : World S E}

theorem Lawful.initial (nodes : Nat) : Lawful (World.initial nodes : World S E) where
  owned _ h := by cases h
  proposed _ h := by cases h
  duty c call h := by simp [World.initial] at h

theorem getElem?_set_cases {α : Type} {items : List α} {i j : Nat} {item found : α}
    (h : (items.set i item)[j]? = some found) :
    (j ≠ i ∧ items[j]? = some found) ∨ (j = i ∧ found = item) := by
  rw [List.getElem?_set] at h
  split at h
  · rename_i hEq
    split at h
    · exact .inr ⟨hEq.symm, (Option.some.inj h).symm⟩
    · cases h
  · rename_i hNe
    exact .inl ⟨fun hEq => hNe hEq.symm, h⟩

theorem request_setPhase {c c' : Nat} {call call' : Call S E} {phase : Phase E}
    (hCall : w.calls[c]? = some call) (hCall' : w.calls[c']? = some call') :
    ∃ call'', (w.setPhase c call phase).calls[c']? = some call'' ∧
      call''.requestId = call'.requestId ∧ call''.payload = call'.payload := by
  by_cases hSame : c' = c
  · subst hSame
    rw [hCall] at hCall'
    cases hCall'
    exact ⟨{ call with phase }, List.getElem?_set_self (List.getElem?_eq_some_iff.mp hCall).1, rfl,
      rfl⟩
  · exact ⟨call', (List.getElem?_set_ne (fun hEq => hSame hEq.symm)).trans hCall', rfl, rfl⟩

theorem Lawful.setPhase (h : Lawful w) {c : Nat} {call : Call S E} {phase : Phase E}
    (hCall : w.calls[c]? = some call) (hDuty : Duty w.log w.proposals c phase) :
    Lawful (w.setPhase c call phase) where
  owned proposal hProposal c' hOwner := by
    obtain ⟨call', hCall', hReceipts⟩ := h.owned proposal hProposal c' hOwner
    obtain ⟨call'', hCall'', hId, hPayload⟩ := request_setPhase hCall hCall'
    exact ⟨call'', hCall'', by rw [hReceipts, hId, hPayload]⟩
  proposed := h.proposed
  duty c' call' hCall' := by
    obtain ⟨-, hOld⟩ | ⟨rfl, rfl⟩ := getElem?_set_cases hCall'
    · exact h.duty c' call' hOld
    · exact hDuty

theorem Lawful.setNode (h : Lawful w) (n : Nat) (node : Replica) : Lawful (w.setNode n node) :=
  ⟨h.owned, h.proposed, h.duty⟩

theorem Lawful.answerOk (h : Lawful w) {c : Nat} {call : Call S E} (hCall : w.calls[c]? = some call)
    (index : Nat) : Lawful (w.answerOk c call index) := by
  have hSet : Lawful (w.setPhase c call (.answered .receipt (.ok index))) := h.setPhase hCall trivial
  exact ⟨hSet.owned, hSet.proposed, hSet.duty⟩

theorem Lawful.afterLookup {next : World S E} (h : Lawful w) {c : Nat} {call : Call S E}
    {found : Option (Nat × Bytes)} (hCall : w.calls[c]? = some call)
    (hNext : found = none → Lawful next) : Lawful (w.afterLookup c call next found) := by
  obtain ⟨hNone, hFound⟩ | ⟨index, hFound⟩ | hFound := World.afterLookup_cases w c call next found
  · rw [hFound]
    exact hNext hNone
  · rw [hFound]
    exact h.answerOk hCall index
  · rw [hFound]
    exact h.setPhase hCall trivial

theorem receiptIn_eq_none {requestId : String} {index : Nat} {log : List (Entry E)}
    (h : receiptIn requestId index log = none) {entry : Entry E} (hEntry : entry ∈ log) :
    ∀ receipt ∈ entry.receipts, receipt.1 ≠ requestId := by
  induction log generalizing index with
  | nil => cases hEntry
  | cons first log ih =>
    rw [receiptIn] at h
    split at h
    · cases h
    · rename_i hNone
      rcases List.mem_cons.mp hEntry with rfl | hLater
      · intro receipt hReceipt
        simpa using List.find?_eq_none.mp hNone receipt hReceipt
      · exact ih h hLater

theorem Barred.append {log : List (Entry E)} {proposals : List (Nat × Entry E)} {c : Nat}
    (h : Barred log proposals c) {entry : Entry E}
    (hEntry : (log.length + 1, entry) ∈ proposals) : Barred (log ++ [entry]) proposals c where
  closed proposal hProposal hOwner := by
    have hOld := h.closed proposal hProposal hOwner
    rw [List.length_append]
    omega
  absent entry' hEntry' hOwner := by
    rcases List.mem_append.mp hEntry' with hOld | hNew
    · exact h.absent entry' hOld hOwner
    · -- the slot of an own proposal is taken already
      obtain rfl := List.mem_singleton.mp hNew
      have hClosed := h.closed _ hEntry hOwner
      omega

theorem Hanging.append {log : List (Entry E)} {proposals : List (Nat × Entry E)} {c slot : Nat}
    (h : Hanging log proposals c slot) {entry : Entry E}
    (hEntry : (log.length + 1, entry) ∈ proposals) : Hanging (log ++ [entry]) proposals c slot where
  closed proposal hProposal hOwner := by
    rw [List.length_append]
    have hOld := h.closed proposal hProposal hOwner
    omega
  place j entry' hj hOwner := by
    rcases Nat.lt_or_ge j log.length with hOld | hNew
    · rw [List.getElem?_append_left hOld] at hj
      exact h.place j entry' hj hOwner
    · have hLast : j = log.length := by
        have hBound := (List.getElem?_eq_some_iff.mp hj).1
        rw [List.length_append, List.length_singleton] at hBound
        omega
      subst hLast
      rw [List.getElem?_concat_length] at hj
      cases hj
      rcases h.closed _ hEntry hOwner with hClosed | hSlot
      · omega
      · exact hSlot

theorem Duty.append {log : List (Entry E)} {proposals : List (Nat × Entry E)} {c : Nat}
    {phase : Phase E} (h : Duty log proposals c phase) {entry : Entry E}
    (hEntry : (log.length + 1, entry) ∈ proposals) : Duty (log ++ [entry]) proposals c phase := by
  cases phase with
  | waiting => exact Barred.append h hEntry
  | ready => exact Barred.append h hEntry
  | proposed slot effect => exact Hanging.append h hEntry
  | answered cause answer =>
    cases cause with
    | refused => exact Barred.append h hEntry
    | rejected => exact Barred.append h hEntry
    | _ => trivial

theorem Duty.propose {log : List (Entry E)} {proposals : List (Nat × Entry E)} {c : Nat}
    {phase : Phase E} (h : Duty log proposals c phase) {proposal : Nat × Entry E}
    (hOwner : proposal.2.owner ≠ some c) : Duty log (proposals ++ [proposal]) c phase := by
  have hOld : ∀ other ∈ proposals ++ [proposal], other.2.owner = some c → other ∈ proposals := by
    intro other hOther hOwned
    rcases List.mem_append.mp hOther with hMem | hNew
    · exact hMem
    · obtain rfl := List.mem_singleton.mp hNew
      exact absurd hOwned hOwner
  have hBarred : Barred log proposals c → Barred log (proposals ++ [proposal]) c := fun hb =>
    ⟨fun other hOther hOwned => hb.closed other (hOld other hOther hOwned) hOwned, hb.absent⟩
  cases phase with
  | waiting => exact hBarred h
  | ready => exact hBarred h
  | proposed slot effect =>
    exact ⟨fun other hOther hOwned => h.closed other (hOld other hOther hOwned) hOwned, h.place⟩
  | answered cause answer =>
    cases cause with
    | refused => exact hBarred h
    | rejected => exact hBarred h
    | _ => trivial

theorem Lawful.receipts_of_owner (h : Lawful w) {c : Nat} {call : Call S E} {entry : Entry E}
    (hCall : w.calls[c]? = some call) (hEntry : entry ∈ w.log) (hOwner : entry.owner = some c) :
    entry.receipts = [(call.requestId, call.payload)] := by
  obtain ⟨slot, hProposal⟩ := h.proposed entry hEntry
  obtain ⟨call', hCall', hReceipts⟩ := h.owned _ hProposal c hOwner
  rw [hCall] at hCall'
  cases hCall'
  exact hReceipts

theorem Lawful.barred_of_lost (h : Lawful w) {c slot : Nat} {call : Call S E}
    (hCall : w.calls[c]? = some call) (hHanging : Hanging w.log w.proposals c slot)
    (hDecided : slot ≤ w.log.length) (hNone : receiptAt w.log slot call.requestId = none) :
    Barred w.log w.proposals c where
  closed proposal hProposal hOwner := by
    rcases hHanging.closed proposal hProposal hOwner with hClosed | hSlot
    · exact hClosed
    · exact hSlot ▸ hDecided
  absent entry hEntry hOwner := by
    obtain ⟨j, hj, rfl⟩ := List.getElem_of_mem hEntry
    have hPlace := hHanging.place j _ (List.getElem?_eq_getElem hj) hOwner
    have hTaken : w.log[j] ∈ w.log.take slot := by
      rw [List.mem_take_iff_getElem]
      exact ⟨j, by omega, rfl⟩
    have hReceipts := h.receipts_of_owner hCall hEntry hOwner
    refine receiptIn_eq_none hNone hTaken (call.requestId, call.payload) ?_ rfl
    rw [hReceipts]
    exact List.mem_singleton_self _

theorem Lawful.arrive (h : Lawful w) (node : Nat) (requestId : String) (payload : Bytes)
    (statements : List S) : Lawful (w.arrive node requestId payload statements) where
  owned proposal hProposal c hOwner := by
    obtain ⟨call, hCall, hReceipts⟩ := h.owned proposal hProposal c hOwner
    refine ⟨call, ?_, hReceipts⟩
    rw [World.arrive, List.getElem?_append_left (List.getElem?_eq_some_iff.mp hCall).1, hCall]
  proposed := h.proposed
  duty c call hCall := by
    rcases Nat.lt_or_ge c w.calls.length with hOld | hNew
    · rw [World.arrive, List.getElem?_append_left hOld] at hCall
      exact h.duty c call hCall
    -- a new call has not proposed anything
    have hFresh : ∀ proposal ∈ w.proposals, proposal.2.owner ≠ some c := by
      intro proposal hProposal hOwner
      obtain ⟨call', hCall', -⟩ := h.owned proposal hProposal c hOwner
      have hBound := (List.getElem?_eq_some_iff.mp hCall').1
      omega
    have hPhase : call.phase = .waiting := by
      rw [World.arrive, List.getElem?_append_right hNew] at hCall
      obtain rfl := List.mem_singleton.mp (List.mem_of_getElem? hCall)
      rfl
    rw [hPhase]
    refine ⟨fun proposal hProposal hOwner => absurd hOwner (hFresh proposal hProposal), ?_⟩
    intro entry hEntry hOwner
    obtain ⟨slot, hProposal⟩ := h.proposed entry hEntry
    exact hFresh _ hProposal hOwner

theorem Lawful.propose (h : Lawful w) {c slot : Nat} {call : Call S E} {effect : E}
    (hCall : w.calls[c]? = some call) (hBarred : Barred w.log w.proposals c) :
    Lawful { w.setPhase c call (.proposed slot effect) with
      proposals := w.proposals ++
        [(slot, ⟨[(call.requestId, call.payload)], some effect, some c⟩)] } where
  owned proposal hProposal c' hOwner := by
    rcases List.mem_append.mp hProposal with hOld | hNew
    · obtain ⟨call', hCall', hReceipts⟩ := h.owned proposal hOld c' hOwner
      obtain ⟨call'', hCall'', hId, hPayload⟩ := request_setPhase hCall hCall'
      exact ⟨call'', hCall'', by rw [hReceipts, hId, hPayload]⟩
    · obtain rfl := List.mem_singleton.mp hNew
      cases hOwner
      refine ⟨{ call with phase := .proposed slot effect }, ?_, rfl⟩
      exact List.getElem?_set_self (List.getElem?_eq_some_iff.mp hCall).1
  proposed entry hEntry := by
    obtain ⟨slot', hProposal⟩ := h.proposed entry hEntry
    exact ⟨slot', List.mem_append_left _ hProposal⟩
  duty c' call' hCall' := by
    obtain ⟨hNe, hOld⟩ | ⟨rfl, rfl⟩ := getElem?_set_cases hCall'
    · exact (h.duty c' call' hOld).propose fun hOwner => hNe (Option.some.inj hOwner).symm
    · refine ⟨fun proposal hProposal hOwner => ?_, fun j entry hj hOwner => ?_⟩
      · rcases List.mem_append.mp hProposal with hOld | hNew
        · exact .inl (hBarred.closed proposal hOld hOwner)
        · exact .inr (by rw [List.mem_singleton.mp hNew])
      · exact absurd hOwner (hBarred.absent entry (List.mem_of_getElem? hj))

theorem Lawful.step [DecidableEq S] [DecidableEq E] {engine : Engine D S E} {event : Event S E}
    (h : Lawful w) (hStep : w.step engine event = some w') : Lawful w' := by
  cases event with
  | arrive node requestId payload statements =>
    cases hStep
    exact h.arrive node requestId payload statements
  | refuse c refusal =>
    obtain ⟨call, hCall, hPhase, rfl⟩ := World.refuse_eq_some hStep
    have hDuty := h.duty c call hCall
    rw [hPhase] at hDuty
    exact h.setPhase hCall hDuty
  | check c =>
    obtain ⟨call, node, hCall, -, hPhase, rfl⟩ := World.check_eq_some hStep
    have hDuty := h.duty c call hCall
    rw [hPhase] at hDuty
    exact h.afterLookup hCall fun _ => h.setPhase hCall hDuty
  | prepare c =>
    obtain ⟨call, node, hCall, -, hPhase, ⟨error, -, rfl⟩ | ⟨effect, rfl⟩⟩ :=
      World.prepare_eq_some hStep
    all_goals
      have hDuty := h.duty c call hCall
      rw [hPhase] at hDuty
    · exact h.setPhase hCall hDuty
    · exact h.propose hCall hDuty
  | persist c =>
    obtain ⟨call, node, slot, effect, entry, hCall, -, hPhase, hEntry, hSlot, persisted, next, rfl,
      hNext, rfl⟩ := World.persist_eq_some hStep
    have hDuty := h.duty c call hCall
    rw [hPhase] at hDuty
    have hDecided : slot ≤ w.log.length := by
      have hLess := (List.getElem?_eq_some_iff.mp hEntry).1
      omega
    have hPersisted : Lawful (w.setNode call.node { node with applied := slot }) := h.setNode _ _
    refine hPersisted.afterLookup hCall fun hNone => ?_
    obtain rfl | rfl := hNext
    · exact hPersisted.setPhase hCall (h.barred_of_lost hCall hDuty hDecided hNone)
    · exact (hPersisted.setNode _ _).setPhase hCall trivial
  | giveUp c failure =>
    obtain ⟨call, node, fatal, slot, effect, hCall, -, -, rfl⟩ := World.giveUp_eq_some hStep
    exact (h.setNode _ _).setPhase hCall trivial
  | failPersist c failure =>
    obtain ⟨call, node, slot, effect, hCall, -, -, rfl⟩ := World.failPersist_eq_some hStep
    exact (h.setNode _ _).setPhase hCall trivial
  | decide i =>
    obtain ⟨entry, hProposal, rfl⟩ := World.decide_eq_some hStep
    refine ⟨h.owned, fun entry' hEntry' => ?_, fun c call hCall => ?_⟩
    · rcases List.mem_append.mp hEntry' with hOld | hNew
      · exact h.proposed entry' hOld
      · obtain rfl := List.mem_singleton.mp hNew
        exact ⟨_, hProposal⟩
    · exact (h.duty c call hCall).append hProposal
  | foreign slot receipts effect =>
    cases hStep
    refine ⟨fun proposal hProposal c hOwner => ?_, fun entry hEntry => ?_, fun c call hCall => ?_⟩
    · rcases List.mem_append.mp hProposal with hOld | hNew
      · exact h.owned proposal hOld c hOwner
      · obtain rfl := List.mem_singleton.mp hNew
        cases hOwner
    · obtain ⟨slot', hProposal⟩ := h.proposed entry hEntry
      exact ⟨slot', List.mem_append_left _ hProposal⟩
    · exact (h.duty c call hCall).propose nofun
  | catchUp n =>
    obtain ⟨node, -, -, rfl⟩ := World.catchUp_eq_some hStep
    exact h.setNode _ _
  | acknowledge index =>
    obtain rfl := World.acknowledge_eq_some hStep
    exact ⟨h.owned, h.proposed, h.duty⟩

theorem keep_setPhase {c c' : Nat} {call call' : Call S E} {phase : Phase E}
    (hOpen : w.calls[c]? = some call ∧ ∀ cause answer, call.phase ≠ .answered cause answer)
    (hCall' : w.calls[c']? = some call') {cause : Cause} {answer : Except NodeError Nat}
    (hPhase : call'.phase = .answered cause answer) :
    (w.setPhase c call phase).calls[c']? = some call' := by
  have hNe : c ≠ c' := by
    rintro rfl
    rw [hOpen.1] at hCall'
    cases hCall'
    exact hOpen.2 cause answer hPhase
  exact (List.getElem?_set_ne hNe).trans hCall'

theorem keep_afterLookup {next : World S E} {c c' : Nat} {call call' : Call S E}
    (hOpen : w.calls[c]? = some call ∧ ∀ cause answer, call.phase ≠ .answered cause answer)
    (hCall' : w.calls[c']? = some call') {cause : Cause} {answer : Except NodeError Nat}
    (hPhase : call'.phase = .answered cause answer) (hNext : next.calls[c']? = some call')
    (found : Option (Nat × Bytes)) : (w.afterLookup c call next found).calls[c']? = some call' := by
  obtain ⟨-, hFound⟩ | ⟨index, hFound⟩ | hFound := World.afterLookup_cases w c call next found
  · rwa [hFound]
  · rw [hFound]
    exact keep_setPhase hOpen hCall' hPhase
  · rw [hFound]
    exact keep_setPhase hOpen hCall' hPhase

theorem answered_of_step [DecidableEq S] [DecidableEq E] {engine : Engine D S E}
    {event : Event S E} (hStep : w.step engine event = some w') {c : Nat} {call : Call S E}
    (hCall : w.calls[c]? = some call) {cause : Cause} {answer : Except NodeError Nat}
    (hAnswer : call.phase = .answered cause answer) : w'.calls[c]? = some call := by
  cases event with
  | arrive node requestId payload statements =>
    cases hStep
    exact (List.getElem?_append_left (List.getElem?_eq_some_iff.mp hCall).1).trans hCall
  | refuse c' refusal =>
    obtain ⟨call', hCall', hPhase, rfl⟩ := World.refuse_eq_some hStep
    exact keep_setPhase ⟨hCall', by rw [hPhase]; exact nofun⟩ hCall hAnswer
  | check c' =>
    obtain ⟨call', node, hCall', -, hPhase, rfl⟩ := World.check_eq_some hStep
    have hOpen : ∀ cause answer, call'.phase ≠ .answered cause answer := by
      rw [hPhase]
      exact nofun
    exact keep_afterLookup ⟨hCall', hOpen⟩ hCall hAnswer
      (keep_setPhase ⟨hCall', hOpen⟩ hCall hAnswer) _
  | prepare c' =>
    obtain ⟨call', node, hCall', -, hPhase, ⟨error, -, rfl⟩ | ⟨effect, rfl⟩⟩ :=
      World.prepare_eq_some hStep
    all_goals
      have hOpen : ∀ cause answer, call'.phase ≠ .answered cause answer := by
        rw [hPhase]
        exact nofun
      exact keep_setPhase ⟨hCall', hOpen⟩ hCall hAnswer
  | persist c' =>
    obtain ⟨call', node, slot, effect, entry, hCall', -, hPhase, -, -, persisted, next, rfl, hNext,
      rfl⟩ := World.persist_eq_some hStep
    have hOpen : ∀ cause answer, call'.phase ≠ .answered cause answer := by
      rw [hPhase]
      exact nofun
    have hHere : (w.setNode call'.node { node with applied := slot }).calls[c']? = some call' := hCall'
    have hThere : (w.setNode call'.node { node with applied := slot }).calls[c]? = some call := hCall
    refine keep_afterLookup ⟨hHere, hOpen⟩ hThere hAnswer ?_ _
    obtain rfl | rfl := hNext
    · exact keep_setPhase ⟨hHere, hOpen⟩ hThere hAnswer
    · exact keep_setPhase ⟨hHere, hOpen⟩ hThere hAnswer
  | giveUp c' failure =>
    obtain ⟨call', node, fatal, slot, effect, hCall', -, hPhase, rfl⟩ := World.giveUp_eq_some hStep
    exact keep_setPhase ⟨hCall', by rw [hPhase]; exact nofun⟩ hCall hAnswer
  | failPersist c' failure =>
    obtain ⟨call', node, slot, effect, hCall', -, hPhase, rfl⟩ := World.failPersist_eq_some hStep
    exact keep_setPhase ⟨hCall', by rw [hPhase]; exact nofun⟩ hCall hAnswer
  | decide i =>
    obtain ⟨entry, -, rfl⟩ := World.decide_eq_some hStep
    exact hCall
  | foreign slot receipts effect =>
    cases hStep
    exact hCall
  | catchUp n =>
    obtain ⟨node, -, -, rfl⟩ := World.catchUp_eq_some hStep
    exact hCall
  | acknowledge index =>
    obtain rfl := World.acknowledge_eq_some hStep
    exact hCall

end Rhiza.Node
