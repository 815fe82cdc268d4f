import Rhiza.Quepaxa.History

/-! # Read fences

A fence reads the recorders one after the other. Whatever was decided before it
started had been accepted by a quorum, and every later observation of one of
those recorders shows a maximal slot at or above the decision.
-/

namespace Rhiza.Quepaxa

open Core Library Recorder

section Gathering

variable [Sha256]

def ThreeNodeConsensus.countsEmpty (e : ThreeNodeConsensus) (slot : Nat) :
    Nat × Result ReadFenceObservation → Bool
  | (index, .ok observation) =>
    e.countsObservation slot index observation && observation.slotState = .empty
  | (_, .error _) => false

theorem length_of_gatherObservations {e : ThreeNodeConsensus} {slot saturated : Nat}
    {results : List (Nat × Result ReadFenceObservation)} {successful empty received : Nat}
    {workerFailed : Bool}
    (h : e.gatherObservations slot saturated successful empty received workerFailed results =
      .empty) :
    e.membership.quorumSize ≤ empty + (results.filter (e.countsEmpty slot)).length := by
  induction results generalizing successful empty received workerFailed with
  | nil =>
    simp only [ThreeNodeConsensus.gatherObservations] at h
    split at h
    · split at h <;> cases h
    · cases h
  | cons answer rest ih =>
    obtain ⟨index, result⟩ := answer
    cases result with
    | error error =>
      simp only [ThreeNodeConsensus.gatherObservations, Bool.false_eq_true, false_and,
        if_false] at h
      split at h
      · cases h
      · simpa [ThreeNodeConsensus.countsEmpty] using ih h
    | ok observation =>
      simp only [ThreeNodeConsensus.gatherObservations] at h
      by_cases hCounts : e.countsEmpty slot (index, .ok observation)
      · have hBoth := hCounts
        simp only [ThreeNodeConsensus.countsEmpty, Bool.and_eq_true] at hBoth
        simp only [hBoth.1, hBoth.2, Bool.and_self, if_true, true_and] at h
        rw [List.filter_cons_of_pos hCounts, List.length_cons]
        split at h
        · rename_i hQuorum
          omega
        · split at h
          · cases h
          · have := ih h
            omega
      · have hBoth : (e.countsObservation slot index observation &&
            decide (observation.slotState = .empty)) = false := by
          simpa [ThreeNodeConsensus.countsEmpty] using hCounts
        rw [List.filter_cons_of_neg hCounts]
        rw [hBoth, if_neg] at h
        · simp only [Bool.false_eq_true, if_false] at h
          generalize (if e.countsObservation slot index observation = true then successful + 1
            else successful) = successful' at h
          split at h
          · cases h
          · exact ih h
        · rintro ⟨hCounted, hEmpty, -⟩
          simp [hCounted, hEmpty] at hBoth

theorem quorum_of_gatherObservations {e : ThreeNodeConsensus} {slot saturated : Nat}
    {results : List (Nat × Result ReadFenceObservation)}
    (h : e.gatherObservations slot saturated 0 0 0 false results = .empty)
    (hNodup : (results.map (·.1)).Nodup) :
    ∃ Q, e.toGroup.Quorum Q ∧ ∀ k ∈ Q, ∃ index observation, (index, .ok observation) ∈ results ∧
      e.membership.members[index]? = some k ∧ observation.slotState = .empty := by
  have hLength := length_of_gatherObservations h
  have hCounted : ∀ answer ∈ results.filter (e.countsEmpty slot), ∃ k,
      e.membership.members[answer.1]? = some k ∧ ∃ observation, answer.2 = .ok observation ∧
        observation.slotState = .empty := by
    rintro ⟨index, result⟩ hAnswer
    obtain ⟨-, hCounts⟩ := List.mem_filter.mp hAnswer
    cases result with
    | error error => cases hCounts
    | ok observation =>
      simp only [ThreeNodeConsensus.countsEmpty, ThreeNodeConsensus.countsObservation,
        Bool.and_eq_true, Option.any_eq_true, decide_eq_true_eq] at hCounts
      obtain ⟨⟨k, hk, -⟩, hEmpty⟩ := hCounts
      exact ⟨k, hk, observation, rfl, hEmpty⟩
  refine ⟨((results.filter (e.countsEmpty slot)).map (·.1)).filterMap
    (e.membership.members[·]?), Membership.majority ?_ ?_ ?_, ?_⟩
  · refine List.Nodup.filterMap ?_ ((List.filter_sublist.map _).nodup hNodup)
    intro i j k hi hj
    have hLt := (List.getElem?_eq_some_iff.mp hi).1
    exact (List.getElem?_inj hLt e.membership.nodup).mp (hi.trans hj.symm)
  · intro k hk
    obtain ⟨answer, -, hk⟩ := List.mem_filterMap.mp hk
    exact List.mem_of_getElem? hk
  · rw [List.length_filterMap_eq_countP, List.countP_eq_length.mpr, List.length_map]
    · omega
    · intro index hIndex
      obtain ⟨answer, hAnswer, rfl⟩ := List.mem_map.mp hIndex
      obtain ⟨k, hk, -⟩ := hCounted answer hAnswer
      simp [hk]
  · intro k hk
    obtain ⟨index, hIndex, hk⟩ := List.mem_filterMap.mp hk
    obtain ⟨answer, hAnswer, rfl⟩ := List.mem_map.mp hIndex
    obtain ⟨-, -, observation, hResult, hEmpty⟩ := hCounted answer hAnswer
    exact ⟨answer.1, observation, hResult ▸ List.mem_of_mem_filter hAnswer, hk, hEmpty⟩

end Gathering

theorem World.mem_fenceAnswers_of_mapM {R : Type} {w : World R} {index : Nat}
    {arrivals : List Arrival} {results : List (Nat × Result ReadFenceObservation)}
    (hResults : arrivals.mapM (w.arriveFence index) = some results) {worker : Nat}
    {observation : ReadFenceObservation} (h : (worker, .ok observation) ∈ results) :
    ∃ answer ∈ w.fenceAnswers, answer.fence = index ∧ answer.worker = worker ∧
      answer.result = .ok observation := by
  obtain ⟨arrival, -, hArrive⟩ := World.exists_of_mem_mapM hResults h
  cases arrival with
  | failure worker error => cases hArrive
  | answer position =>
    simp only [World.arriveFence] at hArrive
    split at hArrive
    · rename_i answer hAnswer
      split at hArrive
      · rename_i hHere
        obtain ⟨hWorker, hResult⟩ := Prod.mk.inj (Option.some.inj hArrive)
        exact ⟨answer, List.mem_of_getElem? hAnswer, hHere, hWorker, hResult⟩
      · cases hArrive
    · cases hArrive

section Fences

variable [Sha256]

def NotEmpty (G : Group) (w : World Recorder) (index : Nat) (k : NodeId) : Prop :=
  ∀ answer ∈ w.fenceAnswers, answer.fence = index →
    G.membership.members[answer.worker]? = some k →
    ∀ observation, answer.result = .ok observation → observation.slotState ≠ .empty

def Precedes (G : Group) (fence : Fence) (proof : DecisionProof) : Prop :=
  fence.engine.toGroup = G ∧ proof ∈ fence.formedBefore ∧
    proof.context = G.context proof.slot ∧ fence.slot ≤ proof.slot

structure FenceLaw (G : Group) (w : World Recorder) : Prop where
  indexed : ∀ answer ∈ w.fenceAnswers, answer.fence < w.fences.length
  barred : ∀ index fence proof, w.fences[index]? = some fence → Precedes G fence proof →
    ∃ Q, G.Quorum Q ∧ ∀ k ∈ Q, (w.recorders k).Reached G.configId proof.slot ∧
      NotEmpty G w index k
  concluded : ∀ fence ∈ w.emptyFences, ∀ proof, ¬ Precedes G fence proof

omit [Sha256] in
theorem below_of_observeReadFence {r : Recorder} {request : ReadFenceRequest}
    {observation : ReadFenceObservation} (h : r.view.observeReadFence request = .ok observation)
    (hEmpty : observation.slotState = .empty) :
    request.configId = r.configuration.configId ∧
      ∀ m, r.configuration.maxAcceptedOrDecidedSlot = some m → m < request.slot := by
  simp only [RecorderView.observeReadFence, unit_bind_ok_iff, ensure_eq_ok, decide_eq_true_eq] at h
  obtain ⟨-, -, ⟨hConfig, -⟩, h⟩ := h
  obtain ⟨summary, -, h⟩ := bind_ok_iff.mp h
  obtain rfl := Except.ok.inj h
  refine ⟨hConfig, fun m hMax => ?_⟩
  dsimp only at hEmpty
  split at hEmpty
  · rename_i hNone
    have hAll := hNone.2
    rw [show r.view.configuration.maxAcceptedOrDecidedSlot = some m from hMax] at hAll
    simpa using hAll
  · cases hEmpty

omit [Sha256] in
theorem not_empty_of_reached {r : Recorder} (hSound : r.Sound) {request : ReadFenceRequest}
    {slot : Nat} (hReached : r.Reached request.configId slot) (hSlot : request.slot ≤ slot)
    {observation : ReadFenceObservation} (h : r.view.observeReadFence request = .ok observation) :
    observation.slotState ≠ .empty := by
  intro hEmpty
  obtain ⟨hConfig, hBelow⟩ := below_of_observeReadFence h hEmpty
  obtain ⟨c, hc, hId, m, hMax, hm⟩ := hReached
  rw [hSound.current_of_configId hc (hId.trans hConfig)] at hMax
  have := hBelow m hMax
  omega

namespace FenceLaw

variable {G : Group} {w w' : World Recorder}

theorem init (recorders : NodeId → Recorder) : FenceLaw G (World.init recorders) where
  indexed answer h := by cases h
  barred index fence proof h := by simp [World.init] at h
  concluded fence h := by cases h

theorem idle (h : FenceLaw G w) (hFences : w'.fences = w.fences)
    (hAnswers : w'.fenceAnswers = w.fenceAnswers) (hEmpty : w'.emptyFences = w.emptyFences)
    (hReached : ∀ k slot, (w.recorders k).Reached G.configId slot →
      (w'.recorders k).Reached G.configId slot) : FenceLaw G w' where
  indexed := by
    rw [hAnswers, hFences]
    exact h.indexed
  barred index fence proof hFence hPrecedes := by
    rw [hFences] at hFence
    obtain ⟨Q, hQuorum, hQ⟩ := h.barred index fence proof hFence hPrecedes
    refine ⟨Q, hQuorum, fun k hk => ⟨hReached k _ (hQ k hk).1, ?_⟩⟩
    rw [NotEmpty, hAnswers]
    exact (hQ k hk).2
  concluded := by
    rw [hEmpty]
    exact h.concluded

theorem openFence (h : FenceLaw G w) {engine : ThreeNodeConsensus} {slot : Nat}
    (hFormed : ∀ proof ∈ w.formed, proof.context = G.context proof.slot →
      ∃ Q, G.Quorum Q ∧ ∀ k ∈ Q, (w.recorders k).Reached G.configId proof.slot) :
    FenceLaw G { w with fences := w.fences ++ [⟨engine, slot, w.formed⟩] } where
  indexed answer hAnswer := by
    have := h.indexed answer hAnswer
    simp only [List.length_append]
    omega
  barred index fence proof hFence hPrecedes := by
    rcases List.getElem?_append .. ▸ hFence with hOld
    split at hOld
    · exact h.barred index fence proof hOld hPrecedes
    · rename_i hIndex
      have hLast : index = w.fences.length := by
        have := (List.getElem?_eq_some_iff.mp hFence).1
        simp only [List.length_append, List.length_singleton] at this
        omega
      subst hLast
      obtain rfl : ⟨engine, slot, w.formed⟩ = fence := by simpa using hOld
      obtain ⟨-, hMem, hContext, -⟩ := hPrecedes
      obtain ⟨Q, hQuorum, hReached⟩ := hFormed proof hMem hContext
      refine ⟨Q, hQuorum, fun k hk => ⟨hReached k hk, ?_⟩⟩
      rintro answer hAnswer hHere
      have := h.indexed answer hAnswer
      omega
  concluded := h.concluded

theorem observe (h : FenceLaw G w) (hSound : ∀ k, (w.recorders k).Sound) {index worker : Nat}
    {fence : Fence} {j : NodeId} (conduct : Conduct) (hFence : w.fences[index]? = some fence)
    (hWorker : fence.engine.membership.members[worker]? = some j) :
    FenceLaw G (w.observe index worker fence j conduct) where
  indexed answer hAnswer := by
    rcases List.mem_append.mp hAnswer with hOld | hNew
    · exact h.indexed answer hOld
    · obtain rfl := List.mem_singleton.mp hNew
      exact (List.getElem?_eq_some_iff.mp hFence).1
  barred i f proof hf hPrecedes := by
    obtain ⟨Q, hQuorum, hQ⟩ := h.barred i f proof hf hPrecedes
    have hSame : ∀ k, (w.observe index worker fence j conduct).recorders k = w.recorders k := by
      intro k
      change Function.update w.recorders j (settle conduct (w.recorders j) _ _ _).1 k = _
      rw [settle_same, Function.update_eq_self]
    refine ⟨Q, hQuorum, fun k hk => ⟨hSame k ▸ (hQ k hk).1, ?_⟩⟩
    intro answer hAnswer hHere hMember observation hResult
    rcases List.mem_append.mp hAnswer with hOld | hNew
    · exact (hQ k hk).2 answer hOld hHere hMember observation hResult
    · obtain rfl := List.mem_singleton.mp hNew
      obtain rfl : index = i := hHere
      obtain rfl := Option.some.inj (hFence.symm.trans hf)
      obtain ⟨rfl, -, -, hSlot⟩ := hPrecedes
      obtain rfl := Option.some.inj (hWorker.symm.trans hMember)
      obtain ⟨hReply, -⟩ := settle_eq_ok hResult
      exact not_empty_of_reached (hSound _) (hQ _ hk).1 hSlot hReply
  concluded := h.concluded

theorem closeFence (h : FenceLaw G w) {index saturated : Nat} {arrivals : List Arrival}
    {fence : Fence} {results : List (Nat × Result ReadFenceObservation)}
    (hFence : w.fences[index]? = some fence)
    (hResults : arrivals.mapM (w.arriveFence index) = some results)
    (hNodup : (results.map (·.1)).Nodup)
    (hEmpty : fence.engine.gatherObservations fence.slot saturated 0 0 0 false results = .empty) :
    FenceLaw G { w with emptyFences := w.emptyFences ++ [fence] } where
  indexed := h.indexed
  barred := h.barred
  concluded f hf proof hPrecedes := by
    rcases List.mem_append.mp hf with hOld | hNew
    · exact h.concluded f hOld proof hPrecedes
    · obtain rfl := List.mem_singleton.mp hNew
      obtain ⟨Q, hQuorum, hQ⟩ := h.barred index f proof hFence hPrecedes
      obtain ⟨Q', hQuorum', hQ'⟩ := quorum_of_gatherObservations hEmpty hNodup
      rw [hPrecedes.1] at hQuorum'
      -- a recorder of both quorums answered that it is empty although it was not
      obtain ⟨k, hk, hk'⟩ := Majority.intersect hQuorum hQuorum'
      obtain ⟨worker, observation, hAnswer, hMember, hShows⟩ := hQ' k hk'
      obtain ⟨answer, hMem, hHere, rfl, hResult⟩ := World.mem_fenceAnswers_of_mapM hResults hAnswer
      rw [← hPrecedes.1] at hQ
      exact (hQ k hk).2 answer hMem hHere hMember observation hResult hShows

theorem step (h : FenceLaw G w) (hSound : ∀ k, (w.recorders k).Sound)
    (hFormed : ∀ proof ∈ w.formed, proof.context = G.context proof.slot →
      ∃ Q, G.Quorum Q ∧ ∀ k ∈ Q, (w.recorders k).Reached G.configId proof.slot)
    {a : Action Conduct RecorderEvent} (hStep : w.step a = some w') : FenceLaw G w' := by
  have hReached : ∀ k slot, (w.recorders k).Reached G.configId slot →
      (w'.recorders k).Reached G.configId slot := by
    intro k slot hReached
    rcases step_recorders hStep k with hSame | ⟨move, hTakes, -⟩
    · exact hSame ▸ hReached
    · exact hReached.takes (hSound k) hTakes
  cases a with
  | start engine slot proposal command =>
    obtain rfl := Option.some.inj hStep
    exact h.idle rfl rfl rfl hReached
  | broadcast index fetched sample =>
    obtain rfl | ⟨driver, -, progress, requests, -, rfl⟩ := World.step_broadcast hStep
    · exact h
    · exact h.idle rfl rfl rfl hReached
  | deliver index worker conduct =>
    obtain ⟨call, j, request, -, -, -, rfl⟩ := World.step_deliver hStep
    exact h.idle rfl rfl rfl hReached
  | resume index saturatedWorkers arrivals fetched installs =>
    obtain ⟨call, answers, -, -, rfl⟩ := World.step_resume hStep
    exact h.idle rfl rfl rfl hReached
  | install j conduct proof membership =>
    obtain rfl := Option.some.inj hStep
    exact h.idle rfl rfl rfl hReached
  | inspect j conduct slot =>
    obtain rfl := Option.some.inj hStep
    exact h.idle rfl rfl rfl hReached
  | occur j event =>
    obtain rfl := Option.some.inj hStep
    exact h.idle rfl rfl rfl hReached
  | openFence engine slot =>
    obtain rfl := World.step_openFence hStep
    exact h.openFence hFormed
  | observe index worker conduct =>
    obtain ⟨fence, j, hFence, hWorker, rfl⟩ := World.step_observe hStep
    exact h.observe hSound conduct hFence hWorker
  | closeFence index saturated arrivals =>
    obtain ⟨fence, results, hFence, hResults, hNodup, rfl | ⟨hEmpty, rfl⟩⟩ :=
      World.step_closeFence hStep
    · exact h
    · exact h.closeFence hFence hResults hNodup hEmpty

end FenceLaw

theorem FenceLaw.run {G₀ G : Group} {allowed : World Recorder → Action Conduct RecorderEvent → Prop}
    (hCoherent : ∀ w a, allowed w a → Coherent G a) {w : World Recorder}
    (hRun : Run World.step allowed (World.init G₀.fresh) w) : FenceLaw G w := by
  refine hRun.invariant_of_reachable (P := FenceLaw G) (.init _) ?_
  intro w a w' hHere hLaw _ hStep
  exact hLaw.step (sound_run hHere) (fun proof => reached_of_formed hCoherent hHere) hStep

/-- Whatever was decided when an empty fence started lies before its slot. -/
theorem decided_before_empty_fence {G₀ G : Group} {w : World Recorder}
    (hRun : Run World.step (fun _ a => Coherent G a) (World.init G₀.fresh) w) {fence : Fence}
    (hFence : fence ∈ w.emptyFences) (hEngine : fence.engine.toGroup = G) {proof : DecisionProof}
    (hProof : proof ∈ fence.formedBefore) (hContext : proof.context = G.context proof.slot) :
    proof.slot < fence.slot := by
  have hLaw := FenceLaw.run (G := G) (fun _ _ h => h) hRun
  by_contra hLate
  exact hLaw.concluded fence hFence proof ⟨hEngine, hProof, hContext, Nat.le_of_not_lt hLate⟩

end Fences

section Example

open scoped Trio

/-- Slot 1 is decided by `a` and `b`; then `c` and `b` answer a fence at slot 2. -/
def fencedAtTwo : List (Action Conduct RecorderEvent) :=
  [Trio.start "a" 1 1 1, .broadcast 0 (Trio.fetch []) (Trio.priority 5), .deliver 0 0 .good,
    .deliver 0 1 .good, Trio.resume 0 [0, 1] [], .openFence (Trio.engine "b") 2,
    .observe 0 2 .good, .observe 0 1 .good, .closeFence 0 0 [.answer 0, .answer 1]]

end Example

end Rhiza.Quepaxa
