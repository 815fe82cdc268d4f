import Rhiza.Quepaxa.Activation
import Rhiza.Quepaxa.Succession

/-! # From one configuration to the next

Where the fast path is unique, all recorders move from one configuration to the
same next one, and nothing but the barrier of that handover is decided in its
first slot. Without it two stops of one configuration can both be decided.
-/

namespace Rhiza.Quepaxa

open Core Library Recorder

section Handover

variable [Sha256] {K : Known} {G₀ : Group} {w : World Recorder}

/-- All recorders leave a configuration for the same next one, and the slots
decided in two configurations are apart. -/
structure OneLog (K : Known) (recorders : NodeId → Recorder) (formed : List DecisionProof) :
    Prop where
  ids : ∀ k, (recorders k).history.IsChain fun newer older => newer.configId = older.configId + 1
  same : ∀ j k, ∀ c ∈ (recorders j).history, ∀ c' ∈ (recorders k).history,
    c.configId = c'.configId → c.membership = c'.membership ∧ c.predecessor = c'.predecessor
  split : ∀ k, ∀ c ∈ (recorders k).history, ∀ predecessor, c.predecessor = some predecessor →
    ∀ G : Group, K.memberships G.membership → ∀ proof ∈ formed,
    proof.context = G.context proof.slot →
    (G.configId + 1 = c.configId → proof.slot ≤ predecessor.stopSlot) ∧
    (G.configId = c.configId → predecessor.stopSlot < proof.slot)
  apart : ∀ G G' : Group, K.memberships G.membership → K.memberships G'.membership →
    ∀ p ∈ formed, ∀ q ∈ formed, p.context = G.context p.slot → q.context = G'.context q.slot →
    G.configId ≠ G'.configId → p.slot ≠ q.slot

theorem one_log_across_configurations (hK : K.Distinct) (hG₀ : K.memberships G₀.membership)
    (hRun : Run World.step (Successive K) (World.init G₀.fresh) w)
    (hUnique : FastPathsUnique K G₀ w) : OneLog K w.recorders w.formed := by
  refine ⟨fun k => (sound_run hRun k).ids, ?_, ?_, ?_⟩
  · intro j k c hc c' hc' hId
    have hSame := sameInstallation_of_configId hK hG₀ hRun hUnique hc hc' hId
    exact ⟨hSame.membership_eq.symm, hSame.predecessor_eq.symm⟩
  · intro k c hc predecessor hPredecessor G hG proof hProof hContext
    constructor
    · intro hId
      exact formed_before_stop hK hG₀ hRun hUnique hG hProof hContext hc hId.symm hPredecessor
    · intro hId
      exact stop_before_formed hK hG₀ hRun hUnique hG hProof hContext hc hId.symm hPredecessor
  · intro G G' hG hG' p hp q hq hpContext hqContext hOther
    rcases Nat.lt_or_gt_of_ne hOther with hLt | hGt
    · exact (slot_lt_of_configId_lt hK hG₀ hRun hUnique hG hG' hp hq hpContext hqContext hLt).ne
    · exact (slot_lt_of_configId_lt hK hG₀ hRun hUnique hG' hG hq hp hqContext hpContext hGt).ne'

def Activating (K : Known) (configId : Nat) (w : World Recorder)
    (a : Action Conduct RecorderEvent) : Prop :=
  Successive K w a ∧ ActivatedByProof configId w a

/-- What an installed successor decides and holds before and after its activation. -/
structure BarrierFirst (G₀ : Group) (configId : Nat) (membership : Membership)
    (predecessor : ConfigurationSeal) (recorders : NodeId → Recorder)
    (formed : List DecisionProof) : Prop where
  held : ∀ k, (recorders k).configuration.configId = configId →
    (recorders k).configuration.activated = false → ∀ slot state,
    (recorders k).slots slot = some state → state.configId = configId →
    ∀ value ∈ recorderStateValues state,
      BarrierValue G₀.clusterId G₀.epoch configId membership.digest predecessor value
  first : ∀ proof ∈ formed, proof.context =
      (G₀.inConfiguration configId membership).context (predecessor.stopSlot + 1) →
    ∃ value, proof.value = some value ∧
      BarrierValue G₀.clusterId G₀.epoch configId membership.digest predecessor value
  before : ∀ proof ∈ formed,
    proof.context = (G₀.inConfiguration configId membership).context proof.slot →
    predecessor.stopSlot + 1 < proof.slot →
    ∃ barrier ∈ formed, barrier.context =
        (G₀.inConfiguration configId membership).context (predecessor.stopSlot + 1) ∧
      ∃ value, barrier.value = some value ∧
        BarrierValue G₀.clusterId G₀.epoch configId membership.digest predecessor value

theorem activation_precedes_use (hK : K.Distinct) (hG₀ : K.memberships G₀.membership)
    {configId : Nat} (hRun : Run World.step (Activating K configId) (World.init G₀.fresh) w)
    (hUnique : FastPathsUnique K G₀ w) {j : NodeId} {c : ConfigurationState}
    (hc : c ∈ (w.recorders j).history) (hId : c.configId = configId) {membership : Membership}
    (hMembership : c.membership = some membership) {predecessor : ConfigurationSeal}
    (hPredecessor : c.predecessor = some predecessor) :
    BarrierFirst G₀ configId membership predecessor w.recorders w.formed := by
  have hSuccessive : Run World.step (Successive K) (World.init G₀.fresh) w :=
    hRun.mono fun _ _ h => h.1
  obtain ⟨known, hKnown, hOwn, hDigest⟩ :=
    (Known.Vets.run hG₀ (fun _ _ h => h.1.1.2) hRun j).memberships c hc
  obtain rfl := Option.some.inj (hMembership.symm.trans hOwn)
  have hInstalled : ∀ k, (w.recorders k).InstalledWith configId membership.digest predecessor := by
    intro k c' hc' hId'
    have hSame := sameInstallation_of_configId hK hG₀ hSuccessive hUnique hc hc'
      (hId.trans hId'.symm)
    exact ⟨hSame.configDigest_eq.trans hDigest, hSame.predecessor_eq.trans hPredecessor⟩
  have hCoherent : ∀ w a, Activating K configId w a →
      Coherent (G₀.inConfiguration configId membership) a :=
    fun _ _ h => coherent_of_covers (G := G₀.inConfiguration configId membership) hK hKnown h.1.1.2
  refine ⟨?_, ?_, ?_⟩
  · intro k hHere hInactive slot state hState hStateId value hValue
    exact barrier_of_inactive hCoherent (fun _ _ h => h.1.1.1) (fun _ _ h => h.2) hRun hInstalled
      hHere hInactive hState hStateId hValue
  · intro proof hProof hContext
    exact barrier_of_formed hCoherent (fun _ _ h => h.2) hRun hInstalled hProof hContext
  · intro proof hProof hContext hLater
    exact barrier_before_formed hCoherent (fun _ _ h => h.1.1.1) (fun _ _ h => h.2) hRun hInstalled
      hProof hContext hLater

end Handover

namespace Trio

variable [Sha256]

theorem activating_of_permits {commands : List StoredCommand} {memberships : List Membership}
    {w : World Recorder} {a : Action Conduct RecorderEvent}
    (h : permits commands memberships w a) (configId : Nat) :
    Activating (known commands memberships) configId w a := by
  refine ⟨⟨(returning_of_permits h).1, ?_⟩, ?_⟩
  · cases a with
    | occur k event =>
      cases event with
      | installSuccessor conduct membership proof =>
        simp only [permits, decide_eq_true_eq] at h
        exact h.2.1
      | _ => trivial
    | _ => trivial
  · cases a with
    | occur k event =>
      cases event with
      | recoverActivation => cases h
      | _ => trivial
    | _ => trivial

def oneFirst (w : World Recorder) : Bool :=
  w.reports.all fun report => w.reports.all fun other =>
    report.context = other.context → report.isr.firstCurrent = other.isr.firstCurrent

theorem fastPathsUnique_of_oneFirst {K : Known} {G₀ : Group} {w : World Recorder}
    (h : oneFirst w) : FastPathsUnique K G₀ w := by
  rintro configId membership slot - Q p k q hQuorum hShown - ⟨report, hReport, -, hContext, -, hq⟩ -
  obtain ⟨j, hj⟩ := List.exists_mem_of_ne_nil _ hQuorum.nonempty
  obtain ⟨other, hOther, -, hOtherContext, -, hp⟩ := hShown j hj
  have hSame := List.all_eq_true.mp (List.all_eq_true.mp h report hReport) other hOther
  have hFirst := of_decide_eq_true hSame (hContext.trans hOtherContext.symm)
  rw [hq, hp] at hFirst
  rw [Option.some.inj hFirst]

def succeed (k : NodeId) (membership : Membership) (position : Nat) (w : World Recorder) :
    Option (Action Conduct RecorderEvent) :=
  w.formed[position]?.map fun proof => .occur k (.installSuccessor .good membership proof)

def barrier (membership : Membership) (stopSlot : Nat) : StoredCommand :=
  (ConfigChange.boundActivationBarrier (successor membership) stopSlot
    (AcceptedValue.fromCommand group.clusterId stopSlot group.epoch group.configId .zero
      (stop membership)).entryHash (stop membership).hash).toStoredCommand

def second (membership : Membership) : Group := group.inConfiguration 2 membership

def other : Membership := ⟨["a", "b", "d"], by decide⟩

end Trio

section Example

open scoped Trio

/-- The stop at slot 1 is seen first by `a` and `b`, and its proof is formed. Before
anyone installs it, `a` offers another command, decides it with `a` and `c`, and its
proof opens `a` and `b` again; `c` alone installs the stop. The second stop, at slot 2,
is decided by `a` and `b`. -/
def twoStops (first second : Membership) :
    List (World Recorder → Option (Action Conduct RecorderEvent)) :=
  [Trio.offer Trio.group "a" 1 1 (Trio.stop first), Trio.broadcast 0, Trio.deliver 0 0,
    Trio.deliver 0 1, Trio.finish 0 [0, 1] 0,
    Trio.offer Trio.group "a" 2 1 (Trio.command 2), Trio.broadcast 1, Trio.deliver 1 2,
    Trio.deliver 1 0, Trio.finish 1 [2, 3] 0,
    Trio.broadcast 2, Trio.deliver 2 0, Trio.deliver 2 2, Trio.finish 2 [4, 5] 0,
    Trio.broadcast 3, Trio.deliver 3 0, Trio.deliver 3 2, Trio.finish 3 [6, 7] 0,
    Trio.deliver 1 1, Trio.deliver 0 2, Trio.install "a" 1, Trio.install "b" 1,
    Trio.install "c" 0,
    Trio.offer Trio.group "a" 3 2 (Trio.stop second), Trio.broadcast 4, Trio.deliver 4 0,
    Trio.deliver 4 1, Trio.finish 4 [10, 11] 0, Trio.install "a" 2, Trio.install "b" 2,
    Trio.finish 4 [10, 11] 2, Trio.succeed "c" first 0, Trio.succeed "a" second 2,
    Trio.succeed "b" second 2]

/-- Recorders `a` and `c` enter configuration 2 with two memberships. -/
theorem two_stops_split_configurations : ∃ w : World Recorder,
    Run World.step (fun w a => Successive (Trio.known
      [Trio.command 2, Trio.stop Trio.group.membership, Trio.stop Trio.other]
      [Trio.group.membership, Trio.other]) w a ∧ InstallsHeld w a) (World.init Trio.group.fresh) w ∧
    (w.recorders "a").configuration.configId = 2 ∧ (w.recorders "c").configuration.configId = 2 ∧
    (w.recorders "a").configuration.membership ≠ (w.recorders "c").configuration.membership := by
  have hEnd : (play World.step (Trio.permits
      [Trio.command 2, Trio.stop Trio.group.membership, Trio.stop Trio.other]
      [Trio.group.membership, Trio.other]) (World.init Trio.group.fresh)
      (twoStops Trio.group.membership Trio.other)).any fun w => decide (
        (w.recorders "a").configuration.configId = 2 ∧
        (w.recorders "c").configuration.configId = 2 ∧
        (w.recorders "a").configuration.membership ≠ (w.recorders "c").configuration.membership) := by
    decide +kernel
  obtain ⟨w, hw, hSplit⟩ := (Option.any_eq_true _ _).mp hEnd
  refine ⟨w, .of_play (fun w a h => ?_) hw, of_decide_eq_true hSplit⟩
  exact ⟨(Trio.activating_of_permits h 2).1, (Trio.returning_of_permits h).2.1⟩

/-- Both stops name the same membership, `c` enters with the first and `a` and `b` with
the second. The barrier of the second is decided at slot 3. -/
def twoHandovers : List (World Recorder → Option (Action Conduct RecorderEvent)) :=
  twoStops Trio.group.membership Trio.group.membership ++
    [Trio.offer (Trio.second Trio.group.membership) "a" 4 3
        (Trio.barrier Trio.group.membership 2), Trio.broadcast 5, Trio.deliver 5 0,
      Trio.deliver 5 1, Trio.finish 5 [12, 13] 0]

/-- Recorder `c` was installed with the stop slot 1, and slot 3 of its configuration was
decided although nothing was decided at slot 2. -/
theorem two_stops_skip_barrier : ∃ w : World Recorder,
    Run World.step (fun w a => Activating (Trio.known
      [Trio.command 2, Trio.stop Trio.group.membership, Trio.barrier Trio.group.membership 2]
      [Trio.group.membership]) 2 w a ∧ InstallsHeld w a) (World.init Trio.group.fresh) w ∧
    (w.recorders "c").configuration.configId = 2 ∧
    (w.recorders "c").configuration.membership = some Trio.group.membership ∧
    (w.recorders "c").configuration.predecessor.map (·.stopSlot) = some 1 ∧
    (∃ proof ∈ w.formed, proof.context = (Trio.second Trio.group.membership).context 3) ∧
    ∀ barrier ∈ w.formed, barrier.context ≠ (Trio.second Trio.group.membership).context 2 := by
  have hEnd : (play World.step (Trio.permits
      [Trio.command 2, Trio.stop Trio.group.membership, Trio.barrier Trio.group.membership 2]
      [Trio.group.membership]) (World.init Trio.group.fresh) twoHandovers).any fun w => decide (
        (w.recorders "c").configuration.configId = 2 ∧
        (w.recorders "c").configuration.membership = some Trio.group.membership ∧
        (w.recorders "c").configuration.predecessor.map (·.stopSlot) = some 1 ∧
        (∃ proof ∈ w.formed, proof.context = (Trio.second Trio.group.membership).context 3) ∧
        ∀ barrier ∈ w.formed,
          barrier.context ≠ (Trio.second Trio.group.membership).context 2) := by
    decide +kernel
  obtain ⟨w, hw, hSkips⟩ := (Option.any_eq_true _ _).mp hEnd
  refine ⟨w, .of_play (fun w a h => ?_) hw, of_decide_eq_true hSkips⟩
  exact ⟨Trio.activating_of_permits h 2, (Trio.returning_of_permits h).2.1⟩

/-- A stop at slot 1, the handover of `a` and `b`, the barrier at slot 2, its
installation on `a` and `b`, and a command at slot 3. -/
def handover : List (World Recorder → Option (Action Conduct RecorderEvent)) :=
  [Trio.offer Trio.group "a" 1 1 (Trio.stop Trio.group.membership), Trio.broadcast 0,
    Trio.deliver 0 0, Trio.deliver 0 1, Trio.finish 0 [0, 1] 0, Trio.install "a" 0,
    Trio.install "b" 0, Trio.finish 0 [0, 1] 2, Trio.succeed "a" Trio.group.membership 0,
    Trio.succeed "b" Trio.group.membership 0,
    Trio.offer (Trio.second Trio.group.membership) "a" 2 2
      (Trio.barrier Trio.group.membership 1), Trio.broadcast 1, Trio.deliver 1 0,
    Trio.deliver 1 1, Trio.finish 1 [2, 3] 0, Trio.install "a" 2, Trio.install "b" 2,
    Trio.offer (Trio.second Trio.group.membership) "a" 3 3 (Trio.command 1), Trio.broadcast 2,
    Trio.deliver 2 0, Trio.deliver 2 1, Trio.finish 2 [4, 5] 0]

def handoverKnown : Known := Trio.known
  [Trio.command 1, Trio.stop Trio.group.membership, Trio.barrier Trio.group.membership 1]
  [Trio.group.membership]

theorem distinct_handoverKnown : handoverKnown.Distinct where
  command := by
    intro c c' hc hc'
    have h : ∀ c ∈ [Trio.command 1, Trio.stop Trio.group.membership,
        Trio.barrier Trio.group.membership 1], ∀ c' ∈ [Trio.command 1,
        Trio.stop Trio.group.membership, Trio.barrier Trio.group.membership 1],
        c.hash = c'.hash → c = c' := by
      decide +kernel
    exact h c hc c' hc'
  membership := by
    intro m m' hm hm' _
    rw [List.mem_singleton.mp hm, List.mem_singleton.mp hm']
  nonzero := by
    intro m hm
    rw [List.mem_singleton.mp hm]
    decide +kernel

end Example

end Rhiza.Quepaxa
