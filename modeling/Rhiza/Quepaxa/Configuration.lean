import Rhiza.Library.Fallible
import Rhiza.Quepaxa.SlotState

/-! # The configuration of a recorder

A recorder belongs to one configuration at a time. A stop command seals it, and
the successor stays closed to ordinary commands until a barrier that names the
stop has been decided.
-/

namespace Rhiza.Quepaxa

open Core Library

structure ConfigurationSeal where
  stopSlot : Nat
  commandHash : LogHash
  prefixHash : LogHash
  deriving DecidableEq

structure ConfigurationState where
  configId : Nat
  configDigest : LogHash
  membership : Option Membership
  predecessor : Option ConfigurationSeal
  sealed : Option ConfigurationSeal
  maxAcceptedOrDecidedSlot : Option Nat
  activated : Bool
  deriving DecidableEq

def ConfigurationState.initial (configId : Nat) (configDigest : LogHash)
    (membership : Option Membership) : ConfigurationState :=
  ⟨configId, configDigest, membership, none, none, none, true⟩

/-- `configuration_structure_changed`: everything but the maximal slot. -/
def configurationStructureChanged (previous next : ConfigurationState) : Bool :=
  previous.configId ≠ next.configId ∨ previous.configDigest ≠ next.configDigest ∨
    previous.membership ≠ next.membership ∨ previous.predecessor ≠ next.predecessor ∨
    previous.sealed ≠ next.sealed ∨ previous.activated ≠ next.activated

theorem eq_of_structure_unchanged {previous next : ConfigurationState}
    (h : configurationStructureChanged previous next = false) :
    next = { previous with maxAcceptedOrDecidedSlot := next.maxAcceptedOrDecidedSlot } := by
  simp only [configurationStructureChanged, decide_eq_false_iff_not, not_or, not_not] at h
  obtain ⟨hId, hDigest, hMembership, hPredecessor, hSeal, hActivated⟩ := h
  cases previous
  cases next
  simp_all

def ensure (check : Bool) (reason : RejectReason) : Result Unit :=
  if check then .ok () else .error (.rejected reason)

@[simp] theorem ensure_eq_ok {check : Bool} {reason : RejectReason} :
    ensure check reason = .ok () ↔ check := by
  cases check <;> simp [ensure]

def recorderStateValues (state : RecorderSlotState) : List AcceptedValue :=
  [state.accepted.map (·.value), state.decided.map (·.value),
    state.isr.firstCurrent.bind (·.value), state.isr.aggregateCurrent.bind (·.value),
    state.isr.aggregatePrior.bind (·.value), state.decidedProof.bind (·.proposal.value)].filterMap id

section Gate

variable [Sha256]

def changeForCommand (command : StoredCommand) : Result (Option ConfigChange) :=
  if command.entryType ≠ .configChange then .ok none
  else match ConfigChange.recognize command with
    | none => .error (.rejected .invalidRequest)
    | some change => .ok (some change)

def activates (clusterId : ClusterId) (configuration : ConfigurationState)
    (predecessor : ConfigurationSeal) : ConfigChange → Bool
  | .boundActivationBarrier successor stopSlot prefixHash stopCommandHash =>
    successor.clusterId = clusterId ∧ successor.configId = configuration.configId ∧
      successor.digest = configuration.configDigest ∧
      checkedSucc successor.predecessorConfigId = some configuration.configId ∧
      stopSlot = predecessor.stopSlot ∧ prefixHash = predecessor.prefixHash ∧
      stopCommandHash = predecessor.commandHash
  | _ => false

/-- The checks of `validate_slot_gate` against the seal. -/
def sealGate (configuration : ConfigurationState) (slot : Nat) (change : Option ConfigChange) :
    Result Unit :=
  match configuration.sealed with
  | some mark => do
    ensure (slot ≤ mark.stopSlot) (.configurationSealed mark.stopSlot)
    ensure (change.any (·.isStop) → slot = mark.stopSlot ∧ mark.commandHash ≠ .zero)
      .transitionInProgress
  | none => .ok ()

/-- The checks of `validate_slot_gate` that depend on the activation. -/
def activationGate (clusterId : ClusterId) (configuration : ConfigurationState) (slot : Nat)
    (change : Option ConfigChange) : Result Unit :=
  match configuration.activated, configuration.predecessor with
  | true, _ => ensure (change.all (!·.isBarrier)) .invalidTransition
  | false, none => .error (.rejected .invalidTransition)
  | false, some predecessor =>
    ensure (change.all (activates clusterId configuration predecessor) ∧
      slot = predecessor.stopSlot + 1) .activationRequired

def validateSlotGate (clusterId : ClusterId) (configuration : ConfigurationState) (slot : Nat)
    (change : Option ConfigChange) : Result Unit := do
  ensure (configuration.predecessor.all (·.stopSlot < slot)) .configurationNotInstalled
  sealGate configuration slot change
  ensure (change.any (·.isStop) → configuration.maxAcceptedOrDecidedSlot.all (· ≤ slot))
    .invalidTransition
  activationGate clusterId configuration slot change
  ensure (change.all (·.binding = (configuration.configId, configuration.configDigest)))
    .wrongConfig

def sealAfterProof (state : RecorderSlotState) (appliedValue : Option AcceptedValue)
    (sealed : Option ConfigurationSeal) : Option ConfigurationSeal :=
  sealed.filter fun mark => !(state.decidedProof.isSome && mark.stopSlot = state.slot &&
    appliedValue.any (·.commandHash ≠ mark.commandHash))

def sealForStop (proposed : ConfigurationSeal) :
    Option ConfigurationSeal → Result ConfigurationSeal
  | some existing =>
    if existing ≠ proposed then .error (.rejected .transitionInProgress) else .ok existing
  | none => .ok proposed

def transitionAfterApply (configuration : ConfigurationState) (state : RecorderSlotState)
    (change : Option ConfigChange) (appliedValue : Option AcceptedValue) :
    Result ConfigurationState :=
  let next : ConfigurationState := { configuration with
    maxAcceptedOrDecidedSlot :=
      if appliedValue.isSome then
        some (configuration.maxAcceptedOrDecidedSlot.elim state.slot (max · state.slot))
      else configuration.maxAcceptedOrDecidedSlot
    sealed := sealAfterProof state appliedValue configuration.sealed }
  if change.any (·.isStop) then
    match appliedValue with
    | none => .ok next
    | some value => do
      let mark ← sealForStop ⟨state.slot, value.commandHash, value.entryHash⟩ next.sealed
      .ok { next with sealed := some mark }
  else if change.any (·.isBarrier) ∧ state.decidedProof.isSome then
    .ok { next with activated := true }
  else .ok next

structure Admitted (clusterId : ClusterId) (configuration : ConfigurationState) (slot : Nat)
    (change : Option ConfigChange) : Prop where
  after : ∀ predecessor, configuration.predecessor = some predecessor → predecessor.stopSlot < slot
  within : ∀ mark, configuration.sealed = some mark → slot ≤ mark.stopSlot
  notLate : change.any (·.isStop) → ∀ accepted,
    configuration.maxAcceptedOrDecidedSlot = some accepted → accepted ≤ slot
  opens : configuration.activated = false → ∃ predecessor,
    configuration.predecessor = some predecessor ∧ slot = predecessor.stopSlot + 1 ∧
      change.all (activates clusterId configuration predecessor)
  opened : configuration.activated → change.any (·.isBarrier) = false
  bound : ∀ c, change = some c → c.binding = (configuration.configId, configuration.configDigest)

omit [Sha256] in
theorem within_of_sealGate {configuration : ConfigurationState} {slot : Nat}
    {change : Option ConfigChange} (h : sealGate configuration slot change = .ok ())
    {mark : ConfigurationSeal} (hMark : configuration.sealed = some mark) :
    slot ≤ mark.stopSlot := by
  simp only [sealGate, hMark, unit_bind_ok_iff, ensure_eq_ok, decide_eq_true_eq] at h
  exact h.1

theorem opens_of_activationGate {clusterId : ClusterId} {configuration : ConfigurationState}
    {slot : Nat} {change : Option ConfigChange}
    (h : activationGate clusterId configuration slot change = .ok ())
    (hInactive : configuration.activated = false) : ∃ predecessor,
      configuration.predecessor = some predecessor ∧ slot = predecessor.stopSlot + 1 ∧
        change.all (activates clusterId configuration predecessor) := by
  cases hPredecessor : configuration.predecessor with
  | none => simp [activationGate, hInactive, hPredecessor] at h
  | some predecessor =>
    simp only [activationGate, hInactive, hPredecessor, ensure_eq_ok, decide_eq_true_eq] at h
    exact ⟨predecessor, rfl, h.2, h.1⟩

theorem admitted_of_validateSlotGate {clusterId : ClusterId} {configuration : ConfigurationState}
    {slot : Nat} {change : Option ConfigChange}
    (h : validateSlotGate clusterId configuration slot change = .ok ()) :
    Admitted clusterId configuration slot change := by
  simp only [validateSlotGate, unit_bind_ok_iff, ensure_eq_ok, decide_eq_true_eq] at h
  obtain ⟨hAfter, hSeal, hLate, hActivation, hBound⟩ := h
  constructor
  · rintro predecessor hPredecessor
    simpa [hPredecessor] using hAfter
  · exact fun _ => within_of_sealGate hSeal
  · rintro hStop accepted hAccepted
    simpa [hAccepted] using hLate hStop
  · exact opens_of_activationGate hActivation
  · intro hActivated
    simp only [activationGate, hActivated, ensure_eq_ok] at hActivation
    cases change <;> simp_all
  · rintro c rfl
    simpa using hBound

structure Applied (configuration : ConfigurationState) (state : RecorderSlotState)
    (change : Option ConfigChange) (value : AcceptedValue) (next : ConfigurationState) : Prop where
  same : next = { configuration with
    sealed := next.sealed
    maxAcceptedOrDecidedSlot := next.maxAcceptedOrDecidedSlot
    activated := next.activated }
  raised : next.maxAcceptedOrDecidedSlot = some
    (configuration.maxAcceptedOrDecidedSlot.elim state.slot (max · state.slot))
  stopped : change.any (·.isStop) →
    next.sealed = some ⟨state.slot, value.commandHash, value.entryHash⟩
  unstopped : change.any (·.isStop) = false →
    next.sealed = sealAfterProof state (some value) configuration.sealed
  kept : ∀ mark, sealAfterProof state (some value) configuration.sealed = some mark →
    next.sealed = some mark
  activated : next.activated =
    (configuration.activated || (change.any (·.isBarrier) && state.decidedProof.isSome))

namespace Applied

variable {configuration next : ConfigurationState} {state : RecorderSlotState}
  {change : Option ConfigChange} {value : AcceptedValue}

omit [Sha256] in
theorem configId_eq (h : Applied configuration state change value next) :
    next.configId = configuration.configId := by
  rw [h.same]

omit [Sha256] in
theorem configDigest_eq (h : Applied configuration state change value next) :
    next.configDigest = configuration.configDigest := by
  rw [h.same]

omit [Sha256] in
theorem membership_eq (h : Applied configuration state change value next) :
    next.membership = configuration.membership := by
  rw [h.same]

omit [Sha256] in
theorem predecessor_eq (h : Applied configuration state change value next) :
    next.predecessor = configuration.predecessor := by
  rw [h.same]

end Applied

omit [Sha256] in
theorem not_isBarrier_of_isStop {change : Option ConfigChange} (h : change.any (·.isStop)) :
    change.any (·.isBarrier) = false := by
  cases change with
  | none => rfl
  | some c => cases c <;> simp_all [ConfigChange.isStop, ConfigChange.isBarrier]

omit [Sha256] in
theorem sealForStop_eq_ok {proposed mark : ConfigurationSeal} {sealed : Option ConfigurationSeal}
    (h : sealForStop proposed sealed = .ok mark) :
    mark = proposed ∧ (sealed = none ∨ sealed = some proposed) := by
  cases sealed with
  | none => exact ⟨(Except.ok.inj h).symm, .inl rfl⟩
  | some existing =>
    simp only [sealForStop] at h
    split at h
    · cases h
    · rename_i hSame
      push Not at hSame
      exact ⟨(Except.ok.inj h).symm.trans hSame, .inr (congrArg some hSame)⟩

omit [Sha256] in
theorem applied_of_transitionAfterApply {configuration next : ConfigurationState}
    {state : RecorderSlotState} {change : Option ConfigChange} {value : AcceptedValue}
    (h : transitionAfterApply configuration state change (some value) = .ok next) :
    Applied configuration state change value next := by
  simp only [transitionAfterApply, Option.isSome_some, if_true] at h
  split at h
  · rename_i hStop
    obtain ⟨mark, hMark, h⟩ := bind_ok_iff.mp h
    obtain ⟨rfl, hSealed⟩ := sealForStop_eq_ok hMark
    cases h
    have hBarrier := not_isBarrier_of_isStop hStop
    refine ⟨rfl, rfl, fun _ => rfl, by simp [hStop], ?_, by simp [hBarrier]⟩
    rintro mark hKept
    simpa [hKept, eq_comm] using hSealed
  · rename_i hStop
    split at h
    · rename_i hBarrier
      cases h
      exact ⟨rfl, rfl, fun h => absurd h hStop, fun _ => rfl, fun _ => id, by simp [hBarrier]⟩
    · rename_i hBarrier
      cases h
      refine ⟨rfl, rfl, fun h => absurd h hStop, fun _ => rfl, fun _ => id, ?_⟩
      rw [show (change.any (·.isBarrier) && state.decidedProof.isSome) = false by
        simpa using hBarrier, Bool.or_false]

omit [Sha256] in
theorem sealAfterProof_eq_some {state : RecorderSlotState} {value : AcceptedValue}
    {mark : ConfigurationSeal} (h : ¬ (state.decidedProof.isSome ∧ mark.stopSlot = state.slot ∧
      value.commandHash ≠ mark.commandHash)) :
    sealAfterProof state (some value) (some mark) = some mark := by
  simp only [sealAfterProof, Option.filter_eq_some_iff, true_and]
  rw [Bool.not_eq_true', ← Bool.not_eq_true]
  simpa only [Bool.and_eq_true, decide_eq_true_eq, Option.any_some, and_assoc] using h

omit [Sha256] in
theorem sealed_of_sealAfterProof {state : RecorderSlotState} {value : Option AcceptedValue}
    {sealed : Option ConfigurationSeal} {mark : ConfigurationSeal}
    (h : sealAfterProof state value sealed = some mark) : sealed = some mark :=
  (Option.filter_eq_some_iff.mp h).1

end Gate

end Rhiza.Quepaxa
