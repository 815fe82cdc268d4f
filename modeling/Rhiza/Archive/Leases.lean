import Rhiza.Archive.Converge

/-! # Leases against the barrier of a collection

Lease holders, operators, new generations and the executions of any plans swap one control
object, each on its own clock. A swap that is lost has no effect and is tried again.
-/

namespace Rhiza.Archive

open Core Library

namespace Execution

/-- `DEFAULT_LEASE_MS`. -/
def defaultLeaseMs : Nat := 60000

inductive ControlEvent
  | acquireLease (leaseId : String) (nowMs durationMs : Nat)
  | releaseLease (leaseId : String)
  | renewLease (leaseId : String) (nowMs durationMs : Nat)
  | setRoot (root : CheckpointIdentity) (nowMs : Nat)
  | abort (operationId : String)
  | register (identity : CheckpointIdentity) (registeredAtMs : Nat)
  | acquireBarrier (plan : Plan) (nowMs : Nat)
  | enterDelete (plan : Plan) (nowMs : Nat)
  | retire (plan : Plan) (nowMs : Nat)
  | clear (plan : Plan)

end Execution

namespace GcControl

open Execution

/-- `ensure_gc_control`. -/
def fresh : GcControl := ⟨0, none, [], [], none⟩

/-- An attempt of `acquire_named_lease`. -/
def acquireNamedLease (control : GcControl) (leaseId : String) (nowMs durationMs : Nat) :
    Outcome GcControl :=
  match (control.expireGcState nowMs).activeGc with
  | some active => .error (.gcBarrierActive active.operationId)
  | none =>
    .ok
      { control.expireGcState nowMs with
        leases := ((control.expireGcState nowMs).leases.filter fun lease => lease.leaseId ≠ leaseId) ++
          [⟨leaseId, min (nowMs + durationMs) (u64Bound - 1)⟩] }

def releaseGcLease (control : GcControl) (leaseId : String) : GcControl :=
  { control with leases := control.leases.filter fun lease => lease.leaseId ≠ leaseId }

/-- The first lease with this id gets a new end; without one a lease is added. -/
def renewLease (leaseId : String) (expiresAtMs : Nat) : List GcLease → List GcLease
  | [] => [⟨leaseId, expiresAtMs⟩]
  | lease :: rest =>
    if lease.leaseId = leaseId then { lease with expiresAtMs } :: rest
    else lease :: renewLease leaseId expiresAtMs rest

/-- An attempt of `renew_gc_lease`. A barrier that still drains waits for the new end. -/
def renewGcLease (control : GcControl) (leaseId : String) (nowMs durationMs : Nat) :
    Outcome GcControl :=
  let expiresAtMs := min (nowMs + durationMs) (u64Bound - 1)
  let leases := renewLease leaseId expiresAtMs (control.expireGcState nowMs).leases
  match (control.expireGcState nowMs).activeGc with
  | none => .ok { control.expireGcState nowMs with leases }
  | some active => do
    ensure (active.phase ≠ .deleting) (.gcBarrierActive active.operationId)
    .ok
      { control.expireGcState nowMs with
        leases
        activeGc := some { active with
          expiresAtMs := max active.expiresAtMs (min (expiresAtMs + defaultLeaseMs) (u64Bound - 1)) } }

/-- An attempt of `set_gc_root`. -/
def setGcRoot (control : GcControl) (root : CheckpointIdentity) (nowMs : Nat) : Outcome GcControl :=
  match (control.expireGcState nowMs).activeGc with
  | some active => .error (.gcBarrierActive active.operationId)
  | none => do
    ensure (∃ entry ∈ control.generations, entry.identity = root)
      (.invalidGc "root generation is not cataloged")
    .ok { control.expireGcState nowMs with root := some root }

def abortGc (control : GcControl) (operationId : String) : Outcome GcControl :=
  match control.activeGc with
  | none => .ok control
  | some active => do
    ensure (active.operationId = operationId) (.gcBarrierActive active.operationId)
    .ok { control with activeGc := none }

/-- A swap of the control object that wins. -/
def swap [CatalogHash] (control : GcControl) : ControlEvent → Outcome GcControl
  | .acquireLease leaseId nowMs durationMs => control.acquireNamedLease leaseId nowMs durationMs
  | .releaseLease leaseId => .ok (control.releaseGcLease leaseId)
  | .renewLease leaseId nowMs durationMs => control.renewGcLease leaseId nowMs durationMs
  | .setRoot root nowMs => control.setGcRoot root nowMs
  | .abort operationId => control.abortGc operationId
  | .register identity registeredAtMs => .ok (control.registerGeneration identity registeredAtMs)
  | .acquireBarrier plan nowMs => control.acquireGcBarrier plan nowMs
  | .enterDelete plan nowMs => control.enterDeletePhase plan nowMs
  | .retire plan nowMs => control.retirePlanGenerations plan nowMs
  | .clear plan => control.clearGcBarrier plan

def step [CatalogHash] (control : GcControl) (event : ControlEvent) : Option GcControl :=
  (control.swap event).toOption

end GcControl

namespace Execution

/-! ## What a swap keeps -/

def identities (generations : List GenerationCatalogEntry) : List CheckpointIdentity :=
  generations.map (·.identity)

/-- Every generation is still listed, and unchanged once it is retired. -/
def Continues (before after : List GenerationCatalogEntry) : Prop :=
  ∀ entry ∈ before, ∃ entry' ∈ after, entry'.identity = entry.identity ∧
    entry'.registeredAtMs = entry.registeredAtMs ∧ (entry.lifecycle ≠ .active → entry' = entry)

section Guards

-- `Entered` tells at which moments a barrier began to delete.
variable (Entered : Nat → ActiveGc → Prop)

/-- While objects are deleted, all leases had ended when the barrier began to delete. -/
structure Protects (control : GcControl) (active : ActiveGc) : Prop where
  fence : active.fence = control.fence
  root : control.root = some active.root
  leases : active.phase = .deleting → ∃ enteredMs, Entered enteredMs active ∧
    enteredMs < active.expiresAtMs ∧ ∀ lease ∈ control.leases, lease.expiresAtMs ≤ enteredMs

structure Guarded (control : GcControl) : Prop where
  bounded : control.fence < u64Bound
  distinct : (identities control.generations).Nodup
  cataloged : ∀ root, control.root = some root → root ∈ identities control.generations
  barrier : ∀ active, control.activeGc = some active → Protects Entered control active

structure Advances (control next : GcControl) : Prop where
  guarded : Guarded Entered next
  fence : control.fence ≤ next.fence
  catalog : Continues control.generations next.generations

end Guards

section Swaps

variable {Entered Entered' : Nat → ActiveGc → Prop} {control next : GcControl} {active : ActiveGc}
  {plan : Plan} {nowMs : Nat} {generations generations' : List GenerationCatalogEntry}

theorem Continues.refl (generations : List GenerationCatalogEntry) :
    Continues generations generations := fun entry hEntry => ⟨entry, hEntry, rfl, rfl, fun _ => rfl⟩

theorem Continues.trans {later : List GenerationCatalogEntry} (h : Continues generations generations')
    (h' : Continues generations' later) : Continues generations later := by
  intro entry hEntry
  obtain ⟨entry', hEntry', hIdentity, hRegistered, hRetired⟩ := h entry hEntry
  obtain ⟨last, hLast, hIdentity', hRegistered', hRetired'⟩ := h' entry' hEntry'
  refine ⟨last, hLast, hIdentity'.trans hIdentity, hRegistered'.trans hRegistered, ?_⟩
  intro hHere
  obtain rfl := hRetired hHere
  exact hRetired' hHere

theorem Continues.cons {entry entry' : GenerationCatalogEntry}
    (h : Continues generations generations') (hIdentity : entry'.identity = entry.identity)
    (hRegistered : entry'.registeredAtMs = entry.registeredAtMs)
    (hRetired : entry.lifecycle ≠ .active → entry' = entry) :
    Continues (entry :: generations) (entry' :: generations') := by
  intro other hOther
  rcases List.mem_cons.mp hOther with rfl | hOther
  · exact ⟨entry', List.mem_cons_self, hIdentity, hRegistered, hRetired⟩
  · obtain ⟨other', hMem, hKept⟩ := h other hOther
    exact ⟨other', List.mem_cons_of_mem _ hMem, hKept⟩

theorem retireGeneration_continues {identity : CheckpointIdentity}
    (h : GcControl.retireGeneration plan nowMs identity generations = .ok generations') :
    identities generations' = identities generations ∧ Continues generations generations' := by
  induction generations generalizing generations' with
  | nil => cases h
  | cons entry rest ih =>
    unfold GcControl.retireGeneration at h
    split at h
    · split at h
      · rename_i hActive
        cases h
        exact ⟨rfl, (Continues.refl rest).cons rfl rfl fun hRetired => absurd hActive hRetired⟩
      · split at h
        · cases h
          exact ⟨rfl, Continues.refl _⟩
        · cases h
    · obtain ⟨rest', hRest, h⟩ := bind_ok_iff.mp h
      cases h
      obtain ⟨hSame, hContinues⟩ := ih hRest
      exact ⟨congrArg (entry.identity :: ·) hSame, hContinues.cons rfl rfl fun _ => rfl⟩

theorem retireGenerations_continue {swept : List CheckpointIdentity}
    (h : swept.foldlM (fun generations identity =>
      GcControl.retireGeneration plan nowMs identity generations) generations = .ok generations') :
    identities generations' = identities generations ∧ Continues generations generations' := by
  induction swept generalizing generations with
  | nil =>
    cases h
    exact ⟨rfl, Continues.refl _⟩
  | cons first swept ih =>
    rw [List.foldlM_cons] at h
    obtain ⟨between, hFirst, h⟩ := bind_ok_iff.mp h
    obtain ⟨hSame, hContinues⟩ := retireGeneration_continues hFirst
    obtain ⟨hSame', hContinues'⟩ := ih h
    exact ⟨hSame'.trans hSame, hContinues.trans hContinues'⟩

theorem Guarded.mono (h : Guarded Entered control)
    (hEntered : ∀ enteredMs active, Entered enteredMs active → Entered' enteredMs active) :
    Guarded Entered' control := by
  refine ⟨h.bounded, h.distinct, h.cataloged, fun active hActive => ?_⟩
  have hHere := h.barrier active hActive
  refine ⟨hHere.fence, hHere.root, fun hDeleting => ?_⟩
  obtain ⟨enteredMs, hMoment, hEnded⟩ := hHere.leases hDeleting
  exact ⟨enteredMs, hEntered enteredMs active hMoment, hEnded⟩

/-- A swap that leaves the catalog alone. -/
theorem Guarded.moved (h : Guarded Entered control) {fence : Nat} {root : Option CheckpointIdentity}
    {leases : List GcLease} {activeGc : Option ActiveGc} (hFence : control.fence ≤ fence)
    (hBound : fence < u64Bound)
    (hRoot : ∀ found, root = some found → found ∈ identities control.generations)
    (hBarrier : ∀ active, activeGc = some active →
      Protects Entered { control with fence, root, leases, activeGc } active) :
    Advances Entered control { control with fence, root, leases, activeGc } :=
  ⟨⟨hBound, h.distinct, hRoot, hBarrier⟩, hFence, Continues.refl _⟩

theorem Guarded.unchanged (h : Guarded Entered control) : Advances Entered control control :=
  ⟨h, le_refl _, Continues.refl _⟩

theorem Guarded.opened (h : Guarded Entered control) (leases : List GcLease) {activeGc : Option ActiveGc}
    (hNone : activeGc = none) : Advances Entered control { control with leases, activeGc } := by
  refine h.moved (le_refl _) h.bounded h.cataloged fun active hActive => ?_
  cases hNone.symm.trans hActive

theorem unexpired (h : (control.expireGcState nowMs).activeGc = some active) :
    control.activeGc = some active := (Option.filter_eq_some_iff.mp h).1

theorem fence_le (h : control.fence < u64Bound) (hFence : control.fence = plan.fence ∨
    control.fence = executionFence plan) : control.fence ≤ executionFence plan := by
  unfold executionFence at *
  omega

section Kept

variable (h : Guarded Entered control)

include h

theorem acquireNamedLease_advances {leaseId : String} {durationMs : Nat}
    (hSwap : control.acquireNamedLease leaseId nowMs durationMs = .ok next) :
    Advances Entered control next := by
  unfold GcControl.acquireNamedLease at hSwap
  split at hSwap
  · cases hSwap
  · rename_i hNone
    cases hSwap
    exact h.opened _ hNone

theorem renewGcLease_advances {leaseId : String} {durationMs : Nat}
    (hSwap : control.renewGcLease leaseId nowMs durationMs = .ok next) : Advances Entered control next := by
  unfold GcControl.renewGcLease at hSwap
  split at hSwap
  · rename_i hNone
    cases hSwap
    exact h.opened _ hNone
  · rename_i active hActive
    rw [unit_bind_ok_iff, ensure_ok_iff] at hSwap
    obtain ⟨hDraining, hSwap⟩ := hSwap
    cases hSwap
    have hHere := h.barrier active (unexpired hActive)
    refine h.moved (le_refl _) h.bounded h.cataloged ?_
    rintro _ ⟨⟩
    exact ⟨hHere.fence, hHere.root, fun hDeleting => absurd hDeleting hDraining⟩

theorem setGcRoot_advances {root : CheckpointIdentity}
    (hSwap : control.setGcRoot root nowMs = .ok next) : Advances Entered control next := by
  unfold GcControl.setGcRoot at hSwap
  split at hSwap
  · cases hSwap
  · rename_i hNone
    rw [unit_bind_ok_iff, ensure_ok_iff] at hSwap
    obtain ⟨hListed, hSwap⟩ := hSwap
    cases hSwap
    refine h.moved (le_refl _) h.bounded ?_ fun active hActive => ?_
    · rintro _ ⟨⟩
      exact List.mem_map.mpr hListed
    · cases hNone.symm.trans hActive

theorem abortGc_advances {operationId : String}
    (hSwap : control.abortGc operationId = .ok next) : Advances Entered control next := by
  unfold GcControl.abortGc at hSwap
  split at hSwap
  · cases hSwap
    exact h.unchanged
  · rw [unit_bind_ok_iff] at hSwap
    obtain ⟨-, hSwap⟩ := hSwap
    cases hSwap
    exact h.opened _ rfl

theorem registerGeneration_advances (identity : CheckpointIdentity)
    (registeredAtMs : Nat) : Advances Entered control (control.registerGeneration identity registeredAtMs) := by
  unfold GcControl.registerGeneration
  split
  · exact h.unchanged
  · rename_i hNew
    have hOther : identity ∉ identities control.generations := by
      intro hMem
      obtain ⟨entry, hEntry, hSame⟩ := List.mem_map.mp hMem
      exact hNew (List.any_eq_true.mpr ⟨entry, hEntry, decide_eq_true hSame⟩)
    have hAll : (identities ((control.generations ++
        [(⟨identity, registeredAtMs, .active⟩ : GenerationCatalogEntry)]).insertionSort
          fun a b => ¬ KeyBefore (registrationKey b) (registrationKey a))).Perm
        (identities control.generations ++ [identity]) := by
      have hSorted := (List.perm_insertionSort
        (fun a b => ¬ KeyBefore (registrationKey b) (registrationKey a)) (control.generations ++
          [(⟨identity, registeredAtMs, .active⟩ : GenerationCatalogEntry)])).map (·.identity)
      rwa [List.map_append] at hSorted
    refine ⟨⟨h.bounded, ?_, ?_, ?_⟩, le_refl _, ?_⟩
    · rw [hAll.nodup_iff]
      exact h.distinct.append (List.nodup_singleton _) fun found hFound hLast =>
        hOther (List.mem_singleton.mp hLast ▸ hFound)
    · intro root hRoot
      rw [hAll.mem_iff, List.mem_append, List.mem_singleton]
      cases hBefore : control.root with
      | none =>
        rw [hBefore] at hRoot
        exact .inr (Option.some.inj hRoot).symm
      | some before =>
        rw [hBefore] at hRoot
        exact .inl (h.cataloged root (hBefore.trans hRoot))
    · intro active hActive
      have hHere := h.barrier active hActive
      refine ⟨hHere.fence, ?_, hHere.leases⟩
      change control.root.or (some identity) = _
      rw [hHere.root]
      rfl
    · intro entry hEntry
      refine ⟨entry, ?_, rfl, rfl, fun _ => rfl⟩
      rw [List.mem_insertionSort]
      exact List.mem_append_left _ hEntry

theorem acquireGcBarrier_advances [CatalogHash]
    (hSwap : control.acquireGcBarrier plan nowMs = .ok next) : Advances Entered control next := by
  simp only [GcControl.acquireGcBarrier] at hSwap
  split at hSwap
  · rw [unit_bind_ok_iff] at hSwap
    obtain ⟨-, hSwap⟩ := hSwap
    cases hSwap
    exact h.unchanged
  · rw [unit_bind_ok_iff, ensure_ok_iff] at hSwap
    obtain ⟨⟨hRoot, hFence⟩, hSwap⟩ := hSwap
    cases hSwap
    have hBound : executionFence plan < u64Bound := by
      unfold executionFence u64Bound
      omega
    refine h.moved (fence_le h.bounded (hFence.imp And.left And.left)) hBound h.cataloged ?_
    rintro _ ⟨⟩
    exact ⟨rfl, hRoot, fun hDeleting => by cases hDeleting⟩

theorem enterDeletePhase_advances (hSwap : control.enterDeletePhase plan nowMs = .ok next)
    (hEntered : ∀ waiting active, control.activeGc = some waiting → waiting.phase ≠ .deleting →
      next.activeGc = some active → Entered nowMs active) : Advances Entered control next := by
  unfold GcControl.enterDeletePhase at hSwap
  obtain ⟨active, hBarrier, hSwap⟩ := bind_ok_iff.mp hSwap
  unfold GcControl.checkBarrier at hBarrier
  split at hBarrier
  · cases hBarrier
  · rename_i active' hActive
    rw [unit_bind_ok_iff, ensure_ok_iff] at hBarrier
    obtain ⟨⟨-, -, -, -, -, hTime⟩, hSame⟩ := hBarrier
    obtain rfl := Except.ok.inj hSame
    have hHere := h.barrier _ hActive
    split at hSwap
    · cases hSwap
      exact h.unchanged
    · rename_i hWaiting
      rw [unit_bind_ok_iff] at hSwap
      obtain ⟨hLeases, hSwap⟩ := hSwap
      cases hSwap
      refine h.moved (le_refl _) h.bounded h.cataloged ?_
      rintro _ ⟨⟩
      refine ⟨hHere.fence, hHere.root,
        fun _ => ⟨nowMs, hEntered _ _ hActive hWaiting rfl, hTime, fun lease hLease => ?_⟩⟩
      -- A lease that has not ended would be among those whose latest end is reported.
      unfold GcControl.checkLeases at hLeases
      split at hLeases
      · cases hLeases
      · rename_i hNone
        by_contra hLater
        have hMem : lease.expiresAtMs ∈
            (control.leases.filter fun lease => nowMs < lease.expiresAtMs).map (·.expiresAtMs) :=
          List.mem_map.mpr ⟨lease, List.mem_filter.mpr
            ⟨hLease, decide_eq_true (Nat.not_le.mp hLater)⟩, rfl⟩
        rw [List.max?_eq_none_iff.mp hNone] at hMem
        exact List.not_mem_nil hMem

theorem retirePlanGenerations_advances
    (hSwap : control.retirePlanGenerations plan nowMs = .ok next) : Advances Entered control next := by
  unfold GcControl.retirePlanGenerations at hSwap
  split at hSwap
  · cases hSwap
  · rw [unit_bind_ok_iff] at hSwap
    obtain ⟨-, hSwap⟩ := hSwap
    obtain ⟨generations, hRetired, hSwap⟩ := bind_ok_iff.mp hSwap
    cases hSwap
    obtain ⟨hSame, hContinues⟩ := retireGenerations_continue hRetired
    refine ⟨⟨h.bounded, ?_, ?_, fun active hActive => ?_⟩, le_refl _, hContinues⟩
    · rw [hSame]
      exact h.distinct
    · rw [hSame]
      exact h.cataloged
    · have hHere := h.barrier active hActive
      exact ⟨hHere.fence, hHere.root, hHere.leases⟩

theorem clearGcBarrier_advances
    (hSwap : control.clearGcBarrier plan = .ok next) : Advances Entered control next := by
  unfold GcControl.clearGcBarrier at hSwap
  split at hSwap
  · cases hSwap
    exact h.unchanged
  · rw [unit_bind_ok_iff] at hSwap
    obtain ⟨-, hSwap⟩ := hSwap
    cases hSwap
    exact h.opened _ rfl

theorem releaseGcLease_advances (leaseId : String) :
    Advances Entered control (control.releaseGcLease leaseId) := by
  refine h.moved (le_refl _) h.bounded h.cataloged fun active hActive => ?_
  have hHere := h.barrier active hActive
  refine ⟨hHere.fence, hHere.root, fun hDeleting => ?_⟩
  obtain ⟨enteredMs, hMoment, hTime, hEnded⟩ := hHere.leases hDeleting
  exact ⟨enteredMs, hMoment, hTime, fun lease hLease => hEnded lease (List.mem_filter.mp hLease).1⟩

theorem step_advances [CatalogHash] {event : ControlEvent} (hStep : control.step event = some next)
    (hEntered : ∀ plan nowMs, event = .enterDelete plan nowMs → ∀ waiting active,
      control.activeGc = some waiting → waiting.phase ≠ .deleting →
      next.activeGc = some active → Entered nowMs active) : Advances Entered control next := by
  have hSwap : control.swap event = .ok next := ok_of_toOption hStep
  cases event with
  | acquireLease => exact acquireNamedLease_advances h hSwap
  | releaseLease leaseId =>
    obtain rfl := Except.ok.inj hSwap
    exact releaseGcLease_advances h leaseId
  | renewLease => exact renewGcLease_advances h hSwap
  | setRoot => exact setGcRoot_advances h hSwap
  | abort => exact abortGc_advances h hSwap
  | register identity registeredAtMs =>
    obtain rfl := Except.ok.inj hSwap
    exact registerGeneration_advances h identity registeredAtMs
  | acquireBarrier => exact acquireGcBarrier_advances h hSwap
  | enterDelete plan nowMs =>
    exact enterDeletePhase_advances h hSwap (hEntered plan nowMs rfl)
  | retire => exact retirePlanGenerations_advances h hSwap
  | clear => exact clearGcBarrier_advances h hSwap

end Kept

theorem guarded_fresh : Guarded Entered .fresh where
  bounded := by decide
  distinct := List.nodup_nil
  cataloged root hRoot := by cases hRoot
  barrier active hActive := by cases hActive

end Swaps

/-! ## Runs of the control object -/

section Runs

variable [CatalogHash] {control next : GcControl}

/-- All states of the control object that lease holders, operators and executions of any
plans can reach. -/
abbrev Reachable (start control : GcControl) : Prop :=
  Run GcControl.step (fun _ _ => True) start control

theorem run_advances (h : Guarded (fun _ _ => True) control) (hRun : Reachable control next) :
    Advances (fun _ _ => True) control next :=
  Run.invariant h.unchanged (fun _ _ _ hBefore _ hStep =>
    have hAfter := step_advances hBefore.guarded hStep fun _ _ _ _ _ _ _ _ => trivial
    ⟨hAfter.guarded, hBefore.fence.trans hAfter.fence, hBefore.catalog.trans hAfter.catalog⟩) hRun

/-- An execution whose clock said `nowMs` has made the barrier delete. -/
def BeganAt (control : GcControl) (nowMs : Nat) (active : ActiveGc) : Prop :=
  ∃ before waiting plan entered, Reachable .fresh before ∧ before.activeGc = some waiting ∧
    waiting.phase ≠ .deleting ∧ before.step (.enterDelete plan nowMs) = some entered ∧
    entered.activeGc = some active ∧ Reachable entered control

theorem guarded_reachable (hRun : Reachable .fresh control) : Guarded (BeganAt control) control := by
  refine Run.invariant_of_reachable (P := fun control => Guarded (BeganAt control) control)
    guarded_fresh ?_ hRun
  intro control event next hRun h _ hStep
  have hLater : Guarded (BeganAt next) control := by
    refine h.mono fun enteredMs active hBegan => ?_
    obtain ⟨before, waiting, plan, entered, hBefore, hWaiting, hPhase, hEnter, hActive, hSince⟩ :=
      hBegan
    exact ⟨before, waiting, plan, entered, hBefore, hWaiting, hPhase, hEnter, hActive,
      hSince.step event trivial hStep⟩
  refine (step_advances hLater hStep ?_).guarded
  intro plan nowMs hEvent waiting active hWaiting hPhase hActive
  exact ⟨control, waiting, plan, next, hRun, hWaiting, hPhase, hEvent ▸ hStep, hActive, .refl⟩

/-- Whenever a barrier is up it carries the fence and the root of the control object, the
root is in the catalog, and if the barrier has begun to delete, all leases had ended before
its own end, by the clock of the execution that began. -/
theorem barrier_excludes_leases (hRun : Reachable .fresh control) {active : ActiveGc}
    (hActive : control.activeGc = some active) :
    active.fence = control.fence ∧ control.root = some active.root ∧
      active.root ∈ identities control.generations ∧
      (active.phase = .deleting → ∃ enteredMs, BeganAt control enteredMs active ∧
        enteredMs < active.expiresAtMs ∧
        ∀ lease ∈ control.leases, lease.expiresAtMs ≤ enteredMs) := by
  have hGuarded := guarded_reachable hRun
  have hHere := hGuarded.barrier active hActive
  exact ⟨hHere.fence, hHere.root, hGuarded.cataloged _ hHere.root, hHere.leases⟩

/-- Whatever is done later, the fence never goes back, the catalog lists each generation
once and forgets none, and what a plan has retired stays as that plan has left it. -/
theorem catalog_never_forgets (hRun : Reachable .fresh control) (hLater : Reachable control next) :
    control.fence ≤ next.fence ∧ (identities next.generations).Nodup ∧
      ∀ entry ∈ control.generations, ∃ entry' ∈ next.generations,
        entry'.identity = entry.identity ∧ entry'.registeredAtMs = entry.registeredAtMs ∧
        (entry.lifecycle ≠ .active → entry' = entry) := by
  have hAfter := run_advances (run_advances guarded_fresh hRun).guarded hLater
  exact ⟨hAfter.fence, hAfter.guarded.distinct, hAfter.catalog⟩

end Runs

namespace Leased

attribute [local instance] Sha256.rolling Overlapped.catalogHash

def plan : Plan := { Overlapped.plan with fence := 0 }

/-- While the barrier drains, a reader ends its lease, and the one of a guest runs out. -/
def script : List ControlEvent :=
  [.register (Overlapped.generation 1) 0, .register (Overlapped.generation 2) 0,
    .setRoot (Overlapped.generation 2) 1, .acquireLease "reader" 2 50, .acquireLease "guest" 3 50,
    .acquireBarrier plan 5, .renewLease "reader" 6 50, .releaseLease "reader", .enterDelete plan 60]

def reached : GcControl := (execute GcControl.step .fresh script).getD .fresh

theorem reached_reachable : Reachable .fresh reached :=
  Run.of_execute (fun _ _ _ => trivial)
    (show execute GcControl.step .fresh script = some reached by decide +kernel)

theorem reached_excludes : ∃ active, reached.activeGc = some active ∧ active.phase = .deleting ∧
    reached.leases ≠ [] ∧ ∃ enteredMs, enteredMs < active.expiresAtMs ∧
      ∀ lease ∈ reached.leases, lease.expiresAtMs ≤ enteredMs := by
  have hPhase : reached.activeGc.map (·.phase) = some .deleting := by decide +kernel
  obtain ⟨active, hActive, hDeleting⟩ := Option.map_eq_some_iff.mp hPhase
  obtain ⟨-, -, -, hLeases⟩ := barrier_excludes_leases reached_reachable hActive
  obtain ⟨enteredMs, -, hEnded⟩ := hLeases hDeleting
  exact ⟨active, hActive, hDeleting, by decide +kernel, enteredMs, hEnded⟩

/-- Once the older generation is retired, the catalog still lists both. -/
theorem retired_remembers : ∃ next, Reachable reached next ∧
    (next.generations.any fun entry => entry.lifecycle ≠ .active) = true ∧
    (identities next.generations).Nodup ∧ ∀ entry ∈ reached.generations,
      ∃ entry' ∈ next.generations, entry'.identity = entry.identity := by
  have hRetired : (execute GcControl.step reached [.retire plan 61]).any (fun next =>
      next.generations.any fun entry => entry.lifecycle ≠ .active) = true := by decide +kernel
  obtain ⟨next, hNext, hRetired⟩ := (Option.any_eq_true _ _).mp hRetired
  have hLater : Reachable reached next := Run.of_execute (fun _ _ _ => trivial) hNext
  obtain ⟨-, hNodup, hListed⟩ := catalog_never_forgets reached_reachable hLater
  refine ⟨next, hLater, hRetired, hNodup, fun entry hEntry => ?_⟩
  obtain ⟨entry', hListed, hSame, -⟩ := hListed entry hEntry
  exact ⟨entry', hListed, hSame⟩

end Leased

end Execution

end Rhiza.Archive
