import Mathlib.Data.List.Pairwise
import Rhiza.Archive.Manifest
import Rhiza.Library.Ranking

/-! # Which generations a collection sweeps

The catalog of a cluster lists its recovery generations. A plan keeps the root and some
generations besides it, and sweeps the others once their objects are old enough.
-/

namespace Rhiza.Archive

open Core Library

inductive GenerationLifecycle
  | active
  | retired (planHash : LogHash) (retiredAtMs : Nat)
  deriving DecidableEq

structure GenerationCatalogEntry where
  identity : CheckpointIdentity
  registeredAtMs : Nat
  lifecycle : GenerationLifecycle
  deriving DecidableEq

inductive GcBarrierPhase
  | draining
  | deleting
  deriving DecidableEq

structure ActiveGc where
  operationId : String
  planHash : LogHash
  fence : Nat
  root : CheckpointIdentity
  expiresAtMs : Nat
  phase : GcBarrierPhase
  deriving DecidableEq

structure GcLease where
  leaseId : String
  expiresAtMs : Nat
  deriving DecidableEq

structure GcControl where
  fence : Nat
  root : Option CheckpointIdentity
  generations : List GenerationCatalogEntry
  leases : List GcLease
  activeGc : Option ActiveGc
  deriving DecidableEq

structure GcPolicy where
  operationId : String
  root : CheckpointIdentity
  retainRecoveryGenerations : Nat
  graceMs : Nat
  minAgeMs : Nat
  deriving DecidableEq

inductive GcCandidateReason
  | supersededRecoveryGeneration
  | unreferencedCheckpointObject
  deriving DecidableEq

structure ObjectMetadata where
  key : ObjectKey
  sizeBytes : Nat
  lastModifiedMs : Nat
  version : Nat
  deriving DecidableEq

structure GcCandidate where
  generation : CheckpointIdentity
  metadata : ObjectMetadata
  reason : GcCandidateReason
  deriving DecidableEq

structure GcPlan where
  operationId : String
  clusterId : ClusterId
  fence : Nat
  observedCatalog : List GenerationCatalogEntry
  root : CheckpointIdentity
  createdAtMs : Nat
  notBeforeMs : Nat
  minAgeMs : Nat
  sweptGenerations : List CheckpointIdentity
  candidates : List GcCandidate
  deriving DecidableEq

inductive GcError
  | clusterMismatch (expected actual : ClusterId)
  | invalidGc (message : String)
  | gcBarrierActive (operationId : String)
  | gcPlanStale (message : String)
  | manifestNotFound (identity : CheckpointIdentity)
  | checkpoint (error : Error)
  deriving DecidableEq

structure Bucket where
  manifest : CheckpointIdentity → Option CheckpointManifest
  objects : CheckpointIdentity → List ObjectMetadata

def registrationKey (entry : GenerationCatalogEntry) : Nat × Nat × Nat :=
  (entry.identity.epoch, entry.identity.configId, entry.identity.recoveryGeneration)

def KeyBefore (a b : Nat × Nat × Nat) : Prop :=
  a.1 < b.1 ∨ a.1 = b.1 ∧ (a.2.1 < b.2.1 ∨ a.2.1 = b.2.1 ∧ a.2.2 < b.2.2)

instance (a b : Nat × Nat × Nat) : Decidable (KeyBefore a b) := inferInstanceAs (Decidable (_ ∨ _))

namespace GcControl

/-- One attempt of `register_generation`, with the control object that it writes. -/
def registerGeneration (control : GcControl) (identity : CheckpointIdentity)
    (registeredAtMs : Nat) : GcControl :=
  if control.generations.any fun entry => entry.identity = identity then control
  else
    let entry : GenerationCatalogEntry := ⟨identity, registeredAtMs, .active⟩
    { control with
      generations := (control.generations ++ [entry]).insertionSort
        fun a b => ¬ KeyBefore (registrationKey b) (registrationKey a)
      root := control.root.or (some identity) }

def retire (control : GcControl) (swept : List CheckpointIdentity) (planHash : LogHash)
    (nowMs : Nat) : GcControl :=
  { control with generations := control.generations.map fun entry =>
      if entry.identity ∈ swept ∧ entry.lifecycle = .active then
        { entry with lifecycle := .retired planHash nowMs }
      else entry }

def expireGcState (control : GcControl) (nowMs : Nat) : GcControl :=
  { control with
    leases := control.leases.filter fun lease => nowMs < lease.expiresAtMs
    activeGc := control.activeGc.filter fun active => nowMs < active.expiresAtMs }

def retentionOrder (control : GcControl) : List GenerationCatalogEntry :=
  (control.generations.filter fun entry => entry.lifecycle = .active).insertionSort
    fun a b => b.identity.recoveryGeneration ≤ a.identity.recoveryGeneration

def retained (control : GcControl) (policy : GcPolicy) : List CheckpointIdentity :=
  ((control.retentionOrder.filter fun entry => entry.identity ≠ policy.root).take
    policy.retainRecoveryGenerations).map (·.identity)

end GcControl

def ObjectMetadata.Young (metadata : ObjectMetadata) (policy : GcPolicy) (nowMs : Nat) : Prop :=
  nowMs - metadata.lastModifiedMs < policy.minAgeMs

instance (metadata : ObjectMetadata) (policy : GcPolicy) (nowMs : Nat) :
    Decidable (metadata.Young policy nowMs) := inferInstanceAs (Decidable (_ < _))

def rootReferences (manifest : CheckpointManifest) : List ObjectKey :=
  manifest.segments.map (·.objectKey) ++
    match manifest.base with
    | .genesis => []
    | .snapshot snapshot => [snapshot.objectKey]

/-- The loop of `plan_gc` over the generations: the swept ones, and the objects to delete. -/
def sweep (bucket : Bucket) (policy : GcPolicy) (nowMs : Nat) (references : List ObjectKey)
    (retained : List CheckpointIdentity) :
    List GenerationCatalogEntry → List CheckpointIdentity × List GcCandidate
  | [] => ([], [])
  | generation :: rest =>
    let objects := bucket.objects generation.identity
    let (swept, candidates) := sweep bucket policy nowMs references retained rest
    if generation.identity = policy.root then
      let unreferenced := objects.filter fun metadata =>
        metadata.key ∉ references ∧ ¬ metadata.Young policy nowMs
      (swept, unreferenced.map (⟨generation.identity, ·, .unreferencedCheckpointObject⟩) ++ candidates)
    else if generation.identity ∈ retained then (swept, candidates)
    else if objects.any fun metadata => metadata.Young policy nowMs then (swept, candidates)
    else (generation.identity :: swept,
      objects.map (⟨generation.identity, ·, .supersededRecoveryGeneration⟩) ++ candidates)

def planGc [Sha256] (clusterId : ClusterId) (control : GcControl) (bucket : Bucket) (policy : GcPolicy)
    (nowMs : Nat) : Except GcError GcPlan := do
  ensure (¬ policy.operationId.toList.all isWhitespace)
    (.invalidGc "GC operation id must not be empty")
  ensure (policy.root.clusterId = clusterId) (.clusterMismatch clusterId policy.root.clusterId)
  let control := control.expireGcState nowMs
  match control.activeGc with
  | some active => .error (.gcBarrierActive active.operationId)
  | none => do
    ensure (control.root = some policy.root)
      (.gcPlanStale "requested root is not the authoritative root")
    let rootCatalog ← (control.generations.find? fun entry => entry.identity = policy.root).elim
      (.error (.invalidGc "root generation is not cataloged")) .ok
    ensure (rootCatalog.lifecycle = .active) (.invalidGc "root generation is retired")
    let rootManifest ← (bucket.manifest policy.root).elim
      (.error (.manifestNotFound policy.root)) .ok
    (validateCheckpointIdentity policy.root rootManifest.identity).mapError .checkpoint
    (validateCheckpointManifest policy.root rootManifest).mapError .checkpoint
    let (swept, candidates) := sweep bucket policy nowMs (rootReferences rootManifest)
      (control.retained policy) control.retentionOrder
    .ok { operationId := policy.operationId, clusterId, fence := control.fence,
          observedCatalog := control.generations, root := policy.root, createdAtMs := nowMs,
          notBeforeMs := min (nowMs + policy.graceMs) (u64Bound - 1), minAgeMs := policy.minAgeMs,
          sweptGenerations := swept, candidates }

theorem keyBefore_irrefl (a : Nat × Nat × Nat) : ¬ KeyBefore a a := by
  unfold KeyBefore
  omega

theorem keyBefore_trans {a b c : Nat × Nat × Nat} (h : KeyBefore a b) (h' : KeyBefore b c) :
    KeyBefore a c := by
  unfold KeyBefore at *
  omega

theorem keyBefore_asymm {a b : Nat × Nat × Nat} (h : KeyBefore a b) : ¬ KeyBefore b a := fun h' =>
  keyBefore_irrefl a (keyBefore_trans h h')

structure GcControl.Ordered (control : GcControl) (clusterId : ClusterId) : Prop where
  cluster : ∀ entry ∈ control.generations, entry.identity.clusterId = clusterId
  order : control.generations.Pairwise fun a b => KeyBefore (registrationKey a) (registrationKey b)

theorem keyBefore_of_ne {a b : Nat × Nat × Nat} (hNe : a ≠ b) (hNot : ¬ KeyBefore b a) :
    KeyBefore a b := by
  unfold KeyBefore at *
  by_contra hOther
  refine hNe (Prod.ext ?_ (Prod.ext ?_ ?_)) <;> omega

theorem eq_of_registrationKey {clusterId : ClusterId} {a b : GenerationCatalogEntry}
    (hA : a.identity.clusterId = clusterId) (hB : b.identity.clusterId = clusterId)
    (hKey : registrationKey a = registrationKey b) : a.identity = b.identity := by
  obtain ⟨⟨aCluster, aEpoch, aConfig, aGeneration⟩, aRegistered, aLifecycle⟩ := a
  obtain ⟨⟨bCluster, bEpoch, bConfig, bGeneration⟩, bRegistered, bLifecycle⟩ := b
  obtain ⟨rfl, hRest⟩ := Prod.mk.inj hKey
  obtain ⟨rfl, rfl⟩ := Prod.mk.inj hRest
  obtain rfl : aCluster = clusterId := hA
  obtain rfl : bCluster = aCluster := hB
  rfl

namespace GcControl

variable {control : GcControl} {clusterId : ClusterId} {policy : GcPolicy}

theorem Ordered.distinct (h : control.Ordered clusterId) :
    control.generations.Pairwise fun a b => registrationKey a ≠ registrationKey b := by
  refine h.order.imp fun {a b} hBefore hSame => ?_
  rw [hSame] at hBefore
  exact keyBefore_irrefl _ hBefore

theorem Ordered.eq_of_key (h : control.Ordered clusterId) {a b : GenerationCatalogEntry}
    (hA : a ∈ control.generations) (hB : b ∈ control.generations)
    (hKey : registrationKey a = registrationKey b) : a = b := by
  have hSymm : Std.Symm fun a b : GenerationCatalogEntry => registrationKey a ≠ registrationKey b :=
    ⟨fun _ _ hApart hSame => hApart hSame.symm⟩
  by_contra hNe
  exact h.distinct.forall hA hB hNe hKey

theorem Ordered.register (h : control.Ordered clusterId) {identity : CheckpointIdentity}
    (hCluster : identity.clusterId = clusterId) (registeredAtMs : Nat) :
    (control.registerGeneration identity registeredAtMs).Ordered clusterId := by
  unfold registerGeneration
  split
  · exact h
  · rename_i hNew
    have hOther : ∀ entry ∈ control.generations, entry.identity ≠ identity := by
      intro entry hEntry hSame
      exact hNew (List.any_eq_true.mpr ⟨entry, hEntry, decide_eq_true hSame⟩)
    generalize hEntry : (⟨identity, registeredAtMs, .active⟩ : GenerationCatalogEntry) = added
    have hAdded : added.identity = identity := hEntry ▸ rfl
    have hAddedCluster : added.identity.clusterId = clusterId := hAdded ▸ hCluster
    have hAll : ∀ entry ∈ control.generations ++ [added], entry.identity.clusterId = clusterId :=
      List.forall_mem_append.mpr ⟨h.cluster, List.forall_mem_singleton.mpr hAddedCluster⟩
    have hDistinct : (control.generations ++ [added]).Pairwise
        fun a b => registrationKey a ≠ registrationKey b := by
      refine List.pairwise_append.mpr ⟨h.distinct, List.pairwise_singleton _ _, ?_⟩
      intro entry hMem last hLast hSame
      rw [List.mem_singleton.mp hLast] at hSame
      exact hOther entry hMem
        ((eq_of_registrationKey (h.cluster entry hMem) hAddedCluster hSame).trans hAdded)
    have hTotal : ∀ a b : GenerationCatalogEntry,
        ¬ KeyBefore (registrationKey b) (registrationKey a) ∨
          ¬ KeyBefore (registrationKey a) (registrationKey b) := by
      intro a b
      by_cases hBefore : KeyBefore (registrationKey b) (registrationKey a)
      · exact .inr (keyBefore_asymm hBefore)
      · exact .inl hBefore
    have hTrans : ∀ {a b c : GenerationCatalogEntry},
        ¬ KeyBefore (registrationKey b) (registrationKey a) →
        ¬ KeyBefore (registrationKey c) (registrationKey b) →
        ¬ KeyBefore (registrationKey c) (registrationKey a) := by
      intro a b c hAB hBC
      unfold KeyBefore at *
      omega
    refine ⟨fun entry hEntry => hAll entry ((List.mem_insertionSort _).mp hEntry), ?_⟩
    refine (insertionSort_stable hTotal hTrans hDistinct).imp fun {a b} hPair => ?_
    refine keyBefore_of_ne (fun hSame => ?_) hPair.1
    exact hPair.2 (by rw [hSame]; exact keyBefore_irrefl _) hSame

theorem Ordered.retire (h : control.Ordered clusterId) (swept : List CheckpointIdentity)
    (planHash : LogHash) (nowMs : Nat) : (control.retire swept planHash nowMs).Ordered clusterId := by
  have hSame : ∀ entry : GenerationCatalogEntry,
      (if entry.identity ∈ swept ∧ entry.lifecycle = .active then
        { entry with lifecycle := .retired planHash nowMs } else entry).identity = entry.identity := by
    intro entry
    split <;> rfl
  refine ⟨fun entry hEntry => ?_, List.pairwise_map.mpr (h.order.imp fun hBefore => ?_)⟩
  · obtain ⟨old, hOld, rfl⟩ := List.mem_map.mp hEntry
    rw [hSame]
    exact h.cluster old hOld
  · unfold registrationKey at *
    rwa [hSame, hSame]

inductive Made (clusterId : ClusterId) : GcControl → Prop
  | fresh : Made clusterId ⟨0, none, [], [], none⟩
  | registered {control : GcControl} (identity : CheckpointIdentity) (registeredAtMs : Nat)
      (hBefore : Made clusterId control) (hCluster : identity.clusterId = clusterId) :
      Made clusterId (control.registerGeneration identity registeredAtMs)
  | retired {control : GcControl} (swept : List CheckpointIdentity) (planHash : LogHash) (nowMs : Nat)
      (hBefore : Made clusterId control) : Made clusterId (control.retire swept planHash nowMs)
  | fenced {control : GcControl} (fence : Nat) (root : Option CheckpointIdentity)
      (leases : List GcLease) (activeGc : Option ActiveGc) (hBefore : Made clusterId control) :
      Made clusterId { control with fence, root, leases, activeGc }

theorem Made.ordered (h : Made clusterId control) : control.Ordered clusterId := by
  induction h with
  | fresh => exact ⟨fun _ hEntry => absurd hEntry List.not_mem_nil, List.Pairwise.nil⟩
  | registered identity registeredAtMs _ hCluster ih => exact ih.register hCluster registeredAtMs
  | retired swept planHash nowMs _ ih => exact ih.retire swept planHash nowMs
  | fenced fence root leases activeGc _ ih => exact ⟨ih.cluster, ih.order⟩

def others (control : GcControl) (policy : GcPolicy) : List GenerationCatalogEntry :=
  control.generations.filter fun entry => entry.lifecycle = .active ∧ entry.identity ≠ policy.root

def Precedes (a b : GenerationCatalogEntry) : Prop :=
  b.identity.recoveryGeneration < a.identity.recoveryGeneration ∨
    a.identity.recoveryGeneration = b.identity.recoveryGeneration ∧
      KeyBefore (registrationKey a) (registrationKey b)

instance : DecidableRel Precedes := fun _ _ => inferInstanceAs (Decidable (_ ∨ _))

theorem precedes_asymm {a b : GenerationCatalogEntry} (h : Precedes a b) : ¬ Precedes b a := by
  unfold Precedes KeyBefore at *
  omega

theorem Ordered.retentionOrder (h : control.Ordered clusterId) :
    control.retentionOrder.Pairwise Precedes := by
  have hTotal : ∀ a b : GenerationCatalogEntry,
      b.identity.recoveryGeneration ≤ a.identity.recoveryGeneration ∨
        a.identity.recoveryGeneration ≤ b.identity.recoveryGeneration := fun _ _ => Nat.le_total _ _
  have hActive := h.order.sublist (List.filter_sublist (p := fun entry => entry.lifecycle = .active))
  refine (insertionSort_stable hTotal (fun hAB hBC => Nat.le_trans hBC hAB) hActive).imp
    fun {a b} hPair => ?_
  rcases Nat.lt_or_eq_of_le hPair.1 with hLess | hSame
  · exact .inl hLess
  · exact .inr ⟨hSame.symm, hPair.2 (Nat.le_of_eq hSame.symm)⟩

theorem retentionOrder_perm (control : GcControl) (policy : GcPolicy) :
    (control.retentionOrder.filter fun entry => entry.identity ≠ policy.root).Perm
      (control.others policy) := by
  have hSorted : control.retentionOrder.Perm _ := List.perm_insertionSort _ _
  refine (hSorted.filter _).trans ?_
  rw [List.filter_filter, others]
  refine List.Perm.of_eq (List.filter_congr fun entry _ => ?_)
  rw [Bool.eq_iff_iff, Bool.and_eq_true, decide_eq_true_eq, decide_eq_true_eq, decide_eq_true_eq]
  exact and_comm

theorem Ordered.mem_retained_iff (h : control.Ordered clusterId) {entry : GenerationCatalogEntry}
    (hEntry : entry ∈ control.others policy) : entry.identity ∈ control.retained policy ↔
      rank Precedes (control.others policy) entry < policy.retainRecoveryGenerations := by
  have hPerm := retentionOrder_perm control policy
  have hOrder := h.retentionOrder.sublist
    (List.filter_sublist (p := fun entry => decide (entry.identity ≠ policy.root)))
  have hMem := hPerm.mem_iff.mpr hEntry
  rw [← rank_perm hPerm, ← mem_take_iff_rank precedes_asymm hOrder hMem, retained, List.mem_map]
  constructor
  · rintro ⟨other, hOther, hSame⟩
    have hKeys : registrationKey other = registrationKey entry := by
      rw [registrationKey, hSame]
      rfl
    have hOtherMem := (List.mem_filter.mp (hPerm.mem_iff.mp (List.mem_of_mem_take hOther))).1
    have hEntryMem := (List.mem_filter.mp hEntry).1
    obtain rfl := h.eq_of_key hOtherMem hEntryMem hKeys
    exact hOther
  · exact fun hTake => ⟨entry, hTake, rfl⟩

theorem Ordered.precedes (h : control.Ordered clusterId) {kept entry : GenerationCatalogEntry}
    (hKept : kept ∈ control.others policy) (hKeptRetained : kept.identity ∈ control.retained policy)
    (hEntry : entry ∈ control.others policy) (hEntryNot : entry.identity ∉ control.retained policy) :
    Precedes kept entry := by
  have hPerm := retentionOrder_perm control policy
  have hOrder := h.retentionOrder.sublist
    (List.filter_sublist (p := fun entry => decide (entry.identity ≠ policy.root)))
  rw [h.mem_retained_iff hKept, ← rank_perm hPerm,
    ← mem_take_iff_rank precedes_asymm hOrder (hPerm.mem_iff.mpr hKept)] at hKeptRetained
  rw [h.mem_retained_iff hEntry, ← rank_perm hPerm,
    ← mem_take_iff_rank precedes_asymm hOrder (hPerm.mem_iff.mpr hEntry)] at hEntryNot
  have hMem := hPerm.mem_iff.mpr hEntry
  rw [← List.take_append_drop policy.retainRecoveryGenerations (List.filter _ _)] at hOrder hMem
  have hDropped := (List.mem_append.mp hMem).resolve_left hEntryNot
  exact (List.pairwise_append.mp hOrder).2.2 kept hKeptRetained entry hDropped

theorem retained_iff (control : GcControl) (policy : GcPolicy) (identity : CheckpointIdentity)
    (h : identity ∈ control.retained policy) :
    ∃ entry ∈ control.others policy, entry.identity = identity := by
  obtain ⟨entry, hEntry, rfl⟩ := List.mem_map.mp h
  exact ⟨entry, (retentionOrder_perm control policy).mem_iff.mp (List.mem_of_mem_take hEntry), rfl⟩

end GcControl

def Older (a b : CheckpointIdentity) : Prop :=
  KeyBefore (a.epoch, a.configId, a.recoveryGeneration) (b.epoch, b.configId, b.recoveryGeneration)

def Ripe (bucket : Bucket) (policy : GcPolicy) (nowMs : Nat) (identity : CheckpointIdentity) : Prop :=
  ∀ metadata ∈ bucket.objects identity, ¬ metadata.Young policy nowMs

theorem mem_sweep {bucket : Bucket} {policy : GcPolicy} {nowMs : Nat} {references : List ObjectKey}
    {retained : List CheckpointIdentity} {generations : List GenerationCatalogEntry}
    {identity : CheckpointIdentity} :
    identity ∈ (sweep bucket policy nowMs references retained generations).1 ↔
      ∃ entry ∈ generations, entry.identity = identity ∧ identity ≠ policy.root ∧
        identity ∉ retained ∧ Ripe bucket policy nowMs identity := by
  induction generations with
  | nil =>
    constructor
    · intro h
      cases h
    · rintro ⟨entry, hEntry, -⟩
      cases hEntry
  | cons entry generations ih =>
    have hYoung : (bucket.objects entry.identity).any
        (fun metadata => metadata.Young policy nowMs) = true ↔
          ¬ Ripe bucket policy nowMs entry.identity := by
      rw [List.any_eq_true, Ripe]
      constructor
      · rintro ⟨metadata, hMem, hIs⟩ hRipe
        exact hRipe metadata hMem (of_decide_eq_true hIs)
      · intro hNot
        by_contra hNone
        refine hNot fun metadata hMem hIs => hNone ?_
        exact ⟨metadata, hMem, decide_eq_true hIs⟩
    simp only [sweep, List.exists_mem_cons_iff, ← ih]
    by_cases hRoot : entry.identity = policy.root
    · rw [if_pos hRoot]
      refine ⟨.inr, fun h => h.elim (fun hHere => ?_) id⟩
      exact absurd (hHere.1 ▸ hRoot) hHere.2.1
    · rw [if_neg hRoot]
      by_cases hRetained : entry.identity ∈ retained
      · rw [if_pos hRetained]
        refine ⟨.inr, fun h => h.elim (fun hHere => ?_) id⟩
        exact absurd (hHere.1 ▸ hRetained) hHere.2.2.1
      · rw [if_neg hRetained]
        by_cases hRipe : Ripe bucket policy nowMs entry.identity
        · rw [if_neg fun hAny => hYoung.mp hAny hRipe, List.mem_cons]
          refine or_congr_left ⟨?_, fun hHere => hHere.1.symm⟩
          rintro rfl
          exact ⟨rfl, hRoot, hRetained, hRipe⟩
        · rw [if_pos (hYoung.mpr hRipe)]
          refine ⟨.inr, fun h => h.elim (fun hHere => ?_) id⟩
          exact absurd (hHere.1 ▸ hHere.2.2.2) hRipe

def SweepsSuperseded (control : GcControl) (policy : GcPolicy) (plan : GcPlan) : Prop :=
  ∀ swept ∈ plan.sweptGenerations, Older swept policy.root ∧
    ∀ kept ∈ control.retained policy, Older swept kept

def EarlierConfiguration (a b : CheckpointIdentity) : Prop :=
  a.epoch < b.epoch ∨ a.epoch = b.epoch ∧ a.configId < b.configId

def InStep (control : GcControl) (bucket : Bucket) (policy : GcPolicy) (nowMs : Nat) : Prop :=
  ∀ entry ∈ control.others policy, Ripe bucket policy nowMs entry.identity →
    policy.retainRecoveryGenerations ≤ rank GcControl.Precedes (control.others policy) entry →
    Older entry.identity policy.root ∧
      ∀ kept ∈ control.others policy,
        rank GcControl.Precedes (control.others policy) kept < policy.retainRecoveryGenerations →
        ¬ EarlierConfiguration kept.identity entry.identity

theorem GcControl.Precedes.older_iff {kept entry : GenerationCatalogEntry}
    (h : GcControl.Precedes kept entry) : Older entry.identity kept.identity ↔
      ¬ EarlierConfiguration kept.identity entry.identity := by
  unfold GcControl.Precedes registrationKey KeyBefore at h
  unfold Older EarlierConfiguration KeyBefore
  dsimp only at h ⊢
  omega

section Plans

variable [Sha256] {clusterId : ClusterId} {control : GcControl} {bucket : Bucket} {policy : GcPolicy}
  {nowMs : Nat} {plan : GcPlan}

theorem swept_iff (hPlan : planGc clusterId control bucket policy nowMs = .ok plan)
    (identity : CheckpointIdentity) :
    identity ∈ plan.sweptGenerations ↔ ∃ entry ∈ control.others policy, entry.identity = identity ∧
      identity ∉ control.retained policy ∧ Ripe bucket policy nowMs identity := by
  simp only [planGc, bind_ok_iff, exists_ensure_iff] at hPlan
  obtain ⟨-, -, hPlan⟩ := hPlan
  split at hPlan
  · cases hPlan
  · simp only [bind_ok_iff, exists_ensure_iff] at hPlan
    obtain ⟨-, -, -, -, manifest, -, -, -, -, -, hPlan⟩ := hPlan
    obtain rfl := Except.ok.inj hPlan
    rw [mem_sweep]
    have hMem : ∀ entry, entry ∈ control.retentionOrder ↔
        entry ∈ control.generations ∧ entry.lifecycle = .active := by
      intro entry
      rw [GcControl.retentionOrder, List.mem_insertionSort, List.mem_filter, decide_eq_true_eq]
    constructor
    · rintro ⟨entry, hEntry, rfl, hRoot, hRetained, hRipe⟩
      obtain ⟨hCataloged, hActive⟩ := (hMem entry).mp hEntry
      exact ⟨entry, List.mem_filter.mpr ⟨hCataloged, decide_eq_true ⟨hActive, hRoot⟩⟩, rfl, hRetained,
        hRipe⟩
    · rintro ⟨entry, hEntry, rfl, hRetained, hRipe⟩
      obtain ⟨hCataloged, hIs⟩ := List.mem_filter.mp hEntry
      obtain ⟨hActive, hRoot⟩ := of_decide_eq_true hIs
      exact ⟨entry, (hMem entry).mpr ⟨hCataloged, hActive⟩, rfl, hRoot, hRetained, hRipe⟩

/-- A plan sweeps superseded generations only, if and only if the recovery generations are in step
with the configurations. -/
theorem sweeps_superseded_iff (hOrdered : control.Ordered clusterId)
    (hPlan : planGc clusterId control bucket policy nowMs = .ok plan) :
    SweepsSuperseded control policy plan ↔ InStep control bucket policy nowMs := by
  constructor
  · intro hSweeps entry hEntry hRipe hRank
    have hNot : entry.identity ∉ control.retained policy := fun hRetained =>
      Nat.not_lt.mpr hRank ((hOrdered.mem_retained_iff hEntry).mp hRetained)
    have hSwept := (swept_iff hPlan entry.identity).mpr ⟨entry, hEntry, rfl, hNot, hRipe⟩
    obtain ⟨hRoot, hKept⟩ := hSweeps entry.identity hSwept
    refine ⟨hRoot, fun kept hMem hFirst => ?_⟩
    have hRetained := (hOrdered.mem_retained_iff hMem).mpr hFirst
    exact (hOrdered.precedes hMem hRetained hEntry hNot).older_iff.mp (hKept _ hRetained)
  · intro hStep identity hSwept
    obtain ⟨entry, hEntry, rfl, hNot, hRipe⟩ := (swept_iff hPlan identity).mp hSwept
    have hRank := Nat.not_lt.mp fun hFirst => hNot ((hOrdered.mem_retained_iff hEntry).mpr hFirst)
    obtain ⟨hRoot, hKept⟩ := hStep entry hEntry hRipe hRank
    refine ⟨hRoot, fun identity hRetained => ?_⟩
    obtain ⟨kept, hMem, rfl⟩ := GcControl.retained_iff control policy identity hRetained
    have hFirst := (hOrdered.mem_retained_iff hMem).mp hRetained
    exact (hOrdered.precedes hMem hRetained hEntry hNot).older_iff.mpr (hKept kept hMem hFirst)

end Plans

namespace Forked

attribute [local instance] Sha256.rolling

def generation (configId recoveryGeneration : Nat) : CheckpointIdentity :=
  ⟨"c", 1, configId, recoveryGeneration⟩

def bucket : Bucket := ⟨fun identity => some (CheckpointManifest.new identity), fun _ => []⟩

def policy (root : CheckpointIdentity) : GcPolicy := ⟨"gc", root, 1, 0, 0⟩

theorem plan_of_swept (control : GcControl) (root : CheckpointIdentity)
    (identities : List CheckpointIdentity)
    (h : (planGc "c" control bucket (policy root) 0).toOption.map (·.sweptGenerations) =
      some identities) : ∃ plan,
      planGc "c" control bucket (policy root) 0 = .ok plan ∧ plan.sweptGenerations = identities := by
  obtain ⟨plan, hPlan, hSame⟩ := Option.map_eq_some_iff.mp h
  exact ⟨plan, ok_of_toOption hPlan, hSame⟩

/-- Three generations of one configuration. -/
def successive : GcControl :=
  ⟨0, some (generation 1 3), [⟨generation 1 1, 0, .active⟩, ⟨generation 1 2, 0, .active⟩,
    ⟨generation 1 3, 0, .active⟩], [], none⟩

/-- One generation is retained beside the root, and the oldest is swept. -/
theorem oldest_is_swept : successive.Ordered "c" ∧
    ∃ plan, planGc "c" successive bucket (policy (generation 1 3)) 0 = .ok plan ∧
      plan.sweptGenerations = [generation 1 1] ∧
      (SweepsSuperseded successive (policy (generation 1 3)) plan ↔
        InStep successive bucket (policy (generation 1 3)) 0) := by
  have hOrdered : successive.Ordered "c" := ⟨by decide, by decide⟩
  obtain ⟨plan, hPlan, hSwept⟩ := plan_of_swept successive (generation 1 3) [generation 1 1]
    (by decide +kernel)
  exact ⟨hOrdered, plan, hPlan, hSwept, sweeps_superseded_iff hOrdered hPlan⟩

/-- Two generations of one configuration, and a successor that starts with the first number. -/
def forked : GcControl :=
  ⟨0, some (generation 1 2), [⟨generation 1 1, 0, .active⟩, ⟨generation 1 2, 0, .active⟩,
    ⟨generation 2 1, 0, .active⟩], [], none⟩

/-- Where one is retained, it is the old generation, and the successor is swept. -/
theorem successor_is_swept : ∃ control policy plan, control.Ordered "c" ∧
    planGc "c" control bucket policy 0 = .ok plan ∧ ¬ SweepsSuperseded control policy plan := by
  have hOrdered : forked.Ordered "c" := ⟨by decide, by decide⟩
  obtain ⟨plan, hPlan, hSuccessor⟩ := plan_of_swept forked (generation 1 2) [generation 2 1]
    (by decide +kernel)
  refine ⟨forked, policy (generation 1 2), plan, hOrdered, hPlan, fun hSuperseded => ?_⟩
  have hOlder := (hSuperseded (generation 2 1) (hSuccessor ▸ List.mem_singleton_self _)).1
  exact absurd hOlder (by unfold Older; decide)

end Forked

end Rhiza.Archive
