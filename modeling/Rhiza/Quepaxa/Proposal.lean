import Rhiza.Core.ConfigChange
import Rhiza.Library.Majority

/-! # Proposals, memberships and errors of the consensus engine -/

namespace Rhiza.Quepaxa

open Core Library

structure Ballot where
  round : Nat
  priority : Nat
  proposerId : NodeId
  deriving DecidableEq

inductive RejectReason
  | staleEpoch
  | futureEpoch
  | wrongCluster
  | wrongConfig
  | wrongSlot
  | alreadyDecided
  | malformedDecision
  | ballotPromised (promised : Ballot)
  | conflictingValue
  | invalidValue
  | invalidCertificate
  | configurationSealed (stopSlot : Nat)
  | configurationNotInstalled
  | activationRequired
  | transitionInProgress
  | invalidTransition
  | localVoterRequired
  | stepRegression
  | invalidRequest
  deriving DecidableEq

inductive Error
  | chainConflict (slot : Nat) (expectedPrevHash actualPrevHash : LogHash)
  | commandHashMismatch
  | commandUnavailable
  | cancelled
  | conflictingCertificates
  | decode (message : String)
  | duplicateRecorderIdentity
  | emptyRecorderIdentity
  | emptyFixedMembership
  | invalidFixedMembershipSize
  | invalidRecoveredTip
  | io (message : String)
  | migrationRequired (format : String) (version : Nat)
  | noQuorum
  | proposeFailed
  | randomnessUnavailable (message : String)
  | recorderRootLocked (root : String)
  | rejected (reason : RejectReason)
  | readFenceUnsupported
  | typedProofInstallRequired
  | typedRecordRequired
  deriving DecidableEq

abbrev Result := Except Error

def quorumSize (n : Nat) : Nat := n / 2 + 1

structure Membership where
  members : List NodeId
  canonical : CanonicalMembers members

namespace Membership

theorem members_inj {a b : Membership} : a.members = b.members ↔ a = b := by
  constructor
  · intro h
    cases a
    cases b
    cases h
    rfl
  · rintro rfl
    rfl

instance : DecidableEq Membership := fun _ _ => decidable_of_iff _ members_inj

def quorumSize (membership : Membership) : Nat := Quepaxa.quorumSize membership.members.length

def digest [Sha256] (membership : Membership) : LogHash := membershipDigest membership.members

def contains (membership : Membership) (recorderId : NodeId) : Bool :=
  membership.members.contains recorderId

/-- `Membership::from_members`: a `BTreeSet` sorts and removes duplicates. -/
def fromMembers (members : List NodeId) : Result Membership :=
  let sorted := (members.insertionSort (· ≤ ·)).dedup
  if members.isEmpty then .error .emptyFixedMembership
  else if ¬ (3 ≤ members.length ∧ members.length ≤ 7) then .error .invalidFixedMembershipSize
  else if members.any (· == "") then .error .emptyRecorderIdentity
  else if sorted.length ≠ members.length then .error .duplicateRecorderIdentity
  else if h : CanonicalMembers sorted then .ok ⟨sorted, h⟩
  else .error .invalidFixedMembershipSize

theorem nodup (membership : Membership) : membership.members.Nodup := by
  have h := List.isChain_iff_pairwise.mp membership.canonical.increasing
  exact h.imp fun hlt => ne_of_lt hlt

/-- A duplicate-free choice of `quorum_size` members is a majority. -/
theorem majority {membership : Membership} {chosen : List NodeId} (hNodup : chosen.Nodup)
    (hSubset : ∀ k ∈ chosen, k ∈ membership.members)
    (hLength : membership.quorumSize ≤ chosen.length) : Majority membership.members chosen where
  nodup := hNodup
  subset := hSubset
  large := by
    unfold quorumSize Quepaxa.quorumSize at hLength
    omega

end Membership

structure AcceptedValue where
  commandHash : LogHash
  prevHash : LogHash
  entryHash : LogHash
  deriving DecidableEq

namespace AcceptedValue

instance : Ord AcceptedValue :=
  ⟨compareLex (compareOn (·.entryHash)) (compareLex (compareOn (·.commandHash))
    (compareOn (·.prevHash)))⟩

instance : Std.TransOrd AcceptedValue :=
  inferInstanceAs (Std.TransCmp (compareLex (compareOn AcceptedValue.entryHash)
    (compareLex (compareOn AcceptedValue.commandHash) (compareOn AcceptedValue.prevHash))))

instance : Std.LawfulEqOrd AcceptedValue where
  eq_of_compare {a b} h := by
    have h : (compare a.entryHash b.entryHash).then ((compare a.commandHash b.commandHash).then
        (compare a.prevHash b.prevHash)) = .eq := h
    simp only [Ordering.then_eq_eq, Std.LawfulEqOrd.compare_eq_iff_eq] at h
    obtain ⟨hEntry, hCommand, hPrev⟩ := h
    cases a
    cases b
    simp_all

def fromCommand [Sha256] (clusterId : ClusterId) (slot : Nat) (epoch : Nat)
    (configId : Nat) (prevHash : LogHash) (command : StoredCommand) : AcceptedValue where
  commandHash := command.hash
  prevHash := prevHash
  entryHash := calculateHash clusterId slot epoch configId command.entryType prevHash
    command.payload

end AcceptedValue

structure ProposalPriority where
  bytes : Bytes
  size : bytes.length = 32

namespace ProposalPriority

theorem bytes_inj {a b : ProposalPriority} : a.bytes = b.bytes ↔ a = b := by
  constructor
  · intro h
    cases a
    cases b
    cases h
    rfl
  · rintro rfl
    rfl

instance : DecidableEq ProposalPriority := fun _ _ => decidable_of_iff _ bytes_inj

theorem zeros_length : (List.replicate 32 (0 : UInt8)).length = 32 := List.length_replicate

def zero : ProposalPriority := ⟨List.replicate 32 0, zeros_length⟩
def max : ProposalPriority := ⟨List.replicate 32 255, List.length_replicate⟩

def fromU64 (value : Nat) : ProposalPriority :=
  ⟨List.replicate 24 0 ++ toBeBytes 8 value, by simp⟩

/-- `legacy_u128`: the last sixteen bytes. -/
def legacyU128 (priority : ProposalPriority) : Nat := fromBeBytes (priority.bytes.drop 16)

instance : Ord ProposalPriority := ⟨compareOn (·.bytes)⟩

instance : Std.TransOrd ProposalPriority :=
  inferInstanceAs (Std.TransCmp (compareOn ProposalPriority.bytes))

instance : Std.LawfulEqOrd ProposalPriority where
  eq_of_compare {a b} h := by
    have h : a.bytes = b.bytes := Std.LawfulEqOrd.eq_of_compare h
    cases a
    cases b
    cases h
    rfl

theorem compare_replicate_max {bytes : Bytes} (n : Nat) (h : bytes.length = n) :
    (compare bytes (List.replicate n 255)).isLE := by
  induction n generalizing bytes with
  | zero =>
    rw [List.length_eq_zero_iff.mp h]
    rfl
  | succ n ih =>
    cases bytes with
    | nil => simp at h
    | cons b bytes =>
      have hByte : (compare b 255).isLE := by
        rw [Std.isLE_compare]
        exact UInt8.le_iff_toNat_le.mpr (by have := b.toNat_lt; simp; omega)
      have hRest := ih (Nat.succ.inj h)
      rw [List.replicate_succ, List.compare_cons_cons]
      cases hCmp : compare b 255 with
      | lt => rfl
      | eq => simpa [Ordering.then] using hRest
      | gt => simp [hCmp] at hByte

theorem le_max (priority : ProposalPriority) : (compare priority max).isLE :=
  compare_replicate_max 32 priority.size

theorem eq_max_of_le {priority : ProposalPriority} (h : (compare max priority).isLE) :
    priority = max :=
  Std.LawfulEqOrd.eq_of_compare
    (Std.OrientedCmp.isLE_antisymm priority.le_max h)

end ProposalPriority

structure Proposal where
  priority : ProposalPriority
  proposerId : NodeId
  proposalId : Nat
  value : Option AcceptedValue
  deriving DecidableEq

namespace Proposal

def isNil (proposal : Proposal) : Bool := proposal.value.isNone

def compareIdentity : Proposal → Proposal → Ordering :=
  compareLex (compareOn (·.priority)) (compareLex (compareOn (·.proposerId))
    (compareLex (compareOn (·.proposalId)) (compareOn (·.value))))

instance : Std.TransCmp compareIdentity :=
  inferInstanceAs (Std.TransCmp (compareLex (compareOn Proposal.priority)
    (compareLex (compareOn Proposal.proposerId)
      (compareLex (compareOn Proposal.proposalId) (compareOn Proposal.value)))))

instance : Std.LawfulEqCmp compareIdentity where
  eq_of_compare {a b} h := by
    have h : (compare a.priority b.priority).then ((compare a.proposerId b.proposerId).then
        ((compare a.proposalId b.proposalId).then (compare a.value b.value))) = .eq := h
    simp only [Ordering.then_eq_eq, Std.LawfulEqOrd.compare_eq_iff_eq] at h
    cases a
    cases b
    simp_all

/-- `Ord for Proposal`: nil proposals are equal to each other and below all others. -/
def cmp (p q : Proposal) : Ordering :=
  match p.isNil, q.isNil with
  | true, true => .eq
  | true, false => .lt
  | false, true => .gt
  | false, false => compareIdentity p q

theorem compareIdentity_swap (p q : Proposal) : compareIdentity p q = (compareIdentity q p).swap :=
  @Std.OrientedCmp.eq_swap _ compareIdentity _ p q

theorem compareIdentity_trans {p q r : Proposal} (h : (compareIdentity p q).isLE)
    (h' : (compareIdentity q r).isLE) : (compareIdentity p r).isLE :=
  @Std.TransCmp.isLE_trans _ compareIdentity _ p q r h h'

theorem cmp_swap (p q : Proposal) : cmp p q = (cmp q p).swap := by
  unfold cmp
  cases p.isNil <;> cases q.isNil <;> first | rfl | exact compareIdentity_swap p q

theorem cmp_trans {p q r : Proposal} : (cmp p q).isLE → (cmp q r).isLE → (cmp p r).isLE := by
  unfold cmp
  cases p.isNil <;> cases q.isNil <;> cases r.isNil <;>
    first | exact compareIdentity_trans | simp

instance : Std.TransCmp cmp where
  eq_swap := cmp_swap _ _
  isLE_trans := cmp_trans

@[simp] theorem cmp_self (p : Proposal) : cmp p p = .eq := @Std.ReflCmp.compare_self _ cmp _ p

theorem value_of_cmp {p q : Proposal} (h : (cmp p q).isLE) (h' : (cmp q p).isLE) :
    p.value = q.value := by
  have hEq : cmp p q = .eq := @Std.OrientedCmp.isLE_antisymm _ cmp _ p q h h'
  unfold cmp at hEq
  cases hp : p.isNil <;> cases hq : q.isNil <;> simp only [hp, hq] at hEq
  · rw [Std.LawfulEqCmp.eq_of_compare hEq]
  · cases hEq
  · cases hEq
  · rw [Option.isNone_iff_eq_none.mp hp, Option.isNone_iff_eq_none.mp hq]

theorem priority_le_of_cmp {p q : Proposal} (hp : p.isNil = false) (h : (cmp p q).isLE) :
    (compare p.priority q.priority).isLE := by
  unfold cmp at h
  cases hq : q.isNil <;> simp only [hp, hq] at h
  · have h : ((compare p.priority q.priority).then ((compare p.proposerId q.proposerId).then
        ((compare p.proposalId q.proposalId).then (compare p.value q.value)))).isLE := h
    cases hc : compare p.priority q.priority with
    | gt => simp [hc] at h
    | lt => rfl
    | eq => rfl
  · simp at h

def IsTop (proposal : Proposal) : Prop :=
  proposal.isNil = false ∧ proposal.priority = ProposalPriority.max

theorem IsTop.of_le {p q : Proposal} (h : (cmp p q).isLE) (hp : p.IsTop) : q.IsTop := by
  have hPriority := priority_le_of_cmp hp.1 h
  rw [hp.2] at hPriority
  refine ⟨?_, ProposalPriority.eq_max_of_le hPriority⟩
  by_contra hq
  unfold cmp at h
  simp [hp.1, Bool.eq_true_of_not_eq_false hq] at h

def maximum : List Proposal → Option Proposal
  | [] => none
  | p :: ps => some (ps.foldl (fun best q => if cmp best q = .gt then best else q) p)

theorem foldl_maximum (p : Proposal) (ps : List Proposal) :
    let m := ps.foldl (fun best q => if cmp best q = .gt then best else q) p
    m ∈ p :: ps ∧ ∀ q ∈ p :: ps, (cmp q m).isLE := by
  induction ps generalizing p with
  | nil =>
    refine ⟨List.mem_cons_self, ?_⟩
    intro q hq
    rw [List.mem_singleton.mp hq, List.foldl_nil, cmp_self]
    rfl
  | cons q ps ih =>
    simp only [List.foldl_cons]
    obtain ⟨hMem, hTop⟩ := ih (if cmp p q = .gt then p else q)
    have hBest : (cmp p (if cmp p q = .gt then p else q)).isLE ∧
        (cmp q (if cmp p q = .gt then p else q)).isLE := by
      split
      · rename_i hGt
        refine ⟨by rw [cmp_self]; rfl, ?_⟩
        rw [cmp_swap, hGt]
        rfl
      · rename_i hGt
        refine ⟨?_, by rw [cmp_self]; rfl⟩
        cases hCmp : cmp p q <;> simp_all
    have hHead := hTop _ List.mem_cons_self
    constructor
    · rcases List.mem_cons.mp hMem with h | h
      · rw [h]
        split <;> simp
      · exact List.mem_cons_of_mem _ (List.mem_cons_of_mem _ h)
    · intro q' hq'
      rcases List.mem_cons.mp hq' with rfl | hq'
      · exact cmp_trans hBest.1 hHead
      · rcases List.mem_cons.mp hq' with rfl | hq'
        · exact cmp_trans hBest.2 hHead
        · exact hTop q' (List.mem_cons_of_mem _ hq')

theorem maximum_eq_some {ps : List Proposal} {m : Proposal} (h : maximum ps = some m) :
    m ∈ ps ∧ ∀ q ∈ ps, (cmp q m).isLE := by
  cases ps with
  | nil => cases h
  | cons p ps =>
    cases h
    exact foldl_maximum p ps

end Proposal

end Rhiza.Quepaxa
