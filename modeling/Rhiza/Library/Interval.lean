import Mathlib.Data.List.Basic
import Mathlib.Algebra.Order.Group.Nat
import Mathlib.Order.Basic

/-! # Agreement from interval-summary registers

A register is a step counter that never goes back. At its current step it keeps
the first and the greatest proposal offered, and of the step just before it the
greatest one. A round is four steps; in each of them a party offers its proposal
to the registers and continues with the answers of a quorum that stand at the
same step:

* step `4 r`: take the greatest of the first proposals;
* step `4 r + 1`: only spread the proposal;
* step `4 r + 2`: decide when nothing greater was spread at step `4 r + 1`;
* step `4 r + 3`: take the greatest proposal of step `4 r + 2`.

The ledger lists what every register recorded at every step. This module says
where a recorded proposal can come from and derives agreement from that alone,
without time: every statement about a ledger survives its extensions.
-/

namespace Rhiza.Library

universe u v w

variable {K : Type u} {P : Type v} {V : Type w}

structure Ledger (K : Type u) (P : Type v) where
  step : K → Nat
  recorded : K → Nat → List P

namespace Ledger

def first (L : Ledger K P) (k : K) (s : Nat) : Option P := (L.recorded k s).head?

structure Extends (L L' : Ledger K P) : Prop where
  step_le : ∀ k, L.step k ≤ L'.step k
  isPrefix : ∀ k s, L.recorded k s <+: L'.recorded k s
  closed : ∀ k s, s < L.step k → L'.recorded k s = L.recorded k s

theorem Extends.refl (L : Ledger K P) : Extends L L :=
  ⟨fun _ => le_rfl, fun _ _ => List.prefix_rfl, fun _ _ _ => rfl⟩

theorem Extends.mem {L L' : Ledger K P} (h : Extends L L') {k : K} {s : Nat} {p : P}
    (hp : p ∈ L.recorded k s) : p ∈ L'.recorded k s :=
  (h.isPrefix k s).subset hp

theorem Extends.first_eq {L L' : Ledger K P} (h : Extends L L') {k : K} {s : Nat} {p : P}
    (hp : L.first k s = some p) : L'.first k s = some p := by
  obtain ⟨tail, hTail⟩ := h.isPrefix k s
  rw [first, ← hTail, List.head?_append, show (L.recorded k s).head? = some p from hp]
  rfl

section Record

variable [DecidableEq K]

/-- Register `k` receives a proposal for step `s`. A stale proposal is ignored. -/
def record (L : Ledger K P) (k : K) (s : Nat) (p : P) : Ledger K P :=
  if s < L.step k then L
  else
    { step := fun j => if j = k then s else L.step j
      recorded := fun j t => if j = k ∧ t = s then L.recorded j t ++ [p] else L.recorded j t }

def Clear (L : Ledger K P) (k : K) : Prop := ∀ s, L.step k < s → L.recorded k s = []

theorem record_extends (L : Ledger K P) (k : K) (s : Nat) (p : P) : Extends L (L.record k s p) := by
  unfold record
  split
  · exact .refl L
  · rename_i hs
    refine ⟨?_, ?_, ?_⟩
    · intro j
      by_cases hj : j = k
      · simp only [hj, if_true]
        omega
      · simp [hj]
    · intro j t
      dsimp only
      split
      · exact List.prefix_append _ _
      · exact List.prefix_rfl
    · intro j t ht
      dsimp only
      rw [if_neg]
      rintro ⟨rfl, rfl⟩
      omega

theorem Clear.record {L : Ledger K P} {j : K} (h : L.Clear j) (k : K) (s : Nat) (p : P) :
    (L.record k s p).Clear j := by
  unfold Ledger.record
  split
  · exact h
  · rename_i hs
    intro t ht
    by_cases hj : j = k
    · subst hj
      simp only [if_true] at ht
      have hne : t ≠ s := by omega
      simpa [hne] using h t (by omega)
    · simp only [hj, if_false, false_and] at ht ⊢
      exact h t ht

theorem mem_record {L : Ledger K P} {j k : K} {s t : Nat} {p q : P}
    (h : q ∈ (L.record k s p).recorded j t) : q ∈ L.recorded j t ∨ (j = k ∧ t = s ∧ q = p) := by
  unfold record at h
  split at h
  · exact .inl h
  · dsimp only at h
    split at h
    · rename_i hjt
      rcases List.mem_append.mp h with h | h
      · exact .inl h
      · exact .inr ⟨hjt.1, hjt.2, List.mem_singleton.mp h⟩
    · exact .inl h

end Record

section Greatest

variable (cmp : P → P → Ordering)

def Greatest (ps : List P) : Option P → Prop
  | none => ps = []
  | some m => m ∈ ps ∧ ∀ q ∈ ps, (cmp q m).isLE

end Greatest

variable (quorum : List K → Prop) (cmp : P → P → Ordering) (value : P → V)

/-- How a proposal offered at a step after the first round's phase 0 was obtained. -/
inductive Origin (L : Ledger K P) : Nat → P → Prop
  | gatherFirst {r : Nat} {Q : List K} {p : P} (hQ : quorum Q)
      (present : ∀ k ∈ Q, ∃ f, L.first k (4 * r) = some f)
      (source : ∃ k ∈ Q, L.first k (4 * r) = some p)
      (greatest : ∀ k ∈ Q, ∀ f, L.first k (4 * r) = some f → (cmp f p).isLE) :
      Origin L (4 * r + 1) p
  | spread {r : Nat} {Q : List K} {p : P} (hQ : quorum Q)
      (everywhere : ∀ k ∈ Q, p ∈ L.recorded k (4 * r + 1)) : Origin L (4 * r + 2) p
  | carry {r : Nat} {Q : List K} {p : P} (hQ : quorum Q)
      (everywhere : ∀ k ∈ Q, p ∈ L.recorded k (4 * r + 2)) : Origin L (4 * r + 3) p
  | gatherPrior {r : Nat} {Q : List K} {m p : P} (hQ : quorum Q)
      (past : ∀ k ∈ Q, 4 * r + 3 ≤ L.step k)
      (source : ∃ k ∈ Q, m ∈ L.recorded k (4 * r + 2))
      (greatest : ∀ k ∈ Q, ∀ q ∈ L.recorded k (4 * r + 2), (cmp q m).isLE)
      (same : value p = value m) : Origin L (4 * r + 4) p

theorem Origin.mono {L L' : Ledger K P} (h : Extends L L') {s : Nat} {p : P}
    (hp : Origin quorum cmp value L s p) : Origin quorum cmp value L' s p := by
  cases hp with
  | gatherFirst hQ present source greatest =>
    refine .gatherFirst hQ ?_ ?_ ?_
    · intro k hk
      obtain ⟨f, hf⟩ := present k hk
      exact ⟨f, h.first_eq hf⟩
    · obtain ⟨k, hk, hf⟩ := source
      exact ⟨k, hk, h.first_eq hf⟩
    · intro k hk f hf
      obtain ⟨f', hf'⟩ := present k hk
      have hEq : f' = f := Option.some.inj ((h.first_eq hf').symm.trans hf)
      exact hEq ▸ greatest k hk f' hf'
  | spread hQ everywhere => exact .spread hQ fun k hk => h.mem (everywhere k hk)
  | carry hQ everywhere => exact .carry hQ fun k hk => h.mem (everywhere k hk)
  | gatherPrior hQ past source greatest same =>
    refine .gatherPrior hQ (fun k hk => (past k hk).trans (h.step_le k)) ?_ ?_ same
    · obtain ⟨k, hk, hm⟩ := source
      exact ⟨k, hk, h.mem hm⟩
    · intro k hk q hq
      rw [h.closed k _ (past k hk)] at hq
      exact greatest k hk q hq

def Offer (L : Ledger K P) (s : Nat) (p : P) : Prop :=
  4 ≤ s ∧ (4 < s → Origin quorum cmp value L s p)

theorem Offer.mono {L L' : Ledger K P} (h : Extends L L') {s : Nat} {p : P}
    (hp : Offer quorum cmp value L s p) : Offer quorum cmp value L' s p :=
  ⟨hp.1, fun hs => (hp.2 hs).mono quorum cmp value h⟩

theorem Offer.congr_value {L : Ledger K P} {s : Nat} {p q : P} (hs : s % 4 = 0)
    (hp : Offer quorum cmp value L s p) (hpq : value q = value p) :
    Offer quorum cmp value L s q := by
  refine ⟨hp.1, fun h => ?_⟩
  generalize hs' : s = t at *
  cases hp.2 h with
  | gatherFirst => omega
  | spread => omega
  | carry => omega
  | gatherPrior hQ past source greatest same =>
    exact .gatherPrior hQ past source greatest (hpq.trans same)

def Sound (L : Ledger K P) : Prop :=
  ∀ k s p, p ∈ L.recorded k s → Offer quorum cmp value L s p

structure PhaseTwo (L : Ledger K P) (r : Nat) (Q : List K) (p : P) : Prop where
  isQuorum : quorum Q
  recorded : ∀ k ∈ Q, p ∈ L.recorded k (4 * r + 2)
  past : ∀ k ∈ Q, 4 * r + 2 ≤ L.step k
  greatest : ∀ k ∈ Q, ∀ q ∈ L.recorded k (4 * r + 1), (cmp q p).isLE

structure Fast (top : P → Prop) (L : Ledger K P) (Q : List K) (p : P) : Prop where
  isQuorum : quorum Q
  first : ∀ k ∈ Q, L.first k 4 = some p
  isTop : top p

def Decides (top : P → Prop) (L : Ledger K P) (p : P) : Prop :=
  (∃ Q, Fast quorum top L Q p) ∨ ∃ r Q, 1 ≤ r ∧ PhaseTwo quorum cmp L r Q p

theorem PhaseTwo.mono {L L' : Ledger K P} (h : Extends L L') {r : Nat} {Q : List K} {p : P}
    (hp : PhaseTwo quorum cmp L r Q p) : PhaseTwo quorum cmp L' r Q p where
  isQuorum := hp.isQuorum
  recorded k hk := h.mem (hp.recorded k hk)
  past k hk := (hp.past k hk).trans (h.step_le k)
  greatest k hk q hq := by
    rw [h.closed k _ (by have := hp.past k hk; omega)] at hq
    exact hp.greatest k hk q hq

theorem Decides.mono {top : P → Prop} {L L' : Ledger K P} (h : Extends L L') {p : P}
    (hp : Decides quorum cmp top L p) : Decides quorum cmp top L' p := by
  rcases hp with ⟨Q, hFast⟩ | ⟨r, Q, hr, hTwo⟩
  · exact .inl ⟨Q, hFast.isQuorum, fun k hk => h.first_eq (hFast.first k hk), hFast.isTop⟩
  · exact .inr ⟨r, Q, hr, hTwo.mono quorum cmp h⟩

def FastUnique (top : P → Prop) (L : Ledger K P) : Prop :=
  ∀ Q p k q, Fast quorum top L Q p → L.first k 4 = some q → (cmp p q).isLE → value q = value p

section Agreement

variable {quorum cmp value} {L : Ledger K P}
variable (intersect : ∀ Q Q', quorum Q → quorum Q' → ∃ k, k ∈ Q ∧ k ∈ Q')
variable (sound : Sound quorum cmp value L)

include intersect sound in
theorem value_persists {v : V} {t : Nat} (hStart : 4 ≤ t) (ht : t % 4 = 0 ∨ t % 4 = 1)
    (h : ∀ k p, p ∈ L.recorded k t → value p = v) (s : Nat) (hs : t ≤ s) (k : K) (p : P)
    (hp : p ∈ L.recorded k s) : value p = v := by
  induction s using Nat.strongRecOn generalizing k p with
  | ind s ih =>
    rcases hs.eq_or_lt with rfl | hs
    · exact h k p hp
    · cases (sound k s p hp).2 (by omega) with
      | gatherFirst hQ present source greatest =>
        obtain ⟨j, _, hFirst⟩ := source
        exact ih _ (by omega) (by omega) j p (List.mem_of_head? hFirst)
      | @spread r Q _ hQ everywhere =>
        obtain ⟨j, hj, _⟩ := intersect Q Q hQ hQ
        exact ih _ (by omega) (by omega) j p (everywhere j hj)
      | @carry r Q _ hQ everywhere =>
        obtain ⟨j, hj, _⟩ := intersect Q Q hQ hQ
        exact ih _ (by omega) (by omega) j p (everywhere j hj)
      | gatherPrior hQ past source greatest same =>
        obtain ⟨j, _, hm⟩ := source
        exact same.trans (ih _ (by omega) (by omega) j _ hm)

variable (value_of_equal : ∀ p q, (cmp p q).isLE → (cmp q p).isLE → value p = value q)

include intersect sound in
theorem PhaseTwo.le_decided {r : Nat} (hr : 1 ≤ r) {Q : List K} {p : P}
    (hp : PhaseTwo quorum cmp L r Q p) {k : K} {q : P} (hq : q ∈ L.recorded k (4 * r + 2)) :
    (cmp q p).isLE := by
  have hOrigin := (sound k _ q hq).2 (by omega)
  generalize hs : 4 * r + 2 = s at hOrigin
  cases hOrigin with
  | gatherFirst => omega
  | @spread r' Q' _ hQ' everywhere =>
    obtain ⟨j, hj, hj'⟩ := intersect Q Q' hp.isQuorum hQ'
    have hMem := everywhere j hj'
    rw [show 4 * r' + 1 = 4 * r + 1 by omega] at hMem
    exact hp.greatest j hj q hMem
  | carry => omega
  | gatherPrior => omega

include intersect sound value_of_equal in
theorem PhaseTwo.value_eq {r : Nat} (hr : 1 ≤ r) {Q : List K} {p : P}
    (hp : PhaseTwo quorum cmp L r Q p) {s : Nat} (hs : 4 * r + 4 ≤ s) {k : K} {q : P}
    (hq : q ∈ L.recorded k s) : value q = value p := by
  refine value_persists intersect sound (t := 4 * r + 4) (by omega) (by omega) ?_ s hs k q hq
  intro j q' hq'
  have hOrigin := (sound j _ q' hq').2 (by omega)
  generalize ht : 4 * r + 4 = t at hOrigin
  cases hOrigin with
  | gatherFirst => omega
  | spread => omega
  | carry => omega
  | @gatherPrior r' Q' m _ hQ' past source greatest same =>
    obtain rfl : r = r' := by omega
    obtain ⟨i, hi, hi'⟩ := intersect Q Q' hp.isQuorum hQ'
    obtain ⟨i', _, hm⟩ := source
    have hGe := greatest i hi' p (hp.recorded i hi)
    have hLe := hp.le_decided intersect sound hr hm
    exact same.trans (value_of_equal m p hLe hGe)

variable {top : P → Prop} (unique : FastUnique quorum cmp value top L)

include intersect sound unique in
theorem Fast.value_eq {Q : List K} {p : P} (hp : Fast quorum top L Q p) {s : Nat} (hs : 5 ≤ s)
    {k : K} {q : P} (hq : q ∈ L.recorded k s) : value q = value p := by
  refine value_persists intersect sound (t := 5) (by omega) (by omega) ?_ s hs k q hq
  intro j q' hq'
  have hOrigin := (sound j _ q' hq').2 (by omega)
  generalize ht : 5 = t at hOrigin
  cases hOrigin with
  | @gatherFirst r' Q' _ hQ' present source greatest =>
    obtain rfl : r' = 1 := by omega
    obtain ⟨i, hi, hi'⟩ := intersect Q Q' hp.isQuorum hQ'
    obtain ⟨i', _, hFirst⟩ := source
    exact unique Q p i' q' hp hFirst (greatest i hi' p (hp.first i hi))
  | spread => omega
  | carry => omega
  | gatherPrior => omega

include intersect sound value_of_equal in
theorem PhaseTwo.agree {r r' : Nat} (hr : 1 ≤ r) (hrr : r ≤ r') {Q Q' : List K} {p q : P}
    (hp : PhaseTwo quorum cmp L r Q p) (hq : PhaseTwo quorum cmp L r' Q' q) :
    value p = value q := by
  obtain ⟨j, hj, _⟩ := intersect Q' Q' hq.isQuorum hq.isQuorum
  rcases hrr.eq_or_lt with rfl | hlt
  · obtain ⟨i, hi, _⟩ := intersect Q Q hp.isQuorum hp.isQuorum
    exact value_of_equal p q (hq.le_decided intersect sound hr (hp.recorded i hi))
      (hp.le_decided intersect sound hr (hq.recorded j hj))
  · exact (hp.value_eq intersect sound value_of_equal hr (by omega) (hq.recorded j hj)).symm

include intersect sound value_of_equal unique in
theorem Decides.agree {p q : P} (hp : Decides quorum cmp top L p)
    (hq : Decides quorum cmp top L q) : value p = value q := by
  rcases hp with ⟨Q, hp⟩ | ⟨r, Q, hr, hp⟩ <;> rcases hq with ⟨Q', hq⟩ | ⟨r', Q', hr', hq⟩
  · obtain ⟨i, hi, hi'⟩ := intersect Q Q' hp.isQuorum hq.isQuorum
    rw [Option.some.inj ((hp.first i hi).symm.trans (hq.first i hi'))]
  · obtain ⟨j, hj, _⟩ := intersect Q' Q' hq.isQuorum hq.isQuorum
    exact (hp.value_eq intersect sound unique (by omega) (hq.recorded j hj)).symm
  · obtain ⟨j, hj, _⟩ := intersect Q Q hp.isQuorum hp.isQuorum
    exact hq.value_eq intersect sound unique (by omega) (hp.recorded j hj)
  · rcases Nat.le_total r r' with h | h
    · exact hp.agree intersect sound value_of_equal hr h hq
    · exact (hq.agree intersect sound value_of_equal hr' h hp).symm

end Agreement

end Ledger

end Rhiza.Library
