import Mathlib.Data.List.Basic
import Mathlib.Tactic.Ring

/-! # Dense binary hash trees

A tree of height `h` has `2 ^ h` places. The first `count` of them are leaves,
the rest stand empty, and an inner node joins the two nodes below it. A dense
cache keeps, for each height, the nodes that have a leaf below them.
-/

namespace Rhiza.Library.Merkle

universe u

variable {H : Type u} (join : Nat → H → H → H) (blank : H)

/-- The root of an empty tree. -/
def emptyAt : Nat → H
  | 0 => blank
  | h + 1 => join (h + 1) (emptyAt h) (emptyAt h)

/-- The node of height `h` whose places begin at `start`. -/
def node (leaf : Nat → H) (count : Nat) : Nat → Nat → H
  | 0, start => if start < count then leaf start else blank
  | h + 1, start => join (h + 1) (node leaf count h start) (node leaf count h (start + 2 ^ h))

variable {join blank}

theorem node_of_le {leaf : Nat → H} {count : Nat} (h : Nat) {start : Nat} (hStart : count ≤ start) :
    node join blank leaf count h start = emptyAt join blank h := by
  induction h generalizing start with
  | zero => rw [node, if_neg (Nat.not_lt.mpr hStart), emptyAt]
  | succ h ih => rw [node, ih hStart, ih (Nat.le_add_right_of_le hStart), emptyAt]

theorem node_congr {leaf leaf' : Nat → H} {count count' h start : Nat}
    (hCount : ∀ i, start ≤ i → i < start + 2 ^ h → (i < count ↔ i < count'))
    (hLeaf : ∀ i, start ≤ i → i < start + 2 ^ h → i < count → leaf i = leaf' i) :
    node join blank leaf count h start = node join blank leaf' count' h start := by
  induction h generalizing start with
  | zero =>
    have hHere : start < start + 2 ^ 0 := by rw [Nat.pow_zero]; omega
    rw [node, node]
    by_cases hIn : start < count
    · rw [if_pos hIn, if_pos ((hCount start (Nat.le_refl _) hHere).mp hIn),
        hLeaf start (Nat.le_refl _) hHere hIn]
    · rw [if_neg hIn, if_neg fun h => hIn ((hCount start (Nat.le_refl _) hHere).mpr h)]
  | succ h ih =>
    have hDouble : 2 ^ (h + 1) = 2 ^ h + 2 ^ h := by ring
    rw [hDouble] at hCount hLeaf
    rw [node, node]
    congr 1
    · exact ih (fun i hi hi' => hCount i hi (by omega)) fun i hi hi' => hLeaf i hi (by omega)
    · exact ih (fun i hi hi' => hCount i (by omega) (by omega))
        fun i hi hi' => hLeaf i (by omega) (by omega)

def IsLevel (join : Nat → H → H → H) (blank : H) (leaf : Nat → H) (count h : Nat)
    (row : List H) : Prop :=
  ∀ i, row[i]? = if i * 2 ^ h < count then some (node join blank leaf count h (i * 2 ^ h)) else none

theorem isLevel_leaves {leaf : Nat → H} {row : List H} (hRow : ∀ i (hi : i < row.length), row[i] = leaf i) :
    IsLevel join blank leaf row.length 0 row := by
  intro i
  rw [Nat.pow_zero, Nat.mul_one, node]
  by_cases hi : i < row.length
  · rw [if_pos hi, if_pos hi, List.getElem?_eq_getElem hi, hRow i hi]
  · rw [if_neg hi, List.getElem?_eq_none (Nat.not_lt.mp hi)]

/-- The row above `row`: its elements joined in pairs, the last one with `filler`
when it has no partner. -/
def parents (join : H → H → H) (filler : H) : List H → List H
  | [] => []
  | [left] => [join left filler]
  | left :: right :: rest => join left right :: parents join filler rest

theorem getElem?_parents (join : H → H → H) (filler : H) (row : List H) (i : Nat) :
    (parents join filler row)[i]? =
      row[2 * i]?.map fun left => join left (row[2 * i + 1]?.getD filler) := by
  induction row using parents.induct generalizing i with
  | case1 => simp [parents]
  | case2 left =>
    cases i with
    | zero => simp [parents]
    | succ i => simp [parents, Nat.mul_succ]
  | case3 left right rest ih =>
    cases i with
    | zero => simp [parents]
    | succ i =>
      rw [parents, List.getElem?_cons_succ, ih i]
      have hTwice : 2 * (i + 1) = 2 * i + 1 + 1 := by ring
      rw [hTwice]
      simp only [List.getElem?_cons_succ]

theorem IsLevel.parents {leaf : Nat → H} {count h : Nat} {row : List H}
    (hRow : IsLevel join blank leaf count h row) :
    IsLevel join blank leaf count (h + 1) (parents (join (h + 1)) (emptyAt join blank h) row) := by
  intro i
  have hLeft : 2 * i * 2 ^ h = i * 2 ^ (h + 1) := by ring
  have hRight : (2 * i + 1) * 2 ^ h = i * 2 ^ (h + 1) + 2 ^ h := by ring
  rw [getElem?_parents, hRow (2 * i), hRow (2 * i + 1), hLeft, hRight]
  by_cases hIn : i * 2 ^ (h + 1) < count
  · rw [if_pos hIn, if_pos hIn, Option.map_some, node]
    by_cases hPair : i * 2 ^ (h + 1) + 2 ^ h < count
    · rw [if_pos hPair, Option.getD_some]
    · rw [if_neg hPair, Option.getD_none, node_of_le h (Nat.not_lt.mp hPair)]
  · rw [if_neg hIn, if_neg hIn, Option.map_none]

theorem leaf_eq_of_node_eq {leaf leaf' : Nat → H} {count h start i : Nat} (hStart : 2 ^ h ∣ start)
    (hJoin : ∀ k < h, ∀ j, j * 2 ^ (k + 1) < count →
      node join blank leaf count (k + 1) (j * 2 ^ (k + 1)) =
        node join blank leaf' count (k + 1) (j * 2 ^ (k + 1)) →
      node join blank leaf count k (j * 2 ^ (k + 1)) =
          node join blank leaf' count k (j * 2 ^ (k + 1)) ∧
        node join blank leaf count k (j * 2 ^ (k + 1) + 2 ^ k) =
          node join blank leaf' count k (j * 2 ^ (k + 1) + 2 ^ k))
    (hEq : node join blank leaf count h start = node join blank leaf' count h start)
    (hFrom : start ≤ i) (hTo : i < start + 2 ^ h) (hi : i < count) : leaf i = leaf' i := by
  induction h generalizing start with
  | zero =>
    obtain rfl : start = i := by rw [Nat.pow_zero] at hTo; omega
    rwa [node, node, if_pos hi, if_pos hi] at hEq
  | succ h ih =>
    have hDouble : 2 ^ (h + 1) = 2 ^ h + 2 ^ h := by ring
    obtain ⟨j, hj⟩ := hStart
    rw [Nat.mul_comm] at hj
    have hHere : j * 2 ^ (h + 1) < count := by omega
    rw [hj] at hEq
    obtain ⟨hLeft, hRight⟩ := hJoin h (Nat.lt_succ_self h) j hHere hEq
    rw [← hj] at hLeft hRight
    have hBelow := fun k (hk : k < h) => hJoin k (Nat.lt_succ_of_lt hk)
    have hHalf : 2 ^ h ∣ start := ⟨2 * j, by rw [hj]; ring⟩
    by_cases hSide : i < start + 2 ^ h
    · exact ih hHalf hBelow hLeft hFrom hSide
    · exact ih (Nat.dvd_add hHalf (Nat.dvd_refl _)) hBelow hRight (Nat.not_lt.mp hSide) (by omega)

/-- `row` cut or extended to `n` elements. -/
def resize (n : Nat) (filler : H) (row : List H) : List H :=
  row.take n ++ List.replicate (n - row.length) filler

theorem length_resize (n : Nat) (filler : H) (row : List H) : (resize n filler row).length = n := by
  rw [resize, List.length_append, List.length_take, List.length_replicate]
  omega

theorem getElem?_resize {n i : Nat} {filler x : H} {row : List H} (hi : i < n)
    (hRow : row[i]? = some x) : (resize n filler row)[i]? = some x := by
  obtain ⟨hLength, -⟩ := List.getElem?_eq_some_iff.mp hRow
  rw [resize, List.getElem?_append_left (by rw [List.length_take]; omega),
    List.getElem?_take_of_lt hi, hRow]

/-- The elements of `row` at the places `dirty` joined again from the row below. -/
def refresh (join : H → H → H) (filler : H) (children : List H) : List Nat → List H → Option (List H)
  | [], row => some row
  | parent :: dirty, row => do
    let left ← children[2 * parent]?
    if parent < row.length then
      refresh join filler children dirty
        (row.set parent (join left (children[2 * parent + 1]?.getD filler)))
    else none

theorem IsLevel.join_children {leaf : Nat → H} {count h i : Nat} {children : List H}
    (hChildren : IsLevel join blank leaf count h children) (hi : i * 2 ^ (h + 1) < count) :
    ∃ left, children[2 * i]? = some left ∧
      join (h + 1) left (children[2 * i + 1]?.getD (emptyAt join blank h)) =
        node join blank leaf count (h + 1) (i * 2 ^ (h + 1)) := by
  have hLeft : 2 * i * 2 ^ h = i * 2 ^ (h + 1) := by ring
  have hRight : (2 * i + 1) * 2 ^ h = i * 2 ^ (h + 1) + 2 ^ h := by ring
  refine ⟨node join blank leaf count h (i * 2 ^ (h + 1)), ?_, ?_⟩
  · rw [hChildren (2 * i), hLeft, if_pos hi]
  rw [hChildren (2 * i + 1), hRight, node]
  by_cases hPair : i * 2 ^ (h + 1) + 2 ^ h < count
  · rw [if_pos hPair, Option.getD_some]
  · rw [if_neg hPair, Option.getD_none, node_of_le h (Nat.not_lt.mp hPair)]

theorem IsLevel.refresh {leaf : Nat → H} {count h : Nat} {children row : List H} {dirty : List Nat}
    (hChildren : IsLevel join blank leaf count h children)
    (hLength : ∀ i, i < row.length ↔ i * 2 ^ (h + 1) < count)
    (hDirty : ∀ i ∈ dirty, i * 2 ^ (h + 1) < count)
    (hClean : ∀ i, i * 2 ^ (h + 1) < count → i ∉ dirty →
      row[i]? = some (node join blank leaf count (h + 1) (i * 2 ^ (h + 1)))) :
    ∃ row', refresh (join (h + 1)) (emptyAt join blank h) children dirty row = some row' ∧
      IsLevel join blank leaf count (h + 1) row' := by
  induction dirty generalizing row with
  | nil =>
    refine ⟨row, rfl, fun i => ?_⟩
    by_cases hi : i * 2 ^ (h + 1) < count
    · rw [if_pos hi, hClean i hi List.not_mem_nil]
    · rw [if_neg hi, List.getElem?_eq_none (Nat.not_lt.mp fun h => hi ((hLength i).mp h))]
  | cons parent dirty ih =>
    have hParent := hDirty parent List.mem_cons_self
    obtain ⟨left, hLeft, hJoin⟩ := hChildren.join_children hParent
    have hIn := (hLength parent).mpr hParent
    rw [Merkle.refresh, hLeft, Option.bind_eq_bind, Option.bind_some, if_pos hIn, hJoin]
    apply ih
    · intro i
      rw [List.length_set]
      exact hLength i
    · intro i hi
      exact hDirty i (List.mem_cons_of_mem _ hi)
    · intro i hi hNot
      by_cases hSame : i = parent
      · subst hSame
        rw [List.getElem?_set_self hIn]
      · rw [List.getElem?_set_ne (Ne.symm hSame)]
        exact hClean i hi (List.not_mem_cons_of_ne_of_not_mem hSame hNot)

def AgreeOutside (leaf : Nat → H) (count : Nat) (leaf' : Nat → H) (count' : Nat)
    (dirty : List Nat) : Prop :=
  ∀ h start, start < count' → (∀ i ∈ dirty, ¬(start ≤ i ∧ i < start + 2 ^ h)) →
    ∀ i, start ≤ i → i < start + 2 ^ h → (i < count ↔ i < count') ∧ (i < count → leaf i = leaf' i)

theorem agreeOutside {leaf leaf' : Nat → H} {count count' : Nat} {dirty : List Nat}
    (hNew : ∀ i, count ≤ i → i < count' → i ∈ dirty)
    (hLast : count' < count → count' - 1 ∈ dirty)
    (hSame : ∀ i, i < count → i < count' → i ∉ dirty → leaf i = leaf' i) :
    AgreeOutside leaf count leaf' count' dirty := by
  intro h start hStart hNone i hi hi'
  have hCount : i < count ↔ i < count' := by
    rcases Nat.lt_trichotomy count count' with hLess | hEq | hMore
    · -- the first new leaf is not below the node
      refine ⟨fun h => Nat.lt_trans h hLess, fun h => ?_⟩
      by_contra hOut
      exact hNone i (hNew i (Nat.not_lt.mp hOut) h) ⟨hi, hi'⟩
    · rw [hEq]
    · -- nor is the last leaf that is left
      refine ⟨fun _ => ?_, fun h => Nat.lt_trans h hMore⟩
      by_contra hOut
      exact hNone _ (hLast hMore) ⟨by omega, by omega⟩
  refine ⟨hCount, fun hIn => hSame i hIn (hCount.mp hIn) fun hMem => hNone i hMem ⟨hi, hi'⟩⟩

theorem AgreeOutside.node_eq {leaf leaf' : Nat → H} {count count' h start : Nat} {dirty : List Nat}
    (hAgree : AgreeOutside leaf count leaf' count' dirty) (hStart : start < count')
    (hNone : ∀ i ∈ dirty, ¬(start ≤ i ∧ i < start + 2 ^ h)) :
    node join blank leaf count h start = node join blank leaf' count' h start :=
  node_congr (fun i hi hi' => (hAgree h start hStart hNone i hi hi').1)
    fun i hi hi' => (hAgree h start hStart hNone i hi hi').2

end Rhiza.Library.Merkle
