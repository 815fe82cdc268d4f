import Mathlib.Data.List.Sort
import Rhiza.Library.Assoc
import Rhiza.Sql.Install

/-! # Changing the page-state cache in place

`apply_patch` writes the hashes of the changed pages into the lowest level of the
tree and joins again only the nodes above them. The cache then holds the patched
pages, as if it had been built from them.
-/

namespace Rhiza.Sql

open Rhiza.Core Rhiza.Library

def dedup : List Nat → List Nat
  | [] => []
  | [place] => [place]
  | place :: next :: places =>
    if place = next then dedup (next :: places) else place :: dedup (next :: places)

theorem mem_dedup {places : List Nat} {i : Nat} : i ∈ dedup places ↔ i ∈ places := by
  induction places using dedup.induct with
  | case1 => simp [dedup]
  | case2 => simp [dedup]
  | case3 place next ih => grind [dedup]
  | case4 place next places hNe ih => grind [dedup]

section Hashing

variable [Sha256]

/-- The loop over the patches in `apply_hashed`. -/
def setLeaves : List HashedPatch → List LogHash → Option (List LogHash)
  | [], row => some row
  | patch :: patches, row =>
    if patch.pageIndex < row.length then setLeaves patches (row.set patch.pageIndex patch.hash)
    else none

/-- The loop over the heights in `apply_hashed`, from the level `children` on. `rows` are
the old levels above it, and `dirty` are the places in `children` that changed. -/
def refreshLevels (targetLen : Nat) :
    Nat → Nat → List Nat → List LogHash → List (List LogHash) → Option (List (List LogHash))
  | 0, _, _, children, _ => some [children]
  | more + 1, height, dirty, children, rows => do
    let desiredLen := (targetLen + 2 ^ (height + 1) - 1) / 2 ^ (height + 1)
    let parents := dedup (dirty.map (· / 2))
    let row ← Merkle.refresh (hashInternal (height + 1)) (emptySubtree height) children parents
      (Merkle.resize desiredLen (emptySubtree (height + 1)) (rows.headD []))
    let above ← refreshLevels targetLen more (height + 1) parents row rows.tail
    pure (children :: above)

def dirtyPlaces (pageCount targetPageCount : Nat) (patches : List HashedPatch) : List Nat :=
  let changed := patches.map (·.pageIndex)
  if targetPageCount < pageCount then
    dedup ((changed ++ [targetPageCount - 1]).mergeSort (· ≤ ·))
  else changed

def PageStateCache.applyHashed (cache : PageStateCache) (targetPageCount : Nat)
    (patches : List HashedPatch) : Option PageStateCache := do
  let leaves ← cache.levels.head?
  let row ← setLeaves patches (Merkle.resize targetPageCount hashEmpty leaves)
  let levels ← refreshLevels targetPageCount (treeHeight targetPageCount) 0
    (dirtyPlaces cache.pageCount targetPageCount patches) row cache.levels.tail
  pure { cache with pageCount := targetPageCount, levels }

/-- What `apply_patch` returns, and the cache afterwards. -/
def PageStateCache.applyPatch (cache : PageStateCache) (targetPageCount : Nat)
    (patches : List QwalPage) : Except Error StateIdentity × PageStateCache :=
  match cache.validateAndHash targetPageCount patches with
  | .error error => (.error error, cache)
  | .ok hashed =>
    match cache.overlayHashed targetPageCount hashed with
    | .error error => (.error error, cache)
    | .ok target =>
      match cache.applyHashed targetPageCount hashed with
      | none => (.error .panicked, cache)
      | some next => (.ok target, next)

omit [Sha256] in
theorem mem_dirtyPlaces {pageCount target i : Nat} {patches : List HashedPatch} :
    i ∈ dirtyPlaces pageCount target patches ↔
      (∃ patch ∈ patches, patch.pageIndex = i) ∨ (target < pageCount ∧ i = target - 1) := by
  unfold dirtyPlaces
  split
  · rename_i hLess
    rw [mem_dedup, List.mem_mergeSort, List.mem_append, List.mem_map, List.mem_singleton,
      and_iff_right hLess]
  · rename_i hNot
    rw [List.mem_map, or_iff_left fun h => hNot h.1]

omit [Sha256] in
theorem setLeaves_ok {patches : List HashedPatch} {row : List LogHash}
    (hSorted : patches.Pairwise fun a b => a.pageIndex < b.pageIndex)
    (hIn : ∀ patch ∈ patches, patch.pageIndex < row.length) :
    ∃ row', setLeaves patches row = some row' ∧ row'.length = row.length ∧
      (∀ patch ∈ patches, row'[patch.pageIndex]? = some patch.hash) ∧
      ∀ i, (∀ patch ∈ patches, patch.pageIndex ≠ i) → row'[i]? = row[i]? := by
  induction patches generalizing row with
  | nil => exact ⟨row, rfl, rfl, nofun, fun _ _ => rfl⟩
  | cons first patches ih =>
    have hFirst := hIn first List.mem_cons_self
    obtain ⟨hLater, hRest⟩ := List.pairwise_cons.mp hSorted
    have hInRest : ∀ patch ∈ patches,
        patch.pageIndex < (row.set first.pageIndex first.hash).length := by
      intro patch hPatch
      rw [List.length_set]
      exact hIn patch (List.mem_cons_of_mem _ hPatch)
    obtain ⟨row', hRow', hLength, hSet, hKept⟩ := ih hRest hInRest
    refine ⟨row', ?_, by rw [hLength, List.length_set], ?_, fun i hNone => ?_⟩
    · rw [setLeaves, if_pos hFirst, hRow']
    · refine List.forall_mem_cons.mpr ⟨?_, hSet⟩
      rw [hKept _ fun patch hPatch => Nat.ne_of_gt (hLater patch hPatch), List.getElem?_set_self hFirst]
    · obtain ⟨hOther, hOthers⟩ := List.forall_mem_cons.mp hNone
      rw [hKept i hOthers, List.getElem?_set_ne hOther]

theorem refreshLevels_ok {leaf : Nat → LogHash} {target more height : Nat} {changed dirty : List Nat}
    {children : List LogHash} {rows : List (List LogHash)}
    (hChildren : Merkle.IsLevel hashInternal hashEmpty leaf target height children)
    (hChanged : ∀ i ∈ changed, i < target)
    (hDirty : ∀ i, i ∈ dirty ↔ ∃ place ∈ changed, place / 2 ^ height = i)
    (hRows : ∀ k < more, ∀ i, i * 2 ^ (height + 1 + k) < target →
      (∀ place ∈ changed, place / 2 ^ (height + 1 + k) ≠ i) →
      (rows.getD k [])[i]? = some (Merkle.node hashInternal hashEmpty leaf target (height + 1 + k)
        (i * 2 ^ (height + 1 + k)))) :
    ∃ levels, refreshLevels target more height dirty children rows = some levels ∧
      levels.length = more + 1 ∧ ∀ k ≤ more, ∃ row, levels[k]? = some row ∧
        Merkle.IsLevel hashInternal hashEmpty leaf target (height + k) row := by
  induction more generalizing height dirty children rows with
  | zero =>
    refine ⟨[children], rfl, rfl, fun k hk => ?_⟩
    obtain rfl := Nat.le_zero.mp hk
    exact ⟨children, rfl, hChildren⟩
  | succ more ih =>
    have hPos : 0 < 2 ^ (height + 1) := Nat.two_pow_pos _
    have hParents : ∀ i, i ∈ dedup (dirty.map (· / 2)) ↔
        ∃ place ∈ changed, place / 2 ^ (height + 1) = i := by
      intro i
      rw [mem_dedup, List.mem_map]
      constructor
      · rintro ⟨j, hj, rfl⟩
        obtain ⟨place, hPlace, rfl⟩ := (hDirty j).mp hj
        exact ⟨place, hPlace, by rw [Nat.pow_succ, Nat.div_div_eq_div_mul]⟩
      · rintro ⟨place, hPlace, rfl⟩
        refine ⟨place / 2 ^ height, (hDirty _).mpr ⟨place, hPlace, rfl⟩, ?_⟩
        rw [Nat.pow_succ, Nat.div_div_eq_div_mul]
    have hLength : ∀ i, i < (target + 2 ^ (height + 1) - 1) / 2 ^ (height + 1) ↔
        i * 2 ^ (height + 1) < target := by
      intro i
      rw [← Nat.succ_le_iff, Nat.le_div_iff_mul_le hPos, Nat.succ_mul]
      omega
    have hResized : ∀ i, i < (Merkle.resize ((target + 2 ^ (height + 1) - 1) / 2 ^ (height + 1))
        (emptySubtree (height + 1)) (rows.headD [])).length ↔ i * 2 ^ (height + 1) < target :=
      fun i => by rw [Merkle.length_resize, hLength]
    have hInside : ∀ i ∈ dedup (dirty.map (· / 2)), i * 2 ^ (height + 1) < target := by
      intro i hi
      obtain ⟨place, hPlace, rfl⟩ := (hParents i).mp hi
      exact Nat.lt_of_le_of_lt (Nat.div_mul_le_self _ _) (hChanged place hPlace)
    obtain ⟨row, hRow, hLevel⟩ := hChildren.refresh hResized hInside fun i hi hNot => by
      refine Merkle.getElem?_resize ((hLength i).mpr hi) ?_
      have hClean := hRows 0 (Nat.succ_pos _) i hi fun place hPlace hEq =>
        hNot ((hParents i).mpr ⟨place, hPlace, hEq⟩)
      cases rows with
      | nil => exact hClean
      | cons first rest => exact hClean
    have hRest : ∀ k < more, ∀ i, i * 2 ^ (height + 1 + 1 + k) < target →
        (∀ place ∈ changed, place / 2 ^ (height + 1 + 1 + k) ≠ i) →
        (rows.tail.getD k [])[i]? = some (Merkle.node hashInternal hashEmpty leaf target
          (height + 1 + 1 + k) (i * 2 ^ (height + 1 + 1 + k))) := by
      intro k hk i hi hNone
      have hAbove : height + 1 + 1 + k = height + 1 + (k + 1) := by omega
      rw [hAbove] at hi hNone ⊢
      have hClean := hRows (k + 1) (Nat.succ_lt_succ hk) i hi hNone
      cases rows with
      | nil => exact hClean
      | cons first rest => exact hClean
    obtain ⟨levels, hLevels, hCount, hEach⟩ := ih hLevel hParents hRest
    refine ⟨children :: levels, ?_, by rw [List.length_cons, hCount], fun k hk => ?_⟩
    · simp only [refreshLevels, emptySubtree] at hRow ⊢
      rw [hRow]
      simp only [Option.bind_eq_bind, Option.bind_some, hLevels]
      rfl
    cases k with
    | zero => exact ⟨children, rfl, hChildren⟩
    | succ k =>
      obtain ⟨above, hGet, hIs⟩ := hEach k (Nat.le_of_succ_le_succ hk)
      refine ⟨above, hGet, ?_⟩
      rwa [Nat.add_assoc, Nat.add_comm 1 k] at hIs

omit [Sha256] in
theorem treeHeight_mono {count count' : Nat} (h : count ≤ count') :
    treeHeight count ≤ treeHeight count' := by
  unfold treeHeight
  by_cases hOne : count - 1 = 0
  · rw [if_pos hOne]
    exact Nat.zero_le _
  · have hMany : count' - 1 ≠ 0 := by omega
    rw [if_neg hOne, if_neg hMany]
    apply Nat.succ_le_succ
    rw [Nat.le_log2 hMany]
    exact Nat.le_trans (Nat.log2_self_le hOne) (Nat.sub_le_sub_right h 1)

theorem PageStateCache.Holds.clean_node {cache : PageStateCache} {pages pages' : List Bytes}
    {target h i : Nat} {dirty : List Nat} (hCache : cache.Holds pages)
    (hAgree : Merkle.AgreeOutside (leafOf pages) cache.pageCount (leafOf pages') target dirty)
    (hHeight : h ≤ treeHeight target) (hi : i * 2 ^ h < target)
    (hNone : ∀ place ∈ dirty, place / 2 ^ h ≠ i) :
    (cache.levels.getD h [])[i]? =
      some (Merkle.node hashInternal hashEmpty (leafOf pages') target h (i * 2 ^ h)) := by
  have hPow : 0 < 2 ^ h := Nat.two_pow_pos h
  have hOutside : ∀ place ∈ dirty, ¬(i * 2 ^ h ≤ place ∧ place < i * 2 ^ h + 2 ^ h) := by
    rintro place hPlace ⟨hFrom, hTo⟩
    refine hNone place hPlace ?_
    rw [Nat.div_eq_iff hPow]
    omega
  have hHere := fun j => hAgree h _ hi hOutside j
  have hOld : i * 2 ^ h < cache.pageCount :=
    (hHere _ (Nat.le_refl _) (Nat.lt_add_of_pos_right hPow)).1.mpr hi
  have hLevel : h ≤ treeHeight cache.pageCount := by
    by_contra hHigh
    -- the node would be the root of a tree that has grown, and so have a new page below it
    have hFew := le_two_pow_treeHeight cache.pageCount
    have hWide : 2 ^ treeHeight cache.pageCount < 2 ^ h :=
      Nat.pow_lt_pow_right (by decide) (Nat.not_le.mp hHigh)
    have hGrows : cache.pageCount < target := by
      by_contra hNot
      exact hHigh (Nat.le_trans hHeight (treeHeight_mono (Nat.not_lt.mp hNot)))
    have hRoot : i = 0 := by
      by_contra hi0
      have := Nat.le_mul_of_pos_left (2 ^ h) (Nat.pos_of_ne_zero hi0)
      omega
    subst hRoot
    rw [Nat.zero_mul] at hHere
    have hFirst := (hHere cache.pageCount (Nat.zero_le _) (by omega)).1.mpr hGrows
    exact Nat.lt_irrefl _ hFirst
  obtain ⟨row, hRow, hIs⟩ := hCache.levels h hLevel
  rw [List.getD_eq_getElem?_getD, hRow, Option.getD_some, hIs i, if_pos hOld,
    hAgree.node_eq hi hOutside]

theorem PageStateCache.Holds.applyHashed_ok {cache : PageStateCache} {pages pages' : List Bytes}
    {target : Nat} {patches : List QwalPage} {hashed : List HashedPatch} (hCache : cache.Holds pages)
    (h : cache.validateAndHash target patches = .ok hashed)
    (hOverlaid : Overlaid pages target patches pages')
    (hSizes : ∀ page ∈ pages', page.length = cache.pageSize) (hBound : target ≤ u32Max) :
    ∃ next, cache.applyHashed target hashed = some next ∧ next.pageSize = cache.pageSize ∧
      next.Holds pages' := by
  have hPos := (validateAndHash_eq_ok h).1
  have hPatched := hCache.patched h hOverlaid
  obtain ⟨-, rfl, hOrdered, -⟩ := validateAndHash_eq_ok h
  have hWithin : ∀ patch ∈ patches.map QwalPage.hashed, patch.pageIndex < target := by
    intro patch hPatch
    obtain ⟨page, hPage, rfl⟩ := List.mem_map.mp hPatch
    have hNo := hOrdered.pos page hPage
    have hEnd := hOrdered.within page hPage
    simp only [QwalPage.hashed]
    omega
  obtain ⟨leaves, hLeaves, hLeafLevel⟩ := hCache.levels 0 (Nat.zero_le _)
  have hStop : ∀ i, i < target → i < 0 + 2 ^ treeHeight target := fun i hi => by
    have := le_two_pow_treeHeight target
    omega
  have hElsewhere : ∀ i < target, i ∉ dirtyPlaces cache.pageCount target
      (patches.map QwalPage.hashed) → i < cache.pageCount ∧ leafOf pages' i = leafOf pages i := by
    intro i hi hClean
    refine hPatched.elsewhere i (Nat.zero_le _) (hStop i hi) hi fun patch hPatch hIndex => ?_
    exact hClean (mem_dirtyPlaces.mpr (.inl ⟨patch, hPatch, hIndex⟩))
  have hAgree : Merkle.AgreeOutside (leafOf pages) cache.pageCount (leafOf pages') target
      (dirtyPlaces cache.pageCount target (patches.map QwalPage.hashed)) := by
    refine Merkle.agreeOutside (fun i hOld hi => ?_) (fun hLess => ?_) fun i _ hi hClean => ?_
    · by_contra hClean
      exact Nat.not_lt.mpr hOld (hElsewhere i hi hClean).1
    · exact mem_dirtyPlaces.mpr (.inr ⟨hLess, rfl⟩)
    · exact (hElsewhere i hi hClean).2.symm
  have hDirty : ∀ i ∈ dirtyPlaces cache.pageCount target (patches.map QwalPage.hashed),
      i < target := by
    intro i hi
    rcases mem_dirtyPlaces.mp hi with ⟨patch, hPatch, rfl⟩ | ⟨-, rfl⟩
    · exact hWithin patch hPatch
    · omega
  have hPlaces : ∀ patch ∈ patches.map QwalPage.hashed,
      patch.pageIndex < (Merkle.resize target hashEmpty leaves).length := by
    rw [Merkle.length_resize]
    exact hWithin
  obtain ⟨row, hRow, hRowLength, hSet, hKept⟩ := setLeaves_ok hPatched.sorted hPlaces
  rw [Merkle.length_resize] at hRowLength
  have hBottom : Merkle.IsLevel hashInternal hashEmpty (leafOf pages') target 0 row := by
    have hEach : ∀ i (hi : i < row.length), row[i] = leafOf pages' i := by
      intro i hi
      have hIn : i < target := hRowLength ▸ hi
      rw [← Option.some.injEq, ← List.getElem?_eq_getElem hi]
      by_cases hPatch : ∃ patch ∈ patches.map QwalPage.hashed, patch.pageIndex = i
      · obtain ⟨patch, hMem, rfl⟩ := hPatch
        rw [hSet patch hMem, hPatched.here patch hMem]
      · have hNone : ∀ patch ∈ patches.map QwalPage.hashed, patch.pageIndex ≠ i :=
          fun patch hMem hIndex => hPatch ⟨patch, hMem, hIndex⟩
        obtain ⟨hOld, hLeaf⟩ := hPatched.elsewhere i (Nat.zero_le _) (hStop i hIn) hIn hNone
        rw [hKept i hNone, hLeaf]
        refine Merkle.getElem?_resize hIn ?_
        have hHere := hLeafLevel i
        rwa [Nat.pow_zero, Nat.mul_one, if_pos hOld, Merkle.node, if_pos hOld] at hHere
    rw [← hRowLength]
    exact Merkle.isLevel_leaves hEach
  have hSame : ∀ i, i ∈ dirtyPlaces cache.pageCount target (patches.map QwalPage.hashed) ↔
      ∃ place ∈ dirtyPlaces cache.pageCount target (patches.map QwalPage.hashed),
        place / 2 ^ 0 = i := fun i => by simp
  have hRows : ∀ k < treeHeight target, ∀ i, i * 2 ^ (0 + 1 + k) < target →
      (∀ place ∈ dirtyPlaces cache.pageCount target (patches.map QwalPage.hashed),
        place / 2 ^ (0 + 1 + k) ≠ i) →
      (cache.levels.tail.getD k [])[i]? = some (Merkle.node hashInternal hashEmpty (leafOf pages')
        target (0 + 1 + k) (i * 2 ^ (0 + 1 + k))) := by
    intro k hk i hi hNone
    have hClean := hCache.clean_node hAgree (by omega) hi hNone
    rw [List.getD_eq_getElem?_getD, List.getElem?_tail, Nat.add_comm k 1]
    rwa [List.getD_eq_getElem?_getD, Nat.zero_add] at hClean
  obtain ⟨levels, hLevels, hCount, hEach⟩ := refreshLevels_ok hBottom hDirty hSame hRows
  have hHead : cache.levels.head? = some leaves := by
    rw [List.head?_eq_getElem?, hLeaves]
  refine ⟨{ cache with pageCount := target, levels }, ?_, rfl, hCache.isPageSize,
    hOverlaid.count.symm, hPos, hBound, hSizes, fun h hh => ?_, hCount⟩
  · rw [PageStateCache.applyHashed, hHead]
    simp only [Option.bind_eq_bind, Option.bind_some, hRow, hLevels]
    rfl
  · obtain ⟨row, hGet, hIs⟩ := hEach h hh
    exact ⟨row, hGet, by rwa [Nat.zero_add] at hIs⟩

theorem PageStateCache.Holds.overlayHashed_ok {cache : PageStateCache} {pages pages' : List Bytes}
    {target : Nat} {patches : List QwalPage} {hashed : List HashedPatch} (hCache : cache.Holds pages)
    (h : cache.validateAndHash target patches = .ok hashed)
    (hOverlaid : Overlaid pages target patches pages') :
    cache.overlayHashed target hashed = .ok (Sql.identity cache.pageSize target
      (Merkle.node hashInternal hashEmpty (leafOf pages') target (treeHeight target) 0)) := by
  rw [overlayHashed, overlayNode_eq hCache (Nat.dvd_zero _) (hCache.patched h hOverlaid)]

/-- `apply_patch` returns what `overlay` does, the identity of the patched pages, and leaves
a cache of them. -/
theorem PageStateCache.Holds.applyPatch_ok {cache : PageStateCache} {pages pages' : List Bytes}
    {target : Nat} {patches : List QwalPage} {hashed : List HashedPatch} (hCache : cache.Holds pages)
    (h : cache.validateAndHash target patches = .ok hashed)
    (hOverlaid : Overlaid pages target patches pages')
    (hSizes : ∀ page ∈ pages', page.length = cache.pageSize) (hBound : target ≤ u32Max) :
    ∃ next state, cache.overlay target patches = .ok state ∧
      cache.applyPatch target patches = (.ok state, next) ∧
      next.pageSize = cache.pageSize ∧ next.Holds pages' ∧ next.identity = .ok state := by
  have hState := hCache.overlayHashed_ok h hOverlaid
  obtain ⟨next, hNext, hSize, hHolds⟩ := hCache.applyHashed_ok h hOverlaid hSizes hBound
  generalize hIdentity : Sql.identity cache.pageSize target _ = state at hState
  refine ⟨next, state, ?_, ?_, hSize, hHolds, ?_⟩
  · rw [overlay, h, ok_bind, hState]
  · simp only [applyPatch, h, hState, hNext]
  · rw [hHolds.identity_eq, hSize, hHolds.count, hOverlaid.count, hIdentity]

theorem PageStateCache.Holds.eq {cache cache' : PageStateCache} {pages : List Bytes}
    (h : cache.Holds pages) (h' : cache'.Holds pages) (hSize : cache.pageSize = cache'.pageSize) :
    cache = cache' := by
  have hCount : cache.pageCount = cache'.pageCount := h.count.trans h'.count.symm
  have hLevels : cache.levels = cache'.levels := by
    refine List.ext_getElem? fun height => ?_
    by_cases hLow : height ≤ treeHeight cache.pageCount
    · obtain ⟨row, hRow, hLevel⟩ := h.levels height hLow
      obtain ⟨row', hRow', hLevel'⟩ := h'.levels height (hCount ▸ hLow)
      rw [hRow, hRow']
      congr 1
      refine List.ext_getElem? fun i => ?_
      rw [hLevel i, hLevel' i, hCount]
    · rw [List.getElem?_eq_none (by rw [h.height]; omega),
        List.getElem?_eq_none (by rw [h'.height, ← hCount]; omega)]
  obtain ⟨pageSize, pageCount, levels⟩ := cache
  obtain ⟨pageSize', pageCount', levels'⟩ := cache'
  simp only [PageStateCache.mk.injEq]
  exact ⟨hSize, hCount, hLevels⟩

def patchPages (targetPageCount : Nat) (patches : List QwalPage) (pages : List Bytes) : List Bytes :=
  (List.range targetPageCount).map fun i =>
    match patches.find? (·.pageNo = i + 1) with
    | some patch => patch.afterImage
    | none => pages.getD i []

omit [Sha256] in
theorem getD_patchPages {target i : Nat} {patches : List QwalPage} {pages : List Bytes}
    (hi : i < target) : (patchPages target patches pages).getD i [] =
      match patches.find? (·.pageNo = i + 1) with
      | some patch => patch.afterImage
      | none => pages.getD i [] := by
  have hLength : i < (patchPages target patches pages).length := by
    rw [patchPages, List.length_map, List.length_range]
    exact hi
  rw [List.getD_eq_getElem?_getD, List.getElem?_eq_getElem hLength, Option.getD_some]
  simp [patchPages]

omit [Sha256] in
theorem OrderedPages.nodup {pageSize target : Nat} {patches : List QwalPage}
    (h : OrderedPages pageSize target patches) : (patches.map (·.pageNo)).Nodup := by
  rw [List.Nodup, List.pairwise_map]
  exact h.sorted.imp fun hLess => Nat.ne_of_lt hLess

omit [Sha256] in
theorem OrderedPages.overlaid_patchPages {pageSize target : Nat} {patches : List QwalPage}
    (h : OrderedPages pageSize target patches) (pages : List Bytes) :
    Overlaid pages target patches (patchPages target patches pages) := by
  refine ⟨by rw [patchPages, List.length_map, List.length_range], fun patch hPatch => ?_,
    fun i hi hNone _ => ?_⟩
  · have hPos := h.pos patch hPatch
    have hWithin := h.within patch hPatch
    have hPlace : patch.pageNo - 1 + 1 = patch.pageNo := Nat.sub_add_cancel hPos
    rw [getD_patchPages (by omega), hPlace, Assoc.find?_key h.nodup hPatch]
  · have hMissing : patches.find? (·.pageNo = i + 1) = none :=
      List.find?_eq_none.mpr fun patch hPatch => by simpa using hNone patch hPatch
    rw [getD_patchPages hi, hMissing]

theorem PageStateCache.Holds.size_patchPages {cache : PageStateCache} {pages : List Bytes}
    {target : Nat} {patches : List QwalPage} {hashed : List HashedPatch} (hCache : cache.Holds pages)
    (h : cache.validateAndHash target patches = .ok hashed) :
    ∀ page ∈ patchPages target patches pages, page.length = cache.pageSize := by
  obtain ⟨-, -, hOrdered, hGrowth⟩ := validateAndHash_eq_ok h
  intro page hPage
  obtain ⟨i, hi, rfl⟩ := List.mem_map.mp hPage
  rw [List.mem_range] at hi
  cases hFind : patches.find? (·.pageNo = i + 1) with
  | some patch => exact hOrdered.sizes patch (List.mem_of_find?_eq_some hFind)
  | none =>
    have hOld : i < pages.length := by
      by_contra hNew
      obtain ⟨patch, hPatch, hNo⟩ := hGrowth i (by rw [hCache.count]; omega) hi
      exact List.find?_eq_none.mp hFind patch hPatch (decide_eq_true hNo)
    refine hCache.sizes _ ?_
    rw [List.getD_eq_getElem?_getD, List.getElem?_eq_getElem hOld, Option.getD_some]
    exact List.getElem_mem hOld

def PageStateCache.applyPatches (cache : PageStateCache) (steps : List (Nat × List QwalPage)) :
    PageStateCache :=
  steps.foldl (fun cache step => (cache.applyPatch step.1 step.2).2) cache

def PageStateCache.patchedPages (cache : PageStateCache) :
    List (Nat × List QwalPage) → List Bytes → List Bytes
  | [], pages => pages
  | (target, patches) :: steps, pages =>
    (cache.applyPatch target patches).2.patchedPages steps
      (if (cache.validateAndHash target patches).isOk then patchPages target patches pages else pages)

theorem PageStateCache.applyPatch_of_rejected {cache : PageStateCache} {target : Nat}
    {patches : List QwalPage} {error : Error} (h : cache.validateAndHash target patches = .error error) :
    cache.overlay target patches = .error error ∧
      cache.applyPatch target patches = (.error error, cache) := by
  refine ⟨?_, by simp only [applyPatch, h]⟩
  rw [overlay, h]
  rfl

theorem PageStateCache.Holds.after_applyPatches {cache : PageStateCache} {pages : List Bytes}
    {steps : List (Nat × List QwalPage)} (hCache : cache.Holds pages)
    (hTyped : ∀ step ∈ steps, step.1 ≤ u32Max) :
    (cache.applyPatches steps).pageSize = cache.pageSize ∧
      (cache.applyPatches steps).Holds (cache.patchedPages steps pages) := by
  induction steps generalizing cache pages with
  | nil => exact ⟨rfl, hCache⟩
  | cons step steps ih =>
    obtain ⟨target, patches⟩ := step
    obtain ⟨hFirst, hRest⟩ := List.forall_mem_cons.mp hTyped
    cases hValid : cache.validateAndHash target patches with
    | error error =>
      have hSame := (applyPatch_of_rejected hValid).2
      obtain ⟨hSize, hHolds⟩ := ih hCache hRest
      simp only [applyPatches, List.foldl_cons, patchedPages, hSame, hValid, Except.isOk,
        Except.toBool, Bool.false_eq_true, if_false]
      exact ⟨hSize, hHolds⟩
    | ok hashed =>
      have hOrdered := (validateAndHash_eq_ok hValid).2.2.1
      obtain ⟨next, state, -, hNext, hNextSize, hNextHolds, -⟩ := hCache.applyPatch_ok hValid
        (hOrdered.overlaid_patchPages pages) (hCache.size_patchPages hValid) hFirst
      obtain ⟨hSize, hHolds⟩ := ih hNextHolds hRest
      simp only [applyPatches, List.foldl_cons, patchedPages, hNext, hValid, Except.isOk,
        Except.toBool, if_true]
      exact ⟨hSize.trans hNextSize, hHolds⟩

omit [Sha256] in
theorem require_ne_panicked {condition : Prop} [Decidable condition] {error : Error}
    (h : error ≠ .panicked) : require condition error ≠ .error .panicked := by
  unfold require
  split
  · nofun
  · exact fun hEq => h (Except.error.inj hEq)

omit [Sha256] in
theorem u32TryFrom_ne_panicked {message : String} {n : Nat} :
    u32TryFrom message n ≠ .error .panicked := by
  unfold u32TryFrom
  split
  · nofun
  · nofun

theorem PageStateCache.hashPatches_ne_panicked {cache : PageStateCache} {target previous : Nat}
    {patches : List QwalPage} : cache.hashPatches target previous patches ≠ .error .panicked := by
  induction patches generalizing previous with
  | nil => nofun
  | cons patch patches ih =>
    refine bind_ne_error (require_ne_panicked nofun) fun _ => ?_
    refine bind_ne_error (require_ne_panicked nofun) fun _ => ?_
    refine bind_ne_error (require_ne_panicked nofun) fun _ => ?_
    refine bind_ne_error (require_ne_panicked nofun) fun _ => ?_
    exact bind_ne_error ih fun _ => nofun

omit [Sha256] in
theorem checkNewSuffix_ne_panicked {pageCount offset : Nat} {patches : List QwalPage} :
    checkNewSuffix pageCount offset patches ≠ .error .panicked := by
  induction patches generalizing offset with
  | nil => nofun
  | cons patch patches ih =>
    refine bind_ne_error u32TryFrom_ne_panicked fun _ => ?_
    exact bind_ne_error (require_ne_panicked nofun) fun _ => ih

theorem PageStateCache.validateAndHash_ne_panicked {cache : PageStateCache} {target : Nat}
    {patches : List QwalPage} : cache.validateAndHash target patches ≠ .error .panicked := by
  refine bind_ne_error (require_ne_panicked fun h => (by cases h)) fun _ => ?_
  refine bind_ne_error hashPatches_ne_panicked fun hashed => ?_
  split
  · refine bind_ne_error (require_ne_panicked fun h => (by cases h)) fun _ => ?_
    exact bind_ne_error checkNewSuffix_ne_panicked fun _ h => (by cases h)
  · intro h
    cases h

/-- After any sequence of patches the cache is the one that rebuilding gives, and the next
patch either is refused without an effect or has the same outcome three times: looked ahead,
installed, and rebuilt. -/
theorem cache_agrees_with_rebuilding {pageSize : Nat} {pages : List Bytes} (hSize : IsPageSize pageSize)
    (hSome : pages ≠ []) (hSizes : ∀ page ∈ pages, page.length = pageSize)
    (hCount : pages.length ≤ u32Max) {steps : List (Nat × List QwalPage)}
    (hTyped : ∀ step ∈ steps, step.1 ≤ u32Max) :
    ∃ cache, PageStateCache.fromPages pageSize pages = .ok cache ∧
      PageStateCache.fromPages pageSize (cache.patchedPages steps pages) =
        .ok (cache.applyPatches steps) ∧
      ∀ (target : Nat) (patches : List QwalPage), target ≤ u32Max →
        (∃ error, error ≠ .panicked ∧
          (cache.applyPatches steps).validateAndHash target patches = .error error ∧
          (cache.applyPatches steps).overlay target patches = .error error ∧
          (cache.applyPatches steps).applyPatch target patches =
            (.error error, cache.applyPatches steps)) ∨
        ∃ hashed state rebuilt,
          (cache.applyPatches steps).validateAndHash target patches = .ok hashed ∧
          (cache.applyPatches steps).overlay target patches = .ok state ∧
          (cache.applyPatches steps).applyPatch target patches = (.ok state, rebuilt) ∧
          PageStateCache.fromPages pageSize
            (patchPages target patches (cache.patchedPages steps pages)) = .ok rebuilt ∧
          rebuilt.identity = .ok state := by
  obtain ⟨cache, hCache⟩ := PageStateCache.fromPages_ok hSize hSizes (List.length_pos_iff.mpr hSome) hCount
  obtain ⟨hCacheSize, hHolds⟩ := PageStateCache.holds_of_fromPages hCache
  obtain ⟨hAfterSize, hAfter⟩ := hHolds.after_applyPatches hTyped
  rw [hCacheSize] at hAfterSize
  have hRebuild : ∀ {other : PageStateCache} {pages' : List Bytes}, other.pageSize = pageSize →
      other.Holds pages' → PageStateCache.fromPages pageSize pages' = .ok other := by
    intro other pages' hOther hHolds'
    obtain ⟨built, hBuilt⟩ := PageStateCache.fromPages_ok hSize (hOther ▸ hHolds'.sizes)
      (hHolds'.count ▸ hHolds'.pos) (hHolds'.count ▸ hHolds'.bound)
    obtain ⟨hBuiltSize, hBuiltHolds⟩ := PageStateCache.holds_of_fromPages hBuilt
    rw [hBuilt, hBuiltHolds.eq hHolds' (hBuiltSize.trans hOther.symm)]
  refine ⟨cache, hCache, hRebuild hAfterSize hAfter, fun target patches hTarget => ?_⟩
  cases hValid : (cache.applyPatches steps).validateAndHash target patches with
  | error error =>
    obtain ⟨hOverlay, hApply⟩ := PageStateCache.applyPatch_of_rejected hValid
    refine .inl ⟨error, ?_, rfl, hOverlay, hApply⟩
    rintro rfl
    exact PageStateCache.validateAndHash_ne_panicked hValid
  | ok hashed =>
    have hOrdered := (PageStateCache.validateAndHash_eq_ok hValid).2.2.1
    obtain ⟨next, state, hOverlay, hApply, hNextSize, hNext, hState⟩ := hAfter.applyPatch_ok hValid
      (hOrdered.overlaid_patchPages _) (hAfter.size_patchPages hValid) hTarget
    exact .inr ⟨hashed, state, next, rfl, hOverlay, hApply,
      hRebuild (hNextSize.trans hAfterSize) hNext, hState⟩

end Hashing

namespace Sample

attribute [local instance] Sha256.rolling

def onePage : List Bytes := [List.replicate 512 1]

def growAndShrink : List (Nat × List QwalPage) := [(2, [⟨2, List.replicate 512 7⟩]), (1, [])]

theorem growAndShrink_is_rebuilt :
    ∃ cache, PageStateCache.fromPages 512 onePage = .ok cache ∧
      PageStateCache.fromPages 512 (cache.patchedPages growAndShrink onePage) =
        .ok (cache.applyPatches growAndShrink) := by
  obtain ⟨cache, hCache, hRebuilt, -⟩ := cache_agrees_with_rebuilding (by decide : IsPageSize 512)
    (by decide : onePage ≠ []) (by decide +kernel) (by decide)
    (by decide : ∀ step ∈ growAndShrink, step.1 ≤ u32Max)
  exact ⟨cache, hCache, hRebuilt⟩

end Sample

end Rhiza.Sql
