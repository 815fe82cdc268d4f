import Rhiza.Sql.WalCapture

/-! # The proposer and its followers install the same database

The proposer promotes the staging copy into which it wrote every captured page.
A follower sets the length of its own copy and writes the pages that differ.
-/

namespace Rhiza.Sql

open Rhiza.Core Rhiza.Library

def overwrite (pageSize : Nat) (pages : List QwalPage) (file : Bytes) : Bytes :=
  pages.foldl (fun file page => Paged.writeAt ((page.pageNo - 1) * pageSize) page.afterImage file) file

theorem OrderedPages.tail {pageSize count : Nat} {page : QwalPage} {pages : List QwalPage}
    (h : OrderedPages pageSize count (page :: pages)) : OrderedPages pageSize count pages where
  sorted := (List.pairwise_cons.mp h.sorted).2
  pos patch hPatch := h.pos patch (List.mem_cons_of_mem _ hPatch)
  within patch hPatch := h.within patch (List.mem_cons_of_mem _ hPatch)
  sizes patch hPatch := h.sizes patch (List.mem_cons_of_mem _ hPatch)

theorem OrderedPages.filter {pageSize count : Nat} {pages : List QwalPage}
    (h : OrderedPages pageSize count pages) (p : QwalPage → Bool) :
    OrderedPages pageSize count (pages.filter p) where
  sorted := h.sorted.filter p
  pos patch hPatch := h.pos patch (List.mem_filter.mp hPatch).1
  within patch hPatch := h.within patch (List.mem_filter.mp hPatch).1
  sizes patch hPatch := h.sizes patch (List.mem_filter.mp hPatch).1

theorem OrderedPages.end_le {pageSize count : Nat} {pages : List QwalPage} {page : QwalPage}
    (h : OrderedPages pageSize count pages) (hPage : page ∈ pages) :
    (page.pageNo - 1) * pageSize + pageSize ≤ count * pageSize := by
  have hPos := h.pos page hPage
  have hWithin := h.within page hPage
  exact Paged.page_end_le (by omega)

structure Overwritten (pageSize count : Nat) (pages : List QwalPage) (file result : Bytes) : Prop where
  length : result.length = count * pageSize
  written : ∀ page ∈ pages, Paged.page pageSize (page.pageNo - 1) result = page.afterImage
  kept : ∀ i, (∀ page ∈ pages, page.pageNo ≠ i + 1) →
    Paged.page pageSize i result = Paged.page pageSize i file

theorem overwritten_overwrite {pageSize count : Nat} {pages : List QwalPage} {file : Bytes}
    (hPages : OrderedPages pageSize count pages) (hLength : file.length = count * pageSize) :
    Overwritten pageSize count pages file (overwrite pageSize pages file) := by
  induction pages generalizing file with
  | nil => exact ⟨hLength, nofun, fun i _ => rfl⟩
  | cons first pages ih =>
    have hFirst : first ∈ first :: pages := List.mem_cons_self
    have hEnd := hPages.end_le hFirst
    have hSize := hPages.sizes first hFirst
    have hWrite : (Paged.writeAt ((first.pageNo - 1) * pageSize) first.afterImage file).length =
        count * pageSize := by
      rw [Paged.length_writeAt (by omega), hLength]
    have hRest := ih hPages.tail hWrite
    have hOther : ∀ page ∈ pages, page.pageNo ≠ first.pageNo := fun page hPage =>
      Nat.ne_of_gt ((List.pairwise_cons.mp hPages.sorted).1 page hPage)
    refine ⟨hRest.length, fun page hPage => ?_, fun i hNone => ?_⟩
    · rcases List.mem_cons.mp hPage with rfl | hLater
      · have hKept := hRest.kept (page.pageNo - 1) fun later hLater hNo =>
          hOther later hLater (by have := hPages.pos page hFirst; omega)
        exact hKept.trans (Paged.page_writeAt_self hSize)
      · exact hRest.written page hLater
    · have hNe : i ≠ first.pageNo - 1 := by
        have hNo := hNone first hFirst
        have hPos := hPages.pos first hFirst
        omega
      rw [overwrite, List.foldl_cons]
      exact (hRest.kept i fun page hPage => hNone page (List.mem_cons_of_mem _ hPage)).trans
        (Paged.page_writeAt_other hSize (by omega) hNe)

theorem writePages_ok {pageSize count : Nat} {pages : List QwalPage} {file : Bytes}
    (hPages : OrderedPages pageSize count pages) (hBound : count * pageSize < u64Bound) :
    writePages pageSize pages file = .ok (overwrite pageSize pages file) := by
  induction pages generalizing file with
  | nil => rfl
  | cons first pages ih =>
    have hEnd := hPages.end_le List.mem_cons_self
    rw [writePages, require, if_pos (by omega)]
    exact ih hPages.tail

theorem verifyPages_ok {pageSize count : Nat} {pages : List QwalPage} {file : Bytes}
    (hPages : OrderedPages pageSize count pages) (hBound : count * pageSize < u64Bound)
    (hLength : file.length = count * pageSize)
    (hWritten : ∀ page ∈ pages, Paged.page pageSize (page.pageNo - 1) file = page.afterImage) :
    verifyPages pageSize file pages = .ok () := by
  induction pages with
  | nil => rfl
  | cons first pages ih =>
    have hEnd := hPages.end_le List.mem_cons_self
    have hRead : readExact ((first.pageNo - 1) * pageSize) pageSize file = .ok first.afterImage := by
      rw [readExact, Paged.readAt_page (by omega), hWritten first List.mem_cons_self]
    rw [verifyPages, require, if_pos (by omega), hRead]
    simp only [bind, Except.bind, require, if_true]
    exact ih hPages.tail fun page hPage => hWritten page (List.mem_cons_of_mem _ hPage)

theorem takeBytes_eq_ok {n : Nat} {truncated : String} {rest front rest' : Bytes}
    (h : takeBytes n truncated rest = .ok (front, rest')) : front.length = n := by
  unfold takeBytes at h
  split at h
  · cases h
    rw [List.length_take]
    omega
  · cases h

structure CaptureState.Fits (s : CaptureState) (pageSize : Nat) : Prop where
  sorted : Assoc.Sorted s.pages
  pos : ∀ page ∈ s.pages, 0 < page.1
  sizes : ∀ page ∈ s.pages, page.2.length = pageSize
  bound : s.finalDbPages ≤ maxPageNo

theorem captureFrame_fits {order : ChecksumOrder} {salts : Nat × Nat}
    {pageSize maxChangedBytes : Nat} {s s' : CaptureState} {rest rest' : Bytes}
    (h : captureFrame order salts pageSize maxChangedBytes s rest = .ok (s', rest'))
    (hs : s.Fits pageSize) : s'.Fits pageSize := by
  obtain ⟨_, -, h⟩ := bind_ok_iff.mp h
  obtain ⟨⟨frameHeader, rest₁⟩, -, h⟩ := bind_ok_iff.mp h
  obtain ⟨_, hNo, h⟩ := bind_ok_iff.mp h
  obtain ⟨_, hCommit, h⟩ := bind_ok_iff.mp h
  obtain ⟨_, -, h⟩ := bind_ok_iff.mp h
  obtain ⟨⟨afterImage, rest₂⟩, hImage, h⟩ := bind_ok_iff.mp h
  obtain ⟨_, -, h⟩ := bind_ok_iff.mp h
  rw [require_eq_ok] at hNo hCommit
  have hSize := takeBytes_eq_ok hImage
  have hState : s'.pages = Assoc.insert (beU32 0 frameHeader) afterImage s.pages ∧
      s'.finalDbPages = if beU32 4 frameHeader ≠ 0 then beU32 4 frameHeader else s.finalDbPages := by
    split at h
    · obtain ⟨_, -, h⟩ := bind_ok_iff.mp h
      cases h
      simp
    · cases h
      simp
  obtain ⟨hPages, hFinal⟩ := hState
  refine ⟨?_, fun page hPage => ?_, fun page hPage => ?_, ?_⟩
  · rw [hPages]
    exact hs.sorted.insert _ _
  · rw [hPages] at hPage
    rcases Assoc.mem_of_mem_insert hPage with rfl | hOld
    · exact hNo.1
    · exact hs.pos page hOld
  · rw [hPages] at hPage
    rcases Assoc.mem_of_mem_insert hPage with rfl | hOld
    · exact hSize
    · exact hs.sizes page hOld
  · rw [hFinal]
    split
    · exact hCommit
    · exact hs.bound

theorem captureFrames_fits {order : ChecksumOrder} {salts : Nat × Nat}
    {pageSize maxChangedBytes count : Nat} {s s' : CaptureState} {rest rest' : Bytes}
    (h : captureFrames order salts pageSize maxChangedBytes count s rest = .ok (s', rest'))
    (hs : s.Fits pageSize) : s'.Fits pageSize := by
  induction count generalizing s rest with
  | zero =>
    cases h
    exact hs
  | succ count ih =>
    obtain ⟨⟨next, rest₁⟩, hFrame, h⟩ := bind_ok_iff.mp h
    exact ih h (captureFrame_fits hFrame hs)

/-- A committed transaction that `capture_wal` accepts. -/
structure WalCommit.Fits (commit : WalCommit) : Prop where
  isPageSize : IsPageSize commit.pageSize
  pos : 0 < commit.targetDbPages
  bound : commit.targetDbPages ≤ maxPageNo
  fileBytes : commit.targetFileBytes = commit.targetDbPages * commit.pageSize
  pages : OrderedPages commit.pageSize commit.targetDbPages commit.pages

theorem finishCapture_fits {baseDbPages pageSize : Nat} {s : CaptureState} {commit : WalCommit}
    (h : finishCapture baseDbPages pageSize s = .ok (.committed commit)) (hs : s.Fits pageSize)
    (hSize : IsPageSize pageSize) : commit.Fits := by
  obtain ⟨_, hMarker, h⟩ := bind_ok_iff.mp h
  rw [require_eq_ok] at hMarker
  have hCommit : commit =
      { pageSize
        targetDbPages := s.finalDbPages
        targetFileBytes := s.finalDbPages * pageSize
        pages := (s.pages.filter fun page => page.1 ≤ s.finalDbPages).map
          fun page => ⟨page.1, page.2⟩ } := by
    split at h
    · obtain ⟨_, -, h⟩ := bind_ok_iff.mp h
      obtain ⟨_, -, h⟩ := bind_ok_iff.mp h
      cases h
      rfl
    · obtain ⟨_, -, h⟩ := bind_ok_iff.mp h
      cases h
      rfl
  subst hCommit
  refine ⟨hSize, Nat.pos_of_ne_zero hMarker.2, hs.bound, rfl, ?_, ?_, ?_, ?_⟩
  · exact List.pairwise_map.mpr (hs.sorted.filter _)
  · intro patch hPatch
    obtain ⟨page, hPage, rfl⟩ := List.mem_map.mp hPatch
    exact hs.pos page (List.mem_filter.mp hPage).1
  · intro patch hPatch
    obtain ⟨page, hPage, rfl⟩ := List.mem_map.mp hPatch
    exact of_decide_eq_true (List.mem_filter.mp hPage).2
  · intro patch hPatch
    obtain ⟨page, hPage, rfl⟩ := List.mem_map.mp hPatch
    exact hs.sizes page (List.mem_filter.mp hPage).1

theorem captureWal_fits {wal : Bytes} {baseDbPages maxChangedBytes : Nat} {commit : WalCommit}
    (h : captureWal wal baseDbPages maxChangedBytes = .ok (.committed commit)) : commit.Fits := by
  obtain ⟨_, -, h⟩ := bind_ok_iff.mp h
  split at h
  · cases h
  obtain ⟨⟨header, rest⟩, -, h⟩ := bind_ok_iff.mp h
  obtain ⟨order, -, h⟩ := bind_ok_iff.mp h
  obtain ⟨_, -, h⟩ := bind_ok_iff.mp h
  obtain ⟨_, hSize, h⟩ := bind_ok_iff.mp h
  obtain ⟨_, -, h⟩ := bind_ok_iff.mp h
  obtain ⟨_, -, h⟩ := bind_ok_iff.mp h
  obtain ⟨_, -, h⟩ := bind_ok_iff.mp h
  obtain ⟨⟨s, rest'⟩, hFrames, h⟩ := bind_ok_iff.mp h
  obtain ⟨_, -, h⟩ := bind_ok_iff.mp h
  refine finishCapture_fits h (captureFrames_fits hFrames ?_) (require_eq_ok.mp hSize)
  exact ⟨List.Pairwise.nil, fun _ hPage => absurd hPage List.not_mem_nil,
    fun _ hPage => absurd hPage List.not_mem_nil, Nat.zero_le _⟩

def differsFrom (base : Bytes) (pageSize basePages : Nat) (page : QwalPage) : Bool :=
  decide (page.pageNo ≤ basePages → Paged.page pageSize (page.pageNo - 1) base ≠ page.afterImage)

theorem readExact_eq_ok {offset n : Nat} {file bytes : Bytes} (h : readExact offset n file = .ok bytes) :
    bytes = (file.drop offset).take n := by
  unfold readExact Paged.readAt at h
  split at h
  · cases h
  · rename_i hRead
    cases h
    split at hRead
    · exact (Option.some.inj hRead).symm
    · cases hRead

theorem materializePages_eq_ok {base : Bytes} {pageSize basePages : Nat}
    {pages changed changed' : List QwalPage} {target target' : Bytes}
    (h : materializePages base pageSize basePages pages target changed = .ok (changed', target')) :
    target' = overwrite pageSize pages target ∧
      changed' = changed ++ pages.filter (differsFrom base pageSize basePages) := by
  induction pages generalizing target changed with
  | nil =>
    cases h
    exact ⟨rfl, (List.append_nil _).symm⟩
  | cons first pages ih =>
    obtain ⟨_, -, h⟩ := bind_ok_iff.mp h
    obtain ⟨differs, hDiffers, h⟩ := bind_ok_iff.mp h
    have hFirst : differs = differsFrom base pageSize basePages first := by
      unfold differsFromBase at hDiffers
      split at hDiffers
      · rename_i hOld
        obtain ⟨basePage, hRead, hDiffers⟩ := bind_ok_iff.mp hDiffers
        cases hDiffers
        obtain rfl := readExact_eq_ok hRead
        simp [differsFrom, hOld, Paged.page]
      · rename_i hNew
        cases hDiffers
        simp [differsFrom, hNew]
    obtain ⟨hTarget, hChanged⟩ := ih h
    refine ⟨hTarget, ?_⟩
    rw [hChanged, hFirst, List.filter_cons]
    split
    · rw [List.append_assoc, List.singleton_append]
    · rfl

structure Materialized (base : Bytes) (pageSize count : Nat) (changed : List QwalPage)
    (target : Bytes) : Prop where
  pageSize_eq : sqlitePageSize target = .ok pageSize
  pages : OrderedPages pageSize count changed
  overwritten : Overwritten pageSize count changed (Paged.setLen (count * pageSize) base) target

theorem Materialized.length {base target : Bytes} {pageSize count : Nat} {changed : List QwalPage}
    (h : Materialized base pageSize count changed target) : target.length = count * pageSize :=
  h.overwritten.length

theorem Materialized.overwrite_eq {base target : Bytes} {pageSize count : Nat}
    {changed : List QwalPage} (h : Materialized base pageSize count changed target) :
    overwrite pageSize changed (Paged.setLen (count * pageSize) base) = target := by
  have hOwn := overwritten_overwrite h.pages (Paged.length_setLen (count * pageSize) base)
  refine Paged.eq_of_pages hOwn.length h.length fun i hi => ?_
  by_cases hChanged : ∃ page ∈ changed, page.pageNo = i + 1
  · obtain ⟨page, hPage, hNo⟩ := hChanged
    obtain rfl : page.pageNo - 1 = i := by omega
    rw [hOwn.written page hPage, h.overwritten.written page hPage]
  · have hNone : ∀ page ∈ changed, page.pageNo ≠ i + 1 := fun page hPage hNo =>
      hChanged ⟨page, hPage, hNo⟩
    rw [hOwn.kept i hNone, h.overwritten.kept i hNone]

theorem getD_chunksExact {pageSize i : Nat} {file : Bytes} (hi : i < file.length / pageSize) :
    (Paged.chunksExact pageSize file).getD i [] = Paged.page pageSize i file := by
  have hLength : i < (Paged.chunksExact pageSize file).length := by
    rw [Paged.length_chunksExact]
    exact hi
  rw [List.getD_eq_getElem?_getD, List.getElem?_eq_getElem hLength, Option.getD_some,
    Paged.getElem_chunksExact]

theorem Materialized.overlaid {base target : Bytes} {pageSize count : Nat} {changed : List QwalPage}
    (h : Materialized base pageSize count changed target) (hSize : 0 < pageSize) :
    Overlaid (Paged.chunksExact pageSize base) count changed (Paged.chunksExact pageSize target) := by
  have hCount : target.length / pageSize = count := by
    rw [h.length, Nat.mul_div_cancel _ hSize]
  refine ⟨by rw [Paged.length_chunksExact, hCount], fun page hPage => ?_, fun i hi hNone hBase => ?_⟩
  · have hPos := h.pages.pos page hPage
    have hWithin := h.pages.within page hPage
    rw [getD_chunksExact (by omega), h.overwritten.written page hPage]
  · rw [Paged.length_chunksExact] at hBase
    have hEnd : i * pageSize + pageSize ≤ base.length :=
      Nat.le_trans (Paged.page_end_le hBase) (Nat.div_mul_le_self _ _)
    rw [getD_chunksExact (by omega), getD_chunksExact hBase, h.overwritten.kept i hNone,
      Paged.page_setLen hEnd (Paged.page_end_le hi)]

theorem materialized_of_committed {base target : Bytes} {pageSize : Nat} {commit : WalCommit}
    {changed : List QwalPage} (hFits : commit.Fits)
    (hDone : materializeWalCapture base base pageSize base.length (.committed commit) =
      .ok (changed, target)) :
    Materialized base pageSize commit.targetDbPages changed target := by
  obtain ⟨_, hSize, h⟩ := bind_ok_iff.mp hDone
  obtain ⟨_, -, h⟩ := bind_ok_iff.mp h
  obtain ⟨_, hBytes, h⟩ := bind_ok_iff.mp h
  obtain ⟨⟨changed', target'⟩, hPages, h⟩ := bind_ok_iff.mp h
  obtain ⟨_, -, h⟩ := bind_ok_iff.mp h
  obtain ⟨headerSize, hHeader, h⟩ := bind_ok_iff.mp h
  obtain ⟨_, hSame, h⟩ := bind_ok_iff.mp h
  cases h
  obtain ⟨rfl, rfl⟩ := materializePages_eq_ok hPages
  rw [require_eq_ok] at hSize hBytes hSame
  subst hSame hSize
  rw [hBytes] at hHeader
  rw [List.nil_append, hBytes]
  have hAll := overwritten_overwrite hFits.pages
    (Paged.length_setLen (commit.targetDbPages * commit.pageSize) base)
  refine ⟨hHeader, hFits.pages.filter _, hAll.length, fun page hPage => ?_, fun i hNone => ?_⟩
  · exact hAll.written page (List.mem_filter.mp hPage).1
  by_cases hCaptured : ∃ page ∈ commit.pages, page.pageNo = i + 1
  · -- a captured page that was not kept is as it is in the base
    obtain ⟨page, hPage, hNo⟩ := hCaptured
    have hSame : ¬differsFrom base commit.pageSize (base.length / commit.pageSize) page := fun hDiffers =>
      hNone page (List.mem_filter.mpr ⟨hPage, hDiffers⟩) hNo
    simp only [differsFrom, decide_eq_true_eq, Classical.not_imp, not_not] at hSame
    obtain ⟨hOld, hImage⟩ := hSame
    obtain rfl : page.pageNo - 1 = i := by omega
    have hEnd : (page.pageNo - 1) * commit.pageSize + commit.pageSize ≤ base.length :=
      Nat.le_trans (Paged.page_end_le (by omega)) (Nat.div_mul_le_self _ _)
    rw [hAll.written page hPage, Paged.page_setLen hEnd (hFits.pages.end_le hPage), hImage]
  · exact hAll.kept i fun page hPage hNo => hCaptured ⟨page, hPage, hNo⟩

theorem closed_of_sqlitePageSize {file : Bytes} {pageSize : Nat} (h : sqlitePageSize file = .ok pageSize) :
    IsPageSize pageSize ∧ file.length = file.length / pageSize * pageSize := by
  obtain ⟨header, -, h⟩ := bind_ok_iff.mp h
  obtain ⟨size, hSize, h⟩ := bind_ok_iff.mp h
  obtain ⟨_, hWhole, h⟩ := bind_ok_iff.mp h
  obtain ⟨_, -, h⟩ := bind_ok_iff.mp h
  cases h
  obtain ⟨_, -, hSize⟩ := bind_ok_iff.mp hSize
  obtain ⟨_, hValid, hSize⟩ := bind_ok_iff.mp hSize
  cases hSize
  exact ⟨require_eq_ok.mp hValid,
    (Nat.div_mul_cancel (Nat.dvd_of_mod_eq_zero (require_eq_ok.mp hWhole).2)).symm⟩

theorem materialized_of_prepared {base target wal : Bytes} {pageSize maxChangedBytes : Nat}
    {capture : WalCapture} {changed : List QwalPage}
    (hCapture : captureWal wal (base.length / pageSize) maxChangedBytes = .ok capture)
    (hDone : materializeWalCapture base base pageSize base.length capture = .ok (changed, target)) :
    ∃ count, Materialized base pageSize count changed target := by
  cases capture with
  | committed commit =>
    exact ⟨commit.targetDbPages, materialized_of_committed (captureWal_fits hCapture) hDone⟩
  | noChange =>
    obtain ⟨_, -, h⟩ := bind_ok_iff.mp hDone
    obtain ⟨headerSize, hHeader, h⟩ := bind_ok_iff.mp h
    obtain ⟨_, hSame, h⟩ := bind_ok_iff.mp h
    cases h
    obtain rfl := require_eq_ok.mp hSame
    have hClosed := (closed_of_sqlitePageSize hHeader).2
    refine ⟨base.length / headerSize, hHeader, ⟨List.Pairwise.nil, nofun, nofun, nofun⟩, hClosed,
      nofun, fun i _ => ?_⟩
    rw [← hClosed, Paged.setLen_self]

theorem stateFileBytes_eq_ok {state : StateIdentity} {label : String} {bytes : Nat}
    (h : stateFileBytes state label = .ok bytes) :
    bytes = state.pageSize * state.pageCount ∧ bytes < u64Bound := by
  obtain ⟨_, -, h⟩ := bind_ok_iff.mp h
  obtain ⟨_, -, h⟩ := bind_ok_iff.mp h
  obtain ⟨_, -, h⟩ := bind_ok_iff.mp h
  obtain ⟨_, hBound, h⟩ := bind_ok_iff.mp h
  cases h
  exact ⟨rfl, require_eq_ok.mp hBound⟩

theorem QwalEnvelope.fileBytes_of_validate [SqlResultJson] {effect : QwalEnvelope} {u : Unit}
    (h : effect.validate = .ok u) :
    ∃ baseBytes targetBytes, stateFileBytes effect.baseState "base" = .ok baseBytes ∧
      stateFileBytes effect.targetState "target" = .ok targetBytes := by
  obtain ⟨_, -, h⟩ := bind_ok_iff.mp h
  obtain ⟨_, -, h⟩ := bind_ok_iff.mp h
  obtain ⟨baseBytes, hBase, h⟩ := bind_ok_iff.mp h
  obtain ⟨targetBytes, hTarget, -⟩ := bind_ok_iff.mp h
  exact ⟨baseBytes, targetBytes, hBase, hTarget⟩

structure EffectContext where
  clusterId : ClusterId
  epoch : Nat
  configurationId : Nat
  recoveryGeneration : Nat
  baseIndex : Nat
  baseHash : LogHash
  materializerFingerprint : String
  receipts : List QwalReceipt

section Effects

variable [Sha256]

/-- The part of `prepare_qwal_effect` after the capture, on a staging copy of the
base: the envelope and the bytes of the prepared target. -/
def prepareQwalEffect (cache : PageStateCache) (context : EffectContext) (base : Bytes)
    (capture : WalCapture) : Except Error (QwalEnvelope × Bytes) := do
  let baseState ← cache.identity
  let (pages, target) ← materializeWalCapture base base baseState.pageSize base.length capture
  let targetPageCount ← u32TryFrom "SQLite target page count overflows"
    (target.length / baseState.pageSize)
  let targetState ← cache.overlay targetPageCount pages
  let effect : QwalEnvelope :=
    { clusterId := context.clusterId
      epoch := context.epoch
      configurationId := context.configurationId
      recoveryGeneration := context.recoveryGeneration
      baseIndex := context.baseIndex
      baseHash := context.baseHash
      baseState
      targetState
      materializerFingerprint := context.materializerFingerprint
      receipts := context.receipts
      pages }
  pure (effect, target)

/-- The bytes that `promote_prepared_target` renames into place. `seals` says that the
base and the target are still as they were sealed. -/
def promotePreparedTarget (seals : Bool) (target : Bytes) (effect : QwalEnvelope) : Option Bytes :=
  if seals ∧ target.length = effect.targetState.pageSize * effect.targetState.pageCount then
    some target
  else none

theorem prepareQwalEffect_eq_ok {cache : PageStateCache} {context : EffectContext}
    {base target : Bytes} {capture : WalCapture} {effect : QwalEnvelope}
    (h : prepareQwalEffect cache context base capture = .ok (effect, target)) :
    ∃ baseState, cache.identity = .ok baseState ∧ effect.baseState = baseState ∧
      materializeWalCapture base base baseState.pageSize base.length capture =
        .ok (effect.pages, target) ∧
      target.length / baseState.pageSize ≤ u32Max ∧
      cache.overlay (target.length / baseState.pageSize) effect.pages = .ok effect.targetState := by
  obtain ⟨baseState, hBase, h⟩ := bind_ok_iff.mp h
  obtain ⟨⟨pages, target'⟩, hMaterialize, h⟩ := bind_ok_iff.mp h
  obtain ⟨targetPageCount, hCount, h⟩ := bind_ok_iff.mp h
  obtain ⟨targetState, hOverlay, h⟩ := bind_ok_iff.mp h
  cases h
  obtain ⟨rfl, hBound⟩ := u32TryFrom_eq_ok hCount
  exact ⟨baseState, hBase, rfl, hMaterialize, hBound, hOverlay⟩

theorem overlay_state {cache : PageStateCache} {target : Nat} {patches : List QwalPage}
    {state : StateIdentity} (h : cache.overlay target patches = .ok state) :
    state.pageSize = cache.pageSize ∧ state.pageCount = target := by
  obtain ⟨hashed, -, h⟩ := bind_ok_iff.mp h
  unfold PageStateCache.overlayHashed at h
  split at h
  · cases h
  · cases h
    exact ⟨rfl, rfl⟩

omit [Sha256] in
theorem verifyInstalledPages_ok {base target : Bytes} {pageSize count targetBytes : Nat}
    {effect : QwalEnvelope} (h : Materialized base pageSize count effect.pages target)
    (hSize : effect.targetState.pageSize = pageSize) (hCount : effect.targetState.pageCount = count)
    (hBytes : stateFileBytes effect.targetState "target" = .ok targetBytes) :
    verifyInstalledPages target effect = .ok () := by
  obtain ⟨hTarget, hBound⟩ := stateFileBytes_eq_ok hBytes
  have hProduct : targetBytes = count * pageSize := by rw [hTarget, hSize, hCount, Nat.mul_comm]
  have hVerify := verifyPages_ok h.pages (hProduct ▸ hBound) h.length h.overwritten.written
  rw [verifyInstalledPages, hBytes]
  simp only [bind, Except.bind, require, h.length, hProduct, if_true, h.pageSize_eq, hSize]
  exact hVerify

theorem proposer_and_follower_install_same [SqlResultJson] {base wal target : Bytes}
    {pageSize maxChangedBytes : Nat} {cache : PageStateCache} {capture : WalCapture}
    {context : EffectContext} {effect : QwalEnvelope} (hBase : sqlitePageSize base = .ok pageSize)
    (hCache : PageStateCache.fromPages pageSize (Paged.chunksExact pageSize base) = .ok cache)
    (hCapture : captureWal wal (base.length / pageSize) maxChangedBytes = .ok capture)
    (hPrepare : prepareQwalEffect cache context base capture = .ok (effect, target))
    (hValid : effect.validate = .ok ()) :
    applyPreverifiedQwalInPlace base effect = .ok target ∧
      promotePreparedTarget true target effect = some target ∧
      verifyInstalledPages target effect = .ok () ∧
      ∃ cache', PageStateCache.fromPages pageSize (Paged.chunksExact pageSize target) = .ok cache' ∧
        cache'.identity = .ok effect.targetState := by
  obtain ⟨baseState, hIdentity, rfl, hMaterialize, hFew, hOverlay⟩ := prepareQwalEffect_eq_ok hPrepare
  obtain ⟨hCacheSize, hHolds⟩ := PageStateCache.holds_of_fromPages hCache
  obtain ⟨hIsSize, hWhole⟩ := closed_of_sqlitePageSize hBase
  have hBaseState := hHolds.identity_eq
  rw [hIdentity] at hBaseState
  injection hBaseState with hBaseState
  have hBaseSize : effect.baseState.pageSize = pageSize := by rw [hBaseState]; exact hCacheSize
  have hBaseCount : effect.baseState.pageCount = base.length / pageSize := by
    rw [hBaseState]
    exact hHolds.count.trans (Paged.length_chunksExact _ _)
  rw [hBaseSize] at hMaterialize hFew hOverlay
  obtain ⟨count, hTarget⟩ := materialized_of_prepared hCapture hMaterialize
  have hCount : target.length / pageSize = count := by
    rw [hTarget.length, Nat.mul_div_cancel _ hIsSize.pos]
  rw [hCount] at hOverlay hFew
  obtain ⟨hStateSize, hStateCount⟩ := overlay_state hOverlay
  rw [hCacheSize] at hStateSize
  obtain ⟨baseBytes, targetBytes, hBaseBytes, hTargetBytes⟩ := effect.fileBytes_of_validate hValid
  obtain ⟨hBaseProduct, -⟩ := stateFileBytes_eq_ok hBaseBytes
  obtain ⟨hTargetProduct, hTargetBound⟩ := stateFileBytes_eq_ok hTargetBytes
  have hBaseLength : base.length = baseBytes := by
    rw [hBaseProduct, hBaseSize, hBaseCount, Nat.mul_comm, ← hWhole]
  have hTargetLength : targetBytes = count * pageSize := by
    rw [hTargetProduct, hStateSize, hStateCount, Nat.mul_comm]
  have hVerify := verifyInstalledPages_ok hTarget hStateSize hStateCount hTargetBytes
  refine ⟨?_, ?_, hVerify, ?_⟩
  · have hWrite : writePages pageSize effect.pages (Paged.setLen (count * pageSize) base) =
        .ok target := by
      rw [writePages_ok hTarget.pages (hTargetLength ▸ hTargetBound), hTarget.overwrite_eq]
    rw [applyPreverifiedQwalInPlace, hValid, hBaseBytes]
    simp only [bind, Except.bind, require, hBaseLength, hBase, hBaseSize, if_true, hTargetBytes,
      hStateSize, hTargetLength, hWrite, hVerify]
    rfl
  · rw [promotePreparedTarget, if_pos ⟨rfl, by rw [hTarget.length, hStateSize, hStateCount,
      Nat.mul_comm]⟩]
  · have hOverlaid := hTarget.overlaid hIsSize.pos
    have hSizes : ∀ page ∈ Paged.chunksExact pageSize target, page.length = pageSize :=
      fun page hPage => Paged.length_of_mem_chunksExact hPage
    obtain ⟨hashed, hHashed, -⟩ := bind_ok_iff.mp hOverlay
    have hPositive := (PageStateCache.validateAndHash_eq_ok hHashed).1
    obtain ⟨cache', hCache'⟩ := PageStateCache.fromPages_ok hIsSize hSizes
      (hOverlaid.count ▸ hPositive) (hOverlaid.count ▸ hFew)
    exact ⟨cache', hCache', hHolds.overlay_eq hOverlay hOverlaid (hCacheSize ▸ hCache')⟩

end Effects

namespace Sample

def emptyResultJson : Bytes := utf8 "\x7b\"statement_results\":[]\x7d"

@[reducible] def json : SqlResultJson where
  fromSlice bytes :=
    if bytes = emptyResultJson then .ok ⟨[]⟩ else .error "not the result of this sample"
  toVec result :=
    if result = ⟨[]⟩ then .ok emptyResultJson else .error "not the result of this sample"

attribute [local instance] Sha256.rolling json

def base : Bytes := sqliteMagic ++ [2, 0] ++ List.replicate 494 0

def walHeader : Bytes :=
  let fields := [walMagicBigChecksum, walVersion, 512, 0, 1, 2].flatMap (toBeBytes 4)
  let sum := checksum .big fields (0, 0)
  fields ++ toBeBytes 4 sum.1 ++ toBeBytes 4 sum.2

def walFrame (sum : Nat × Nat) (pageNo commitPages : Nat) (image : Bytes) : Bytes × (Nat × Nat) :=
  let fields := toBeBytes 4 pageNo ++ toBeBytes 4 commitPages
  let sum := checksum .big image (checksum .big fields sum)
  (fields ++ toBeBytes 4 1 ++ toBeBytes 4 2 ++ toBeBytes 4 sum.1 ++ toBeBytes 4 sum.2 ++ image, sum)

/-- A new second page, and the first page written again without a change. -/
def wal : Bytes :=
  let second := walFrame (checksum .big (walHeader.take 24) (0, 0)) 2 0 (List.replicate 512 7)
  let first := walFrame second.2 1 2 base
  walHeader ++ second.1 ++ first.1

def context : EffectContext where
  clusterId := "cluster"
  epoch := 1
  configurationId := 1
  recoveryGeneration := 1
  baseIndex := 3
  baseHash := LogHash.ofByte 3
  materializerFingerprint := "fingerprint"
  receipts := [⟨"request", LogHash.ofByte 9, sqlResultMagic ++ emptyResultJson⟩]

def capture : WalCapture :=
  .committed ⟨512, 2, 1024, [⟨1, base⟩, ⟨2, List.replicate 512 7⟩]⟩

def cache : Except Error PageStateCache :=
  PageStateCache.fromPages 512 (Paged.chunksExact 512 base)

/-- Whether the prepared envelope passes its checks and has `pageNos` as its pages. -/
def accepts (pageNos : List Nat) : Bool :=
  match cache with
  | .error _ => false
  | .ok cache =>
    match prepareQwalEffect cache context base capture with
    | .error _ => false
    | .ok (effect, _) => effect.validate = .ok () && effect.pages.map (·.pageNo) = pageNos

/-- Growth by one page, with the first page written again unchanged. -/
theorem growth_installs_same :
    ∃ cache effect target, PageStateCache.fromPages 512 (Paged.chunksExact 512 base) = .ok cache ∧
      prepareQwalEffect cache context base capture = .ok (effect, target) ∧
      effect.pages.map (·.pageNo) = [2] ∧ applyPreverifiedQwalInPlace base effect = .ok target := by
  have hBase : sqlitePageSize base = .ok 512 := by decide +kernel
  have hCapture : captureWal wal (base.length / 512) maxQwalBytes = .ok capture := by decide +kernel
  have hAccepts : accepts [2] = true := by decide +kernel
  unfold accepts Sample.cache at hAccepts
  split at hAccepts
  · cases hAccepts
  rename_i cache hCache
  split at hAccepts
  · cases hAccepts
  rename_i effect target hPrepare
  obtain ⟨hValid, hPages⟩ := (Bool.and_eq_true _ _).mp hAccepts
  refine ⟨cache, effect, target, hCache, hPrepare, of_decide_eq_true hPages, ?_⟩
  exact (proposer_and_follower_install_same hBase hCache hCapture hPrepare
    (of_decide_eq_true hValid)).1

end Sample

end Rhiza.Sql
