import Rhiza.Node.Coordinator

/-! # Local compaction

A node cuts its local log only behind a snapshot that it has read back from the
archive. The base of the archive only moves forward, so what the archive can restore
always reaches the retained part of every local log.
-/

namespace Rhiza.Node.Coordinator

open Core Archive Library

section Sound

variable [Sha256] (log : CommittedLog) (archive : ObjectArchiveStore)

structure LocalLog.Retains (l : LocalLog) (last : Nat) : Prop where
  entries_eq : l.entries = log.between l.base.index last
  base_le : l.base.index ≤ last
  last_le : last ≤ log.entries.length
  base_hash : l.base.hash = log.hashAt l.base.index

structure LocalLog.Sound (l : LocalLog) (manifests : List CheckpointManifest) : Prop where
  retains : ∃ last, l.Retains log last
  archived : ∀ anchor, l.anchor = some anchor →
    ∃ manifest ∈ manifests, anchor.compacted.index ≤ manifest.base.tip.index

def Archived (manifests : List CheckpointManifest) (restored : RestoredCheckpoint) : Prop :=
  ∀ anchor bytes, restored.snapshot = some (anchor, bytes) →
    ∃ manifest ∈ manifests, manifest.base.tip = ⟨anchor.compacted.index, anchor.compacted.hash⟩

def CallPhase.Sound (manifests : List CheckpointManifest) : CallPhase → Prop
  | .publishing _ entries _ => ∀ entry ∈ entries, entry ∈ log.entries
  | .verifying restored => Archived manifests restored
  | _ => True

structure Cluster.Sound (w : Cluster) : Prop where
  world : w.world.Sound log archive
  legible : w.world.Legible log archive
  nodes : ∀ id, (w.nodes id).log.Sound log w.world.manifests
  calls : ∀ call ∈ w.calls, call.phase.Sound log w.world.manifests

def Event.FromLog : Event → Prop
  | .archive event => event.FromLog log
  | .write _ entry => entry ∈ log.entries
  | _ => True

variable {log archive} {manifests manifests' : List CheckpointManifest} {l : LocalLog}
  {w : Cluster}

section Logs

theorem LocalLog.Retains.tip_index {last : Nat} (h : l.Retains log last) : l.tip.index = last := by
  unfold LocalLog.tip
  rcases Nat.lt_or_ge l.base.index last with hLess | hGe
  · obtain ⟨entry, hLast, -, hIndex⟩ := CommittedLog.getLast?_between hLess h.last_le
    rw [h.entries_eq, hLast]
    exact hIndex
  · have hSame : last = l.base.index := le_antisymm hGe h.base_le
    rw [h.entries_eq, hSame, CommittedLog.between_self]
    rfl

theorem LocalLog.Sound.mono (h : l.Sound log manifests) (hMore : manifests ⊆ manifests') :
    l.Sound log manifests' where
  retains := h.retains
  archived anchor hAnchor := by
    obtain ⟨manifest, hMem, hBase⟩ := h.archived anchor hAnchor
    exact ⟨manifest, hMore hMem, hBase⟩

theorem CallPhase.Sound.mono {phase : CallPhase} (h : phase.Sound log manifests)
    (hMore : manifests ⊆ manifests') : phase.Sound log manifests' := by
  unfold CallPhase.Sound at h ⊢
  split
  · exact h
  · intro anchor bytes hSnapshot
    obtain ⟨manifest, hMem, hBase⟩ := h anchor bytes hSnapshot
    exact ⟨manifest, hMore hMem, hBase⟩
  · trivial

theorem LocalLog.Sound.mem (h : l.Sound log manifests) {entry : LogEntry}
    (hEntry : entry ∈ l.entries) : entry ∈ log.entries := by
  obtain ⟨last, hRetains⟩ := h.retains
  rw [hRetains.entries_eq] at hEntry
  exact CommittedLog.mem_of_mem_between hEntry

theorem LocalLog.Sound.write (h : l.Sound log manifests) {entry : LogEntry}
    (hEntry : entry ∈ log.entries) (hIndex : entry.index = l.tip.index + 1) :
    LocalLog.Sound log { l with entries := l.entries ++ [entry] } manifests := by
  obtain ⟨last, hRetains⟩ := h.retains
  rw [hRetains.tip_index] at hIndex
  obtain ⟨i, hi, hGet⟩ := CommittedLog.getElem?_of_mem hEntry
  obtain rfl : i = last := by omega
  have hBound := (List.getElem?_eq_some_iff.mp hGet).1
  refine ⟨⟨i + 1, ?_, ?_, hBound, hRetains.base_hash⟩, h.archived⟩
  · change l.entries ++ [entry] = log.between l.base.index (i + 1)
    rw [hRetains.entries_eq, ← CommittedLog.between_succ hGet,
      CommittedLog.between_append hRetains.base_le (Nat.le_succ i) hRetains.last_le]
  · exact hRetains.base_le.trans (Nat.le_succ i)

theorem LocalLog.validateCompaction_eq_true {anchor : RecoveryAnchor}
    (h : l.validateCompaction anchor = .ok true) :
    anchor.compacted.index ≤ l.tip.index ∧
      (∀ current, l.anchor = some current →
        current.compacted.index < anchor.compacted.index) ∧
      ∃ entry ∈ l.entries, entry.index = anchor.compacted.index ∧
        entry.hash = anchor.compacted.hash := by
  unfold LocalLog.validateCompaction at h
  simp only at h
  split at h
  · cases h
  · split at h
    · cases h
    · rename_i hTip
      split at h
      · cases h
      · split at h
        · cases h
        · split at h
          · cases h
          · rename_i hBack
            split at h
            · split at h <;> cases h
            · rename_i hSame
              split at h
              · cases h
              · split at h
                · cases h
                · rename_i entry hFound
                  split at h
                  · cases h
                  · rename_i hHash
                    refine ⟨not_lt.mp hTip, fun current hCurrent => ?_, entry,
                      List.mem_of_find?_eq_some hFound, ?_, not_not.mp hHash⟩
                    · simp only [hCurrent, Option.any_some, decide_eq_true_eq] at hBack hSame
                      omega
                    · simpa using List.find?_some hFound

theorem LocalLog.Retains.compactPrefix {last : Nat} (h : l.Retains log last)
    {anchor : RecoveryAnchor} {l' : LocalLog} (hCompact : l.compactPrefix anchor = .ok l') :
    l'.Retains log last ∧ (l' = l ∨ l'.anchor = some anchor) := by
  unfold LocalLog.compactPrefix at hCompact
  split at hCompact
  · cases hCompact
  · obtain rfl := Except.ok.inj hCompact
    exact ⟨h, .inl rfl⟩
  · rename_i hTrue
    obtain rfl := Except.ok.inj hCompact
    obtain ⟨hTip, -, entry, hEntry, hIndex, hHash⟩ := LocalLog.validateCompaction_eq_true hTrue
    rw [h.tip_index] at hTip
    rw [h.entries_eq] at hEntry
    have hCommitted := CommittedLog.mem_of_mem_between hEntry
    have hInside := CommittedLog.index_of_mem_between hEntry
    refine ⟨⟨?_, hTip, h.last_le, ?_⟩, .inr rfl⟩
    · change l.entries.filter (fun entry => anchor.compacted.index < entry.index) =
        log.between anchor.compacted.index last
      rw [h.entries_eq]
      exact CommittedLog.filter_between (by omega) hTip h.last_le
    · change anchor.compacted.hash = log.hashAt anchor.compacted.index
      rw [← hHash, ← hIndex]
      exact (CommittedLog.hashAt_of_mem hCommitted).symm

theorem LocalLog.Sound.compactPrefix (h : l.Sound log manifests) {anchor : RecoveryAnchor}
    {l' : LocalLog} (hCompact : l.compactPrefix anchor = .ok l')
    (hArchived : ∃ manifest ∈ manifests, anchor.compacted.index ≤ manifest.base.tip.index) :
    l'.Sound log manifests := by
  obtain ⟨last, hRetains⟩ := h.retains
  obtain ⟨hRetained, hAnchor⟩ := hRetains.compactPrefix hCompact
  refine ⟨⟨last, hRetained⟩, fun found hFound => ?_⟩
  rcases hAnchor with rfl | hAnchor
  · exact h.archived found hFound
  · obtain rfl := Option.some.inj (hAnchor.symm.trans hFound)
    exact hArchived

theorem LocalLog.sound_installed {restored : RestoredCheckpoint} {manifest : CheckpointManifest}
    (hMem : manifest ∈ manifests) {objects : Objects} (hHolds : Holds log archive objects manifest)
    (hOf : restored.Of log manifest) : (Cluster.installed l restored).Sound log manifests := by
  obtain ⟨-, hSuffix, hGenesis, hSnapshot⟩ := hOf
  obtain ⟨hOrder, hBound, -⟩ := hHolds.tip
  cases hBase : manifest.base with
  | genesis =>
    have hNone := hGenesis hBase
    have hZero : manifest.base.tip = ⟨0, .zero⟩ := by rw [hBase]; rfl
    refine ⟨⟨manifest.tip.index, ?_, ?_, hBound, ?_⟩, fun anchor hAnchor => ?_⟩
    · simp only [Cluster.installed, LocalLog.base, hNone, Option.map_none]
      rw [hSuffix, hZero]
    · simp only [Cluster.installed, LocalLog.base, hNone, Option.map_none]
      exact Nat.zero_le _
    · simp only [Cluster.installed, LocalLog.base, hNone, Option.map_none]
      rfl
    · simp only [Cluster.installed, hNone, Option.map_none] at hAnchor
      cases hAnchor
  | snapshot base =>
    obtain ⟨bytes, hSome, -⟩ := hSnapshot base hBase
    have hTip : manifest.base.tip =
        ⟨base.anchor.compacted.index, base.anchor.compacted.hash⟩ := by
      rw [hBase]
      rfl
    have hHash := hHolds.base_hash
    rw [hTip] at hOrder hSuffix hHash
    refine ⟨⟨manifest.tip.index, ?_, ?_, hBound, ?_⟩, fun anchor hAnchor => ?_⟩
    · simp only [Cluster.installed, LocalLog.base, hSome, Option.map_some]
      exact hSuffix
    · simp only [Cluster.installed, LocalLog.base, hSome, Option.map_some]
      exact hOrder
    · simp only [Cluster.installed, LocalLog.base, hSome, Option.map_some]
      exact hHash
    · simp only [Cluster.installed, hSome, Option.map_some, Option.some.injEq] at hAnchor
      subst hAnchor
      exact ⟨manifest, hMem, by rw [hTip]⟩

end Logs

section Steps

theorem archived_of_restores {world : World} (h : world.Sound log archive)
    {restored : RestoredCheckpoint} {manifest : Option CheckpointManifest}
    (hMem : (restored, manifest) ∈ world.restores) : Archived world.manifests restored := by
  intro anchor bytes hSnapshot
  cases manifest with
  | none =>
    rw [h.emptyRestores restored hMem] at hSnapshot
    cases hSnapshot
  | some manifest =>
    obtain ⟨hManifest, -, -, hGenesis, hBase⟩ := h.restores restored manifest hMem
    refine ⟨manifest, hManifest, ?_⟩
    cases hAt : manifest.base with
    | genesis =>
      rw [hGenesis hAt] at hSnapshot
      cases hSnapshot
    | snapshot base =>
      obtain ⟨found, hFound, -⟩ := hBase base hAt
      obtain ⟨rfl, -⟩ := Prod.mk.inj (Option.some.inj (hFound.symm.trans hSnapshot))
      rfl

theorem Cluster.Sound.onWorld (h : w.Sound log archive) {event : Archive.Event} {world : World}
    (hStep : World.step archive w.world event = some world) (hLog : event.FromLog log) :
    Cluster.Sound log archive { w with world := world } := by
  have hMore := World.step_manifests hStep
  exact ⟨h.world.step hLog hStep, h.legible.step h.world hStep,
    fun id => (h.nodes id).mono hMore, fun call hCall => (h.calls call hCall).mono hMore⟩

theorem Cluster.Sound.mapCalls (h : w.Sound log archive) {f : Call → Call}
    (hCalls : ∀ call ∈ w.calls, (f call).phase.Sound log w.world.manifests) :
    Cluster.Sound log archive { w with calls := w.calls.map f } where
  world := h.world
  legible := h.legible
  nodes := h.nodes
  calls call hCall := by
    obtain ⟨old, hOld, rfl⟩ := List.mem_map.mp hCall
    exact hCalls old hOld

theorem Cluster.Sound.setPhase (h : w.Sound log archive) (position : Nat) (call : Call)
    {phase : CallPhase} (hPhase : phase.Sound log w.world.manifests) :
    (w.setPhase position call phase).Sound log archive where
  world := h.world
  legible := h.legible
  nodes := h.nodes
  calls other hMem := by
    rcases List.mem_or_eq_of_mem_set hMem with hMem | rfl
    · exact h.calls other hMem
    · exact hPhase

theorem Cluster.Sound.setNode (h : w.Sound log archive) (id : Nat) {node : Member}
    (hNode : node.log.Sound log w.world.manifests) : (w.setNode id node).Sound log archive where
  world := h.world
  legible := h.legible
  nodes other := by
    simp only [Cluster.setNode]
    by_cases hSame : other = id
    · subst hSame
      rw [Function.update_self]
      exact hNode
    · rw [Function.update_of_ne hSame]
      exact h.nodes other
  calls := h.calls

omit [Sha256] in
theorem Member.log_markDurable (node : Member) (tip : CheckpointTip) :
    (node.markDurable tip).log = node.log := by
  unfold Member.markDurable
  split <;> rfl

theorem afterFlush_sound (task : Task) (result : Except DurabilityError CheckpointTip) :
    (Cluster.afterFlush task result).Sound log manifests := by
  unfold Cluster.afterFlush
  split
  · split <;> trivial
  all_goals trivial

theorem beginFlush_sound (node : Member) (task : Task) (target : Nat) :
    (Cluster.beginFlush node task target).Sound log manifests := by
  unfold Cluster.beginFlush
  simp only
  split
  · exact afterFlush_sound _ _
  · split
    · exact afterFlush_sound _ _
    · split
      · trivial
      · split
        · exact afterFlush_sound _ _
        · trivial

theorem publishBatch_sound {node : Member} (hNode : node.log.Sound log manifests) (task : Task)
    (durableTip : CheckpointTip) (target : Nat) :
    (Cluster.publishBatch archive node task durableTip target).Sound log manifests := by
  unfold Cluster.publishBatch
  split
  · exact afterFlush_sound _ _
  · split
    · simp only
      split
      · exact afterFlush_sound _ _
      · split
        · trivial
        · exact fun entry hEntry => hNode.mem (List.mem_of_mem_filter hEntry)
    · exact afterFlush_sound _ _

theorem finishCheckpoint_sound {node next : Member} (hNode : node.log.Sound log manifests)
    {anchor : RecoveryAnchor} {bytes : Bytes} {restored : RestoredCheckpoint}
    (hRestored : Archived manifests restored)
    (h : Cluster.finishCheckpoint node anchor bytes restored = .ok next) :
    next.log.Sound log manifests := by
  unfold Cluster.finishCheckpoint at h
  split at h
  · cases h
  · rename_i published hPublished
    split at h
    · cases h
    · rename_i hSame
      split at h
      · cases h
      · rename_i compacted hCompact
        obtain rfl := Except.ok.inj h
        rw [Member.log_markDurable]
        rw [not_not.mp hSame] at hPublished
        obtain ⟨manifest, hMem, hBase⟩ := hRestored anchor bytes hPublished
        exact hNode.compactPrefix hCompact ⟨manifest, hMem, by rw [hBase]⟩

theorem Cluster.Sound.pending (h : w.Sound log archive) (node : Nat) :
    Archive.Event.FromLog log (.flush node (w.pending node)) := by
  intro entries hEntries
  obtain ⟨call, hCall, hSome⟩ := List.mem_filterMap.mp hEntries
  have hSound := h.calls call hCall
  split at hSome
  · rename_i target found hAt
    rw [hAt] at hSound
    split at hSome
    · obtain rfl := Option.some.inj hSome
      exact hSound
    · cases hSome
  · cases hSome

theorem Cluster.Sound.advance (h : w.Sound log archive) {position : Nat} {call : Call}
    (hMem : call ∈ w.calls) {w' : Cluster}
    (hStep : Cluster.advance archive w position call = some w') : w'.Sound log archive := by
  have hPhase := h.calls call hMem
  have hNode := h.nodes call.node
  unfold Cluster.advance at hStep
  simp only at hStep
  split at hStep
  · obtain rfl := Option.some.inj hStep
    exact h.setPhase position call (beginFlush_sound _ _ _)
  · obtain rfl := Option.some.inj hStep
    exact h.setPhase position call (publishBatch_sound hNode _ _ _)
  · split at hStep
    · obtain rfl := Option.some.inj hStep
      exact h.setPhase position call trivial
    · cases hStep
  · cases hStep
  · obtain rfl := Option.some.inj hStep
    exact h.setPhase position call (afterFlush_sound _ _)
  · rename_i target manifest hAt
    have hMarked : (w.setNode call.node
        ((w.nodes call.node).markDurable manifest.tip)).Sound log archive := by
      refine h.setNode call.node ?_
      rw [Member.log_markDurable]
      exact hNode
    split at hStep
    · obtain rfl := Option.some.inj hStep
      exact hMarked.setPhase position call (afterFlush_sound _ _)
    · obtain rfl := Option.some.inj hStep
      exact hMarked.setPhase position call trivial
  · split at hStep
    · split at hStep
      · obtain rfl := Option.some.inj hStep
        exact h.setPhase position call trivial
      · rename_i world hWorld
        obtain rfl := Option.some.inj hStep
        exact (h.onWorld hWorld trivial).setPhase position call trivial
    · cases hStep
  · split at hStep
    · obtain rfl := Option.some.inj hStep
      exact h.setPhase position call trivial
    · split at hStep
      · cases hStep
      · rename_i world hWorld
        obtain rfl := Option.some.inj hStep
        exact (h.onWorld hWorld trivial).setPhase position call trivial
    · cases hStep
  · split at hStep
    · obtain rfl := Option.some.inj hStep
      exact h.setPhase position call trivial
    · cases hStep
  · rename_i restored hAt
    rw [hAt] at hPhase
    split at hStep
    · split at hStep
      · obtain rfl := Option.some.inj hStep
        exact h.setPhase position call trivial
      · rename_i node hFinish
        obtain rfl := Option.some.inj hStep
        exact (h.setNode call.node (finishCheckpoint_sound hNode hPhase hFinish)).setPhase
          position call trivial
    · cases hStep
  · cases hStep

theorem hear_sound {before after : World} (hAfter : after.Sound log archive)
    {call : Call} (hCall : call.phase.Sound log after.manifests) (place : Nat) :
    (Cluster.hear archive before after place call).phase.Sound log after.manifests := by
  unfold Cluster.hear
  split
  · split
    · split
      · trivial
      · exact hCall
    · exact hCall
  · split
    · rename_i restored hHead
      split
      · exact archived_of_restores hAfter (List.mem_of_head? hHead)
      · exact hCall
    · exact hCall
  · exact hCall

theorem Cluster.Sound.step (h : w.Sound log archive) {event : Event} (hLog : event.FromLog log)
    {w' : Cluster} (hStep : Cluster.step archive w event = some w') : w'.Sound log archive := by
  cases event with
  | archive event =>
    simp only [Cluster.step] at hStep
    split at hStep
    · cases hStep
    · rename_i world hWorld
      obtain rfl := Option.some.inj hStep
      have hNext := h.onWorld hWorld hLog
      refine hNext.mapCalls fun call hCall => ?_
      unfold Cluster.hearEvent
      split
      · exact hear_sound hNext.world (hNext.calls call hCall) _
      · exact hNext.calls call hCall
  | write id entry =>
    simp only [Cluster.step] at hStep
    split at hStep
    · rename_i hIndex
      obtain rfl := Option.some.inj hStep
      exact h.setNode id ((h.nodes id).write hLog hIndex)
    · cases hStep
  | observe id =>
    simp only [Cluster.step] at hStep
    split at hStep
    · cases hStep
    · obtain rfl := Option.some.inj hStep
      refine h.setNode id ?_
      rw [Member.log_markDurable]
      exact h.nodes id
  | begin node task =>
    simp only [Cluster.step] at hStep
    split at hStep
    · cases hStep
    · rename_i phase hFirst
      obtain rfl := Option.some.inj hStep
      refine ⟨h.world, h.legible, h.nodes, fun call hCall => ?_⟩
      rcases List.mem_append.mp hCall with hCall | hCall
      · exact h.calls call hCall
      · rw [List.mem_singleton.mp hCall]
        unfold Cluster.firstPhase at hFirst
        split at hFirst
        · obtain rfl := Option.some.inj hFirst
          trivial
        · obtain rfl := Option.some.inj hFirst
          trivial
        · split at hFirst
          · obtain rfl := Option.some.inj hFirst
            trivial
          · cases hFirst
  | drive node =>
    simp only [Cluster.step] at hStep
    split at hStep
    · cases hStep
    · rename_i world hWorld
      obtain rfl := Option.some.inj hStep
      have hNext := h.onWorld hWorld (h.pending node)
      refine hNext.mapCalls fun call hCall => ?_
      have hSound := hNext.calls call hCall
      unfold Cluster.take
      split
      · rename_i target entries hAt
        rw [hAt] at hSound
        split
        · exact hSound
        · rw [hAt]
          exact hSound
      · exact hSound
  | advance position =>
    simp only [Cluster.step] at hStep
    split at hStep
    · cases hStep
    · rename_i call hCall
      exact h.advance (List.mem_of_getElem? hCall) hStep
  | crash node =>
    obtain rfl := Option.some.inj hStep
    refine h.mapCalls fun call hCall => ?_
    unfold Cluster.stop
    split
    · trivial
    · exact h.calls call hCall
  | install id restored =>
    simp only [Cluster.step] at hStep
    split at hStep
    · rename_i hFresh
      obtain rfl := Option.some.inj hStep
      obtain ⟨found, hFound, hSame⟩ := List.any_eq_true.mp hFresh.2.2
      obtain rfl : found.1 = restored := by simpa using hSame
      refine h.setNode id ?_
      obtain ⟨restored, manifest⟩ := found
      cases manifest with
      | none =>
        rw [h.world.emptyRestores restored hFound]
        exact ⟨⟨0, (log.between_self 0).symm, le_refl _, Nat.zero_le _, rfl⟩,
          fun anchor hAnchor => by cases hAnchor⟩
      | some manifest =>
        obtain ⟨hMem, hOf⟩ := h.world.restores restored manifest hFound
        exact LocalLog.sound_installed hMem (h.world.holds manifest hMem) hOf
    · cases hStep

end Steps

def baseIndex (restored : RestoredCheckpoint) : Nat :=
  match restored.snapshot with
  | some snapshot => snapshot.1.compacted.index
  | none => 0

structure Cluster.Restorable (log : CommittedLog) (archive : ObjectArchiveStore) (w : Cluster)
    (node : Member) : Prop where
  anchored : ∀ anchor, node.log.anchor = some anchor → ∃ manifest,
    w.world.manifest? = some manifest ∧
      anchor.compacted.index ≤ manifest.base.tip.index ∧
      anchor.compacted.hash = log.hashAt anchor.compacted.index ∧
      manifest.base.tip.hash = log.hashAt manifest.base.tip.index
  complete : ∃ restored, restoreCheckpoint archive w.world.objects w.world.manifest? = .ok restored ∧
    restored.suffix ++ node.log.entries.filter (fun entry => restored.tip.index < entry.index) =
      log.between (baseIndex restored) (max restored.tip.index node.log.tip.index)

section Restorable

theorem base_le_current {world : World} (h : world.Sound log archive)
    {current manifest : CheckpointManifest} (hCurrent : world.manifest? = some current)
    (hMem : manifest ∈ world.manifests) : manifest.base.tip.index ≤ current.base.tip.index := by
  obtain ⟨rest, hRest⟩ := List.head?_eq_some_iff.mp hCurrent
  have hForward := h.forward
  rw [hRest] at hForward hMem
  rcases List.mem_cons.mp hMem with rfl | hMem
  · exact le_refl _
  · exact ((List.pairwise_cons.mp hForward).1 manifest hMem).base_le

omit [Sha256] in
theorem exists_current {world : World} {manifest : CheckpointManifest}
    (hMem : manifest ∈ world.manifests) : ∃ current, world.manifest? = some current := by
  cases hCurrent : world.manifest? with
  | some current => exact ⟨current, rfl⟩
  | none =>
    rw [List.head?_eq_none_iff.mp hCurrent] at hMem
    cases hMem

theorem baseIndex_eq {restored : RestoredCheckpoint} {manifest : CheckpointManifest}
    (h : restored.Of log manifest) : baseIndex restored = manifest.base.tip.index := by
  obtain ⟨-, -, hGenesis, hSnapshot⟩ := h
  unfold baseIndex
  cases hBase : manifest.base with
  | genesis =>
    rw [hGenesis hBase]
    rfl
  | snapshot base =>
    obtain ⟨bytes, hSome, -⟩ := hSnapshot base hBase
    rw [hSome]
    rfl

theorem continues {last base tip : Nat} (hRetains : l.Retains log last)
    (hBase : l.base.index ≤ tip) (hOrder : base ≤ tip) (hBound : tip ≤ log.entries.length) :
    log.between base tip ++ l.entries.filter (fun entry => tip < entry.index) =
      log.between base (max tip last) := by
  rw [hRetains.entries_eq]
  rcases Nat.le_total last tip with hBelow | hAbove
  · have hNone : (log.between l.base.index last).filter (fun entry => tip < entry.index) = [] := by
      rw [List.filter_eq_nil_iff]
      intro entry hEntry
      have := CommittedLog.index_of_mem_between hEntry
      simp
      omega
    rw [hNone, List.append_nil, max_eq_left hBelow]
  · rw [CommittedLog.filter_between hBase hAbove hRetains.last_le,
      CommittedLog.between_append hOrder hAbove hBound, max_eq_right hAbove]

theorem Cluster.Sound.restorable (h : w.Sound log archive) (id : Nat) :
    w.Restorable log archive (w.nodes id) := by
  obtain ⟨last, hRetains⟩ := (h.nodes id).retains
  have hArchived := (h.nodes id).archived
  have hBase : ∀ current, w.world.manifest? = some current →
      (w.nodes id).log.base.index ≤ current.base.tip.index := by
    intro current hCurrent
    unfold LocalLog.base
    split
    · rename_i anchor hAnchor
      obtain ⟨manifest, hMem, hLe⟩ := hArchived anchor hAnchor
      exact hLe.trans (base_le_current h.world hCurrent hMem)
    · exact Nat.zero_le _
  constructor
  · intro anchor hAnchor
    obtain ⟨manifest, hMem, -⟩ := hArchived anchor hAnchor
    obtain ⟨current, hCurrent⟩ := exists_current hMem
    have hHolds := h.world.holds current (List.mem_of_head? hCurrent)
    have hHere := hBase current hCurrent
    have hHash := hRetains.base_hash
    simp only [LocalLog.base, hAnchor] at hHere hHash
    exact ⟨current, hCurrent, hHere, hHash, hHolds.base_hash⟩
  · rw [hRetains.tip_index]
    cases hCurrent : w.world.manifest? with
    | none =>
      have hZero : (w.nodes id).log.base.index ≤ 0 := by
        unfold LocalLog.base
        split
        · rename_i anchor hAnchor
          obtain ⟨manifest, hMem, -⟩ := hArchived anchor hAnchor
          rw [List.head?_eq_none_iff.mp hCurrent] at hMem
          cases hMem
        · exact le_refl _
      have hRest := continues hRetains hZero (le_refl 0) (Nat.zero_le _)
      rw [CommittedLog.between_self] at hRest
      exact ⟨_, rfl, hRest⟩
    | some current =>
      have hMem : current ∈ w.world.manifests := List.mem_of_head? hCurrent
      have hHolds := h.world.holds current hMem
      obtain ⟨restored, hRestored, hOf⟩ :=
        restoreCheckpoint_ok hHolds (h.legible.manifests current hMem)
      obtain ⟨hOrder, hBound, -⟩ := hHolds.tip
      refine ⟨restored, hRestored, ?_⟩
      rw [baseIndex_eq hOf, hOf.1, hOf.2.1]
      exact continues hRetains ((hBase current hCurrent).trans hOrder) hOrder hBound

theorem Cluster.sound_start {objects : Objects} {manifest : Option CheckpointManifest}
    {logs : Nat → LocalLog}
    (hStart : ∀ found, manifest = some found →
      Holds log archive objects found ∧ Legible log archive objects found)
    (hLogs : ∀ id, (logs id).anchor = none ∧ (logs id).entries = []) :
    (Cluster.start (World.start objects manifest) logs).Sound log archive where
  world := World.sound_start fun found hFound => (hStart found hFound).1
  legible := World.legible_start fun found hFound => (hStart found hFound).2
  nodes id := by
    obtain ⟨hAnchor, hEntries⟩ := hLogs id
    have hBase : (logs id).base = ⟨0, .zero⟩ := by
      unfold LocalLog.base
      rw [hAnchor]
    refine ⟨⟨0, ?_, ?_, Nat.zero_le _, ?_⟩, fun anchor hSome => ?_⟩
    · change (logs id).entries = log.between (logs id).base.index 0
      rw [hEntries, hBase]
      exact (log.between_self 0).symm
    · change (logs id).base.index ≤ 0
      rw [hBase]
    · change (logs id).base.hash = log.hashAt (logs id).base.index
      rw [hBase]
      rfl
    · cases hAnchor.symm.trans hSome
  calls call hCall := by cases hCall

/-- Whatever nodes and the archive do, and wherever calls stop, what the nodes have cut off
can be restored from the archive. -/
theorem compaction_is_restorable {objects : Objects} {manifest : Option CheckpointManifest}
    {logs : Nat → LocalLog}
    (hStart : ∀ found, manifest = some found →
      Holds log archive objects found ∧ Legible log archive objects found)
    (hLogs : ∀ id, (logs id).anchor = none ∧ (logs id).entries = [])
    (h : Run (Cluster.step archive) (fun _ event => event.FromLog log)
      (Cluster.start (World.start objects manifest) logs) w) (id : Nat) :
    w.Restorable log archive (w.nodes id) :=
  (h.invariant (P := Cluster.Sound log archive) (Cluster.sound_start hStart hLogs)
    fun _ _ _ hSound hLog hStep => hSound.step hLog hStep).restorable id

end Restorable

end Sound

namespace Single

attribute [local instance] Sha256.rolling

def log : LocalLog := ⟨"c", 1, .active 1 .zero, none, []⟩

def archived (place times : Nat) : List Event :=
  List.replicate times (.archive (.advance place true))

/-- A node opens its publisher, writes an entry, makes a checkpoint and writes another
entry. -/
def events : List Event :=
  [.archive (.openPublisher 0)] ++ archived 0 2 ++
    [.write 0 Sample.first, .begin 0 (.checkpoint Sample.anchor [7]), .advance 0, .advance 0,
      .drive 0] ++ archived 1 4 ++ [.advance 0, .advance 0] ++ archived 2 4 ++ [.advance 0] ++
    archived 3 3 ++ [.advance 0, .write 0 Sample.second]

def empty : Cluster := Cluster.start (World.start (fun _ => none) none) fun _ => log

theorem fromLog_events : ∀ event ∈ events, event.FromLog Sample.log := by
  have hArchived : ∀ place times, ∀ event ∈ archived place times, event.FromLog Sample.log := by
    intro place times event hEvent
    rw [List.eq_of_mem_replicate hEvent]
    trivial
  have hFirst : Event.FromLog Sample.log (.write 0 Sample.first) := List.mem_cons_self
  have hSecond : Event.FromLog Sample.log (.write 0 Sample.second) :=
    List.mem_cons_of_mem _ List.mem_cons_self
  intro event hEvent
  simp only [events, List.mem_append, List.mem_cons, List.not_mem_nil, or_false] at hEvent
  obtain ((((((((rfl | hEvent) | hEvent) | hEvent) | hEvent) | hEvent) | hEvent) | hEvent) |
    hEvent) := hEvent
  · trivial
  · exact hArchived _ _ _ hEvent
  · rcases hEvent with rfl | rfl | rfl | rfl | rfl
    · exact hFirst
    all_goals trivial
  · exact hArchived _ _ _ hEvent
  · rcases hEvent with rfl | rfl <;> trivial
  · exact hArchived _ _ _ hEvent
  · rw [hEvent]
    trivial
  · exact hArchived _ _ _ hEvent
  · rcases hEvent with rfl | rfl
    · trivial
    · exact hSecond

/-- The log is cut behind the first entry and can be restored. -/
theorem checkpoint_is_restorable : ∃ w : Cluster,
    Run (Cluster.step Sample.archive) (fun _ event => event.FromLog Sample.log) empty w ∧
    (w.nodes 0).log.anchor = some Sample.anchor ∧ (w.nodes 0).log.entries = [Sample.second] ∧
    w.Restorable Sample.log Sample.archive (w.nodes 0) := by
  have hEnd : (execute (Cluster.step Sample.archive) empty events).any fun w =>
      decide ((w.nodes 0).log.anchor = some Sample.anchor ∧
        (w.nodes 0).log.entries = [Sample.second]) := by
    decide +kernel
  obtain ⟨w, hw, hEnd⟩ := (Option.any_eq_true _ _).mp hEnd
  obtain ⟨hAnchor, hEntries⟩ := of_decide_eq_true hEnd
  have hRun := Run.of_execute (fun event hEvent _ => fromLog_events event hEvent) hw
  refine ⟨w, hRun, hAnchor, hEntries, compaction_is_restorable ?_ (fun _ => ⟨rfl, rfl⟩) hRun 0⟩
  intro found hFound
  cases hFound

end Single

end Rhiza.Node.Coordinator
