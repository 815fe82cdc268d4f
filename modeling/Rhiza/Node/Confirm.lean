import Rhiza.Archive.Flush
import Rhiza.Node.Compaction

/-! # Confirming that a write is durable

A node confirms a write by flushing its log up to the write, and flushes again after
every error of the archive. A flush that the archive has overtaken with a snapshot fails
each time. If this never happens then no flush fails, and every confirmation succeeds.
-/

namespace Rhiza.Node.Coordinator

open Core Archive Library

section Confirm

variable [Sha256] (log : CommittedLog) (archive : ObjectArchiveStore)

def Cluster.Smooth (w : Cluster) : Event → Prop
  | .archive event => w.world.Smooth event
  | .begin node (.confirm index) => index ≤ (w.nodes node).log.tip.index
  | .drive node => w.world.Smooth (.flush node (w.pending node))
  | .advance position => ∀ call, w.calls[position]? = some call →
    ∀ index, call.task = .confirm index →
      (∀ target, call.phase = .flushing target →
        (w.nodes call.node).durableTip.index ≤ (w.nodes call.node).log.tip.index ∧
          (w.nodes call.node).log.base.index ≤ (w.nodes call.node).durableTip.index) ∧
      ∀ durableTip target, call.phase = .batching durableTip target →
        (w.nodes call.node).log.base.index ≤ durableTip.index
  | .crash _ => False
  | _ => True

def CallPhase.Confirms (index : Nat) : CallPhase → Prop
  | .flushing target => target = index
  | .batching durableTip target =>
    target = index ∧ durableTip.index < index ∧ durableTip.hash = log.hashAt durableTip.index
  | .publishing target _ _ => target = index
  | .answered target _ => target = index
  | .returned result => result = .ok ()
  | _ => False

def CallPhase.Fit (world : World) : CallPhase → Prop
  | .publishing _ entries (some place) => world.Owes place entries
  | .answered _ (.ok manifest) => manifest ∈ world.manifests
  | .answered _ (.error _) => False
  | _ => True

structure Call.Fit (w : Cluster) (call : Call) : Prop where
  phase : call.phase.Fit w.world
  local_index : ∀ index, call.task = .confirm index → index ≤ (w.nodes call.node).log.tip.index
  confirms : ∀ index, call.task = .confirm index → call.phase.Confirms log index

structure Cluster.Fit (w : Cluster) : Prop where
  sound : w.Sound log archive
  world : w.world.Fit log archive
  durable : ∀ id, (w.nodes id).durableTip.hash = log.hashAt (w.nodes id).durableTip.index
  calls : ∀ call ∈ w.calls, call.Fit log w

variable {log archive} {w : Cluster} {l : LocalLog}

section Batches

theorem LocalLog.Retains.readRange {last a b : Nat} (h : l.Retains log last)
    (hBase : l.base.index ≤ a) (hab : a ≤ b) (hb : b ≤ last) :
    l.readRange (a + 1) b = log.between a b := by
  have hLast := h.last_le
  have hSplit : l.entries = log.between l.base.index a ++ log.between a b ++ log.between b last := by
    rw [CommittedLog.between_append hBase hab (by omega),
      CommittedLog.between_append (by omega) hb (by omega)]
    exact h.entries_eq
  have hBefore : (log.between l.base.index a).filter
      (fun entry => a + 1 ≤ entry.index ∧ entry.index ≤ b) = [] := by
    rw [List.filter_eq_nil_iff]
    intro entry hEntry
    have := CommittedLog.index_of_mem_between hEntry
    simp
    omega
  have hInside : (log.between a b).filter
      (fun entry => a + 1 ≤ entry.index ∧ entry.index ≤ b) = log.between a b := by
    rw [List.filter_eq_self]
    intro entry hEntry
    have := CommittedLog.index_of_mem_between hEntry
    simp
    omega
  have hAfter : (log.between b last).filter
      (fun entry => a + 1 ≤ entry.index ∧ entry.index ≤ b) = [] := by
    rw [List.filter_eq_nil_iff]
    intro entry hEntry
    have := CommittedLog.index_of_mem_between hEntry
    simp
    omega
  unfold LocalLog.readRange
  rw [hSplit, List.filter_append, List.filter_append, hBefore, hInside, hAfter, List.nil_append,
    List.append_nil]

theorem validatePublication_of_validateEntries (hEncodable : Encodable log archive)
    {expected : Nat} {hash : LogHash} {entries : List LogEntry} {previous : Option LogEntry}
    (h : Cluster.validateEntries expected hash entries = .ok ())
    (hLog : ∀ entry ∈ entries, entry ∈ log.entries)
    (hPrevious : ∀ entry, previous = some entry → entry.index + 1 = expected ∧ entry.hash = hash) :
    archive.validatePublicationEntries previous entries = .ok () := by
  induction entries generalizing expected hash previous with
  | nil => rfl
  | cons entry entries ih =>
    simp only [Cluster.validateEntries] at h
    split at h
    · cases h
    · rename_i hIndex
      split at h
      · cases h
      · rename_i hChain
        obtain ⟨hPrev, hHash⟩ := not_or.mp hChain
        have hMem := hLog entry List.mem_cons_self
        have hBound := CommittedLog.index_le_of_mem hMem
        rw [not_not] at hIndex hPrev hHash
        simp only [ObjectArchiveStore.validatePublicationEntries, unit_bind_ok_iff, check_eq_ok,
          decide_eq_true_eq]
        refine ⟨hEncodable.own entry hMem, hHash, ?_, ?_, ?_⟩
        · cases previous with
          | none => rfl
          | some before =>
            obtain ⟨hNext, -⟩ := hPrevious before rfl
            rw [Option.all_some, decide_eq_true_eq, hIndex, ← hNext]
            exact hEncodable.checkedSucc_eq (by omega)
        · cases previous with
          | none => rfl
          | some before =>
            obtain ⟨-, hSame⟩ := hPrevious before rfl
            rw [Option.all_some, decide_eq_true_eq, hPrev, hSame]
        · refine ih h (fun e he => hLog e (List.mem_cons_of_mem _ he)) ?_
          rintro found hFound
          obtain rfl := Option.some.inj hFound
          exact ⟨by rw [hIndex], rfl⟩

theorem validateEntries_between (hEncodable : Encodable log archive) {a b : Nat} (hab : a ≤ b)
    (hb : b ≤ log.entries.length) :
    Cluster.validateEntries (a + 1) (log.hashAt a) (log.between a b) = .ok () := by
  obtain ⟨n, rfl⟩ := Nat.exists_eq_add_of_le hab
  clear hab
  induction n generalizing a with
  | zero =>
    change Cluster.validateEntries (a + 1) (log.hashAt a) (log.between a a) = .ok ()
    rw [CommittedLog.between_self]
    rfl
  | succ n ih =>
    have ha : a < log.entries.length := by omega
    rw [between_cons (by omega) hb, Cluster.validateEntries, log.indexed a ha, if_neg (by simp),
      hEncodable.prevHash_eq ha, log.hashed _ (List.getElem_mem ha), if_neg (by simp)]
    have hRest := ih (a := a + 1) (by omega)
    rw [show a + 1 + n = a + (n + 1) by omega, hashAt_succ ha] at hRest
    exact hRest

theorem validateLocalBatch_ok {entries : List LogEntry} {start last : Nat}
    {durableTip : CheckpointTip}
    (h : Cluster.validateLocalBatch entries start last durableTip = .ok ()) :
    Cluster.validateEntries start durableTip.hash entries = .ok () := by
  unfold Cluster.validateLocalBatch at h
  split at h
  · cases h
  · exact h

end Batches

section Phases

omit [Sha256] in
theorem afterFlush_fit (world : World) (task : Task)
    (result : Except DurabilityError CheckpointTip) :
    (Cluster.afterFlush task result).Fit world := by
  unfold Cluster.afterFlush
  split
  · split <;> trivial
  all_goals trivial

omit [Sha256] in
theorem beginFlush_fit (world : World) (node : Member) (task : Task) (target : Nat) :
    (Cluster.beginFlush node task target).Fit world := by
  unfold Cluster.beginFlush
  simp only
  split
  · exact afterFlush_fit _ _ _
  · split
    · exact afterFlush_fit _ _ _
    · split
      · trivial
      · split
        · exact afterFlush_fit _ _ _
        · trivial

theorem publishBatch_fit (world : World) (hEncodable : Encodable log archive) {node : Member}
    (hNode : node.log.Sound log world.manifests) (task : Task) (durableTip : CheckpointTip)
    (target : Nat) : (Cluster.publishBatch archive node task durableTip target).Fit world := by
  unfold Cluster.publishBatch
  split
  · exact afterFlush_fit _ _ _
  · split
    · simp only
      split
      · exact afterFlush_fit _ _ _
      · rename_i hBatch
        split
        · rename_i error hError
          have hValid : archive.validatePublicationEntries none _ = .ok () :=
            validatePublication_of_validateEntries hEncodable (validateLocalBatch_ok hBatch)
              (fun entry hEntry => hNode.mem (List.mem_of_mem_filter hEntry))
              fun entry hEntry => by cases hEntry
          cases hError.symm.trans hValid
        · trivial
    · exact afterFlush_fit _ _ _

theorem beginFlush_confirms {node : Member} {index : Nat}
    (hLocal : index ≤ node.log.tip.index) (hAhead : node.durableTip.index ≤ node.log.tip.index)
    (hBehind : node.log.base.index ≤ node.durableTip.index)
    (hHash : node.durableTip.hash = log.hashAt node.durableTip.index) :
    (Cluster.beginFlush node (.confirm index) index).Confirms log index := by
  unfold Cluster.beginFlush
  simp only [not_lt.mpr hAhead, if_false, min_eq_left hLocal]
  split
  · rename_i hDone
    simp only [Cluster.afterFlush, hDone, if_true]
    rfl
  · rename_i hMore
    have hBatch : (CallPhase.batching node.durableTip index).Confirms log index :=
      ⟨rfl, not_le.mp hMore, hHash⟩
    split
    · exact hBatch
    · rename_i anchor hAnchor
      have hBase : node.log.base.index = anchor.compacted.index := by
        unfold LocalLog.base
        rw [hAnchor]
      rw [if_neg (by omega)]
      exact hBatch

theorem publishBatch_confirms (hEncodable : Encodable log archive) {node : Member} {index : Nat}
    {durableTip : CheckpointTip} {last : Nat} (hRetains : node.log.Retains log last)
    (hLocal : index ≤ last) (hBase : node.log.base.index ≤ durableTip.index)
    (hMore : durableTip.index < index) (hHash : durableTip.hash = log.hashAt durableTip.index) :
    (Cluster.publishBatch archive node (.confirm index) durableTip index).Confirms log index := by
  have hLast := hRetains.last_le
  unfold Cluster.publishBatch
  rw [hEncodable.checkedSucc_eq (by omega)]
  simp only
  rw [if_pos (by omega)]
  generalize hEnd : min (durableTip.index + 1 + (flushBatchEntries - 1)) index = final
  have hRead := hRetains.readRange hBase (by omega : durableTip.index ≤ final) (by omega)
  have hBatch : Cluster.validateLocalBatch (node.log.readRange (durableTip.index + 1) final)
      (durableTip.index + 1) final durableTip = .ok () := by
    unfold Cluster.validateLocalBatch
    rw [hRead, CommittedLog.length_between (by omega), if_neg (by omega), hHash]
    exact validateEntries_between hEncodable (by omega) (by omega)
  rw [hBatch]
  simp only
  split <;> rfl

end Phases

section Steps

omit [Sha256] in
theorem CallPhase.Fit.mono {phase : CallPhase} {world world' : World} (h : phase.Fit world)
    (hOwes : ∀ place entries, world.Owes place entries → world'.Owes place entries)
    (hMore : world.manifests ⊆ world'.manifests) : phase.Fit world' := by
  unfold CallPhase.Fit at h ⊢
  split
  · exact hOwes _ _ h
  · exact hMore h
  · exact h
  · trivial

theorem Call.Fit.onNodes {call : Call} (h : call.Fit log w) {w' : Cluster}
    (hWorld : w'.world = w.world)
    (hTips : ∀ id, (w.nodes id).log.tip.index ≤ (w'.nodes id).log.tip.index) :
    call.Fit log w' where
  phase := by
    rw [hWorld]
    exact h.phase
  local_index index hTask := (h.local_index index hTask).trans (hTips _)
  confirms := h.confirms

theorem Cluster.Fit.setPhase (h : w.Fit log archive) {position : Nat} {call : Call}
    (hCall : call ∈ w.calls) {phase : CallPhase}
    (hSound : phase.Sound log w.world.manifests) (hPhase : phase.Fit w.world)
    (hConfirms : ∀ index, call.task = .confirm index → phase.Confirms log index) :
    (w.setPhase position call phase).Fit log archive where
  sound := h.sound.setPhase position call hSound
  world := h.world
  durable := h.durable
  calls other hMem := by
    rcases List.mem_or_eq_of_mem_set hMem with hMem | rfl
    · exact ⟨(h.calls other hMem).phase, (h.calls other hMem).local_index,
        (h.calls other hMem).confirms⟩
    · exact ⟨hPhase, (h.calls call hCall).local_index, hConfirms⟩

theorem Cluster.Fit.setNode (h : w.Fit log archive) (id : Nat) {node : Member}
    (hNode : node.log.Sound log w.world.manifests)
    (hDurable : node.durableTip.hash = log.hashAt node.durableTip.index)
    (hTip : (w.nodes id).log.tip.index ≤ node.log.tip.index) :
    (w.setNode id node).Fit log archive where
  sound := h.sound.setNode id hNode
  world := h.world
  durable other := by
    simp only [Cluster.setNode]
    by_cases hSame : other = id
    · subst hSame
      rw [Function.update_self]
      exact hDurable
    · rw [Function.update_of_ne hSame]
      exact h.durable other
  calls call hCall := by
    refine (h.calls call hCall).onNodes rfl fun other => ?_
    simp only [Cluster.setNode]
    by_cases hSame : other = id
    · subst hSame
      rw [Function.update_self]
      exact hTip
    · rw [Function.update_of_ne hSame]

theorem Member.durable_markDurable {node : Member} {tip : CheckpointTip}
    (hNode : node.durableTip.hash = log.hashAt node.durableTip.index)
    (hTip : tip.hash = log.hashAt tip.index) :
    (node.markDurable tip).durableTip.hash = log.hashAt (node.markDurable tip).durableTip.index := by
  unfold Member.markDurable
  split
  · exact hTip
  · exact hNode

theorem Cluster.Fit.mark (h : w.Fit log archive) (id : Nat) {manifest : CheckpointManifest}
    (hMem : manifest ∈ w.world.manifests) :
    (w.setNode id ((w.nodes id).markDurable manifest.tip)).Fit log archive := by
  refine h.setNode id ?_ ?_ ?_
  · rw [Member.log_markDurable]
    exact h.sound.nodes id
  · exact Member.durable_markDurable (h.durable id) (h.sound.world.holds manifest hMem).tip.2.2
  · rw [Member.log_markDurable]

theorem Cluster.Fit.onWorld (h : w.Fit log archive) (hEncodable : Encodable log archive)
    {event : Archive.Event} {world : World}
    (hStep : World.step archive w.world event = some world) (hLog : event.FromLog log)
    (hSmooth : w.world.Smooth event) :
    Cluster.Sound log archive { w with world := world } ∧ world.Fit log archive :=
  ⟨h.sound.onWorld hStep hLog,
    h.world.step h.sound.world h.sound.legible hEncodable hLog hSmooth hStep⟩

theorem hear_node (before after : World) (place : Nat) (call : Call) :
    (Cluster.hear archive before after place call).node = call.node ∧
      (Cluster.hear archive before after place call).task = call.task := by
  unfold Cluster.hear
  split
  · split
    · split <;> exact ⟨rfl, rfl⟩
    · exact ⟨rfl, rfl⟩
  · split
    · split <;> exact ⟨rfl, rfl⟩
    · exact ⟨rfl, rfl⟩
  · exact ⟨rfl, rfl⟩

theorem hear_confirms (before after : World) (place : Nat) {call : Call} {index : Nat}
    (h : call.phase.Confirms log index) :
    (Cluster.hear archive before after place call).phase.Confirms log index := by
  unfold Cluster.hear
  split
  · rename_i target entries waiting hPhase
    split
    · split
      · rw [hPhase] at h
        exact h
      · exact h
    · exact h
  · rename_i hPhase
    rw [hPhase] at h
    exact h.elim
  · exact h

theorem hear_fit (h : w.Fit log archive) (hEncodable : Encodable log archive) {place : Nat}
    {wins : Bool} {world : World}
    (hStep : World.step archive w.world (.advance place wins) = some world)
    (hSmooth : w.world.Smooth (.advance place wins)) {call : Call} (hCall : call.phase.Fit w.world) :
    (Cluster.hear archive w.world world place call).phase.Fit world := by
  obtain ⟨-, hFit⟩ := h.onWorld hEncodable hStep trivial hSmooth
  have hMore := World.step_manifests hStep
  unfold Cluster.hear
  split
  · rename_i target entries waiting hPhase
    rw [hPhase] at hCall
    have hStill : (∀ process loaded rest, place = waiting →
        w.world.processes[waiting]? = some process →
        process.phase ≠ .answering loaded (entries :: rest)) → call.phase.Fit world := by
      intro hOther
      rw [hPhase]
      rcases World.Owes.step hCall h.world hFit hSmooth hStep with hStill |
        ⟨wins', process, loaded, rest, hEvent, hAt, hAnswering⟩
      · exact hStill
      · obtain ⟨hPlace, -⟩ := Archive.Event.advance.inj hEvent
        exact (hOther process loaded rest hPlace hAt hAnswering).elim
    split
    · rename_i loaded first rest hAnswering
      obtain ⟨process, hAt, hHere⟩ := Option.map_eq_some_iff.mp hAnswering
      obtain ⟨hNone, hLoaded⟩ := publicationSuffixStart_answered h.world h.sound.world
        h.sound.legible hAt hSmooth hHere
      split
      · rename_i hSame
        rw [← hSame.2]
        simp only [Cluster.told, hNone]
        exact hMore hLoaded
      · rename_i hDifferent
        refine hStill fun other found remaining hPlace hOther hOwn => ?_
        subst hPlace
        obtain rfl := Option.some.inj (hAt.symm.trans hOther)
        obtain ⟨-, hEntries⟩ := Phase.answering.inj (hHere.symm.trans hOwn)
        exact hDifferent ⟨rfl, (List.cons.inj hEntries).1⟩
    · rename_i hNotAnswering
      refine hStill fun other found remaining hPlace hOther hOwn => ?_
      subst hPlace
      refine hNotAnswering found entries remaining ?_
      unfold Cluster.phaseAt
      rw [hOther, Option.map_some, hOwn]
  · rename_i waiting hPhase
    split
    · split
      · trivial
      · rw [hPhase]
        trivial
    · rw [hPhase]
      trivial
  · rename_i hNotPublishing hNotRestoring
    unfold CallPhase.Fit at hCall ⊢
    split
    · rename_i target entries waiting hPhase
      exact (hNotPublishing target entries waiting hPhase).elim
    · rename_i target manifest hPhase
      rw [hPhase] at hCall
      exact hMore hCall
    · rename_i target error hPhase
      rw [hPhase] at hCall
      exact hCall
    · trivial

theorem phases_onWorld (h : w.Fit log archive) (hEncodable : Encodable log archive)
    {event : Archive.Event} {world : World}
    (hStep : World.step archive w.world event = some world) (hLog : event.FromLog log)
    (hSmooth : w.world.Smooth event) (hEvent : ∀ place wins, event ≠ .advance place wins)
    {call : Call} (hCall : call.phase.Fit w.world) : call.phase.Fit world := by
  obtain ⟨-, hFit⟩ := h.onWorld hEncodable hStep hLog hSmooth
  refine hCall.mono (fun place entries hOwes => ?_) (World.step_manifests hStep)
  rcases World.Owes.step hOwes h.world hFit hSmooth hStep with hStill |
    ⟨wins, process, loaded, rest, hSame, -⟩
  · exact hStill
  · exact (hEvent place wins hSame).elim

theorem Cluster.Fit.afterWorld (h : w.Fit log archive) (hEncodable : Encodable log archive)
    {event : Archive.Event} {world : World}
    (hStep : World.step archive w.world event = some world) (hLog : event.FromLog log)
    (hSmooth : w.world.Smooth event) (hEvent : ∀ place wins, event ≠ .advance place wins) :
    Cluster.Fit log archive { w with world := world } where
  sound := (h.onWorld hEncodable hStep hLog hSmooth).1
  world := (h.onWorld hEncodable hStep hLog hSmooth).2
  durable := h.durable
  calls call hCall :=
    ⟨phases_onWorld h hEncodable hStep hLog hSmooth hEvent (h.calls call hCall).phase,
      (h.calls call hCall).local_index, (h.calls call hCall).confirms⟩

theorem finishCheckpoint_fit (h : w.Fit log archive) {id : Nat} {anchor : RecoveryAnchor}
    {bytes : Bytes} {restored : RestoredCheckpoint} {next : Member}
    (hRestored : Archived w.world.manifests restored)
    (hFinish : Cluster.finishCheckpoint (w.nodes id) anchor bytes restored = .ok next) :
    next.durableTip.hash = log.hashAt next.durableTip.index ∧
      (w.nodes id).log.tip.index ≤ next.log.tip.index := by
  unfold Cluster.finishCheckpoint at hFinish
  split at hFinish
  · cases hFinish
  · rename_i published hPublished
    split at hFinish
    · cases hFinish
    · rename_i hSame
      split at hFinish
      · cases hFinish
      · rename_i compacted hCompact
        obtain rfl := Except.ok.inj hFinish
        rw [not_not.mp hSame] at hPublished
        obtain ⟨manifest, hMem, hBase⟩ := hRestored anchor bytes hPublished
        have hHash := (h.sound.world.holds manifest hMem).base_hash
        rw [hBase] at hHash
        obtain ⟨last, hRetains⟩ := (h.sound.nodes id).retains
        refine ⟨Member.durable_markDurable (h.durable id) hHash, ?_⟩
        rw [Member.log_markDurable, (hRetains.compactPrefix hCompact).1.tip_index,
          hRetains.tip_index]

theorem Cluster.Fit.advance (h : w.Fit log archive) (hEncodable : Encodable log archive)
    {position : Nat} {call : Call} (hAt : w.calls[position]? = some call)
    (hSmooth : w.Smooth (.advance position)) {w' : Cluster}
    (hStep : Cluster.advance archive w position call = some w') : w'.Fit log archive := by
  have hCall := List.mem_of_getElem? hAt
  have hFit := h.calls call hCall
  have hSound := h.sound.calls call hCall
  have hNode := h.sound.nodes call.node
  have hGuard := hSmooth call hAt
  obtain ⟨last, hRetains⟩ := hNode.retains
  unfold Cluster.advance at hStep
  simp only at hStep
  split at hStep
  · rename_i target hPhase
    obtain rfl := Option.some.inj hStep
    refine h.setPhase hCall (beginFlush_sound _ _ _) (beginFlush_fit _ _ _ _) fun index hTask => ?_
    have hConfirms := hFit.confirms index hTask
    rw [hPhase] at hConfirms
    obtain ⟨hAhead, hBehind⟩ := (hGuard index hTask).1 target hPhase
    rw [hTask, show target = index from hConfirms]
    exact beginFlush_confirms (hFit.local_index index hTask) hAhead hBehind (h.durable call.node)
  · rename_i durableTip target hPhase
    obtain rfl := Option.some.inj hStep
    refine h.setPhase hCall (publishBatch_sound hNode _ _ _)
      (publishBatch_fit _ hEncodable hNode _ _ _) fun index hTask => ?_
    have hConfirms := hFit.confirms index hTask
    rw [hPhase] at hConfirms
    obtain ⟨rfl, hMore, hHash⟩ := hConfirms
    have hLocal := hFit.local_index target hTask
    rw [hRetains.tip_index] at hLocal
    rw [hTask]
    exact publishBatch_confirms hEncodable hRetains hLocal
      ((hGuard target hTask).2 durableTip target hPhase) hMore hHash
  · rename_i target entries place hPhase
    split at hStep
    · rename_i error hFailed
      have hOwes := hFit.phase
      rw [hPhase] at hOwes
      obtain ⟨process, pending, merged, hProcess, -, hOwes⟩ := hOwes
      unfold Cluster.phaseAt at hFailed
      rw [hProcess, Option.map_some, Option.some.injEq] at hFailed
      rw [hFailed] at hOwes
      exact hOwes.elim
    · cases hStep
  · cases hStep
  · rename_i target error hPhase
    have hNever := hFit.phase
    rw [hPhase] at hNever
    exact hNever.elim
  · rename_i target manifest hPhase
    have hMem := hFit.phase
    rw [hPhase] at hMem
    have hMarked := h.mark call.node hMem
    split at hStep
    · rename_i hReached
      obtain rfl := Option.some.inj hStep
      refine hMarked.setPhase hCall (afterFlush_sound _ _) (afterFlush_fit _ _ _)
        fun index hTask => ?_
      have hConfirms := hFit.confirms index hTask
      rw [hPhase] at hConfirms
      obtain rfl : target = index := hConfirms
      simp only [hTask, Cluster.afterFlush, hReached, if_true]
      rfl
    · rename_i hMore
      obtain rfl := Option.some.inj hStep
      refine hMarked.setPhase hCall trivial trivial fun index hTask => ?_
      have hConfirms := hFit.confirms index hTask
      rw [hPhase] at hConfirms
      exact ⟨hConfirms, (not_le.mp hMore).trans_eq hConfirms,
        (h.sound.world.holds manifest hMem).tip.2.2⟩
  · split at hStep
    · rename_i anchor bytes hTask
      have hOther : ∀ {phase : CallPhase} index, call.task = .confirm index →
          phase.Confirms log index := by
        intro phase index hConfirm
        cases hTask.symm.trans hConfirm
      split at hStep
      · obtain rfl := Option.some.inj hStep
        exact h.setPhase hCall trivial trivial hOther
      · rename_i world hWorld
        obtain rfl := Option.some.inj hStep
        have hNext := h.afterWorld hEncodable hWorld trivial trivial
          fun place wins hSame => by cases hSame
        exact hNext.setPhase hCall trivial trivial hOther
    · cases hStep
  · rename_i place hPhase
    have hOther : ∀ {phase : CallPhase} index, call.task = .confirm index →
        phase.Confirms log index := by
      intro phase index hTask
      have hConfirms := hFit.confirms index hTask
      rw [hPhase] at hConfirms
      exact hConfirms.elim
    split at hStep
    · obtain rfl := Option.some.inj hStep
      exact h.setPhase hCall trivial trivial hOther
    · split at hStep
      · cases hStep
      · rename_i world hWorld
        obtain rfl := Option.some.inj hStep
        have hNext := h.afterWorld hEncodable hWorld trivial trivial
          fun place wins hSame => by cases hSame
        exact hNext.setPhase hCall trivial trivial hOther
    · cases hStep
  · rename_i place hPhase
    split at hStep
    · obtain rfl := Option.some.inj hStep
      refine h.setPhase hCall trivial trivial fun index hTask => ?_
      have hConfirms := hFit.confirms index hTask
      rw [hPhase] at hConfirms
      exact hConfirms.elim
    · cases hStep
  · rename_i restored hPhase
    rw [hPhase] at hSound
    split at hStep
    · rename_i anchor bytes hTask
      have hOther : ∀ {phase : CallPhase} index, call.task = .confirm index →
          phase.Confirms log index := by
        intro phase index hConfirm
        cases hTask.symm.trans hConfirm
      split at hStep
      · obtain rfl := Option.some.inj hStep
        exact h.setPhase hCall trivial trivial hOther
      · rename_i node hFinish
        obtain rfl := Option.some.inj hStep
        obtain ⟨hDurable, hTip⟩ := finishCheckpoint_fit h hSound hFinish
        have hCut := h.setNode call.node (finishCheckpoint_sound hNode hSound hFinish) hDurable hTip
        exact hCut.setPhase hCall trivial trivial hOther
    · cases hStep
  · cases hStep

theorem owes_of_flush {world world' : World} {node : Nat} {pending : List (List LogEntry)}
    {entries : List LogEntry}
    (hStep : World.step archive world (.flush node pending) = some world')
    (hFit : world'.Fit log archive) (hMem : entries ∈ pending) :
    world'.Owes world.processes.length entries := by
  simp only [World.step] at hStep
  split at hStep
  · cases hStep
  · rename_i loaded hCached
    split at hStep
    · obtain rfl := Option.some.inj hStep
      have hAt : ∀ process, (world.spawn process).processes[world.processes.length]? =
          some process := by
        intro process
        simp [World.spawn]
      unfold World.flushPhase at hFit ⊢
      split
      · rename_i error hError
        rw [hError] at hFit
        exact (hFit.processes _ (List.mem_of_getElem? (hAt _)) _ _ rfl).elim
      · exact ⟨_, pending, [], hAt _, rfl, hMem⟩
      · rename_i first rest hMerged
        exact ⟨_, pending, first :: rest, hAt _, rfl, hMem⟩
    · cases hStep

omit [Sha256] in
theorem mem_pending {call : Call} (hCall : call ∈ w.calls) {target : Nat}
    {entries : List LogEntry} (hPhase : call.phase = .publishing target entries none) :
    entries ∈ w.pending call.node := by
  refine List.mem_filterMap.mpr ⟨call, hCall, ?_⟩
  simp only [hPhase, if_true]

theorem Cluster.Fit.step (h : w.Fit log archive) (hEncodable : Encodable log archive)
    {event : Event} (hLog : event.FromLog log) (hSmooth : w.Smooth event) {w' : Cluster}
    (hStep : Cluster.step archive w event = some w') : w'.Fit log archive := by
  have hSound := h.sound.step hLog hStep
  cases event with
  | archive event =>
    simp only [Cluster.step] at hStep
    split at hStep
    · cases hStep
    · rename_i world hWorld
      obtain rfl := Option.some.inj hStep
      refine ⟨hSound, (h.onWorld hEncodable hWorld hLog hSmooth).2, h.durable, fun call hCall => ?_⟩
      obtain ⟨old, hOld, rfl⟩ := List.mem_map.mp hCall
      have hFit := h.calls old hOld
      unfold Cluster.hearEvent
      split
      · rename_i place wins
        have hSame : (Cluster.hear archive w.world world place old).node = old.node ∧
            (Cluster.hear archive w.world world place old).task = old.task := hear_node _ _ _ _
        obtain ⟨hNode, hTask⟩ := hSame
        refine ⟨hear_fit h hEncodable hWorld hSmooth hFit.phase, ?_, ?_⟩
        · rw [hNode, hTask]
          exact hFit.local_index
        · rw [hTask]
          exact fun index hConfirm => hear_confirms _ _ _ (hFit.confirms index hConfirm)
      · rename_i hOther
        exact ⟨phases_onWorld h hEncodable hWorld hLog hSmooth hOther hFit.phase,
          hFit.local_index, hFit.confirms⟩
  | write id entry =>
    simp only [Cluster.step] at hStep
    split at hStep
    · rename_i hIndex
      obtain rfl := Option.some.inj hStep
      refine h.setNode id ((h.sound.nodes id).write hLog hIndex) (h.durable id) ?_
      have hTip : LocalLog.tip { (w.nodes id).log with
          entries := (w.nodes id).log.entries ++ [entry] } = ⟨entry.index, entry.hash⟩ := by
        simp [LocalLog.tip]
      simp only [hTip]
      omega
    · cases hStep
  | observe id =>
    simp only [Cluster.step] at hStep
    split at hStep
    · cases hStep
    · rename_i loaded hCached
      obtain rfl := Option.some.inj hStep
      exact h.mark id (h.sound.world.publishers id loaded hCached)
  | begin node task =>
    simp only [Cluster.step] at hStep
    split at hStep
    · cases hStep
    · rename_i phase hFirst
      obtain rfl := Option.some.inj hStep
      refine ⟨hSound, h.world, h.durable, fun call hCall => ?_⟩
      rcases List.mem_append.mp hCall with hCall | hCall
      · exact ⟨(h.calls call hCall).phase, (h.calls call hCall).local_index,
          (h.calls call hCall).confirms⟩
      · obtain rfl := List.mem_singleton.mp hCall
        cases task with
        | confirm index =>
          obtain rfl := Option.some.inj hFirst
          refine ⟨trivial, fun other hTask => ?_, fun other hTask => ?_⟩
          · obtain rfl := Task.confirm.inj hTask
            exact hSmooth
          · exact Task.confirm.inj hTask
        | flush index =>
          obtain rfl := Option.some.inj hFirst
          exact ⟨trivial, fun _ hTask => (by cases hTask), fun _ hTask => (by cases hTask)⟩
        | checkpoint anchor bytes =>
          simp only [Cluster.firstPhase] at hFirst
          split at hFirst
          · obtain rfl := Option.some.inj hFirst
            exact ⟨trivial, fun _ hTask => (by cases hTask), fun _ hTask => (by cases hTask)⟩
          · cases hFirst
  | drive node =>
    simp only [Cluster.step] at hStep
    split at hStep
    · cases hStep
    · rename_i world hWorld
      obtain rfl := Option.some.inj hStep
      have hPending := h.sound.pending node
      have hNext := (h.onWorld hEncodable hWorld hPending hSmooth).2
      refine ⟨hSound, hNext, h.durable, fun call hCall => ?_⟩
      obtain ⟨old, hOld, rfl⟩ := List.mem_map.mp hCall
      have hFit := h.calls old hOld
      have hPhase := phases_onWorld h hEncodable hWorld hPending hSmooth
        (fun place wins hSame => by cases hSame) hFit.phase
      unfold Cluster.take
      split
      · rename_i target entries hAt
        split
        · rename_i hNode
          refine ⟨?_, hFit.local_index, fun index hTask => ?_⟩
          · subst hNode
            exact owes_of_flush hWorld hNext (mem_pending hOld hAt)
          · have hConfirms := hFit.confirms index hTask
            rw [hAt] at hConfirms
            exact hConfirms
        · exact ⟨hPhase, hFit.local_index, hFit.confirms⟩
      · exact ⟨hPhase, hFit.local_index, hFit.confirms⟩
  | advance position =>
    simp only [Cluster.step] at hStep
    split at hStep
    · cases hStep
    · rename_i call hCall
      exact h.advance hEncodable hCall hSmooth hStep
  | crash node => exact hSmooth.elim
  | install id restored =>
    have hNode := hSound.nodes id
    simp only [Cluster.step] at hStep
    split at hStep
    · rename_i hFresh
      obtain rfl := Option.some.inj hStep
      have hEmpty : (w.nodes id).log.tip.index = 0 := by
        unfold LocalLog.tip LocalLog.base
        rw [hFresh.2.1, Option.isNone_iff_eq_none.mp hFresh.1]
        rfl
      simp only [Cluster.setNode, Function.update_self] at hNode
      refine h.setNode id hNode (h.durable id) ?_
      rw [hEmpty]
      exact Nat.zero_le _
    · cases hStep

end Steps

structure Cluster.Settled (w : Cluster) : Prop where
  published : ∀ call ∈ w.calls, ∀ target error, call.phase ≠ .answered target (.error error)
  confirmed : ∀ call ∈ w.calls, ∀ index, call.task = .confirm index →
    ∀ result, call.phase = .returned result → result = .ok ()
  awaited : ∀ call ∈ w.calls, ∀ target entries place,
    call.phase = .publishing target entries (some place) → w.world.Owes place entries

theorem Cluster.Fit.settled (h : w.Fit log archive) : w.Settled where
  published call hCall target error hPhase := by
    have hFit := (h.calls call hCall).phase
    rw [hPhase] at hFit
    exact hFit
  confirmed call hCall index hTask result hPhase := by
    have hConfirms := (h.calls call hCall).confirms index hTask
    rw [hPhase] at hConfirms
    exact hConfirms
  awaited call hCall target entries place hPhase := by
    have hFit := (h.calls call hCall).phase
    rw [hPhase] at hFit
    exact hFit

end Confirm

namespace Pair

attribute [local instance] Sha256.rolling

open Sample (first second identity)

def encode (entries : List LogEntry) : Bytes :=
  if entries = [first] then [1] else if entries = [second] then [2]
  else if entries = [first, second] then [3] else []

def decode (bytes : Bytes) : Option (List LogEntry) :=
  if bytes = [1] then some [first] else if bytes = [2] then some [second]
  else if bytes = [3] then some [first, second] else none

theorem decode_encode {entries decoded : List LogEntry}
    (h : decode (encode entries) = some decoded) : decoded = entries := by
  unfold encode at h
  split at h
  · rename_i hSame
    exact (Option.some.inj h).symm.trans hSame.symm
  · split at h
    · rename_i hSame
      exact (Option.some.inj h).symm.trans hSame.symm
    · split at h
      · rename_i hSame
        exact (Option.some.inj h).symm.trans hSame.symm
      · cases h

def archive : ObjectArchiveStore :=
  ⟨identity, encode, fun _ => decode, fun _ _ _ _ h => decode_encode h⟩

def anchor : RecoveryAnchor :=
  ⟨2, "c", 1, 1, .active 1 .zero, 1, ⟨2, second.hash⟩, LogHash.digest [[7]], 1, none⟩

def empty : Cluster := Cluster.start (World.start (fun _ => none) none) fun _ => Single.log

def archived (place times : Nat) : List Event :=
  List.replicate times (.archive (.advance place true))

/-- Node 0 flushes its entry, loses the swap and meets the manifest with the snapshot. -/
def attempt (place : Nat) : List Event :=
  [.advance 1, .advance 1, .drive 0] ++ archived place 5 ++ [.advance 1]

def script (events : List Event) : List (Cluster → Option Event) :=
  events.map fun event _ => some event

end Pair

end Rhiza.Node.Coordinator
