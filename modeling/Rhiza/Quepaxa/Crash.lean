import Rhiza.Quepaxa.Restart

/-! # Stops and failures in the middle of a call

Wherever a process stops, the next one finds the recorder as it was before the
call, with the command of the call besides, or as it is after it. A call that
failed does not make a later one forget what was acknowledged.
-/

namespace Rhiza.Quepaxa

open Core Library

section Checkpoint

variable [Sha256] {K : StoredCommand → Prop} {node : Identity} {F : Faults Site} {L : Content}

theorem checkpointWal_log (wal₀ : Option WalFile) :
    Triple F (fun d _ => d.wal = wal₀) (checkpointWal node)
      (fun _ _ _ => True) (fun _ _ _ => True) (fun d => d.wal = wal₀ ∨ d.wal = some ⟨[], 0⟩) := by
  have hReplace : ∀ (site : Site) (write : Disk → Disk), (∀ d, (write d).wal = d.wal) →
      Triple F (fun d (_ : Memory) => d.wal = wal₀) (Program.perform (FileStep.replace site write))
        (fun _ d _ => d.wal = wal₀) (fun _ _ _ => True)
        (fun d => d.wal = wal₀ ∨ d.wal = some ⟨[], 0⟩) := by
    intro site write hWrite
    refine Triple.perform (fun d m h => (hWrite d).trans h) (fun d m n _ h => ?_)
      fun _ _ _ _ _ _ => trivial
    change (if n = 0 then d else write d).wal = wal₀ ∨ (if n = 0 then d else write d).wal = _
    split
    · exact .inl h
    · exact .inl ((hWrite d).trans h)
  have hAll : ∀ {α : Type} (site : Site) (write : α → Disk → Disk) (items : List α),
      (∀ item d, (write item d).wal = d.wal) →
      Triple F (fun d (_ : Memory) => d.wal = wal₀)
        (Program.performAll (fun item => FileStep.replace site (write item)) items)
        (fun _ d _ => d.wal = wal₀) (fun _ _ _ => True)
        (fun d => d.wal = wal₀ ∨ d.wal = some ⟨[], 0⟩) := by
    intro α site write items hWrite
    induction items with
    | nil => exact Triple.pure fun _ _ h => h
    | cons item rest ih => exact Triple.bind (hReplace site (write item) (hWrite item)) fun _ => ih
  refine Triple.bind (Q := fun _ d _ => d.wal = wal₀) (Triple.memory fun _ _ h => h) fun m => ?_
  split
  · exact Triple.fail fun _ _ _ => trivial
  split
  · exact Triple.pure fun _ _ _ => trivial
  refine Triple.bind (hAll .checkpointCommand _ m.wal.commands fun _ _ => rfl) fun _ => ?_
  refine Triple.bind (hAll .checkpointSlot _ m.wal.slots fun _ _ => rfl) fun _ => ?_
  refine Triple.bind (Q := fun _ d _ => d.wal = wal₀) (Triple.lift (fun _ _ _ _ h => h)
    fun _ _ _ _ _ => trivial) fun _ => ?_
  refine Triple.bind (hReplace .checkpointConfiguration _ fun _ => rfl) fun _ => ?_
  refine Triple.bind (Q := fun _ d _ => d.wal = wal₀) (Triple.lift (fun _ _ _ _ h => h)
    fun _ _ _ _ _ => trivial) fun head => ?_
  refine Triple.bind (Q := fun _ d _ => d.wal = wal₀) (Triple.perform (fun _ _ h => h)
    (fun d m n _ h => ?_) fun _ _ _ _ _ _ => trivial) fun _ => ?_
  · change (if n = 0 then d else _).wal = wal₀ ∨ _
    split
    · exact .inl h
    · exact .inl h
  refine Triple.bind (Q := fun _ _ _ => True) (Triple.onError (Triple.perform (fun _ _ _ => trivial)
    (fun d m n _ h => ?_) fun _ _ _ _ _ _ => trivial)) fun _ => Triple.setMemory fun _ _ _ => trivial
  change (if n = 0 then d else _).wal = wal₀ ∨ (if n = 0 then d else _).wal = some ⟨[], 0⟩
  split
  · exact .inl h
  · exact .inr rfl

theorem checkpointWal_stops (hSetting : Setting K node True L) (d₀ : Disk) (m₀ : Memory)
    (hLive : Live K node True L d₀ m₀) (hCrashes : ∀ site crash n, F site crash n → crash = true)
    (hCovered : ∀ site crash n, F site crash n → splitsCheckpoint site crash n →
      ∀ head, d₀.recordedHead = some head → head.provenance.Covers m₀.configuration) :
    Triple F (fun d m => d = d₀ ∧ m = m₀) (checkpointWal node) (fun _ _ _ => True)
      (fun _ _ _ => True)
      (fun d => Settled K node True L d ∧ (d.wal = d₀.wal ∨ d.wal = some ⟨[], 0⟩)) := by
  have hJoined : ∀ site crash n, F site crash n → ¬ splitsMemory site crash n := by
    intro site crash n hF hSplits
    obtain rfl := hCrashes site crash n hF
    cases site <;> simp [splitsMemory] at hSplits
  obtain ⟨c, head, frames, hs, -⟩ := hLive.stored
  have hFiles : Triple F (fun d m => d = d₀ ∧ m = m₀) (checkpointWal node) (fun _ _ _ => True)
      (fun _ _ _ => True) (fun d => Settled K node True L d) := by
    refine Triple.bind (Q := fun m₁ d m => m₁ = m₀ ∧ d = d₀ ∧ m = m₀)
      (Triple.memory fun d m h => ⟨h.2, h⟩) fun m₁ => Triple.given ?_
    rintro rfl
    split
    · exact Triple.fail fun _ _ _ => trivial
    split
    · exact Triple.pure fun _ _ _ => trivial
    refine (checkpointFiles_triple hSetting m₁ head hJoined fun _ site crash n hF hSplits =>
      hCovered site crash n hF hSplits head hs.head).conseq ?_ (fun _ _ _ _ => trivial)
      (fun _ _ _ _ => trivial) fun _ h => h
    rintro d m ⟨rfl, rfl⟩
    exact ⟨rfl, hs.head, hLive⟩
  refine (hFiles.and ((checkpointWal_log d₀.wal).conseq ?_ (fun _ _ _ h => h) (fun _ _ _ h => h)
    fun _ h => h)).conseq (fun _ _ h => h) (fun _ _ _ _ => trivial) (fun _ _ _ _ => trivial)
    fun _ h => h
  rintro d m ⟨rfl, rfl⟩
  rfl

variable {G : Faults Site} {s₀ s : FileRecorder} {m : Memory} {fault : StoreFault}

/-- Wherever the process stops inside a checkpoint, the next one reports what this
one did. The durable head may not be a checkpoint-backed one that the recorder
has passed while `configuration.rec` is new and `recorded-head.rec` is not. -/
theorem stop_in_checkpoint_keeps_reports (hBegins : Begins K s₀) (hRun : StoreRun K G s₀ s)
    (hMemory : s.memory = some m) (hCrash : ∀ f, fault = some f → f.crash = true)
    (hCovered : ∀ f head, fault = some f → splitsCheckpoint f.site f.crash f.extent →
      s.disk.recordedHead = some head → head.provenance.Covers m.configuration)
    (hBounded : ∀ w, s.disk.wal = some w → w.bytes ≤ maxRecorderWalBytes)
    (hStopped : (s.call fault (checkpointWal s.self)).1.memory = none) (existingOnly : Bool)
    {membership : Membership} (hMembership : m.configuration.membership = some membership) :
    ((s.call fault (checkpointWal s.self)).1.reopen none existingOnly m.configuration.configId
        membership).memory ≠ none ∧
      SameReports s ((s.call fault (checkpointWal s.self)).1.reopen none existingOnly
        m.configuration.configId membership) := by
  have hSteady := hBegins.steady hRun
  have hSits := hSteady.sits
  rw [hMemory] at hSits
  cases (hSits : Standing K s.self G True s.disk.content s.disk m) with
  | failed _ hFailed _ _ =>
    have hRefused : checkpointWal s.self s.disk m fault = ⟨s.disk, m, fault, .error walFailed⟩ := by
      change (if m.wal.failed = true then _ else _ : Io Unit) s.disk m fault = _
      rw [if_pos hFailed]
      rfl
    simp only [FileRecorder.call, hMemory, hRefused] at hStopped
    cases hStopped
  | pending _ i hPending =>
    have hFailed : m.wal.failed = false := by rw [hPending.start]
    have hCount : m.wal.frameCount = 0 := by rw [hPending.start]
    have hIdle : checkpointWal s.self s.disk m fault = ⟨s.disk, m, fault, .value ()⟩ := by
      change (if m.wal.failed = true then _ else (if m.wal.frameCount = 0 then _ else _) : Io Unit)
        s.disk m fault = _
      rw [if_neg (by simp [hFailed]), if_pos hCount]
      rfl
    simp only [FileRecorder.call, hMemory, hIdle] at hStopped
    cases hStopped
  | live hLive =>
    have hTriple := checkpointWal_stops (F := onlyFault fault) hSteady.ready.toSetting s.disk m hLive
      (by rintro site crash n ⟨f, hf, -, rfl, -⟩; exact hCrash f hf)
      (by rintro site crash n ⟨f, hf, rfl, rfl, rfl⟩ hSplits head hHead
          exact hCovered f head hf hSplits hHead)
    revert hStopped
    refine call_cases hMemory hTriple ⟨rfl, rfl⟩ (R := fun s' _ => s'.memory = none →
      (s'.reopen none existingOnly m.configuration.configId membership).memory ≠ none ∧
      SameReports s (s'.reopen none existingOnly m.configuration.configId membership))
      (fun _ _ _ _ h => (by cases h)) (fun _ _ _ _ h => (by cases h)) ?_
    rintro d ⟨hSettled, hWal⟩ -
    have hGood := hSteady.ready.good trivial
    have hKept : Sits K G s.self s.disk.content d none := Kept.settled hSettled
    obtain ⟨hNext, hSame⟩ := hSteady.moved (.idle (.activate 0 .zero 0 .zero)) hGood hKept
    have hContent : d.content = s.disk.content := Kept.content_eq (.settled hSettled)
    have hOpenable : Openable d.content d m.configuration.configId membership := by
      rw [hContent]
      refine ⟨?_, ?_, fun w hw => ?_⟩
      · rw [hLive.configuration_eq]
      · rw [← hLive.configuration_eq]
        exact hMembership
      · rcases hWal with hSame | hEmpty
        · exact hBounded w (hSame.symm.trans hw)
        · obtain rfl := Option.some.inj (hEmpty.symm.trans hw)
          decide
    obtain ⟨hRuns, hRecorder, hReports⟩ := hNext.reopened hBegins.fits existingOnly hOpenable
    refine ⟨hRuns, (Live.reports hBegins.fits hMemory hLive).same hReports ?_ hContent ?_⟩
    · rw [reopen_self]
      rfl
    · have hAll := hRecorder.trans hSame
      exact congrArg Recorder.retired hAll

end Checkpoint

namespace Solo

open scoped Trio

def self : Identity := ⟨"a", "trio", 1⟩

def membership : Membership := Trio.group.membership

def stopCommand (configId : Nat) : StoredCommand :=
  match ConfigChange.newBoundStop "trio" configId membership.digest (configId + 1)
      membership.members with
  | some change => change.toStoredCommand
  | none => ⟨.command, []⟩

def request (configId slot : Nat) (command : StoredCommand) : RecordRequest :=
  ⟨"trio", 1, configId, membership.digest, slot, 4,
    ⟨.max, "a", 1, some (.fromCommand "trio" slot 1 configId .zero command)⟩, some command⟩

def stopValue : AcceptedValue := .fromCommand "trio" 1 1 1 .zero (stopCommand 1)

def stopProof : DecisionProof :=
  let proposal : Proposal := ⟨.max, "a", 1, some stopValue⟩
  .fastPath "trio" 1 1 1 membership.digest proposal
    [⟨"a", 1, 4, some proposal, none⟩, ⟨"b", 1, 4, some proposal, none⟩]

def start : FileRecorder := .fresh self 1 membership

def after (steps : List StoreStep) : FileRecorder := steps.foldl FileRecorder.step start

def stopAt (site : Site) : StoreFault := some ⟨site, 0, true, 0, ""⟩

def failAt (site : Site) (extent : Nat) : StoreFault := some ⟨site, 0, false, extent, "disk"⟩

def commands : List StoredCommand :=
  [Trio.command 1, Trio.command 2, stopCommand 1]

theorem begins : Begins (· ∈ commands) start := by
  refine ⟨?_, ?_, self, 1, membership, rfl, by decide, by decide +kernel⟩
  · have hApart : ∀ c ∈ commands, ∀ c' ∈ commands, c.hash = c'.hash → c = c' := by decide +kernel
    exact fun c c' hc hc' => hApart c hc c' hc'
  · have hFits : ∀ c ∈ commands, (encodeStoredCommand c).length ≤ maxCommandCacheBytes := by
      decide +kernel
    exact hFits

theorem run {steps : List StoreStep} (h : StoreStep.allPermit commands start steps) :
    StoreRun (· ∈ commands) (fun _ _ _ => True) start (after steps) :=
  run_of_allPermit (fun _ _ _ _ _ _ _ => trivial) h

def recorded : List StoreStep := [.call none (.record (request 1 1 (Trio.command 1)))]

/-- A checkpoint of one frame that stops before it wrote the head. -/
theorem stop_in_checkpoint :
    (((after recorded).call (stopAt .checkpointHead)
        (checkpointWal (after recorded).self)).1.reopen none false 1 membership).memory ≠ none ∧
      SameReports (after recorded) (((after recorded).call (stopAt .checkpointHead)
        (checkpointWal (after recorded).self)).1.reopen none false 1 membership) := by
  have hRun : StoreRun (· ∈ commands) (fun _ _ _ => True) start (after recorded) :=
    run (by decide +kernel)
  have hMemory : (after recorded).memory.any fun m => decide (m.configuration.configId = 1 ∧
      m.configuration.membership = some membership) := by decide +kernel
  have hHead : (after recorded).disk.recordedHead.all (·.provenance = .empty) := by decide +kernel
  have hBytes : (after recorded).disk.wal.all fun w => decide (w.bytes ≤ maxRecorderWalBytes) := by
    decide +kernel
  have hStopped : ((after recorded).call (stopAt .checkpointHead)
      (checkpointWal (after recorded).self)).1.memory.isNone := by decide +kernel
  generalize after recorded = s at *
  obtain ⟨m, hSome, hHere⟩ := (Option.any_eq_true _ _).mp hMemory
  obtain ⟨hId, hMembership⟩ := of_decide_eq_true hHere
  rw [← hId]
  refine stop_in_checkpoint_keeps_reports begins hRun hSome ?_ ?_ ?_
    (Option.isNone_iff_eq_none.mp hStopped) false hMembership
  · rintro f ⟨⟩
    rfl
  · rintro f head - - hHere stopSlot prefixHash recoveredTip recoveredHash hBacked
    rw [hHere, Option.all_some, decide_eq_true_eq, hBacked] at hHead
    cases hHead
  · intro w hWal
    rw [hWal] at hBytes
    exact of_decide_eq_true hBytes

def pastRecoveredTip : List StoreStep :=
  [.call none (.installSuccessor membership stopProof),
    .call none (.recoverActivation 1 stopValue.entryHash 5 (LogHash.digest [[1]])),
    .call none (.record (request 2 6 (Trio.command 1)))]

/-- `configuration.rec` is new and `recorded-head.rec` is old: the root is not opened. -/
theorem checkpoint_past_recovered_tip_is_refused :
    (after pastRecoveredTip).memory.isSome ∧
      (after pastRecoveredTip).configurationState.map (·.configId) = some 2 ∧
      (after pastRecoveredTip).configurationState.bind (·.membership) = some membership ∧
      (((after pastRecoveredTip).call (stopAt .checkpointHead) (checkpointWal self)).1.reopen none
        false 2 membership).memory.isNone := by
  decide +kernel

end Solo

section Calls

variable [Sha256] {K : StoredCommand → Prop} {G : Faults Site} {s₀ s s' : FileRecorder}
  {fault : StoreFault} {call : StoreCall}

/-- What a call leaves behind: everything as it was, the same with the command of the
call, or its whole effect. -/
inductive LeftBy (s : FileRecorder) (call : StoreCall) (L : Content) : Prop
  | before (h : L = s.disk.content)
  | stored (replaces : Bool) (h : L =
      { s.disk.content with commands := (call.on s.recorder ⟨replaces, none⟩).commands })
  | after (replaces : Bool) (h : L.recorder s.self (call.on s.recorder ⟨replaces, none⟩).retired =
      call.on s.recorder ⟨replaces, none⟩)
      (hHead : L.head = call.headOn s.disk.content s.recorder)

theorem StoreCall.on_everything (r : Recorder) (replaces : Bool) (error : Error)
    (call : StoreCall) :
    call.on r ⟨replaces, some (.everything, error)⟩ = call.on r ⟨replaces, none⟩ := by
  cases call with
  | storeCommand hash command =>
    simp only [on, Recorder.storeCommand]
    split
    · rfl
    · split <;> rfl
  | record request =>
    simp only [on, Recorder.record]
    split <;> rfl
  | installDecisionProof proof membership =>
    simp only [on, Recorder.installDecisionProof]
    split <;> rfl
  | installSuccessor membership stopProof =>
    simp only [on, Recorder.installSuccessor]
    split
    · rfl
    · split <;> rfl
  | recoverActivation stopSlot prefixHash recoveredTip recoveredHash =>
    simp only [on, Recorder.recoverActivation]
    split <;> rfl
  | inspect => rfl
  | observe => rfl

omit [Sha256] in
theorem Recorder.eq_keepCommand (r : Recorder) (replaces : Bool) (hash : LogHash)
    (command : StoredCommand) : r.keepCommand replaces hash command =
      { r with commands := (r.keepCommand replaces hash command).commands } := by
  unfold keepCommand
  split <;> rfl

omit [Sha256] in
theorem Recorder.eq_stage (r : Recorder) (replaces : Bool)
    (staged : Option (LogHash × StoredCommand)) :
    r.stage replaces staged = { r with commands := (r.stage replaces staged).commands } := by
  cases staged with
  | none => rfl
  | some entry => exact r.eq_keepCommand replaces entry.1 entry.2

theorem StoreCall.on_command (r : Recorder) (replaces : Bool) (error : Error) (call : StoreCall) :
    call.on r ⟨replaces, some (.command, error)⟩ = r ∨
      call.on r ⟨replaces, some (.command, error)⟩ =
        { r with commands := (call.on r ⟨replaces, none⟩).commands } := by
  cases call with
  | storeCommand hash command =>
    left
    simp only [on, Recorder.storeCommand]
    split
    · rfl
    · split <;> rfl
  | record request =>
    simp only [on, Recorder.record]
    split
    · exact .inl rfl
    · exact .inl rfl
    · exact .inr (r.eq_stage replaces _)
  | installDecisionProof proof membership =>
    left
    simp only [on, Recorder.installDecisionProof]
    split <;> rfl
  | installSuccessor membership stopProof =>
    simp only [on, Recorder.installSuccessor]
    split
    · exact .inl rfl
    · split
      · exact .inl rfl
      · rename_i staged hStaged
        obtain ⟨rfl, -⟩ := Recorder.storeCommand_eq_ok hStaged
        exact .inr (r.eq_keepCommand false _ _)
  | recoverActivation stopSlot prefixHash recoveredTip recoveredHash =>
    left
    simp only [on, Recorder.recoverActivation]
    split <;> rfl
  | inspect => exact .inl rfl
  | observe => exact .inl rfl

omit [Sha256] in
theorem Content.eq_of_recorder {node : Identity} {L L' : Content}
    {retired retired' : List ConfigurationState} {commands : LogHash → Option StoredCommand}
    (h : L.recorder node retired = { L'.recorder node retired' with commands := commands })
    (hHead : L.head = L'.head) : L = { L' with commands := commands } := by
  obtain ⟨configuration, head, slots, held⟩ := L
  obtain ⟨configuration', head', slots', held'⟩ := L'
  injection h with _ _ _ hConfiguration _ hSlots hCommands
  subst hConfiguration hSlots hCommands hHead
  rfl

theorem Served.leftBy {reply : Result StoreReply} (h : Served K G s call s' reply)
    (hSelf : s'.self = s.self) : LeftBy s call s'.disk.content := by
  obtain ⟨⟨replaces, failure⟩, hOn, hHead⟩ := h.lands
  change s'.disk.content.recorder s'.self s'.retired = _ at hOn
  rw [hSelf] at hOn
  have hRetired := congrArg Recorder.retired hOn
  match failure with
  | none => exact .after replaces (hRetired ▸ hOn) hHead
  | some (.everything, error) =>
    rw [StoreCall.on_everything] at hOn hRetired
    exact .after replaces (hRetired ▸ hOn) hHead
  | some (.nothing, error) =>
    exact .before (Content.eq_of_recorder (hOn.trans (call.on_nothing s.recorder replaces error)) hHead)
  | some (.command, error) =>
    rcases call.on_command s.recorder replaces error with hSame | hStored
    · exact .before (Content.eq_of_recorder (hOn.trans hSame) hHead)
    · exact .stored replaces (Content.eq_of_recorder (hOn.trans hStored) hHead)

theorem serve_self (s : FileRecorder) (fault : StoreFault) (call : StoreCall) :
    (s.serve fault call).1.self = s.self := by
  unfold FileRecorder.serve FileRecorder.call
  split
  · rfl
  · dsimp only
    split <;> rfl

/-- Wherever the process stops inside a call, the next one reports the recorder as it
was before the call or as it is after it. Only the command of the call may be there
without the call. -/
theorem stopped_call_is_atomic (hBegins : Begins K s₀) (hRun : StoreRun K G s₀ s)
    (hBenign : Benign K G s fault call) (existingOnly : Bool) {configId : Nat}
    {membership : Membership} (hOpenable : Openable (s.serve fault call).1.disk.content
      (s.serve fault call).1.disk configId membership) :
    ((s.serve fault call).1.reopen none existingOnly configId membership).memory ≠ none ∧
      ∃ L, Reports ((s.serve fault call).1.reopen none existingOnly configId membership) L ∧
        LeftBy s call L := by
  have hServed := (hBegins.steady hRun).serve hBenign
  obtain ⟨hRuns, -, hReports⟩ := hServed.steady.reopened hBegins.fits existingOnly hOpenable
  exact ⟨hRuns, _, hReports, hServed.leftBy (serve_self s fault call)⟩

end Calls

namespace Solo

open scoped Trio

def stopped : FileRecorder :=
  ((after recorded).serve (stopAt .transitionSlot) (.record (request 1 2 (stopCommand 1)))).1

theorem stop_in_transition : (stopped.reopen none false 1 membership).memory ≠ none ∧
    ∃ L, Reports (stopped.reopen none false 1 membership) L ∧
      LeftBy (after recorded) (.record (request 1 2 (stopCommand 1))) L := by
  have hRun : StoreRun (· ∈ commands) (fun _ _ _ => True) start (after recorded) :=
    run (by decide +kernel)
  have hPermits : StoreCall.permits commands (after recorded).recorder
      (.record (request 1 2 (stopCommand 1))) := by decide +kernel
  have hFrames : (after recorded).memory.all fun m => decide (m.wal.frameCount ≠ 0) := by
    decide +kernel
  have hOpenable : stopped.disk.content.configuration.configId = 1 ∧
      stopped.disk.content.configuration.membership = some membership ∧
      stopped.disk.wal.all fun w => decide (w.bytes ≤ maxRecorderWalBytes) := by decide +kernel
  unfold stopped at *
  generalize after recorded = s at *
  obtain ⟨hId, hMembership, hBytes⟩ := hOpenable
  refine stopped_call_is_atomic begins hRun (benign_of_permits (fun _ _ _ _ => trivial) ?_ hPermits)
    false ⟨hId, hMembership, ?_⟩
  · refine fun m hm => ⟨?_, ?_, ?_⟩
    · rintro site crash n ⟨f, ⟨⟩, rfl, -⟩
      exact id
    · rintro - site crash n ⟨f, ⟨⟩, rfl, -⟩ hSplits
      exact hSplits.elim
    · rintro - site crash n - - hNone
      rw [hm] at hFrames
      exact absurd hNone (of_decide_eq_true hFrames)
  · intro w hWal
    rw [hWal] at hBytes
    exact of_decide_eq_true hBytes

def staleFrames : List StoreStep :=
  [.call none (.record (request 1 1 (Trio.command 1))),
    .call (stopAt .checkpointTruncate) (.record (request 1 2 (stopCommand 1))),
    .reopen none false 1 membership]

/-- After a second stop the intent meets a log that is not empty: the root is not opened. -/
theorem transition_over_stale_frames_is_refused :
    (after staleFrames).memory.isSome ∧
      ((((after staleFrames).serve (stopAt .transitionSlot)
        (.record (request 1 2 (stopCommand 1)))).1.reopen none false 1
          membership).memory.isNone) := by
  decide +kernel

def first : FileRecorder × Result StoreReply :=
  start.serve none (.record (request 1 1 (Trio.command 1)))

def failing : List StoreStep :=
  [.call (failAt .walAppend 3) (.record (request 1 2 (Trio.command 2)))]

def poisoned : FileRecorder := failing.foldl FileRecorder.step first.1

def headAhead : List StoreStep :=
  [.call none (.record (request 1 1 (Trio.command 1))),
    .call (failAt .checkpointHead 1) (.record (request 1 2 (stopCommand 1)))]

end Solo

end Rhiza.Quepaxa
