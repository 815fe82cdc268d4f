import Rhiza.Quepaxa.Opening

/-! # Runs of one recorder

The calls to a recorder, the stops of its process and its restarts, in any order.
Whatever happened, the root is opened again with what the recorder stands for,
and a reply that was given is kept.
-/

namespace Rhiza.Quepaxa

open Core Library

section Reopen

variable [Sha256] {K : StoredCommand → Prop} {G : Faults Site} {s : FileRecorder}

theorem Steady.fresh (hApart : TellsApart K) {node : Identity}
    (hCluster : (utf8 node.clusterId).length ≤ 65535) (configId : Nat) {membership : Membership}
    (hNonzero : membership.digest ≠ .zero) : Steady K G (.fresh node configId membership) := by
  have hGood : Content.Good K node
      (FileRecorder.freshDisk node configId membership).content :=
    ⟨⟨hNonzero, membership, rfl, rfl⟩, fun _ _ h => (by cases h), fun _ _ h => (by cases h), trivial⟩
  have hStored : Stored K node True (FileRecorder.freshDisk node configId membership)
      (.initial configId membership.digest (some membership))
      ⟨node.clusterId, node.epoch, configId, membership.digest, .empty, .default⟩ ⟨[], 0⟩
      (.start (.initial configId membership.digest (some membership)) .empty .default) :=
    ⟨rfl, rfl, rfl, rfl, rfl, rfl, fun _ h => (by cases h),
      by simp [configurationStructureChanged, Replay.start], rfl,
      fun _ => ⟨rfl, rfl, rfl, rfl, Nat.one_ne_zero, ⟨_, rfl⟩, trivial, fun _ _ h => (by cases h),
        fun _ _ h => (by cases h)⟩⟩
  refine ⟨⟨⟨hApart, fun _ => hCluster, fun _ => hGood⟩, ?_, rfl⟩, ?_⟩
  · exact Recorder.Tidy.new node.recorderId node.clusterId node.epoch configId membership
  · exact Standing.live ⟨⟨_, _, [], hStored, rfl⟩, rfl, rfl⟩

theorem reopen_cases {fault : StoreFault} {existingOnly : Bool} {configId : Nat}
    {membership : Membership} {Q : Disk → Memory → Prop} {E : Error → Disk → Memory → Prop}
    {C : Disk → Prop} (h : Triple (onlyFault fault) (fun d m => d = s.disk ∧ m = .blank configId)
      (openWithMembership s.self existingOnly configId membership) (fun _ => Q) E C)
    {R : FileRecorder → Prop} (hQ : ∀ d m, Q d m → R (s.moved d (some m)))
    (hE : ∀ e d m, E e d m → R (s.moved d none))
    (hC : ∀ d, C d → fault ≠ none → R (s.moved d none)) :
    R (s.reopen fault existingOnly configId membership) := by
  obtain ⟨hSatisfies, -⟩ := h s.disk (.blank configId) fault (allow_onlyFault fault) ⟨rfl, rfl⟩
  unfold Outcome.Satisfies at hSatisfies
  unfold FileRecorder.reopen
  cases hExit : (openWithMembership s.self existingOnly configId membership s.disk (.blank configId)
    fault).exit with
  | value a =>
    simp only [hExit] at hSatisfies ⊢
    exact hQ _ _ hSatisfies
  | error e =>
    simp only [hExit] at hSatisfies ⊢
    exact hE e _ _ hSatisfies
  | crash =>
    simp only [hExit] at hSatisfies ⊢
    refine hC _ hSatisfies ?_
    rintro rfl
    exact (calm_openWithMembership s.disk (.blank configId)).1 hExit

theorem reopen_self (s : FileRecorder) (fault : StoreFault) (existingOnly : Bool) (configId : Nat)
    (membership : Membership) : (s.reopen fault existingOnly configId membership).self = s.self := by
  unfold FileRecorder.reopen
  cases hExit : (openWithMembership s.self existingOnly configId membership s.disk (.blank configId)
    fault).exit <;> simp only [hExit] <;> rfl

theorem Steady.reopen (hFits : FitsCache K) (h : Steady K G s) (fault : StoreFault)
    (existingOnly : Bool) (configId : Nat) (membership : Membership) :
    Steady K G (s.reopen fault existingOnly configId membership) ∧
      (s.reopen fault existingOnly configId membership).recorder = s.recorder ∧
      (fault = none → Openable s.disk.content s.disk configId membership →
        ∃ m, (s.reopen fault existingOnly configId membership).memory = some m ∧
          Live K s.self True s.disk.content
            (s.reopen fault existingOnly configId membership).disk m) := by
  have hGood := h.ready.good trivial
  have hMoved : ∀ d memory, Sits K G s.self s.disk.content d memory →
      Steady K G (s.moved d memory) ∧ (s.moved d memory).recorder = s.recorder :=
    fun d memory hSits => h.moved (.idle (.activate 0 .zero 0 .zero)) hGood hSits
  refine reopen_cases (open_kept existingOnly configId membership hFits (h.ready.fits trivial) hGood
    h.sits.kept) (R := fun s' => Steady K G s' ∧ s'.recorder = s.recorder ∧ (fault = none →
      Openable s.disk.content s.disk configId membership → ∃ m, s'.memory = some m ∧
        Live K s.self True s.disk.content s'.disk m)) ?_ ?_ ?_
  · intro d m hLive
    obtain ⟨hSteady, hSame⟩ := hMoved d (some m) (.live hLive)
    exact ⟨hSteady, hSame, fun _ _ => ⟨m, rfl, hLive⟩⟩
  · rintro e d m ⟨hErrs, hKept⟩
    obtain ⟨hSteady, hSame⟩ := hMoved d none hKept
    refine ⟨hSteady, hSame, fun hNone hOpenable => ?_⟩
    obtain ⟨site, n, f, hf, -⟩ := hErrs hOpenable
    cases hNone.symm.trans hf
  · intro d hKept hFault
    obtain ⟨hSteady, hSame⟩ := hMoved d none hKept
    exact ⟨hSteady, hSame, fun hNone _ => absurd hNone hFault⟩

end Reopen

namespace FileRecorder

variable [Sha256] (s : FileRecorder)

def configurationState : Option ConfigurationState := s.memory.map (·.configuration)

def recordedHead : Option RecordedHeadProvenance := s.memory.map (·.recordedHead)

def load (slot : Nat) : Result RecorderSlotState :=
  match s.memory with
  | some m => m.loadUnlocked s.self s.disk slot m.configuration.configDigest
  | none => .error stopped

def fetchCommand (hash : LogHash) : Result (Option StoredCommand) :=
  match s.memory with
  | some m => m.fetchCommand s.disk hash
  | none => .error stopped

end FileRecorder

section Reports

variable [Sha256] {K : StoredCommand → Prop} {node : Identity} {L : Content} {d : Disk} {m : Memory}

structure Reports (s : FileRecorder) (L : Content) : Prop where
  configuration_eq : s.configurationState = some L.configuration
  head_eq : s.recordedHead = some L.head
  load_eq : ∀ slot, s.load slot =
    (L.recorder s.self s.retired).load slot L.configuration.configDigest
  fetch_eq : ∀ hash, s.fetchCommand hash = .ok (L.commands hash)

structure SameReports (s s' : FileRecorder) : Prop where
  configuration_eq : s'.configurationState = s.configurationState
  head_eq : s'.recordedHead = s.recordedHead
  load_eq : ∀ slot, s'.load slot = s.load slot
  fetch_eq : ∀ hash, s'.fetchCommand hash = s.fetchCommand hash

theorem Live.fetch_eq (hFits : FitsCache K) (h : Live K node True L d m) (hash : LogHash) :
    m.fetchCommand d hash = .ok (L.commands hash) := by
  have hCommands := h.commands_eq
  obtain ⟨c, head, frames, hs, -⟩ := h.stored
  have hKeyed := (hs.firm trivial).keyed
  rw [← hCommands, Assoc.layered, Memory.fetchCommand]
  cases Assoc.get m.wal.commands hash with
  | some command => rfl
  | none =>
    simp only [Option.none_or]
    cases hFile : d.commands hash with
    | none => exact fetchCommandCache_of_none hFile
    | some command => exact fetchCommandCache_of_some hFits hKeyed hFile

theorem Live.load_eq (h : Live K node True L d m) (retired : List ConfigurationState) (slot : Nat) :
    m.loadUnlocked node d slot m.configuration.configDigest =
      (L.recorder node retired).load slot L.configuration.configDigest := by
  have hConfiguration := h.configuration_eq
  have hSlots := h.slots_eq
  obtain ⟨c, head, frames, hs, -⟩ := h.stored
  have hResolved := (hs.firm trivial).resolved
  have hHere : (L.recorder node retired).slots slot =
      (Assoc.get m.wal.slots slot).or (d.slots slot) := by
    change L.slots slot = _
    rw [← hSlots]
    rfl
  rw [Recorder.load, hHere, Memory.loadUnlocked, hConfiguration]
  cases hGet : Assoc.get m.wal.slots slot with
  | some state =>
    obtain ⟨hSlot, hCluster, hEpoch, hConfig, hDigest⟩ :=
      hs.owned trivial _ (Assoc.mem_of_get hGet)
    change state.configId = m.configuration.configId at hConfig
    change state.configDigest = m.configuration.configDigest at hDigest
    rw [hConfiguration] at hConfig hDigest
    have hOwns : (L.recorder node retired).owns slot L.configuration.configDigest state := by
      simp only [Recorder.owns, decide_eq_true_eq]
      exact ⟨hSlot, hCluster, hEpoch, hConfig, fun _ => hDigest⟩
    simp only [Option.some_or, if_pos hOwns]
    refine unit_bind_ok_iff.mpr ⟨checkDecode_eq_ok.mpr (decide_eq_true ?_), rfl⟩
    exact ⟨hCluster, hEpoch, hConfig, fun _ => hDigest⟩
  | none =>
    simp only [Option.none_or]
    cases hFile : d.slots slot with
    | none => rfl
    | some state =>
      have hSmall := (hResolved slot state hFile).small
      simp only [checkBounded]
      rw [checkDecode, if_pos (decide_eq_true hSmall)]
      change (checkDecode _ _ >>= fun _ => _) = _
      have hSame : decide (state.slot = slot ∧ decide (state.clusterId = node.clusterId ∧
          state.epoch = node.epoch ∧ state.configId = L.configuration.configId ∧
          (L.configuration.configDigest ≠ .zero →
            state.configDigest = L.configuration.configDigest)) = true) =
          (L.recorder node retired).owns slot L.configuration.configDigest state := by
        rw [Bool.eq_iff_iff]
        simp only [Recorder.owns, decide_eq_true_eq]
        exact Iff.rfl
      rw [hSame]
      cases (L.recorder node retired).owns slot L.configuration.configDigest state <;> rfl

theorem Live.reports (hFits : FitsCache K) {s : FileRecorder} (hMemory : s.memory = some m)
    (h : Live K s.self True L s.disk m) : Reports s L := by
  refine ⟨?_, ?_, fun slot => ?_, fun hash => ?_⟩
  · rw [FileRecorder.configurationState, hMemory, Option.map_some, h.configuration_eq]
  · rw [FileRecorder.recordedHead, hMemory, Option.map_some, h.head_eq]
  · rw [FileRecorder.load, hMemory]
    exact h.load_eq s.retired slot
  · rw [FileRecorder.fetchCommand, hMemory]
    exact h.fetch_eq hFits hash

theorem Reports.same {s s' : FileRecorder} {L' : Content} (h : Reports s L) (h' : Reports s' L')
    (hSelf : s'.self = s.self) (hContent : L' = L) (hRetired : s'.retired = s.retired) :
    SameReports s s' := by
  subst hContent
  refine ⟨?_, ?_, fun slot => ?_, fun hash => ?_⟩
  · rw [h.configuration_eq, h'.configuration_eq]
  · rw [h.head_eq, h'.head_eq]
  · rw [h.load_eq, h'.load_eq, hSelf, hRetired]
  · rw [h.fetch_eq, h'.fetch_eq]

end Reports

inductive RecorderSlotState.Leads (state : RecorderSlotState) : RecorderSlotState → Prop
  | here : Leads state state
  | record {next : RecorderSlotState} (request : RecordRequest) (h : Leads state next)
      (hUndecided : next.decidedProof = none) : Leads state (RecorderView.nextState next request)
  | install {next : RecorderSlotState} (proof : DecisionProof) (decided : DecisionCertificate)
      (h : Leads state next) (hUndecided : next.decidedProof = none) :
      Leads state { next with decidedProof := some proof, decided := some decided }

namespace Recorder

structure Retains (r r' : Recorder) : Prop where
  commands : ∀ hash command, r.commands hash = some command → r'.commands hash = some command
  slots : ∀ slot state, r.slots slot = some state →
    ∃ state', r'.slots slot = some state' ∧ state.Leads state'
  history : ∀ c ∈ r.history, ∃ c' ∈ r'.history, SameInstallation c c' ∧
    (c.activated = true → c'.activated = true)

variable {r r' : Recorder} {move : Move}

theorem Retains.refl (r : Recorder) : r.Retains r :=
  ⟨fun _ _ h => h, fun _ state h => ⟨state, h, .here⟩, fun c hc => ⟨c, hc, .refl c, id⟩⟩

theorem leads_trans {a b c : RecorderSlotState} (h : a.Leads b) (h' : b.Leads c) : a.Leads c := by
  induction h' with
  | here => exact h
  | record request _ hUndecided ih => exact .record request ih hUndecided
  | install proof decided _ hUndecided ih => exact .install proof decided ih hUndecided

theorem Retains.trans {r'' : Recorder} (h : r.Retains r') (h' : r'.Retains r'') :
    r.Retains r'' := by
  refine ⟨fun hash command hc => h'.commands _ _ (h.commands _ _ hc), fun slot state hs => ?_,
    fun c hc => ?_⟩
  · obtain ⟨state', hs', hLeads⟩ := h.slots slot state hs
    obtain ⟨state'', hs'', hLeads'⟩ := h'.slots slot state' hs'
    exact ⟨state'', hs'', leads_trans hLeads hLeads'⟩
  · obtain ⟨c', hc', hSame, hActive⟩ := h.history c hc
    obtain ⟨c'', hc'', hSame', hActive'⟩ := h'.history c' hc'
    exact ⟨c'', hc'', hSame.trans hSame', fun hOn => hActive' (hActive hOn)⟩

variable [Sha256]

omit [Sha256] in
theorem isSome_keepCommand {hash : LogHash} (h : (r.commands hash).isSome) (replaces : Bool)
    (key : LogHash) (command : StoredCommand) :
    ((r.keepCommand replaces key command).commands hash).isSome := by
  unfold keepCommand
  split
  · exact h
  · change (Function.update r.commands key (some command) hash).isSome
    by_cases hSame : hash = key
    · subst hSame
      rw [Function.update_self]
      rfl
    · rw [Function.update_of_ne hSame]
      exact h

omit [Sha256] in
theorem isSome_stage {hash : LogHash} (h : (r.commands hash).isSome) (replaces : Bool)
    (staged : Option (LogHash × StoredCommand)) :
    ((r.stage replaces staged).commands hash).isSome := by
  cases staged with
  | none => exact h
  | some entry => exact isSome_keepCommand h replaces entry.1 entry.2

theorem takes_commands (h : Takes r move r') {hash : LogHash} (hSome : (r.commands hash).isSome) :
    (r'.commands hash).isSome := by
  cases h with
  | idle => exact hSome
  | store => exact isSome_keepCommand hSome _ _ _
  | stage => exact isSome_keepCommand hSome _ _ _
  | record => exact isSome_stage hSome _ _
  | install => exact isSome_stage hSome _ _
  | stageStop => exact isSome_keepCommand hSome _ _ _
  | succeed => exact isSome_keepCommand hSome _ _ _
  | activate => exact hSome

theorem takes_leads (h : Takes r move r') {slot : Nat} {state : RecorderSlotState}
    (hState : r.slots slot = some state) :
    ∃ state', r'.slots slot = some state' ∧ state.Leads state' := by
  have hUpdate : ∀ {other : Nat} {configDigest : LogHash} {old next : RecorderSlotState},
      r.load other configDigest = .ok old → next.slot = old.slot → old.Leads next →
      ∃ state', Function.update r.slots next.slot (some next) slot = some state' ∧
        state.Leads state' := by
    intro other configDigest old next hLoad hNext hLeads
    obtain ⟨hSlot, -, -, -, -, hHere⟩ := load_eq_ok hLoad
    rw [hNext, hSlot]
    by_cases hAt : slot = other
    · subst hAt
      rcases hHere with hHere | ⟨hNone, -⟩
      · obtain rfl := Option.some.inj (hState.symm.trans hHere)
        exact ⟨next, Function.update_self .., hLeads⟩
      · cases hNone.symm.trans hState
    · rw [Function.update_of_ne hAt]
      exact ⟨state, hState, .here⟩
  cases h with
  | idle => exact ⟨state, hState, .here⟩
  | record replaces hPasses hLoad hRecords =>
    refine hUpdate hLoad (by rw [hRecords.state_eq]; rfl) ?_
    rw [hRecords.state_eq]
    exact .record _ .here hRecords.undecided
  | install replaces hLoad hInstalls =>
    obtain ⟨decided, hNext, -⟩ := hInstalls.installed
    refine hUpdate hLoad (by rw [hNext]) ?_
    rw [hNext]
    exact .install _ _ .here hInstalls.undecided
  | activate => exact ⟨state, hState, .here⟩
  | _ => exact ⟨state, by simpa using hState, .here⟩

theorem takes_activated (h : Takes r move r') {c : ConfigurationState} (hc : c ∈ r.history) :
    ∃ c' ∈ r'.history, SameInstallation c c' ∧ (c.activated = true → c'.activated = true) := by
  rcases takes_history h with ⟨hRetired, hSame⟩ | ⟨-, -, -, -, -, hRetired, -⟩
  · rcases List.mem_cons.mp hc with rfl | hOld
    · refine ⟨_, List.mem_cons_self, hSame, fun hActive => ?_⟩
      cases h with
      | idle => exact hActive
      | record replaces hPasses hLoad hRecords =>
        rw [apply_configuration, hRecords.applied.activated, view, hActive]
        rfl
      | install replaces hLoad hInstalls =>
        rw [apply_configuration, hInstalls.applied.activated, view, hActive]
        rfl
      | activate => rfl
      | succeed => exact absurd hRetired (by simp)
      | _ => simpa using hActive
    · exact ⟨c, List.mem_cons_of_mem _ (hRetired ▸ hOld), .refl c, id⟩
  · exact ⟨c, List.mem_cons_of_mem _ (hRetired ▸ hc), .refl c, id⟩

end Recorder

section Runs

variable [Sha256] {K : StoredCommand → Prop} {G : Faults Site} {s s' : FileRecorder}

def Admits (K : StoredCommand → Prop) (G : Faults Site) (s : FileRecorder) : StoreStep → Prop
  | .call fault call => Benign K G s fault call
  | .reopen _ _ _ _ => True

abbrev StoreRun (K : StoredCommand → Prop) (G : Faults Site) : FileRecorder → FileRecorder → Prop :=
  Run (fun s a => some (s.step a)) (Admits K G)

theorem steady_run (hFits : FitsCache K) (h : Steady K G s) (hRun : StoreRun K G s s') :
    Steady K G s' := by
  refine hRun.invariant h fun s a s' hSteady hAdmits hStep => ?_
  obtain rfl := Option.some.inj hStep
  cases a with
  | call fault call => exact (hSteady.serve hAdmits).steady
  | reopen fault existingOnly configId membership =>
    exact (hSteady.reopen hFits fault existingOnly configId membership).1

structure Begins (K : StoredCommand → Prop) (s : FileRecorder) : Prop where
  apart : TellsApart K
  fits : FitsCache K
  fresh : ∃ node configId membership, s = .fresh node configId membership ∧
    (utf8 node.clusterId).length ≤ 65535 ∧ membership.digest ≠ .zero

theorem Begins.steady (h : Begins K s) (hRun : StoreRun K G s s') : Steady K G s' := by
  obtain ⟨node, configId, membership, rfl, hCluster, hNonzero⟩ := h.fresh
  exact steady_run h.fits (.fresh h.apart hCluster configId hNonzero) hRun

theorem Steady.reopened (hFits : FitsCache K) (h : Steady K G s) (existingOnly : Bool) {configId : Nat}
    {membership : Membership} (hOpenable : Openable s.disk.content s.disk configId membership) :
    (s.reopen none existingOnly configId membership).memory ≠ none ∧
      (s.reopen none existingOnly configId membership).recorder = s.recorder ∧
      Reports (s.reopen none existingOnly configId membership) s.disk.content := by
  obtain ⟨-, hSame, hOpened⟩ := h.reopen hFits none existingOnly configId membership
  obtain ⟨m, hMemory, hLive⟩ := hOpened rfl hOpenable
  refine ⟨by simp [hMemory], hSame, Live.reports hFits hMemory ?_⟩
  rw [reopen_self]
  exact hLive

end Runs

section Keeping

variable [Sha256] {K : StoredCommand → Prop} {G : Faults Site} {s s' : FileRecorder}

theorem Steady.retains (hFits : FitsCache K) (h : Steady K G s) {a : StoreStep}
    (hAdmits : Admits K G s a) : s.recorder.Retains (s.step a).recorder := by
  cases a with
  | reopen fault existingOnly configId membership =>
    change s.recorder.Retains (s.reopen fault existingOnly configId membership).recorder
    rw [(h.reopen hFits fault existingOnly configId membership).2.1]
    exact .refl _
  | call fault call =>
    have hServed := h.serve hAdmits
    obtain ⟨move, hTakes⟩ := StoreCall.exists_move hServed.takes
    refine ⟨fun hash command hCommand => ?_, fun slot state => Recorder.takes_leads hTakes,
      fun c => Recorder.takes_activated hTakes⟩
    have hThere : (s.recorder.commands hash).isSome := by
      rw [hCommand]
      rfl
    have hSome := Recorder.takes_commands hTakes hThere
    obtain ⟨found, hFound⟩ := Option.isSome_iff_exists.mp hSome
    -- the hash tells which command it is
    obtain ⟨hHash, hKnown⟩ := (h.ready.good trivial).keyed hash command hCommand
    obtain ⟨hHash', hKnown'⟩ := (hServed.steady.ready.good trivial).keyed hash found hFound
    rw [h.ready.apart command found hKnown hKnown' (hHash.trans hHash'.symm)]
    exact hFound

theorem retains_run (hFits : FitsCache K) (h : Steady K G s) (hRun : StoreRun K G s s') :
    s.recorder.Retains s'.recorder := by
  induction hRun with
  | refl => exact .refl _
  | step a hRun hAdmits hStep ih =>
    obtain rfl := Option.some.inj hStep
    exact ih.trans ((steady_run hFits h hRun).retains hFits hAdmits)

end Keeping

section Known

variable [Sha256]

def StoreCall.permits (commands : List StoredCommand) (r : Recorder) : StoreCall → Bool
  | .storeCommand _ command => command ∈ commands
  | .record request => request.command.all (· ∈ commands) &&
    match r.view.recordProposal request with
    | .ok (_, some t) => decide (sizeOf (encodeRecorderState t.state) ≤ maxRecorderStateBytes)
    | _ => true
  | .installDecisionProof proof membership =>
    match r.view.installDecisionProofRecord proof membership with
    | .ok (some t) => decide (sizeOf (encodeRecorderState t.state) ≤ maxRecorderStateBytes)
    | _ => true
  | .installSuccessor membership stopProof => membership.digest ≠ .zero &&
    match r.view.installSuccessorFromProof membership stopProof with
    | .ok (_, stopCommand) => decide (stopCommand ∈ commands)
    | _ => true
  | .recoverActivation _ _ _ recoveredHash => recoveredHash ≠ .zero
  | .inspect _ => true
  | .observe _ => true

theorem benign_of_permits {commands : List StoredCommand} {G : Faults Site} {s : FileRecorder}
    {fault : StoreFault} {call : StoreCall} (hMet : onlyFault fault ≤ G)
    (hHarmless : ∀ m, s.memory = some m → Harmless True (onlyFault fault) s.disk m)
    (h : call.permits commands s.recorder) : Benign (· ∈ commands) G s fault call := by
  refine ⟨hMet, hHarmless, ?_, ?_, ?_, ?_, ?_, ?_, ?_⟩
  · rintro hash command rfl
    exact of_decide_eq_true h
  · rintro request command rfl hCommand
    simp only [StoreCall.permits, Bool.and_eq_true, hCommand, Option.all_some] at h
    exact of_decide_eq_true h.1
  · rintro membership stopProof installed stopCommand rfl hOk
    simp only [StoreCall.permits, Bool.and_eq_true, hOk] at h
    exact of_decide_eq_true h.2
  · rintro request summary t rfl hOk
    simp only [StoreCall.permits, Bool.and_eq_true, hOk] at h
    exact of_decide_eq_true h.2
  · rintro proof membership t rfl hOk
    simp only [StoreCall.permits, hOk] at h
    exact of_decide_eq_true h
  · rintro membership stopProof rfl
    simp only [StoreCall.permits, Bool.and_eq_true] at h
    exact of_decide_eq_true h.1
  · rintro stopSlot prefixHash recoveredTip recoveredHash rfl
    exact of_decide_eq_true h

def StoreStep.permits (commands : List StoredCommand) (s : FileRecorder) : StoreStep → Bool
  | .call fault asked => fault.all (·.site = .walAppend) && asked.permits commands s.recorder
  | .reopen _ _ _ _ => true

omit [Sha256] in
theorem harmless_of_walAppend {fault : StoreFault} (h : fault.all (·.site = .walAppend)) {d : Disk}
    {m : Memory} : Harmless True (onlyFault fault) d m := by
  have hSite : ∀ site crash n, onlyFault fault site crash n → site = .walAppend := by
    rintro site crash n ⟨f, rfl, rfl, -⟩
    exact of_decide_eq_true h
  refine ⟨fun site crash n hF => ?_, fun _ site crash n hF hSplits => ?_,
    fun _ site crash n hF hLeaves => ?_⟩ <;> obtain rfl := hSite site crash n hF
  · exact id
  · exact hSplits.elim
  · exact hLeaves.elim

def StoreStep.allPermit (commands : List StoredCommand) : FileRecorder → List StoreStep → Bool
  | _, [] => true
  | s, a :: rest => a.permits commands s && allPermit commands (s.step a) rest

theorem run_of_allPermit {commands : List StoredCommand} {G : Faults Site}
    {steps : List StoreStep} {s : FileRecorder}
    (hMet : ∀ fault call, StoreStep.call fault call ∈ steps → onlyFault fault ≤ G)
    (h : StoreStep.allPermit commands s steps) :
    StoreRun (· ∈ commands) G s (steps.foldl FileRecorder.step s) := by
  induction steps generalizing s with
  | nil => exact .refl
  | cons a rest ih =>
    simp only [StoreStep.allPermit, Bool.and_eq_true] at h
    have hFirst : StoreRun (· ∈ commands) G s (s.step a) := by
      refine .step a .refl ?_ rfl
      cases a with
      | reopen => trivial
      | call fault call =>
        simp only [StoreStep.permits, Bool.and_eq_true] at h
        exact benign_of_permits (hMet fault call List.mem_cons_self)
          (fun _ _ => harmless_of_walAppend h.1.1) h.1.2
    exact hFirst.trans (ih (fun fault call hMem => hMet fault call (List.mem_cons_of_mem _ hMem)) h.2)

end Known

end Rhiza.Quepaxa
