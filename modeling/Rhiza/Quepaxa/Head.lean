import Rhiza.Quepaxa.Crash

/-! # The recorded head and the maximal slot

`max_accepted_or_decided_slot` is not read back from `configuration.rec`: a restart
recovers it from the recorded head. The two say the same in every state of a store,
and neither goes back while the configuration stays.
-/

namespace Rhiza.Quepaxa

open Core Library

structure HeadInvariant (c : ConfigurationState) (head : RecordedHeadProvenance)
    (slots : Nat → Option RecorderSlotState) : Prop where
  empty : head = .empty ↔ c.maxAcceptedOrDecidedSlot = none
  slotBacked : ∀ slot, head = .slotBacked slot → c.maxAcceptedOrDecidedSlot = some slot ∧
    ∃ state, slots slot = some state ∧ recorderStateValues state ≠ []
  checkpointBacked : ∀ stopSlot prefixHash recoveredTip recoveredHash,
    head = .checkpointBacked stopSlot prefixHash recoveredTip recoveredHash →
      c.maxAcceptedOrDecidedSlot = some recoveredTip

structure Rises (c c' : ConfigurationState) : Prop where
  configId_le : c.configId ≤ c'.configId
  max_le : c'.configId = c.configId → ∀ slot, c.maxAcceptedOrDecidedSlot = some slot →
    ∃ slot', c'.maxAcceptedOrDecidedSlot = some slot' ∧ slot ≤ slot'

theorem Rises.refl (c : ConfigurationState) : Rises c c :=
  ⟨le_rfl, fun _ slot h => ⟨slot, h, le_rfl⟩⟩

theorem Rises.trans {a b c : ConfigurationState} (h : Rises a b) (h' : Rises b c) : Rises a c := by
  refine ⟨h.configId_le.trans h'.configId_le, fun hSame slot hSlot => ?_⟩
  have hLe := h.configId_le
  have hLe' := h'.configId_le
  obtain ⟨middle, hMiddle, hFirst⟩ := h.max_le (by omega) slot hSlot
  obtain ⟨last, hLast, hSecond⟩ := h'.max_le (by omega) middle hMiddle
  exact ⟨last, hLast, hFirst.trans hSecond⟩

section Content

variable [Sha256] {K : StoredCommand → Prop} {node : Identity} {L : Content}
  {retired : List ConfigurationState}

omit [Sha256] in
theorem HeadInvariant.of_matched {c : ConfigurationState} {head : RecordedHeadProvenance}
    {slots : Nat → Option RecorderSlotState}
    (hMatched : head.recoveredMax = c.maxAcceptedOrDecidedSlot)
    (hBacked : ∀ slot, head = .slotBacked slot →
      ∃ state, slots slot = some state ∧ recorderStateValues state ≠ []) :
    HeadInvariant c head slots := by
  refine ⟨?_, fun slot hHead => ⟨?_, hBacked slot hHead⟩, ?_⟩
  · rw [← hMatched]
    cases head <;> simp [RecordedHeadProvenance.recoveredMax]
  · rw [← hMatched, hHead]
    rfl
  · rintro stopSlot prefixHash recoveredTip recoveredHash rfl
    exact hMatched.symm

theorem Content.Good.headInvariant (h : L.Good K node)
    (hMatched : L.head.recoveredMax = L.configuration.maxAcceptedOrDecidedSlot) :
    HeadInvariant L.configuration L.head L.slots := by
  refine .of_matched hMatched fun slot hHead => ?_
  have hEvidence := h.evidence
  rw [hHead] at hEvidence
  obtain ⟨state, hState, -⟩ := hEvidence
  exact ⟨state, hState, (h.resolved slot state hState).valued⟩

end Content

namespace Recorder

variable [Sha256] {r r' : Recorder} {move : Move}

theorem takes_rises (hSound : r.Sound) (h : Takes r move r') :
    Rises r.configuration r'.configuration := by
  have hApplied : ∀ {state : RecorderSlotState} {change : Option ConfigChange}
      {value : AcceptedValue} {next : ConfigurationState},
      Applied r.configuration state change value next → Rises r.configuration next := by
    intro state change value next hApplied
    obtain ⟨new, hNew, -, -, hOld⟩ := applied_max hApplied
    exact ⟨hApplied.configId_eq.ge, fun _ slot hSlot => ⟨new, hNew, hOld slot hSlot⟩⟩
  cases h with
  | idle => exact .refl _
  | store | stage | stageStop =>
    rw [keepCommand_configuration]
    exact .refl _
  | record replaces hPasses hLoad hRecords =>
    rw [apply_configuration]
    exact hApplied hRecords.applied
  | install replaces hLoad hInstalls =>
    rw [apply_configuration]
    exact hApplied hInstalls.applied
  | succeed hSucceeds hStored =>
    have hNext : _ = r.configuration.configId + 1 := checkedSucc_eq_some hSucceeds.next
    exact ⟨hNext ▸ Nat.le_succ _, fun hSame => absurd (hNext.symm.trans hSame) (Nat.succ_ne_self _)⟩
  | activate hPredecessor hInactive hStop hTip =>
    refine ⟨le_rfl, fun _ slot hSlot => ⟨_, rfl, ?_⟩⟩
    obtain ⟨-, predecessor', hPredecessor', hNone | hFirst⟩ := hSound.closed hInactive
    · cases hNone.symm.trans hSlot
    · obtain rfl := Option.some.inj (hPredecessor.symm.trans hPredecessor')
      obtain rfl := Option.some.inj (hFirst.symm.trans hSlot)
      omega

theorem takes_changed (hSound : r.Sound) (h : Takes r move r')
    (hChanged : configurationStructureChanged r.configuration r'.configuration = true) {slot : Nat}
    (hSlot : r'.slots slot ≠ r.slots slot) :
    r'.configuration.maxAcceptedOrDecidedSlot = some slot := by
  have hLast := hSound.sealedLast _ List.mem_cons_self
  have hApplied : ∀ {replaces : Bool} {transition : Transition} {change : Option ConfigChange}
      {value : AcceptedValue},
      Admitted r.clusterId r.configuration transition.state.slot change →
      Applied r.configuration transition.state change value transition.configuration →
      configurationStructureChanged r.configuration transition.configuration = true →
      (r.apply replaces transition).slots slot ≠ r.slots slot →
      transition.configuration.maxAcceptedOrDecidedSlot = some slot := by
    intro replaces transition change value hAdmitted hApplied hStructure hDiffers
    rw [apply_slots] at hDiffers
    have hAt : slot = transition.state.slot := by
      by_contra hOther
      exact hDiffers (Function.update_of_ne hOther ..)
    rw [hAt]
    exact raised_of_applied hSound.closed hLast hAdmitted hApplied hStructure
  cases h with
  | idle => exact absurd rfl hSlot
  | store | stage | stageStop => exact absurd (by rw [keepCommand_slots]) hSlot
  | record replaces hPasses hLoad hRecords =>
    obtain ⟨hAt, -⟩ := load_eq_ok hLoad
    have hHere := hRecords.applied
    rw [← hRecords.state_eq] at hHere
    refine hApplied ?_ hHere hChanged hSlot
    rw [hRecords.state_eq]
    exact hAt ▸ hPasses.admitted
  | install replaces hLoad hInstalls =>
    obtain ⟨hAt, -⟩ := load_eq_ok hLoad
    obtain ⟨decided, hState, -⟩ := hInstalls.installed
    refine hApplied ?_ hInstalls.applied hChanged hSlot
    rw [hState]
    exact hAt ▸ hInstalls.admitted
  | succeed => exact absurd (congrFun (keepCommand_slots ..) slot) hSlot
  | activate => exact absurd rfl hSlot

end Recorder

section Memory

variable [Sha256] {K : StoredCommand → Prop} {node : Identity} {F G : Faults Site} {L : Content}
  {d d' : Disk} {m m' : Memory} {c : ConfigurationState}

def Memory.Backed (d : Disk) (m : Memory) : Prop :=
  HeadInvariant m.configuration m.recordedHead (Assoc.layered m.wal.slots d.slots)

def Holds (c : ConfigurationState) (d : Disk) (m : Memory) : Prop :=
  m.configuration = c ∧ m.Backed d

theorem Live.holds (h : Live K node True L d m) (hGood : L.Good K node) :
    Holds L.configuration d m := by
  have hHead := hGood.headInvariant h.matched
  refine ⟨h.configuration_eq, ?_⟩
  rw [Memory.Backed, h.configuration_eq, h.head_eq, h.slots_eq]
  exact hHead

omit [Sha256] in
theorem Memory.Backed.slotFile (h : m.Backed d) {slot : Nat} {state : RecorderSlotState}
    (hValued : recorderStateValues state ≠ []) :
    m.Backed { d with slots := Function.update d.slots slot (some state) } := by
  cases hGet : Assoc.get m.wal.slots slot with
  | some old =>
    rw [Memory.Backed, Assoc.layered_update hGet]
    exact h
  | none =>
    rw [Memory.Backed, Assoc.layered_update_of_none hGet]
    refine ⟨h.empty, fun other hHead => ?_, h.checkpointBacked⟩
    obtain ⟨hMax, old, hOld⟩ := h.slotBacked other hHead
    refine ⟨hMax, ?_⟩
    by_cases hSame : other = slot
    · subst hSame
      exact ⟨state, Function.update_self .., hValued⟩
    · rw [Function.update_of_ne hSame]
      exact ⟨old, hOld⟩

omit [Sha256] in
theorem holds_perform {step : FileStep} (hDone : ∀ d, (step.complete d).slots = d.slots)
    (hFailed : ∀ n d, (step.failed n d).slots = d.slots) :
    Triple F (Holds c) (Program.perform step) (fun _ => Holds c) (fun _ => Holds c)
      (fun _ => True) := by
  refine Triple.perform (fun d m h => ?_) (fun _ _ _ _ _ => trivial) fun d m n _ _ h => ?_
  · rw [Holds, Memory.Backed, hDone]
    exact h
  · rw [Holds, Memory.Backed, hFailed]
    exact h

omit [Sha256] in
theorem holds_write {site : Site} {write : Disk → Disk} (hWrite : ∀ d, (write d).slots = d.slots) :
    Triple F (Holds c) (Program.perform (FileStep.write site write)) (fun _ => Holds c)
      (fun _ => Holds c) (fun _ => True) := by
  refine holds_perform hWrite fun n d => ?_
  change (if n = 0 then d else write d).slots = d.slots
  split
  · rfl
  · exact hWrite d

omit [Sha256] in
theorem holds_replace {site : Site} {write : Disk → Disk}
    (hWrite : ∀ d, (write d).slots = d.slots) :
    Triple F (Holds c) (Program.perform (FileStep.replace site write)) (fun _ => Holds c)
      (fun _ => Holds c) (fun _ => True) :=
  holds_perform hWrite fun _ _ => rfl

omit [Sha256] in
theorem holds_lift {α : Type} (result : Result α) :
    Triple F (Holds c) (Program.lift result) (fun a d m => result = .ok a ∧ Holds c d m)
      (fun _ => Holds c) (fun _ => True) :=
  Triple.lift (fun _ _ _ hOk h => ⟨hOk, h⟩) fun _ _ _ _ h => h

theorem checkpointWal_holds :
    Triple F (Holds c) (checkpointWal node) (fun _ _ _ => True) (fun _ => Holds c)
      (fun _ => True) := by
  refine Triple.bind (Q := fun m₁ d m => m = m₁ ∧ Holds c d m) (Triple.memory fun _ _ h => ⟨rfl, h⟩)
    fun m₁ => ?_
  split
  · exact Triple.fail fun _ _ h => h.2
  split
  · exact Triple.pure fun _ _ _ => trivial
  refine Triple.bind (Q := fun _ d m => m = m₁ ∧ Holds c d m) (Triple.performAll
    (I := fun _ d m => m = m₁ ∧ Holds c d m) (fun _ _ _ _ h => h) (fun _ _ _ _ _ _ _ => trivial)
    fun _ _ _ _ _ _ _ h => h.2) fun _ => ?_
  -- a state that is written lies in the log as well, which hides its file
  refine Triple.bind (Q := fun _ => Holds c) (Triple.conseq (Triple.performAll (I := fun rest d m =>
    (m = m₁ ∧ Holds c d m) ∧ ∀ entry ∈ rest, entry ∈ m₁.wal.slots) ?_
    (fun _ _ _ _ _ _ _ => trivial) fun _ _ _ _ _ _ _ h => h.1.2) (fun _ _ h => ⟨h, fun _ he => he⟩)
    (fun _ _ _ h => h.1.2) (fun _ _ _ h => h) fun _ h => h) fun _ => ?_
  · rintro d m ⟨slot, state⟩ rest ⟨⟨rfl, hConfiguration, hBacked⟩, hRest⟩
    refine ⟨⟨rfl, hConfiguration, ?_⟩, fun entry he => hRest entry (List.mem_cons_of_mem _ he)⟩
    obtain ⟨old, hOld⟩ := Option.isSome_iff_exists.mp
      (Assoc.isSome_of_mem (hRest _ List.mem_cons_self))
    change HeadInvariant _ _ (Assoc.layered m.wal.slots (Function.update d.slots slot (some state)))
    rw [Assoc.layered_update hOld]
    exact hBacked
  refine Triple.bind (holds_lift _) fun _ => Triple.given fun _ => ?_
  refine Triple.bind (holds_replace fun _ => rfl) fun _ => ?_
  refine Triple.bind (holds_lift _) fun _ => Triple.given fun _ => ?_
  refine Triple.bind (holds_write fun _ => rfl) fun _ => ?_
  exact Triple.bind (Triple.onError (holds_write fun _ => rfl)) fun _ =>
    Triple.setMemory fun _ _ _ => trivial

theorem storeCommand_holds (hash : LogHash) (command : StoredCommand) :
    Triple F (Holds c) (storeCommand hash command) (fun _ => Holds c) (fun _ => Holds c)
      (fun _ => True) := by
  refine Triple.named fun d₀ m₀ hHere => ?_
  have hStores : ∀ d, Stores d₀ m₀ hash command d → Holds c d m₀ := by
    rintro d (rfl | ⟨-, -, -, rfl⟩)
    · exact hHere
    · exact hHere
  refine (storeCommand_effect hash command d₀ m₀).conseq (fun _ _ h => h) ?_ ?_ fun _ _ => trivial
  · rintro _ d m ⟨rfl, hDisk, -⟩
    exact hStores d hDisk
  · rintro _ d m ⟨rfl, hDisk⟩
    exact hStores d hDisk

theorem commitConfigurationHead_holds (configuration : ConfigurationState)
    (provenance : RecordedHeadProvenance) :
    Triple F (Holds c) (commitConfigurationHead node configuration provenance) (fun _ => Holds c)
      (fun _ => Holds c) (fun _ => True) := by
  refine Triple.bind (Q := fun _ => Holds c) (Triple.memory fun _ _ h => h) fun _ => ?_
  refine Triple.bind (holds_lift _) fun _ => Triple.given fun _ => ?_
  refine Triple.bind (holds_lift _) fun _ => Triple.given fun _ => ?_
  refine Triple.bind (holds_write fun _ => rfl) fun _ => ?_
  refine Triple.bind (holds_write fun _ => rfl) fun _ => ?_
  refine Triple.bind (holds_write fun _ => rfl) fun _ => ?_
  refine Triple.bind (holds_replace fun _ => rfl) fun _ => ?_
  exact holds_perform (fun _ => rfl) fun _ _ => rfl

omit [Sha256] in
theorem holds_slotFile {site : Site} {slot : Nat} {state : RecorderSlotState}
    (hValued : recorderStateValues state ≠ []) :
    Triple F (Holds c) (Program.perform (FileStep.write site fun d =>
        { d with slots := Function.update d.slots slot (some state) }))
      (fun _ => Holds c) (fun _ => Holds c) (fun _ => True) := by
  refine Triple.perform (fun d m h => ⟨h.1, h.2.slotFile hValued⟩) (fun _ _ _ _ _ => trivial)
    fun d m n _ _ h => ?_
  change Holds c (if n = 0 then d else _) m
  split
  · exact h
  · exact ⟨h.1, h.2.slotFile hValued⟩

theorem commitTransition_holds {state : RecorderSlotState} (configuration : ConfigurationState)
    (hValued : recorderStateValues state ≠ []) :
    Triple F (Holds c) (commitTransition node state configuration) (fun _ _ _ => True)
      (fun _ => Holds c) (fun _ => True) := by
  refine Triple.bind (Q := fun _ => Holds c) (Triple.memory fun _ _ h => h) fun _ => ?_
  refine Triple.bind (holds_lift _) fun _ => Triple.given fun _ => ?_
  refine Triple.bind (holds_lift _) fun _ => Triple.given fun _ => ?_
  refine Triple.bind (holds_lift _) fun _ => Triple.given fun _ => ?_
  refine Triple.bind (holds_lift _) fun _ => Triple.given fun _ => ?_
  refine Triple.bind (holds_write fun _ => rfl) fun _ => ?_
  refine Triple.bind (holds_slotFile hValued) fun _ => ?_
  refine Triple.bind (holds_write fun _ => rfl) fun _ => ?_
  refine Triple.bind (holds_write fun _ => rfl) fun _ => ?_
  refine Triple.bind (holds_replace fun _ => rfl) fun _ => ?_
  exact Triple.bind (holds_perform (fun _ => rfl) fun _ _ => rfl) fun _ =>
    Triple.setMemory fun _ _ _ => trivial

theorem appendFrame_holds (state : RecorderSlotState) (configuration : ConfigurationState)
    (head : RecordedHeadProvenance) (command : Option (LogHash × StoredCommand)) :
    Triple F (Holds c) (appendFrame state configuration head command) (fun _ _ _ => True)
      (fun _ => Holds c) (fun _ => True) := by
  refine Triple.bind (Q := fun _ => Holds c) (Triple.memory fun _ _ h => h) fun _ => ?_
  refine Triple.bind (holds_lift _) fun _ => Triple.given fun _ => ?_
  exact Triple.bind (Triple.onError (holds_perform (fun _ => rfl) fun _ _ => rfl)) fun _ =>
    Triple.setMemory fun _ _ _ => trivial

theorem checkpointWal_live (hSetting : Setting K node True L) :
    Triple F (fun d m => Live K node True L d m ∧ Harmless True F d m) (checkpointWal node)
      (fun _ d m => Live K node True L d m ∧ Holds L.configuration d m)
      (fun _ => Holds L.configuration) (fun _ => True) := by
  have hGood := hSetting.good trivial
  refine ((checkpointWal_triple hSetting).and (checkpointWal_holds.conseq
    (fun _ _ h => h.1.holds hGood) (fun _ _ _ h => h) (fun _ _ _ h => h) fun _ h => h)).conseq
    (fun _ _ h => h) ?_ (fun _ _ _ h => h.2) fun _ _ => trivial
  rintro _ d m ⟨⟨hLive, -⟩, -⟩
  exact ⟨hLive, hLive.holds hGood⟩

theorem persistStateTransition_holds (hSetting : Setting K node True L) {t : Transition}
    (hValued : recorderStateValues t.state ≠ []) (previous : ConfigurationState) :
    Triple F (fun d m => Live K node True L d m ∧ Harmless True F d m)
      (persistStateTransition node previous t) (fun _ _ _ => True)
      (fun _ => Holds L.configuration) (fun _ => True) := by
  have hGood := hSetting.good trivial
  unfold persistStateTransition
  split
  · refine Triple.bind (Q := fun _ => Holds L.configuration) ((checkpointWal_live hSetting).conseq
      (fun _ _ h => h) (fun _ _ _ h => h.2) (fun _ _ _ h => h) fun _ h => h) fun _ => ?_
    split
    · exact Triple.bind (storeCommand_holds _ _) fun _ => commitTransition_holds _ hValued
    · exact commitTransition_holds _ hValued
  · refine Triple.bind (Q := fun _ d m => Live K node True L d m ∧ Harmless True F d m)
      (Triple.memory fun _ _ h => h) fun _ => ?_
    refine Triple.bind (Q := fun _ _ _ => True) ?_ fun _ => Triple.setMemory fun _ _ _ => trivial
    refine Triple.bind (Q := fun _ d m => Live K node True L d m ∧ Harmless True F d m)
      (Triple.memory fun _ _ h => h) fun m₁ => ?_
    split
    · exact Triple.fail fun _ _ h => h.1.holds hGood
    split
    · exact Triple.bind ((checkpointWal_live hSetting).conseq (fun _ _ h => h) (fun _ _ _ h => h.2)
        (fun _ _ _ h => h) fun _ h => h) fun _ => appendFrame_holds _ _ _ _
    · exact (appendFrame_holds _ _ _ _).conseq (fun _ _ h => h.1.holds hGood) (fun _ _ _ h => h)
        (fun _ _ _ h => h) fun _ h => h

theorem recoverIntent_holds {d₀ : Disk} {m₀ : Memory}
    (hAble : Able K node F G True L d₀ m₀) (hBacked : m₀.Backed d₀) :
    Triple F (fun d m => d = d₀ ∧ m = m₀) (recoverIntent node)
      (fun _ d m => Live K node True L d m ∧ Harmless True F d m)
      (fun _ d m => Holds m₀.configuration d m) (fun _ => True) := by
  have hLive : Triple F (fun d m => d = d₀ ∧ m = m₀) (recoverIntent node)
      (fun _ d m => Live K node True L d m ∧ Harmless True F d m) (fun _ _ _ => True)
      (fun _ => True) := by
    refine (recoverIntent_able (G := G)).conseq ?_ (fun _ _ _ h => h) (fun _ _ _ _ => trivial)
      fun _ _ => trivial
    rintro d m ⟨rfl, rfl⟩
    exact hAble
  have hHolds : Triple F (fun d m => d = d₀ ∧ m = m₀) (recoverIntent node) (fun _ _ _ => True)
      (fun _ => Holds m₀.configuration) (fun _ => True) := by
    cases hAble with
    | live h hHarmless =>
      obtain ⟨_, _, _, hs, -⟩ := h.stored
      exact (recoverIntent_failed hs.intent hs.headIntent).conseq (fun _ _ h => h)
        (fun _ _ _ _ => trivial) (fun _ _ _ h => h) fun _ h => h
    | pending hErrs i h hJoined =>
      refine Triple.bind (Q := fun _ d m => d = d₀ ∧ m = m₀) ?_ fun _ => ?_
      · refine Triple.bind (Q := fun d₁ d m => d₁ = d₀ ∧ d = d₀ ∧ m = m₀)
          (Triple.disk fun _ _ h => ⟨h.1, h⟩) fun d₁ => Triple.given ?_
        rintro rfl
        rw [h.intended.headIntent]
        exact Triple.pure fun _ _ h => h
      refine Triple.bind (Q := fun d₁ d m => d₁ = d₀ ∧ d = d₀ ∧ m = m₀)
        (Triple.disk fun _ _ h => ⟨h.1, h⟩) fun d₁ => Triple.given ?_
      rintro rfl
      rw [h.intended.intent]
      have hBegin : ∀ d m, d = d₁ ∧ m = m₀ → Holds m₀.configuration d m := by
        rintro d m ⟨rfl, rfl⟩
        exact ⟨rfl, hBacked⟩
      refine Triple.bind (Q := fun _ => Holds m₀.configuration) (Triple.memory hBegin) fun _ => ?_
      refine Triple.bind (holds_slotFile h.intended.valued) fun _ => ?_
      refine Triple.bind (holds_write fun _ => rfl) fun _ => ?_
      refine Triple.bind (holds_lift _) fun _ => Triple.given fun _ => ?_
      refine Triple.bind (holds_write fun _ => rfl) fun _ => ?_
      refine Triple.bind (holds_replace fun _ => rfl) fun _ => ?_
      exact Triple.bind (holds_perform (fun _ => rfl) fun _ _ => rfl) fun _ =>
        Triple.setMemory fun _ _ _ => trivial
  exact (hLive.and hHolds).conseq (fun _ _ h => h) (fun _ _ _ h => h.1) (fun _ _ _ h => h.2)
    fun _ _ => trivial

def Knows (c : ConfigurationState) (L : Content) (d : Disk) (m : Memory) : Prop :=
  Holds c d m ∨ Holds L.configuration d m

section Calls

variable {d₀ : Disk} {m₀ : Memory} {retired : List ConfigurationState}

theorem recovered_knows {α : Type} {x : Io α} (hAble : Able K node F G True L d₀ m₀)
    (hBacked : m₀.Backed d₀)
    (hRest : Triple F (fun d m => Live K node True L d m ∧ Harmless True F d m) x
      (fun _ _ _ => True) (fun _ => Holds L.configuration) (fun _ => True)) :
    Triple F (fun d m => d = d₀ ∧ m = m₀) (recoverIntent node >>= fun _ => x) (fun _ _ _ => True)
      (fun _ => Knows m₀.configuration L) (fun _ => True) := by
  refine Triple.bind ((recoverIntent_holds hAble hBacked).conseq (fun _ _ h => h)
    (fun _ _ _ h => h) (fun _ _ _ h => .inl h) fun _ h => h) fun _ => ?_
  exact hRest.conseq (fun _ _ h => h) (fun _ _ _ h => h) (fun _ _ _ h => .inr h) fun _ h => h

theorem recordProposal_knows (hReady : Ready K node True retired L)
    (hAble : Able K node F G True L d₀ m₀) (hBacked : m₀.Backed d₀) (request : RecordRequest)
    (hKnown : ∀ command, request.command = some command → K command)
    (hSmall : ∀ summary t,
      (L.recorder node retired).view.recordProposal request = .ok (summary, some t) →
        sizeOf (encodeRecorderState t.state) ≤ maxRecorderStateBytes) :
    Triple F (fun d m => d = d₀ ∧ m = m₀) (recordProposal node request) (fun _ _ _ => True)
      (fun _ => Knows m₀.configuration L) (fun _ => True) := by
  have hBegin : ∀ d m, d = d₀ ∧ m = m₀ → Knows m₀.configuration L d m := by
    rintro d m ⟨rfl, rfl⟩
    exact .inl ⟨rfl, hBacked⟩
  refine Triple.bind (Q := fun _ d m => d = d₀ ∧ m = m₀) (readView_triple.conseq (fun _ _ h => h)
    (fun _ _ _ h => h.2) (fun _ _ _ h => h) fun _ h => h) fun v => ?_
  refine Triple.bind (Q := fun _ d m => d = d₀ ∧ m = m₀) (Triple.lift (fun _ _ _ _ h => h)
    fun _ d m _ h => hBegin d m h) fun _ => ?_
  refine Triple.bind (Q := fun _ d m => d = d₀ ∧ m = m₀) (Triple.lift (fun _ _ _ _ h => h)
    fun _ d m _ h => hBegin d m h) fun _ => ?_
  refine recovered_knows hAble hBacked ?_
  refine Triple.bind (readView_live retired) fun v => Triple.given ?_
  rintro ⟨hShows, -⟩
  refine Triple.bind (Q := fun result d m => v.recordProposal request = .ok result ∧
    Live K node True L d m ∧ Harmless True F d m) (Triple.lift (fun _ _ _ hOk h => ⟨hOk, h⟩)
    fun _ _ _ _ h => h.1.holds (hReady.good trivial)) fun result => Triple.given fun hOk => ?_
  obtain ⟨summary, _ | t⟩ := result
  · exact Triple.pure fun _ _ _ => trivial
  have hSame := hShows.recordProposal hOk
  obtain ⟨value, command, change, state, hPasses, hLoad,
    ⟨_, -, -, hNone⟩ | ⟨_, hSome, -, hRecords⟩⟩ := RecorderView.recordProposal_eq_ok hSame
  · cases hNone
  obtain rfl := Option.some.inj hSome
  have ht := fitting_of_records hReady hPasses hLoad hRecords (fun _ => hKnown)
    fun _ => hSmall summary t hSame
  exact Triple.bind (persistStateTransition_holds hReady.toSetting ht.valued _) fun _ =>
    Triple.pure fun _ _ _ => trivial

theorem installDecisionProofRecord_knows (hReady : Ready K node True retired L)
    (hAble : Able K node F G True L d₀ m₀) (hBacked : m₀.Backed d₀) (proof : DecisionProof)
    (membership : Membership)
    (hSmall : ∀ t,
      (L.recorder node retired).view.installDecisionProofRecord proof membership = .ok (some t) →
        sizeOf (encodeRecorderState t.state) ≤ maxRecorderStateBytes) :
    Triple F (fun d m => d = d₀ ∧ m = m₀) (installDecisionProofRecord node proof membership)
      (fun _ _ _ => True) (fun _ => Knows m₀.configuration L) (fun _ => True) := by
  refine Triple.bind (Q := fun _ d m => d = d₀ ∧ m = m₀) (Triple.lift (fun _ _ _ _ h => h) ?_)
    fun _ => ?_
  · rintro e d m - ⟨rfl, rfl⟩
    exact .inl ⟨rfl, hBacked⟩
  refine recovered_knows hAble hBacked ?_
  refine Triple.bind (readView_live retired) fun v => Triple.given ?_
  rintro ⟨hShows, -⟩
  refine Triple.bind (Q := fun result d m => v.installDecisionProofRecord proof membership =
    .ok result ∧ Live K node True L d m ∧ Harmless True F d m) (Triple.lift
    (fun _ _ _ hOk h => ⟨hOk, h⟩) fun _ _ _ _ h => h.1.holds (hReady.good trivial))
    fun result => Triple.given fun hOk => ?_
  cases result with
  | none => exact Triple.pure fun _ _ _ => trivial
  | some t =>
    have hSame := hShows.installDecisionProofRecord hOk
    obtain hNone | ⟨value, command, change, state, _, hSome, hLoad, hInstalls⟩ :=
      RecorderView.installDecisionProofRecord_eq_ok hSame
    · cases hNone
    obtain rfl := Option.some.inj hSome
    have ht := fitting_of_installs hReady hLoad hInstalls fun _ => hSmall t hSame
    exact persistStateTransition_holds hReady.toSetting ht.valued _

theorem installSuccessorFromProof_knows (hReady : Ready K node True retired L)
    (hAble : Able K node F G True L d₀ m₀) (hBacked : m₀.Backed d₀) (membership : Membership)
    (stopProof : DecisionProof) :
    Triple F (fun d m => d = d₀ ∧ m = m₀) (installSuccessorFromProof node membership stopProof)
      (fun _ _ _ => True) (fun _ => Knows m₀.configuration L) (fun _ => True) := by
  refine recovered_knows hAble hBacked ?_
  refine Triple.bind (readView_live retired) fun v => Triple.given fun _ => ?_
  refine Triple.bind (Q := fun _ d m => Live K node True L d m ∧ Harmless True F d m)
    (Triple.lift (fun _ _ _ _ h => h) fun _ _ _ _ h => h.1.holds (hReady.good trivial))
    fun result => ?_
  refine Triple.bind (Q := fun _ => Holds L.configuration) ((checkpointWal_live
    hReady.toSetting).conseq (fun _ _ h => h) (fun _ _ _ h => h.2) (fun _ _ _ h => h)
    fun _ h => h) fun _ => ?_
  refine Triple.bind (storeCommand_holds _ _) fun _ => ?_
  refine Triple.bind (commitConfigurationHead_holds _ _) fun _ => ?_
  exact Triple.bind (Q := fun _ _ _ => True) (Triple.setMemory fun _ _ _ => trivial) fun _ =>
    Triple.pure fun _ _ _ => trivial

theorem recoverActivation_knows (hReady : Ready K node True retired L)
    (hAble : Able K node F G True L d₀ m₀) (hBacked : m₀.Backed d₀) (stopSlot : Nat)
    (prefixHash : LogHash) (recoveredTip : Nat) (recoveredHash : LogHash) :
    Triple F (fun d m => d = d₀ ∧ m = m₀) (recoverSuccessorActivationFromCheckpoint node stopSlot
        prefixHash recoveredTip recoveredHash)
      (fun _ _ _ => True) (fun _ => Knows m₀.configuration L) (fun _ => True) := by
  refine recovered_knows hAble hBacked ?_
  refine Triple.bind (readView_live retired) fun v => Triple.given fun _ => ?_
  refine Triple.bind (Q := fun _ d m => Live K node True L d m ∧ Harmless True F d m)
    (Triple.lift (fun _ _ _ _ h => h) fun _ _ _ _ h => h.1.holds (hReady.good trivial))
    fun result => ?_
  obtain ⟨recovered, _ | head⟩ := result
  · exact Triple.pure fun _ _ _ => trivial
  refine Triple.bind (Q := fun _ => Holds L.configuration) ((checkpointWal_live
    hReady.toSetting).conseq (fun _ _ h => h) (fun _ _ _ h => h.2) (fun _ _ _ h => h)
    fun _ h => h) fun _ => ?_
  refine Triple.bind (commitConfigurationHead_holds _ _) fun _ => ?_
  exact Triple.bind (Q := fun _ _ _ => True) (Triple.setMemory fun _ _ _ => trivial) fun _ =>
    Triple.pure fun _ _ _ => trivial

theorem read_knows {α : Type} (hReady : Ready K node True retired L)
    (hAble : Able K node F G True L d₀ m₀) (hBacked : m₀.Backed d₀)
    (read : RecorderView → Result α) :
    Triple F (fun d m => d = d₀ ∧ m = m₀)
      (do recoverIntent node; Program.lift (read (← readView node)) : Io α)
      (fun _ _ _ => True) (fun _ => Knows m₀.configuration L) (fun _ => True) := by
  refine recovered_knows hAble hBacked ?_
  refine Triple.bind (readView_live retired) fun v => Triple.given fun _ => ?_
  exact Triple.lift (fun _ _ _ _ _ => trivial) fun _ _ _ _ h => h.1.holds (hReady.good trivial)

end Calls

end Memory

section Runs

variable [Sha256] {K : StoredCommand → Prop} {G : Faults Site} {s s' s₀ : FileRecorder} {m : Memory}
  {fault : StoreFault} {call : StoreCall} {a : StoreStep}

def Settles (K : StoredCommand → Prop) (s : FileRecorder) (m : Memory) (d : Disk) (m' : Memory) :
    Prop :=
  (∃ L, Live K s.self True L d m' ∧ L.Good K s.self) ∨
    Knows m.configuration s.disk.content d m'

theorem settles_of_triple {α : Type} {x : Io α} {f : α → StoreReply} (hMemory : s.memory = some m)
    (hProgram : call.program s.self = x >>= fun a => pure (f a))
    (hTriple : Triple (onlyFault fault) (fun d m' => d = s.disk ∧ m' = m) x
      (fun _ => Settles K s m) (fun _ => Settles K s m) (fun _ => True)) :
    ∀ m', (s.serve fault call).1.memory = some m' →
      Settles K s m (s.serve fault call).1.disk m' := by
  unfold FileRecorder.serve
  rw [hProgram]
  refine call_cases hMemory (Triple.bind hTriple fun _ => Triple.pure (Q := fun _ => Settles K s m)
    fun _ _ h => h) ⟨rfl, rfl⟩ (R := fun s' _ => ∀ m', s'.memory = some m' →
      Settles K s m s'.disk m') ?_ ?_ ?_
  · rintro _ d m' h _ ⟨⟩
    exact h
  · rintro _ d m' h _ ⟨⟩
    exact h
  · rintro d - _ ⟨⟩

theorem settles_of_serves {α : Type} {x : Io α} {f : α → StoreReply}
    {act : Conduct → Recorder × Result α} {before after : RecordedHeadProvenance}
    (hMemory : s.memory = some m)
    (hProgram : call.program s.self = x >>= fun a => pure (f a))
    (hAble : Able K s.self (onlyFault fault) G True s.disk.content s.disk m)
    (hServes : Serves K s.self (onlyFault fault) G True before after
      (Able K s.self (onlyFault fault) G True s.disk.content) act x)
    (hKnows : Triple (onlyFault fault) (fun d m' => d = s.disk ∧ m' = m) x (fun _ _ _ => True)
      (fun _ => Knows m.configuration s.disk.content) (fun _ => True)) :
    ∀ m', (s.serve fault call).1.memory = some m' →
      Settles K s m (s.serve fault call).1.disk m' := by
  refine settles_of_triple hMemory hProgram (Triple.conseq (Triple.and (Triple.conseq hServes ?_
    (fun _ _ _ h => h) (fun _ _ _ h => h) fun _ h => h) hKnows) (fun _ _ h => h) ?_
    (fun _ _ _ h => .inr h.2) fun _ _ => trivial)
  · rintro d m' ⟨rfl, rfl⟩
    exact hAble
  · rintro _ d m' ⟨⟨L', hLive, hLands⟩, -⟩
    exact .inl ⟨L', hLive, hLands.good trivial⟩

theorem storeCommand_settles (hMemory : s.memory = some m) (hBacked : m.Backed s.disk)
    (hash : LogHash) (command : StoredCommand) :
    ∀ m', (s.serve fault (.storeCommand hash command)).1.memory = some m' →
      Settles K s m (s.serve fault (.storeCommand hash command)).1.disk m' := by
  refine settles_of_triple hMemory (f := fun _ => .stored) rfl ((storeCommand_holds
    (c := m.configuration) hash command).conseq ?_ (fun _ _ _ h => .inr (.inl h))
    (fun _ _ _ h => .inr (.inl h)) fun _ h => h)
  rintro d m' ⟨rfl, rfl⟩
  exact ⟨rfl, hBacked⟩

theorem Steady.settles_able (h : Steady K G s) (hBenign : Benign K G s fault call)
    (hMemory : s.memory = some m) (hBacked : m.Backed s.disk)
    (hAble : Able K s.self (onlyFault fault) G True s.disk.content s.disk m) :
    ∀ m', (s.serve fault call).1.memory = some m' →
      Settles K s m (s.serve fault call).1.disk m' := by
  have hReady := h.ready
  cases call with
  | storeCommand hash command => exact storeCommand_settles hMemory hBacked hash command
  | record request =>
    have hKnown := fun command => hBenign.inline request command rfl
    have hSmall := fun summary t => hBenign.smallRecord request summary t rfl
    exact settles_of_serves hMemory rfl hAble
      (recordProposal_serves hBenign.met hReady request (fun _ => hKnown) fun _ => hSmall)
      (recordProposal_knows hReady hAble hBacked request hKnown hSmall)
  | installDecisionProof proof membership =>
    have hSmall := fun t => hBenign.smallInstall proof membership t rfl
    exact settles_of_serves hMemory (f := fun _ => .proofInstalled) rfl hAble
      (installDecisionProofRecord_serves hBenign.met hReady proof membership fun _ => hSmall)
      (installDecisionProofRecord_knows hReady hAble hBacked proof membership hSmall)
  | installSuccessor membership stopProof =>
    exact settles_of_serves hMemory rfl hAble
      (installSuccessorFromProof_serves hBenign.met hReady membership stopProof
        (fun _ => hBenign.nonzero membership stopProof rfl)
        fun _ installed stopCommand => hBenign.stop membership stopProof installed stopCommand rfl)
      (installSuccessorFromProof_knows hReady hAble hBacked membership stopProof)
  | recoverActivation stopSlot prefixHash recoveredTip recoveredHash =>
    exact settles_of_serves hMemory rfl hAble
      (recoverActivation_serves hBenign.met hReady stopSlot prefixHash recoveredTip recoveredHash
        fun _ => hBenign.recovered stopSlot prefixHash recoveredTip recoveredHash rfl)
      (recoverActivation_knows hReady hAble hBacked stopSlot prefixHash recoveredTip
        recoveredHash)
  | inspect slot =>
    exact settles_of_serves hMemory rfl hAble
      (read_serves hReady (fun v => v.inspectRecordSummary slot)
        fun v a hShows hOk => hShows.inspectRecordSummary hOk)
      (read_knows hReady hAble hBacked fun v => v.inspectRecordSummary slot)
  | observe request =>
    exact settles_of_serves hMemory rfl hAble
      (read_serves hReady (fun v => v.observeReadFence request)
        fun v a hShows hOk => hShows.observeReadFence hOk)
      (read_knows hReady hAble hBacked fun v => v.observeReadFence request)

theorem settles_failed (hMemory : s.memory = some m) (hBacked : m.Backed s.disk)
    (hFailed : m.wal.failed = true) (hIntent : s.disk.intent = none)
    (hHeadIntent : s.disk.headIntent = none) :
    ∀ m', (s.serve fault call).1.memory = some m' →
      Settles K s m (s.serve fault call).1.disk m' := by
  have hStays : ∀ d m', d = s.disk ∧ m' = m → Settles K s m d m' := by
    rintro d m' ⟨rfl, rfl⟩
    exact .inr (.inl ⟨rfl, hBacked⟩)
  cases call with
  | storeCommand hash command => exact storeCommand_settles hMemory hBacked hash command
  | record request =>
    exact settles_of_triple hMemory rfl ((recordProposal_failed hIntent hHeadIntent hFailed
      request).conseq (fun _ _ h => h) (fun _ d m' h => hStays d m' h.1) (fun _ => hStays)
      fun _ h => h.elim)
  | installDecisionProof proof membership =>
    exact settles_of_triple hMemory (f := fun _ => .proofInstalled) rfl
      ((installDecisionProofRecord_failed hIntent hHeadIntent hFailed proof membership).conseq
        (fun _ _ h => h) (fun _ d m' h => hStays d m' h.1) (fun _ => hStays) fun _ h => h.elim)
  | installSuccessor membership stopProof =>
    exact settles_of_triple hMemory rfl ((installSuccessorFromProof_failed hIntent hHeadIntent
      hFailed membership stopProof).conseq (fun _ _ h => h) (fun _ _ _ h => h.elim)
      (fun _ => hStays) fun _ h => h.elim)
  | recoverActivation stopSlot prefixHash recoveredTip recoveredHash =>
    exact settles_of_triple hMemory rfl ((recoverActivation_failed hIntent hHeadIntent hFailed
      stopSlot prefixHash recoveredTip recoveredHash).conseq (fun _ _ h => h)
      (fun _ d m' h => hStays d m' h.1) (fun _ => hStays) fun _ h => h.elim)
  | inspect slot =>
    exact settles_of_triple hMemory rfl ((read_failed hIntent hHeadIntent
      fun v => v.inspectRecordSummary slot).conseq (fun _ _ h => h) (fun _ => hStays)
      (fun _ => hStays) fun _ h => h.elim)
  | observe request =>
    exact settles_of_triple hMemory rfl ((read_failed hIntent hHeadIntent
      fun v => v.observeReadFence request).conseq (fun _ _ h => h) (fun _ => hStays)
      (fun _ => hStays) fun _ h => h.elim)

theorem Steady.rises (hFits : FitsCache K) (h : Steady K G s) (hAdmits : Admits K G s a) :
    Rises s.disk.content.configuration (s.step a).disk.content.configuration := by
  cases a with
  | reopen fault existingOnly configId membership =>
    have hSame := (h.reopen hFits fault existingOnly configId membership).2.1
    have hConfiguration :
        (s.reopen fault existingOnly configId membership).disk.content.configuration =
          s.disk.content.configuration := congrArg Recorder.configuration hSame
    change Rises _ (s.reopen fault existingOnly configId membership).disk.content.configuration
    rw [hConfiguration]
    exact .refl _
  | call fault call =>
    obtain ⟨move, hTakes⟩ := StoreCall.exists_move (h.serve hAdmits).takes
    exact Recorder.takes_rises h.ready.tidy.sound hTakes

theorem Steady.changed (hFits : FitsCache K) (h : Steady K G s) (hAdmits : Admits K G s a)
    (hChanged : configurationStructureChanged s.disk.content.configuration
      (s.step a).disk.content.configuration = true) {slot : Nat}
    (hSlot : (s.step a).disk.content.slots slot ≠ s.disk.content.slots slot) :
    (s.step a).disk.content.configuration.maxAcceptedOrDecidedSlot = some slot := by
  cases a with
  | reopen fault existingOnly configId membership =>
    have hSame := (h.reopen hFits fault existingOnly configId membership).2.1
    exact absurd (congrFun (congrArg Recorder.slots hSame) slot) hSlot
  | call fault call =>
    obtain ⟨move, hTakes⟩ := StoreCall.exists_move (h.serve hAdmits).takes
    exact Recorder.takes_changed h.ready.tidy.sound hTakes hChanged hSlot

theorem Steady.reopen_live (hFits : FitsCache K) (h : Steady K G s) (fault : StoreFault)
    (existingOnly : Bool) (configId : Nat) (membership : Membership) :
    ∀ m', (s.reopen fault existingOnly configId membership).memory = some m' →
      Live K s.self True s.disk.content (s.reopen fault existingOnly configId membership).disk
        m' := by
  refine reopen_cases (open_kept existingOnly configId membership hFits (h.ready.fits trivial)
    (h.ready.good trivial) h.sits.kept) (R := fun s' => ∀ m', s'.memory = some m' →
      Live K s.self True s.disk.content s'.disk m') ?_ ?_ ?_
  · rintro d m hLive _ ⟨⟩
    exact hLive
  · rintro _ d m - _ ⟨⟩
  · rintro d - - _ ⟨⟩

structure Recalls (K : StoredCommand → Prop) (G : Faults Site) (s : FileRecorder) : Prop where
  steady : Steady K G s
  backed : ∀ m, s.memory = some m → m.Backed s.disk
  behind : ∀ m, s.memory = some m → Rises m.configuration s.disk.content.configuration

theorem Recalls.memory_step (hFits : FitsCache K) (h : Recalls K G s) (hAdmits : Admits K G s a)
    {m' : Memory} (hMemory : (s.step a).memory = some m') : m'.Backed (s.step a).disk ∧
      (m'.configuration = (s.step a).disk.content.configuration ∨
        m'.configuration = s.disk.content.configuration ∨
        ∃ m, s.memory = some m ∧ m'.configuration = m.configuration) := by
  cases a with
  | reopen fault existingOnly configId membership =>
    have hLive := h.steady.reopen_live hFits fault existingOnly configId membership m' hMemory
    obtain ⟨hConfiguration, hBacked⟩ := hLive.holds (h.steady.ready.good trivial)
    exact ⟨hBacked, .inr (.inl hConfiguration)⟩
  | call fault call =>
    cases hBefore : s.memory with
    | none =>
      have hStopped : s.serve fault call = (s, .error FileRecorder.stopped) := by
        simp only [FileRecorder.serve, FileRecorder.call, hBefore]
      change (s.serve fault call).1.memory = some m' at hMemory
      rw [hStopped, hBefore] at hMemory
      cases hMemory
    | some m =>
      have hBacked := h.backed m hBefore
      have hSettles : Settles K s m (s.serve fault call).1.disk m' := by
        have hSits := h.steady.sits
        rw [hBefore] at hSits
        have hHarmless := Benign.harmless hAdmits m hBefore
        cases (hSits : Standing K s.self G True s.disk.content s.disk m) with
        | live hLive =>
          exact h.steady.settles_able hAdmits hBefore hBacked (.live hLive hHarmless) m' hMemory
        | pending hErrs i hPending =>
          exact h.steady.settles_able hAdmits hBefore hBacked
            (.pending hErrs i hPending hHarmless.joined) m' hMemory
        | failed _ hFailed _ hSettled =>
          obtain ⟨_, _, _, _, hs, -⟩ := hSettled
          exact settles_failed hBefore hBacked hFailed hs.intent hs.headIntent m' hMemory
      obtain ⟨L', hLive, hGood⟩ | ⟨hConfiguration, hNow⟩ | ⟨hConfiguration, hNow⟩ := hSettles
      · obtain ⟨hConfiguration, hNow⟩ := hLive.holds hGood
        refine ⟨hNow, .inl (hConfiguration.trans ?_)⟩
        rw [← Kept.content_eq (.settled hLive.settled)]
        rfl
      · exact ⟨hNow, .inr (.inr ⟨m, rfl, hConfiguration⟩)⟩
      · exact ⟨hNow, .inr (.inl hConfiguration)⟩

theorem Recalls.rises_step (hFits : FitsCache K) (h : Recalls K G s) (hAdmits : Admits K G s a)
    {c : ConfigurationState} (hContent : Rises c s.disk.content.configuration)
    (hBefore : ∀ m, s.memory = some m → Rises c m.configuration) {m' : Memory}
    (hMemory : (s.step a).memory = some m') : Rises c m'.configuration := by
  obtain ⟨-, hNow | hThen | ⟨m, hm, hKept⟩⟩ := h.memory_step hFits hAdmits hMemory
  · rw [hNow]
    exact hContent.trans (h.steady.rises hFits hAdmits)
  · rw [hThen]
    exact hContent
  · rw [hKept]
    exact hBefore m hm

theorem Recalls.step (hFits : FitsCache K) (h : Recalls K G s) (hAdmits : Admits K G s a) :
    Recalls K G (s.step a) := by
  have hRises := h.steady.rises hFits hAdmits
  refine ⟨steady_run hFits h.steady (.step a .refl hAdmits rfl), fun m' hMemory =>
    (h.memory_step hFits hAdmits hMemory).1, fun m' hMemory => ?_⟩
  obtain ⟨-, hNow | hThen | ⟨m, hm, hKept⟩⟩ := h.memory_step hFits hAdmits hMemory
  · rw [hNow]
    exact .refl _
  · rw [hThen]
    exact hRises
  · rw [hKept]
    exact (h.behind m hm).trans hRises

theorem Recalls.run (hFits : FitsCache K) (h : Recalls K G s) (hRun : StoreRun K G s s') :
    Recalls K G s' := by
  refine hRun.invariant h fun s a s' hHere hAdmits hStep => ?_
  obtain rfl := Option.some.inj hStep
  exact hHere.step hFits hAdmits

theorem Begins.recalls (hBegins : Begins K s₀) : Recalls K G s₀ := by
  have hSteady : Steady K G s₀ := hBegins.steady .refl
  obtain ⟨node, configId, membership, rfl, -⟩ := hBegins.fresh
  have hMemory : ∀ m, (FileRecorder.fresh node configId membership).memory = some m →
      m = ⟨.initial configId membership.digest (some membership), .empty, .default⟩ := by
    rintro _ ⟨⟩
    rfl
  refine ⟨hSteady, fun m hm => ?_, fun m hm => ?_⟩
  · rw [hMemory m hm]
    exact .of_matched rfl fun _ h => (by cases h)
  · rw [hMemory m hm]
    exact .refl _

theorem Steady.rises_run (hFits : FitsCache K) (h : Steady K G s) (hRun : StoreRun K G s s') :
    Rises s.disk.content.configuration s'.disk.content.configuration := by
  refine hRun.invariant_of_reachable (P := fun t => Rises s.disk.content.configuration
    t.disk.content.configuration) (.refl _) fun t a t' hHere hRises hAdmits hStep => ?_
  obtain rfl := Option.some.inj hStep
  exact hRises.trans ((steady_run hFits h hHere).rises hFits hAdmits)

theorem Recalls.rises_run (hFits : FitsCache K) (h : Recalls K G s) (hRun : StoreRun K G s s')
    {m' : Memory} (hMemory : s.memory = some m) (hMemory' : s'.memory = some m') :
    Rises m.configuration m'.configuration := by
  have hFirst : ∀ m', s.memory = some m' → Rises m.configuration m'.configuration := by
    intro m' hSame
    obtain rfl := Option.some.inj (hMemory.symm.trans hSame)
    exact .refl _
  refine hRun.invariant_of_reachable (P := fun t => ∀ m', t.memory = some m' →
    Rises m.configuration m'.configuration) hFirst ?_ m' hMemory'
  intro t a t' hHere hBefore hAdmits hStep m' hAfter
  obtain rfl := Option.some.inj hStep
  exact (h.run hFits hHere).rises_step hFits hAdmits
    ((h.behind m hMemory).trans (h.steady.rises_run hFits hHere)) hBefore hAfter

/-- In every state of a run the recorded head fits the maximal slot, on the files and in
memory. The maximal slot does not decrease while the configuration stays, and a step
that changes the structure of the configuration changes no slot but the maximal one. -/
theorem recorded_head_fits_max (hBegins : Begins K s₀) (hRun : StoreRun K G s₀ s) :
    HeadInvariant s.disk.content.configuration s.disk.content.head s.disk.content.slots ∧
      (∀ m, s.memory = some m → HeadInvariant m.configuration m.recordedHead
        (Assoc.layered m.wal.slots s.disk.slots)) ∧
      (∀ s', StoreRun K G s s' →
        Rises s.disk.content.configuration s'.disk.content.configuration ∧
        ∀ m m', s.memory = some m → s'.memory = some m' → Rises m.configuration m'.configuration) ∧
      ∀ a, Admits K G s a → configurationStructureChanged s.disk.content.configuration
          (s.step a).disk.content.configuration = true →
        ∀ slot, (s.step a).disk.content.slots slot ≠ s.disk.content.slots slot →
          (s.step a).disk.content.configuration.maxAcceptedOrDecidedSlot = some slot := by
  have hFits := hBegins.fits
  have hRecalls : Recalls K G s := hBegins.recalls.run hFits hRun
  have hSteady := hRecalls.steady
  refine ⟨(hSteady.ready.good trivial).headInvariant hSteady.ready.matched, hRecalls.backed, ?_, ?_⟩
  · intro s' hLater
    exact ⟨hSteady.rises_run hFits hLater, fun m m' hMemory hMemory' =>
      hRecalls.rises_run hFits hLater hMemory hMemory'⟩
  · intro a hAdmits hChanged slot hSlot
    exact hSteady.changed hFits hAdmits hChanged hSlot

end Runs

namespace Solo

open scoped Trio

def failedAppend : List StoreStep :=
  [.call none (.record (request 1 1 (Trio.command 1))),
    .call (failAt .walAppend 3) (.record (request 1 2 (Trio.command 2)))]

theorem head_outlives_failed_append :
    ∃ m m', (after failedAppend).memory = some m ∧ m.recordedHead = .slotBacked 1 ∧
      ((after failedAppend).step (.reopen none false 1 membership)).memory = some m' ∧
      HeadInvariant m.configuration m.recordedHead
        (Assoc.layered m.wal.slots (after failedAppend).disk.slots) ∧
      Rises m.configuration m'.configuration := by
  have hRun : StoreRun (· ∈ commands) (fun _ _ _ => True) start (after failedAppend) :=
    run (by decide +kernel)
  have hMemory : (after failedAppend).memory.map (·.recordedHead) = some (.slotBacked 1) := by
    decide +kernel
  have hReopened :
      ((after failedAppend).step (.reopen none false 1 membership)).memory.isSome := by
    decide +kernel
  generalize after failedAppend = s at *
  obtain ⟨m, hm, hHead⟩ := Option.map_eq_some_iff.mp hMemory
  obtain ⟨m', hm'⟩ := Option.isSome_iff_exists.mp hReopened
  have hLater : StoreRun (· ∈ commands) (fun _ _ _ => True) s
      (s.step (.reopen none false 1 membership)) :=
    .step (.reopen none false 1 membership) .refl trivial rfl
  obtain ⟨-, hFits, hRises, -⟩ := recorded_head_fits_max begins hRun
  exact ⟨m, m', hm, hHead, hm', hFits m hm, (hRises _ hLater).2 m m' hm hm'⟩

/-- The frame that follows a failed checkpoint is not replayed: the maximal slot goes back. -/
theorem max_goes_back_after_failed_checkpoint :
    let next := ((after headAhead).serve none (.record (request 1 2 (Trio.command 2)))).1
    let reopened := next.reopen none false 1 membership
    next.configurationState.map (fun c => (c.configId, c.maxAcceptedOrDecidedSlot)) =
        some (1, some 2) ∧
      reopened.configurationState.map (fun c => (c.configId, c.maxAcceptedOrDecidedSlot)) =
        some (1, some 1) := by
  decide +kernel

end Solo

end Rhiza.Quepaxa
