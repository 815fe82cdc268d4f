import Rhiza.Quepaxa.Fetch

/-! # The log of a recorder

What a recorder has in memory is what its log replays to, the next sequence number
and the chain of digests included. A log whose last frame was cut replays to the
recorder that was about to write this frame, and goes on from there.
-/

namespace Rhiza.Quepaxa

open Core Library

section Room

variable [Sha256] {t : Transition}

omit [Sha256] in
theorem encodeAll_length {α : Type} {encode : α → Result Bytes} {bound : Nat}
    (hEach : ∀ a part, encode a = .ok part → part.length ≤ bound) {items : List α} {bytes : Bytes}
    (h : encodeAll encode items = .ok bytes) : bytes.length ≤ items.length * bound := by
  induction items generalizing bytes with
  | nil =>
    obtain rfl := Except.ok.inj h
    exact Nat.zero_le _
  | cons a rest ih =>
    obtain ⟨first, hFirst, h⟩ := bind_ok_iff.mp h
    obtain ⟨others, hOthers, h⟩ := bind_ok_iff.mp h
    obtain rfl := Except.ok.inj h
    have hHead := hEach a first hFirst
    have hTail := ih hOthers
    rw [List.length_append, List.length_cons, Nat.succ_mul]
    omega

omit [Sha256] in
theorem encodeFlag_length {α : Type} {encode : α → Result Bytes} {bound : Nat}
    (hEach : ∀ a part, encode a = .ok part → part.length ≤ bound) {value : Option α} {bytes : Bytes}
    (h : encodeFlag encode value = .ok bytes) : bytes.length ≤ 1 + bound := by
  cases value with
  | none =>
    obtain rfl := Except.ok.inj h
    exact Nat.le_add_right 1 bound
  | some a =>
    obtain ⟨part, hPart, h⟩ := bind_ok_iff.mp h
    obtain rfl := Except.ok.inj h
    have hBound := hEach a part hPart
    rw [List.length_cons]
    omega

/-- Seven members with names of two length bytes are most of a configuration. -/
theorem encodeConfigurationState_length {c : ConfigurationState} {bytes : Bytes}
    (h : encodeConfigurationState c = .ok bytes) : bytes.length ≤ 459000 := by
  have hTag : (utf8 "QCON").length = 4 := by decide
  have hSeal : ∀ (mark : ConfigurationSeal) part,
      (.ok (encodeSeal mark) : Result Bytes) = .ok part → part.length ≤ 72 := by
    intro mark part hPart
    obtain rfl := Except.ok.inj hPart
    simp [encodeSeal, LogHash.size]
  obtain ⟨slot, hSlot, h⟩ := bind_ok_iff.mp h
  obtain ⟨members, hMembersLength, predecessor, hPredecessor, mark, hMark, rfl⟩ :
      ∃ members : Bytes, members.length ≤ 1 + 7 * 65537 ∧ ∃ predecessor,
        encodeFlag (fun mark => .ok (encodeSeal mark)) c.predecessor = .ok predecessor ∧
        ∃ mark, encodeFlag (fun mark => .ok (encodeSeal mark)) c.sealed = .ok mark ∧
          withDigest (utf8 "QCON" ++ toBeBytes 2 3 ++ toBeBytes 8 c.configId ++
            c.configDigest.bytes ++ [if c.activated then 1 else 0] ++ slot ++ members ++
            predecessor ++ mark) = bytes := by
    cases hMembership : c.membership with
    | none =>
      simp only [hMembership] at h
      obtain ⟨members, hMembers, h⟩ := bind_ok_iff.mp h
      obtain rfl := Except.ok.inj hMembers
      obtain ⟨predecessor, hPredecessor, h⟩ := bind_ok_iff.mp h
      obtain ⟨mark, hMark, h⟩ := bind_ok_iff.mp h
      exact ⟨[0], by decide, predecessor, hPredecessor, mark, hMark, Except.ok.inj h⟩
    | some membership =>
      simp only [hMembership] at h
      obtain ⟨names, hNames, h⟩ := bind_ok_iff.mp h
      obtain ⟨members, hMembers, h⟩ := bind_ok_iff.mp h
      obtain rfl := Except.ok.inj hMembers
      obtain ⟨predecessor, hPredecessor, h⟩ := bind_ok_iff.mp h
      obtain ⟨mark, hMark, h⟩ := bind_ok_iff.mp h
      refine ⟨_, ?_, predecessor, hPredecessor, mark, hMark, Except.ok.inj h⟩
      have hName : ∀ (member : NodeId) part, putBytes (utf8 member) = .ok part →
          part.length ≤ 65537 := by
        intro member part hPart
        unfold putBytes at hPart
        split at hPart
        · obtain rfl := Except.ok.inj hPart
          rw [List.length_append, toBeBytes_length]
          omega
        · cases hPart
      have hNamesLength := encodeAll_length hName hNames
      have hFew := membership.canonical.atMost
      rw [List.length_append, toBeBytes_length]
      omega
  have hNumber : ∀ (slot : Nat) part, (.ok (toBeBytes 8 slot) : Result Bytes) = .ok part →
      part.length ≤ 8 := by
    intro slot part hPart
    obtain rfl := Except.ok.inj hPart
    exact Nat.le_of_eq (toBeBytes_length ..)
  have hSlotLength := encodeFlag_length hNumber hSlot
  have hPredecessorLength := encodeFlag_length hSeal hPredecessor
  have hMarkLength := encodeFlag_length hSeal hMark
  simp only [withDigest, List.length_append, List.length_singleton, hTag, toBeBytes_length,
    LogHash.size]
  omega

/-- A change with a slot state and a command that their readers take. -/
structure Slim (t : Transition) : Prop where
  state : sizeOf (encodeRecorderState t.state) ≤ maxRecorderStateBytes
  command : ∀ hash command, t.command = some (hash, command) →
    (encodeStoredCommand command).length ≤ maxCommandCacheBytes

/-- Its frame fits into what the reader of the log takes above the soft limit. -/
theorem Slim.frame_size (h : Slim t) {generation sequence : Nat} {prevDigest : LogHash}
    {head : RecordedHeadProvenance} {frame : WalFrame}
    (hFrame : encodeWalFrame generation sequence prevDigest t.state t.configuration head t.command =
      .ok frame) : recorderWalSoftByteLimit + frame.size ≤ maxRecorderWalBytes := by
  obtain ⟨slotBytes, hSlot, hFrame⟩ := bind_ok_iff.mp hFrame
  obtain ⟨configurationBytes, hConfiguration, hFrame⟩ := bind_ok_iff.mp hFrame
  obtain rfl := Except.ok.inj hFrame
  have hState := h.state
  rw [hSlot] at hState
  change slotBytes.length ≤ 1024 * 1024 at hState
  have hConfigured := encodeConfigurationState_length hConfiguration
  have hHead : (encodeHeadProvenance head).length ≤ 81 := by
    cases head <;> simp [encodeHeadProvenance, LogHash.size]
  simp only [recorderWalSoftByteLimit, maxRecorderWalBytes, putBlob, List.length_append,
    toBeBytes_length, LogHash.size]
  cases hSome : t.command with
  | none =>
    simp only [List.length_singleton]
    omega
  | some entry =>
    have hFits := h.command entry.1 entry.2 hSome
    unfold maxCommandCacheBytes at hFits
    simp only [List.length_cons, List.length_append, toBeBytes_length, LogHash.size]
    omega

end Room

section Cut

variable [Sha256] (K : StoredCommand → Prop) (node : Identity)

/-- The log without its last frame, of which some bytes are left. -/
def Disk.cut (d : Disk) (frames : List WalFrame) (n : Nat) : Disk :=
  { d with wal := some ⟨frames, n⟩ }

def Continues (L : Content) (frames : List WalFrame) (f : WalFrame) (d : Disk) : Prop :=
  ∀ n, ∃ c h s, Stored K node True (d.cut frames n) c h ⟨frames, n⟩ s ∧
    s.content (d.cut frames n) = L ∧ s.nextSequence = f.sequence ∧ s.lastDigest = f.prevDigest

def Cuts (L : Content) (sequence : Nat) (d : Disk) : Prop :=
  ∀ frames f, d.wal = some ⟨frames ++ [f], 0⟩ → f.sequence = sequence ∧
    Continues K node L frames f d

variable {K node} {F : Faults Site} {L : Content} {d : Disk} {m : Memory} {t : Transition}

theorem Live.continues (h : Live K node True L d m) {frames : List WalFrame} {f : WalFrame}
    (hWal : d.wal = some ⟨frames, 0⟩) (hSequence : m.wal.nextSequence = f.sequence)
    (hDigest : m.wal.lastDigest = f.prevDigest) : Continues K node L frames f d := by
  intro n
  obtain ⟨c, head, old, hs, -⟩ := h.stored
  have hContent := h.content_eq
  obtain rfl : old = frames :=
    congrArg WalFile.frames (Option.some.inj (hs.wal.symm.trans hWal))
  have hFirm := hs.firm trivial
  exact ⟨c, head, m.replay, ⟨hs.intent, hs.headIntent, hs.configuration, hs.head, rfl, hs.replayed,
    hs.framed, hs.unchanged, hs.matched, fun _ => ⟨hFirm.cluster_eq, hFirm.epoch_eq,
      hFirm.config_eq, hFirm.digest_eq, hFirm.generation, hFirm.valid, hFirm.evidence, hFirm.keyed,
      hFirm.resolved⟩⟩, hContent, hSequence, hDigest⟩

theorem checkpointWal_empties (d₀ : Disk) (m₀ : Memory) :
    Triple F (fun d m => d = d₀ ∧ m = m₀) (checkpointWal node)
      (fun _ d m => d = d₀ ∧ m = m₀ ∧ m₀.wal.frameCount = 0 ∨
        d.wal = some ⟨[], 0⟩ ∧ m.wal = m₀.wal.emptied) (fun _ _ _ => True) (fun _ => True) := by
  have hAll : ∀ {α : Type} (site : Site) (write : α → Disk → Disk) (items : List α),
      Triple F (fun _ m => m = m₀)
        (Program.performAll (fun item => FileStep.replace site (write item)) items)
        (fun _ _ m => m = m₀) (fun _ _ _ => True) (fun _ => True) := by
    intro α site write items
    exact Triple.performAll (I := fun _ _ m => m = m₀) (fun _ _ _ _ h => h)
      (fun _ _ _ _ _ _ _ => trivial) fun _ _ _ _ _ _ _ _ => trivial
  have hStep : ∀ step : FileStep, Triple F (fun _ m => m = m₀) (Program.perform step)
      (fun _ _ m => m = m₀) (fun _ _ _ => True) (fun _ => True) := fun step =>
    Triple.perform (fun _ _ h => h) (fun _ _ _ _ _ => trivial) fun _ _ _ _ _ _ => trivial
  refine Triple.bind (Q := fun m₁ d m => m₁ = m₀ ∧ d = d₀ ∧ m = m₀)
    (Triple.memory fun _ m h => ⟨h.2, h⟩) fun m₁ => Triple.given ?_
  rintro rfl
  split
  · exact Triple.fail fun _ _ _ => trivial
  split
  · rename_i hCount
    exact Triple.pure fun d m h => .inl ⟨h.1, h.2, hCount⟩
  refine Triple.bind ((hAll _ _ _).conseq (fun _ _ h => h.2) (fun _ _ _ h => h) (fun _ _ _ h => h)
    fun _ h => h) fun _ => ?_
  refine Triple.bind (hAll _ _ _) fun _ => ?_
  refine Triple.bind (Q := fun _ _ m => m = m₁) (Triple.lift (fun _ _ _ _ h => h)
    fun _ _ _ _ _ => trivial) fun _ => ?_
  refine Triple.bind (hStep _) fun _ => ?_
  refine Triple.bind (Q := fun _ _ m => m = m₁) (Triple.lift (fun _ _ _ _ h => h)
    fun _ _ _ _ _ => trivial) fun head => ?_
  refine Triple.bind (hStep _) fun _ => ?_
  refine Triple.bind (Q := fun _ d m => d.wal = some ⟨[], 0⟩ ∧ m = m₁) (Triple.onError
    (Triple.perform (fun _ _ h => ⟨rfl, h⟩) (fun _ _ _ _ _ => trivial)
      fun _ _ _ _ _ _ => trivial)) fun _ => Triple.setMemory ?_
  rintro d m ⟨hWal, rfl⟩
  exact .inr ⟨hWal, rfl⟩

/-- The counters of the log in memory are those of its file, which its reader takes. -/
def Measured (d : Disk) (m : Memory) : Prop :=
  ∃ frames, d.wal = some ⟨frames, 0⟩ ∧ m.wal.byteCount = (frames.map (·.size)).sum ∧
    m.wal.frameCount = frames.length ∧ m.wal.byteCount ≤ maxRecorderWalBytes

omit [Sha256] in
theorem Measured.bounded (h : Measured d m) : ∀ w, d.wal = some w → w.bytes ≤ maxRecorderWalBytes := by
  obtain ⟨frames, hWal, hBytes, -, hBound⟩ := h
  rintro w hw
  obtain rfl := Option.some.inj (hWal.symm.trans hw)
  rw [WalFile.bytes, ← hBytes]
  exact hBound

theorem appendFrame_measured (ht : Slim t) (head : RecordedHeadProvenance) :
    Triple F (fun d m => Measured d m ∧ m.wal.byteCount < recorderWalSoftByteLimit)
      (appendFrame t.state t.configuration head t.command) (fun _ d m => Measured d m)
      (fun _ _ _ => True) (fun _ => True) := by
  refine Triple.bind (Q := fun m₀ d m => m = m₀ ∧ Measured d m₀ ∧
    m₀.wal.byteCount < recorderWalSoftByteLimit) (Triple.memory fun d m h => ⟨rfl, h⟩) fun m₀ => ?_
  refine Triple.bind (Q := fun frame d m => recorderWalSoftByteLimit + frame.size ≤ maxRecorderWalBytes ∧
    m = m₀ ∧ Measured d m₀ ∧ m₀.wal.byteCount < recorderWalSoftByteLimit)
    (Triple.lift (fun _ _ _ hFrame h => ⟨ht.frame_size hFrame, h⟩) fun _ _ _ _ _ => trivial)
    fun frame => Triple.given fun hSize => ?_
  refine Triple.bind (Q := fun _ d m => Measured d { m with wal := m.wal.appended frame })
    (Triple.onError (Triple.perform ?_ (fun _ _ _ _ _ => trivial) fun _ _ _ _ _ _ => trivial))
    fun _ => Triple.setMemory fun _ _ h => h
  rintro d m ⟨rfl, ⟨frames, hWal, hBytes, hCount, -⟩, hRoom⟩
  refine ⟨frames ++ [frame], ?_, ?_, ?_, ?_⟩
  · change d.wal.map _ = _
    rw [hWal]
    rfl
  · change m.wal.byteCount + frame.size = _
    rw [hBytes, List.map_append, List.sum_append]
    rfl
  · change m.wal.frameCount + 1 = _
    rw [hCount, List.length_append]
    rfl
  · change m.wal.byteCount + frame.size ≤ _
    omega

theorem appendWal_measured (ht : Slim t) (head : RecordedHeadProvenance) :
    Triple F Measured (appendWal node t.state t.configuration head t.command)
      (fun _ d m => Measured d m) (fun _ _ _ => True) (fun _ => True) := by
  refine Triple.named fun d₀ m₀ hMeasured => ?_
  refine Triple.bind (Q := fun m₁ d m => m₁ = m₀ ∧ d = d₀ ∧ m = m₀)
    (Triple.memory fun _ _ h => ⟨h.2, h⟩) fun m₁ => Triple.given ?_
  rintro rfl
  split
  · exact Triple.fail fun _ _ _ => trivial
  split
  · refine Triple.bind ((checkpointWal_empties d₀ m₁).conseq (fun _ _ h => h) ?_ (fun _ _ _ h => h)
      fun _ h => h) fun _ => appendFrame_measured ht head
    rintro _ d m (⟨rfl, rfl, hNone⟩ | ⟨hWal, hEmptied⟩)
    · -- no frame is counted, so there is none
      obtain ⟨frames, hWal, hBytes, hCount, hBound⟩ := hMeasured
      obtain rfl := List.length_eq_zero_iff.mp (hCount.symm.trans hNone)
      refine ⟨⟨[], hWal, hBytes, hCount, hBound⟩, ?_⟩
      rw [hBytes]
      decide
    · refine ⟨⟨[], hWal, ?_, ?_, ?_⟩, ?_⟩
      all_goals rw [hEmptied]
      · rfl
      · rfl
      · exact Nat.zero_le _
      · exact Nat.zero_lt_succ _
  · rename_i hRoom
    refine (appendFrame_measured ht head).conseq ?_ (fun _ _ _ h => h) (fun _ _ _ h => h) fun _ h => h
    rintro d m ⟨rfl, rfl⟩
    exact ⟨hMeasured, Nat.lt_of_not_le fun hFull => hRoom (.inr hFull)⟩

theorem appendFrame_cuts (sequence : Nat) (state : RecorderSlotState)
    (configuration : ConfigurationState) (head : RecordedHeadProvenance)
    (command : Option (LogHash × StoredCommand)) :
    Triple F (fun d m => Live K node True L d m ∧ m.wal.nextSequence = sequence)
      (appendFrame state configuration head command)
      (fun _ d _ => Cuts K node L sequence d) (fun _ _ _ => True) (fun _ => True) := by
  refine Triple.bind (Q := fun m₀ d m => m = m₀ ∧ Live K node True L d m₀ ∧
    m₀.wal.nextSequence = sequence) (Triple.memory fun d m h => ⟨rfl, h⟩) fun m₀ => ?_
  refine Triple.bind (Q := fun frame d _ => frame.sequence = sequence ∧
    m₀.wal.nextSequence = frame.sequence ∧ m₀.wal.lastDigest = frame.prevDigest ∧
    Live K node True L d m₀) (Triple.lift ?_ fun _ _ _ _ _ => trivial) fun frame => ?_
  · rintro frame d m hFrame ⟨rfl, hLive, rfl⟩
    obtain ⟨digest, size, -, rfl⟩ := encodeWalFrame_eq_ok hFrame
    exact ⟨rfl, rfl, rfl, hLive⟩
  refine Triple.bind (Q := fun _ d _ => Cuts K node L sequence d) (Triple.onError (Triple.perform ?_
    (fun _ _ _ _ _ => trivial) fun _ _ _ _ _ _ => trivial)) fun _ =>
    Triple.setMemory fun _ _ h => h
  rintro d m ⟨hNumber, hSequence, hDigest, hLive⟩ frames f hWal
  obtain ⟨c, h, old, hs, -⟩ := hLive.stored
  -- the frames before the last one are those that were there before
  have hFrames : old ++ [frame] = frames ++ [f] := by
    change d.wal.map _ = _ at hWal
    rw [hs.wal] at hWal
    exact congrArg WalFile.frames (Option.some.inj hWal)
  obtain ⟨rfl, hSame⟩ := List.append_inj' hFrames rfl
  obtain rfl := List.singleton_inj.mp hSame
  exact ⟨hNumber, hLive.continues hs.wal hSequence hDigest⟩

theorem appendWal_cuts (hSetting : Setting K node True L) (m₀ : Memory)
    (state : RecorderSlotState) (configuration : ConfigurationState)
    (head : RecordedHeadProvenance) (command : Option (LogHash × StoredCommand)) :
    Triple F (fun d m => m = m₀ ∧ Live K node True L d m ∧ Harmless True F d m)
      (appendWal node state configuration head command)
      (fun _ d _ => Cuts K node L m₀.wal.nextSequence d) (fun _ _ _ => True) (fun _ => True) := by
  refine Triple.bind (Q := fun _ d m => m = m₀ ∧ Live K node True L d m ∧ Harmless True F d m)
    (Triple.memory fun d m h => h) fun m₁ => ?_
  split
  · exact Triple.fail fun _ _ _ => trivial
  have hAppend : Triple F (fun d m => Live K node True L d m ∧
      m.wal.nextSequence = m₀.wal.nextSequence) (appendFrame state configuration head command)
      (fun _ d _ => Cuts K node L m₀.wal.nextSequence d) (fun _ _ _ => True) (fun _ => True) :=
    appendFrame_cuts _ state configuration head command
  split
  · have hLive : Triple F (fun d m => m = m₀ ∧ Live K node True L d m ∧ Harmless True F d m)
        (checkpointWal node) (fun _ d m => Live K node True L d m) (fun _ _ _ => True)
        (fun _ => True) :=
      (checkpointWal_triple hSetting).conseq (fun _ _ h => h.2) (fun _ _ _ h => h.1)
        (fun _ _ _ _ => trivial) fun _ _ => trivial
    have hSequence : Triple F (fun d m => m = m₀ ∧ Live K node True L d m ∧ Harmless True F d m)
        (checkpointWal node) (fun _ _ m => m.wal.nextSequence = m₀.wal.nextSequence)
        (fun _ _ _ => True) (fun _ => True) := by
      refine Triple.named fun d₁ m₁ hHere => (checkpointWal_empties d₁ m₁).conseq (fun _ _ h => h) ?_
        (fun _ _ _ h => h) fun _ h => h
      rintro _ d m (⟨-, rfl, -⟩ | ⟨-, hEmptied⟩)
      · rw [hHere.1]
      · rw [hEmptied, hHere.1]
        rfl
    refine Triple.bind ((hLive.and hSequence).conseq (fun _ _ h => h) (fun _ _ _ h => h)
      (fun _ _ _ _ => trivial) fun _ _ => trivial) fun _ => hAppend
  · refine hAppend.conseq ?_ (fun _ _ _ h => h) (fun _ _ _ h => h) fun _ h => h
    rintro d m ⟨rfl, hLive, -⟩
    exact ⟨hLive, rfl⟩

theorem persist_cuts (hSetting : Setting K node True L) (ht : Slim t) (d₀ : Disk) (m₀ : Memory)
    (hLive : Live K node True L d₀ m₀) (hHarmless : Harmless True F d₀ m₀)
    (hMeasured : Measured d₀ m₀)
    (hUnchanged : configurationStructureChanged L.configuration t.configuration = false) :
    Triple F (fun d m => d = d₀ ∧ m = m₀) (persistStateTransition node L.configuration t)
      (fun _ d m => Cuts K node L m₀.wal.nextSequence d ∧ Measured d m) (fun _ _ _ => True)
      (fun _ => True) := by
  unfold persistStateTransition
  rw [if_neg (by simp [hUnchanged])]
  refine Triple.bind (Q := fun _ d m => d = d₀ ∧ m = m₀) (Triple.memory fun _ _ h => h) fun m₁ => ?_
  refine Triple.bind (((appendWal_cuts hSetting m₀ _ _ _ _).conseq ?_ (fun _ _ _ h => h)
    (fun _ _ _ h => h) fun _ h => h).and ((appendWal_measured ht _).conseq ?_ (fun _ _ _ h => h)
    (fun _ _ _ h => h) fun _ h => h) |>.conseq (fun _ _ h => h) (fun _ _ _ h => h)
    (fun _ _ _ _ => trivial) fun _ _ => trivial) fun _ => Triple.setMemory fun _ _ h => h
  · rintro d m ⟨rfl, rfl⟩
    exact ⟨rfl, hLive, hHarmless⟩
  · rintro d m ⟨rfl, rfl⟩
    exact hMeasured

variable {retired : List ConfigurationState}

theorem recordProposal_cuts (hReady : Ready K node True retired L) (d₀ : Disk) (m₀ : Memory)
    (request : RecordRequest) (hLive : Live K node True L d₀ m₀) (hHarmless : Harmless True F d₀ m₀)
    (hMeasured : Measured d₀ m₀)
    (hSlim : ∀ summary t,
      (L.recorder node retired).view.recordProposal request = .ok (summary, some t) → Slim t)
    (hUnchanged : ∀ summary t,
      (L.recorder node retired).view.recordProposal request = .ok (summary, some t) →
        configurationStructureChanged L.configuration t.configuration = false) :
    Triple F (fun d m => d = d₀ ∧ m = m₀) (recordProposal node request)
      (fun _ d m => d = d₀ ∧ m = m₀ ∨ Cuts K node L m₀.wal.nextSequence d ∧ Measured d m)
      (fun _ _ _ => True) (fun _ => True) := by
  obtain ⟨c, head, frames, hs, -⟩ := hLive.stored
  refine Triple.bind (Q := fun _ d m => d = d₀ ∧ m = m₀) (readView_triple.conseq (fun _ _ h => h)
    (fun _ _ _ h => h.2) (fun _ _ _ h => h) fun _ h => h) fun v => ?_
  refine Triple.bind (Q := fun _ d m => d = d₀ ∧ m = m₀) (Triple.lift (fun _ _ _ _ h => h)
    fun _ _ _ _ _ => trivial) fun _ => ?_
  refine Triple.bind (Q := fun _ d m => d = d₀ ∧ m = m₀) (Triple.lift (fun _ _ _ _ h => h)
    fun _ _ _ _ _ => trivial) fun _ => ?_
  refine Triple.bind (recoverIntent_failed hs.intent hs.headIntent) fun _ => ?_
  refine Triple.bind (readView_named d₀ m₀) fun v => Triple.given ?_
  rintro rfl
  refine Triple.bind (Q := fun result d m => (m₀.view node d₀).recordProposal request = .ok result ∧
    d = d₀ ∧ m = m₀) (Triple.lift (fun _ _ _ hOk h => ⟨hOk, h⟩) fun _ _ _ _ _ => trivial)
    fun result => Triple.given fun hOk => ?_
  have hSame := (hLive.shows retired).recordProposal hOk
  obtain ⟨summary, _ | t⟩ := result
  · exact Triple.pure fun d m h => .inl h
  · refine Triple.bind (Q := fun _ d m => d = d₀ ∧ m = m₀ ∨
      Cuts K node L m₀.wal.nextSequence d ∧ Measured d m) ?_ fun _ => Triple.pure fun _ _ h => h
    change Triple F _ (persistStateTransition node m₀.configuration t) _ _ _
    rw [hLive.configuration_eq]
    exact (persist_cuts hReady.toSetting (hSlim summary t hSame) d₀ m₀ hLive hHarmless hMeasured
      (hUnchanged summary t hSame)).conseq (fun _ _ h => h) (fun _ _ _ h => .inr h)
      (fun _ _ _ h => h) fun _ h => h

theorem installDecisionProofRecord_cuts (hReady : Ready K node True retired L) (d₀ : Disk)
    (m₀ : Memory) (proof : DecisionProof) (membership : Membership)
    (hLive : Live K node True L d₀ m₀) (hHarmless : Harmless True F d₀ m₀)
    (hMeasured : Measured d₀ m₀)
    (hSlim : ∀ t,
      (L.recorder node retired).view.installDecisionProofRecord proof membership = .ok (some t) →
        Slim t)
    (hUnchanged : ∀ t,
      (L.recorder node retired).view.installDecisionProofRecord proof membership = .ok (some t) →
        configurationStructureChanged L.configuration t.configuration = false) :
    Triple F (fun d m => d = d₀ ∧ m = m₀) (installDecisionProofRecord node proof membership)
      (fun _ d m => d = d₀ ∧ m = m₀ ∨ Cuts K node L m₀.wal.nextSequence d ∧ Measured d m)
      (fun _ _ _ => True) (fun _ => True) := by
  obtain ⟨c, head, frames, hs, -⟩ := hLive.stored
  refine Triple.bind (Q := fun _ d m => d = d₀ ∧ m = m₀) (Triple.lift (fun _ _ _ _ h => h)
    fun _ _ _ _ _ => trivial) fun _ => ?_
  refine Triple.bind (recoverIntent_failed hs.intent hs.headIntent) fun _ => ?_
  refine Triple.bind (readView_named d₀ m₀) fun v => Triple.given ?_
  rintro rfl
  refine Triple.bind (Q := fun result d m =>
    (m₀.view node d₀).installDecisionProofRecord proof membership = .ok result ∧
    d = d₀ ∧ m = m₀) (Triple.lift (fun _ _ _ hOk h => ⟨hOk, h⟩) fun _ _ _ _ _ => trivial)
    fun result => Triple.given fun hOk => ?_
  have hSame := (hLive.shows retired).installDecisionProofRecord hOk
  cases result with
  | none => exact Triple.pure fun d m h => .inl h
  | some t =>
    change Triple F _ (persistStateTransition node m₀.configuration t) _ _ _
    rw [hLive.configuration_eq]
    exact (persist_cuts hReady.toSetting (hSlim t hSame) d₀ m₀ hLive hHarmless hMeasured
      (hUnchanged t hSame)).conseq (fun _ _ h => h) (fun _ _ _ h => .inr h) (fun _ _ _ h => h)
      fun _ h => h

theorem slim_of_record (hReady : Ready K node True retired L) (hFits : FitsCache K)
    {request : RecordRequest} {summary : RecordSummary}
    (hKnown : ∀ command, request.command = some command → K command)
    (hSmall : sizeOf (encodeRecorderState t.state) ≤ maxRecorderStateBytes)
    (h : (L.recorder node retired).view.recordProposal request = .ok (summary, some t)) : Slim t := by
  obtain ⟨value, command, change, state, hPasses, hLoad, ⟨proof, -, -, hNone⟩ | ⟨t', hSome, -,
    hRecords⟩⟩ := RecorderView.recordProposal_eq_ok h
  · cases hNone
  · obtain rfl := Option.some.inj hSome
    have ht := fitting_of_records hReady hPasses hLoad hRecords (fun _ => hKnown) fun _ => hSmall
    exact ⟨hSmall, fun hash command hCommand => hFits command (ht.known trivial hash command hCommand).2⟩

theorem slim_of_install {proof : DecisionProof} {membership : Membership}
    (hSmall : sizeOf (encodeRecorderState t.state) ≤ maxRecorderStateBytes)
    (h : (L.recorder node retired).view.installDecisionProofRecord proof membership = .ok (some t)) :
    Slim t := by
  obtain hNone | ⟨value, command, change, state, t', hSome, -, hInstalls⟩ :=
    RecorderView.installDecisionProofRecord_eq_ok h
  · cases hNone
  · obtain rfl := Option.some.inj hSome
    refine ⟨hSmall, fun hash command hCommand => ?_⟩
    cases hInstalls.command_eq.symm.trans hCommand

end Cut

section Runs

variable [Sha256] {K : StoredCommand → Prop} {s₀ s₁ s s' : FileRecorder} {m : Memory} {L : Content}

def StoreCall.Ordinary (r : Recorder) : StoreCall → Prop
  | .storeCommand _ _ => True
  | .record request => ∀ summary t, r.view.recordProposal request = .ok (summary, some t) →
    configurationStructureChanged r.configuration t.configuration = false
  | .installDecisionProof proof membership => ∀ t,
    r.view.installDecisionProofRecord proof membership = .ok (some t) →
      configurationStructureChanged r.configuration t.configuration = false
  | _ => False

/-- A recorder is opened with the configuration that it has. -/
structure FileRecorder.Named (s : FileRecorder) (configId : Nat) (membership : Membership) : Prop where
  configId_eq : s.disk.content.configuration.configId = configId
  membership_eq : s.disk.content.configuration.membership = some membership

omit [Sha256] in
theorem FileRecorder.Named.openable {configId : Nat} {membership : Membership}
    (h : s.Named configId membership) (hMeasured : Measured s.disk m) :
    Openable s.disk.content s.disk configId membership :=
  ⟨h.configId_eq, h.membership_eq, hMeasured.bounded⟩

def Appends (K : StoredCommand → Prop) (s : FileRecorder) : StoreStep → Prop
  | .call fault call => fault = none ∧ Benign K .crashes s none call ∧
    (s.serve none call).2.toOption.isSome ∧ call.Ordinary s.recorder
  | .reopen fault _ configId membership => fault = none ∧ s.Named configId membership

abbrev AppendRun (K : StoredCommand → Prop) : FileRecorder → FileRecorder → Prop :=
  Run (fun s a => some (s.step a)) (Appends K)

theorem Appends.admits {a : StoreStep} (h : Appends K s a) : Admits K .crashes s a := by
  cases a with
  | call fault call =>
    obtain ⟨rfl, hBenign, -⟩ := h
    exact hBenign
  | reopen => trivial

theorem AppendRun.storeRun (h : AppendRun K s s') : StoreRun K .crashes s s' :=
  Run.mono (fun _ _ => Appends.admits) h

theorem disk_of_serve (call : StoreCall) {Q : Disk → Memory → Prop} (hMemory : s.memory = some m)
    (hTriple : Triple (onlyFault none) (fun d m' => d = s.disk ∧ m' = m) (call.program s.self)
      (fun _ d m' => Q d m') (fun _ _ _ => True) (fun _ => True))
    (hOk : (s.serve none call).2.toOption.isSome) :
    ∃ m', (s.serve none call).1.memory = some m' ∧ Q (s.serve none call).1.disk m' := by
  revert hOk
  refine call_cases hMemory hTriple ⟨rfl, rfl⟩ (R := fun s' result => result.toOption.isSome →
    ∃ m', s'.memory = some m' ∧ Q s'.disk m') (fun _ _ m' h _ => ⟨m', rfl, h⟩)
    (fun _ _ _ _ h => ?_) fun _ _ h => ?_
  · cases h
  · cases h

theorem Steady.replays (hFits : FitsCache K) (h : Steady K .crashes s) (hMemory : s.memory = some m)
    (existingOnly : Bool) {configId : Nat} {membership : Membership}
    (hOpenable : Openable s.disk.content s.disk configId membership) :
    (s.reopen none existingOnly configId membership).disk = s.disk ∧
      ∃ m', (s.reopen none existingOnly configId membership).memory = some m' ∧
        m'.replay = m.replay ∧ m'.wal.checkpoint = m.wal.checkpoint ∧
        (Measured s.disk m → Measured s.disk m') := by
  have hLive := h.live hMemory
  have hContent : m.replay.content s.disk = s.disk.content := hLive.content_eq
  have hInstalled : Installed m.replay.configuration := by
    change Installed m.configuration
    rw [hLive.configuration_eq]
    exact (h.ready.good trivial).installed
  obtain ⟨c, head, frames, hs, hCheckpoint⟩ := hLive.stored
  refine reopen_cases (open_settled existingOnly configId membership hFits hs hInstalled)
    (R := fun s' => s'.disk = s.disk ∧ ∃ m', s'.memory = some m' ∧ m'.replay = m.replay ∧
      m'.wal.checkpoint = m.wal.checkpoint ∧ (Measured s.disk m → Measured s.disk m')) ?_ ?_ ?_
  · intro d m' hOpened
    have hReplay := hOpened.replay_eq
    refine ⟨?_, m', rfl, hReplay, hOpened.checkpoint_eq.trans hCheckpoint, ?_⟩
    · change d = s.disk
      rw [hOpened.disk_eq, ← hs.wal]
    · rintro ⟨frames', hWal, hBytes, hCount, hBound⟩
      obtain rfl : frames = frames' :=
        congrArg WalFile.frames (Option.some.inj (hs.wal.symm.trans hWal))
      have hSame : m'.wal.byteCount = m.wal.byteCount := hOpened.bytes_eq.trans hBytes.symm
      have hFrames : m'.wal.frameCount = m.wal.frameCount := congrArg Replay.frameCount hReplay
      exact ⟨frames, hWal, hOpened.bytes_eq, hFrames.trans hCount, hSame.trans_le hBound⟩
  · rintro e d m' ⟨hErrs, -⟩
    rw [hContent] at hErrs
    obtain ⟨site, n, f, hNone, -⟩ := hErrs hOpenable
    cases hNone
  · exact fun _ _ hFault => absurd rfl hFault

structure Earlier (s₁ s : FileRecorder) (L : Content) : Prop where
  configuration_eq : L.configuration = s₁.disk.content.configuration
  head_eq : L.head = s₁.disk.content.head
  slots_eq : L.slots = s₁.disk.content.slots
  kept : ∀ hash command, s₁.disk.content.commands hash = some command →
    L.commands hash = some command
  stored : ∀ hash command, L.commands hash = some command →
    s.disk.content.commands hash = some command

def Frayed (K : StoredCommand → Prop) (s₀ s : FileRecorder) : Prop :=
  s.memory ≠ none ∧ ∃ s₁ m₁ L, AppendRun K s₀ s₁ ∧ AppendRun K s₁ s ∧ s₁.memory = some m₁ ∧
    Cuts K s.self L m₁.wal.nextSequence s.disk ∧ Earlier s₁ s L

theorem Frayed.disk (h : Frayed K s₀ s) {a : StoreStep} (hAppends : Appends K s a)
    (hSelf : (s.step a).self = s.self) (hRuns : (s.step a).memory ≠ none)
    (hDisk : (s.step a).disk = s.disk) : Frayed K s₀ (s.step a) := by
  obtain ⟨-, s₁, m₁, L, hFirst, hLater, hMemory, hCuts, hEarlier⟩ := h
  refine ⟨hRuns, s₁, m₁, L, hFirst, hLater.trans (.step a .refl hAppends rfl), hMemory, ?_, ?_⟩
  · rw [hSelf, hDisk]
    exact hCuts
  · refine ⟨hEarlier.configuration_eq, hEarlier.head_eq, hEarlier.slots_eq, hEarlier.kept, ?_⟩
    rw [hDisk]
    exact hEarlier.stored

theorem Frayed.append (h : Frayed K s₀ s) (hRun : AppendRun K s₀ s) (hMemory : s.memory = some m)
    {a : StoreStep} (hAppends : Appends K s a) (hSelf : (s.step a).self = s.self)
    (hRuns : (s.step a).memory ≠ none)
    (hRetains : s.recorder.Retains (s.step a).recorder)
    (hDisk : (s.step a).disk = s.disk ∨
      Cuts K s.self s.disk.content m.wal.nextSequence (s.step a).disk) :
    Frayed K s₀ (s.step a) := by
  rcases hDisk with hDisk | hCuts
  · exact h.disk hAppends hSelf hRuns hDisk
  · refine ⟨hRuns, s, m, s.disk.content, hRun, .step a .refl hAppends rfl, hMemory, ?_, rfl, rfl, rfl,
      fun _ _ h => h, hRetains.commands⟩
    rw [hSelf]
    exact hCuts

theorem Frayed.store (h : Frayed K s₀ s) {fault : StoreFault} {hash : LogHash}
    {command : StoredCommand} (hAppends : Appends K s (.call fault (.storeCommand hash command)))
    (hKnown : K command)
    (hSelf : (s.step (.call fault (.storeCommand hash command))).self = s.self)
    (hRuns : (s.step (.call fault (.storeCommand hash command))).memory ≠ none)
    (hRetains : s.recorder.Retains (s.step (.call fault (.storeCommand hash command))).recorder)
    (hStored : (s.step (.call fault (.storeCommand hash command))).recorder.commands hash =
      some command)
    (hHash : command.hash = hash) (hFile : s.disk.commands hash = none)
    (hDisk : (s.step (.call fault (.storeCommand hash command))).disk =
      { s.disk with commands := Function.update s.disk.commands hash (some command) }) :
    Frayed K s₀ (s.step (.call fault (.storeCommand hash command))) := by
  obtain ⟨-, s₁, m₁, L, hFirst, hLater, hMemory, hCuts, hEarlier⟩ := h
  refine ⟨hRuns, s₁, m₁, L.keepCommand false hash command, hFirst,
    hLater.trans (.step _ .refl hAppends rfl), hMemory, ?_, ?_⟩
  · rw [hSelf, hDisk]
    intro frames f hWal
    obtain ⟨hNumber, hContinues⟩ := hCuts frames f hWal
    refine ⟨hNumber, fun n => ?_⟩
    obtain ⟨c, head, rs, hs, rfl, hSequence, hDigest⟩ := hContinues n
    exact ⟨c, head, rs, hs.storeFile hHash (fun _ => hKnown) hFile,
      rs.content_storeFile hFile command, hSequence, hDigest⟩
  · refine ⟨?_, ?_, ?_, fun hash' c hc => ?_, fun hash' c hc => ?_⟩
    · rw [Content.keepCommand_configuration, hEarlier.configuration_eq]
    · rw [Content.keepCommand_head, hEarlier.head_eq]
    · rw [Content.keepCommand_slots, hEarlier.slots_eq]
    · exact Content.commands_stage (hEarlier.kept hash' c hc) (some (hash, command))
    · by_cases hSame : hash' = hash ∧ L.commands hash = none
      · obtain ⟨rfl, hNone⟩ := hSame
        rw [Content.keepCommand_of_none hNone] at hc
        change Function.update _ _ _ _ = _ at hc
        rw [Function.update_self] at hc
        obtain rfl := Option.some.inj hc
        exact hStored
      · have hOld : L.commands hash' = some c := by
          cases hHere : L.commands hash with
          | some old => rwa [Content.keepCommand_of_some hHere] at hc
          | none =>
            rw [Content.keepCommand_of_none hHere] at hc
            change Function.update _ _ _ _ = _ at hc
            rwa [Function.update_of_ne fun hEq => hSame ⟨hEq, hHere⟩] at hc
        exact hRetains.commands hash' c (hEarlier.stored hash' c hOld)

def FileRecorder.Measures (s : FileRecorder) : Prop := ∀ m, s.memory = some m → Measured s.disk m

omit [Sha256] in
theorem measures_of_some {m' : Memory} (hMemory : s.memory = some m') (h : Measured s.disk m') :
    s.Measures := fun _ hHere => Option.some.inj (hMemory.symm.trans hHere) ▸ h

theorem frayed_step (hBegins : Begins K s₀) (hRun : AppendRun K s₀ s) (h : Frayed K s₀ s)
    (hMeasures : s.Measures) {a : StoreStep} (hAppends : Appends K s a) :
    Frayed K s₀ (s.step a) ∧ (s.step a).Measures := by
  have hSteady := hBegins.steady hRun.storeRun
  have hRetains := hSteady.retains hBegins.fits hAppends.admits
  obtain ⟨m, hMemory⟩ := Option.ne_none_iff_exists'.mp h.1
  have hLive := hSteady.live hMemory
  have hMeasured := hMeasures m hMemory
  cases a with
  | reopen fault existingOnly configId membership =>
    obtain ⟨rfl, hNamed⟩ := hAppends
    obtain ⟨hDisk, m', hMemory', -, -, hMore⟩ :=
      hSteady.replays hBegins.fits hMemory existingOnly (hNamed.openable hMeasured)
    refine ⟨h.disk ⟨rfl, hNamed⟩ (reopen_self ..) ?_ hDisk, measures_of_some hMemory' ?_⟩
    · change (s.reopen none existingOnly configId membership).memory ≠ none
      rw [hMemory']
      nofun
    · change Measured (s.reopen none existingOnly configId membership).disk m'
      rw [hDisk]
      exact hMore hMeasured
  | call fault call =>
    obtain ⟨rfl, hBenign, hOk, hOrdinary⟩ := hAppends
    have hHarmless := hBenign.harmless m hMemory
    have hHere : Appends K s (.call none call) := ⟨rfl, hBenign, hOk, hOrdinary⟩
    -- what an appended frame leaves behind
    have hAppended : ∀ m', (s.serve none call).1.memory = some m' →
        ((s.serve none call).1.disk = s.disk ∧ m' = m ∨
          Cuts K s.self s.disk.content m.wal.nextSequence (s.serve none call).1.disk ∧
            Measured (s.serve none call).1.disk m') →
        Frayed K s₀ (s.step (.call none call)) ∧ (s.step (.call none call)).Measures := by
      intro m' hMemory' hDone
      have hRuns : (s.step (.call none call)).memory ≠ none := fun hNone =>
        Option.some_ne_none m' (hMemory'.symm.trans hNone)
      refine ⟨h.append hRun hMemory hHere (serve_self s none _) hRuns hRetains
        (hDone.imp And.left And.left), measures_of_some hMemory' ?_⟩
      rcases hDone with ⟨hDisk, rfl⟩ | ⟨-, hMore⟩
      · exact (congrArg (Measured · m') hDisk).mpr hMeasured
      · exact hMore
    cases call with
    | storeCommand hash command =>
      obtain ⟨m', hMemory', rfl, hStores⟩ := disk_of_serve (.storeCommand hash command)
        (Q := fun d m' => m' = m ∧ Stores s.disk m hash command d) hMemory
        (Triple.bind ((storeCommand_effect hash command s.disk m).conseq (fun _ _ h => h)
          (fun _ _ _ h => ⟨h.1, h.2.1⟩) (fun _ _ _ _ => trivial) fun _ _ => trivial)
          fun _ => Triple.pure fun _ _ h => h) hOk
      have hRuns : (s.step (.call none (.storeCommand hash command))).memory ≠ none := fun hNone =>
        Option.some_ne_none m' (hMemory'.symm.trans hNone)
      rcases hStores with hDisk | ⟨hHash, -, hFile, hDisk⟩
      · exact hAppended m' hMemory' (.inl ⟨hDisk, rfl⟩)
      · refine ⟨h.store hHere (hBenign.stored hash command rfl) (serve_self s none _) hRuns hRetains
          ?_ hHash hFile hDisk, measures_of_some hMemory' ?_⟩
        · cases hReply : (s.serve none (.storeCommand hash command)).2 with
          | error e =>
            rw [hReply] at hOk
            cases hOk
          | ok reply =>
            have hServed := hSteady.serve hBenign
            rw [hReply] at hServed
            exact hServed.brings ⟨rfl, rfl⟩ (answers_of_serve hReply)
        · obtain ⟨frames, hWal, hCounters⟩ := hMeasured
          refine ⟨frames, ?_, hCounters⟩
          change (s.serve none (.storeCommand hash command)).1.disk.wal = _
          rw [hDisk]
          exact hWal
    | record request =>
      have hSlim : ∀ summary t, s.recorder.view.recordProposal request = .ok (summary, some t) →
          Slim t := fun summary t hResult => slim_of_record hSteady.ready hBegins.fits
        (fun command => hBenign.inline request command rfl)
        (hBenign.smallRecord request summary t rfl hResult) hResult
      obtain ⟨m', hMemory', hDone⟩ := disk_of_serve (.record request)
        (Q := fun d m' => d = s.disk ∧ m' = m ∨
          Cuts K s.self s.disk.content m.wal.nextSequence d ∧ Measured d m') hMemory
        (Triple.bind (recordProposal_cuts hSteady.ready s.disk m request hLive hHarmless hMeasured
          hSlim hOrdinary) fun _ => Triple.pure fun _ _ h => h) hOk
      exact hAppended m' hMemory' hDone
    | installDecisionProof proof membership =>
      have hSlim : ∀ t, s.recorder.view.installDecisionProofRecord proof membership = .ok (some t) →
          Slim t := fun t hResult =>
        slim_of_install (hBenign.smallInstall proof membership t rfl hResult) hResult
      obtain ⟨m', hMemory', hDone⟩ := disk_of_serve (.installDecisionProof proof membership)
        (Q := fun d m' => d = s.disk ∧ m' = m ∨
          Cuts K s.self s.disk.content m.wal.nextSequence d ∧ Measured d m') hMemory
        (Triple.bind (installDecisionProofRecord_cuts hSteady.ready s.disk m proof membership hLive
          hHarmless hMeasured hSlim hOrdinary) fun _ => Triple.pure fun _ _ h => h) hOk
      exact hAppended m' hMemory' hDone
    | _ => exact hOrdinary.elim

theorem frayed_run (hBegins : Begins K s₀) (hRun : AppendRun K s₀ s) :
    Frayed K s₀ s ∧ s.Measures := by
  refine hRun.invariant_of_reachable (P := fun s => Frayed K s₀ s ∧ s.Measures) ?_
    fun s a s' hRun h hAppends hStep => ?_
  · obtain ⟨node, configId, membership, rfl, -⟩ := hBegins.fresh
    refine ⟨⟨nofun, _, _, _, .refl, .refl, rfl, ?_, rfl, rfl, rfl, fun _ _ h => h, fun _ _ h => h⟩,
      measures_of_some rfl ⟨[], rfl, rfl, rfl, Nat.zero_le _⟩⟩
    intro frames f hWal
    have hFrames : [] = frames ++ [f] := congrArg WalFile.frames (Option.some.inj hWal)
    simp at hFrames
  · obtain rfl := Option.some.inj hStep
    exact frayed_step hBegins hRun h.1 h.2 hAppends

def FileRecorder.cut (s : FileRecorder) (frames : List WalFrame) (n : Nat) : FileRecorder :=
  { s with disk := s.disk.cut frames n, memory := none }

theorem appendFrame_eq {d : Disk} {frames : List WalFrame} (hWal : d.wal = some ⟨frames, 0⟩)
    {state : RecorderSlotState} {configuration : ConfigurationState} {head : RecordedHeadProvenance}
    {command : Option (LogHash × StoredCommand)} {frame : WalFrame}
    (hFrame : encodeWalFrame m.wal.checkpoint.generation m.wal.nextSequence m.wal.lastDigest state
      configuration head command = .ok frame) :
    appendFrame state configuration head command d m none =
      ⟨d.cut (frames ++ [frame]) 0, { m with wal := m.wal.appended frame }, none, .value ()⟩ := by
  simp only [appendFrame, Bind.bind, Program.bind, Program.memory, hFrame, Program.lift,
    Program.pure, Program.onError, Program.perform, Program.setMemory, FileStep.append, hWal,
    Option.map_some]
  rfl

theorem cut_openable (hSteady : Steady K .crashes s) (hMemory : s.memory = some m)
    {frames : List WalFrame} {f : WalFrame} {n : Nat} (hWal : s.disk.wal = some ⟨frames ++ [f], 0⟩)
    (hn : n < f.size) {c : ConfigurationState} {head : RecordedHead} {rs : Replay}
    (hs : Stored K s.self True (s.disk.cut frames n) c head ⟨frames, n⟩ rs) {configId : Nat}
    {membership : Membership} (hOpenable : Openable s.disk.content s.disk configId membership) :
    Openable (rs.content (s.disk.cut frames n)) (s.disk.cut frames n) configId membership := by
  have hConfiguration := (hSteady.live hMemory).configuration_eq
  obtain ⟨c', head', old, hs', -⟩ := (hSteady.live hMemory).stored
  obtain rfl : c' = c := Option.some.inj (hs'.configuration.symm.trans hs.configuration)
  -- both configurations have the structure of the file
  have hThere : s.disk.content.configuration = { c' with
      maxAcceptedOrDecidedSlot := s.disk.content.configuration.maxAcceptedOrDecidedSlot } := by
    have hSame := eq_of_structure_unchanged hs'.unchanged
    change m.configuration = _ at hSame
    rw [← hConfiguration]
    exact hSame
  have hHere : rs.configuration = { c' with
      maxAcceptedOrDecidedSlot := rs.configuration.maxAcceptedOrDecidedSlot } :=
    eq_of_structure_unchanged hs.unchanged
  refine ⟨?_, ?_, fun w hw => ?_⟩
  · rw [← hOpenable.configId_eq, hThere]
    exact (congrArg ConfigurationState.configId hHere :)
  · rw [← hOpenable.membership_eq, hThere]
    exact (congrArg ConfigurationState.membership hHere :)
  · obtain rfl := Option.some.inj hw
    have hBound := hOpenable.bounded _ hWal
    simp only [WalFile.bytes, List.map_append, List.sum_append, List.map_cons, List.map_nil,
      List.sum_cons, List.sum_nil] at hBound ⊢
    omega

/-- A restart finds the recorder as it was, with the same next sequence number and the
same chain of digests. Where the log was cut inside its last frame, it finds the
recorder that was about to write this frame, and the log goes on from there. -/
theorem replay_refines_recorder (hBegins : Begins K s₀) (hRun : AppendRun K s₀ s)
    (hMemory : s.memory = some m) (existingOnly : Bool) {configId : Nat} {membership : Membership}
    (hNamed : s.Named configId membership) :
    (SameReports s (s.reopen none existingOnly configId membership) ∧
      ∃ m', (s.reopen none existingOnly configId membership).memory = some m' ∧
        m'.replay = m.replay ∧ m'.wal.checkpoint = m.wal.checkpoint) ∧
    ∀ frames f n, s.disk.wal = some ⟨frames ++ [f], 0⟩ → n < f.size →
      ∃ s₁ m₁ L m', AppendRun K s₀ s₁ ∧ AppendRun K s₁ s ∧ s₁.memory = some m₁ ∧
        f.sequence = m₁.wal.nextSequence ∧ Earlier s₁ s L ∧
        ((s.cut frames n).reopen none existingOnly configId membership).memory = some m' ∧
        Reports ((s.cut frames n).reopen none existingOnly configId membership) L ∧
        m'.wal.nextSequence = f.sequence ∧ m'.wal.lastDigest = f.prevDigest ∧
        Live K s.self True L
          ((s.cut frames n).reopen none existingOnly configId membership).disk m' ∧
        ∀ state configuration head command frame,
          encodeWalFrame m'.wal.checkpoint.generation m'.wal.nextSequence m'.wal.lastDigest state
            configuration head command = .ok frame →
          appendFrame state configuration head command
              ((s.cut frames n).reopen none existingOnly configId membership).disk m' none =
            ⟨s.disk.cut (frames ++ [frame]) 0, { m' with wal := m'.wal.appended frame }, none,
              .value ()⟩ := by
  have hSteady := hBegins.steady hRun.storeRun
  obtain ⟨hFrayed, hMeasures⟩ := frayed_run hBegins hRun
  have hOpenable := hNamed.openable (hMeasures m hMemory)
  have hReports := Live.reports hBegins.fits hMemory (hSteady.live hMemory)
  obtain ⟨-, hSame, hReopened⟩ := hSteady.reopened hBegins.fits existingOnly hOpenable
  obtain ⟨-, m', hMemory', hReplay, hCheckpoint, -⟩ :=
    hSteady.replays hBegins.fits hMemory existingOnly hOpenable
  refine ⟨⟨hReports.same hReopened (reopen_self ..) rfl (congrArg Recorder.retired hSame), m',
    hMemory', hReplay, hCheckpoint⟩, fun frames f n hWal hn => ?_⟩
  obtain ⟨-, s₁, m₁, L, hFirst, hLater, hMemory₁, hCuts, hEarlier⟩ := hFrayed
  obtain ⟨hNumber, hContinues⟩ := hCuts frames f hWal
  obtain ⟨c, head, rs, hs, rfl, hSequence, hDigest⟩ := hContinues n
  have hOpen := cut_openable hSteady hMemory hWal hn hs hOpenable
  have hInstalled : Installed rs.configuration := by
    have hHere := hEarlier.configuration_eq
    change rs.configuration = _ at hHere
    rw [hHere]
    exact ((hBegins.steady hFirst.storeRun).ready.good trivial).installed
  refine reopen_cases (s := s.cut frames n)
    (open_settled existingOnly configId membership hBegins.fits hs hInstalled) (R := fun s' =>
      ∃ s₁ m₁ L m', AppendRun K s₀ s₁ ∧ AppendRun K s₁ s ∧ s₁.memory = some m₁ ∧
        f.sequence = m₁.wal.nextSequence ∧ Earlier s₁ s L ∧ s'.memory = some m' ∧ Reports s' L ∧
        m'.wal.nextSequence = f.sequence ∧ m'.wal.lastDigest = f.prevDigest ∧
        Live K s.self True L s'.disk m' ∧
        ∀ state configuration head command frame,
          encodeWalFrame m'.wal.checkpoint.generation m'.wal.nextSequence m'.wal.lastDigest state
            configuration head command = .ok frame →
          appendFrame state configuration head command s'.disk m' none =
            ⟨s.disk.cut (frames ++ [frame]) 0, { m' with wal := m'.wal.appended frame }, none,
              .value ()⟩) ?_ ?_ ?_
  · intro d m' hOpened
    have hDisk := hOpened.disk_eq
    refine ⟨s₁, m₁, _, m', hFirst, hLater, hMemory₁, hNumber, hEarlier, rfl,
      Live.reports hBegins.fits rfl hOpened.live, ?_, ?_, hOpened.live,
      fun state configuration head command frame hFrame => ?_⟩
    · rw [← hSequence, ← hOpened.replay_eq]
      rfl
    · rw [← hDigest, ← hOpened.replay_eq]
      rfl
    · subst hDisk
      exact appendFrame_eq rfl hFrame
  · rintro e d m' ⟨hErrs, -⟩
    obtain ⟨site, k, fault, hNone, -⟩ := hErrs hOpen
    cases hNone
  · exact fun _ _ hFault => absurd rfl hFault

end Runs

namespace Solo

open scoped Trio

/-- One request is appended, and the log is opened again, whole and cut. -/
theorem recorded_is_replayed :
    SameReports (after recorded) ((after recorded).reopen none false 1 membership) ∧
      ∃ frames f, (after recorded).disk.wal = some ⟨frames ++ [f], 0⟩ ∧ 0 < f.size ∧
        ∃ L, Reports (((after recorded).cut frames 0).reopen none false 1 membership) L := by
  have hPermits : StoreCall.permits commands start.recorder (.record (request 1 1 (Trio.command 1))) := by
    decide +kernel
  have hOk : (start.serve none (.record (request 1 1 (Trio.command 1)))).2.toOption.isSome := by
    decide +kernel
  have hOrdinary : (start.recorder.view.recordProposal
      (request 1 1 (Trio.command 1))).toOption.all fun result => result.2.all fun t =>
        !configurationStructureChanged start.recorder.configuration t.configuration := by
    decide +kernel
  have hState : (after recorded).memory.isSome ∧
      (after recorded).disk.content.configuration.configId = 1 ∧
      (after recorded).disk.content.configuration.membership = some membership ∧
      (after recorded).disk.wal.any fun w => decide (w.torn = 0 ∧ w.frames.length = 1 ∧
         w.frames.all fun f => decide (0 < f.size)) := by decide +kernel
  obtain ⟨hMemory, hId, hMembership, hLog⟩ := hState
  obtain ⟨m, hm⟩ := Option.isSome_iff_exists.mp hMemory
  obtain ⟨w, hw, hHere⟩ := (Option.any_eq_true _ _).mp hLog
  obtain ⟨hTorn, hLength, hSizes⟩ := of_decide_eq_true hHere
  obtain ⟨f, hf⟩ := List.length_eq_one_iff.mp hLength
  have hSize : 0 < f.size := by
    rw [hf, List.all_cons, Bool.and_eq_true] at hSizes
    exact of_decide_eq_true hSizes.1
  have hRun : AppendRun (· ∈ commands) start (after recorded) := by
    refine .step (.call none (.record (request 1 1 (Trio.command 1)))) .refl ⟨rfl, ?_, hOk, ?_⟩ rfl
    · refine benign_of_permits ?_ (fun _ _ => harmless_of_walAppend rfl) hPermits
      rintro site crash n ⟨f, hNone, -⟩
      cases hNone
    · intro summary t hResult
      rw [hResult] at hOrdinary
      change (!configurationStructureChanged _ t.configuration) = true at hOrdinary
      simpa using hOrdinary
  obtain ⟨⟨hSame, -⟩, hCut⟩ := replay_refines_recorder begins hRun hm false ⟨hId, hMembership⟩
  have hWal : (after recorded).disk.wal = some ⟨[] ++ [f], 0⟩ := by
    rw [hw, List.nil_append, ← hf, ← hTorn]
  obtain ⟨s₁, m₁, L, m', -, -, -, -, -, -, hReports, -⟩ := hCut [] f 0 hWal hSize
  exact ⟨hSame, [], f, hWal, hSize, L, hReports⟩

def configuration : ConfigurationState := .initial 1 membership.digest (some membership)

def startMemory : Memory := ⟨configuration, .empty, .default⟩

def commandOf (payload : Bytes) : StoredCommand := ⟨.command, payload⟩

def valueOf (payload : Bytes) : AcceptedValue :=
  .fromCommand "trio" 1 1 1 .zero (commandOf payload)

def changeOf (payload : Bytes) : Transition where
  state := RecorderView.nextState (.newWithDigest 1 "trio" 1 1 membership.digest)
    (request 1 1 (commandOf payload))
  configuration := { configuration with maxAcceptedOrDecidedSlot := some 1 }
  command := some ((valueOf payload).commandHash, commandOf payload)

section Request

variable {v : RecorderView} (hCluster : v.clusterId = "trio") (hEpoch : v.epoch = 1)
  (hConfiguration : v.configuration = configuration) (payload : Bytes)

include hCluster hEpoch hConfiguration

theorem validateRecordContext_eq :
    v.validateRecordContext (request 1 1 (commandOf payload)) = .ok () := by
  simp [RecorderView.validateRecordContext, RecorderView.ensureEpoch, request, hCluster, hEpoch,
    hConfiguration, configuration, ConfigurationState.initial, ensure, ok_bind]

theorem admitRequest_eq :
    v.admitRequest (request 1 1 (commandOf payload)) = .ok (valueOf payload, none) := by
  rw [RecorderView.admitRequest, validateRecordContext_eq hCluster hEpoch hConfiguration, ok_bind]
  simp only [request, hCluster, hEpoch, hConfiguration, RecorderView.resolveCommand,
    RecorderView.validateResolvedCommandForValue, okOr, ensure, changeForCommand, commandOf, ok_bind]
  simp [configuration, ConfigurationState.initial, validateSlotGate, sealGate, activationGate,
    RecorderView.recheckCommand, ensure, ok_bind, AcceptedValue.fromCommand]
  rfl

theorem recordProposal_eq (hLoad : v.load 1 membership.digest =
      .ok (.newWithDigest 1 "trio" 1 1 membership.digest)) :
    v.recordProposal (request 1 1 (commandOf payload)) =
      .ok (recordSummary v.recorderId (changeOf payload).state none, some (changeOf payload)) := by
  rw [RecorderView.recordProposal, admitRequest_eq hCluster hEpoch hConfiguration, ok_bind]
  change (v.load 1 membership.digest >>= _) = _
  rw [hLoad, ok_bind]
  simp only [RecorderView.recordInSlot, RecorderSlotState.newWithDigest, RecorderSlotState.record,
    RecorderSlotState.validate, request]
  simp [liftReject, ok_bind, transitionAfterApply, hConfiguration, sealAfterProof]
  exact ⟨rfl, rfl⟩

end Request

theorem exists_frame (payload : Bytes) (head : RecordedHeadProvenance) :
    ∃ frame, encodeWalFrame 1 1 .zero (changeOf payload).state (changeOf payload).configuration head
      (changeOf payload).command = .ok frame ∧ payload.length < frame.size := by
  obtain ⟨state, hState⟩ : ∃ bytes, encodeRecorderState (changeOf payload).state = .ok bytes :=
    ⟨_, rfl⟩
  obtain ⟨installed, hInstalled⟩ :
      ∃ bytes, encodeConfigurationState (changeOf payload).configuration = .ok bytes := ⟨_, rfl⟩
  simp only [encodeWalFrame, hState, hInstalled, ok_bind]
  refine ⟨_, rfl, ?_⟩
  simp only [changeOf, putBlob, List.length_append, List.length_cons, length_encodeStoredCommand,
    commandOf]
  omega

theorem exists_persisted (payload : Bytes) : ∃ frame m, payload.length < frame.size ∧
    persistStateTransition self configuration (changeOf payload) start.disk startMemory none =
      ⟨start.disk.cut [frame] 0, m, none, .value ()⟩ := by
  obtain ⟨frame, hFrame, hSize⟩ := exists_frame payload (.slotBacked 1)
  refine ⟨frame, ⟨(changeOf payload).configuration, .slotBacked 1,
    startMemory.wal.appended frame⟩, hSize, ?_⟩
  have hSame : ¬ configurationStructureChanged configuration (changeOf payload).configuration = true := by
    simp [configurationStructureChanged, changeOf]
  have hFailed : ¬ startMemory.wal.failed = true := Bool.false_ne_true
  have hRoom : ¬ (recorderWalHardFrameLimit ≤ startMemory.wal.frameCount ∨
      recorderWalSoftByteLimit ≤ startMemory.wal.byteCount) := by decide
  have hHead : headAfterSlotState startMemory.recordedHead (changeOf payload).configuration
      (changeOf payload).state = .slotBacked 1 := rfl
  have hAppend := appendFrame_eq (m := startMemory) (d := start.disk) rfl hFrame
  unfold persistStateTransition
  simp only [if_neg hSame]
  simp only [Bind.bind, Program.bind, Program.memory, hHead, appendWal, if_neg hFailed,
    if_neg hRoom, hAppend]
  rfl

theorem exists_recorded (payload : Bytes) : ∃ frame m summary, payload.length < frame.size ∧
    recordProposal self (request 1 1 (commandOf payload)) start.disk startMemory none =
      ⟨start.disk.cut [frame] 0, m, none, .value summary⟩ := by
  obtain ⟨frame, m, hSize, hPersist⟩ := exists_persisted payload
  have hView : readView self start.disk startMemory none =
      ⟨start.disk, startMemory, none, .value (startMemory.view self start.disk)⟩ := rfl
  have hContext := validateRecordContext_eq (v := startMemory.view self start.disk) rfl rfl rfl
    payload
  have hOk := recordProposal_eq (v := startMemory.view self start.disk) rfl rfl rfl payload rfl
  have hIdle : recoverIntent self start.disk startMemory none =
      ⟨start.disk, startMemory, none, .value ()⟩ := rfl
  have hValue : okOr (.rejected .invalidRequest) (request 1 1 (commandOf payload)).proposal.value =
      .ok (valueOf payload) := rfl
  have hConfiguration : (startMemory.view self start.disk).configuration = configuration := rfl
  refine ⟨frame, m, recordSummary self.recorderId (changeOf payload).state none, hSize, ?_⟩
  simp only [recordProposal, Bind.bind, Program.bind, hView, hContext, Program.lift, Program.pure,
    hValue, hIdle, hOk, hConfiguration, hPersist]
  rfl

theorem preflight_of_large {node : Identity} {configId : Nat} {member : Membership} {d : Disk}
    {c : ConfigurationState} {h : RecordedHead} {w : WalFile} {error : Error}
    (hIntent : d.intent = none) (hHeadIntent : d.headIntent = none)
    (hConfiguration : d.configuration = some c) (hHead : d.recordedHead = some h)
    (hWal : d.wal = some w) (hConfigured : validatePreflightConfiguration c configId member = .ok ())
    (hRecorded : validateRecordedHead node c h = .ok ())
    (hBounded : checkBounded w.bytes maxRecorderWalBytes "recorder.wal" = .error error) :
    preflight node configId member d = .error error := by
  simp only [preflight, hIntent, hHeadIntent, hConfiguration, hHead, hWal, okOr, ok_bind,
    hConfigured, hRecorded, hBounded]
  rfl

theorem reopen_large {frame : WalFrame} (hLarge : maxRecorderWalBytes < frame.size)
    {s : FileRecorder} (hSelf : s.self = self) (hDisk : s.disk = start.disk.cut [frame] 0) :
    (s.reopen none false 1 membership).memory = none := by
  have hBounded : checkBounded (WalFile.bytes ⟨[frame], 0⟩) maxRecorderWalBytes "recorder.wal" =
      .error (.decode "recorder recorder.wal must be a bounded regular file") := by
    have hBytes : ¬ WalFile.bytes ⟨[frame], 0⟩ ≤ maxRecorderWalBytes := by
      simp only [WalFile.bytes, List.map_cons, List.map_nil, List.sum_cons, List.sum_nil]
      omega
    simp only [checkBounded, checkDecode, hBytes, decide_false]
    rfl
  have hPreflight : preflight self 1 membership (start.disk.cut [frame] 0) =
      .error (.decode "recorder recorder.wal must be a bounded regular file") := by
    refine preflight_of_large rfl rfl rfl rfl rfl ?_ ?_ hBounded
    · decide +kernel
    · decide +kernel
  have hExit : (openWithMembership self false 1 membership (start.disk.cut [frame] 0) (.blank 1)
      none).exit = .error (.decode "recorder recorder.wal must be a bounded regular file") := by
    simp only [openWithMembership, Bind.bind, Program.bind, Program.disk, hPreflight]
    rfl
  unfold FileRecorder.reopen
  rw [hSelf, hDisk]
  simp only [hExit]
  rfl

theorem refused_of_large {payload : Bytes} (hLarge : maxRecorderWalBytes ≤ payload.length) :
    ∃ s summary, start.serve none (.record (request 1 1 (commandOf payload))) =
      (s, .ok (.recorded summary)) ∧ s.memory ≠ none ∧
        (s.reopen none false 1 membership).memory = none := by
  obtain ⟨frame, m, summary, hSize, hRecorded⟩ := exists_recorded payload
  have hProgram : StoreCall.program self (.record (request 1 1 (commandOf payload))) start.disk
      startMemory none = ⟨start.disk.cut [frame] 0, m, none, .value (.recorded summary)⟩ := by
    simp only [StoreCall.program, Bind.bind, Program.bind, hRecorded]
    rfl
  refine ⟨start.moved (start.disk.cut [frame] 0) (some m), summary, ?_, Option.some_ne_none m,
    reopen_large (Nat.lt_of_le_of_lt hLarge hSize) rfl rfl⟩
  change FileRecorder.call start none (StoreCall.program self _) = _
  simp only [FileRecorder.call, show start.memory = some startMemory from rfl, hProgram]

theorem large_request_is_refused : ∃ s summary,
    start.serve none (.record (request 1 1 (commandOf (List.replicate maxRecorderWalBytes 0)))) =
      (s, .ok (.recorded summary)) ∧ s.memory ≠ none ∧
        (s.reopen none false 1 membership).memory = none :=
  refused_of_large (Nat.le_of_eq List.length_replicate.symm)

end Solo

end Rhiza.Quepaxa
