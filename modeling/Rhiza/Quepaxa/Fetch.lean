import Rhiza.Quepaxa.Crash

/-! # The commands of a recorder

A recorder that met no I/O error has the command of every value that it holds, and
every command that it acknowledged.
-/

namespace Rhiza.Quepaxa

open Core Library

section Fetch

variable [Sha256] {K : StoredCommand → Prop} {s₀ s s' : FileRecorder} {m : Memory}

theorem Steady.live (h : Steady K .crashes s) (hMemory : s.memory = some m) :
    Live K s.self True s.disk.content s.disk m := by
  have hSits := h.sits
  have hCalm : ¬ Errs .crashes := by
    rintro ⟨site, n, hErr⟩
    cases hErr
  rw [hMemory] at hSits
  cases (hSits : Standing K s.self .crashes True s.disk.content s.disk m) with
  | live h => exact h
  | failed hErrs => exact absurd hErrs hCalm
  | pending hErrs => exact absurd hErrs hCalm

def StoreCall.Brings (r : Recorder) (hash : LogHash) (command : StoredCommand) : StoreCall → Prop
  | .storeCommand hash' command' => hash' = hash ∧ command' = command
  | .record request => request.command = some command ∧
    (∃ value, request.proposal.value = some value ∧ value.commandHash = hash) ∧
    ∀ state, r.slots request.slot = some state → state.decidedProof = none
  | _ => False

def StoreCall.Answers : StoreCall → StoreReply → Prop
  | .storeCommand _ _, reply => reply = .stored
  | .record _, reply => ∃ summary, reply = .recorded summary
  | _, _ => True

omit [Sha256] in
theorem eq_of_exit {α β : Type} {x : Io α} {f : α → β} {d : Disk} {fault : StoreFault} {b : β}
    (h : ((x >>= fun a => pure (f a)) d m fault).exit = .value b) : ∃ a, b = f a := by
  simp only [Bind.bind, Program.bind] at h
  cases hExit : (x d m fault).exit with
  | value a =>
    simp only [hExit] at h
    exact ⟨a, (Exit.value.inj h).symm⟩
  | error e =>
    simp only [hExit] at h
    cases h
  | crash =>
    simp only [hExit] at h
    cases h

theorem answers_of_serve {fault : StoreFault} {call : StoreCall} {reply : StoreReply}
    (h : (s.serve fault call).2 = .ok reply) : call.Answers reply := by
  cases hMemory : s.memory with
  | none =>
    simp only [FileRecorder.serve, FileRecorder.call, hMemory] at h
    cases h
  | some m =>
    have hValue : (call.program s.self s.disk m fault).exit = .value reply := by
      simp only [FileRecorder.serve, FileRecorder.call, hMemory] at h
      cases hExit : (call.program s.self s.disk m fault).exit with
      | value a =>
        simp only [hExit] at h
        rw [Except.ok.inj h]
      | error e =>
        simp only [hExit] at h
        cases h
      | crash =>
        simp only [hExit] at h
        cases h
    cases call with
    | storeCommand hash command => exact (eq_of_exit hValue).elim fun _ h => h
    | record request => exact eq_of_exit hValue
    | _ => trivial

theorem Served.brings {G : Faults Site} {call : StoreCall} {reply : StoreReply}
    (h : Served K G s call s' (.ok reply)) {hash : LogHash} {command : StoredCommand}
    (hBrings : call.Brings s.recorder hash command) (hAnswers : call.Answers reply) :
    s'.recorder.commands hash = some command := by
  have hAcknowledged := h.acknowledged reply rfl
  have hTakes := h.takes
  cases call with
  | storeCommand hash' command' =>
    obtain ⟨rfl, rfl⟩ := hBrings
    obtain rfl : reply = .stored := hAnswers
    exact hAcknowledged
  | record request =>
    obtain ⟨hCommand, ⟨value, hValue, rfl⟩, hUndecided⟩ := hBrings
    obtain ⟨summary, rfl⟩ := hAnswers
    obtain ⟨state, hState, -, hKept⟩ := hAcknowledged
    refine hKept ?_ value command hValue hCommand
    obtain hOld | ⟨_, _, _, _, old, -, -, -, -, hNone, -, rfl⟩ | ⟨_, _, _, _, _, _, _, hMove, -⟩ :=
      Recorder.takes_slots hTakes hState
    · exact hUndecided state hOld
    · exact hNone
    · cases hMove
  | _ => exact hBrings.elim

/-- Every value that a running recorder holds has its command, and every command that
was acknowledged is still there. -/
theorem commands_stay_fetchable (hBegins : Begins K s₀) (hRun : StoreRun K .crashes s₀ s')
    (hRuns : s'.memory ≠ none) :
    (∀ slot state value, s'.recorder.slots slot = some state → value ∈ recorderStateValues state →
      ∃ command, s'.fetchCommand value.commandHash = .ok (some command) ∧
        AcceptedValue.fromCommand s'.self.clusterId slot s'.self.epoch state.configId value.prevHash
          command = value) ∧
    ∀ s fault call reply hash command, StoreRun K .crashes s₀ s → Benign K .crashes s fault call →
      (s.serve fault call).2 = .ok reply → call.Brings s.recorder hash command →
      StoreRun K .crashes (s.serve fault call).1 s' →
        s'.fetchCommand hash = .ok (some command) := by
  have hSteady := hBegins.steady hRun
  obtain ⟨m, hMemory⟩ := Option.ne_none_iff_exists'.mp hRuns
  have hReports := Live.reports hBegins.fits hMemory (hSteady.live hMemory)
  refine ⟨fun slot state value hState hValue => ?_, ?_⟩
  · obtain ⟨command, hCommand, hSame⟩ :=
      ((hSteady.ready.good trivial).resolved slot state hState).backed value hValue
    refine ⟨command, ?_, hSame⟩
    rw [hReports.fetch_eq, hCommand]
  · intro s fault call reply hash command hFirst hBenign hReply hBrings hLater
    have hServed := (hBegins.steady hFirst).serve hBenign
    have hAnswers := answers_of_serve hReply
    rw [hReply] at hServed
    have hKept := (retains_run hBegins.fits hServed.steady hLater).commands hash command
      (hServed.brings hBrings hAnswers)
    rw [hReports.fetch_eq]
    exact congrArg Except.ok hKept

end Fetch

section Long

variable [Sha256]

theorem length_encodeStoredCommand (command : StoredCommand) :
    (encodeStoredCommand command).length = 4 + 2 + 1 + 8 + command.payload.length + 32 := by
  have hTag : (utf8 "QCMD").length = 4 := by decide
  simp only [encodeStoredCommand, withDigest, putBlob, List.length_append, List.length_cons,
    List.length_nil, hTag, toBeBytes_length, LogHash.size]
  omega

theorem fetch_long_command {command : StoredCommand} (hLong : 512 * 1024 < command.payload.length)
    (node : Identity) (configId : Nat) (membership : Membership) :
    ((FileRecorder.fresh node configId membership).serve none
        (.storeCommand command.hash command)).2 = .ok .stored ∧
      ((FileRecorder.fresh node configId membership).serve none
        (.storeCommand command.hash command)).1.fetchCommand command.hash =
          .error (.decode "recorder command cache entry must be a bounded regular file") := by
  have hBytes : ¬ (encodeStoredCommand command).length ≤ maxCommandCacheBytes := by
    rw [length_encodeStoredCommand, maxCommandCacheBytes]
    omega
  have hServe : (FileRecorder.fresh node configId membership).serve none
      (.storeCommand command.hash command) =
      ((FileRecorder.fresh node configId membership).moved
        { FileRecorder.freshDisk node configId membership with
          commands := Function.update (fun _ => none) command.hash (some command) }
        (FileRecorder.fresh node configId membership).memory, .ok .stored) := by
    simp only [FileRecorder.serve, FileRecorder.call, FileRecorder.fresh, StoreCall.program,
      storeCommand, ne_eq, not_true_eq_false, if_false]
    rfl
  rw [hServe]
  refine ⟨rfl, ?_⟩
  change Disk.fetchCommandCache _ command.hash = _
  simp only [Disk.fetchCommandCache, Disk.readExistingCommandCache, FileRecorder.moved,
    Function.update_self, checkBounded, hBytes, decide_false, checkDecode]
  rfl

end Long

namespace Solo

open scoped Trio

theorem recorded_command_is_fetched :
    (after recorded).fetchCommand (Trio.command 1).hash = .ok (some (Trio.command 1)) := by
  have hPermits : StoreStep.allPermit commands start recorded := by decide +kernel
  have hCall : StoreCall.permits commands start.recorder (.record (request 1 1 (Trio.command 1))) := by
    decide +kernel
  have hOk : (start.serve none (.record (request 1 1 (Trio.command 1)))).2.toOption.isSome := by
    decide +kernel
  have hRuns : (after recorded).memory.isSome := by decide +kernel
  have hCalm : ∀ fault call, StoreStep.call fault call ∈ recorded → onlyFault fault ≤ .crashes := by
    intro fault call hMem
    obtain ⟨rfl, -⟩ := StoreStep.call.inj (List.mem_singleton.mp hMem)
    rintro site crash n ⟨f, hNone, -⟩
    cases hNone
  have hRun : StoreRun (· ∈ commands) .crashes start (after recorded) :=
    run_of_allPermit hCalm hPermits
  have hNone : onlyFault none ≤ .crashes := hCalm none _ (List.mem_singleton.mpr rfl)
  cases hReply : (start.serve none (.record (request 1 1 (Trio.command 1)))).2 with
  | error e =>
    rw [hReply] at hOk
    cases hOk
  | ok reply =>
    refine (commands_stay_fetchable begins hRun (Option.isSome_iff_ne_none.mp hRuns)).2 start none _
      reply (Trio.command 1).hash (Trio.command 1) .refl
      (benign_of_permits hNone (fun _ _ => harmless_of_walAppend rfl) hCall) hReply
      ⟨rfl, ⟨_, rfl, rfl⟩, fun _ h => (by cases h)⟩ .refl

def longCommand : StoredCommand := ⟨.command, List.replicate (512 * 1024 + 1) 0⟩

theorem long_command_is_not_fetched :
    (start.serve none (.storeCommand longCommand.hash longCommand)).2 = .ok .stored ∧
      (start.serve none (.storeCommand longCommand.hash longCommand)).1.fetchCommand
        longCommand.hash ≠ .ok (some longCommand) := by
  have hLong : 512 * 1024 < longCommand.payload.length := by
    rw [longCommand, List.length_replicate]
    omega
  obtain ⟨hStored, hFetched⟩ := fetch_long_command hLong self 1 membership
  refine ⟨hStored, fun hSame => ?_⟩
  cases hFetched.symm.trans hSame

end Solo

end Rhiza.Quepaxa
