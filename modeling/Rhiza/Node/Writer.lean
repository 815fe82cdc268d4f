import Rhiza.Core.Hash
import Rhiza.Library.Run

/-! # Single SQL writes of `rhiza-node`

Several nodes execute writes over one log on which consensus has agreed. A node
holds a prefix of the log. It looks for the receipt of a request in its own
prefix, executes the statements on the database of that prefix, and proposes the
effect for the next slot. Whatever is decided there is persisted before the node
looks again. A proposal without an answer may still be decided later.
-/

namespace Rhiza.Node

open Rhiza.Core Rhiza.Library

inductive NodeError
  | invalidRequest (message : String)
  | invalidSqlStatement (statementIndex : Nat) (message : String)
  | requestConflict (requestId : String)
  | unavailable (message : String)
  | resourceExhausted (message : String)
  | configurationTransition
  | storage (message : String)
  | reconciliation (message : String)
  | invariant (message : String)
  | fatal (message : String)
  deriving DecidableEq

def NodeError.classification : NodeError → String × Bool
  | .invalidRequest _ => ("invalid_request", false)
  | .invalidSqlStatement _ _ => ("invalid_request", false)
  | .requestConflict _ => ("request_conflict", false)
  | .unavailable _ => ("unavailable", true)
  | .resourceExhausted _ => ("resource_exhausted", true)
  | .configurationTransition => ("configuration_transition", true)
  | .storage _ => ("storage_error", false)
  | .reconciliation _ => ("reconciliation_error", false)
  | .invariant _ => ("invariant_violation", false)
  | .fatal _ => ("fatal", false)

def NodeError.IsStatementError : NodeError → Prop
  | .invalidRequest _ => True
  | .invalidSqlStatement _ _ => True
  | _ => False

/-- Why `prepare_sql_batch_effect` gave no effect for its one member. -/
inductive ExecutionError
  | resourceExhausted (message : String)
  | failed (message : String)
  deriving DecidableEq

/-- SQLite as the write path uses it: statements are executed on a staging copy of a
database and leave an effect, which is installed on every copy. -/
structure Engine (D S E : Type) where
  empty : D
  execute : D → List S → Except ExecutionError E
  install : D → E → D
  /-- The length of the encoded effect. -/
  size : E → Nat

def maxSqlStatements : Nat := 64
def maxCommandBytes : Nat := 512 * 1024

variable {D S E : Type}

def firstInvalidSqlStatement (statements : List S) (invalid : List S → Bool) : Option Nat :=
  if statements = [] ∨ maxSqlStatements < statements.length then none
  else (List.range statements.length).find? fun i => invalid (statements.take (i + 1))

def Engine.fails (engine : Engine D S E) (database : D) (statements : List S) : Bool :=
  match engine.execute database statements with
  | .ok _ => false
  | .error _ => true

def prepareSqlProposal [DecidableEq S] (engine : Engine D S E) (database : D)
    (statements : List S) : Except NodeError E :=
  match engine.execute database statements with
  | .error (.resourceExhausted message) => .error (.resourceExhausted message)
  | .error (.failed message) =>
    match firstInvalidSqlStatement statements (engine.fails database) with
    | some statementIndex => .error (.invalidSqlStatement statementIndex message)
    | none => .error (.invalidRequest message)
  | .ok effect =>
    if engine.size effect ≤ maxCommandBytes then .ok effect
    else .error (.resourceExhausted s!"SQL effect exceeds {maxCommandBytes} bytes")

/-- An entry of the log: the receipts it installs, with the payloads of their
requests, and its effect. `owner` is the call that proposed it, if it is one. -/
structure Entry (E : Type) where
  receipts : List (String × Bytes)
  effect : Option E
  owner : Option Nat
  deriving DecidableEq

def Engine.apply (engine : Engine D S E) (database : D) (entry : Entry E) : D :=
  match entry.effect with
  | none => database
  | some effect => engine.install database effect

def databaseAt (engine : Engine D S E) (log : List (Entry E)) (k : Nat) : D :=
  (log.take k).foldl engine.apply engine.empty

def receiptIn (requestId : String) : Nat → List (Entry E) → Option (Nat × Bytes)
  | _, [] => none
  | index, entry :: log =>
    match entry.receipts.find? fun receipt => receipt.1 = requestId with
    | some receipt => some (index, receipt.2)
    | none => receiptIn requestId (index + 1) log

/-- `check_request` on a node with the first `k` entries. -/
def receiptAt (log : List (Entry E)) (k : Nat) (requestId : String) : Option (Nat × Bytes) :=
  receiptIn requestId 1 (log.take k)

inductive Cause
  /-- `ensure_ready` or `ensure_writes_active` refused it. -/
  | refused
  /-- The preparation of its proposal failed. -/
  | rejected
  /-- Its receipt was found. -/
  | receipt
  /-- A receipt of another payload was found. -/
  | conflict
  /-- Consensus gave no entry for its slot. -/
  | gaveUp
  /-- The entry of its slot was decided but not persisted. -/
  | notPersisted
  deriving DecidableEq

inductive Phase (E : Type)
  | waiting
  | ready
  | proposed (slot : Nat) (effect : E)
  | answered (cause : Cause) (answer : Except NodeError Nat)
  deriving DecidableEq

/-- A call of `execute_sql_payload_locked`. `ackedBefore` is the greatest index that
any node had acknowledged when it started. -/
structure Call (S E : Type) where
  node : Nat
  requestId : String
  payload : Bytes
  statements : List S
  ackedBefore : Nat
  phase : Phase E
  deriving DecidableEq

structure Replica where
  applied : Nat
  fatal : Bool
  deriving DecidableEq

structure World (S E : Type) where
  log : List (Entry E)
  proposals : List (Nat × Entry E)
  nodes : List Replica
  calls : List (Call S E)
  acked : Nat
  deriving DecidableEq

/-- What `ensure_ready` and `ensure_writes_active` refuse with. -/
inductive Refusal
  | fatal (reason : String)
  | notReady (message : String)
  | transition
  deriving DecidableEq

def Refusal.error : Refusal → NodeError
  | .fatal reason => .fatal reason
  | .notReady message => .unavailable message
  | .transition => .configurationTransition

/-- The errors of a proposal, as `map_consensus_error` sorts them. -/
inductive ConsensusFailure
  | unavailable (message : String)
  | reconciliation (message : String)
  | invariant (message : String)
  deriving DecidableEq

def ConsensusFailure.error : ConsensusFailure → NodeError
  | .unavailable message => .unavailable message
  | .reconciliation message => .reconciliation message
  | .invariant message => .invariant message

def ConsensusFailure.latches : ConsensusFailure → Bool
  | .unavailable _ => false
  | _ => true

/-- The errors of `persist_entry`, all of them latched. -/
inductive PersistFailure
  | storage (message : String)
  | invariant (message : String)
  deriving DecidableEq

def PersistFailure.error : PersistFailure → NodeError
  | .storage message => .storage message
  | .invariant message => .invariant message

inductive Event (S E : Type)
  /-- A request reaches a node. -/
  | arrive (node : Nat) (requestId : String) (payload : Bytes) (statements : List S)
  | refuse (call : Nat) (refusal : Refusal)
  | check (call : Nat)
  | prepare (call : Nat)
  /-- The proposer gets the decided entry of its slot and persists it. -/
  | persist (call : Nat)
  | giveUp (call : Nat) (failure : ConsensusFailure)
  | failPersist (call : Nat) (failure : PersistFailure)
  /-- One of the proposals for the next slot is decided. -/
  | decide (proposal : Nat)
  /-- A proposal of another write path, of a barrier or of a recovery. -/
  | foreign (slot : Nat) (receipts : List (String × Bytes)) (effect : Option E)
  /-- A node persists the next entry for another reason. -/
  | catchUp (node : Nat)
  /-- Another write path acknowledges a write. -/
  | acknowledge (index : Nat)

namespace World

variable (w : World S E)

def setPhase (c : Nat) (call : Call S E) (phase : Phase E) : World S E :=
  { w with calls := w.calls.set c { call with phase } }

def setNode (n : Nat) (node : Replica) : World S E := { w with nodes := w.nodes.set n node }

def answerOk (c : Nat) (call : Call S E) (index : Nat) : World S E :=
  { w.setPhase c call (.answered .receipt (.ok index)) with acked := max w.acked index }

def afterLookup (c : Nat) (call : Call S E) (next : World S E) :
    Option (Nat × Bytes) → World S E
  | none => next
  | some (index, payload) =>
    if payload = call.payload then w.answerOk c call index
    else w.setPhase c call (.answered .conflict (.error (.requestConflict call.requestId)))

def arrive (node : Nat) (requestId : String) (payload : Bytes) (statements : List S) : World S E :=
  { w with calls := w.calls ++ [⟨node, requestId, payload, statements, w.acked, .waiting⟩] }

def refuse (c : Nat) (refusal : Refusal) : Option (World S E) := do
  let call ← w.calls[c]?
  let node ← w.nodes[call.node]?
  match call.phase with
  | .waiting =>
    match refusal, node.fatal with
    | .fatal _, false => none
    | refusal, _ => some (w.setPhase c call (.answered .refused (.error refusal.error)))
  | _ => none

def check (c : Nat) : Option (World S E) := do
  let call ← w.calls[c]?
  let node ← w.nodes[call.node]?
  match call.phase, node.fatal with
  | .waiting, false =>
    some (w.afterLookup c call (w.setPhase c call .ready)
      (receiptAt w.log node.applied call.requestId))
  | _, _ => none

def prepare [DecidableEq S] (engine : Engine D S E) (c : Nat) : Option (World S E) := do
  let call ← w.calls[c]?
  let node ← w.nodes[call.node]?
  match call.phase with
  | .ready =>
    match prepareSqlProposal engine (databaseAt engine w.log node.applied) call.statements with
    | .error error => some (w.setPhase c call (.answered .rejected (.error error)))
    | .ok effect =>
      let slot := node.applied + 1
      let entry : Entry E := ⟨[(call.requestId, call.payload)], some effect, some c⟩
      some { w.setPhase c call (.proposed slot effect) with
              proposals := w.proposals ++ [(slot, entry)] }
  | _ => none

/-- `persist_entry` and the lookup after it. An own entry without a receipt is an
invariant error. -/
def persist [DecidableEq E] (c : Nat) : Option (World S E) := do
  let call ← w.calls[c]?
  let node ← w.nodes[call.node]?
  match call.phase with
  | .proposed slot effect => do
    let entry ← w.log[slot - 1]?
    if node.applied + 1 = slot then
      let persisted := w.setNode call.node { node with applied := slot }
      let next :=
        if entry.receipts = [(call.requestId, call.payload)] ∧ entry.effect = some effect then
          (persisted.setNode call.node ⟨slot, true⟩).setPhase c call
            (.answered .notPersisted (.error (.invariant
              "committed SQL request was not recorded by SQLite")))
        else persisted.setPhase c call .ready
      some (persisted.afterLookup c call next (receiptAt w.log slot call.requestId))
    else none
  | _ => none

def giveUp (c : Nat) (failure : ConsensusFailure) : Option (World S E) := do
  let call ← w.calls[c]?
  let node ← w.nodes[call.node]?
  match call.phase with
  | .proposed _ _ =>
    let latched := w.setNode call.node { node with fatal := node.fatal || failure.latches }
    some (latched.setPhase c call (.answered .gaveUp (.error failure.error)))
  | _ => none

def failPersist (c : Nat) (failure : PersistFailure) : Option (World S E) := do
  let call ← w.calls[c]?
  let node ← w.nodes[call.node]?
  match call.phase with
  | .proposed slot _ =>
    if slot ≤ w.log.length then
      let latched := w.setNode call.node { node with fatal := true }
      some (latched.setPhase c call (.answered .notPersisted (.error failure.error)))
    else none
  | _ => none

def decide (i : Nat) : Option (World S E) := do
  let proposal ← w.proposals[i]?
  if proposal.1 = w.log.length + 1 then some { w with log := w.log ++ [proposal.2] } else none

def foreign (slot : Nat) (receipts : List (String × Bytes)) (effect : Option E) : World S E :=
  { w with proposals := w.proposals ++ [(slot, ⟨receipts, effect, none⟩)] }

def catchUp (n : Nat) : Option (World S E) := do
  let node ← w.nodes[n]?
  if node.applied < w.log.length then
    some (w.setNode n { node with applied := node.applied + 1 })
  else none

def acknowledge (index : Nat) : Option (World S E) :=
  if index ≤ w.log.length then some { w with acked := max w.acked index } else none

def step [DecidableEq S] [DecidableEq E] (engine : Engine D S E) : Event S E → Option (World S E)
  | .arrive node requestId payload statements => some (w.arrive node requestId payload statements)
  | .refuse c refusal => w.refuse c refusal
  | .check c => w.check c
  | .prepare c => w.prepare engine c
  | .persist c => w.persist c
  | .giveUp c failure => w.giveUp c failure
  | .failPersist c failure => w.failPersist c failure
  | .decide i => w.decide i
  | .foreign slot receipts effect => some (w.foreign slot receipts effect)
  | .catchUp n => w.catchUp n
  | .acknowledge index => w.acknowledge index

def initial (nodes : Nat) : World S E where
  log := []
  proposals := []
  nodes := List.replicate nodes ⟨0, false⟩
  calls := []
  acked := 0

variable {w} {w' : World S E}

theorem refuse_eq_some {c : Nat} {refusal : Refusal} (h : w.refuse c refusal = some w') :
    ∃ call, w.calls[c]? = some call ∧ call.phase = .waiting ∧
      w' = w.setPhase c call (.answered .refused (.error refusal.error)) := by
  obtain ⟨call, hCall, h⟩ := Option.bind_eq_some_iff.mp h
  obtain ⟨node, -, h⟩ := Option.bind_eq_some_iff.mp h
  split at h
  · rename_i hPhase
    split at h
    · cases h
    · exact ⟨call, hCall, hPhase, (Option.some.inj h).symm⟩
  · cases h

theorem check_eq_some {c : Nat} (h : w.check c = some w') :
    ∃ call node, w.calls[c]? = some call ∧ w.nodes[call.node]? = some node ∧
      call.phase = .waiting ∧
      w' = w.afterLookup c call (w.setPhase c call .ready)
        (receiptAt w.log node.applied call.requestId) := by
  obtain ⟨call, hCall, h⟩ := Option.bind_eq_some_iff.mp h
  obtain ⟨node, hNode, h⟩ := Option.bind_eq_some_iff.mp h
  split at h
  · rename_i hPhase _
    exact ⟨call, node, hCall, hNode, hPhase, (Option.some.inj h).symm⟩
  · cases h

theorem prepare_eq_some [DecidableEq S] {engine : Engine D S E} {c : Nat}
    (h : w.prepare engine c = some w') :
    ∃ call node, w.calls[c]? = some call ∧ w.nodes[call.node]? = some node ∧ call.phase = .ready ∧
      ((∃ error, prepareSqlProposal engine (databaseAt engine w.log node.applied) call.statements =
          .error error ∧ w' = w.setPhase c call (.answered .rejected (.error error))) ∨
        ∃ effect, w' = { w.setPhase c call (.proposed (node.applied + 1) effect) with
          proposals := w.proposals ++
            [(node.applied + 1, ⟨[(call.requestId, call.payload)], some effect, some c⟩)] }) := by
  obtain ⟨call, hCall, h⟩ := Option.bind_eq_some_iff.mp h
  obtain ⟨node, hNode, h⟩ := Option.bind_eq_some_iff.mp h
  split at h
  · rename_i hPhase
    refine ⟨call, node, hCall, hNode, hPhase, ?_⟩
    split at h
    · rename_i error hError
      exact .inl ⟨error, hError, (Option.some.inj h).symm⟩
    · rename_i effect _
      exact .inr ⟨effect, (Option.some.inj h).symm⟩
  · cases h

theorem persist_eq_some [DecidableEq E] {c : Nat} (h : w.persist c = some w') :
    ∃ call node slot effect entry, w.calls[c]? = some call ∧ w.nodes[call.node]? = some node ∧
      call.phase = .proposed slot effect ∧ w.log[slot - 1]? = some entry ∧ node.applied + 1 = slot ∧
      ∃ persisted next : World S E, persisted = w.setNode call.node { node with applied := slot } ∧
        (next = persisted.setPhase c call .ready ∨
          next = (persisted.setNode call.node ⟨slot, true⟩).setPhase c call
            (.answered .notPersisted (.error (.invariant
              "committed SQL request was not recorded by SQLite")))) ∧
        w' = persisted.afterLookup c call next (receiptAt w.log slot call.requestId) := by
  obtain ⟨call, hCall, h⟩ := Option.bind_eq_some_iff.mp h
  obtain ⟨node, hNode, h⟩ := Option.bind_eq_some_iff.mp h
  split at h
  · rename_i slot effect hPhase
    obtain ⟨entry, hEntry, h⟩ := Option.bind_eq_some_iff.mp h
    split at h
    · rename_i hSlot
      refine ⟨call, node, slot, effect, entry, hCall, hNode, hPhase, hEntry, hSlot, _, _, rfl, ?_,
        (Option.some.inj h).symm⟩
      split
      · exact .inr rfl
      · exact .inl rfl
    · cases h
  · cases h

theorem giveUp_eq_some {c : Nat} {failure : ConsensusFailure} (h : w.giveUp c failure = some w') :
    ∃ call node fatal slot effect, w.calls[c]? = some call ∧ w.nodes[call.node]? = some node ∧
      call.phase = .proposed slot effect ∧
      w' = (w.setNode call.node { node with fatal }).setPhase c call
        (.answered .gaveUp (.error failure.error)) := by
  obtain ⟨call, hCall, h⟩ := Option.bind_eq_some_iff.mp h
  obtain ⟨node, hNode, h⟩ := Option.bind_eq_some_iff.mp h
  split at h
  · rename_i slot effect hPhase
    exact ⟨call, node, _, slot, effect, hCall, hNode, hPhase, (Option.some.inj h).symm⟩
  · cases h

theorem failPersist_eq_some {c : Nat} {failure : PersistFailure}
    (h : w.failPersist c failure = some w') :
    ∃ call node slot effect, w.calls[c]? = some call ∧ w.nodes[call.node]? = some node ∧
      call.phase = .proposed slot effect ∧
      w' = (w.setNode call.node { node with fatal := true }).setPhase c call
        (.answered .notPersisted (.error failure.error)) := by
  obtain ⟨call, hCall, h⟩ := Option.bind_eq_some_iff.mp h
  obtain ⟨node, hNode, h⟩ := Option.bind_eq_some_iff.mp h
  split at h
  · rename_i slot effect hPhase
    split at h
    · exact ⟨call, node, slot, effect, hCall, hNode, hPhase, (Option.some.inj h).symm⟩
    · cases h
  · cases h

theorem decide_eq_some {i : Nat} (h : w.decide i = some w') :
    ∃ entry, (w.log.length + 1, entry) ∈ w.proposals ∧ w' = { w with log := w.log ++ [entry] } := by
  obtain ⟨⟨slot, entry⟩, hProposal, h⟩ := Option.bind_eq_some_iff.mp h
  split at h
  · rename_i hSlot
    obtain rfl : slot = w.log.length + 1 := hSlot
    exact ⟨entry, List.mem_of_getElem? hProposal, (Option.some.inj h).symm⟩
  · cases h

theorem catchUp_eq_some {n : Nat} (h : w.catchUp n = some w') :
    ∃ node, w.nodes[n]? = some node ∧ node.applied < w.log.length ∧
      w' = w.setNode n { node with applied := node.applied + 1 } := by
  obtain ⟨node, hNode, h⟩ := Option.bind_eq_some_iff.mp h
  split at h
  · exact ⟨node, hNode, ‹_›, (Option.some.inj h).symm⟩
  · cases h

theorem acknowledge_eq_some {index : Nat} (h : w.acknowledge index = some w') :
    w' = { w with acked := max w.acked index } := by
  unfold acknowledge at h
  split at h
  · exact (Option.some.inj h).symm
  · cases h

theorem afterLookup_cases (w : World S E) (c : Nat) (call : Call S E) (next : World S E)
    (found : Option (Nat × Bytes)) :
    (found = none ∧ w.afterLookup c call next found = next) ∨
      (∃ index, w.afterLookup c call next found = w.answerOk c call index) ∨
      w.afterLookup c call next found =
        w.setPhase c call (.answered .conflict (.error (.requestConflict call.requestId))) := by
  cases found with
  | none => exact .inl ⟨rfl, rfl⟩
  | some receipt =>
    obtain ⟨index, payload⟩ := receipt
    by_cases hPayload : payload = call.payload
    · exact .inr (.inl ⟨index, by rw [afterLookup, if_pos hPayload]⟩)
    · exact .inr (.inr (by rw [afterLookup, if_neg hPayload]))

theorem prepareSqlProposal_eq_error [DecidableEq S] {engine : Engine D S E} {database : D}
    {statements : List S} {error : NodeError}
    (h : prepareSqlProposal engine database statements = .error error)
    (hError : error.IsStatementError) :
    ∃ message, engine.execute database statements = .error (.failed message) := by
  unfold prepareSqlProposal at h
  split at h
  · cases h
    exact hError.elim
  · rename_i message hExecute
    exact ⟨message, hExecute⟩
  · split at h
    · cases h
    · cases h
      exact hError.elim

theorem databaseAt_append (engine : Engine D S E) {log : List (Entry E)} {k : Nat}
    (hk : k ≤ log.length) (entry : Entry E) :
    databaseAt engine (log ++ [entry]) k = databaseAt engine log k := by
  rw [databaseAt, databaseAt, List.take_append_of_le_length hk]

def FailsOnPrefix (engine : Engine D S E) (log : List (Entry E)) (call : Call S E) : Prop :=
  ∃ k, call.ackedBefore ≤ k ∧ k ≤ log.length ∧
    ∃ message, engine.execute (databaseAt engine log k) call.statements = .error (.failed message)

theorem FailsOnPrefix.append {engine : Engine D S E} {log : List (Entry E)} {call : Call S E}
    (h : FailsOnPrefix engine log call) (entry : Entry E) :
    FailsOnPrefix engine (log ++ [entry]) call := by
  obtain ⟨k, hAcked, hk, message, hFails⟩ := h
  refine ⟨k, hAcked, ?_, message, ?_⟩
  · rw [List.length_append]
    omega
  · rw [databaseAt_append engine hk, hFails]

def Answers (engine : Engine D S E) (log : List (Entry E)) (call : Call S E) : Prop :=
  ∀ cause error, call.phase = .answered cause (.error error) → error.IsStatementError →
    FailsOnPrefix engine log call

def Informed [DecidableEq S] (engine : Engine D S E) (w : World S E) (event : Event S E) : Prop :=
  ∀ c call node error, event = .prepare c → w.calls[c]? = some call →
    w.nodes[call.node]? = some node →
    prepareSqlProposal engine (databaseAt engine w.log node.applied) call.statements = .error error →
    call.ackedBefore ≤ node.applied

structure Linear (engine : Engine D S E) (w : World S E) : Prop where
  applied : ∀ node ∈ w.nodes, node.applied ≤ w.log.length
  answers : ∀ call ∈ w.calls, Answers engine w.log call

theorem Linear.setPhase {engine : Engine D S E} (h : Linear engine w) {c : Nat} {call : Call S E}
    {phase : Phase E} (hAnswers : Answers engine w.log { call with phase }) :
    Linear engine (w.setPhase c call phase) where
  applied := h.applied
  answers call' hCall' := by
    rcases List.mem_or_eq_of_mem_set hCall' with hOld | rfl
    · exact h.answers call' hOld
    · exact hAnswers

theorem Linear.setNode {engine : Engine D S E} (h : Linear engine w) {n : Nat} {node : Replica}
    (hNode : node.applied ≤ w.log.length) : Linear engine (w.setNode n node) where
  applied node' hNode' := by
    rcases List.mem_or_eq_of_mem_set hNode' with hOld | rfl
    · exact h.applied node' hOld
    · exact hNode
  answers := h.answers

theorem answers_of_not_error {engine : Engine D S E} {log : List (Entry E)} {call : Call S E}
    (h : ∀ cause error, call.phase = .answered cause (.error error) → ¬error.IsStatementError) :
    Answers engine log call :=
  fun cause error hPhase hError => absurd hError (h cause error hPhase)

theorem Linear.afterLookup {engine : Engine D S E} {next : World S E} (h : Linear engine w)
    (hNext : Linear engine next) (c : Nat) (call : Call S E) (found : Option (Nat × Bytes)) :
    Linear engine (w.afterLookup c call next found) := by
  obtain ⟨-, hFound⟩ | ⟨index, hFound⟩ | hFound := afterLookup_cases w c call next found
  · rwa [hFound]
  · rw [hFound]
    have hSet : Linear engine (w.setPhase c call (.answered .receipt (.ok index))) :=
      h.setPhase (answers_of_not_error nofun)
    exact ⟨hSet.applied, hSet.answers⟩
  · rw [hFound]
    refine h.setPhase (answers_of_not_error fun cause error hPhase => ?_)
    cases hPhase
    exact id

theorem Linear.step [DecidableEq S] [DecidableEq E] {engine : Engine D S E} {event : Event S E}
    (h : Linear engine w) (hInformed : Informed engine w event)
    (hStep : w.step engine event = some w') : Linear engine w' := by
  cases event with
  | arrive node requestId payload statements =>
    cases hStep
    refine ⟨h.applied, fun call hCall => ?_⟩
    rcases List.mem_append.mp hCall with hOld | hNew
    · exact h.answers call hOld
    · obtain rfl := List.mem_singleton.mp hNew
      exact answers_of_not_error nofun
  | refuse c refusal =>
    obtain ⟨call, -, -, rfl⟩ := refuse_eq_some hStep
    refine h.setPhase (answers_of_not_error fun cause error hPhase => ?_)
    cases hPhase
    cases refusal <;> exact id
  | check c =>
    obtain ⟨call, node, -, -, -, rfl⟩ := check_eq_some hStep
    have hReady : Linear engine (w.setPhase c call .ready) :=
      h.setPhase (answers_of_not_error nofun)
    exact h.afterLookup hReady c call _
  | prepare c =>
    obtain ⟨call, node, hCall, hNode, -, ⟨error, hPrepare, rfl⟩ | ⟨effect, rfl⟩⟩ :=
      prepare_eq_some hStep
    · refine h.setPhase fun cause error' hPhase hError => ?_
      cases hPhase
      obtain ⟨message, hFails⟩ := prepareSqlProposal_eq_error hPrepare hError
      exact ⟨node.applied, hInformed c call node error rfl hCall hNode hPrepare,
        h.applied node (List.mem_of_getElem? hNode), message, hFails⟩
    · have hSet : Linear engine (w.setPhase c call (.proposed (node.applied + 1) effect)) :=
        h.setPhase (answers_of_not_error nofun)
      exact ⟨hSet.applied, hSet.answers⟩
  | persist c =>
    obtain ⟨call, node, slot, effect, entry, -, -, -, hEntry, hSlot, persisted, next, rfl, hNext, rfl⟩ :=
      persist_eq_some hStep
    have hDecided : slot ≤ w.log.length := by
      have hLess := (List.getElem?_eq_some_iff.mp hEntry).1
      omega
    have hPersisted : Linear engine (w.setNode call.node { node with applied := slot }) :=
      h.setNode hDecided
    refine hPersisted.afterLookup ?_ c call _
    obtain rfl | rfl := hNext
    · exact hPersisted.setPhase (answers_of_not_error nofun)
    · have hLatched : Linear engine ((w.setNode call.node { node with applied := slot }).setNode
          call.node ⟨slot, true⟩) := hPersisted.setNode hDecided
      refine hLatched.setPhase (answers_of_not_error fun cause error hPhase => ?_)
      cases hPhase
      exact id
  | giveUp c failure =>
    obtain ⟨call, node, fatal, slot, effect, -, hNode, -, rfl⟩ := giveUp_eq_some hStep
    have hLatched : Linear engine (w.setNode call.node { node with fatal }) :=
      h.setNode (h.applied node (List.mem_of_getElem? hNode))
    refine hLatched.setPhase (answers_of_not_error fun cause error hPhase => ?_)
    cases hPhase
    cases failure <;> exact id
  | failPersist c failure =>
    obtain ⟨call, node, slot, effect, -, hNode, -, rfl⟩ := failPersist_eq_some hStep
    have hLatched : Linear engine (w.setNode call.node { node with fatal := true }) :=
      h.setNode (h.applied node (List.mem_of_getElem? hNode))
    refine hLatched.setPhase (answers_of_not_error fun cause error hPhase => ?_)
    cases hPhase
    cases failure <;> exact id
  | decide i =>
    obtain ⟨entry, -, rfl⟩ := decide_eq_some hStep
    refine ⟨fun node hNode => ?_, fun call hCall cause error hPhase hError => ?_⟩
    · have hOld := h.applied node hNode
      rw [List.length_append]
      omega
    · exact (h.answers call hCall cause error hPhase hError).append entry
  | foreign slot receipts effect =>
    cases hStep
    exact ⟨h.applied, h.answers⟩
  | catchUp n =>
    obtain ⟨node, -, hBehind, rfl⟩ := catchUp_eq_some hStep
    exact h.setNode hBehind
  | acknowledge index =>
    obtain rfl := acknowledge_eq_some hStep
    exact ⟨h.applied, h.answers⟩

theorem Linear.initial (engine : Engine D S E) (nodes : Nat) :
    Linear engine (World.initial nodes : World S E) where
  applied node hNode := by
    rw [List.eq_of_mem_replicate hNode]
    exact Nat.zero_le _
  answers _ hCall := by cases hCall

theorem statement_errors_linearizable [DecidableEq S] [DecidableEq E] {engine : Engine D S E}
    {nodes : Nat} (hRun : Run (World.step · engine) (Informed engine) (World.initial nodes) w)
    {c : Nat} {call : Call S E} {cause : Cause} {error : NodeError} (hCall : w.calls[c]? = some call)
    (hAnswer : call.phase = .answered cause (.error error)) (hError : error.IsStatementError) :
    ∃ k, call.ackedBefore ≤ k ∧ k ≤ w.log.length ∧ ∃ message,
      engine.execute (databaseAt engine w.log k) call.statements = .error (.failed message) := by
  have hLinear : Linear engine w := by
    refine Run.invariant (P := Linear engine) (Linear.initial engine nodes) ?_ hRun
    intro s event s' hs hInformed hStep
    exact hs.step hInformed hStep
  exact hLinear.answers call (List.mem_of_getElem? hCall) cause error hAnswer hError

def informs (w : World S E) : Event S E → Bool
  | .prepare c =>
    match w.calls[c]? with
    | none => true
    | some call =>
      match w.nodes[call.node]? with
      | none => true
      | some node => call.ackedBefore ≤ node.applied
  | _ => true

theorem informed_of_informs [DecidableEq S] {engine : Engine D S E} {event : Event S E}
    (h : w.informs event = true) : Informed engine w event := by
  rintro c call node error rfl hCall hNode -
  simpa [informs, hCall, hNode] using h

end World

namespace OneTable

inductive Statement
  | createTable
  | insert
  deriving DecidableEq

abbrev Database := Option Nat

def executeAll : Database → List Statement → Except ExecutionError Database
  | database, [] => .ok database
  | none, .createTable :: rest => executeAll (some 0) rest
  | some _, .createTable :: _ => .error (.failed "table t already exists")
  | none, .insert :: _ => .error (.failed "no such table: t")
  | some rows, .insert :: rest => executeAll (some (rows + 1)) rest

def engine : Engine Database Statement Database where
  empty := none
  execute := executeAll
  install _ effect := effect
  size _ := 4096

/-- Node 0 creates the table and acknowledges it. Node 1, which has not heard of it,
is asked to insert. -/
def lagging : List (Event Statement Database) :=
  [.arrive 0 "create" [1] [.createTable], .check 0, .prepare 0, .decide 0, .persist 0,
    .arrive 1 "insert" [2] [.insert], .check 1, .prepare 1]

def informed : List (Event Statement Database) :=
  [.arrive 0 "create" [1] [.createTable], .check 0, .prepare 0, .decide 0, .persist 0,
    .arrive 1 "create again" [2] [.createTable], .check 1, .catchUp 1, .prepare 1]

def created : Entry Database := ⟨[("create", [1])], some (some 0), some 0⟩

def createCall : Call Statement Database :=
  ⟨0, "create", [1], [.createTable], 0, .answered .receipt (.ok 1)⟩

def insertCall : Call Statement Database :=
  ⟨1, "insert", [2], [.insert], 1,
    .answered .rejected (.error (.invalidSqlStatement 0 "no such table: t"))⟩

def lagged : World Statement Database where
  log := [created]
  proposals := [(1, created)]
  nodes := [⟨1, false⟩, ⟨0, false⟩]
  calls := [createCall, insertCall]
  acked := 1

/-- The insertion is valid on the only state that has the acknowledged table. -/
theorem lagging_node_rejects_valid_statement :
    Run (World.step · engine) (fun _ _ => True) (World.initial 2) lagged ∧
      lagged.calls[1]? = some insertCall ∧
      insertCall.phase =
        .answered .rejected (.error (.invalidSqlStatement 0 "no such table: t")) ∧
      ∀ k, insertCall.ackedBefore ≤ k → k ≤ lagged.log.length →
        engine.execute (databaseAt engine lagged.log k) insertCall.statements = .ok (some 1) := by
  have hEvents : execute (World.step · engine) (World.initial 2) lagging = some lagged := by decide
  refine ⟨Run.of_execute (fun _ _ _ => trivial) hEvents, rfl, rfl, fun k hAcked hk => ?_⟩
  obtain rfl : k = 1 := Nat.le_antisymm hk hAcked
  decide

def createAgainCall : Call Statement Database :=
  ⟨1, "create again", [2], [.createTable], 1,
    .answered .rejected (.error (.invalidSqlStatement 0 "table t already exists"))⟩

def caughtUp : World Statement Database :=
  { lagged with nodes := [⟨1, false⟩, ⟨1, false⟩], calls := [createCall, createAgainCall] }

theorem informed_node_rejects_second_table :
    ∃ k, 1 ≤ k ∧ k ≤ 1 ∧ ∃ message,
      engine.execute (databaseAt engine caughtUp.log k) [.createTable] = .error (.failed message) := by
  have hRun : Run (World.step · engine) (World.Informed engine) (World.initial 2) caughtUp := by
    have hPlay : play (World.step · engine) World.informs (World.initial 2)
        (informed.map fun event _ => some event) = some caughtUp := by decide
    exact Run.of_play (fun s a => World.informed_of_informs) hPlay
  have hCall : caughtUp.calls[1]? = some createAgainCall := rfl
  exact World.statement_errors_linearizable hRun hCall rfl trivial

end OneTable

end Rhiza.Node
