import Rhiza.Archive.Collection
import Rhiza.Library.Run

/-! # Executing a collection plan

Any number of calls execute one plan, each on its own clock. Every step below is at most
one operation of the object store, or one swap of the control object that wins; a swap that
is lost has no effect and is tried again. A call may stop at every step.
-/

namespace Rhiza.Archive

open Core Library

abbrev CheckpointKey := CheckpointIdentity × ObjectKey

def GcCandidate.checkpointKey (candidate : GcCandidate) : CheckpointKey :=
  (candidate.generation, candidate.metadata.key)

namespace Execution

structure Plan extends GcPlan where
  catalogSha256 : LogHash
  rootManifestSha256 : LogHash
  planHash : LogHash

inductive ExecutionError
  | gcBarrierBusy (untilMs : Nat)
  | gcBarrierActive (operationId : String)
  | gcPlanStale (message : String)
  | invalidGc (message : String)
  | gcPlanHashMismatch (expected actual : LogHash)
  | precondition (key : CheckpointKey)
  | interrupted (message : String)
  deriving DecidableEq

abbrev Outcome (α : Type) := Except ExecutionError α

/-- `hash_generation_catalog`: the digest of the catalog's JSON. -/
class CatalogHash where
  hash : List GenerationCatalogEntry → LogHash

def executionFence (plan : Plan) : Nat := min (plan.fence + 1) (u64Bound - 1)

def catalogMatchesRetiredPlan (catalog : List GenerationCatalogEntry) (plan : Plan) : Bool :=
  catalog.length = plan.observedCatalog.length && plan.observedCatalog.all fun observed =>
    match catalog.find? (·.identity = observed.identity) with
    | none => false
    | some current =>
      current.registeredAtMs = observed.registeredAtMs &&
        if observed.identity ∈ plan.sweptGenerations then
          match current.lifecycle with
          | .retired planHash _ => planHash = plan.planHash
          | .active => false
        else current.lifecycle = observed.lifecycle

end Execution

namespace GcControl

open Execution

/-- An attempt of `acquire_gc_barrier`. -/
def acquireGcBarrier [CatalogHash] (control : GcControl) (plan : Plan) (nowMs : Nat) :
    Outcome GcControl :=
  let expired := control.expireGcState nowMs
  match expired.activeGc with
  | some active => do
    ensure (active.planHash = plan.planHash ∧ active.root = plan.root ∧
      active.fence = executionFence plan) (.gcBarrierActive active.operationId)
    .ok control
  | none => do
    ensure (expired.root = some plan.root ∧
        (expired.fence = plan.fence ∧ CatalogHash.hash expired.generations = plan.catalogSha256 ∨
          expired.fence = executionFence plan ∧ catalogMatchesRetiredPlan expired.generations plan))
      (.gcPlanStale "catalog, root, or fence changed after planning")
    .ok
      { expired with
        fence := executionFence plan
        activeGc := some
          { operationId := plan.operationId, planHash := plan.planHash, fence := executionFence plan
            root := plan.root, expiresAtMs := min (nowMs + 60000) (u64Bound - 1)
            phase := .draining } }

def checkBarrier (control : GcControl) (plan : Plan) (nowMs : Nat) : Outcome ActiveGc :=
  match control.activeGc with
  | none => .error (.gcPlanStale "GC barrier is no longer active")
  | some active => do
    ensure (active.operationId = plan.operationId ∧ active.planHash = plan.planHash ∧
      active.fence = executionFence plan ∧ active.root = plan.root ∧
      control.root = some plan.root ∧ nowMs < active.expiresAtMs)
      (.gcPlanStale "root or fence changed")
    .ok active

def checkLeases (control : GcControl) (nowMs : Nat) : Outcome Unit :=
  match ((control.leases.filter fun lease => nowMs < lease.expiresAtMs).map (·.expiresAtMs)).max? with
  | some untilMs => .error (.gcBarrierBusy untilMs)
  | none => .ok ()

def enterDeletePhase (control : GcControl) (plan : Plan) (nowMs : Nat) : Outcome GcControl := do
  let active ← control.checkBarrier plan nowMs
  if active.phase = .deleting then .ok control
  else do
    control.checkLeases nowMs
    .ok { control with activeGc := some { active with phase := .deleting } }

def validateGcFence (control : GcControl) (plan : Plan) (nowMs : Nat) : Outcome Unit := do
  let active ← control.checkBarrier plan nowMs
  ensure (active.phase = .deleting) (.gcPlanStale "root or fence changed")
  control.checkLeases nowMs

def retireGeneration (plan : Plan) (nowMs : Nat) (identity : CheckpointIdentity) :
    List GenerationCatalogEntry → Outcome (List GenerationCatalogEntry)
  | [] => .error (.gcPlanStale "planned generation disappeared from the catalog")
  | entry :: rest =>
    if entry.identity = identity then
      match entry.lifecycle with
      | .active => .ok ({ entry with lifecycle := .retired plan.planHash nowMs } :: rest)
      | .retired planHash _ =>
        if planHash = plan.planHash then .ok (entry :: rest)
        else .error (.gcPlanStale "generation was retired by another plan")
    else do
      let rest ← retireGeneration plan nowMs identity rest
      .ok (entry :: rest)

def retirePlanGenerations (control : GcControl) (plan : Plan) (nowMs : Nat) :
    Outcome GcControl :=
  match control.activeGc with
  | none => .error (.gcPlanStale "GC barrier is no longer active")
  | some active => do
    ensure (active.planHash = plan.planHash ∧ active.fence = executionFence plan ∧
      active.phase = .deleting) (.gcPlanStale "execution fence changed before retirement")
    let generations ← plan.sweptGenerations.foldlM
      (fun generations identity => retireGeneration plan nowMs identity generations)
      control.generations
    .ok { control with generations }

def clearGcBarrier (control : GcControl) (plan : Plan) : Outcome GcControl :=
  match control.activeGc with
  | none => .ok control
  | some active => do
    ensure (active.operationId = plan.operationId ∧ active.planHash = plan.planHash ∧
      active.fence = executionFence plan) (.gcPlanStale "GC barrier changed before completion")
    .ok
      { control with
        activeGc := none
        leases := control.leases.filter fun lease => plan.createdAtMs < lease.expiresAtMs }

end GcControl

namespace Execution

/-- What the other writers of the control object do: lease holders, operators and the
executions of other plans move everything but the catalog, a generation is registered, and
another plan retires active generations. -/
inductive ChangedByOthers : GcControl → GcControl → Prop
  | moved (control : GcControl) (fence : Nat) (root : Option CheckpointIdentity)
      (leases : List GcLease) (activeGc : Option ActiveGc) :
      ChangedByOthers control { control with fence, root, leases, activeGc }
  | registered (control : GcControl) (identity : CheckpointIdentity) (registeredAtMs : Nat) :
      ChangedByOthers control
        { control with
          generations := (control.generations ++
              [(⟨identity, registeredAtMs, .active⟩ : GenerationCatalogEntry)]).insertionSort
            fun a b => ¬ KeyBefore (registrationKey b) (registrationKey a) }
  | retired (control : GcControl) (swept : List CheckpointIdentity) (planHash : LogHash)
      (nowMs : Nat) :
      ChangedByOthers control
        { control with generations := control.generations.map fun entry =>
            if entry.identity ∈ swept ∧ entry.lifecycle = .active then
              { entry with lifecycle := .retired planHash nowMs }
            else entry }

inductive GcDeleteOutcome
  | deleted
  | alreadyMissing
  deriving DecidableEq

structure GcEvidence where
  planHash : LogHash
  key : CheckpointKey
  version : Nat
  outcome : GcDeleteOutcome
  observedAtMs : Nat
  deriving DecidableEq

structure GcExecutionReport where
  planHash : LogHash
  fence : Nat
  completedAtMs : Nat
  results : List GcEvidence
  deriving DecidableEq

/-- Where a call of `execute_gc` stands; each of these waits for one operation. -/
inductive Phase
  | loadingReport
  | acquiring
  | entering
  /-- `fence_gc_root` reads the manifest of the root, and then writes it again. -/
  | fencing
  | rewriting
  | retiring
  /-- The loop over the candidates, with the evidence so far. -/
  | validating (results : List GcEvidence)
  | loadingEvidence (results : List GcEvidence)
  /-- `delete_exact` reads the version, and then deletes. -/
  | checking (results : List GcEvidence)
  | deleting (results : List GcEvidence)
  | recording (results : List GcEvidence) (evidence : GcEvidence)
  | readingEvidence (results : List GcEvidence)
  | reporting (results : List GcEvidence)
  | readingReport
  | clearing (report : GcExecutionReport)
  /-- `gc_report_after_stale` -/
  | stale (message : String)
  | finished (result : Outcome GcExecutionReport)
  deriving DecidableEq

structure Call where
  nowMs : Nat
  phase : Phase
  deriving DecidableEq

/-- What the executions of a plan share. `rootManifest` is the digest of the root's manifest,
and `objects` has the versions of the objects. `remade` marks what was created where nothing
was, and was not deleted since; no step reads it. -/
structure World where
  control : GcControl
  rootManifest : LogHash
  objects : CheckpointKey → Option Nat
  remade : CheckpointKey → Bool
  evidence : CheckpointKey → Option GcEvidence
  report : Option GcExecutionReport
  calls : List Call

inductive Event
  | execute (nowMs : Nat)
  /-- `acknowledged` is what the store says to the deletion of an object that is gone. -/
  | advance (position : Nat) (acknowledged : Bool)
  /-- An operation fails, or the call stops. -/
  | interrupt (position : Nat) (message : String)
  /-- Another writer swaps the control object. -/
  | control (next : GcControl)
  | publish (rootManifest : LogHash)
  /-- Someone else deletes an object. -/
  | delete (key : CheckpointKey)
  /-- A publisher creates an object, which it cannot where there is one. -/
  | create (key : CheckpointKey) (version : Nat)

namespace World

def remove (w : World) (key : CheckpointKey) : World :=
  { w with
    objects := Function.update w.objects key none
    remade := Function.update w.remade key false }

def create (w : World) (key : CheckpointKey) (version : Nat) : World :=
  { w with
    objects := Function.update w.objects key (some version)
    remade := Function.update w.remade key true }

def setPhase (w : World) (position : Nat) (call : Call) (phase : Phase) : World :=
  { w with calls := w.calls.set position { call with phase } }

def refuse (w : World) (position : Nat) (call : Call) : ExecutionError → World
  | .gcPlanStale message => w.setPhase position call (.stale message)
  | error => w.setPhase position call (.finished (.error error))

def swap (w : World) (position : Nat) (call : Call) (next : Phase) : Outcome GcControl → World
  | .error error => w.refuse position call error
  | .ok control => { w.setPhase position call next with control }

def nextCandidate (plan : Plan) (results : List GcEvidence) : Phase :=
  if results.length < plan.candidates.length then .validating results else .reporting results

def loadGcEvidence (w : World) (plan : Plan) (candidate : GcCandidate) :
    Outcome (Option GcEvidence) :=
  match w.evidence candidate.checkpointKey with
  | none => .ok none
  | some evidence => do
    ensure (evidence.planHash = plan.planHash ∧ evidence.key = candidate.checkpointKey ∧
        evidence.version = candidate.metadata.version)
      (.invalidGc "stored deletion evidence does not match the plan")
    .ok (some evidence)

def evidenceFor (plan : Plan) (call : Call) (candidate : GcCandidate) (outcome : GcDeleteOutcome) :
    GcEvidence :=
  ⟨plan.planHash, candidate.checkpointKey, candidate.metadata.version, outcome, call.nowMs⟩

def atCandidate (w : World) (plan : Plan) (position : Nat) (acknowledged : Bool) (call : Call)
    (results : List GcEvidence) (candidate : GcCandidate) : World :=
  let key := candidate.checkpointKey
  match call.phase with
  | .loadingEvidence _ =>
    match w.loadGcEvidence plan candidate with
    | .error error => w.setPhase position call (.finished (.error error))
    | .ok (some evidence) => w.setPhase position call (nextCandidate plan (results ++ [evidence]))
    | .ok none => w.setPhase position call (.checking results)
  | .checking _ =>
    match w.objects key with
    | none => w.setPhase position call
        (.recording results (evidenceFor plan call candidate .alreadyMissing))
    | some version =>
      if version = candidate.metadata.version then w.setPhase position call (.deleting results)
      else w.setPhase position call (.finished (.error (.precondition key)))
  | .deleting _ =>
    let outcome := if (w.objects key).isSome || acknowledged then .deleted else .alreadyMissing
    (w.remove key).setPhase position call
      (.recording results (evidenceFor plan call candidate outcome))
  | .recording _ evidence =>
    match w.evidence key with
    | none =>
      { w.setPhase position call (nextCandidate plan (results ++ [evidence])) with
        evidence := Function.update w.evidence key (some evidence) }
    | some _ => w.setPhase position call (.readingEvidence results)
  | .readingEvidence _ =>
    match w.loadGcEvidence plan candidate with
    | .error error => w.setPhase position call (.finished (.error error))
    | .ok (some evidence) => w.setPhase position call (nextCandidate plan (results ++ [evidence]))
    | .ok none => w.setPhase position call
        (.finished (.error (.invalidGc "deletion evidence disappeared")))
  | _ => w

def loadGcReport (w : World) (plan : Plan) : Outcome (Option GcExecutionReport) :=
  match w.report with
  | none => .ok none
  | some report => do
    ensure (report.planHash = plan.planHash) (.gcPlanHashMismatch plan.planHash report.planHash)
    .ok (some report)

def reportOf (plan : Plan) (call : Call) (results : List GcEvidence) : GcExecutionReport :=
  ⟨plan.planHash, executionFence plan, call.nowMs, results⟩

/-- A step that reads the report: the call goes on with it, or else in its own way. -/
def withReport (w : World) (plan : Plan) (position : Nat) (call : Call)
    (found : GcExecutionReport → Phase) (missing : Phase) : World :=
  match w.loadGcReport plan with
  | .error error => w.setPhase position call (.finished (.error error))
  | .ok (some report) => w.setPhase position call (found report)
  | .ok none => w.setPhase position call missing

def advance [CatalogHash] (w : World) (plan : Plan) (position : Nat) (acknowledged : Bool)
    (call : Call) : Option World :=
  match call.phase with
  | .loadingReport =>
    some (w.withReport plan position call (fun report => .finished (.ok report))
      (if call.nowMs < plan.notBeforeMs then
        .finished (.error (.gcBarrierBusy plan.notBeforeMs)) else .acquiring))
  | .acquiring =>
    some (w.swap position call .entering (w.control.acquireGcBarrier plan call.nowMs))
  | .entering =>
    some (w.swap position call .fencing (w.control.enterDeletePhase plan call.nowMs))
  | .fencing =>
    if w.rootManifest = plan.rootManifestSha256 then some (w.setPhase position call .rewriting)
    else some (w.setPhase position call (.stale "root checkpoint manifest changed"))
  | .rewriting =>
    -- a lost swap is no harm if the manifest that won has the same bytes
    if w.rootManifest = plan.rootManifestSha256 then some (w.setPhase position call .retiring)
    else some (w.setPhase position call (.stale "root checkpoint manifest changed"))
  | .retiring =>
    some (w.swap position call (nextCandidate plan [])
      (w.control.retirePlanGenerations plan call.nowMs))
  | .validating results =>
    match w.control.validateGcFence plan call.nowMs with
    | .error error => some (w.refuse position call error)
    | .ok () => some (w.setPhase position call (.loadingEvidence results))
  | .loadingEvidence results | .checking results | .deleting results | .recording results _
  | .readingEvidence results =>
    (plan.candidates[results.length]?).map (w.atCandidate plan position acknowledged call results)
  | .reporting results =>
    match w.report with
    | none =>
      some { w.setPhase position call (.clearing (reportOf plan call results)) with
        report := some (reportOf plan call results) }
    | some _ => some (w.setPhase position call .readingReport)
  | .readingReport =>
    some (w.withReport plan position call .clearing
      (.finished (.error (.invalidGc "execution report disappeared"))))
  | .clearing report =>
    match w.control.clearGcBarrier plan with
    | .error error => some (w.setPhase position call (.finished (.error error)))
    | .ok control => some { w.setPhase position call (.finished (.ok report)) with control }
  | .stale message =>
    some (w.withReport plan position call (fun report => .finished (.ok report))
      (.finished (.error (.gcPlanStale message))))
  | .finished _ => none

def stop (w : World) (position : Nat) (message : String) (call : Call) : Option World :=
  match call.phase with
  | .finished _ => none
  | _ => some (w.setPhase position call (.finished (.error (.interrupted message))))

def step [CatalogHash] (plan : Plan) (w : World) : Event → Option World
  | .execute nowMs => some { w with calls := w.calls ++ [⟨nowMs, .loadingReport⟩] }
  | .advance position acknowledged =>
    (w.calls[position]?).bind (w.advance plan position acknowledged)
  | .interrupt position message => (w.calls[position]?).bind (w.stop position message)
  | .control next => some { w with control := next }
  | .publish rootManifest => some { w with rootManifest }
  | .delete key => some (w.remove key)
  | .create key version => if (w.objects key).isSome then some w else some (w.create key version)

def Allowed (w : World) : Event → Prop
  | .control next => ChangedByOthers w.control next
  | _ => True

end World

end Execution

end Rhiza.Archive
