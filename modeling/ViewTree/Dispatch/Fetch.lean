import ViewTree.Arithmetic
import ViewTree.Dispatch.Chain

/-!
# The loads of a mount

Loads run one at a time in order: the call, its transform, and then the action for its success or
failure.  A queue stops at the end of the view, and on request at the first failure; the loads that
are left are reported as skipped.
-/

namespace ViewTree

/-- What became of one load. -/
structure FetchRecord where
  key : String
  status : Status
  /-- The report of the action that followed, if one did. -/
  continuation : Option DispatchReport
deriving DecidableEq, Repr

/-- What became of the loads, in order. -/
abbrev FetchReport := List FetchRecord

namespace FetchReport

/-- The status of the first load of a key. -/
def statusOf (report : FetchReport) (key : String) : Option Status :=
  (report.find? fun record => record.key == key).map FetchRecord.status

/-- Whether every load succeeded. -/
def allSucceeded (report : FetchReport) : Bool :=
  report.all fun record => record.status == .succeeded

end FetchReport

/-- Where a load stands. -/
inductive FetchStage where
  /-- Its call is in flight. -/
  | calling (spec : FetchSpec) (call : Call)
  /-- The action that follows it is under way. -/
  | following (spec : FetchSpec) (status : Status) (chain : Chain)

/-- Loads under way. -/
structure QueueRun where
  /-- Whether the first failure stops the queue. -/
  abort : Bool
  /-- The loads still to come. -/
  pending : List FetchSpec
  /-- The load under way. -/
  current : Option FetchStage := none
  records : FetchReport := []

namespace FetchSpec

/-- The link a load is logged as. -/
def link (spec : FetchSpec) (status : Status) : LinkReport := ⟨.api, some spec.key, status⟩

/-- What the call of a load is meant to do. -/
def callPlan (spec : FetchSpec) : CallPlan :=
  { target := spec.key, params := spec.api.toJson, transform := spec.transform }

/-- The action that follows a load that ended so. -/
def continuation (spec : FetchSpec) : Outcome → Option Action
  | .succeeded => spec.onSuccess
  | .failed => spec.onError
  | .cancelled => none

/-- The steps a load takes at most. -/
def work (spec : FetchSpec) : Nat :=
  3 + max ((spec.onSuccess.map fun a => 3 * a.depth + 1).getD 0)
    ((spec.onError.map fun a => 3 * a.depth + 1).getD 0)

end FetchSpec

namespace QueueRun

/-- Loads to run. -/
def start (specs : List FetchSpec) (abort : Bool) : QueueRun := { abort, pending := specs }

/-- The record of a load that is left out. -/
def leftOut (spec : FetchSpec) : FetchRecord := ⟨spec.key, .skipped, none⟩

/-- Whether a queue stops after a load that ended so. -/
def stopsAfter (world : World) (run : QueueRun) : Status → Bool
  | .failed => run.abort
  | .skipped => world.ended
  | _ => false

/-- Finishes a load. -/
def close (world : World) (run : QueueRun) (record : FetchRecord) : QueueRun :=
  let records := run.records ++ [record]
  if run.stopsAfter world record.status then
    { run with pending := [], current := none, records := records ++ run.pending.map leftOut }
  else { run with current := none, records }

/-- Settles the call of a load, and goes on to the action that follows. -/
def settle (world : World) (run : QueueRun) (spec : FetchSpec) (outcome : Outcome) :
    World × QueueRun :=
  let world := world.record (spec.link outcome.status)
  match spec.continuation outcome with
  | some action =>
    (world, { run with current := some (.following spec outcome.status (.start action none)) })
  | none => (world, run.close world ⟨spec.key, outcome.status, none⟩)

/-- Starts a load. -/
def startFetch (setting : Setting) (world : World) (run : QueueRun) (spec : FetchSpec) :
    World × QueueRun :=
  if world.ended then
    let world := world.record (spec.link .skipped)
    (world, run.close world (leftOut spec))
  else
    match world.startCall setting spec.callPlan with
    | (world, some call) => (world, { run with current := some (.calling spec call) })
    | (world, none) => run.settle world spec .failed

/-- One step of a queue. -/
def step (setting : Setting) (world : World) (run : QueueRun) : World × QueueRun :=
  match run.current with
  | some (.calling spec call) =>
    let (world, outcome) := world.settleCall setting call
    run.settle world spec outcome
  | some (.following spec status chain) =>
    if chain.isDone then (world, run.close world ⟨spec.key, status, some chain.links⟩)
    else
      let (world, chain) := chain.step setting world
      (world, { run with current := some (.following spec status chain) })
  | none =>
    match run.pending with
    | [] => (world, run)
    | spec :: pending => { run with pending }.startFetch setting world spec

/-- When the reply a queue waits for comes. -/
def waitsUntil (world : World) (run : QueueRun) : Option Nat :=
  match run.current with
  | some (.calling _ call) =>
    if world.ended || call.due ≤ world.now then none else some call.due
  | some (.following _ _ chain) => chain.waitsUntil world
  | none => none

/-- Whether all loads have ended. -/
def isDone (run : QueueRun) : Bool :=
  run.current.isNone && run.pending.isEmpty

/-- The most steps a queue can still take. -/
def work (run : QueueRun) : Nat :=
  (match run.current with
    | some (.calling spec _) => spec.work
    | some (.following _ _ chain) => chain.work + 1
    | none => 0)
  + total FetchSpec.work run.pending

end QueueRun

end ViewTree
