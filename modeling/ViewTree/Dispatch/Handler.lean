import ViewTree.Arithmetic
import ViewTree.Dispatch.Chain
import ViewTree.Event

/-!
# Firing a handler

A handler runs the actions of one kind of event in order; each chain ends before the next starts.
-/

namespace ViewTree

/-- The actions attached to one kind of event. -/
structure Handler where
  event : EventKind
  actions : List Action
deriving Repr

/-- A handler under way. -/
structure HandlerRun where
  event : EventKind
  payload : Json
  /-- The actions still to come. -/
  pending : List Action
  /-- The chain under way. -/
  current : Option Chain := none
  /-- The reports of the chains that have ended, in order. -/
  reports : List DispatchReport := []

namespace HandlerRun

/-- A handler given what its event carries. -/
def start (handler : Handler) (payload : Json) : HandlerRun :=
  { event := handler.event, payload, pending := handler.actions }

/-- One step of a handler. -/
def step (setting : Setting) (world : World) (run : HandlerRun) : World × HandlerRun :=
  match run.current with
  | some chain =>
    if chain.isDone then
      (world, { run with current := none, reports := run.reports ++ [chain.links] })
    else
      let (world, chain) := chain.step setting world
      (world, { run with current := some chain })
  | none =>
    match run.pending with
    | [] => (world, run)
    | action :: pending =>
      (world, { run with pending, current := some (.start action (some run.payload)) })

/-- When the reply a handler waits for comes. -/
def waitsUntil (world : World) (run : HandlerRun) : Option Nat :=
  run.current.bind (Chain.waitsUntil world)

/-- Whether all chains of a handler have ended. -/
def isDone (run : HandlerRun) : Bool :=
  run.current.isNone && run.pending.isEmpty

/-- The most steps a handler can still take. -/
def work (run : HandlerRun) : Nat :=
  ((run.current.map fun chain => chain.work + 1).getD 0)
    + total (fun action => 3 * action.depth + 2) run.pending

end HandlerRun

end ViewTree
