import ViewTree.Config.Build
import ViewTree.Dispatch.Call

/-!
# Running a chain of actions

A dispatch runs one action after another: a call names the action that follows its success and the
one that follows its failure.  `Chain.step` takes a chain one step further.  A step either starts an
action, which settles at once unless it sends a request, or settles a call; between any two steps
other work may run.
-/

namespace ViewTree

/-- Where a chain stands. -/
inductive Stage where
  /-- Before an action. -/
  | ready (action : Action)
  /-- At an action whose call is in flight. -/
  | calling (action : Action) (call : Call)
  /-- At its end. -/
  | done

/-- A dispatch under way. -/
structure Chain where
  /-- The event the templates may refer to. -/
  event : Option Json
  stage : Stage
  /-- The links that have settled, in order. -/
  links : DispatchReport

namespace Chain

/-- A dispatch of an action. -/
def start (action : Action) (event : Option Json) : Chain :=
  ⟨event, .ready action, []⟩

/-- Settles the action a chain stands at, and goes on to the next one. -/
def settle (world : World) (chain : Chain) (action : Action) (status : Status)
    (next : Option Action) : World × Chain :=
  let link := LinkReport.ofAction action status
  (world.record link,
    { chain with
      stage := (next.map Stage.ready).getD .done
      links := chain.links ++ [link] })

end Chain

namespace Action

/-- The action that follows a call that ended so. -/
def continuation (action : Action) : Outcome → Option Action
  | .succeeded => action.onSuccess
  | .failed => action.onError
  | .cancelled => none

/-- The state key a submission sends: its params if they are a text, else its target. -/
def submitSource (action : Action) (target : String) : String :=
  (action.params.bind Json.text?).getD target

/-- The call a submission stands for: it posts what the state holds, and has the continuations of
the submission. -/
def submitCall (action : Action) (target : String) (body : Option Json) : Action :=
  { Action.api target { url := target, method := .post, body } with
    onSuccess := action.onSuccess
    onError := action.onError }

/-- The location a navigation goes to, as a template. -/
def location? (action : Action) : Option String :=
  match action.params with
  | some (.text location) => some location
  | _ => action.target

/-- What a call of an action is meant to do. -/
def callPlan (action : Action) (target : String) (event : Option Json) : CallPlan :=
  { target, params := action.params.getD .null, event }

/-- How deep the continuations of an action are nested, itself included. -/
def depth : Action → Nat
  | ⟨_, _, _, none, none⟩ => 1
  | ⟨_, _, _, some a, none⟩ => depth a + 1
  | ⟨_, _, _, none, some b⟩ => depth b + 1
  | ⟨_, _, _, some a, some b⟩ => max (depth a) (depth b) + 1

end Action

namespace Chain

/-- Writes the params of an action, templates filled in, to its target. -/
def runSetState (world : World) (chain : Chain) (action : Action) : World × Chain :=
  match action.target with
  | none => chain.settle world action .failed none
  | some target =>
    let value := (world.scope chain.event).expandIn (action.params.getD .null)
    chain.settle (world.set target value) action .succeeded none

/-- Starts the call of an action. -/
def runApi (setting : Setting) (world : World) (chain : Chain) (action : Action) : World × Chain :=
  match action.target with
  | none => chain.settle world action .failed (action.continuation .failed)
  | some target =>
    match world.startCall setting (action.callPlan target chain.event) with
    | (world, some call) => (world, { chain with stage := .calling action call })
    | (world, none) => chain.settle world action .failed (action.continuation .failed)

/-- Turns a submission into a call. -/
def runSubmit (world : World) (chain : Chain) (action : Action) : World × Chain :=
  match action.target with
  | none => chain.settle world action .failed none
  | some target =>
    let body := world.store.get? (action.submitSource target)
    chain.settle world action .succeeded (some (action.submitCall target body))

/-- Goes to a location and ends the view. -/
def runNavigate (world : World) (chain : Chain) (action : Action) : World × Chain :=
  match action.location? with
  | none => chain.settle world action .failed none
  | some location =>
    let place := (world.scope chain.event).expand location
    chain.settle ({ world with visits := world.visits ++ [place] }).finish action .navigated none

/-- Starts an action of a view that has not ended. -/
def runAction (setting : Setting) (world : World) (chain : Chain) (action : Action) :
    World × Chain :=
  match action.kind with
  | .setState => chain.runSetState world action
  | .api => chain.runApi setting world action
  | .submit => chain.runSubmit world action
  | .navigate => chain.runNavigate world action
  | .unknown _ => chain.settle world action .skipped none

/-- One step of a chain.  A call in flight settles; whether its reply has come is not asked here. -/
def step (setting : Setting) (world : World) (chain : Chain) : World × Chain :=
  match chain.stage with
  | .ready action =>
    if world.ended then chain.settle world action .skipped none
    else chain.runAction setting world action
  | .calling action call =>
    let (world, outcome) := world.settleCall setting call
    chain.settle world action outcome.status (action.continuation outcome)
  | .done => (world, chain)

/-- When the reply a chain waits for comes; none when the chain can go on. -/
def waitsUntil (world : World) (chain : Chain) : Option Nat :=
  match chain.stage with
  | .calling _ call => if world.ended || call.due ≤ world.now then none else some call.due
  | _ => none

/-- Whether a chain is at its end. -/
def isDone (chain : Chain) : Bool :=
  match chain.stage with
  | .done => true
  | _ => false

/-- The most steps a chain can still take: three for each level of nesting. -/
def work (chain : Chain) : Nat :=
  match chain.stage with
  | .ready action => 3 * action.depth
  | .calling action _ => 3 * action.depth
  | .done => 0

end Chain

end ViewTree
