import ViewTree.Dispatch.Job
import ViewTree.Render.Render
import ViewTree.Tasks.Schedule

/-!
# Views

A view is a configuration bound to a state of its own.  The host renders it, hands it the events of
the user and waits for its work.  Work in the background goes on only while the host waits.
-/

namespace ViewTree

/-- What a piece of work comes to. -/
inductive Completion where
  /-- The loads of the mount have ended. -/
  | mounted (report : FetchReport)
  /-- All actions of a handler have ended. -/
  | fired (event : EventKind) (reports : List DispatchReport)
  /-- A single dispatch has ended; only the host starts these. -/
  | dispatched (report : DispatchReport)
deriving Repr

namespace Job

/-- What a job at its end comes to. -/
def completion : Job → Completion
  | chain run => .dispatched run.links
  | handler run => .fired run.event run.reports
  | queue run => .mounted run.records

/-- How jobs run on the world of a view; the end of the view interrupts every wait. -/
def routine (setting : Setting) : Routine World Job Completion where
  run world job :=
    let (world, job) := job.run setting world
    match job.waitsUntil world with
    | some due => (world, .waiting due job)
    | none => (world, .finished job.completion)
  interrupted world := world.ended
  now world := world.now
  setNow time world := { world with now := time }
  work := work

end Job

/-- The jobs of a view and the world they work on. -/
abbrev Workshop := Schedule World Job Completion

namespace Workshop

/-- Lets the host take a job to its end, the background going on meanwhile. -/
def runJob (setting : Setting) (shop : Workshop) (job : Job) : Workshop × Option Completion :=
  let poll (shop : Workshop) (job : Job) : Workshop × Schedule.Turn Job Completion :=
    match (Job.routine setting).run shop.shared job with
    | (world, .finished result) => ({ shop with shared := world }, .finished result)
    | (world, .waiting due job) => ({ shop with shared := world }, .waiting (some due) job)
  shop.await (Job.routine setting) poll job.work job

end Workshop

/-- A configuration with its state and its work. -/
structure View where
  root : Node
  components : Components
  setting : Setting
  shop : Workshop
  /-- Whether the loads of the mount have been started. -/
  mounted : Bool := false
  /-- How many handlers have been fired in the background. -/
  fired : Nat := 0

namespace View

/-- A view of a configuration over a transport. -/
def create (root : Node) (components : Components) (setting : Setting) (transport : Script) :
    View :=
  { root, components, setting
    shop := { shared := { transport, log := .empty setting.options.log } } }

/-- What the actions of a view act on. -/
def world (view : View) : World := view.shop.shared

/-- The state of a view. -/
def store (view : View) : Store := view.world.store

/-- Whether a view has ended. -/
def isEnded (view : View) : Bool := view.world.ended

/-- Writes a value to the state on behalf of the host. -/
def set (view : View) (path : String) (value : Json) : View :=
  { view with shop := { view.shop with shared := view.world.set path value } }

/-- The elements of a view in its current state. -/
def render (view : View) : List Element :=
  renderRoot
    { state := view.store.fields, components := view.components,
      transforms := view.setting.transforms, maxDepth := view.setting.options.maxDepth }
    view.root

/-- The loads of a mount. -/
def mountJob (view : View) : Job :=
  .queue (.start view.root.fetches view.setting.options.abortFetches)

/-- Whether a mount may still start. -/
def canMount (view : View) : Bool := !view.mounted && !view.isEnded

/-- Takes a job to its end while the host waits. -/
def runJob (view : View) (job : Job) : View × Option Completion :=
  let (shop, result) := view.shop.runJob view.setting job
  ({ view with shop }, result)

/-- Runs the loads of the root and waits for them; they run once in the life of a view. -/
def mount (view : View) : View × Option FetchReport :=
  if view.canMount then
    match { view with mounted := true }.runJob view.mountJob with
    | (view, some (.mounted report)) => (view, some report)
    | (view, _) => (view, none)
  else (view, none)

/-- Starts a job in the background. -/
def spawn (view : View) (key : String) (job : Job) : View :=
  { view with shop := { view.shop with pool := view.shop.pool.spawn key job } }

/-- Starts the loads of the root in the background, and says whether it did. -/
def spawnMount (view : View) : View × Bool :=
  if view.canMount then ({ view with mounted := true }.spawn "mount" view.mountJob, true)
  else (view, false)

/-- Fires a handler in the background; once the view has ended nothing happens. -/
def fire (view : View) (handler : Handler) (event : UiEvent) : View :=
  if view.isEnded then view
  else
    let fired := view.fired + 1
    { view with fired }.spawn ("event-" ++ toString fired) (.handler (.start handler event.payload))

/-- Fires a handler and waits for it. -/
def fireAndWait (view : View) (handler : Handler) (payload : Json) : View × List DispatchReport :=
  match view.runJob (.handler (.start handler payload)) with
  | (view, some (.fired _ reports)) => (view, reports)
  | (view, _) => (view, [])

/-- Dispatches an action and waits for it. -/
def dispatch (view : View) (action : Action) (event : Option Json) : View × DispatchReport :=
  match view.runJob (.chain (.start action event)) with
  | (view, some (.dispatched report)) => (view, report)
  | (view, _) => (view, [])

/-- Runs loads and waits for them. -/
def runFetches (view : View) (specs : List FetchSpec) (abort : Bool) : View × FetchReport :=
  match view.runJob (.queue (.start specs abort)) with
  | (view, some (.mounted report)) => (view, report)
  | (view, _) => (view, [])

/-- Waits for a time, in milliseconds. -/
def sleep (view : View) (millis : Nat) : View :=
  { view with
    shop := view.shop.sleepUntil (Job.routine view.setting) (view.world.now + millis) }

/-- Waits until the background has nothing left to do. -/
def settle (view : View) : View :=
  { view with shop := view.shop.drain (Job.routine view.setting) }

/-- The next completion there already is. -/
def tryCompletion (view : View) : View × Option Completion :=
  let (shop, completion) := view.shop.take
  ({ view with shop }, completion)

/-- Waits for the next completion; there is none when nothing is left to complete. -/
def nextCompletion (view : View) : View × Option Completion :=
  let (shop, completion) := view.shop.receive (Job.routine view.setting)
  ({ view with shop }, completion)

/-- Ends a view; its background work stops where it is. -/
def unmount (view : View) : View :=
  { view with
    shop := { view.shop with shared := view.world.finish, pool := view.shop.pool.cancelAll } }

end View

end ViewTree
