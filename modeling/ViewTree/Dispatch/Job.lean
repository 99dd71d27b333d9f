import ViewTree.Dispatch.Fetch
import ViewTree.Dispatch.Handler

/-!
# Jobs

The pieces of work a view can have under way: a dispatch, a handler or the loads of a mount.  A job
runs until it ends or waits for a reply.
-/

namespace ViewTree

/-- A piece of work under way. -/
inductive Job where
  | chain (run : Chain)
  | handler (run : HandlerRun)
  | queue (run : QueueRun)

namespace Job

/-- One step of a job. -/
def step (setting : Setting) (world : World) : Job → World × Job
  | chain run =>
    let (world, run) := run.step setting world
    (world, chain run)
  | handler run =>
    let (world, run) := run.step setting world
    (world, handler run)
  | queue run =>
    let (world, run) := run.step setting world
    (world, queue run)

/-- When the reply a job waits for comes; none when the job can go on. -/
def waitsUntil (world : World) : Job → Option Nat
  | chain run => run.waitsUntil world
  | handler run => run.waitsUntil world
  | queue run => run.waitsUntil world

/-- Whether a job is at its end. -/
def isDone : Job → Bool
  | chain run => run.isDone
  | handler run => run.isDone
  | queue run => run.isDone

/-- The most steps a job can still take. -/
def work : Job → Nat
  | chain run => run.work
  | handler run => run.work
  | queue run => run.work

/-- Runs a job until it ends, waits for a reply or has taken as many steps as there is fuel. -/
def runFor (setting : Setting) : Nat → World → Job → World × Job
  | 0, world, job => (world, job)
  | fuel + 1, world, job =>
    if job.isDone || (job.waitsUntil world).isSome then (world, job)
    else
      let (world, job) := job.step setting world
      runFor setting fuel world job

/-- Runs a job until it ends or waits for a reply. -/
def run (setting : Setting) (world : World) (job : Job) : World × Job :=
  runFor setting job.work world job

end Job

end ViewTree
