import ViewTree.Arithmetic
import ViewTree.Tasks.Pool

/-!
# Running tasks

Tasks share a state and take turns: one runs until it finishes or waits, then the next.  They run
only while the host waits for something, and when neither the host nor a task can go on the clock
moves to the next time anyone waits for.
-/

namespace ViewTree

/-- How the turn of a task ends. -/
inductive Progress (β ο : Type) where
  | finished (output : ο)
  /-- The task waits for a time; `rest` is left to do. -/
  | waiting (due : Nat) (rest : β)

/-- How tasks run on a shared state. -/
structure Routine (σ β ο : Type) where
  /-- Takes the turn of a task. -/
  run : σ → β → σ × Progress β ο
  /-- Whether whoever waits has to go on at once. -/
  interrupted : σ → Bool
  now : σ → Nat
  setNow : Nat → σ → σ
  /-- How often a task can still wait, at most. -/
  work : β → Nat

/-- Tasks at work: the shared state, the tasks, and what finished tasks have put out and nobody has
taken. -/
structure Schedule (σ β ο : Type) where
  shared : σ
  pool : TaskPool β := {}
  outputs : List ο := []

namespace Schedule

variable {σ β ο φ ρ : Type}

/-- Lets every waiting task run when the shared state says so. -/
def wakeInterrupted (routine : Routine σ β ο) (s : Schedule σ β ο) : Schedule σ β ο :=
  if routine.interrupted s.shared then { s with pool := s.pool.wake fun _ => true } else s

/-- Gives the first ready task its turn. -/
def runOne (routine : Routine σ β ο) (s : Schedule σ β ο) : Schedule σ β ο :=
  match s.pool.ready with
  | [] => s
  | (id, body) :: ready =>
    let (shared, progress) := routine.run s.shared body
    let pool := { s.pool with ready }
    let s : Schedule σ β ο := match progress with
      | .finished output => { shared, pool, outputs := s.outputs ++ [output] }
      | .waiting due rest =>
        { s with shared, pool := { pool with waiting := pool.waiting ++ [⟨id, due, rest⟩] } }
    s.wakeInterrupted routine

/-- Gives ready tasks their turns until none is ready. -/
def runReadyFor (routine : Routine σ β ο) : Nat → Schedule σ β ο → Schedule σ β ο
  | 0, s => s
  | fuel + 1, s => if s.pool.ready.isEmpty then s else runReadyFor routine fuel (s.runOne routine)

/-- Gives every ready task its turn.  An interruption gives each task at most one further turn. -/
def runReady (routine : Routine σ β ο) (s : Schedule σ β ο) : Schedule σ β ο :=
  runReadyFor routine (2 * s.pool.alive) s

/-- Moves the clock to a time, and lets the tasks run that waited for it. -/
def advanceTo (routine : Routine σ β ο) (time : Nat) (s : Schedule σ β ο) : Schedule σ β ο :=
  let time := max time (routine.now s.shared)
  { s with
    shared := routine.setNow time s.shared
    pool := s.pool.wake fun task => task.due ≤ time }

/-- How the turn of the host ends. -/
inductive Turn (φ ρ : Type) where
  | finished (result : ρ)
  /-- The host waits, for a time or for a task to put something out. -/
  | waiting (due : Option Nat) (rest : φ)

/-- The earlier of two times, either of which may be missing. -/
def earlier : Option Nat → Option Nat → Option Nat
  | some a, some b => some (min a b)
  | some a, none => some a
  | none, b => b

/-- Lets the host and the tasks run until the host has its result.  There is none when everyone
waits for something that never comes. -/
def awaitFor (routine : Routine σ β ο) (poll : Schedule σ β ο → φ → Schedule σ β ο × Turn φ ρ) :
    Nat → Schedule σ β ο → φ → Schedule σ β ο × Option ρ
  | 0, s, _ => (s, none)
  | fuel + 1, s, host =>
    match poll s host with
    | (s, .finished result) => (s.wakeInterrupted routine, some result)
    | (s, .waiting due host) =>
      let s := s.wakeInterrupted routine
      if s.pool.ready.isEmpty then
        match earlier due s.pool.earliest with
        | none => (s, none)
        | some time => awaitFor routine poll fuel (s.advanceTo routine time) host
      else awaitFor routine poll fuel (s.runReady routine) host

/-- How often the tasks can still wait, at most, and one for each. -/
def work (routine : Routine σ β ο) (s : Schedule σ β ο) : Nat :=
  total (fun task => routine.work task.2 + 1) s.pool.ready
    + total (fun task => routine.work task.body + 1) s.pool.waiting

/-- Lets the host and the tasks run until the host has its result; `hostWork` is how often the host
can wait.  Between two waits that end there is at most one round of turns. -/
def await (routine : Routine σ β ο) (poll : Schedule σ β ο → φ → Schedule σ β ο × Turn φ ρ)
    (hostWork : Nat) (s : Schedule σ β ο) (host : φ) : Schedule σ β ο × Option ρ :=
  awaitFor routine poll (2 * (s.work routine + hostWork) + 4) s host

/-- Lets the tasks run until a time. -/
def sleepUntil (routine : Routine σ β ο) (time : Nat) (s : Schedule σ β ο) : Schedule σ β ο :=
  let poll (s : Schedule σ β ο) (_ : Unit) : Schedule σ β ο × Turn Unit Unit :=
    (s, if time ≤ routine.now s.shared then .finished () else .waiting (some time) ())
  (s.await routine poll 1 ()).1

/-- Lets the tasks run until none is left that can go on. -/
def drain (routine : Routine σ β ο) (s : Schedule σ β ο) : Schedule σ β ο :=
  let poll (s : Schedule σ β ο) (_ : Unit) : Schedule σ β ο × Turn Unit Unit :=
    (s, .waiting none ())
  (s.await routine poll 0 ()).1

/-- Takes the first output there is. -/
def take (s : Schedule σ β ο) : Schedule σ β ο × Option ο :=
  match s.outputs with
  | [] => (s, none)
  | output :: outputs => ({ s with outputs }, some output)

/-- Lets the tasks run until there is an output, and takes it. -/
def receive (routine : Routine σ β ο) (s : Schedule σ β ο) : Schedule σ β ο × Option ο :=
  let poll (s : Schedule σ β ο) (_ : Unit) : Schedule σ β ο × Turn Unit ο :=
    match s.take with
    | (s, some output) => (s, .finished output)
    | (s, none) => (s, .waiting none ())
  s.await routine poll 0 ()

end Schedule

end ViewTree
