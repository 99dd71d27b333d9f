import ViewTree.Text.Order

/-!
# Keyed tasks

A pool holds tasks under keys.  A key has at most one unfinished task: spawning under a key stops
the task that was there.  A finished task stays registered until the pool is pruned.
-/

namespace ViewTree

/-- A task that waits for a time. -/
structure Sleeper (β : Type) where
  id : Nat
  due : Nat
  body : β

/-- Tasks under keys.  `β` is what is left to do of a task. -/
structure TaskPool (β : Type) where
  /-- The tasks under their keys, finished ones included. -/
  registered : List (String × Nat) := []
  /-- The unfinished tasks that can run, in the order they will. -/
  ready : List (Nat × β) := []
  /-- The unfinished tasks that wait, in the order they began to. -/
  waiting : List (Sleeper β) := []
  /-- The number the next task gets. -/
  next : Nat := 0

namespace TaskPool

variable {β : Type}

/-- The pool without tasks. -/
def empty : TaskPool β := {}

/-- Whether a task is unfinished. -/
def isAlive (pool : TaskPool β) (id : Nat) : Bool :=
  pool.ready.any (fun task => task.1 == id) || pool.waiting.any fun task => task.id == id

/-- Stops a task where it is. -/
def abort (pool : TaskPool β) (id : Nat) : TaskPool β :=
  { pool with
    ready := pool.ready.filter fun task => task.1 != id
    waiting := pool.waiting.filter fun task => task.id != id }

/-- Stops and forgets the task under a key. -/
def cancel (pool : TaskPool β) (key : String) : TaskPool β :=
  match pool.registered.lookup key with
  | none => pool
  | some id =>
    { pool.abort id with registered := pool.registered.filter fun entry => entry.1 != key }

/-- Stops and forgets every registered task. -/
def cancelAll (pool : TaskPool β) : TaskPool β :=
  { pool.registered.foldl (fun pool entry => pool.abort entry.2) pool with registered := [] }

/-- Forgets the tasks that have finished. -/
def prune (pool : TaskPool β) : TaskPool β :=
  { pool with registered := pool.registered.filter fun entry => pool.isAlive entry.2 }

/-- Starts a task under a key, in place of the one that was there. -/
def spawn (pool : TaskPool β) (key : String) (body : β) : TaskPool β :=
  let pool := (pool.cancel key).prune
  { pool with
    registered := pool.registered ++ [(key, pool.next)]
    ready := pool.ready ++ [(pool.next, body)]
    next := pool.next + 1 }

/-- Whether the task under a key is unfinished. -/
def isRunning (pool : TaskPool β) (key : String) : Bool :=
  (pool.registered.lookup key).any pool.isAlive

/-- The number of registered tasks. -/
def size (pool : TaskPool β) : Nat := pool.registered.length

/-- The keys of the unfinished tasks, in order. -/
def runningKeys (pool : TaskPool β) : List String :=
  Text.sortNames ((pool.registered.filter fun entry => pool.isAlive entry.2).map Prod.fst)

/-- The number of unfinished tasks. -/
def alive (pool : TaskPool β) : Nat := pool.ready.length + pool.waiting.length

/-- Lets the waiting tasks run that `wakes` picks. -/
def wake (pool : TaskPool β) (wakes : Sleeper β → Bool) : TaskPool β :=
  let (woken, asleep) := pool.waiting.partition wakes
  { pool with
    ready := pool.ready ++ woken.map fun task => (task.id, task.body)
    waiting := asleep }

/-- The earliest time a waiting task waits for. -/
def earliest (pool : TaskPool β) : Option Nat :=
  (pool.waiting.map Sleeper.due).min?

end TaskPool

end ViewTree
