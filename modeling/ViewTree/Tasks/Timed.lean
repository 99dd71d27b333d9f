import ViewTree.Tasks.Schedule

/-!
# Tasks that only wait

Tasks that put out a value after a delay: the simplest ones that show what a pool does.
-/

namespace ViewTree

/-- A task that puts out a value when its time has come. -/
inductive TimedTask (ο : Type) where
  /-- Not started; the delay counts from its first turn. -/
  | fresh (delay : Nat) (output : ο)
  | sleeping (due : Nat) (output : ο)

namespace TimedTask

/-- How such tasks run; the shared state is the clock. -/
def routine (ο : Type) : Routine Nat (TimedTask ο) ο where
  run now
    | fresh delay output =>
      (now, if delay = 0 then .finished output
        else .waiting (now + delay) (sleeping (now + delay) output))
    | sleeping due output =>
      (now, if due ≤ now then .finished output else .waiting due (sleeping due output))
  interrupted _ := false
  now clock := clock
  setNow time _ := time
  work _ := 1

end TimedTask

end ViewTree
