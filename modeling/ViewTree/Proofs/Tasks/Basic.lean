import Mathlib.Data.List.Perm.Subperm
import ViewTree.Tasks.Schedule

/-!
# Tasks and turns

What the operations of a pool and the turns of a schedule do, for tasks of any kind.  Waking tasks
and letting them wait only moves them (`TaskPool.Swap`), and what holds while a host waits follows
from what each turn, each wake and each advance of the clock keeps (`Schedule.awaitFor_keeps`).
Stopping every registered task leaves none where all tasks are registered
(`TaskPool.Listed.tasks_cancelAll`).
-/

namespace ViewTree

namespace TaskPool

variable {β : Type}

/-- The unfinished tasks. -/
def tasks (pool : TaskPool β) : List (Nat × β) :=
  pool.ready ++ pool.waiting.map fun task => (task.id, task.body)

/-- A pool some of whose unfinished tasks have given way to others; which of its tasks wait, and in
which order they stand, is left open. -/
structure Swap (before after : TaskPool β) (removed added : List (Nat × β)) : Prop where
  registered : after.registered = before.registered
  next : after.next = before.next
  tasks : ∃ rest, before.tasks.Perm (removed ++ rest) ∧ after.tasks.Perm (added ++ rest)

theorem Swap.refl (pool : TaskPool β) : pool.Swap pool [] [] := ⟨rfl, rfl, _, .refl _, .refl _⟩

theorem swap_wake (pool : TaskPool β) (wakes : Sleeper β → Bool) :
    pool.Swap (pool.wake wakes) [] [] := by
  refine ⟨rfl, rfl, pool.tasks, .refl _, ?_⟩
  unfold wake tasks
  rw [List.partition_eq_filter_filter]
  rw [List.append_assoc, ← List.map_append]
  exact ((List.filter_append_perm wakes pool.waiting).map _).append_left _

/-- The first task that can run falls asleep. -/
theorem swap_park (pool : TaskPool β) (id due : Nat) (body : β) (ready : List (Nat × β)) :
    ({ pool with ready := (id, body) :: ready } : TaskPool β).Swap
      { pool with ready, waiting := pool.waiting ++ [⟨id, due, body⟩] } [] [] := by
  refine ⟨rfl, rfl, _, .refl _, ?_⟩
  unfold tasks
  dsimp only
  rw [List.map_append, ← List.append_assoc]
  exact List.perm_append_singleton _ _

/-! ### Stopping tasks -/

/-- Whether one of these entries names a task. -/
def names (entries : List (String × Nat)) (id : Nat) : Bool :=
  entries.any fun entry => id == entry.2

/-- Stopping the tasks that some entries name leaves the others as they are. -/
theorem foldl_abort (entries : List (String × Nat)) (pool : TaskPool β) :
    entries.foldl (fun pool entry => pool.abort entry.2) pool = { pool with
      ready := pool.ready.filter fun task => !names entries task.1
      waiting := pool.waiting.filter fun task => !names entries task.id } := by
  induction entries generalizing pool with
  | nil => simp [names]
  | cons entry entries ih =>
    rw [List.foldl_cons, ih, abort]
    simp only [List.filter_filter, names, List.any_cons, Bool.not_or, bne, Bool.and_comm]

theorem cancelAll_eq (pool : TaskPool β) : pool.cancelAll = { pool with
    registered := []
    ready := pool.ready.filter fun task => !names pool.registered task.1
    waiting := pool.waiting.filter fun task => !names pool.registered task.id } := by
  rw [cancelAll, foldl_abort]

theorem next_cancelAll (pool : TaskPool β) : pool.cancelAll.next = pool.next := by
  rw [cancelAll_eq]

theorem tasks_cancelAll (pool : TaskPool β) :
    pool.cancelAll.tasks = pool.tasks.filter fun task => !names pool.registered task.1 := by
  rw [cancelAll_eq, tasks, tasks, List.filter_append, List.filter_map]
  rfl

theorem tasks_cancelAll_sublist (pool : TaskPool β) : pool.cancelAll.tasks.Sublist pool.tasks := by
  rw [tasks_cancelAll]
  exact List.filter_sublist

/-- Every unfinished task is registered. -/
def Listed (pool : TaskPool β) : Prop :=
  ∀ task ∈ pool.tasks, ∃ key, (key, task.1) ∈ pool.registered

/-- Where all tasks are registered none is left once the registered ones have been stopped. -/
theorem Listed.tasks_cancelAll {pool : TaskPool β} (h : pool.Listed) :
    pool.cancelAll.tasks = [] := by
  rw [TaskPool.tasks_cancelAll, List.filter_eq_nil_iff]
  intro task hmem
  obtain ⟨key, hregistered⟩ := h task hmem
  have hnamed : names pool.registered task.1 = true :=
    List.any_eq_true.mpr ⟨_, hregistered, beq_self_eq_true task.1⟩
  rw [hnamed]
  exact Bool.false_ne_true

/-- Tasks stay registered while some of them give way to others under the same numbers. -/
theorem Listed.swap {before after : TaskPool β} {removed added : List (Nat × β)}
    (h : before.Listed) (hswap : before.Swap after removed added)
    (hids : added.map Prod.fst ⊆ removed.map Prod.fst) : after.Listed := by
  obtain ⟨rest, hbefore, hafter⟩ := hswap.tasks
  intro task hmem
  have hid : task.1 ∈ before.tasks.map Prod.fst := by
    rw [(hbefore.map Prod.fst).mem_iff, List.map_append, List.mem_append]
    rcases List.mem_append.mp (hafter.mem_iff.mp hmem) with hadded | hrest
    · exact .inl (hids (List.mem_map_of_mem hadded))
    · exact .inr (List.mem_map_of_mem hrest)
  obtain ⟨other, hother, hsame⟩ := List.mem_map.mp hid
  rw [hswap.registered, ← hsame]
  exact h other hother

end TaskPool

namespace Schedule

variable {σ β ο φ ρ : Type} {routine : Routine σ β ο}
  {poll : Schedule σ β ο → φ → Schedule σ β ο × Turn φ ρ}

/-! ### Outputs -/

/-- Taking an output leaves the tasks as they are. -/
theorem pool_take (s : Schedule σ β ο) : s.take.1.pool = s.pool := by
  unfold take
  split <;> rfl

theorem shared_take (s : Schedule σ β ο) : s.take.1.shared = s.shared := by
  unfold take
  split <;> rfl

theorem outputs_take (s : Schedule σ β ο) : s.take.1.outputs <:+ s.outputs := by
  unfold take
  split
  · exact List.suffix_refl _
  · rename_i output outputs houtputs
    exact houtputs ▸ List.suffix_cons output outputs

/-! ### Turns -/

theorem runOne_of_finished {s : Schedule σ β ο} {id : Nat} {body : β} {ready : List (Nat × β)}
    {shared : σ} {output : ο} (h : s.pool.ready = (id, body) :: ready)
    (hrun : routine.run s.shared body = (shared, .finished output)) :
    s.runOne routine = wakeInterrupted routine
      { shared, pool := { s.pool with ready }, outputs := s.outputs ++ [output] } := by
  unfold runOne
  rw [h]
  simp only [hrun]

theorem runOne_of_waiting {s : Schedule σ β ο} {id due : Nat} {body rest : β}
    {ready : List (Nat × β)} {shared : σ} (h : s.pool.ready = (id, body) :: ready)
    (hrun : routine.run s.shared body = (shared, .waiting due rest)) :
    s.runOne routine = wakeInterrupted routine
      { s with shared, pool := { s.pool with
                ready, waiting := s.pool.waiting ++ [⟨id, due, rest⟩] } } := by
  unfold runOne
  rw [h]
  simp only [hrun]

/-- What holds while a host waits, when each of the things that can happen meanwhile keeps it. -/
theorem awaitFor_keeps (I : Schedule σ β ο → φ → Prop) (J : Schedule σ β ο → Option ρ → Prop)
    (hwake : ∀ s host, I s host → I (s.wakeInterrupted routine) host)
    (hadvance : ∀ s host time, I s host → I (s.advanceTo routine time) host)
    (hready : ∀ s host, I s host → I (s.runReady routine) host)
    (hgives_up : ∀ s host, I s host → J s none)
    (hfinished : ∀ s host later result, I s host → poll s host = (later, .finished result) →
      J (later.wakeInterrupted routine) (some result))
    (hwaiting : ∀ s host later due rest, I s host → poll s host = (later, .waiting due rest) →
      I later rest)
    (fuel : Nat) {s : Schedule σ β ο} {host : φ} (h : I s host) :
    J (awaitFor routine poll fuel s host).1 (awaitFor routine poll fuel s host).2 := by
  induction fuel generalizing s host with
  | zero => exact hgives_up s host h
  | succ fuel ih =>
    unfold awaitFor
    split
    · rename_i later result hpoll
      exact hfinished s host later result h hpoll
    · rename_i later due rest hpoll
      have hlater := hwake later rest (hwaiting s host later due rest h hpoll)
      dsimp only
      split
      · split
        · exact hgives_up _ rest hlater
        · exact ih (hadvance _ rest _ hlater)
      · exact ih (hready _ rest hlater)

end Schedule

end ViewTree
