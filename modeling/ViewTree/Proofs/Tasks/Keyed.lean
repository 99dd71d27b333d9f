import Mathlib.Data.List.Induction
import ViewTree.Proofs.Tasks.Pool
import ViewTree.Tasks.Timed

/-!
# Tasks under keys

The host spawns, cancels and prunes tasks while they take turns in any order and finish when they
like.  A `Run` is any such history, with the events that can be told from outside; what a key stands
for after some events is the last task spawned under it, unless it has been cancelled since
(`current`).

Every step is accounted for by its events (`Recorded.step`), so every run is (`Run.recorded`), and
the rest of `Run.keyed` is read off that.  What a host does to wait is a run as well, in the order
of turns that the scheduler chooses (`leads_await`).
-/

namespace ViewTree

/-! ### Histories -/

/-- Something that happens to tasks. -/
inductive TaskEvent (ο : Type) where
  /-- A task was spawned under a key, with a number of its own. -/
  | spawned (key : String) (id : Nat)
  | cancelled (key : String)
  | cancelledAll
  | pruned
  /-- A task finished, and put something out. -/
  | finished (id : Nat) (output : ο)
  /-- The host took something that a task had put out. -/
  | taken (output : ο)

namespace TaskEvent

variable {ο : Type}

/-- What keys stand for after an event. -/
def update (held : String → Option Nat) : TaskEvent ο → String → Option Nat
  | spawned key id => Function.update held key (some id)
  | cancelled key => Function.update held key none
  | cancelledAll => fun _ => none
  | pruned | finished _ _ | taken _ => held

/-- What a task put out. -/
def putOut? : TaskEvent ο → Option ο
  | finished _ output => some output
  | _ => none

/-- What the host took. -/
def taken? : TaskEvent ο → Option ο
  | taken output => some output
  | _ => none

end TaskEvent

open TaskEvent

/-- The task that a key stands for after some events: the last one spawned under it, unless it has
been cancelled since. -/
def current {ο : Type} (events : List (TaskEvent ο)) : String → Option Nat :=
  events.foldl TaskEvent.update fun _ => none

namespace Schedule

variable {σ β ο φ ρ : Type} {routine : Routine σ β ο} {s t u : Schedule σ β ο}
  {events more : List (TaskEvent ο)} {key key' : String} {id : Nat}

/-- What the turn of the first task that can run ends in. -/
def turnEvents (routine : Routine σ β ο) (s : Schedule σ β ο) : List (TaskEvent ο) :=
  match s.pool.ready with
  | [] => []
  | (id, body) :: _ =>
    match (routine.run s.shared body).2 with
    | .finished output => [.finished id output]
    | .waiting _ _ => []

/-- The steps of a schedule: the operations of the host, the turns of the tasks, and what happens
outside.  Any task that can run may come first, and any that waits may wake up. -/
inductive Step (routine : Routine σ β ο) :
    Schedule σ β ο → List (TaskEvent ο) → Schedule σ β ο → Prop
  | spawn {s : Schedule σ β ο} (key : String) (body : β) :
    Step routine s [.spawned key s.pool.next] { s with pool := s.pool.spawn key body }
  | cancel {s : Schedule σ β ο} (key : String) :
    Step routine s [.cancelled key] { s with pool := s.pool.cancel key }
  | cancelAll {s : Schedule σ β ο} :
    Step routine s [.cancelledAll] { s with pool := s.pool.cancelAll }
  | prune {s : Schedule σ β ο} : Step routine s [.pruned] { s with pool := s.pool.prune }
  | turn {s : Schedule σ β ο} : Step routine s (s.turnEvents routine) (s.runOne routine)
  | take {s : Schedule σ β ο} : Step routine s (s.take.2.map .taken).toList s.take.1
  | rearrange {s : Schedule σ β ο} {ready : List (Nat × β)} : s.pool.ready.Perm ready →
    Step routine s [] { s with pool := { s.pool with ready } }
  | wake {s : Schedule σ β ο} (wakes : Sleeper β → Bool) :
    Step routine s [] { s with pool := s.pool.wake wakes }
  | outside {s : Schedule σ β ο} (shared : σ) : Step routine s [] { s with shared }

/-- The runs of a schedule, with the events in order. -/
inductive Run (routine : Routine σ β ο) (s : Schedule σ β ο) :
    List (TaskEvent ο) → Schedule σ β ο → Prop
  | nil : Run routine s [] s
  | snoc {events more : List (TaskEvent ο)} {t u : Schedule σ β ο} :
    Run routine s events t → Step routine t more u → Run routine s (events ++ more) u

/-! ### What a run keeps -/

/-- A task has finished. -/
def Finished (events : List (TaskEvent ο)) (id : Nat) : Prop :=
  ∃ output, TaskEvent.finished id output ∈ events

/-- The events account for what a schedule holds. -/
structure Recorded (events : List (TaskEvent ο)) (s : Schedule σ β ο) : Prop where
  tracks : s.pool.Tracks (current events) (Finished events)
  spawned_lt : ∀ {key id}, .spawned key id ∈ events → id < s.pool.next
  spawned_unique : ∀ {key key' id}, .spawned key id ∈ events → .spawned key' id ∈ events →
    key = key'
  outputs : events.filterMap putOut? = events.filterMap taken? ++ s.outputs
  finished : ∀ {before id output}, before ++ [.finished id output] <+: events →
    (∃ key, current before key = some id) ∧ ¬Finished before id

theorem current_concat (events : List (TaskEvent ο)) (event : TaskEvent ο) :
    current (events ++ [event]) = event.update (current events) := by
  rw [current, List.foldl_concat]
  rfl

/-- A key stands for a task that was spawned under it. -/
theorem spawned_of_current (h : current events key = some id) : .spawned key id ∈ events := by
  induction events using List.reverseRecOn with
  | nil => exact nomatch h
  | append_singleton events event ih =>
    rw [current_concat] at h
    have hold : current events key = some id → TaskEvent.spawned key id ∈ events ++ [event] :=
      fun hcurrent => List.mem_append_left _ (ih hcurrent)
    cases event with
    | spawned other number =>
      by_cases hkey : key = other
      · subst hkey
        rw [TaskEvent.update, Function.update_self] at h
        obtain rfl : number = id := Option.some.inj h
        exact List.mem_append_right _ (List.mem_singleton_self _)
      · rw [TaskEvent.update, Function.update_of_ne hkey] at h
        exact hold h
    | cancelled other =>
      by_cases hkey : key = other
      · rw [TaskEvent.update, hkey, Function.update_self] at h
        exact nomatch h
      · rw [TaskEvent.update, Function.update_of_ne hkey] at h
        exact hold h
    | cancelledAll => exact nomatch h
    | pruned => exact hold h
    | finished _ _ => exact hold h
    | taken _ => exact hold h

namespace Recorded

theorem start (shared : σ) : Recorded [] ({ shared } : Schedule σ β ο) where
  tracks := by
    have hnone : Finished ([] : List (TaskEvent ο)) = fun _ => False := by
      funext id
      simp [Finished]
    rw [hnone]
    exact .empty
  spawned_lt h := absurd h List.not_mem_nil
  spawned_unique h := absurd h List.not_mem_nil
  outputs := rfl
  finished h := by simp at h

/-- A step that no event tells of moves tasks, or what they share. -/
theorem quiet (h : Recorded events s) (hpool : s.pool.Swap t.pool [] [])
    (houtputs : t.outputs = s.outputs) : Recorded events t where
  tracks := by
    obtain ⟨rest, hbefore, hafter⟩ := hpool.tasks
    exact h.tracks.of_perm hpool.registered hpool.next ((hafter.trans hbefore.symm).map _)
  spawned_lt hmem := hpool.next ▸ h.spawned_lt hmem
  spawned_unique := h.spawned_unique
  outputs := houtputs ▸ h.outputs
  finished := h.finished

theorem wakeInterrupted (h : Recorded events s) :
    Recorded events (s.wakeInterrupted routine) := by
  unfold Schedule.wakeInterrupted
  split
  · exact h.quiet (TaskPool.swap_wake _ _) rfl
  · exact h

/-- An event other than that a task is spawned or finishes. -/
theorem concat (h : Recorded events s) {event : TaskEvent ο}
    (hspawned : ∀ key id, event ≠ .spawned key id)
    (hfinished : ∀ id output, event ≠ .finished id output)
    (htracks : t.pool.Tracks (event.update (current events)) (Finished events))
    (hnext : t.pool.next = s.pool.next)
    (houtputs : s.outputs = event.taken?.toList ++ t.outputs) : Recorded (events ++ [event]) t := by
  have hmem : ∀ {key id}, .spawned key id ∈ events ++ [event] → .spawned key id ∈ events := by
    intro key id hmem
    rcases List.mem_append.mp hmem with hold | hnew
    · exact hold
    · exact absurd (List.mem_singleton.mp hnew).symm (hspawned key id)
  have hdone : Finished (events ++ [event]) = Finished events := by
    funext id
    simp [Finished, fun output => (hfinished id output).symm]
  have hput : event.putOut? = none := by
    cases event with
    | finished id output => exact absurd rfl (hfinished id output)
    | _ => rfl
  constructor
  case tracks => rwa [current_concat, hdone]
  case spawned_lt => exact fun hspawn => hnext ▸ h.spawned_lt (hmem hspawn)
  case spawned_unique => exact fun hone htwo => h.spawned_unique (hmem hone) (hmem htwo)
  case outputs =>
    have hput : (events ++ [event]).filterMap putOut? = events.filterMap putOut? := by
      simp [List.filterMap_append, hput]
    have htaken : (events ++ [event]).filterMap taken?
        = events.filterMap taken? ++ event.taken?.toList := by
      cases htaken : event.taken? <;> simp [List.filterMap_append, htaken]
    rw [hput, htaken, h.outputs, houtputs, List.append_assoc]
  case finished =>
    intro before id output hlead
    rcases List.prefix_concat_iff.mp hlead with heq | hlead
    · have hlast := (List.append_inj' heq rfl).2
      exact absurd (List.singleton_inj.mp hlast).symm (hfinished id output)
    · exact h.finished hlead

theorem spawn (h : Recorded events s) (key : String) (body : β) :
    Recorded (events ++ [.spawned key s.pool.next]) { s with pool := s.pool.spawn key body } := by
  have hnext : (s.pool.spawn key body).next = s.pool.next + 1 :=
    congrArg (· + 1) (TaskPool.next_cancel s.pool key)
  have hcases : ∀ {key' id}, .spawned key' id ∈ events ++ [TaskEvent.spawned key s.pool.next] →
      .spawned key' id ∈ events ∨ key' = key ∧ id = s.pool.next := by
    intro key' id hmem
    rcases List.mem_append.mp hmem with hold | hnew
    · exact .inl hold
    · exact .inr (TaskEvent.spawned.inj (List.mem_singleton.mp hnew))
  constructor
  case tracks =>
    have hdone : Finished (events ++ [.spawned key s.pool.next]) = Finished events := by
      funext id
      simp [Finished]
    rw [current_concat, hdone]
    exact h.tracks.spawn key body
  case spawned_lt =>
    intro key' id hmem
    have hlt : id < s.pool.next + 1 := by
      rcases hcases hmem with hold | ⟨-, rfl⟩
      · exact Nat.lt_succ_of_lt (h.spawned_lt hold)
      · exact Nat.lt_succ_self _
    exact hnext ▸ hlt
  case spawned_unique =>
    intro key₁ key₂ id hone htwo
    rcases hcases hone with hold₁ | ⟨rfl, rfl⟩
    · rcases hcases htwo with hold₂ | ⟨-, rfl⟩
      · exact h.spawned_unique hold₁ hold₂
      · exact absurd (h.spawned_lt hold₁) (Nat.lt_irrefl _)
    · rcases hcases htwo with hold₂ | ⟨rfl, -⟩
      · exact absurd (h.spawned_lt hold₂) (Nat.lt_irrefl _)
      · rfl
  case outputs =>
    -- Spawning puts nothing out, and takes nothing.
    have hput : (events ++ [TaskEvent.spawned key s.pool.next]).filterMap putOut?
        = events.filterMap (putOut? : TaskEvent ο → Option ο) :=
      List.filterMap_append.trans (List.append_nil _)
    have htaken : (events ++ [TaskEvent.spawned key s.pool.next]).filterMap taken?
        = events.filterMap (taken? : TaskEvent ο → Option ο) :=
      List.filterMap_append.trans (List.append_nil _)
    rw [hput, htaken]
    exact h.outputs
  case finished =>
    intro before id output hlead
    rcases List.prefix_concat_iff.mp hlead with heq | hlead
    · exact nomatch List.singleton_inj.mp (List.append_inj' heq rfl).2
    · exact h.finished hlead

/-- The first task that can run finishes. -/
theorem finish (h : Recorded events s) {body : β} {ready : List (Nat × β)} {shared : σ} {output : ο}
    (hready : s.pool.ready = (id, body) :: ready) :
    Recorded (events ++ [.finished id output])
      { shared, pool := { s.pool with ready }, outputs := s.outputs ++ [output] } := by
  have hperm : s.pool.unfinished.Perm
      (id :: ({ s.pool with ready } : TaskPool β).unfinished) := by
    rw [TaskPool.unfinished_eq, TaskPool.unfinished_eq, hready]
    exact .refl _
  have hid : id ∈ s.pool.unfinished := hperm.mem_iff.mpr List.mem_cons_self
  constructor
  case tracks =>
    have hdone : Finished (events ++ [.finished id output])
        = fun number => Finished events number ∨ number = id := by
      funext number
      simp [Finished, exists_or]
    rw [current_concat, hdone]
    exact h.tracks.finish rfl rfl hperm
  case spawned_lt => exact fun hmem => h.spawned_lt (by simpa using hmem)
  case spawned_unique =>
    exact fun hone htwo => h.spawned_unique (by simpa using hone) (by simpa using htwo)
  case outputs => simp [List.filterMap_append, putOut?, taken?, h.outputs]
  case finished =>
    intro before number put hlead
    rcases List.prefix_concat_iff.mp hlead with heq | hlead
    · obtain ⟨rfl, hlast⟩ := List.append_inj' heq rfl
      obtain ⟨rfl, -⟩ := TaskEvent.finished.inj (List.singleton_inj.mp hlast)
      obtain ⟨key, hmem⟩ := h.tracks.registered_of_unfinished hid
      exact ⟨⟨key, h.tracks.held_of_mem hmem⟩, h.tracks.not_done hid⟩
    · exact h.finished hlead

theorem turn (h : Recorded events s) :
    Recorded (events ++ s.turnEvents routine) (s.runOne routine) := by
  unfold turnEvents
  cases hready : s.pool.ready with
  | nil =>
    have hnone : s.runOne routine = s := by
      unfold runOne
      rw [hready]
    dsimp only
    rw [hnone, List.append_nil]
    exact h
  | cons task ready =>
    obtain ⟨id, body⟩ := task
    dsimp only
    rcases hrun : routine.run s.shared body with ⟨shared, output | ⟨due, rest⟩⟩
    · rw [runOne_of_finished hready hrun]
      exact (h.finish hready).wakeInterrupted
    · rw [runOne_of_waiting hready hrun]
      dsimp only
      rw [List.append_nil]
      have hsame : Recorded events
          { s with shared, pool := { s.pool with ready := (id, rest) :: ready } } := by
        refine ⟨h.tracks.of_perm rfl rfl ?_, h.spawned_lt, h.spawned_unique, h.outputs, h.finished⟩
        rw [TaskPool.unfinished_eq, TaskPool.unfinished_eq, hready]
        exact .refl _
      have hparked : Recorded events { s with shared, pool := { s.pool with
          ready, waiting := s.pool.waiting ++ [⟨id, due, rest⟩] } } :=
        hsame.quiet (TaskPool.swap_park s.pool id due rest ready) rfl
      exact hparked.wakeInterrupted

/-- **One step** is accounted for by its events. -/
theorem step (h : Recorded events s) (hstep : Step routine s more t) :
    Recorded (events ++ more) t := by
  cases hstep with
  | spawn key body => exact h.spawn key body
  | cancel key =>
    exact h.concat (by simp) (by simp) (h.tracks.cancel key) (TaskPool.next_cancel s.pool key) rfl
  | cancelAll =>
    exact h.concat (by simp) (by simp) h.tracks.cancelAll (TaskPool.next_cancelAll s.pool) rfl
  | prune => exact h.concat (by simp) (by simp) h.tracks.prune rfl rfl
  | turn => exact h.turn
  | take =>
    unfold Schedule.take
    split
    · simpa using h
    · rename_i output outputs houtputs
      exact h.concat (by simp) (by simp) h.tracks rfl houtputs
  | rearrange hperm =>
    rw [List.append_nil]
    exact h.quiet ⟨rfl, rfl, _, .refl _, hperm.symm.append_right _⟩ rfl
  | wake wakes =>
    rw [List.append_nil]
    exact h.quiet (TaskPool.swap_wake _ wakes) rfl
  | outside shared =>
    rw [List.append_nil]
    exact h.quiet (.refl _) rfl

end Recorded

theorem Run.recorded {shared : σ} (h : Run routine { shared } events s) : Recorded events s := by
  induction h with
  | nil => exact .start shared
  | snoc _ hstep ih => exact ih.step hstep

/-- What holds of tasks under keys. -/
structure Keyed (events : List (TaskEvent ο)) (s : Schedule σ β ο) : Prop where
  /-- No unfinished task is there twice, and each was spawned under a key. -/
  nodup : s.pool.unfinished.Nodup
  spawned : ∀ id ∈ s.pool.unfinished, ∃ key, .spawned key id ∈ events
  /-- Of the tasks spawned under a key none is unfinished but the last one, which is unless it has
  finished or been cancelled; and it is registered under the key. -/
  unfinished_iff : ∀ key id, .spawned key id ∈ events →
    (id ∈ s.pool.unfinished ↔ current events key = some id ∧ ¬Finished events id)
  running_iff : ∀ key, s.pool.isRunning key = true ↔
    ∃ id ∈ s.pool.unfinished, current events key = some id
  /-- What tasks have put out, in order, is what the host has taken and what is left for it. -/
  outputs : events.filterMap putOut? = events.filterMap taken? ++ s.outputs
  /-- A task that finishes had not been cancelled or replaced, and had not finished before. -/
  finished : ∀ before id output, before ++ [.finished id output] <+: events →
    (∃ key, current before key = some id) ∧ ¬Finished before id
  /-- Operations on a key leave the task under another as it is, and pruning leaves every task. -/
  spawn_apart : ∀ key other body, other ≠ key →
    (s.pool.spawn key body).under other = s.pool.under other
  cancel_apart : ∀ key other, other ≠ key → (s.pool.cancel key).under other = s.pool.under other
  prune_apart : ∀ key, s.pool.prune.under key = s.pool.under key

theorem Recorded.unfinished_iff (h : Recorded events s) (hspawned : .spawned key id ∈ events) :
    id ∈ s.pool.unfinished ↔ current events key = some id ∧ ¬Finished events id := by
  constructor
  · intro hid
    obtain ⟨key', hmem⟩ := h.tracks.registered_of_unfinished hid
    have hcurrent := h.tracks.held_of_mem hmem
    obtain rfl : key' = key := h.spawned_unique (spawned_of_current hcurrent) hspawned
    exact ⟨hcurrent, h.tracks.not_done hid⟩
  · rintro ⟨hcurrent, hdone⟩
    exact h.tracks.unfinished_of_held hcurrent hdone

theorem Recorded.running_iff (h : Recorded events s) (key : String) :
    s.pool.isRunning key = true ↔ ∃ id ∈ s.pool.unfinished, current events key = some id := by
  rw [TaskPool.isRunning, Option.any_eq_true]
  constructor
  · rintro ⟨id, hlookup, halive⟩
    exact ⟨id, TaskPool.isAlive_iff.mp halive, h.tracks.held_of_lookup hlookup⟩
  · rintro ⟨id, hid, hcurrent⟩
    exact ⟨id, h.tracks.lookup_of_held hcurrent hid, TaskPool.isAlive_iff.mpr hid⟩

/-- **Tasks under keys.**  After any history of operations and turns a key has at most one
unfinished task, the last one spawned under it and not since cancelled; the outputs are those of the
tasks that finished before they were cancelled or replaced, each once; and no operation touches an
unfinished task under another key. -/
theorem Run.keyed {shared : σ} (h : Run routine { shared } events s) : Keyed events s := by
  have hrecorded := h.recorded
  have htracks := hrecorded.tracks
  constructor
  case nodup => exact htracks.nodup
  case spawned =>
    intro id hid
    obtain ⟨key, hmem⟩ := htracks.registered_of_unfinished hid
    exact ⟨key, spawned_of_current (htracks.held_of_mem hmem)⟩
  case unfinished_iff => exact fun key id hspawned => hrecorded.unfinished_iff hspawned
  case running_iff => exact hrecorded.running_iff
  case outputs => exact hrecorded.outputs
  case finished => exact fun before id output hlead => hrecorded.finished hlead
  case spawn_apart => exact fun key other body hne => htracks.under_spawn hne body
  case cancel_apart => exact fun key other hne => htracks.under_cancel hne
  case prune_apart => exact htracks.under_prune

/-- A task sleeps and is replaced, another one finishes in between. -/
theorem Run.keyed_replaced :
    let events : List (TaskEvent Nat) :=
      [.spawned "a" 0, .spawned "b" 1, .finished 1 7, .spawned "a" 2]
    ∃ s, Run (TimedTask.routine Nat) { shared := 0 } events s ∧ Keyed events s ∧
      s.pool.unfinished = [2] ∧ s.outputs = [7] := by
  intro events
  have hstart : Run (TimedTask.routine Nat) { shared := 0 } [] { shared := 0 } := .nil
  have hfirst := hstart.snoc (.spawn "a" (.fresh 5 6))
  have hsecond := (hfirst.snoc .turn).snoc (.spawn "b" (.fresh 0 7))
  have hthird := (hsecond.snoc .turn).snoc (.spawn "a" (.fresh 0 8))
  exact ⟨_, hthird, Run.keyed hthird, rfl, rfl⟩

/-! ### What a host does is a run -/

/-- Some run leads from one schedule to the other. -/
def Leads (routine : Routine σ β ο) (s t : Schedule σ β ο) : Prop :=
  ∃ events, Run routine s events t

theorem Run.append (h : Run routine s events t) (h' : Run routine t more u) :
    Run routine s (events ++ more) u := by
  induction h' with
  | nil => rwa [List.append_nil]
  | snoc _ hstep ih =>
    rw [← List.append_assoc]
    exact ih.snoc hstep

namespace Leads

theorem refl (s : Schedule σ β ο) : Leads routine s s := ⟨[], .nil⟩

theorem trans (h : Leads routine s t) (h' : Leads routine t u) : Leads routine s u := by
  obtain ⟨events, hrun⟩ := h
  obtain ⟨more, hrun'⟩ := h'
  exact ⟨events ++ more, hrun.append hrun'⟩

theorem of_step (h : Step routine s events t) : Leads routine s t := ⟨[] ++ events, .snoc .nil h⟩

end Leads

theorem leads_wakeInterrupted (s : Schedule σ β ο) :
    Leads routine s (s.wakeInterrupted routine) := by
  unfold wakeInterrupted
  split
  · exact .of_step (.wake _)
  · exact .refl s

theorem leads_advanceTo (s : Schedule σ β ο) (time : Nat) :
    Leads routine s (s.advanceTo routine time) :=
  (Leads.of_step (.outside _)).trans (.of_step (.wake _))

theorem leads_runReadyFor (fuel : Nat) (s : Schedule σ β ο) :
    Leads routine s (s.runReadyFor routine fuel) := by
  induction fuel generalizing s with
  | zero => exact .refl s
  | succ fuel ih =>
    unfold runReadyFor
    split
    · exact .refl s
    · exact (Leads.of_step .turn).trans (ih _)

/-- While a host waits that itself only takes steps, only steps are taken. -/
theorem leads_await {poll : Schedule σ β ο → φ → Schedule σ β ο × Turn φ ρ}
    (hpoll : ∀ s host, Leads routine s (poll s host).1) (hostWork : Nat) (s : Schedule σ β ο)
    (host : φ) : Leads routine s (s.await routine poll hostWork host).1 := by
  -- Each of the things that can happen leads on from what the waiting began with.
  refine awaitFor_keeps (I := fun t _ => Leads routine s t) (J := fun t _ => Leads routine s t)
    ?wake ?advance ?ready ?givesUp ?finished ?waiting _ (.refl s)
  case wake => exact fun t _ h => h.trans (leads_wakeInterrupted t)
  case advance => exact fun t _ time h => h.trans (leads_advanceTo t time)
  case ready => exact fun t _ h => h.trans (leads_runReadyFor _ t)
  case givesUp => exact fun _ _ h => h
  case finished =>
    intro t host later result h heq
    have hturn := hpoll t host
    rw [heq] at hturn
    exact (h.trans hturn).trans (leads_wakeInterrupted later)
  case waiting =>
    intro t host later due rest h heq
    have hturn := hpoll t host
    rw [heq] at hturn
    exact h.trans hturn

theorem leads_sleepUntil (time : Nat) (s : Schedule σ β ο) :
    Leads routine s (s.sleepUntil routine time) :=
  leads_await (fun t _ => .refl t) _ s ()

theorem leads_drain (s : Schedule σ β ο) : Leads routine s (s.drain routine) :=
  leads_await (fun t _ => .refl t) _ s ()

theorem leads_receive (s : Schedule σ β ο) : Leads routine s (s.receive routine).1 := by
  refine leads_await ?_ _ s ()
  intro t _
  have htake : Leads routine t t.take.1 := .of_step .take
  rcases hresult : t.take with ⟨later, _ | output⟩
  · simpa [hresult] using htake
  · simpa [hresult] using htake

end Schedule

end ViewTree
