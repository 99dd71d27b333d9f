import ViewTree.Proofs.Session.Host

/-!
# A host that waits gets its result

Nothing is stuck in a view that a host can come by: a task that has its turn goes on, and a task
that waits is woken when its reply comes (`Workshop.Orderly`, which every call of a host keeps).  So
each round of the scheduler takes the host or a task closer to its end or the clock to the next
reply, and `Workshop.distance` falls.

* `Workshop.isSome_runJob`: a job that a host waits for comes to its end within the rounds that the
  scheduler allows.
* `Workshop.tasks_drain`: a host that waits for the background finds no task left.
* `Session.isSome_runJob_of_calls`, `Session.tasks_settle_of_calls`: this holds of every view that
  calls of a host lead to.
-/

namespace ViewTree

/-! ### Time goes on -/

/-- A later state of affairs: the clock has gone on, and a view that has ended is still so. -/
structure World.Precedes (world later : World) : Prop where
  ended : world.ended = true → later.ended = true
  now : world.now ≤ later.now

namespace World.Precedes

variable {setting : Setting} {world later last : World} {job : Job}

theorem refl (world : World) : Precedes world world := ⟨id, Nat.le_refl _⟩

theorem trans (h : Precedes world later) (h' : Precedes later last) : Precedes world last :=
  ⟨h'.ended ∘ h.ended, Nat.le_trans h.now h'.now⟩

theorem of_step : Precedes world (job.step setting world).1 := by
  have hspec := job.step_spec setting world
  rw [hspec.world_eq]
  refine ⟨?_, ?_⟩
  · intro hended
    rw [World.ended_recordAll, Effect.ended_apply, hended, Bool.true_or]
  · exact Nat.le_of_eq (World.now_recordAll.trans Effect.now_apply).symm

/-- A job that waits has waited before, for a reply that has not come yet. -/
theorem waitsUntil {due : Nat} (h : Precedes world later)
    (hwaits : job.waitsUntil later = some due) :
    job.waitsUntil world = some due ∧ later.now < due := by
  rw [Job.waitsUntil_eq] at hwaits ⊢
  obtain ⟨call, hcall, hdue⟩ := Option.bind_eq_some_iff.mp hwaits
  obtain ⟨hlive, hlate, hcalldue⟩ := Call.waitsUntil_eq_some_iff.mp hdue
  have hended : world.ended = false := by
    refine Bool.eq_false_iff.mpr ?_
    intro hended
    exact Bool.eq_false_iff.mp hlive (h.ended hended)
  have hearly := Nat.lt_of_le_of_lt h.now hlate
  have hbefore := Call.waitsUntil_eq_some_iff.mpr ⟨hended, hearly, hcalldue⟩
  exact ⟨Option.bind_eq_some_iff.mpr ⟨call, hcall, hbefore⟩, hlate⟩

/-- A job that can go on still can later. -/
theorem waitsUntil_none (h : Precedes world later) (hgoes : job.waitsUntil world = none) :
    job.waitsUntil later = none := by
  cases hwaits : job.waitsUntil later with
  | none => rfl
  | some due =>
    rw [(h.waitsUntil hwaits).1] at hgoes
    exact absurd hgoes (by simp)

/-- A job that waits can go on once the reply has come. -/
theorem waitsUntil_of_due {due : Nat} (h : Precedes world later)
    (hdue : ∀ time, job.waitsUntil world = some time → time = due) (hcome : due ≤ later.now) :
    job.waitsUntil later = none := by
  cases hwaits : job.waitsUntil later with
  | none => rfl
  | some time =>
    obtain ⟨hbefore, hlate⟩ := h.waitsUntil hwaits
    obtain rfl := hdue time hbefore
    exact absurd hcome (Nat.not_le_of_lt hlate)

end World.Precedes

/-! ### What a turn leaves -/

namespace Job

variable {setting : Setting} {world : World} {job : Job}

theorem runFor_precedes (setting : Setting) (world : World) (job : Job) (fuel : Nat) :
    world.Precedes (runFor setting fuel world job).1 := by
  induction fuel generalizing world job with
  | zero => exact .refl _
  | succ fuel ih =>
    unfold runFor
    split
    · exact .refl _
    · exact World.Precedes.of_step.trans (ih _ _)

theorem left_runFor_le (fuel : Nat) : (runFor setting fuel world job).2.left ≤ job.left := by
  induction fuel generalizing world job with
  | zero => exact Nat.le_refl _
  | succ fuel ih =>
    unfold runFor
    split
    · exact Nat.le_refl _
    · rename_i hstops
      have hdone : job.isDone = false := by
        rw [Bool.or_eq_true_iff, not_or] at hstops
        exact Bool.eq_false_iff.mpr hstops.1
      exact Nat.le_trans ih (Nat.le_of_lt (left_step _ _ hdone))

/-- The turn of a job that can go on takes it closer to its end. -/
theorem left_run_lt (hdone : job.isDone = false) (hgoes : job.waitsUntil world = none) :
    (job.run setting world).2.left < job.left := by
  have hstep := left_step setting world hdone
  have hwork := job.left_le_work
  unfold run
  obtain ⟨fuel, hfuel⟩ : ∃ fuel, job.work = fuel + 1 := ⟨job.work - 1, by omega⟩
  rw [hfuel, runFor, hdone, hgoes]
  exact Nat.lt_of_le_of_lt (left_runFor_le fuel) hstep

theorem ended_of_waitsUntil {due : Nat} (h : job.waitsUntil world = some due) :
    world.ended = false := by
  refine Bool.eq_false_iff.mpr ?_
  intro hended
  rw [waitsUntil_of_ended hended] at h
  exact absurd h (by simp)

theorem runFor_of_isDone (fuel : Nat) (hdone : job.isDone = true) :
    runFor setting fuel world job = (world, job) := by
  cases fuel with
  | zero => rfl
  | succ fuel => rw [runFor, hdone, Bool.true_or, if_pos rfl]

theorem run_of_isDone (hdone : job.isDone = true) : job.run setting world = (world, job) :=
  runFor_of_isDone job.work hdone

end Job

/-! ### Nobody is stuck -/

theorem total_perm {α : Type} (f : α → Nat) {as bs : List α} (h : as.Perm bs) :
    total f as = total f bs := by
  induction h with
  | nil => rfl
  | cons a _ ih => rw [total, total, ih]
  | swap a b as => exact Nat.add_left_comm _ _ _
  | trans _ _ ih ih' => exact ih.trans ih'

theorem TaskPool.mem_ready_wake {β : Type} {pool : TaskPool β} {wakes : Sleeper β → Bool}
    {task : Sleeper β} (hmem : task ∈ pool.waiting) (hwakes : wakes task = true) :
    (task.id, task.body) ∈ (pool.wake wakes).ready := by
  unfold TaskPool.wake
  rw [List.partition_eq_filter_filter]
  exact List.mem_append_right _ (List.mem_map_of_mem (List.mem_filter.mpr ⟨hmem, hwakes⟩))

theorem Schedule.earlier_ne_none (due : Nat) (other : Option Nat) :
    earlier (some due) other ≠ none := by
  cases other <;> simp [earlier]

namespace Workshop

/-- How many steps some tasks have left at most, and one for each. -/
def stepsLeft (tasks : List (Nat × Job)) : Nat := total (fun task => task.2.left + 1) tasks

/-- How many steps the tasks have left at most, and one for each. -/
def left (shop : Workshop) : Nat := stepsLeft shop.pool.tasks

/-- Whoever is ready can go on, and whoever waits is woken when the reply comes. -/
structure Orderly (shop : Workshop) : Prop where
  ready : ∀ task ∈ shop.pool.ready, task.2.waitsUntil shop.shared = none
  waiting : ∀ task ∈ shop.pool.waiting, ∀ due,
    task.body.waitsUntil shop.shared = some due → due = task.due

variable {setting : Setting} {shop : Workshop}

theorem left_le_work (setting : Setting) (shop : Workshop) :
    shop.left ≤ shop.work (Job.routine setting) := by
  have hmap : ∀ tasks : List (Sleeper Job),
      total (fun task => task.2.left + 1) (tasks.map fun task => (task.id, task.body))
        = total (fun task => task.body.left + 1) tasks := by
    intro tasks
    induction tasks with
    | nil => rfl
    | cons task tasks ih => rw [List.map_cons, total, total, ih]
  unfold left stepsLeft TaskPool.tasks Schedule.work
  rw [total_append, hmap]
  exact Nat.add_le_add (total_le_total (fun task => Nat.add_le_add_right task.2.left_le_work 1) _)
    (total_le_total (fun task => Nat.add_le_add_right task.body.left_le_work 1) _)

/-- The steps that are left of some tasks go with them. -/
theorem left_of_swap {later : Workshop} {removed added : List (Nat × Job)}
    (h : shop.pool.Swap later.pool removed added) :
    later.left + stepsLeft removed = shop.left + stepsLeft added := by
  obtain ⟨rest, hbefore, hafter⟩ := h.tasks
  unfold left stepsLeft
  rw [total_perm _ hbefore, total_perm _ hafter, total_append, total_append]
  omega

/-! ### The clock -/

namespace Orderly

/-- What waits for a reply does so as long as the reply has not come and the view has not ended. -/
theorem later (h : shop.Orderly) {world : World} (hlater : shop.shared.Precedes world) :
    Orderly { shop with shared := world } := by
  constructor
  · intro task htask
    exact hlater.waitsUntil_none (h.ready task htask)
  · intro task htask due hwaits
    have hbefore := (hlater.waitsUntil hwaits).1
    exact h.waiting task htask due hbefore

theorem wake (h : shop.Orderly) {wakes : Sleeper Job → Bool}
    (hwakes : ∀ task ∈ shop.pool.waiting, wakes task = true →
      task.body.waitsUntil shop.shared = none) :
    Orderly { shop with pool := shop.pool.wake wakes } := by
  unfold TaskPool.wake
  rw [List.partition_eq_filter_filter]
  constructor
  · intro task htask
    rcases List.mem_append.mp htask with hready | hwoken
    · exact h.ready task hready
    · obtain ⟨sleeper, hmem, rfl⟩ := List.mem_map.mp hwoken
      obtain ⟨hwaiting, hwake⟩ := List.mem_filter.mp hmem
      exact hwakes sleeper hwaiting hwake
  · intro task htask
    have hwaiting := (List.mem_filter.mp htask).1
    exact h.waiting task hwaiting

end Orderly

theorem left_wake (shop : Workshop) (wakes : Sleeper Job → Bool) :
    left { shop with pool := shop.pool.wake wakes } = shop.left := by
  let woken : Workshop := { shop with pool := shop.pool.wake wakes }
  have hswap : shop.pool.Swap woken.pool [] [] := TaskPool.swap_wake _ wakes
  exact left_of_swap hswap

/-- The end of a view wakes everyone up, since nothing waits then. -/
theorem wakeInterrupted_spec (setting : Setting) (h : shop.Orderly) :
    let woken : Workshop := shop.wakeInterrupted (Job.routine setting)
    woken.Orderly ∧ woken.left = shop.left := by
  unfold Schedule.wakeInterrupted
  split
  · rename_i hended
    refine ⟨h.wake ?_, left_wake _ _⟩
    intro task _ _
    exact Job.waitsUntil_of_ended hended
  · exact ⟨h, rfl⟩

/-- Whoever waits for a time is woken at it. -/
theorem advanceTo_spec (setting : Setting) (h : shop.Orderly) (time : Nat) :
    let later : Workshop := shop.advanceTo (Job.routine setting) time
    later.Orderly ∧ later.left = shop.left := by
  let world : World := { shop.shared with now := max time shop.shared.now }
  have hlater : shop.shared.Precedes world := ⟨id, Nat.le_max_right _ _⟩
  refine ⟨(h.later hlater).wake ?_, left_wake _ _⟩
  intro task htask hdue
  exact hlater.waitsUntil_of_due (h.waiting task htask) (of_decide_eq_true hdue)

/-! ### Turns -/

/-- A job that waits after its turn has come closer to its end in it. -/
theorem left_run_lt_of_waitsUntil {world : World} {job : Job} {due : Nat}
    (hgoes : job.waitsUntil world = none)
    (hwaits : (job.run setting world).2.waitsUntil (job.run setting world).1 = some due) :
    (job.run setting world).2.left < job.left := by
  refine Job.left_run_lt (Bool.eq_false_iff.mpr ?_) hgoes
  intro hdone
  rw [Job.run_of_isDone hdone, hgoes] at hwaits
  exact absurd hwaits (by simp)

/-- Tasks that give way to closer ones leave less to do, and everyone wakes up if the view ends. -/
theorem swap_spec (setting : Setting) {later : Workshop} {removed added : List (Nat × Job)}
    (h : later.Orderly) (hswap : shop.pool.Swap later.pool removed added)
    (hfalls : stepsLeft added < stepsLeft removed) :
    let woken : Workshop := later.wakeInterrupted (Job.routine setting)
    woken.Orderly ∧ woken.left < shop.left := by
  obtain ⟨hwoken, hsame⟩ := wakeInterrupted_spec setting h
  have hleft := left_of_swap hswap
  refine ⟨hwoken, ?_⟩
  rw [hsame]
  omega

/-- A turn takes a task closer to its end. -/
theorem runOne_spec (setting : Setting) (h : shop.Orderly) (hready : shop.pool.ready ≠ []) :
    let later : Workshop := shop.runOne (Job.routine setting)
    later.Orderly ∧ later.left < shop.left := by
  obtain ⟨⟨id, job⟩, ready, htasks⟩ := List.exists_cons_of_ne_nil hready
  -- The other tasks stand as they did, in the world that the turn leaves.
  have hgoes : job.waitsUntil shop.shared = none := h.ready (id, job) (htasks ▸ .head _)
  obtain ⟨hgo, hwait⟩ := h.later (job.runFor_precedes setting _ job.work)
  have hothers : ∀ task ∈ ready, task.2.waitsUntil (job.run setting shop.shared).1 = none :=
    fun task htask => hgo task (htasks ▸ htask.tail _)
  have hbefore : shop.pool.tasks
      = [(id, job)] ++ (ready ++ shop.pool.waiting.map fun task => (task.id, task.body)) :=
    congrArg (· ++ _) htasks
  rcases Job.routine_run setting shop.shared job with ⟨due, hwaits, hrun⟩ | ⟨-, hrun⟩
  · rw [Schedule.runOne_of_waiting htasks hrun]
    -- The task falls asleep behind the others, with less to do.
    have hfalls : stepsLeft [(id, (job.run setting shop.shared).2)] < stepsLeft [(id, job)] :=
      Nat.succ_lt_succ (left_run_lt_of_waitsUntil hgoes hwaits)
    refine swap_spec setting ⟨hothers, fun task htask time htime => ?_⟩
      ⟨rfl, rfl, _, .of_eq hbefore, ?_⟩ hfalls
    · rcases List.mem_append.mp htask with hold | hnew
      · exact hwait task hold time htime
      · obtain rfl := List.mem_singleton.mp hnew
        exact Option.some.inj (htime.symm.trans hwaits)
    · unfold TaskPool.tasks
      rw [List.map_append, ← List.append_assoc]
      exact List.perm_append_singleton _ _
  · rw [Schedule.runOne_of_finished htasks hrun]
    have hends : stepsLeft [] < stepsLeft [(id, job)] := Nat.succ_pos _
    exact swap_spec setting ⟨hothers, hwait⟩ ⟨rfl, rfl, _, .of_eq hbefore, .refl _⟩ hends

theorem runReadyFor_spec (setting : Setting) (h : shop.Orderly) (fuel : Nat) :
    let later : Workshop := shop.runReadyFor (Job.routine setting) fuel
    later.Orderly ∧ later.left ≤ shop.left := by
  induction fuel generalizing shop with
  | zero => exact ⟨h, Nat.le_refl _⟩
  | succ fuel ih =>
    unfold Schedule.runReadyFor
    split
    · exact ⟨h, Nat.le_refl _⟩
    · rename_i hready
      obtain ⟨horderly, hlt⟩ := runOne_spec setting h (mt List.isEmpty_iff.mpr hready)
      obtain ⟨hend, hle⟩ := ih horderly
      exact ⟨hend, Nat.le_of_lt (Nat.lt_of_le_of_lt hle hlt)⟩

/-- A round of turns takes some task closer to its end. -/
theorem runReady_spec (setting : Setting) (h : shop.Orderly) (hready : shop.pool.ready ≠ []) :
    let later : Workshop := shop.runReady (Job.routine setting)
    later.Orderly ∧ later.left < shop.left := by
  have halive : 0 < shop.pool.ready.length := List.length_pos_iff.mpr hready
  -- There is fuel for the first turn at least, and no other one undoes it.
  obtain ⟨fuel, hfuel⟩ : ∃ fuel, 2 * shop.pool.alive = fuel + 1 := by
    refine ⟨2 * shop.pool.alive - 1, ?_⟩
    unfold TaskPool.alive
    omega
  obtain ⟨horderly, hlt⟩ := runOne_spec setting h hready
  obtain ⟨hend, hle⟩ := runReadyFor_spec setting horderly fuel
  unfold Schedule.runReady
  rw [hfuel, Schedule.runReadyFor, if_neg (mt List.isEmpty_iff.mp hready)]
  exact ⟨hend, Nat.lt_of_le_of_lt hle hlt⟩

/-! ### The host gets on -/

/-- Whether the host or a task can go on. -/
def canGoOn (shop : Workshop) (job : Job) : Bool :=
  (job.waitsUntil shop.shared).isNone || !shop.pool.ready.isEmpty

/-- How far the host is from the end of its job.  A round takes the host or a task closer to its
end; one that cannot takes the clock to a time at which one can. -/
def distance (shop : Workshop) (job : Job) : Nat :=
  2 * (shop.left + job.left) + if shop.canGoOn job then 0 else 1

/-- At the first time that a task waits for some task can go on. -/
theorem ready_advanceTo (setting : Setting) {time : Nat} (h : shop.pool.earliest = some time) :
    (shop.advanceTo (Job.routine setting) time).pool.ready.isEmpty = false := by
  obtain ⟨sleeper, hmem, hsleeper⟩ := List.mem_map.mp (List.min?_mem h)
  refine List.isEmpty_eq_false_iff.mpr (List.ne_nil_of_mem (TaskPool.mem_ready_wake hmem ?_))
  exact decide_eq_true (hsleeper ▸ Nat.le_max_left _ _)

/-- At the time that the host or a task waits for one of them can go on. -/
theorem canGoOn_advanceTo (setting : Setting) {job : Job} {due time : Nat}
    (hwaits : job.waitsUntil shop.shared = some due)
    (htime : Schedule.earlier (some due) shop.pool.earliest = some time) :
    canGoOn (shop.advanceTo (Job.routine setting) time) job = true := by
  by_cases hdue : due ≤ time
  · let world : World := { shop.shared with now := max time shop.shared.now }
    have hlater : shop.shared.Precedes world := ⟨id, Nat.le_max_right _ _⟩
    have hgoes : job.waitsUntil world = none :=
      hlater.waitsUntil_of_due (fun _ hbefore => Option.some.inj (hbefore.symm.trans hwaits))
        (Nat.le_trans hdue (Nat.le_max_left _ _))
    exact Bool.or_eq_true_iff.mpr (.inl (Option.isNone_iff_eq_none.mpr hgoes))
  · -- A task waits for less than the host does.
    have hfirst : shop.pool.earliest = some time := by
      cases hearliest : shop.pool.earliest with
      | none =>
        rw [hearliest] at htime
        exact absurd (Nat.le_of_eq (Option.some.inj htime)) hdue
      | some first =>
        rw [hearliest] at htime
        have hmin : min due first = time := Option.some.inj htime
        exact congrArg some (by omega)
    unfold canGoOn
    rw [ready_advanceTo setting hfirst]
    exact Bool.or_true _

/-- Taking the clock on brings the host nearer, after a turn of it when no task can go on. -/
theorem distance_advanceTo_lt (setting : Setting) (h : shop.Orderly) {job : Job} {due time : Nat}
    (hidle : shop.pool.ready.isEmpty = true) :
    let run := job.run setting shop.shared
    let later : Workshop := { shop with shared := run.1 }
    run.2.waitsUntil run.1 = some due →
      Schedule.earlier (some due) later.pool.earliest = some time →
      distance (later.advanceTo (Job.routine setting) time) run.2 < shop.distance job := by
  intro run later hwaits htime
  have hlater : later.Orderly := h.later (job.runFor_precedes setting _ job.work)
  have hhost : run.2.left ≤ job.left := Job.left_runFor_le _
  have hsame := (advanceTo_spec setting hlater time).2
  have hleft : later.left = shop.left := rfl
  have hgoes : canGoOn (later.advanceTo (Job.routine setting) time) run.2 = true :=
    canGoOn_advanceTo setting hwaits htime
  unfold distance
  rw [hsame, hleft, hgoes, if_pos rfl]
  split
  · -- Only the host could go on before its turn, so that it has come closer to its end in it.
    rename_i hbefore
    unfold canGoOn at hbefore
    rw [hidle, Bool.not_true, Bool.or_false] at hbefore
    have hcloser : run.2.left < job.left :=
      left_run_lt_of_waitsUntil (Option.isNone_iff_eq_none.mp hbefore) hwaits
    omega
  · -- Nobody could, and now somebody can.
    omega

/-- A round of turns brings the host nearer, after a turn of it. -/
theorem distance_runReady_lt (setting : Setting) (h : shop.Orderly) (job : Job)
    (hready : shop.pool.ready ≠ []) :
    let run := job.run setting shop.shared
    let later : Workshop := { shop with shared := run.1 }
    distance (later.runReady (Job.routine setting)) run.2 < shop.distance job := by
  intro run later
  have hlater : later.Orderly := h.later (job.runFor_precedes setting _ job.work)
  have hhost : run.2.left ≤ job.left := Job.left_runFor_le _
  have hfalls : left (later.runReady (Job.routine setting)) < shop.left :=
    (runReady_spec setting hlater hready).2
  unfold distance
  split <;> split <;> omega

/-- Each round brings the host nearer, so that enough of them bring it to its result. -/
theorem isSome_awaitFor {fuel : Nat} {job : Job} (h : shop.Orderly)
    (hfuel : shop.distance job < fuel) :
    (Schedule.awaitFor (Job.routine setting) (hostTurn setting) fuel shop job).2.isSome := by
  induction fuel generalizing shop job with
  | zero => exact absurd hfuel (Nat.not_lt_zero _)
  | succ fuel ih =>
    have hnear := Nat.le_of_lt_succ hfuel
    unfold Schedule.awaitFor
    rcases hostTurn_cases setting shop job with ⟨due, hwaits, hturn⟩ | ⟨-, hturn⟩
    · let later : Workshop := { shop with shared := (job.run setting shop.shared).1 }
      have hlater : later.Orderly := h.later (job.runFor_precedes setting _ job.work)
      -- A host that waits does so in a view that has not ended, which wakes nobody up.
      have hlive : later.shared.ended = false := Job.ended_of_waitsUntil hwaits
      have hawake : later.wakeInterrupted (Job.routine setting) = later :=
        if_neg (Bool.eq_false_iff.mp hlive)
      rw [hturn]
      dsimp only
      rw [hawake]
      split
      · rename_i hidle
        split
        · rename_i hnever
          exact absurd hnever (Schedule.earlier_ne_none due _)
        · rename_i time htime
          have hlt := distance_advanceTo_lt setting h hidle hwaits htime
          exact ih (advanceTo_spec setting hlater time).1 (Nat.lt_of_lt_of_le hlt hnear)
      · rename_i hbusy
        have hready : shop.pool.ready ≠ [] := mt List.isEmpty_iff.mpr hbusy
        have hlt := distance_runReady_lt setting h job hready
        exact ih (runReady_spec setting hlater hready).1 (Nat.lt_of_lt_of_le hlt hnear)
    · rw [hturn]
      rfl

/-- **A host that waits for a job gets its result**, whatever else is under way. -/
theorem isSome_runJob (h : shop.Orderly) (job : Job) : (shop.runJob setting job).2.isSome := by
  have hleft := left_le_work setting shop
  have hjob := job.left_le_work
  rw [runJob_eq, Schedule.await]
  refine isSome_awaitFor h ?_
  unfold distance
  split <;> omega

/-! ### The background comes to rest -/

/-- How far the background is from its end.  A round takes a task closer to its end, or the clock to
a time at which one can go on. -/
def unrest (shop : Workshop) : Nat :=
  2 * shop.left + if shop.pool.ready.isEmpty then 1 else 0

theorem unrest_wakeInterrupted_le (setting : Setting) (shop : Workshop) :
    unrest (shop.wakeInterrupted (Job.routine setting)) ≤ shop.unrest := by
  unfold Schedule.wakeInterrupted
  split
  · have hleft := left_wake shop fun _ => true
    unfold unrest
    rw [hleft]
    -- Waking tasks up leaves those ready that were.
    cases hready : shop.pool.ready with
    | nil => split <;> simp
    | cons task ready => simp [TaskPool.wake, hready]
  · exact Nat.le_refl _

/-- Where nobody waits for a time and nobody is ready there is no task. -/
theorem tasks_of_earliest (hidle : shop.pool.ready.isEmpty = true)
    (hearliest : shop.pool.earliest = none) : shop.pool.tasks = [] := by
  have hwaiting : shop.pool.waiting = [] :=
    List.map_eq_nil_iff.mp (List.min?_eq_none_iff.mp hearliest)
  unfold TaskPool.tasks
  rw [List.isEmpty_iff.mp hidle, hwaiting]
  rfl

/-- Each round brings the background nearer to its end, so that enough of them bring it there. -/
theorem tasks_awaitFor {fuel : Nat} (h : shop.Orderly) (hfuel : shop.unrest < fuel) :
    let idle (shop : Workshop) (_ : Unit) : Workshop × Schedule.Turn Unit Unit :=
      (shop, .waiting none ())
    (Schedule.awaitFor (Job.routine setting) idle fuel shop ()).1.pool.tasks = [] := by
  intro idle
  induction fuel generalizing shop with
  | zero => exact absurd hfuel (Nat.not_lt_zero _)
  | succ fuel ih =>
    have hnear := Nat.le_of_lt_succ hfuel
    have hwoken := (wakeInterrupted_spec setting h).1
    have hwake := unrest_wakeInterrupted_le setting shop
    unfold Schedule.awaitFor
    dsimp only [idle]
    split
    · rename_i hidle
      split
      · rename_i hnever
        exact tasks_of_earliest hidle hnever
      · rename_i time htime
        obtain ⟨hlater, hsame⟩ := advanceTo_spec setting hwoken time
        have hready := ready_advanceTo setting htime
        refine ih hlater ?_
        unfold unrest at hnear hwake ⊢
        rw [hsame, hready]
        rw [hidle] at hwake
        simp only [Bool.false_eq_true, if_false, if_true] at hwake ⊢
        omega
    · rename_i hbusy
      obtain ⟨hlater, hfalls⟩ := runReady_spec setting hwoken (mt List.isEmpty_iff.mpr hbusy)
      refine ih hlater ?_
      unfold unrest at hnear hwake ⊢
      split <;> omega

/-- **Background work that is waited for comes to its end**: no task is left. -/
theorem tasks_drain (setting : Setting) (h : shop.Orderly) :
    (shop.drain (Job.routine setting)).pool.tasks = [] := by
  have hleft := left_le_work setting shop
  refine tasks_awaitFor h ?_
  unfold unrest
  split <;> omega

/-! ### The calls of a host -/

namespace Orderly

/-- The tasks that a pool stops are no longer waited for. -/
theorem of_subset (h : shop.Orderly) {pool : TaskPool Job} (hready : pool.ready ⊆ shop.pool.ready)
    (hwaiting : pool.waiting ⊆ shop.pool.waiting) : Orderly { shop with pool } :=
  ⟨fun task htask => h.ready task (hready htask), fun task htask => h.waiting task (hwaiting htask)⟩

/-- A job that has not taken a step can take its first one. -/
theorem spawn (h : shop.Orderly) (key : String) {job : Job} (hfresh : job.Fresh) :
    Orderly { shop with pool := shop.pool.spawn key job } := by
  have hcancel : Orderly { shop with pool := shop.pool.cancel key } := by
    unfold TaskPool.cancel
    split
    · exact h
    · exact h.of_subset List.filter_sublist.subset List.filter_sublist.subset
  refine ⟨?_, hcancel.waiting⟩
  intro task htask
  rcases List.mem_append.mp htask with hold | hnew
  · exact hcancel.ready task hold
  · obtain rfl := List.mem_singleton.mp hnew
    show job.waitsUntil shop.shared = none
    rw [Job.waitsUntil_eq, hfresh.call?]
    rfl

theorem take (h : shop.Orderly) : Orderly shop.take.1 := by
  unfold Schedule.take
  split
  · exact h
  · exact ⟨h.ready, h.waiting⟩

/-- Waiting keeps order, when what the host does meanwhile does. -/
theorem awaitFor {φ ρ : Type} {poll : Workshop → φ → Workshop × Schedule.Turn φ ρ}
    (hpoll : ∀ shop host, Orderly shop → Orderly (poll shop host).1) (h : shop.Orderly) (fuel : Nat)
    (host : φ) :
    Orderly (Schedule.awaitFor (Job.routine setting) poll fuel shop host).1 := by
  refine Schedule.awaitFor_keeps (fun shop _ => Orderly shop)
    (fun shop _ => Orderly shop) (fun shop host h => (wakeInterrupted_spec setting h).1)
    (fun shop host time h => (advanceTo_spec setting h time).1)
    (fun shop host h => (runReadyFor_spec setting h _).1)
    (fun shop host h => h) (fun shop host later result h heq => ?_)
    (fun shop host later due rest h heq => ?_) fuel h
  · have hlater := hpoll shop host h
    rw [heq] at hlater
    exact (wakeInterrupted_spec setting hlater).1
  · have hlater := hpoll shop host h
    rwa [heq] at hlater

theorem runJob (h : shop.Orderly) (job : Job) : Orderly (shop.runJob setting job).1 := by
  rw [runJob_eq]
  refine h.awaitFor (fun shop job h => ?_) _ job
  have hlater := h.later (job.runFor_precedes setting _ job.work)
  rcases hostTurn_cases setting shop job with ⟨due, -, hturn⟩ | ⟨-, hturn⟩ <;>
  · rw [hturn]
    exact hlater

end Orderly

end Workshop

namespace Session

/-- Every call of a host keeps order. -/
theorem HostCall.orderly {before after : View} (h : HostCall before after)
    (horderly : before.shop.Orderly) : after.shop.Orderly := by
  cases h with
  | set path value => exact horderly.later ⟨id, Nat.le_refl _⟩
  | mount =>
    by_cases hcan : before.canMount = true
    · rw [fst_mount hcan]
      exact horderly.runJob _
    · rw [View.mount, if_neg hcan]
      exact horderly
  | spawnMount =>
    unfold View.spawnMount
    split
    · exact horderly.spawn _ (.queue _ _)
    · exact horderly
  | fire handler event =>
    unfold View.fire
    split
    · exact horderly
    · exact horderly.spawn _ (.handler _ _)
  | fireAndWait handler payload =>
    rw [fst_fireAndWait]
    exact horderly.runJob _
  | dispatch action event =>
    rw [fst_dispatch]
    exact horderly.runJob _
  | runFetches specs abort =>
    rw [fst_runFetches]
    exact horderly.runJob _
  | sleep millis => exact horderly.awaitFor (fun shop host h => h) _ _
  | settle => exact horderly.awaitFor (fun shop host h => h) _ _
  | tryCompletion => exact horderly.take
  | nextCompletion =>
    unfold View.nextCompletion Schedule.receive
    refine horderly.awaitFor (fun shop host h => ?_) _ ()
    have htake := h.take
    split
    · rename_i later output heq
      rwa [heq] at htake
    · rename_i later heq
      rwa [heq] at htake
  | unmount =>
    have hends : before.shop.shared.Precedes before.world.finish :=
      ⟨fun _ => rfl, Nat.le_refl _⟩
    refine (horderly.later hends).of_subset ?_ ?_
    · rw [TaskPool.cancelAll_eq]
      exact List.filter_subset_self _
    · rw [TaskPool.cancelAll_eq]
      exact List.filter_subset_self _

theorem orderly_of_calls {root : Node} {components : Components} {setting : Setting}
    {transport : Script} {view : View}
    (h : Relation.ReflTransGen HostCall (View.create root components setting transport) view) :
    view.shop.Orderly := by
  induction h with
  | refl => exact ⟨fun _ h => absurd h List.not_mem_nil, fun _ h => absurd h List.not_mem_nil⟩
  | tail _ hcall ih => exact hcall.orderly ih

/-- **Nothing that a host waits for is stuck**: after any calls, every job ends that it takes to its
end. -/
theorem isSome_runJob_of_calls {root : Node} {components : Components} {setting : Setting}
    {transport : Script} {view : View}
    (h : Relation.ReflTransGen HostCall (View.create root components setting transport) view)
    (job : Job) : (view.runJob job).2.isSome :=
  Workshop.isSome_runJob (orderly_of_calls h) job

/-- **Nothing in the background is stuck**: after any calls, no task is left once the host has
waited for the background. -/
theorem tasks_settle_of_calls {root : Node} {components : Components} {setting : Setting}
    {transport : Script} {view : View}
    (h : Relation.ReflTransGen HostCall (View.create root components setting transport) view) :
    view.settle.shop.pool.tasks = [] :=
  Workshop.tasks_drain view.setting (orderly_of_calls h)

end Session

end ViewTree
