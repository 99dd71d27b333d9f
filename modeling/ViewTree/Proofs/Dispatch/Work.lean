import ViewTree.Proofs.Dispatch.Effect

/-!
# How much work is left

Every step takes a job closer to its end, whatever world it finds: `Job.left` counts the steps that
are left at most, and `Job.left_step` says that it falls.  It is within the bound that a run is
given (`Job.left_le_work`), so that a run ends only where the job does or where it waits
(`Job.run_ends`).
-/

namespace ViewTree

theorem total_le_total {α : Type} {f g : α → Nat} (h : ∀ a, f a ≤ g a) (as : List α) :
    total f as ≤ total g as := by
  induction as with
  | nil => exact Nat.le_refl _
  | cons a as ih => exact Nat.add_le_add (h a) ih

/-! ### Actions -/

namespace Action

variable {setting : Setting} {world : World} {event : Option Json} {action next : Action}
  {status : Status}

theorem depth_eq (action : Action) :
    action.depth = max (action.onSuccess.elim 0 depth) (action.onError.elim 0 depth) + 1 := by
  obtain ⟨kind, target, params, onSuccess, onError⟩ := action
  cases onSuccess <;> cases onError <;> simp [depth]

theorem depth_pos (action : Action) : 0 < action.depth := by
  rw [depth_eq]
  omega

theorem depth_onSuccess (h : action.onSuccess = some next) : next.depth < action.depth := by
  rw [action.depth_eq, h, Option.elim_some]
  omega

theorem depth_onError (h : action.onError = some next) : next.depth < action.depth := by
  rw [action.depth_eq, h, Option.elim_some]
  omega

/-- A submission stands for a call with the same continuations. -/
theorem depth_submitCall (target : String) (body : Option Json) :
    (action.submitCall target body).depth = action.depth := by
  rw [depth_eq, depth_eq action]
  rfl

/-- What follows an action is deeper down, except that a submission is followed by its call. -/
theorem next_cases (h : action.next world status = some next) :
    next.depth < action.depth ∧ action.kind = .api ∨
      next.depth = action.depth ∧ action.kind = .submit ∧ next.kind = .api := by
  unfold Action.next at h
  split at h
  · rename_i hkind
    exact .inl ⟨depth_onSuccess h, hkind⟩
  · rename_i hkind
    exact .inl ⟨depth_onError h, hkind⟩
  · rename_i hkind
    obtain ⟨target, -, rfl⟩ := Option.map_eq_some_iff.mp h
    exact .inr ⟨depth_submitCall _ _, hkind, rfl⟩
  · exact absurd h (by simp)

/-- How many steps a chain can take from an action at most: a submission turns into a call, a call
starts and settles. -/
def steps (action : Action) : Nat :=
  match action.kind with
  | .submit => 3 * action.depth
  | _ => 3 * action.depth - 1

theorem steps_le (action : Action) : action.steps ≤ 3 * action.depth := by
  unfold steps
  split <;> omega

theorem le_steps (action : Action) : 3 * action.depth - 1 ≤ action.steps := by
  unfold steps
  split <;> omega

/-- Fewer steps are left after an action that has settled as it started. -/
theorem steps_next : (action.next world status).elim 0 steps < action.steps := by
  have hpos := action.depth_pos
  have hle := action.le_steps
  cases h : action.next world status with
  | none =>
    rw [Option.elim_none]
    omega
  | some next =>
    rw [Option.elim_some]
    rcases next_cases h with ⟨hdepth, -⟩ | ⟨hdepth, hkind, hnext⟩
    · have := next.steps_le
      omega
    · -- A submission gives way to a call that is as deep, and the call has one step less.
      simp only [steps, hkind, hnext]
      omega

/-- The continuations of an action are deeper down. -/
theorem steps_continuation (action : Action) (outcome : Outcome) :
    (action.continuation outcome).elim 0 steps < 3 * action.depth - 2 := by
  have hpos := action.depth_pos
  cases h : action.continuation outcome with
  | none =>
    rw [Option.elim_none]
    omega
  | some next =>
    have hdepth : next.depth < action.depth := by
      cases outcome with
      | succeeded => exact depth_onSuccess h
      | failed => exact depth_onError h
      | cancelled => exact absurd h (by simp [continuation])
    have := next.steps_le
    rw [Option.elim_some]
    omega

end Action

/-! ### Chains -/

namespace Chain

/-- How many steps a chain has left at most. -/
def left (chain : Chain) : Nat :=
  match chain.stage with
  | .ready action => action.steps
  | .calling action _ => 3 * action.depth - 2
  | .done => 0

variable {setting : Setting} {world : World} {chain : Chain}

theorem left_settle {action : Action} {status : Status} {next : Option Action} :
    (chain.settle world action status next).2.left = next.elim 0 Action.steps := by
  cases next with
  | none => rfl
  | some next => rfl

theorem left_step (setting : Setting) (world : World) (h : chain.isDone = false) :
    (chain.step setting world).2.left < chain.left := by
  obtain ⟨event, stage, links⟩ := chain
  cases stage with
  | ready action =>
    have hpos := action.depth_pos
    have hle := action.le_steps
    show _ < action.steps
    cases hended : world.ended with
    | true =>
      rw [step_ended rfl hended, left_settle, Option.elim_none]
      omega
    | false =>
      rw [step_ready rfl hended, runAction_eq]
      dsimp only
      cases hopens : (action.effect setting world event).opens? with
      | none =>
        rw [left_settle]
        exact Action.steps_next
      | some call =>
        show 3 * action.depth - 2 < action.steps
        omega
  | calling action call =>
    rw [step_calling rfl, left_settle]
    exact action.steps_continuation _
  | done => exact absurd h (by simp [isDone])

theorem left_le_work (chain : Chain) : chain.left ≤ chain.work := by
  obtain ⟨event, stage, links⟩ := chain
  cases stage with
  | ready action => exact action.steps_le
  | calling action call => exact Nat.sub_le _ _
  | done => exact Nat.le_refl _

end Chain

/-! ### Handlers -/

namespace HandlerRun

/-- How many steps a handler has left at most: each chain has to be taken up and put down. -/
def left (run : HandlerRun) : Nat :=
  run.current.elim 0 (fun chain => chain.left + 1)
    + total (fun action => action.steps + 2) run.pending

variable {setting : Setting} {world : World} {run : HandlerRun}

theorem left_step (setting : Setting) (world : World) (h : run.isDone = false) :
    (run.step setting world).2.left < run.left := by
  obtain ⟨event, payload, pending, current, reports⟩ := run
  cases current with
  | some chain =>
    cases hdone : chain.isDone with
    | true =>
      simp only [step, hdone, if_true, left, Option.elim_none, Option.elim_some]
      omega
    | false =>
      have hfalls := Chain.left_step setting world hdone
      simp only [step, hdone, Bool.false_eq_true, if_false, left, Option.elim_some]
      omega
  | none =>
    cases pending with
    | nil => exact absurd h (by simp [isDone])
    | cons action pending =>
      show action.steps + 1 + total _ pending < 0 + (action.steps + 2 + total _ pending)
      omega

theorem left_le_work (run : HandlerRun) : run.left ≤ run.work := by
  obtain ⟨event, payload, pending, current, reports⟩ := run
  have hpending := total_le_total (fun action : Action => Nat.add_le_add_right action.steps_le 2)
    pending
  cases current with
  | none => exact Nat.add_le_add_left hpending 0
  | some chain => exact Nat.add_le_add (Nat.add_le_add_right chain.left_le_work 1) hpending

end HandlerRun

/-! ### Loads -/

/-- How many steps the action that follows a load can take at most, with the one that puts it
down. -/
def FetchSpec.followingSteps (spec : FetchSpec) : Nat :=
  max (spec.onSuccess.elim 0 fun action => action.steps + 1)
    (spec.onError.elim 0 fun action => action.steps + 1)

theorem FetchSpec.steps_continuation (spec : FetchSpec) (outcome : Outcome) :
    (spec.continuation outcome).elim 0 (fun action => action.steps + 1) ≤ spec.followingSteps := by
  unfold followingSteps
  cases outcome with
  | succeeded => exact Nat.le_max_left _ _
  | failed => exact Nat.le_max_right _ _
  | cancelled => exact Nat.zero_le _

/-- The work of a load covers its start, its end and what follows. -/
theorem FetchSpec.followingSteps_le (spec : FetchSpec) :
    spec.followingSteps + 2 ≤ spec.work := by
  have hle : ∀ next : Option Action, (next.elim 0 fun action => action.steps + 1)
      ≤ ((next.map fun action => 3 * action.depth + 1).getD 0) := by
    intro next
    cases next with
    | none => exact Nat.le_refl _
    | some action => exact Nat.add_le_add_right action.steps_le 1
  have hsuccess := hle spec.onSuccess
  have herror := hle spec.onError
  unfold followingSteps work
  omega

namespace QueueRun

/-- How many steps a queue has left at most. -/
def left (run : QueueRun) : Nat :=
  (match run.current with
    | some (.calling spec _) => spec.followingSteps + 1
    | some (.following _ _ chain) => chain.left + 1
    | none => 0)
  + total (fun spec => spec.followingSteps + 2) run.pending

variable {setting : Setting} {world : World} {run : QueueRun} {spec : FetchSpec}

theorem left_close_le (record : FetchRecord) :
    (run.close world record).left ≤ total (fun spec => spec.followingSteps + 2) run.pending := by
  unfold close
  dsimp only
  split
  · exact Nat.zero_le _
  · exact Nat.le_of_eq (Nat.zero_add _)

theorem left_settle_le (outcome : Outcome) : (run.settle world spec outcome).2.left
    ≤ spec.followingSteps + total (fun spec => spec.followingSteps + 2) run.pending := by
  have hle := spec.steps_continuation outcome
  unfold settle
  dsimp only
  split
  · rename_i action hnext
    rw [hnext, Option.elim_some] at hle
    exact Nat.add_le_add_right hle _
  · exact Nat.le_trans (left_close_le _) (Nat.le_add_left _ _)

theorem left_step (setting : Setting) (world : World) (h : run.isDone = false) :
    (run.step setting world).2.left < run.left := by
  obtain ⟨abort, pending, current, records⟩ := run
  let others := total fun spec : FetchSpec => spec.followingSteps + 2
  cases current with
  | some stage =>
    cases stage with
    | calling spec call =>
      simp only [step]
      refine Nat.lt_of_le_of_lt (left_settle_le _) ?_
      show spec.followingSteps + others pending < spec.followingSteps + 1 + others pending
      omega
    | following spec status chain =>
      show _ < chain.left + 1 + others pending
      cases hdone : chain.isDone with
      | true =>
        simp only [step, hdone, if_true]
        refine Nat.lt_of_le_of_lt (left_close_le _) ?_
        show others pending < chain.left + 1 + others pending
        omega
      | false =>
        have hfalls := Chain.left_step setting world hdone
        simp only [step, hdone, Bool.false_eq_true, if_false, left]
        exact Nat.add_lt_add_right (Nat.succ_lt_succ hfalls) (others pending)
  | none =>
    cases pending with
    | nil => exact absurd h (by simp [isDone])
    | cons spec pending =>
      show _ < 0 + (spec.followingSteps + 2 + others pending)
      simp only [step, startFetch]
      cases hended : world.ended with
      | true =>
        rw [if_pos rfl]
        refine Nat.lt_of_le_of_lt (left_close_le _) ?_
        show others pending < 0 + (spec.followingSteps + 2 + others pending)
        omega
      | false =>
        -- The load starts, and what follows it is still to come even if it fails at once.
        simp only [Bool.false_eq_true, if_false, CallPlan.startCall_eq]
        cases (spec.callPlan.effect setting world).opens? with
        | some call =>
          show spec.followingSteps + 1 + others pending
            < 0 + (spec.followingSteps + 2 + others pending)
          omega
        | none =>
          refine Nat.lt_of_le_of_lt (left_settle_le _) ?_
          show spec.followingSteps + others pending
            < 0 + (spec.followingSteps + 2 + others pending)
          omega

theorem left_le_work (run : QueueRun) : run.left ≤ run.work := by
  obtain ⟨abort, pending, current, records⟩ := run
  have hpending := total_le_total FetchSpec.followingSteps_le pending
  cases current with
  | none => exact Nat.add_le_add_left hpending 0
  | some stage =>
    cases stage with
    | calling spec call =>
      have := spec.followingSteps_le
      exact Nat.add_le_add (show spec.followingSteps + 1 ≤ spec.work by omega) hpending
    | following spec status chain =>
      exact Nat.add_le_add (Nat.add_le_add_right chain.left_le_work 1) hpending

end QueueRun

/-! ### Jobs -/

namespace Job

/-- How many steps a job has left at most. -/
def left : Job → Nat
  | chain run => run.left
  | handler run => run.left
  | queue run => run.left

variable {setting : Setting} {world : World} {job : Job}

/-- **Every step takes a job closer to its end.** -/
theorem left_step (setting : Setting) (world : World) (h : job.isDone = false) :
    (job.step setting world).2.left < job.left := by
  cases job with
  | chain run => exact run.left_step setting world h
  | handler run => exact run.left_step setting world h
  | queue run => exact run.left_step setting world h

theorem left_of_isDone (h : job.isDone = true) : job.left = 0 := by
  cases job with
  | chain run =>
    show run.left = 0
    rw [Chain.left, Chain.stage_of_isDone h]
  | handler run =>
    obtain ⟨hcurrent, hpending⟩ := HandlerRun.idle_of_isDone h
    show run.left = 0
    rw [HandlerRun.left, hcurrent, hpending]
    rfl
  | queue run =>
    obtain ⟨hcurrent, hpending⟩ := QueueRun.idle_of_isDone h
    show run.left = 0
    rw [QueueRun.left, hcurrent, hpending]
    rfl

theorem left_le_work (job : Job) : job.left ≤ job.work := by
  cases job with
  | chain run => exact run.left_le_work
  | handler run => exact run.left_le_work
  | queue run => exact run.left_le_work

theorem runFor_ends {fuel : Nat} (h : job.left ≤ fuel) :
    (runFor setting fuel world job).2.isDone = true ∨
      ((runFor setting fuel world job).2.waitsUntil (runFor setting fuel world job).1).isSome := by
  induction fuel generalizing world job with
  | zero =>
    by_cases hdone : job.isDone = true
    · exact .inl hdone
    · have hfalls := left_step setting world (Bool.eq_false_iff.mpr hdone)
      omega
  | succ fuel ih =>
    unfold runFor
    by_cases hstops : (job.isDone || (job.waitsUntil world).isSome) = true
    · rw [if_pos hstops]
      exact Bool.or_eq_true_iff.mp hstops
    · rw [if_neg hstops]
      have hdone : job.isDone = false := by
        rw [Bool.or_eq_true_iff, not_or] at hstops
        exact Bool.eq_false_iff.mpr hstops.1
      have hleft := left_step setting world hdone
      exact ih (Nat.le_of_lt_succ (Nat.lt_of_lt_of_le hleft h))

/-- **A run goes on until the job ends or waits**: it is never cut short. -/
theorem run_ends (setting : Setting) (world : World) (job : Job) :
    (job.run setting world).2.isDone = true ∨
      ((job.run setting world).2.waitsUntil (job.run setting world).1).isSome :=
  runFor_ends job.left_le_work

end Job

end ViewTree
