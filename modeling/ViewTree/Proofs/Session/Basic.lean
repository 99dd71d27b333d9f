import Mathlib.Data.List.Perm.Subperm
import ViewTree.Proofs.Dispatch.Effect
import ViewTree.Proofs.Tasks.Basic
import ViewTree.View

/-!
# Sessions

A session is a view with the jobs its host waits for.  Its host and its jobs take turns in any
order: a `Move` is one thing the host does, one step of one job, or something that happens outside,
and a `Run` is any sequence of moves, each labelled with its `Deed`.  A reply may come at any time,
which covers every latency.

`Move.cases` says what a move can do to the world and to the calls in flight; what holds of every
run is derived from it.  The calls through which a host works with a view are runs, which
`Proofs/Session/Host` shows.
-/

namespace ViewTree

/-! ### Moves -/

/-- A view at work. -/
structure Session where
  view : View
  /-- The jobs that the host waits for. -/
  hosted : List Job := []

/-- What is done in a move. -/
inductive Deed where
  /-- The host writes a value to the state. -/
  | wrote (path : String) (value : Json)
  /-- A job takes a step with this effect, which settles these links. -/
  | worked (effect : Effect) (links : List LinkReport)
  /-- A job begins, which the host waits for or which runs under a key in the background. -/
  | began (key : Option String) (job : Job)
  /-- A job in the background has ended. -/
  | completed (completion : Completion)
  /-- Nothing that concerns the state, the jobs or the host. -/
  | quiet

namespace Deed

/-- The write of a deed of the host. -/
def write? : Deed → Option (String × Json)
  | wrote path value => some (path, value)
  | _ => none

/-- The effect of a deed of a job. -/
def effect? : Deed → Option Effect
  | worked effect _ => some effect
  | _ => none

end Deed

theorem filterMap_concat {α β : Type} (f : α → Option β) (as : List α) (a : α) :
    (as ++ [a]).filterMap f = as.filterMap f ++ (f a).toList := by
  rw [List.filterMap_append]
  cases h : f a <;> simp [h]

/-- A job that has not taken a step. -/
inductive Job.Fresh : Job → Prop
  | chain (action : Action) (event : Option Json) : Job.Fresh (.chain (.start action event))
  | handler (handler : Handler) (payload : Json) : Job.Fresh (.handler (.start handler payload))
  | queue (specs : List FetchSpec) (abort : Bool) : Job.Fresh (.queue (.start specs abort))

/-- A job that has not taken a step has no call in flight. -/
theorem Job.Fresh.call? {job : Job} (h : job.Fresh) : job.call? = none := by
  cases h <;> rfl

/-- A view in another world. -/
def View.inWorld (view : View) (world : World) : View :=
  { view with shop := { view.shop with shared := world } }

/-- A view with other tasks. -/
def View.withPool (view : View) (pool : TaskPool Job) : View :=
  { view with shop := { view.shop with pool } }

namespace Session

/-- A view that has just been created. -/
def create (root : Node) (components : Components) (setting : Setting) (transport : Script) :
    Session :=
  { view := .create root components setting transport }

def world (s : Session) : World := s.view.world

def setting (s : Session) : Setting := s.view.setting

/-- The jobs under way. -/
def jobs (s : Session) : List Job := s.hosted ++ s.view.shop.pool.tasks.map Prod.snd

/-- The calls in flight. -/
def calls (s : Session) : List Call := s.jobs.filterMap Job.call?

/-- What the next step of a job does. -/
def worked (s : Session) (job : Job) : Deed :=
  .worked (job.effect s.setting s.world) (job.news s.setting s.world)

/-- The moves of a session.  A call of the host that would change nothing is no move. -/
inductive Move : Session → Deed → Session → Prop
  /-- The host writes to the state. -/
  | write {s : Session} (path : String) (value : Json) :
    Move s (.wrote path value) { s with view := s.view.set path value }
  /-- The host starts a job and waits for it. -/
  | start {s : Session} {job : Job} : job.Fresh →
    Move s (.began none job) { s with hosted := s.hosted ++ [job] }
  /-- The host mounts the view and waits for its loads. -/
  | mount {s : Session} : s.view.canMount = true →
    Move s (.began none s.view.mountJob)
      { view := { s.view with mounted := true }, hosted := s.hosted ++ [s.view.mountJob] }
  /-- The host mounts the view. -/
  | spawnMount {s : Session} : s.view.canMount = true →
    Move s (.began (some "mount") s.view.mountJob) { s with view := s.view.spawnMount.1 }
  /-- The host fires a handler. -/
  | fire {s : Session} (handler : Handler) (event : UiEvent) : s.view.isEnded = false →
    Move s (.began (some ("event-" ++ toString (s.view.fired + 1)))
        (.handler (.start handler event.payload)))
      { s with view := s.view.fire handler event }
  /-- The host unmounts the view. -/
  | unmount {s : Session} : Move s .quiet { s with view := s.view.unmount }
  /-- The host takes a completion. -/
  | take {s : Session} : Move s .quiet { s with view := s.view.tryCompletion.1 }
  /-- Time passes. -/
  | wait {s : Session} {time : Nat} : s.world.now ≤ time →
    Move s .quiet { s with view := s.view.inWorld { s.world with now := time } }
  /-- The remote changes its mind about the answers to come. -/
  | answers {s : Session} (routes : List Route) (fallback : Reply) (latency : Nat) :
    Move s .quiet { s with view := s.view.inWorld { s.world with
      transport := { s.world.transport with routes, fallback, latency } } }
  /-- A job that the host waits for takes a step. -/
  | work {s : Session} {job : Job} {before after : List Job} : s.hosted = before ++ job :: after →
    Move s (s.worked job)
      { view := s.view.inWorld (job.step s.setting s.world).1
        hosted := before ++ (job.step s.setting s.world).2 :: after }
  /-- A job that the host waits for has ended. -/
  | leave {s : Session} {job : Job} {before after : List Job} : s.hosted = before ++ job :: after →
    job.isDone = true → Move s .quiet { s with hosted := before ++ after }
  /-- A job in the background takes a step. -/
  | workBehind {s : Session} {job : Job} {id : Nat} {pool : TaskPool Job} :
    s.view.shop.pool.Swap pool [(id, job)] [(id, (job.step s.setting s.world).2)] →
    Move s (s.worked job)
      { s with view := (s.view.inWorld (job.step s.setting s.world).1).withPool pool }
  /-- A job in the background has ended. -/
  | complete {s : Session} {job : Job} {id : Nat} {pool : TaskPool Job} :
    s.view.shop.pool.Swap pool [(id, job)] [] → job.isDone = true →
    Move s (.completed job.completion)
      { s with view := { s.view with
          shop := { s.view.shop with pool, outputs := s.view.shop.outputs ++ [job.completion] } } }
  /-- Jobs in the background fall asleep, wake up or trade places. -/
  | rearrange {s : Session} {pool : TaskPool Job} : s.view.shop.pool.Swap pool [] [] →
    Move s .quiet { s with view := s.view.withPool pool }

/-- The runs of a session. -/
inductive Run (s : Session) : List Deed → Session → Prop
  | nil : Run s [] s
  | snoc {deeds : List Deed} {deed : Deed} {t u : Session} : Run s deeds t → Move t deed u →
    Run s (deeds ++ [deed]) u

/-- The step of a job that the host waits for, the others named. -/
theorem Move.workAmong (view : View) (before : List Job) (job : Job) (after : List Job) :
    let step := job.step view.setting view.world
    Move ⟨view, before ++ job :: after⟩ (worked ⟨view, []⟩ job)
      ⟨view.inWorld step.1, before ++ step.2 :: after⟩ :=
  .work rfl

/-! ### What a move can do -/

/-- What stays as it is while neither the host writes nor a job takes a step. -/
structure Kept (world later : World) : Prop where
  store : later.store = world.store
  visits : later.visits = world.visits
  requests : later.transport.requests = world.transport.requests
  ended : world.ended = true → later.ended = true

theorem Kept.rfl {world : World} : Kept world world := ⟨.refl _, .refl _, .refl _, id⟩

section

variable {s t : Session} {deed : Deed}

theorem calls_eq : s.calls = s.hosted.filterMap Job.call?
    ++ s.view.shop.pool.tasks.filterMap (Job.call? ∘ Prod.snd) := by
  rw [calls, jobs, List.filterMap_append, List.filterMap_map]

theorem cancel_sublist (pool : TaskPool Job) (key : String) :
    (pool.cancel key).tasks.Sublist pool.tasks := by
  unfold TaskPool.cancel
  split
  · exact .refl _
  · exact List.filter_sublist.append (List.filter_sublist.map _)

/-- Starting a job under a key starts no call. -/
theorem calls_spawn_eq (pool : TaskPool Job) (key : String) {job : Job} (h : job.call? = none) :
    (pool.spawn key job).tasks.filterMap (Job.call? ∘ Prod.snd)
      = (pool.cancel key).tasks.filterMap (Job.call? ∘ Prod.snd) := by
  simp [TaskPool.spawn, TaskPool.prune, TaskPool.tasks, h]

/-- Starting a job under a key may stop the one that was there. -/
theorem calls_spawn (pool : TaskPool Job) (key : String) {job : Job} (h : job.call? = none) :
    ((pool.spawn key job).tasks.filterMap (Job.call? ∘ Prod.snd)).Sublist
      (pool.tasks.filterMap (Job.call? ∘ Prod.snd)) := by
  rw [calls_spawn_eq pool key h]
  exact (cancel_sublist pool key).filterMap _

/-- The calls of some jobs, one of them set apart. -/
theorem perm_filterMap_call? {α : Type} (call? : α → Option Call) {items rest : List α} {item : α}
    (h : items.Perm (item :: rest)) :
    (items.filterMap call?).Perm ((call? item).toList ++ rest.filterMap call?) := by
  refine (h.filterMap call?).trans (.of_eq ?_)
  rw [List.filterMap_cons]
  cases call? item <;> rfl

theorem calls_task (id : Nat) (job : Job) :
    [(id, job)].filterMap (Job.call? ∘ Prod.snd) = job.call?.toList := by
  cases h : job.call? <;> simp [h]

/-- The calls of the tasks that some have given way to. -/
theorem exists_perm_of_swap {before after : TaskPool Job} {removed added : List (Nat × Job)}
    (h : before.Swap after removed added) (calls : List Call) :
    ∃ rest,
      (calls ++ before.tasks.filterMap (Job.call? ∘ Prod.snd)).Perm
        (removed.filterMap (Job.call? ∘ Prod.snd) ++ rest) ∧
      (calls ++ after.tasks.filterMap (Job.call? ∘ Prod.snd)).Perm
        (added.filterMap (Job.call? ∘ Prod.snd) ++ rest) := by
  obtain ⟨rest, hbefore, hafter⟩ := h.tasks
  refine ⟨calls ++ rest.filterMap (Job.call? ∘ Prod.snd), ?_, ?_⟩
  · refine ((hbefore.filterMap _).append_left calls).trans ?_
    rw [List.filterMap_append]
    exact List.perm_append_comm_assoc _ _ _
  · refine ((hafter.filterMap _).append_left calls).trans ?_
    rw [List.filterMap_append]
    exact List.perm_append_comm_assoc _ _ _

/-- A job that has just begun has no call in flight. -/
theorem calls_of_fresh (s : Session) {job : Job} (h : job.Fresh) (view : View)
    (hpool : view.shop.pool = s.view.shop.pool) :
    Session.calls ⟨view, s.hosted ++ [job]⟩ = s.calls := by
  rw [calls_eq, calls_eq, hpool, List.filterMap_append]
  simp [h.call?]

/-- The calls in flight when one of the jobs that the host waits for is set apart. -/
theorem calls_of_hosted (view : View) (before : List Job) (job : Job) (after : List Job) :
    (Session.calls ⟨view, before ++ job :: after⟩).Perm
      (job.call?.toList ++ ((before ++ after).filterMap Job.call?
        ++ view.shop.pool.tasks.filterMap (Job.call? ∘ Prod.snd))) := by
  rw [calls_eq, ← List.append_assoc]
  exact (perm_filterMap_call? _ List.perm_middle).append_right _

/-- The calls in flight when the background takes in other tasks for some. -/
theorem exists_perm_calls_of_swap {pool : TaskPool Job} {removed added : List (Nat × Job)}
    (h : s.view.shop.pool.Swap pool removed added) (view : View) (hview : view.shop.pool = pool) :
    ∃ rest, s.calls.Perm (removed.filterMap (Job.call? ∘ Prod.snd) ++ rest) ∧
      (Session.calls ⟨view, s.hosted⟩).Perm (added.filterMap (Job.call? ∘ Prod.snd) ++ rest) := by
  rw [calls_eq, calls_eq, hview]
  exact exists_perm_of_swap h (s.hosted.filterMap Job.call?)

/-- **What a move can do**: the host writes to the state, a job takes a step, which alone can begin
or end a call, or all that counts is kept. -/
theorem Move.cases (h : Move s deed t) : t.setting = s.setting ∧
    ((∃ path value, deed = .wrote path value ∧ t.world = s.world.set path value ∧
        t.calls = s.calls) ∨
      (∃ job ∈ s.jobs, deed = s.worked job ∧ t.world = (job.step s.setting s.world).1 ∧
        ∃ rest, s.calls.Perm (job.call?.toList ++ rest) ∧
          t.calls.Perm ((job.step s.setting s.world).2.call?.toList ++ rest)) ∨
      (deed.write? = none ∧ deed.effect? = none ∧ Kept s.world t.world ∧
        t.calls.Subperm s.calls)) := by
  cases h with
  | write path value => exact ⟨rfl, .inl ⟨path, value, rfl, rfl, rfl⟩⟩
  | start hfresh =>
    have hcalls := List.Perm.of_eq (calls_of_fresh s hfresh _ rfl)
    exact ⟨rfl, .inr (.inr ⟨rfl, rfl, .rfl, hcalls.subperm⟩)⟩
  | mount hcan =>
    have hfresh : s.view.mountJob.Fresh := .queue _ _
    have hcalls := calls_of_fresh s hfresh { s.view with mounted := true } rfl
    exact ⟨rfl, .inr (.inr ⟨rfl, rfl, .rfl, (List.Perm.of_eq hcalls).subperm⟩)⟩
  | spawnMount hcan =>
    -- Spawning under a key may stop a job, and with it a call in flight, but starts no call.
    rw [View.spawnMount, if_pos hcan]
    refine ⟨rfl, .inr (.inr ⟨rfl, rfl, .rfl, ?_⟩)⟩
    rw [calls_eq, calls_eq]
    exact ((calls_spawn _ _ rfl).append_left _).subperm
  | fire handler event hlive =>
    rw [View.fire, if_neg (by simp [hlive])]
    refine ⟨rfl, .inr (.inr ⟨rfl, rfl, .rfl, ?_⟩)⟩
    rw [calls_eq, calls_eq]
    exact ((calls_spawn _ _ rfl).append_left _).subperm
  | unmount =>
    -- The jobs in the background are stopped, those that the host waits for are not.
    refine ⟨rfl, .inr (.inr ⟨rfl, rfl, ⟨rfl, rfl, rfl, fun _ => rfl⟩, ?_⟩)⟩
    rw [calls_eq, calls_eq]
    have hsub := s.view.shop.pool.tasks_cancelAll_sublist.filterMap (Job.call? ∘ Prod.snd)
    exact (hsub.append_left _).subperm
  | take =>
    refine ⟨rfl, .inr (.inr ⟨rfl, rfl, ?_, ?_⟩)⟩
    · show Kept s.world s.view.shop.take.1.shared
      rw [Schedule.shared_take]
      exact .rfl
    · rw [calls_eq, calls_eq]
      show (_ ++ s.view.shop.take.1.pool.tasks.filterMap _).Subperm _
      rw [Schedule.pool_take]
  | wait hle => exact ⟨rfl, .inr (.inr ⟨rfl, rfl, ⟨rfl, rfl, rfl, id⟩, .refl _⟩)⟩
  | answers routes fallback latency =>
    exact ⟨rfl, .inr (.inr ⟨rfl, rfl, ⟨rfl, rfl, rfl, id⟩, .refl _⟩)⟩
  | @work job before after hhosted =>
    have hmem : job ∈ s.jobs := List.mem_append_left _ (hhosted ▸ by simp)
    have hbefore := calls_of_hosted s.view before job after
    rw [← hhosted] at hbefore
    exact ⟨rfl, .inr (.inl ⟨job, hmem, rfl, rfl, _, hbefore, calls_of_hosted ..⟩)⟩
  | @leave job before after hhosted hdone =>
    refine ⟨rfl, .inr (.inr ⟨rfl, rfl, .rfl, ?_⟩)⟩
    rw [calls_eq, calls_eq, hhosted]
    have hsub : (before ++ after).Sublist (before ++ job :: after) :=
      (List.sublist_cons_self job after).append_left before
    exact ((hsub.filterMap _).append_right _).subperm
  | @workBehind job id pool hswap =>
    -- What the step leaves of the job is the only task that the swap adds.
    have hmem : job ∈ s.jobs := by
      obtain ⟨rest, hbefore, -⟩ := hswap.tasks
      have htask : (id, job) ∈ s.view.shop.pool.tasks := hbefore.mem_iff.mpr (by simp)
      exact List.mem_append_right _ (List.mem_map_of_mem htask)
    let view := (s.view.inWorld (job.step s.setting s.world).1).withPool pool
    obtain ⟨rest, hbefore, hafter⟩ := exists_perm_calls_of_swap hswap view rfl
    rw [calls_task] at hbefore hafter
    exact ⟨rfl, .inr (.inl ⟨job, hmem, rfl, rfl, rest, hbefore, hafter⟩)⟩
  | @complete job id pool hswap hdone =>
    obtain ⟨rest, hbefore, hafter⟩ :=
      exists_perm_calls_of_swap hswap (s.view.withPool pool) rfl
    have hrest : rest.Subperm s.calls :=
      (List.sublist_append_right _ _).subperm.trans hbefore.symm.subperm
    exact ⟨rfl, .inr (.inr ⟨rfl, rfl, .rfl, hafter.subperm.trans hrest⟩)⟩
  | @rearrange pool hswap =>
    obtain ⟨rest, hbefore, hafter⟩ :=
      exists_perm_calls_of_swap hswap (s.view.withPool pool) rfl
    exact ⟨rfl, .inr (.inr ⟨rfl, rfl, .rfl, (hafter.trans hbefore.symm).subperm⟩)⟩

end

end Session

end ViewTree
