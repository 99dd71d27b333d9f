import ViewTree.Proofs.Session.Outcome

/-!
# Jobs in turns

`Session.Interleaving` lets the jobs that a host waits for take their steps in any order, with
nothing going on in the background; a reply may come at any time.  Such a run has as many steps as
the jobs have left at most (`Interleaving.steps_le`) and can always go on until all of them have
ended (`Interleaving.exists_finished`).

A host that takes a job to its end by itself gives it all its steps in a row
(`exists_interleaving_of_runJob`), so that dispatches one after another are an interleaving like any
other (`exists_interleaving_of_dispatchAll`).
-/

namespace ViewTree

/-- The background of a view has nothing left to do. -/
structure View.Idle (view : View) : Prop where
  ready : view.shop.pool.ready = []
  waiting : view.shop.pool.waiting = []

namespace Session

/-! ### Taking turns -/

/-- The jobs that the host waits for take turns: one that has not ended takes a step, or time
passes.  The steps are counted. -/
inductive Interleaving (s : Session) : Nat → Session → Prop
  | nil : Interleaving s 0 s
  | work {t : Session} {n : Nat} {job : Job} {before after : List Job} :
    Interleaving s n t → t.hosted = before ++ job :: after → job.isDone = false →
    Interleaving s (n + 1)
      { view := t.view.inWorld (job.step t.setting t.world).1
        hosted := before ++ (job.step t.setting t.world).2 :: after }
  | wait {t : Session} {n time : Nat} : Interleaving s n t → t.world.now ≤ time →
    Interleaving s n { t with view := t.view.inWorld { t.world with now := time } }

/-- Every job that the host waits for has ended. -/
def Finished (s : Session) : Prop := ∀ job ∈ s.hosted, job.isDone = true

/-- How many steps the jobs that the host waits for have left at most. -/
def left (s : Session) : Nat := total Job.left s.hosted

namespace Interleaving

variable {s t u : Session} {m n : Nat} {view : View}

/-- An interleaving is a run. -/
theorem leads (h : Interleaving s n t) : Leads s t := by
  induction h with
  | nil => exact .refl s
  | work _ hhosted _ ih => exact ih.trans (.of_move (.work hhosted))
  | wait _ htime ih => exact ih.trans (.of_move (.wait htime))

theorem trans (h : Interleaving s m t) (h' : Interleaving t n u) : Interleaving s (m + n) u := by
  induction h' with
  | nil => exact h
  | work _ hhosted hdone ih => exact ih.work hhosted hdone
  | wait _ htime ih => exact ih.wait htime

/-- Jobs that take no step may stand around. -/
theorem frame (before after : List Job) (h : Interleaving s n t) :
    Interleaving ⟨s.view, before ++ (s.hosted ++ after)⟩ n
      ⟨t.view, before ++ (t.hosted ++ after)⟩ := by
  induction h with
  | nil => exact .nil
  | @work t n job first second _ hhosted hdone ih =>
    have hframed : before ++ (t.hosted ++ after) = before ++ first ++ job :: (second ++ after) := by
      simp [hhosted]
    have hwork := ih.work hframed hdone
    simp only [List.append_assoc, List.cons_append] at hwork ⊢
    exact hwork
  | wait _ htime ih => exact ih.wait htime

/-- **An interleaving ends**: each step leaves fewer of them. -/
theorem steps_le (h : Interleaving s n t) : n + t.left ≤ s.left := by
  induction h with
  | nil => exact Nat.le_of_eq (Nat.zero_add _)
  | @work t n job before after _ hhosted hdone ih =>
    have hstep := job.left_step t.setting t.world hdone
    unfold left at ih ⊢
    rw [hhosted] at ih
    rw [total_append] at ih ⊢
    simp only [total] at ih ⊢
    omega
  | wait _ _ ih => exact ih

/-- Every interleaving can go on until all jobs have ended. -/
theorem exists_finished (s : Session) : ∃ n t, Interleaving s n t ∧ t.Finished := by
  induction hleft : s.left using Nat.strongRecOn generalizing s with
  | ind left ih =>
    by_cases hdone : s.Finished
    · exact ⟨0, s, .nil, hdone⟩
    · -- A job that has not ended takes a step.
      obtain ⟨job, hmem, hjob⟩ : ∃ job ∈ s.hosted, ¬ job.isDone = true := by
        simpa [Finished] using hdone
      obtain ⟨before, after, hhosted⟩ := List.append_of_mem hmem
      obtain ⟨t, hstep⟩ : ∃ t, Interleaving s (0 + 1) t :=
        ⟨_, .work .nil hhosted (Bool.eq_false_iff.mpr hjob)⟩
      have hle := hstep.steps_le
      obtain ⟨n, u, hrest, hfinished⟩ := ih t.left (by omega) t rfl
      exact ⟨_, u, hstep.trans hrest, hfinished⟩

end Interleaving

/-! ### A job by itself -/

variable {view : View} {job : Job}

theorem exists_interleaving_of_runFor (fuel : Nat) (world : World) (job : Job) :
    let run := Job.runFor view.setting fuel world job
    ∃ n, Interleaving ⟨view.inWorld world, [job]⟩ n ⟨view.inWorld run.1, [run.2]⟩ := by
  induction fuel generalizing world job with
  | zero => exact ⟨0, .nil⟩
  | succ fuel ih =>
    unfold Job.runFor
    split
    · exact ⟨0, .nil⟩
    · rename_i hgoes
      rw [Bool.or_eq_true, not_or] at hgoes
      have hhosted : [job] = [] ++ job :: [] := rfl
      have hstart : Interleaving ⟨view.inWorld world, [job]⟩ 0 ⟨view.inWorld world, [job]⟩ := .nil
      have hstep := hstart.work hhosted (Bool.eq_false_iff.mpr hgoes.1)
      obtain ⟨n, hrest⟩ := ih (job.step view.setting world).1 (job.step view.setting world).2
      exact ⟨_, hstep.trans hrest⟩

/-- In a pool in which no task waits there is none to wake. -/
theorem wake_of_idle {pool : TaskPool Job} (h : pool.waiting = []) (wakes : Sleeper Job → Bool) :
    pool.wake wakes = pool := by
  obtain ⟨registered, ready, waiting, next⟩ := pool
  obtain rfl : waiting = [] := h
  simp [TaskPool.wake]

/-- Where no task is ready none takes a turn. -/
theorem runReadyFor_of_idle {setting : Setting} (shop : Workshop) (h : shop.pool.ready = [])
    (fuel : Nat) : shop.runReadyFor (Job.routine setting) fuel = shop := by
  cases fuel with
  | zero => rfl
  | succ fuel => rw [Schedule.runReadyFor, h, List.isEmpty_nil, if_pos rfl]

theorem wakeInterrupted_of_idle (hidle : view.Idle) (world : World) :
    (view.inWorld world).shop.wakeInterrupted (Job.routine view.setting)
      = (view.inWorld world).shop := by
  unfold Schedule.wakeInterrupted
  split
  · exact congrArg (fun pool => { (view.inWorld world).shop with pool })
      (wake_of_idle hidle.waiting _)
  · rfl

theorem orderly_of_idle (hidle : view.Idle) : view.shop.Orderly := by
  refine ⟨fun task htask => ?_, fun task htask => ?_⟩
  · exact absurd (hidle.ready ▸ htask) List.not_mem_nil
  · exact absurd (hidle.waiting ▸ htask) List.not_mem_nil

/-- In its turn a host gives a job steps until the job waits or has ended. -/
theorem exists_interleaving_of_hostTurn (view : View) (world : World) (job : Job) :
    let turn := Workshop.hostTurn view.setting (view.inWorld world).shop job
    ∃ n later last, Interleaving ⟨view.inWorld world, [job]⟩ n ⟨view.inWorld later, [last]⟩ ∧
      ((∃ due, turn = ((view.inWorld later).shop, .waiting (some due) last)) ∨
        (last.isDone = true ∧
          turn = ((view.inWorld later).shop, .finished last.completion))) := by
  obtain ⟨n, hrun⟩ := exists_interleaving_of_runFor job.work world job
  refine ⟨n, _, _, hrun, ?_⟩
  rcases Workshop.hostTurn_cases view.setting (view.inWorld world).shop job with
    ⟨due, -, hturn⟩ | hfinished
  · exact .inl ⟨due, hturn⟩
  · exact .inr hfinished

/-- **A job by itself takes its steps in a row**: a host that waits for it while the background is
idle brings it to its end and gets what it comes to. -/
theorem exists_interleaving_of_runJob (hidle : view.Idle) (job : Job) :
    ∃ n world last, Interleaving ⟨view, [job]⟩ n ⟨view.inWorld world, [last]⟩ ∧
      last.isDone = true ∧ view.runJob job = (view.inWorld world, some last.completion) := by
  let I (shop : Workshop) (host : Job) : Prop := ∃ n world,
    shop = (view.inWorld world).shop ∧ Interleaving ⟨view, [job]⟩ n ⟨view.inWorld world, [host]⟩
  let J (shop : Workshop) (given : Option Completion) : Prop := ∀ result, given = some result →
    ∃ n world last, Interleaving ⟨view, [job]⟩ n ⟨view.inWorld world, [last]⟩ ∧
      last.isDone = true ∧ shop = (view.inWorld world).shop ∧ result = last.completion
  have hkeeps : J (view.shop.runJob view.setting job).1 (view.shop.runJob view.setting job).2 := by
    rw [Workshop.runJob_eq]
    refine Schedule.awaitFor_keeps I J ?_ ?_ ?_ (fun _ _ _ _ => nofun) ?_ ?_ _
      ⟨0, view.world, rfl, .nil⟩
    · rintro _ host ⟨n, world, rfl, hrun⟩
      exact ⟨n, world, wakeInterrupted_of_idle hidle world, hrun⟩
    · rintro _ host time ⟨n, world, rfl, hrun⟩
      refine ⟨n, { world with now := max time world.now }, ?_,
        hrun.wait (Nat.le_max_right time world.now)⟩
      exact congrArg (fun pool => { (view.inWorld _).shop with pool })
        (wake_of_idle hidle.waiting _)
    · rintro _ host ⟨n, world, rfl, hrun⟩
      exact ⟨n, world, runReadyFor_of_idle (view.inWorld world).shop hidle.ready _, hrun⟩
    · rintro _ host later given ⟨n, world, rfl, hrun⟩ hturn result hresult
      obtain ⟨m, next, last, hmore, ⟨due, heq⟩ | ⟨hdone, heq⟩⟩ :=
        exists_interleaving_of_hostTurn view world host
      · exact absurd (congrArg Prod.snd (heq.symm.trans hturn)) (by simp)
      · obtain ⟨rfl, hgiven⟩ := Prod.ext_iff.mp (heq.symm.trans hturn)
        obtain rfl := (Schedule.Turn.finished.inj hgiven).trans (Option.some.inj hresult)
        exact ⟨_, _, _, hrun.trans hmore, hdone, wakeInterrupted_of_idle hidle next, rfl⟩
    · rintro _ host later due rest ⟨n, world, rfl, hrun⟩ hturn
      obtain ⟨m, next, last, hmore, ⟨due, heq⟩ | ⟨hdone, heq⟩⟩ :=
        exists_interleaving_of_hostTurn view world host
      · obtain ⟨rfl, hrest⟩ := Prod.ext_iff.mp (heq.symm.trans hturn)
        obtain ⟨-, rfl⟩ := (Schedule.Turn.waiting.injEq _ _ _ _).mp hrest
        exact ⟨_, next, rfl, hrun.trans hmore⟩
      · exact absurd (congrArg Prod.snd (heq.symm.trans hturn)) (by simp)
  obtain ⟨result, hresult⟩ :=
    Option.isSome_iff_exists.mp (Workshop.isSome_runJob (orderly_of_idle hidle) job)
  obtain ⟨n, world, last, hrun, hdone, hshop, rfl⟩ := hkeeps result hresult
  refine ⟨n, world, last, hrun, hdone, ?_⟩
  unfold View.runJob
  exact Prod.ext (congrArg (fun shop => { view with shop }) hshop) hresult

end Session

/-! ### Dispatches one after another -/

/-- A dispatch that a host asks for. -/
structure Dispatch where
  action : Action
  event : Option Json := none

/-- A dispatch under way. -/
def Dispatch.chain (dispatch : Dispatch) : Chain := .start dispatch.action dispatch.event

/-- Dispatches one action after another, waiting for each. -/
def View.dispatchAll (view : View) : List Dispatch → View × List DispatchReport
  | [] => (view, [])
  | dispatch :: dispatches =>
    let (view, report) := view.dispatch dispatch.action dispatch.event
    let (view, reports) := view.dispatchAll dispatches
    (view, report :: reports)

/-- The session of a host that waits for some chains. -/
def View.hosting (view : View) (chains : List Chain) : Session := ⟨view, chains.map .chain⟩

namespace Session

variable {view : View}

/-- What holds of some chains and their world while they take turns, when each step and the time
that passes keep it. -/
theorem Interleaving.keeps {chains : List Chain} {n : Nat} {t : Session}
    (I : World → List Chain → Prop) (h : Interleaving (view.hosting chains) n t)
    (hstart : I view.world chains)
    (hstep : ∀ world before chain after, I world (before ++ chain :: after) →
      I (chain.step view.setting world).1 (before ++ (chain.step view.setting world).2 :: after))
    (hwait : ∀ world time chains, I world chains → I { world with now := time } chains) :
    ∃ world later, t = (view.inWorld world).hosting later ∧ I world later := by
  induction h with
  | nil => exact ⟨view.world, chains, rfl, hstart⟩
  | @work t n job before after _ hhosted _ ih =>
    obtain ⟨world, later, rfl, hlater⟩ := ih
    obtain ⟨first, rest, rfl, rfl, hrest⟩ := List.map_eq_append_iff.mp hhosted
    obtain ⟨chain, last, rfl, rfl, rfl⟩ := List.map_eq_cons_iff.mp hrest
    have hhosted : (first ++ (chain.step view.setting world).2 :: last).map Job.chain
        = first.map .chain ++ .chain (chain.step view.setting world).2 :: last.map .chain :=
      List.map_append
    exact ⟨_, _, congrArg (Session.mk _) hhosted.symm, hstep world first chain last hlater⟩
  | wait _ _ ih =>
    obtain ⟨world, later, rfl, hlater⟩ := ih
    exact ⟨_, later, rfl, hwait world _ later hlater⟩

/-- **Dispatches one after another are an interleaving**, in which each takes its steps in a row. -/
theorem exists_interleaving_of_dispatchAll (hidle : view.Idle) (dispatches : List Dispatch) :
    ∃ n world lasts,
      Interleaving (view.hosting (dispatches.map Dispatch.chain)) n
        ((view.inWorld world).hosting lasts) ∧
      (∀ chain ∈ lasts, chain.isDone = true) ∧
      view.dispatchAll dispatches = (view.inWorld world, lasts.map Chain.links) := by
  induction dispatches generalizing view with
  | nil => exact ⟨0, view.world, [], .nil, by simp, rfl⟩
  | cons dispatch dispatches ih =>
    obtain ⟨n, world, job, hrun, hdone, hjob⟩ :=
      exists_interleaving_of_runJob hidle (.chain dispatch.chain)
    obtain ⟨last, rfl⟩ : ∃ last, job = .chain last := by
      have hchain : Interleaving (view.hosting [dispatch.chain]) n ⟨view.inWorld world, [job]⟩ :=
        hrun
      obtain ⟨_, later, hlater, -⟩ := hchain.keeps (fun _ _ => True) trivial
        (fun _ _ _ _ _ => trivial) fun _ _ _ _ => trivial
      obtain ⟨last, -, -, hlast, -⟩ := List.map_eq_cons_iff.mp (congrArg Session.hosted hlater).symm
      exact ⟨last, hlast.symm⟩
    have hdispatch : view.dispatch dispatch.action dispatch.event
        = (view.inWorld world, last.links) := by
      unfold View.dispatch
      rw [show view.runJob (.chain (.start dispatch.action dispatch.event)) = _ from hjob]
      rfl
    -- The other dispatches stand around while the first one runs, and the first one afterwards.
    have hlater : (view.inWorld world).Idle := ⟨hidle.ready, hidle.waiting⟩
    obtain ⟨m, later, lasts, hrest, hdones, hreports⟩ := ih hlater
    have hfirst := hrun.frame [] ((dispatches.map Dispatch.chain).map .chain)
    have hsecond := hrest.frame [.chain last] []
    rw [List.append_nil, List.append_nil] at hsecond
    refine ⟨n + m, later, last :: lasts, hfirst.trans hsecond, ?_, ?_⟩
    · exact List.forall_mem_cons.mpr ⟨hdone, hdones⟩
    · simp only [View.dispatchAll, hdispatch, hreports]
      rfl

end Session

end ViewTree
