import Mathlib.Logic.Relation
import ViewTree.Proofs.Dispatch.Work
import ViewTree.Proofs.Session.Basic

/-!
# The calls of a host are runs

A host works with a view through a fixed set of calls, which give the jobs their turns as the
scheduler sees fit.  Whatever a call does is a run of the session (`HostCall.leads`), so what holds
of every run holds of every view that a host can come by (`exists_run_of_calls`).
-/

namespace ViewTree

/-- A turn runs a job until it ends or waits. -/
theorem Job.routine_run (setting : Setting) (world : World) (job : Job) :
    let run := job.run setting world
    (∃ due, run.2.waitsUntil run.1 = some due ∧
      (Job.routine setting).run world job = (run.1, .waiting due run.2)) ∨
    (run.2.isDone = true ∧
      (Job.routine setting).run world job = (run.1, .finished run.2.completion)) := by
  have hends := Job.run_ends setting world job
  unfold Job.routine
  dsimp only
  cases hwaits : (job.run setting world).2.waitsUntil (job.run setting world).1 with
  | some due => exact .inl ⟨due, rfl, rfl⟩
  | none =>
    rw [hwaits] at hends
    exact .inr ⟨hends.resolve_right Bool.false_ne_true, rfl⟩

namespace Workshop

/-- The turn of a host that waits for a job. -/
def hostTurn (setting : Setting) (shop : Workshop) (job : Job) :
    Workshop × Schedule.Turn Job Completion :=
  match (Job.routine setting).run shop.shared job with
  | (world, .finished result) => ({ shop with shared := world }, .finished result)
  | (world, .waiting due job) => ({ shop with shared := world }, .waiting (some due) job)

theorem runJob_eq (setting : Setting) (shop : Workshop) (job : Job) : shop.runJob setting job
    = shop.await (Job.routine setting) (hostTurn setting) job.work job := rfl

theorem hostTurn_cases (setting : Setting) (shop : Workshop) (job : Job) :
    let run := job.run setting shop.shared
    let later : Workshop := { shop with shared := run.1 }
    (∃ due, run.2.waitsUntil run.1 = some due ∧
      hostTurn setting shop job = (later, .waiting (some due) run.2)) ∨
    (run.2.isDone = true ∧ hostTurn setting shop job = (later, .finished run.2.completion)) := by
  unfold hostTurn
  rcases Job.routine_run setting shop.shared job with ⟨due, hwaits, hrun⟩ | ⟨hdone, hrun⟩
  · rw [hrun]
    exact .inl ⟨due, hwaits, rfl⟩
  · rw [hrun]
    exact .inr ⟨hdone, rfl⟩

end Workshop

namespace Session

/-- Some run leads from one session to the other. -/
def Leads (s t : Session) : Prop := ∃ deeds, Run s deeds t

theorem Run.append {s t u : Session} {first second : List Deed} (h : Run s first t)
    (h' : Run t second u) : Run s (first ++ second) u := by
  induction h' with
  | nil => rwa [List.append_nil]
  | snoc _ hmove ih =>
    rw [← List.append_assoc]
    exact ih.snoc hmove

namespace Leads

variable {s t u : Session}

theorem refl (s : Session) : Leads s s := ⟨[], .nil⟩

theorem trans (h : Leads s t) (h' : Leads t u) : Leads s u := by
  obtain ⟨first, hfirst⟩ := h
  obtain ⟨second, hsecond⟩ := h'
  exact ⟨first ++ second, hfirst.append hsecond⟩

theorem of_move {deed : Deed} (h : Move s deed t) : Leads s t := ⟨[] ++ [deed], .snoc .nil h⟩

end Leads

/-- The session of a view whose jobs stand so. -/
def ofShop (view : View) (hosted : List Job) (shop : Workshop) : Session :=
  ⟨{ view with shop }, hosted⟩

variable {view : View} {hosted : List Job} {shop : Workshop}

/-! ### The clock and the tasks -/

theorem leads_wake (wakes : Sleeper Job → Bool) :
    Leads (ofShop view hosted shop)
      (ofShop view hosted { shop with pool := shop.pool.wake wakes }) :=
  .of_move (.rearrange (TaskPool.swap_wake _ wakes))

theorem leads_wakeInterrupted : Leads (ofShop view hosted shop)
    (ofShop view hosted (shop.wakeInterrupted (Job.routine view.setting))) := by
  unfold Schedule.wakeInterrupted
  split
  · exact leads_wake _
  · exact .refl _

theorem leads_advanceTo (time : Nat) : Leads (ofShop view hosted shop)
    (ofShop view hosted (shop.advanceTo (Job.routine view.setting) time)) := by
  have hnow : (ofShop view hosted shop).world.now ≤ max time shop.shared.now := Nat.le_max_right _ _
  exact (Leads.of_move (.wait hnow)).trans (leads_wake _)

/-! ### Turns -/

/-- A task at the head of the others trades places with what is left of it. -/
theorem swap_head {pool : TaskPool Job} {id : Nat} {job later : Job} {ready : List (Nat × Job)}
    (h : pool.ready = (id, job) :: ready) :
    pool.Swap { pool with ready := (id, later) :: ready } [(id, job)] [(id, later)] := by
  refine ⟨rfl, rfl, ready ++ pool.waiting.map fun task => (task.id, task.body), ?_, .refl _⟩
  unfold TaskPool.tasks
  rw [h]
  exact .refl _

/-- The step of the first task that can run. -/
theorem Move.workAtHead (s : Session) {id : Nat} {job : Job} {ready : List (Nat × Job)}
    (h : s.view.shop.pool.ready = (id, job) :: ready) :
    let step := job.step s.setting s.world
    let pool : TaskPool Job := { s.view.shop.pool with ready := (id, step.2) :: ready }
    Move s (s.worked job) { s with view := (s.view.inWorld step.1).withPool pool } :=
  .workBehind (swap_head h)

theorem withReady_eq {id : Nat} {job : Job} {ready : List (Nat × Job)}
    (h : shop.pool.ready = (id, job) :: ready) :
    ({ shop with pool := { shop.pool with ready := (id, job) :: ready } } : Workshop) = shop := by
  rw [← h]

theorem leads_runFor_behind (view : View) (hosted : List Job) {shop : Workshop} {id : Nat}
    {job : Job} {ready : List (Nat × Job)} (fuel : Nat)
    (h : shop.pool.ready = (id, job) :: ready) :
    let run := Job.runFor view.setting fuel shop.shared job
    Leads (ofShop view hosted shop) (ofShop view hosted
      { shop with shared := run.1, pool := { shop.pool with ready := (id, run.2) :: ready } }) := by
  induction fuel generalizing shop job with
  | zero => exact (withReady_eq h).symm ▸ .refl _
  | succ fuel ih =>
    unfold Job.runFor
    split
    · exact (withReady_eq h).symm ▸ .refl _
    · -- The task stays at the head of the others while it runs.
      let step := job.step view.setting shop.shared
      let later : Workshop :=
        { shop with shared := step.1, pool := { shop.pool with ready := (id, step.2) :: ready } }
      have hlater : later.pool.ready = (id, step.2) :: ready := rfl
      exact (Leads.of_move (.workAtHead (ofShop view hosted shop) h)).trans (ih hlater)

/-- The first task that can run leaves the pool. -/
theorem swap_finish (pool : TaskPool Job) (id : Nat) (job : Job) (ready : List (Nat × Job)) :
    ({ pool with ready := (id, job) :: ready } : TaskPool Job).Swap { pool with ready }
      [(id, job)] [] :=
  ⟨rfl, rfl, _, .refl _, .refl _⟩

/-- The turn of the first task that can run. -/
theorem leads_runOne : Leads (ofShop view hosted shop)
    (ofShop view hosted (shop.runOne (Job.routine view.setting))) := by
  cases hready : shop.pool.ready with
  | nil =>
    have hnone : shop.runOne (Job.routine view.setting) = shop := by
      unfold Schedule.runOne
      rw [hready]
    rw [hnone]
    exact .refl _
  | cons task ready =>
    obtain ⟨id, job⟩ := task
    have hruns := leads_runFor_behind view hosted job.work hready
    dsimp only at hruns
    rcases Job.routine_run view.setting shop.shared job with ⟨due, -, hrun⟩ | ⟨hdone, hrun⟩
    · rw [Schedule.runOne_of_waiting hready hrun]
      have hparked := hruns.trans
        (.of_move (.rearrange (TaskPool.swap_park shop.pool id due _ ready)))
      exact hparked.trans leads_wakeInterrupted
    · rw [Schedule.runOne_of_finished hready hrun]
      exact (hruns.trans (.of_move (.complete (swap_finish shop.pool id _ ready) hdone))).trans
        leads_wakeInterrupted

theorem leads_runReadyFor (fuel : Nat) : Leads (ofShop view hosted shop)
    (ofShop view hosted (shop.runReadyFor (Job.routine view.setting) fuel)) := by
  induction fuel generalizing shop with
  | zero => exact .refl _
  | succ fuel ih =>
    unfold Schedule.runReadyFor
    split
    · exact .refl _
    · exact leads_runOne.trans ih

theorem leads_runReady : Leads (ofShop view hosted shop)
    (ofShop view hosted (shop.runReady (Job.routine view.setting))) :=
  leads_runReadyFor _

/-! ### The host -/

/-- A job that the host waits for runs until it ends or waits. -/
theorem leads_runFor (fuel : Nat) (job : Job) :
    let run := Job.runFor view.setting fuel shop.shared job
    Leads (ofShop view (hosted ++ [job]) shop)
      (ofShop view (hosted ++ [run.2]) { shop with shared := run.1 }) := by
  induction fuel generalizing shop job with
  | zero => exact .refl _
  | succ fuel ih =>
    unfold Job.runFor
    split
    · exact .refl _
    · have hmove := Move.workAmong { view with shop } hosted job []
      exact (Leads.of_move hmove).trans (ih _)

/-- Whatever happens while a host waits for a job is a run; a job that has ended leaves it. -/
theorem leads_runJob (view : View) (hosted : List Job) (job : Job) :
    ∃ rest, Leads ⟨view, hosted ++ [job]⟩ ⟨(view.runJob job).1, hosted ++ rest⟩ ∧
      ((view.runJob job).2.isSome → rest = []) := by
  let start : Session := ⟨view, hosted ++ [job]⟩
  let I (shop : Workshop) (job : Job) : Prop := Leads start (ofShop view (hosted ++ [job]) shop)
  let J (shop : Workshop) (result : Option Completion) : Prop :=
    ∃ rest, Leads start (ofShop view (hosted ++ rest) shop) ∧ (result.isSome → rest = [])
  unfold View.runJob
  rw [Workshop.runJob_eq]
  -- While the host waits, the job stands last among those it waits for.
  refine Schedule.awaitFor_keeps I J
    (fun shop job h => h.trans leads_wakeInterrupted)
    (fun shop job time h => h.trans (leads_advanceTo time))
    (fun shop job h => h.trans leads_runReady)
    (fun shop job h => ⟨[job], h, fun hsome => absurd hsome Bool.false_ne_true⟩)
    (fun shop job later result h hpoll => ?_) (fun shop job later due rest h hpoll => ?_) _
      (.refl _)
  · rcases Workshop.hostTurn_cases view.setting shop job with ⟨due, -, hturn⟩ | ⟨hdone, hturn⟩
    · exact absurd (congrArg Prod.snd (hturn.symm.trans hpoll)) (by simp)
    · obtain ⟨rfl, -⟩ := Prod.ext_iff.mp (hturn.symm.trans hpoll)
      -- The host has its result, so that it no longer waits for the job.
      let run := job.run view.setting shop.shared
      have hlast : (hosted ++ [run.2]) = hosted ++ run.2 :: [] := rfl
      have hleave : Move (ofShop view (hosted ++ [run.2]) { shop with shared := run.1 }) .quiet
          (ofShop view (hosted ++ []) { shop with shared := run.1 }) := .leave hlast hdone
      refine ⟨[], ?_, fun _ => rfl⟩
      exact ((h.trans (leads_runFor job.work job)).trans (.of_move hleave)).trans
        leads_wakeInterrupted
  · rcases Workshop.hostTurn_cases view.setting shop job with ⟨due, -, hturn⟩ | ⟨hdone, hturn⟩
    · obtain ⟨rfl, hrest⟩ := Prod.ext_iff.mp (hturn.symm.trans hpoll)
      obtain ⟨-, rfl⟩ := (Schedule.Turn.waiting.injEq _ _ _ _).mp hrest
      exact h.trans (leads_runFor job.work job)
    · exact absurd (congrArg Prod.snd (hturn.symm.trans hpoll)) (by simp)

/-- Whatever happens while a host waits is a run, when what it does itself is one. -/
theorem leads_await {φ ρ : Type} {poll : Workshop → φ → Workshop × Schedule.Turn φ ρ}
    (hpoll : ∀ shop host, Leads (ofShop view hosted shop) (ofShop view hosted (poll shop host).1))
    (work : Nat) (host : φ) : Leads (ofShop view hosted shop)
      (ofShop view hosted (shop.await (Job.routine view.setting) poll work host).1) := by
  let start := ofShop view hosted shop
  refine Schedule.awaitFor_keeps
    (fun shop _ => Leads start (ofShop view hosted shop))
    (fun shop _ => Leads start (ofShop view hosted shop))
    (fun shop host h => h.trans leads_wakeInterrupted)
    (fun shop host time h => h.trans (leads_advanceTo time))
    (fun shop host h => h.trans leads_runReady) (fun shop host h => h)
    (fun shop host later result h heq => ?_) (fun shop host later due rest h heq => ?_) _
      (.refl _)
  · have hlater := hpoll shop host
    rw [heq] at hlater
    exact (h.trans hlater).trans leads_wakeInterrupted
  · have hlater := hpoll shop host
    rw [heq] at hlater
    exact h.trans hlater

theorem leads_take (view : View) (hosted : List Job) (shop : Workshop) :
    Leads (ofShop view hosted shop) (ofShop view hosted shop.take.1) :=
  .of_move .take

/-- One call of a host, whatever it gives back. -/
inductive HostCall : View → View → Prop
  | set (view : View) (path : String) (value : Json) : HostCall view (view.set path value)
  | mount (view : View) : HostCall view view.mount.1
  | spawnMount (view : View) : HostCall view view.spawnMount.1
  | fire (view : View) (handler : Handler) (event : UiEvent) :
    HostCall view (view.fire handler event)
  | fireAndWait (view : View) (handler : Handler) (payload : Json) :
    HostCall view (view.fireAndWait handler payload).1
  | dispatch (view : View) (action : Action) (event : Option Json) :
    HostCall view (view.dispatch action event).1
  | runFetches (view : View) (specs : List FetchSpec) (abort : Bool) :
    HostCall view (view.runFetches specs abort).1
  | sleep (view : View) (millis : Nat) : HostCall view (view.sleep millis)
  | settle (view : View) : HostCall view view.settle
  | tryCompletion (view : View) : HostCall view view.tryCompletion.1
  | nextCompletion (view : View) : HostCall view view.nextCompletion.1
  | unmount (view : View) : HostCall view view.unmount

theorem fst_fireAndWait (view : View) (handler : Handler) (payload : Json) :
    (view.fireAndWait handler payload).1 = (view.runJob (.handler (.start handler payload))).1 := by
  unfold View.fireAndWait
  split <;> rename_i h <;> rw [h]

theorem fst_dispatch (view : View) (action : Action) (event : Option Json) :
    (view.dispatch action event).1 = (view.runJob (.chain (.start action event))).1 := by
  unfold View.dispatch
  split <;> rename_i h <;> rw [h]

theorem fst_runFetches (view : View) (specs : List FetchSpec) (abort : Bool) :
    (view.runFetches specs abort).1 = (view.runJob (.queue (.start specs abort))).1 := by
  unfold View.runFetches
  split <;> rename_i h <;> rw [h]

theorem fst_mount {view : View} (h : view.canMount = true) :
    view.mount.1 = ({ view with mounted := true }.runJob view.mountJob).1 := by
  unfold View.mount
  rw [if_pos h]
  split <;> rename_i h <;> rw [h]

/-- A job that a host starts and waits for. -/
theorem exists_leads_of_fresh {job : Job} (hfresh : job.Fresh) (view : View) (hosted : List Job) :
    ∃ rest, Leads ⟨view, hosted⟩ ⟨(view.runJob job).1, hosted ++ rest⟩ := by
  obtain ⟨rest, hleads, -⟩ := leads_runJob view hosted job
  exact ⟨rest, (Leads.of_move (.start hfresh)).trans hleads⟩

theorem exists_leads_of_leads {before after : View}
    (h : Leads ⟨before, hosted⟩ ⟨after, hosted⟩) :
    ∃ rest, Leads ⟨before, hosted⟩ ⟨after, hosted ++ rest⟩ :=
  ⟨[], (List.append_nil hosted).symm ▸ h⟩

/-- **A call of a host is a run.**  The jobs it waits for end with it, unless they never do. -/
theorem HostCall.leads {before after : View} (h : HostCall before after) (hosted : List Job) :
    ∃ rest, Leads ⟨before, hosted⟩ ⟨after, hosted ++ rest⟩ := by
  -- A call that would change nothing is no move, and leads where it started from.
  cases h with
  | set path value => exact exists_leads_of_leads (.of_move (.write path value))
  | mount =>
    by_cases hcan : before.canMount = true
    · rw [fst_mount hcan]
      obtain ⟨rest, hleads, -⟩ :=
        leads_runJob { before with mounted := true } hosted before.mountJob
      exact ⟨rest, (Leads.of_move (.mount hcan)).trans hleads⟩
    · rw [View.mount, if_neg hcan]
      exact exists_leads_of_leads (.refl _)
  | spawnMount =>
    by_cases hcan : before.canMount = true
    · exact exists_leads_of_leads (.of_move (.spawnMount hcan))
    · rw [View.spawnMount, if_neg hcan]
      exact exists_leads_of_leads (.refl _)
  | fire handler event =>
    by_cases hended : before.isEnded = true
    · rw [View.fire, if_pos hended]
      exact exists_leads_of_leads (.refl _)
    · have hlive := Bool.eq_false_iff.mpr hended
      exact exists_leads_of_leads (.of_move (.fire handler event hlive))
  | fireAndWait handler payload =>
    rw [fst_fireAndWait]
    exact exists_leads_of_fresh (.handler _ _) before hosted
  | dispatch action event =>
    rw [fst_dispatch]
    exact exists_leads_of_fresh (.chain _ _) before hosted
  | runFetches specs abort =>
    rw [fst_runFetches]
    exact exists_leads_of_fresh (.queue _ _) before hosted
  | sleep millis =>
    exact exists_leads_of_leads (leads_await (fun shop _ => .refl _) 1 ())
  | settle =>
    exact exists_leads_of_leads (leads_await (fun shop _ => .refl _) 0 ())
  | tryCompletion => exact exists_leads_of_leads (.of_move .take)
  | nextCompletion =>
    unfold View.nextCompletion Schedule.receive
    refine exists_leads_of_leads (leads_await ?_ 0 ())
    intro shop host
    have htake := leads_take before hosted shop
    split
    · rename_i later output heq
      rwa [heq] at htake
    · rename_i later heq
      rwa [heq] at htake
  | unmount => exact exists_leads_of_leads (.of_move .unmount)

/-- **What a host can come by a run can.**  Every view that a host makes of a new one, in any order
of calls, is the view of a session that a run leads to. -/
theorem exists_run_of_calls {root : Node} {components : Components} {setting : Setting}
    {transport : Script} {view : View}
    (h : Relation.ReflTransGen HostCall (View.create root components setting transport) view) :
    ∃ deeds hosted, Run (create root components setting transport) deeds ⟨view, hosted⟩ := by
  have hleads : ∃ hosted, Leads (create root components setting transport) ⟨view, hosted⟩ := by
    induction h with
    | refl => exact ⟨[], .refl _⟩
    | tail _ hcall ih =>
      obtain ⟨hosted, hbefore⟩ := ih
      obtain ⟨rest, hafter⟩ := hcall.leads hosted
      exact ⟨hosted ++ rest, hbefore.trans hafter⟩
  obtain ⟨hosted, deeds, hrun⟩ := hleads
  exact ⟨deeds, hosted, hrun⟩

end Session

end ViewTree
