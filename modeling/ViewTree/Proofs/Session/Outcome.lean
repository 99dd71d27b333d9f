import Mathlib.Logic.Function.Basic
import ViewTree.Proofs.Dispatch.Queue
import ViewTree.Proofs.Session.Await

/-!
# What a host gets

What a host gets of a job that it waits for is what the job comes to, by steps that it takes in the
meantime (`Workshop.exists_became_of_runJob`).  So a dispatch ends, whatever else is under way, and
its report is that of the chain it starts (`Session.exists_through_of_dispatch`), and loads end with
the records of the queue they start (`Session.exists_through_of_runFetches`).
-/

namespace ViewTree

/-! ### The steps of a job -/

/-- Some steps of a job, none of them later than in this world. -/
def Job.Became (setting : Setting) (world : World) : Job → Job → Prop :=
  Relation.ReflTransGen fun job later =>
    ∃ earlier : World, earlier.Precedes world ∧ later = (job.step setting earlier).2

namespace Job

variable {setting : Setting} {world later : World} {job last : Job}

theorem Became.mono (h : Became setting world job last) (hlater : world.Precedes later) :
    Became setting later job last := by
  refine Relation.ReflTransGen.mono ?_ _ _ h
  rintro _ _ ⟨earlier, hearlier, hstep⟩
  exact ⟨earlier, hearlier.trans hlater, hstep⟩

theorem became_runFor (fuel : Nat) :
    Became setting (runFor setting fuel world job).1 job (runFor setting fuel world job).2 := by
  induction fuel generalizing world job with
  | zero => exact .refl
  | succ fuel ih =>
    unfold runFor
    split
    · exact .refl
    · exact .head ⟨world, World.Precedes.of_step.trans (runFor_precedes _ _ _ fuel), rfl⟩ ih

/-- A turn of a job adds to its steps. -/
theorem Became.run (h : Became setting world job last) :
    Became setting (last.run setting world).1 job (last.run setting world).2 :=
  (h.mono (last.runFor_precedes _ _ last.work)).trans (became_runFor last.work)

end Job

namespace Job

/-- A job after each of its steps, the worlds it finds given. -/
def through (setting : Setting) (worlds : Nat → World) (job : Job) : Nat → Job
  | 0 => job
  | n + 1 => ((job.through setting worlds n).step setting (worlds n)).2

variable {setting : Setting} {worlds others : Nat → World} {n : Nat}

/-- The steps of a job up to some point depend on the worlds before it only. -/
theorem through_congr {job : Job} (h : ∀ k < n, worlds k = others k) :
    job.through setting worlds n = job.through setting others n := by
  induction n with
  | zero => rfl
  | succ n ih =>
    rw [through, through, ih fun k hk => h k (Nat.lt_succ_of_lt hk), h n (Nat.lt_succ_self n)]

theorem through_chain (run : Chain) :
    (chain run).through setting worlds n = chain (run.through setting worlds n) := by
  induction n with
  | zero => rfl
  | succ n ih =>
    rw [through, ih]
    rfl

theorem through_queue (run : QueueRun) :
    (queue run).through setting worlds n = queue (run.through setting worlds n) := by
  induction n with
  | zero => rfl
  | succ n ih =>
    rw [through, ih]
    rfl

/-- One more step of a job, in a world of its own. -/
theorem through_update (job : Job) (worlds : Nat → World) (n : Nat) (world : World) :
    job.through setting (Function.update worlds n world) (n + 1)
      = ((job.through setting worlds n).step setting world).2 := by
  have hbefore : ∀ k < n, Function.update worlds n world k = worlds k := by
    intro k hk
    exact Function.update_of_ne (Nat.ne_of_lt hk) _ _
  rw [through, through_congr hbefore, Function.update_self]

/-- The steps of a job, counted. -/
theorem Became.exists_through {world : World} {job last : Job} (h : Became setting world job last) :
    ∃ worlds n, last = job.through setting worlds n ∧ ∀ k < n, (worlds k).Precedes world := by
  induction h with
  | refl => exact ⟨fun _ => world, 0, rfl, fun k hk => absurd hk (Nat.not_lt_zero k)⟩
  | tail _ hstep ih =>
    obtain ⟨worlds, n, rfl, hworlds⟩ := ih
    obtain ⟨earlier, hearlier, rfl⟩ := hstep
    -- The world of the last step follows those of the steps before it.
    refine ⟨Function.update worlds n earlier, n + 1, (through_update _ _ _ _).symm, ?_⟩
    intro k hk
    rcases Nat.lt_succ_iff_lt_or_eq.mp hk with hlt | rfl
    · rw [Function.update_of_ne (Nat.ne_of_lt hlt)]
      exact hworlds k hlt
    · rwa [Function.update_self]

end Job

/-! ### The result of a job -/

namespace Workshop

variable {setting : Setting} {shop : Workshop}

theorem shared_wakeInterrupted :
    (shop.wakeInterrupted (Job.routine setting)).shared = shop.shared := by
  unfold Schedule.wakeInterrupted
  split <;> rfl

theorem precedes_runOne : shop.shared.Precedes (shop.runOne (Job.routine setting)).shared := by
  cases hready : shop.pool.ready with
  | nil =>
    unfold Schedule.runOne
    rw [hready]
    exact .refl _
  | cons task ready =>
    obtain ⟨id, job⟩ := task
    have hlater : shop.shared.Precedes (job.run setting shop.shared).1 :=
      job.runFor_precedes setting _ job.work
    rcases Job.routine_run setting shop.shared job with ⟨due, -, hrun⟩ | ⟨-, hrun⟩
    · rw [Schedule.runOne_of_waiting hready hrun, shared_wakeInterrupted]
      exact hlater
    · rw [Schedule.runOne_of_finished hready hrun, shared_wakeInterrupted]
      exact hlater

theorem precedes_runReadyFor (fuel : Nat) :
    shop.shared.Precedes (shop.runReadyFor (Job.routine setting) fuel).shared := by
  induction fuel generalizing shop with
  | zero => exact .refl _
  | succ fuel ih =>
    unfold Schedule.runReadyFor
    split
    · exact .refl _
    · exact precedes_runOne.trans ih

/-- What a host gets of a job is what the job comes to, by steps that it takes meanwhile. -/
theorem exists_became_of_runJob {job : Job} {result : Completion}
    (h : (shop.runJob setting job).2 = some result) :
    ∃ last, Job.Became setting (shop.runJob setting job).1.shared job last ∧ last.isDone = true ∧
      result = last.completion := by
  let I (shop : Workshop) (host : Job) : Prop := Job.Became setting shop.shared job host
  let J (shop : Workshop) (given : Option Completion) : Prop := ∀ result, given = some result →
    ∃ last, Job.Became setting shop.shared job last ∧ last.isDone = true ∧ result = last.completion
  have hkeeps : J (shop.runJob setting job).1 (shop.runJob setting job).2 := by
    rw [runJob_eq]
    refine Schedule.awaitFor_keeps I J (fun shop host h => ?_)
      (fun shop host time h => h.mono ⟨id, Nat.le_max_right _ _⟩)
      (fun shop host h => h.mono (precedes_runReadyFor _))
      (fun shop host h result hnone => absurd hnone (by simp))
      (fun shop host later given h heq result hresult => ?_)
      (fun shop host later due rest h heq => ?_) _ .refl
    · show Job.Became setting (shop.wakeInterrupted (Job.routine setting)).shared job host
      rwa [shared_wakeInterrupted]
    · rcases hostTurn_cases setting shop host with ⟨due, -, hturn⟩ | ⟨hdone, hturn⟩
      · exact absurd (congrArg Prod.snd (hturn.symm.trans heq)) (by simp)
      · obtain ⟨rfl, hgiven⟩ := Prod.ext_iff.mp (hturn.symm.trans heq)
        obtain rfl := (Schedule.Turn.finished.inj hgiven).trans (Option.some.inj hresult)
        rw [shared_wakeInterrupted]
        exact ⟨_, h.run, hdone, rfl⟩
    · rcases hostTurn_cases setting shop host with ⟨due, -, hturn⟩ | ⟨-, hturn⟩
      · obtain ⟨rfl, hrest⟩ := Prod.ext_iff.mp (hturn.symm.trans heq)
        obtain ⟨-, rfl⟩ := (Schedule.Turn.waiting.injEq _ _ _ _).mp hrest
        exact h.run
      · exact absurd (congrArg Prod.snd (hturn.symm.trans heq)) (by simp)
  exact hkeeps result h

end Workshop

namespace Session

variable {root : Node} {components : Components} {setting : Setting} {transport : Script}
  {view : View}

/-- A host that waits for a job gets what the job comes to. -/
theorem exists_through_of_runJob
    (h : Relation.ReflTransGen HostCall (View.create root components setting transport) view)
    (job : Job) :
    ∃ worlds n, (job.through view.setting worlds n).isDone = true ∧
      (view.runJob job).2 = some (job.through view.setting worlds n).completion ∧
      ∀ k < n, (worlds k).Precedes (view.runJob job).1.world := by
  obtain ⟨result, hresult⟩ := Option.isSome_iff_exists.mp (isSome_runJob_of_calls h job)
  obtain ⟨last, hbecame, hdone, rfl⟩ := Workshop.exists_became_of_runJob hresult
  obtain ⟨worlds, n, rfl, hworlds⟩ := hbecame.exists_through
  exact ⟨worlds, n, hdone, hresult, hworlds⟩

theorem snd_dispatch {action : Action} {event : Option Json} {report : DispatchReport}
    (h : (view.runJob (.chain (.start action event))).2 = some (.dispatched report)) :
    (view.dispatch action event).2 = report := by
  unfold View.dispatch
  split
  · rename_i given heq
    rw [heq] at h
    exact Completion.dispatched.inj (Option.some.inj h)
  · rename_i later given hother heq
    rw [heq] at h
    exact (hother report h).elim

theorem snd_runFetches {specs : List FetchSpec} {abort : Bool} {report : FetchReport}
    (h : (view.runJob (.queue (.start specs abort))).2 = some (.mounted report)) :
    (view.runFetches specs abort).2 = report := by
  unfold View.runFetches
  split
  · rename_i given heq
    rw [heq] at h
    exact Completion.mounted.inj (Option.some.inj h)
  · rename_i later given hother heq
    rw [heq] at h
    exact (hother report h).elim

/-- **A dispatch ends with the report of its chain**, whatever else is under way in a view. -/
theorem exists_through_of_dispatch
    (h : Relation.ReflTransGen HostCall (View.create root components setting transport) view)
    (action : Action) (event : Option Json) :
    let after := view.dispatch action event
    ∃ worlds n, ((Chain.start action event).through view.setting worlds n).isDone = true ∧
      after.2 = ((Chain.start action event).through view.setting worlds n).links ∧
      ∀ k < n, (worlds k).Precedes after.1.world := by
  obtain ⟨worlds, n, hdone, hresult, hworlds⟩ :=
    exists_through_of_runJob h (.chain (.start action event))
  rw [Job.through_chain] at hdone hresult
  refine ⟨worlds, n, hdone, snd_dispatch hresult, ?_⟩
  rw [fst_dispatch]
  exact hworlds

/-- **Loads end with the records of their queue**, whatever else is under way in a view. -/
theorem exists_through_of_runFetches
    (h : Relation.ReflTransGen HostCall (View.create root components setting transport) view)
    (specs : List FetchSpec) (abort : Bool) :
    let after := view.runFetches specs abort
    ∃ worlds n, ((QueueRun.start specs abort).through view.setting worlds n).isDone = true ∧
      after.2 = ((QueueRun.start specs abort).through view.setting worlds n).records ∧
      ∀ k < n, (worlds k).Precedes after.1.world := by
  obtain ⟨worlds, n, hdone, hresult, hworlds⟩ :=
    exists_through_of_runJob h (.queue (.start specs abort))
  rw [Job.through_queue] at hdone hresult
  refine ⟨worlds, n, hdone, snd_runFetches hresult, ?_⟩
  rw [fst_runFetches]
  exact hworlds

end Session

end ViewTree
