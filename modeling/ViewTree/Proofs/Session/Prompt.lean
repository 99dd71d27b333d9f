import ViewTree.Proofs.Dispatch.Work
import ViewTree.Proofs.Session.Interleaving

/-!
# Jobs that end in one turn

A job that sends no request ends in its first turn.  A host that waits for it has it done before
anything else goes on (`Session.runJob_of_finished`); when the host leaves it to an idle background
instead and waits for that, the same comes of it (`Session.world_settle_spawn`).

A handler that writes to the state and does nothing else is such a job (`Job.turn_setState`).
-/

namespace ViewTree

namespace Job

variable {setting : Setting} {world : World} {job : Job}

theorem runFor_succ (fuel : Nat) (hdone : job.isDone = false)
    (hgoes : job.waitsUntil world = none) : runFor setting (fuel + 1) world job
      = runFor setting fuel (job.step setting world).1 (job.step setting world).2 := by
  rw [runFor, hdone, hgoes]
  rfl

/-- A handler of one state write, in a view that has not ended, writes the params of its action,
templates filled in, and ends. -/
theorem turn_setState (setting : Setting) (world : World) {action : Action} {target : String}
    (event : EventKind) (payload : Json) (hkind : action.kind = .setState)
    (htarget : action.target = some target) (hlive : world.ended = false) :
    let value := (world.scope (some payload)).expandIn (action.params.getD .null)
    let link := LinkReport.ofAction action .succeeded
    (routine setting).run world (.handler (.start ⟨event, [action]⟩ payload))
      = ((world.set target value).record link, .finished (.fired event [[link]])) := by
  intro value link
  let begun : HandlerRun := ⟨event, payload, [], some (.start action (some payload)), []⟩
  let acted : HandlerRun := ⟨event, payload, [], some ⟨some payload, .done, [link]⟩, []⟩
  let last : HandlerRun := ⟨event, payload, [], none, [[link]]⟩
  have hacted : begun.step setting world = ((world.set target value).record link, acted) := by
    simp [begun, acted, link, value, HandlerRun.step, Chain.start, Chain.isDone, Chain.step,
      Chain.runAction, Chain.runSetState, Chain.settle, hlive, hkind, htarget]
  obtain ⟨fuel, hfuel⟩ : ∃ fuel,
      (Job.handler (.start ⟨event, [action]⟩ payload)).work = fuel + 3 := by
    have hpos := action.depth_pos
    refine ⟨3 * action.depth - 1, ?_⟩
    show 0 + (3 * action.depth + 2 + 0) = _
    omega
  -- The action is taken up, it writes, and its chain is put down.
  have hrun : Job.run setting world (.handler (.start ⟨event, [action]⟩ payload))
      = ((world.set target value).record link, .handler last) := by
    rw [run, hfuel, runFor_succ _ rfl rfl]
    show runFor setting (fuel + 2) world (.handler begun) = _
    rw [runFor_succ _ rfl rfl]
    show runFor setting (fuel + 1) (begun.step setting world).1
      (.handler (begun.step setting world).2) = _
    rw [hacted, runFor_succ _ rfl rfl]
    exact runFor_of_isDone fuel rfl
  simp only [routine, hrun]
  rfl

end Job

namespace Session

variable {setting : Setting} {view : View} {shop : Workshop} {job : Job} {later : World}
  {result : Completion}

theorem wakeInterrupted_of_live (setting : Setting) (shop : Workshop)
    (hlive : shop.shared.ended = false) :
    shop.wakeInterrupted (Job.routine setting) = shop := by
  have hgoes : (Job.routine setting).interrupted shop.shared = false := hlive
  rw [Schedule.wakeInterrupted, hgoes, if_neg Bool.false_ne_true]

/-- A host that waits for a job that ends in its first turn has it done before anything else. -/
theorem runJob_of_finished
    (hturn : (Job.routine view.setting).run view.world job = (later, .finished result))
    (hlive : later.ended = false) : view.runJob job = (view.inWorld later, some result) := by
  have hhost : Workshop.hostTurn view.setting view.shop job
      = ((view.inWorld later).shop, .finished result) := by
    change (Job.routine view.setting).run view.shop.shared job = _ at hturn
    rw [Workshop.hostTurn, hturn]
    rfl
  have hawait : view.shop.runJob view.setting job = ((view.inWorld later).shop, some result) := by
    rw [Workshop.runJob_eq, Schedule.await, Schedule.awaitFor, hhost]
    exact congrArg (·, some result) (wakeInterrupted_of_live _ _ hlive)
  rw [View.runJob, hawait]
  rfl

/-- A job that ends in its first turn is all that happens when no other is there. -/
theorem drain_of_single {id : Nat} (hready : shop.pool.ready = [(id, job)])
    (hwaiting : shop.pool.waiting = [])
    (hturn : (Job.routine setting).run shop.shared job = (later, .finished result))
    (hlive : shop.shared.ended = false) (hlater : later.ended = false) :
    (shop.drain (Job.routine setting)).shared = later := by
  let rested : Workshop :=
    { shared := later, pool := { shop.pool with ready := [] }, outputs := shop.outputs ++ [result] }
  have hone : shop.runOne (Job.routine setting) = rested := by
    simp only [Schedule.runOne, hready, hturn]
    exact wakeInterrupted_of_live setting rested hlater
  have hround : shop.runReady (Job.routine setting) = rested := by
    have halive : shop.pool.alive = 1 := by
      rw [TaskPool.alive, hready, hwaiting]
      rfl
    rw [Schedule.runReady, halive]
    show shop.runReadyFor (Job.routine setting) (1 + 1) = rested
    rw [Schedule.runReadyFor, hready, List.isEmpty_cons, if_neg Bool.false_ne_true, hone]
    exact runReadyFor_of_idle rested rfl 1
  have hnever : rested.pool.earliest = none := by
    show (shop.pool.waiting.map Sleeper.due).min? = none
    rw [hwaiting]
    rfl
  -- In the first round the job ends, and in the second there is nothing to wait for.
  rw [Schedule.drain, Schedule.await, Schedule.awaitFor]
  dsimp only
  rw [wakeInterrupted_of_live _ _ hlive, hready, List.isEmpty_cons, if_neg Bool.false_ne_true,
    hround, Schedule.awaitFor]
  dsimp only
  rw [wakeInterrupted_of_live setting rested hlater, hnever]
  rfl

/-- What is started in an idle background is alone in it. -/
theorem spawn_of_idle (hidle : view.Idle) (key : String) (job : Job) :
    (∃ id, (view.spawn key job).shop.pool.ready = [(id, job)]) ∧
      (view.spawn key job).shop.pool.waiting = [] := by
  have hcancel : (view.shop.pool.cancel key).ready = [] ∧
      (view.shop.pool.cancel key).waiting = [] := by
    unfold TaskPool.cancel
    split
    · exact ⟨hidle.ready, hidle.waiting⟩
    · simp only [TaskPool.abort, hidle.ready, hidle.waiting]
      exact ⟨rfl, rfl⟩
  refine ⟨⟨(view.shop.pool.cancel key).next, ?_⟩, hcancel.2⟩
  exact congrArg (· ++ [((view.shop.pool.cancel key).next, job)]) hcancel.1

/-- Firing a handler in a view that goes on starts it in the background. -/
theorem fire_of_live (hlive : view.isEnded = false) (handler : Handler) (event : UiEvent) :
    view.fire handler event
      = ({ view with fired := view.fired + 1 } : View).spawn
          ("event-" ++ toString (view.fired + 1)) (.handler (.start handler event.payload)) := by
  rw [View.fire, hlive]
  rfl

/-- A job that is started in an idle background and ends in its first turn is all that happens. -/
theorem world_settle_spawn (hidle : view.Idle) (key : String)
    (hturn : (Job.routine view.setting).run view.world job = (later, .finished result))
    (hlive : view.isEnded = false) (hlater : later.ended = false) :
    (view.spawn key job).settle.world = later := by
  obtain ⟨⟨id, hready⟩, hwaiting⟩ := spawn_of_idle hidle key job
  exact drain_of_single hready hwaiting hturn hlive hlater

end Session

end ViewTree
