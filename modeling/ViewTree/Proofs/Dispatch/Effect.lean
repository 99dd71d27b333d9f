import ViewTree.Dispatch.Job
import ViewTree.Proofs.Dispatch.Call

/-!
# What a step does

A step of a job does at most one thing to the world and then logs the links it has settled.
`Effect` names the thing, `Job.effect` and `Job.news` say what a step in a world does and logs, and
`Job.step_spec` that the step is just that.  A call is in flight from the step that starts it to the
step that settles or drops it.

In a view that has ended a step does nothing: `Job.step_of_ended` gives what becomes of the job,
which depends neither on the world nor on the replies.
-/

namespace ViewTree

namespace World

/-- Logs links one after another. -/
def recordAll (world : World) (links : List LinkReport) : World :=
  links.foldl record world

/-- Logging links changes the log only. -/
theorem recordAll_eq (world : World) (links : List LinkReport) :
    world.recordAll links = { world with log := (world.recordAll links).log } := by
  induction links generalizing world with
  | nil => rfl
  | cons link links ih => exact ih (world.record link)

variable {world : World} {links : List LinkReport}

@[simp] theorem store_recordAll : (world.recordAll links).store = world.store := by
  rw [recordAll_eq]

@[simp] theorem ended_recordAll : (world.recordAll links).ended = world.ended := by
  rw [recordAll_eq]

@[simp] theorem transport_recordAll : (world.recordAll links).transport = world.transport := by
  rw [recordAll_eq]

@[simp] theorem visits_recordAll : (world.recordAll links).visits = world.visits := by
  rw [recordAll_eq]

@[simp] theorem now_recordAll : (world.recordAll links).now = world.now := by
  rw [recordAll_eq]

/-- The log is given the links one after another. -/
theorem log_recordAll (world : World) (links : List LinkReport) : (world.recordAll links).log
    = links.foldl (fun log link => log.record world.now link) world.log := by
  induction links generalizing world with
  | nil => rfl
  | cons link links ih => exact ih (world.record link)

/-- What the end of a call writes is all it does. -/
theorem settleCall_eq {setting : Setting} {call : Call} : (world.settleCall setting call).1
    = { world with store := (world.settleCall setting call).1.store } := by
  unfold settleCall
  split
  · rfl
  · split <;> rfl

end World

/-- What a step does to the world, its log aside. -/
inductive Effect where
  | idle
  /-- It writes a value to the state. -/
  | wrote (path : String) (value : Json)
  /-- It goes to a place and ends the view. -/
  | visited (place : String)
  /-- A call fails for want of a request; the text says why. -/
  | refused (target message : String)
  /-- A call sends its request. -/
  | started (call : Call) (request : Request)
  /-- A call settles with its reply. -/
  | settled (call : Call)
  /-- A call in flight is given up. -/
  | dropped (call : Call)

namespace Effect

/-- The world after an effect. -/
def apply (setting : Setting) (world : World) : Effect → World
  | idle => world
  | wrote path value => world.set path value
  | visited place => ({ world with visits := world.visits ++ [place] }).finish
  | refused target message => (world.markLoading target).settleFailure target message
  | started call request =>
    { world.markLoading call.target with transport := (world.transport.send request).2 }
  | settled call => (world.settleCall setting call).1
  | dropped _ => world

/-- The call that is in flight after an effect. -/
def opens? : Effect → Option Call
  | started call _ => some call
  | _ => none

/-- The call that was in flight before an effect. -/
def closes? : Effect → Option Call
  | settled call => some call
  | dropped call => some call
  | _ => none

/-- The place an effect goes to. -/
def visit? : Effect → Option String
  | visited place => some place
  | _ => none

/-- Whether an effect can happen in a world: calls are dropped once the view has ended, and all else
happens before.  A call that starts gets its reply from the transport. -/
def Fits (world : World) : Effect → Prop
  | idle => True
  | started call request =>
    world.ended = false ∧ call.reply = (world.transport.send request).1
  | dropped _ => world.ended = true
  | _ => world.ended = false

variable {setting : Setting} {world : World} {effect : Effect}

theorem visits_apply :
    (effect.apply setting world).visits = world.visits ++ effect.visit?.toList := by
  cases effect with
  | visited place => rfl
  | settled call =>
    rw [apply, World.settleCall_eq]
    exact (List.append_nil _).symm
  | _ => exact (List.append_nil _).symm

/-- A view ends by going to a place. -/
theorem ended_apply :
    (effect.apply setting world).ended = (world.ended || effect.visit?.isSome) := by
  cases effect with
  | visited place => exact (Bool.or_true _).symm
  | settled call =>
    rw [apply, World.settleCall_eq]
    exact (Bool.or_false _).symm
  | _ => exact (Bool.or_false _).symm

theorem now_apply : (effect.apply setting world).now = world.now := by
  cases effect with
  | settled call => rw [apply, World.settleCall_eq]
  | _ => rfl

theorem log_apply : (effect.apply setting world).log = world.log := by
  cases effect with
  | settled call => rw [apply, World.settleCall_eq]
  | _ => rfl

end Effect

namespace CallPlan

/-- What starting a call does. -/
def effect (setting : Setting) (world : World) (plan : CallPlan) : Effect :=
  match ApiCall.ofJson (plan.resolved world) with
  | .error error => .refused plan.target (invalidParams error)
  | .ok api =>
    let request := api.toRequest setting.options
    .started (plan.call (world.transport.send request) world.now) request

variable {setting : Setting} {world : World} {plan : CallPlan}

theorem startCall_eq : world.startCall setting plan
    = ((plan.effect setting world).apply setting world, (plan.effect setting world).opens?) := by
  cases h : ApiCall.ofJson (plan.resolved world) with
  | error error =>
    rw [World.startCall_of_error h, effect, h]
    rfl
  | ok api =>
    rw [World.startCall_of_ok h, effect, h]
    rfl

/-- Starting a call ends none, and can happen in a view that has not ended. -/
theorem effect_fits (setting : Setting) (plan : CallPlan) (h : world.ended = false) :
    (plan.effect setting world).closes? = none ∧ (plan.effect setting world).Fits world := by
  rw [effect]
  cases ApiCall.ofJson (plan.resolved world) with
  | error error => exact ⟨rfl, h⟩
  | ok api => exact ⟨rfl, h, rfl⟩

end CallPlan

/-- When the reply that a call waits for comes; none when it need not wait. -/
def Call.waitsUntil (world : World) (call : Call) : Option Nat :=
  if world.ended || call.due ≤ world.now then none else some call.due

theorem Call.waitsUntil_of_ended {world : World} {call : Call} (h : world.ended = true) :
    call.waitsUntil world = none := by
  rw [waitsUntil, h, Bool.true_or, if_pos rfl]

theorem Call.waitsUntil_eq_some_iff {world : World} {call : Call} {due : Nat} :
    call.waitsUntil world = some due ↔
      world.ended = false ∧ world.now < due ∧ call.due = due := by
  unfold waitsUntil
  cases hended : world.ended with
  | true => simp
  | false =>
    by_cases hlate : call.due ≤ world.now
    · simp only [Bool.false_or, decide_eq_true_eq, hlate, if_true]
      constructor
      · exact fun h => absurd h (by simp)
      · rintro ⟨-, hnow, rfl⟩
        omega
    · simp only [Bool.false_or, decide_eq_true_eq, hlate, if_false, Option.some.injEq]
      constructor
      · rintro rfl
        exact ⟨trivial, by omega, rfl⟩
      · exact fun h => h.2.2

/-- What the end of a call in flight does. -/
def Call.effect (world : World) (call : Call) : Effect :=
  if world.ended then .dropped call else .settled call

section

variable {setting : Setting} {world : World} {call : Call}

theorem Call.apply_effect :
    (call.effect world).apply setting world = (world.settleCall setting call).1 := by
  by_cases h : world.ended
  · rw [Call.effect, if_pos h, World.settleCall_of_ended h]
    rfl
  · rw [Call.effect, if_neg h]
    rfl

theorem Call.effect_fits (world : World) (call : Call) : (call.effect world).closes? = some call ∧
    (call.effect world).opens? = none ∧ (call.effect world).Fits world := by
  by_cases h : world.ended
  · rw [Call.effect, if_pos h]
    exact ⟨rfl, rfl, h⟩
  · rw [Call.effect, if_neg h]
    exact ⟨rfl, rfl, Bool.eq_false_iff.mpr h⟩

end

/-- The world after a step, and the calls in flight before and after it, are those of its effect and
of the links it logs; in a view that has ended each of these links was skipped. -/
structure Steps (setting : Setting) (world : World) (effect : Effect) (news : List LinkReport)
    (before after : Option Call) (later : World) : Prop where
  world_eq : later = (effect.apply setting world).recordAll news
  closes : effect.closes? = before
  opens : effect.opens? = after
  fits : effect.Fits world
  skipped : world.ended = true → ∀ link ∈ news, link.status = .skipped

/-- A step has its effect, and the log is given the links that the step settles. -/
theorem Steps.eq {setting : Setting} {world later : World} {effect : Effect}
    {news : List LinkReport} {before after : Option Call}
    (h : Steps setting world effect news before after later) :
    later = { effect.apply setting world with
      log := news.foldl (fun log link => log.record world.now link) world.log } := by
  have hlog := World.log_recordAll (effect.apply setting world) news
  rw [Effect.log_apply, Effect.now_apply] at hlog
  rw [h.world_eq, World.recordAll_eq, hlog]

/-- A step that leaves the world as it is. -/
theorem Steps.idle {setting : Setting} {world : World} :
    Steps setting world .idle [] none none world :=
  ⟨rfl, rfl, rfl, trivial, fun _ _ hmem => absurd hmem List.not_mem_nil⟩

/-! ### Actions -/

namespace Action

/-- What starting an action does in a view that has not ended. -/
def effect (setting : Setting) (world : World) (event : Option Json) (action : Action) : Effect :=
  match action.kind, action.target with
  | .setState, some target =>
    .wrote target ((world.scope event).expandIn (action.params.getD .null))
  | .api, some target => (action.callPlan target event).effect setting world
  | .navigate, _ =>
    match action.location? with
    | some location => .visited ((world.scope event).expand location)
    | none => .idle
  | _, _ => .idle

/-- How an action ends that settles as it starts; a call does so when it cannot be made. -/
def promptStatus (action : Action) : Status :=
  match action.kind with
  | .setState | .submit => if action.target.isSome then .succeeded else .failed
  | .api => .failed
  | .navigate => if action.location?.isSome then .navigated else .failed
  | .unknown _ => .skipped

/-- The action that follows one that started in a world and ended with a status. -/
def next (world : World) (action : Action) (status : Status) : Option Action :=
  match action.kind, status with
  | .api, .succeeded => action.onSuccess
  | .api, .failed => action.onError
  | .submit, .succeeded => action.target.map fun target =>
    action.submitCall target (world.store.get? (action.submitSource target))
  | _, _ => none

variable {setting : Setting} {world : World} {event : Option Json} {action : Action}

/-- Starting an action ends no call, and can happen in a view that has not ended. -/
theorem effect_fits (setting : Setting) (event : Option Json) (action : Action)
    (h : world.ended = false) :
    (action.effect setting world event).closes? = none ∧
      (action.effect setting world event).Fits world := by
  rw [effect]
  split
  · exact ⟨rfl, h⟩
  · exact CallPlan.effect_fits setting _ h
  · split
    · exact ⟨rfl, h⟩
    · exact ⟨rfl, trivial⟩
  · exact ⟨rfl, trivial⟩

/-- Only a remote call leaves a call in flight. -/
theorem kind_of_opens {call : Call}
    (h : (action.effect setting world event).opens? = some call) : action.kind = .api := by
  unfold effect at h
  split at h
  · exact absurd h (by simp [Effect.opens?])
  · assumption
  · split at h <;> exact absurd h (by simp [Effect.opens?])
  · exact absurd h (by simp [Effect.opens?])

end Action

/-! ### Chains -/

namespace Chain

/-- The call of a chain that is in flight. -/
def call? (chain : Chain) : Option Call :=
  match chain.stage with
  | .calling _ call => some call
  | _ => none

/-- What the next step of a chain does. -/
def effect (setting : Setting) (world : World) (chain : Chain) : Effect :=
  match chain.stage with
  | .ready action => if world.ended then .idle else action.effect setting world chain.event
  | .calling _ call => call.effect world
  | .done => .idle

/-- The links the next step of a chain settles. -/
def news (setting : Setting) (world : World) (chain : Chain) : List LinkReport :=
  match chain.stage with
  | .ready action =>
    if world.ended then [.ofAction action .skipped]
    else
      match (action.effect setting world chain.event).opens? with
      | some _ => []
      | none => [.ofAction action action.promptStatus]
  | .calling action call => [.ofAction action (world.settleCall setting call).2.status]
  | .done => []

variable {setting : Setting} {world : World} {chain : Chain} {action : Action}

/-- An action starts by its effect; unless that leaves a call in flight, it settles at once. -/
theorem runAction_eq : chain.runAction setting world action =
    let effect := action.effect setting world chain.event
    match effect.opens? with
    | some call => (effect.apply setting world, { chain with stage := .calling action call })
    | none => chain.settle (effect.apply setting world) action action.promptStatus
        (action.next world action.promptStatus) := by
  obtain ⟨kind, target, params, onSuccess, onError⟩ := action
  -- An action without the target it needs fails, and so settles at once like the others.
  cases kind with
  | setState =>
    cases target with
    | none => rfl
    | some target => rfl
  | api =>
    cases target with
    | none => rfl
    | some target =>
      simp only [runAction, runApi, CallPlan.startCall_eq, Action.effect]
      cases (CallPlan.effect setting world _).opens? with
      | none => rfl
      | some call => rfl
  | submit =>
    cases target with
    | none => rfl
    | some target => rfl
  | navigate =>
    simp only [runAction, runNavigate, Action.effect, Action.promptStatus]
    cases Action.location? _ with
    | none => rfl
    | some location => rfl
  | unknown name => rfl

theorem step_ready (h : chain.stage = .ready action) (hlive : world.ended = false) :
    chain.step setting world = chain.runAction setting world action := by
  simp only [step, h, hlive, Bool.false_eq_true, if_false]

theorem step_ended (h : chain.stage = .ready action) (hended : world.ended = true) :
    chain.step setting world = chain.settle world action .skipped none := by
  simp only [step, h, hended, if_true]

theorem step_calling {call : Call} (h : chain.stage = .calling action call) :
    chain.step setting world = chain.settle ((call.effect world).apply setting world) action
      (world.settleCall setting call).2.status
      (action.continuation (world.settleCall setting call).2) := by
  simp only [step, h, Call.apply_effect]

theorem call?_settle {status : Status} {next : Option Action} :
    (chain.settle world action status next).2.call? = none := by
  cases next with
  | none => rfl
  | some next => rfl

/-- **A step of a chain** does its effect and then logs its news, which are the links it adds. -/
theorem step_spec (setting : Setting) (world : World) (chain : Chain) :
    Steps setting world (chain.effect setting world) (chain.news setting world)
      chain.call? (chain.step setting world).2.call? (chain.step setting world).1 ∧
      (chain.step setting world).2.links = chain.links ++ chain.news setting world := by
  obtain ⟨event, stage, links⟩ := chain
  cases stage with
  | ready action =>
    cases hended : world.ended with
    | true =>
      rw [step_ended rfl hended, call?_settle]
      simp only [effect, news, hended, if_true]
      refine ⟨⟨rfl, rfl, rfl, trivial, ?_⟩, rfl⟩
      intro _ link hmem
      rw [List.mem_singleton.mp hmem]
      rfl
    | false =>
      obtain ⟨hcloses, hfits⟩ := Action.effect_fits setting event action hended
      have hskipped : ¬ world.ended = true := by simp [hended]
      rw [step_ready rfl hended, runAction_eq]
      simp only [effect, news, hended, Bool.false_eq_true, if_false]
      -- A call in flight settles its link later; every other action settles it now.
      cases hopens : (action.effect setting world event).opens? with
      | some call =>
        have hlinks : links = links ++ [] := (List.append_nil links).symm
        exact ⟨⟨rfl, hcloses, hopens, hfits, fun h => absurd h hskipped⟩, hlinks⟩
      | none =>
        rw [call?_settle]
        exact ⟨⟨rfl, hcloses, hopens, hfits, fun h => absurd h hskipped⟩, rfl⟩
  | calling action call =>
    obtain ⟨hcloses, hopens, hfits⟩ := Call.effect_fits world call
    rw [step_calling rfl, call?_settle]
    refine ⟨⟨rfl, hcloses, hopens, hfits, ?_⟩, rfl⟩
    intro hended link hmem
    rw [List.mem_singleton.mp hmem, World.settleCall_of_ended hended]
    rfl
  | done => exact ⟨.idle, (List.append_nil links).symm⟩

/-- What becomes of a chain that goes on in a view that has ended. -/
def skip (chain : Chain) : Chain :=
  match chain.stage with
  | .ready action | .calling action _ =>
    { chain with stage := .done, links := chain.links ++ [.ofAction action .skipped] }
  | .done => chain

theorem step_of_ended (h : world.ended = true) : (chain.step setting world).2 = chain.skip := by
  obtain ⟨event, stage, links⟩ := chain
  cases stage with
  | ready action =>
    rw [step_ended rfl h]
    rfl
  | calling action call =>
    rw [step_calling rfl, World.settleCall_of_ended h]
    rfl
  | done => rfl

theorem waitsUntil_eq : chain.waitsUntil world = chain.call?.bind (Call.waitsUntil world) := by
  obtain ⟨event, stage, links⟩ := chain
  cases stage <;> rfl

theorem stage_of_isDone (h : chain.isDone = true) : chain.stage = .done := by
  unfold isDone at h
  split at h
  · assumption
  · exact absurd h Bool.false_ne_true

end Chain

/-! ### Handlers -/

namespace HandlerRun

/-- The call of a handler that is in flight. -/
def call? (run : HandlerRun) : Option Call := run.current.bind Chain.call?

/-- What the next step of a handler does. -/
def effect (setting : Setting) (world : World) (run : HandlerRun) : Effect :=
  match run.current with
  | some chain => chain.effect setting world
  | none => .idle

/-- The links the next step of a handler settles. -/
def news (setting : Setting) (world : World) (run : HandlerRun) : List LinkReport :=
  match run.current with
  | some chain => chain.news setting world
  | none => []

/-- What becomes of a handler that goes on in a view that has ended. -/
def skip (run : HandlerRun) : HandlerRun :=
  match run.current with
  | some chain =>
    if chain.isDone then { run with current := none, reports := run.reports ++ [chain.links] }
    else { run with current := some chain.skip }
  | none =>
    match run.pending with
    | [] => run
    | action :: pending =>
      { run with pending, current := some (.start action (some run.payload)) }

variable {setting : Setting} {world : World} {run : HandlerRun}

/-- **A step of a handler** does its effect and then logs its news. -/
theorem step_spec (setting : Setting) (world : World) (run : HandlerRun) :
    Steps setting world (run.effect setting world) (run.news setting world)
      run.call? (run.step setting world).2.call? (run.step setting world).1 := by
  obtain ⟨event, payload, pending, current, reports⟩ := run
  cases current with
  | some chain =>
    cases hdone : chain.isDone with
    | true =>
      -- The step puts a chain down that has ended, and a chain at its end does nothing.
      have hstage := Chain.stage_of_isDone hdone
      simp only [step, effect, news, call?, hdone, if_true, Option.bind_some, Option.bind_none,
        Chain.effect, Chain.news, Chain.call?, hstage]
      exact .idle
    | false =>
      simp only [step, effect, news, call?, hdone, Bool.false_eq_true, if_false, Option.bind_some]
      exact (chain.step_spec setting world).1
  | none =>
    cases pending with
    | nil => exact .idle
    | cons action pending => exact .idle

theorem step_of_ended (h : world.ended = true) : (run.step setting world).2 = run.skip := by
  obtain ⟨event, payload, pending, current, reports⟩ := run
  cases current with
  | some chain =>
    cases hdone : chain.isDone with
    | true => simp only [step, skip, hdone, if_true]
    | false =>
      simp only [step, skip, hdone, Bool.false_eq_true, if_false]
      rw [Chain.step_of_ended h]
  | none =>
    cases pending with
    | nil => rfl
    | cons action pending => rfl

theorem waitsUntil_eq : run.waitsUntil world = run.call?.bind (Call.waitsUntil world) := by
  unfold waitsUntil call?
  cases run.current with
  | none => rfl
  | some chain => exact Chain.waitsUntil_eq

/-- A handler at its end has nothing under way and nothing to come. -/
theorem idle_of_isDone (h : run.isDone = true) : run.current = none ∧ run.pending = [] := by
  rw [isDone, Bool.and_eq_true_iff] at h
  exact ⟨Option.isNone_iff_eq_none.mp h.1, List.isEmpty_iff.mp h.2⟩

end HandlerRun

/-! ### Loads -/

/-- A view that has ended, as far as it matters to a queue. -/
def World.over : World := { ended := true, log := .empty {} }

namespace QueueRun

/-- The call of a queue that is in flight. -/
def call? (run : QueueRun) : Option Call :=
  match run.current with
  | some (.calling _ call) => some call
  | some (.following _ _ chain) => chain.call?
  | none => none

/-- What the next step of a queue does. -/
def effect (setting : Setting) (world : World) (run : QueueRun) : Effect :=
  match run.current, run.pending with
  | some (.calling _ call), _ => call.effect world
  | some (.following _ _ chain), _ => chain.effect setting world
  | none, spec :: _ => if world.ended then .idle else spec.callPlan.effect setting world
  | none, [] => .idle

/-- The links the next step of a queue settles. -/
def news (setting : Setting) (world : World) (run : QueueRun) : List LinkReport :=
  match run.current, run.pending with
  | some (.calling spec call), _ => [spec.link (world.settleCall setting call).2.status]
  | some (.following _ _ chain), _ => chain.news setting world
  | none, spec :: _ =>
    if world.ended then [spec.link .skipped]
    else
      match (spec.callPlan.effect setting world).opens? with
      | some _ => []
      | none => [spec.link .failed]
  | none, [] => []

/-- What becomes of a queue that goes on in a view that has ended. -/
def skip (run : QueueRun) : QueueRun :=
  match run.current, run.pending with
  | some (.calling spec _), _ => run.close .over (leftOut spec)
  | some (.following spec status chain), _ =>
    if chain.isDone then run.close .over ⟨spec.key, status, some chain.links⟩
    else { run with current := some (.following spec status chain.skip) }
  | none, spec :: pending => { run with pending }.close .over (leftOut spec)
  | none, [] => run

variable {setting : Setting} {world other : World} {run : QueueRun} {spec : FetchSpec}
  {outcome : Outcome} {record : FetchRecord}

theorem call?_close : (run.close world record).call? = none := by
  unfold close
  dsimp only
  split <;> rfl

theorem fst_settle :
    (run.settle world spec outcome).1 = world.record (spec.link outcome.status) := by
  unfold settle
  dsimp only
  split <;> rfl

theorem call?_settle : (run.settle world spec outcome).2.call? = none := by
  unfold settle
  dsimp only
  split
  · rfl
  · exact call?_close

/-- How a load is finished depends on the world only by whether the view has ended. -/
theorem close_congr (h : world.ended = other.ended) :
    run.close world record = run.close other record := by
  have hstops : run.stopsAfter world record.status = run.stopsAfter other record.status := by
    unfold stopsAfter
    rw [h]
  unfold close
  rw [hstops]

/-- **A step of a queue** does its effect and then logs its news. -/
theorem step_spec (setting : Setting) (world : World) (run : QueueRun) :
    Steps setting world (run.effect setting world) (run.news setting world)
      run.call? (run.step setting world).2.call? (run.step setting world).1 := by
  obtain ⟨abort, pending, current, records⟩ := run
  cases current with
  | some stage =>
    cases stage with
    | calling spec call =>
      obtain ⟨hcloses, hopens, hfits⟩ := Call.effect_fits world call
      simp only [step, effect, news]
      rw [call?_settle, fst_settle]
      refine ⟨by rw [Call.apply_effect]; rfl, hcloses, hopens, hfits, ?_⟩
      intro hended link hmem
      rw [List.mem_singleton.mp hmem, World.settleCall_of_ended hended]
      rfl
    | following spec status chain =>
      cases hdone : chain.isDone with
      | true =>
        have hstage := Chain.stage_of_isDone hdone
        simp only [step, hdone, if_true, call?_close]
        simp only [effect, news, call?, Chain.effect, Chain.news, Chain.call?, hstage]
        exact .idle
      | false =>
        simp only [step, effect, news, call?, hdone, Bool.false_eq_true, if_false]
        exact (chain.step_spec setting world).1
  | none =>
    cases pending with
    | nil => exact .idle
    | cons spec pending =>
      cases hended : world.ended with
      | true =>
        -- A load that finds the view ended is skipped without a call.
        simp only [step, startFetch, effect, news, hended, if_true, call?_close]
        refine ⟨rfl, rfl, rfl, trivial, ?_⟩
        intro _ link hmem
        rw [List.mem_singleton.mp hmem]
        rfl
      | false =>
        obtain ⟨hcloses, hfits⟩ := CallPlan.effect_fits setting spec.callPlan hended
        have hskipped : ¬ world.ended = true := by simp [hended]
        simp only [step, startFetch, effect, news, hended, Bool.false_eq_true, if_false,
          CallPlan.startCall_eq]
        cases hopens : (spec.callPlan.effect setting world).opens? with
        | some call => exact ⟨rfl, hcloses, hopens, hfits, fun h => absurd h hskipped⟩
        | none =>
          dsimp only
          rw [call?_settle, fst_settle]
          exact ⟨rfl, hcloses, hopens, hfits, fun h => absurd h hskipped⟩

theorem step_of_ended (h : world.ended = true) : (run.step setting world).2 = run.skip := by
  -- How a queue goes on from a load depends on the world, but only by whether the view has ended.
  have hover : world.ended = World.over.ended := h
  obtain ⟨abort, pending, current, records⟩ := run
  cases current with
  | some stage =>
    cases stage with
    | calling spec call =>
      simp only [step, skip, World.settleCall_of_ended h]
      exact close_congr hover
    | following spec status chain =>
      cases hdone : chain.isDone with
      | true =>
        simp only [step, skip, hdone, if_true]
        exact close_congr hover
      | false =>
        simp only [step, skip, hdone, Bool.false_eq_true, if_false]
        rw [Chain.step_of_ended h]
  | none =>
    cases pending with
    | nil => rfl
    | cons spec pending =>
      simp only [step, startFetch, skip, h, if_true]
      exact close_congr hover

theorem waitsUntil_eq : run.waitsUntil world = run.call?.bind (Call.waitsUntil world) := by
  unfold waitsUntil call?
  cases run.current with
  | none => rfl
  | some stage =>
    cases stage with
    | calling spec call => rfl
    | following spec status chain => exact Chain.waitsUntil_eq

/-- A queue at its end has nothing under way and nothing to come. -/
theorem idle_of_isDone (h : run.isDone = true) : run.current = none ∧ run.pending = [] := by
  rw [isDone, Bool.and_eq_true_iff] at h
  exact ⟨Option.isNone_iff_eq_none.mp h.1, List.isEmpty_iff.mp h.2⟩

end QueueRun

/-! ### Jobs -/

namespace Job

/-- The call of a job that is in flight. -/
def call? : Job → Option Call
  | chain run => run.call?
  | handler run => run.call?
  | queue run => run.call?

/-- What the next step of a job does. -/
def effect (setting : Setting) (world : World) : Job → Effect
  | chain run => run.effect setting world
  | handler run => run.effect setting world
  | queue run => run.effect setting world

/-- The links the next step of a job settles. -/
def news (setting : Setting) (world : World) : Job → List LinkReport
  | chain run => run.news setting world
  | handler run => run.news setting world
  | queue run => run.news setting world

/-- What becomes of a job that goes on in a view that has ended: the link or load it stands at is
skipped with all that would follow. -/
def skip : Job → Job
  | chain run => chain run.skip
  | handler run => handler run.skip
  | queue run => queue run.skip

variable {setting : Setting} {world : World} {job : Job}

/-- **A step of a job** does its effect and then logs its news. -/
theorem step_spec (setting : Setting) (world : World) (job : Job) :
    Steps setting world (job.effect setting world) (job.news setting world)
      job.call? (job.step setting world).2.call? (job.step setting world).1 := by
  cases job with
  | chain run => exact (run.step_spec setting world).1
  | handler run => exact run.step_spec setting world
  | queue run => exact run.step_spec setting world

theorem snd_step_of_ended (h : world.ended = true) : (job.step setting world).2 = job.skip := by
  cases job with
  | chain run => exact congrArg Job.chain (Chain.step_of_ended h)
  | handler run => exact congrArg Job.handler (HandlerRun.step_of_ended h)
  | queue run => exact congrArg Job.queue (QueueRun.step_of_ended h)

/-- In a view that has ended a step of a job at most drops the call in flight. -/
theorem effect_of_ended (setting : Setting) (job : Job) (h : world.ended = true) :
    job.effect setting world = .idle ∨ ∃ call, job.effect setting world = .dropped call := by
  -- Of the effects, only these two fit a view that has ended.
  have hfits := (job.step_spec setting world).fits
  cases heffect : job.effect setting world with
  | idle => exact .inl rfl
  | dropped call => exact .inr ⟨call, rfl⟩
  | started call request =>
    rw [heffect] at hfits
    exact absurd (h.symm.trans hfits.1) (by decide)
  | _ =>
    rw [heffect] at hfits
    exact absurd (h.symm.trans hfits) (by decide)

/-- **A step in a view that has ended** changes nothing but the log, and logs skipped links only. -/
theorem step_of_ended (setting : Setting) (job : Job) (h : world.ended = true) :
    job.step setting world = (world.recordAll (job.news setting world), job.skip) ∧
      ∀ link ∈ job.news setting world, link.status = .skipped := by
  have hspec := job.step_spec setting world
  refine ⟨Prod.ext ?_ (snd_step_of_ended h), hspec.skipped h⟩
  rw [hspec.world_eq]
  rcases job.effect_of_ended setting h with heffect | ⟨call, heffect⟩
  · rw [heffect]
    rfl
  · rw [heffect]
    rfl

/-- A job at its end has no call in flight. -/
theorem call?_of_isDone (h : job.isDone = true) : job.call? = none := by
  cases job with
  | chain run =>
    show run.call? = none
    rw [Chain.call?, Chain.stage_of_isDone h]
  | handler run =>
    show run.call? = none
    rw [HandlerRun.call?, (HandlerRun.idle_of_isDone h).1, Option.bind_none]
  | queue run =>
    show run.call? = none
    rw [QueueRun.call?, (QueueRun.idle_of_isDone h).1]

/-- The steps of a job at its end do nothing. -/
theorem step_of_isDone (h : job.isDone = true) : job.step setting world = (world, job) := by
  cases job with
  | chain run => simp only [step, Chain.step, Chain.stage_of_isDone h]
  | handler run =>
    obtain ⟨hcurrent, hpending⟩ := HandlerRun.idle_of_isDone h
    simp only [step, HandlerRun.step, hcurrent, hpending]
  | queue run =>
    obtain ⟨hcurrent, hpending⟩ := QueueRun.idle_of_isDone h
    simp only [step, QueueRun.step, hcurrent, hpending]

/-- A job waits while its call does. -/
theorem waitsUntil_eq : job.waitsUntil world = job.call?.bind (Call.waitsUntil world) := by
  cases job with
  | chain run => exact run.waitsUntil_eq
  | handler run => exact run.waitsUntil_eq
  | queue run => exact run.waitsUntil_eq

/-- The end of a view interrupts every wait. -/
theorem waitsUntil_of_ended (h : world.ended = true) : job.waitsUntil world = none := by
  rw [waitsUntil_eq]
  cases job.call? with
  | none => rfl
  | some call => exact Call.waitsUntil_of_ended h

end Job

end ViewTree
