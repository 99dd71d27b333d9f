import ViewTree.Proofs.Dispatch.Work
import ViewTree.View

/-!
# A load is a remote call

A load of a mount and the dispatch of the remote call it stands for (`FetchSpec.action`) are two
programs: a load keeps a record of its own, picks the action that follows it and dispatches that
action anew, where a dispatch goes on along its chain.  `Mirrors` relates the places where the two
stand after as many steps.  The first step brings them there (`mirrors_start`), every further
step does the same to the world and keeps them there (`Mirrors.step`), and so does a whole run
(`Mirrors.along`), whatever happens between the steps.  `load_is_call` reads off what a host sees.

A dispatch has no transforms.  That of a load is applied when its call settles, so that the load
does what the dispatch does when the payload in flight has gone through the transform already.
-/

namespace ViewTree

/-- The remote call a load stands for, with what follows the load. -/
def FetchSpec.action (spec : FetchSpec) : Action :=
  { Action.api spec.key spec.api with onSuccess := spec.onSuccess, onError := spec.onError }

/-- A call whose payload goes through a function first. -/
def Call.withPayload (f : Json → Json) (call : Call) : Call :=
  { call with reply := call.reply.map f }

/-- A chain whose call in flight, if there is one, gets its payload through a function. -/
def Chain.withPayload (f : Json → Json) (chain : Chain) : Chain :=
  match chain.stage with
  | .calling action call => { chain with stage := .calling action (call.withPayload f) }
  | _ => chain

theorem Chain.withPayload_id (chain : Chain) : chain.withPayload id = chain := by
  obtain ⟨event, stage, links⟩ := chain
  cases stage with
  | calling action call =>
    obtain ⟨target, transform, reply, due⟩ := call
    cases reply <;> rfl
  | _ => rfl

theorem Chain.withPayload_of_call?_eq_none {f : Json → Json} {chain : Chain}
    (h : chain.call? = none) : chain.withPayload f = chain := by
  obtain ⟨event, stage, links⟩ := chain
  cases stage with
  | calling action call => exact absurd h (by simp [call?])
  | _ => rfl

namespace Job

/-- A job that takes one step after each of these happenings, and the world it leaves. -/
def along (setting : Setting) : List (World → World) → World → Job → World × Job
  | [], world, job => (world, job)
  | happening :: outside, world, job =>
    let (world, job) := job.step setting (happening world)
    along setting outside world job

variable {setting : Setting} {world : World} {job : Job} {outside : List (World → World)}

theorem along_cons (happening : World → World) :
    job.along setting (happening :: outside) world
      = (job.step setting (happening world)).2.along setting outside
        (job.step setting (happening world)).1 := rfl

/-- A job is at its end once it has taken the steps that were left. -/
theorem isDone_along (h : job.left ≤ outside.length) :
    (job.along setting outside world).2.isDone = true := by
  induction outside generalizing world job with
  | nil =>
    by_contra hgoes
    have hfalls := left_step setting world (Bool.eq_false_iff.mpr hgoes)
    exact absurd (Nat.lt_of_lt_of_le hfalls h) (Nat.not_lt_zero _)
  | cons happening outside ih =>
    rw [along_cons]
    refine ih ?_
    cases hdone : job.isDone with
    | true =>
      rw [step_of_isDone hdone, left_of_isDone hdone]
      exact Nat.zero_le _
    | false => exact Nat.le_of_lt_succ (Nat.lt_of_lt_of_le (left_step _ _ hdone) h)

end Job

/-- A chain whose links come after others. -/
def Chain.after (links : DispatchReport) (chain : Chain) : Chain :=
  { chain with links := links ++ chain.links }

section

variable {setting : Setting} {world : World}

/-- A transform can be applied to a payload before its call settles. -/
theorem World.settleCall_withPayload {call : Call} (h : call.transform = none)
    (name : Option String) :
    world.settleCall setting (call.withPayload (setting.transforms.applyOption name))
      = world.settleCall setting { call with transform := name } := by
  obtain ⟨target, transform, reply, due⟩ := call
  obtain rfl : transform = none := h
  cases reply with
  | ok payload => rfl
  | error error => rfl

/-- A call that starts, under another transform. -/
def Effect.withTransform (name : Option String) : Effect → Effect
  | .started call request => .started { call with transform := name } request
  | effect => effect

theorem Effect.apply_withTransform (effect : Effect) (name : Option String) :
    (effect.withTransform name).apply setting world = effect.apply setting world := by
  cases effect <;> rfl

theorem Effect.opens?_withTransform (effect : Effect) (name : Option String) :
    (effect.withTransform name).opens?
      = effect.opens?.map fun call => { call with transform := name } := by
  cases effect <;> rfl

/-- The call of a load starts like that of its dispatch, apart from the transform. -/
theorem FetchSpec.effect_callPlan (spec : FetchSpec) : spec.callPlan.effect setting world
    = ((spec.action.callPlan spec.key none).effect setting world).withTransform spec.transform := by
  have hresolved : spec.callPlan.resolved world
      = (spec.action.callPlan spec.key none).resolved world := rfl
  unfold CallPlan.effect
  rw [hresolved]
  cases ApiCall.ofJson ((spec.action.callPlan spec.key none).resolved world) with
  | error error => rfl
  | ok api => rfl

theorem CallPlan.transform_of_opens {plan : CallPlan} {call : Call}
    (h : (plan.effect setting world).opens? = some call) : call.transform = plan.transform := by
  unfold CallPlan.effect at h
  cases happi : ApiCall.ofJson (plan.resolved world) with
  | error error =>
    rw [happi] at h
    exact absurd h (by simp [Effect.opens?])
  | ok api =>
    rw [happi] at h
    exact (congrArg Call.transform (Option.some.inj h)).symm

/-- The links a chain has settled before play no part in its steps. -/
theorem Chain.step_after (links : DispatchReport) (chain : Chain) :
    (chain.after links).step setting world
      = ((chain.step setting world).1, (chain.step setting world).2.after links) := by
  have hsettle : ∀ (world : World) (action : Action) (status : Status) (next : Option Action),
      (chain.after links).settle world action status next
        = ((chain.settle world action status next).1,
          (chain.settle world action status next).2.after links) := by
    intro world action status next
    simp only [Chain.settle, Chain.after, List.append_assoc]
  obtain ⟨event, stage, done⟩ := chain
  cases stage with
  | ready action =>
    cases hended : world.ended with
    | true => rw [Chain.step_ended rfl hended, Chain.step_ended rfl hended, hsettle]
    | false =>
      rw [Chain.step_ready rfl hended, Chain.step_ready rfl hended, Chain.runAction_eq,
        Chain.runAction_eq]
      have hevent : (Chain.after links ⟨event, .ready action, done⟩).event = event := rfl
      rw [hevent]
      dsimp only
      cases (action.effect setting world event).opens? with
      | none => exact hsettle _ _ _ _
      | some call => rfl
  | calling action call => rw [Chain.step_calling rfl, Chain.step_calling rfl, hsettle]
  | done => rfl

end

/-! ### In step -/

/-- Where a load and the dispatch of its call stand after as many steps, the first one taken.  A
load takes one step more: it puts down the chain that followed it. -/
inductive Mirrors (setting : Setting) (spec : FetchSpec) (abort : Bool) : Job → Job → Prop
  /-- Both calls are in flight, and will settle alike. -/
  | calling {load call : Call} :
    (∀ world : World, world.settleCall setting load = world.settleCall setting call) →
    load.due = call.due →
    Mirrors setting spec abort (.queue ⟨abort, [], some (.calling spec load), []⟩)
      (.chain ⟨none, .calling spec.action call, []⟩)
  /-- The chain that follows the load is the rest of the dispatch. -/
  | following {status : Status} {chain : Chain} :
    Mirrors setting spec abort (.queue ⟨abort, [], some (.following spec status chain), []⟩)
      (.chain (chain.after [spec.link status]))
  /-- Both have ended. -/
  | closed {record : FetchRecord} {chain : Chain} :
    record.key = spec.key → chain.isDone = true →
    chain.links = spec.link record.status :: record.continuation.getD [] →
    Mirrors setting spec abort (.queue ⟨abort, [], none, [record]⟩) (.chain chain)

section

variable {setting : Setting} {world : World} {spec : FetchSpec} {abort : Bool}

theorem QueueRun.close_last (current : Option FetchStage) (record : FetchRecord) :
    QueueRun.close world ⟨abort, [], current, []⟩ record = ⟨abort, [], none, [record]⟩ := by
  unfold QueueRun.close
  dsimp only
  split <;> rfl

/-- A load and its dispatch settle the same link and go on to the same action. -/
theorem mirrors_settle (setting : Setting) (world : World) (spec : FetchSpec) (abort : Bool)
    (current : Option FetchStage) (stage : Stage) (outcome : Outcome) :
    let load := QueueRun.settle world ⟨abort, [], current, []⟩ spec outcome
    let call := Chain.settle world ⟨none, stage, []⟩ spec.action outcome.status
      (spec.action.continuation outcome)
    load.1 = call.1 ∧ Mirrors setting spec abort (.queue load.2) (.chain call.2) := by
  intro load call
  have hnext : spec.action.continuation outcome = spec.continuation outcome := by
    cases outcome <;> rfl
  cases h : spec.continuation outcome with
  | some action =>
    have hload : load = (world.record (spec.link outcome.status),
        ⟨abort, [], some (.following spec outcome.status (.start action none)), []⟩) := by
      simp only [load, QueueRun.settle, h]
    have hcall : call = (world.record (spec.link outcome.status),
        (Chain.start action none).after [spec.link outcome.status]) := by
      simp only [call, Chain.settle, hnext, h]
      rfl
    rw [hload, hcall]
    exact ⟨rfl, .following⟩
  | none =>
    have hload : load = (world.record (spec.link outcome.status),
        ⟨abort, [], none, [⟨spec.key, outcome.status, none⟩]⟩) := by
      simp only [load, QueueRun.settle, h, QueueRun.close_last]
    have hcall : call = (world.record (spec.link outcome.status),
        ⟨none, .done, [spec.link outcome.status]⟩) := by
      simp only [call, Chain.settle, hnext, h]
      rfl
    rw [hload, hcall]
    exact ⟨rfl, .closed rfl rfl rfl⟩

/-- The first step of a load and that of its dispatch, the payload of the latter transformed. -/
theorem mirrors_start (setting : Setting) (world : World) (spec : FetchSpec) (abort : Bool) :
    let load := QueueRun.step setting world (.start [spec] abort)
    let call := Chain.step setting world (.start spec.action none)
    load.1 = call.1 ∧ Mirrors setting spec abort (.queue load.2)
      (.chain (call.2.withPayload (setting.transforms.applyOption spec.transform))) := by
  intro load call
  cases hended : world.ended with
  | true =>
    have hload : load = (world.record (spec.link .skipped),
        ⟨abort, [], none, [QueueRun.leftOut spec]⟩) := by
      simp only [load, QueueRun.start, QueueRun.step, QueueRun.startFetch, hended, if_true,
        QueueRun.close_last]
    have hcall : call = (world.record (spec.link .skipped),
        ⟨none, .done, [spec.link .skipped]⟩) := by
      simp only [call]
      rw [Chain.step_ended rfl hended]
      rfl
    rw [hload, hcall]
    exact ⟨rfl, .closed rfl rfl rfl⟩
  | false =>
    have heffect : spec.action.effect setting world none
        = (spec.action.callPlan spec.key none).effect setting world := rfl
    have hload : load = QueueRun.startFetch setting world ⟨abort, [], none, []⟩ spec := rfl
    have hcall : call = Chain.runAction setting world (.start spec.action none) spec.action :=
      Chain.step_ready rfl hended
    rw [hload, hcall, Chain.runAction_eq, QueueRun.startFetch, hended, if_neg Bool.false_ne_true,
      CallPlan.startCall_eq, FetchSpec.effect_callPlan, Effect.apply_withTransform,
      Effect.opens?_withTransform]
    dsimp only [Chain.start]
    rw [heffect]
    cases hopens : ((spec.action.callPlan spec.key none).effect setting world).opens? with
    | some opened =>
      refine ⟨rfl, .calling (fun later => ?_) rfl⟩
      exact (World.settleCall_withPayload (CallPlan.transform_of_opens hopens) spec.transform).symm
    | none =>
      -- Neither has a request to send, and both fail at once.
      obtain ⟨hworld, hmirrors⟩ :=
        mirrors_settle setting _ spec abort none (.ready spec.action) .failed
      refine ⟨hworld, ?_⟩
      rw [Chain.withPayload_of_call?_eq_none Chain.call?_settle]
      exact hmirrors

namespace Mirrors

variable {load call : Job}

/-- **A step keeps a load and its dispatch in step.** -/
theorem step (h : Mirrors setting spec abort load call) (world : World) :
    (load.step setting world).1 = (call.step setting world).1 ∧
      Mirrors setting spec abort (load.step setting world).2 (call.step setting world).2 := by
  cases h with
  | @calling load call hsettle hdue =>
    simp only [Job.step, QueueRun.step, Chain.step, hsettle]
    exact mirrors_settle ..
  | @following status chain =>
    cases hdone : chain.isDone with
    | true =>
      have hload : Job.step setting world
          (.queue ⟨abort, [], some (.following spec status chain), []⟩)
          = (world, .queue ⟨abort, [], none, [⟨spec.key, status, some chain.links⟩]⟩) := by
        simp only [Job.step, QueueRun.step, hdone, if_true, QueueRun.close_last]
      have hcall : (Job.chain (chain.after [spec.link status])).step setting world
          = (world, .chain (chain.after [spec.link status])) := Job.step_of_isDone hdone
      rw [hload, hcall]
      exact ⟨rfl, .closed rfl hdone rfl⟩
    | false =>
      have hload : Job.step setting world
          (.queue ⟨abort, [], some (.following spec status chain), []⟩)
          = ((chain.step setting world).1, .queue
            ⟨abort, [], some (.following spec status (chain.step setting world).2), []⟩) := by
        simp only [Job.step, QueueRun.step, hdone, Bool.false_eq_true, if_false]
      have hcall : (Job.chain (chain.after [spec.link status])).step setting world
          = ((chain.step setting world).1,
            .chain ((chain.step setting world).2.after [spec.link status])) := by
        rw [Job.step, Chain.step_after]
      rw [hload, hcall]
      exact ⟨rfl, .following⟩
  | @closed record chain hkey hdone hlinks =>
    have hrest : (Job.chain chain).step setting world = (world, .chain chain) :=
      Job.step_of_isDone hdone
    rw [hrest]
    exact ⟨rfl, .closed hkey hdone hlinks⟩

/-- **A run keeps a load and its dispatch in step**, whatever happens between the steps. -/
theorem along (h : Mirrors setting spec abort load call) (outside : List (World → World))
    (world : World) :
    (load.along setting outside world).1 = (call.along setting outside world).1 ∧
      Mirrors setting spec abort (load.along setting outside world).2
        (call.along setting outside world).2 := by
  induction outside generalizing world load call with
  | nil => exact ⟨rfl, h⟩
  | cons happening outside ih =>
    obtain ⟨hworld, hlater⟩ := h.step (happening world)
    rw [Job.along_cons, Job.along_cons, hworld]
    exact ih hlater _

theorem waitsUntil (h : Mirrors setting spec abort load call) (world : World) :
    load.waitsUntil world = call.waitsUntil world := by
  cases h with
  | @calling load call hsettle hdue =>
    show Call.waitsUntil world load = Call.waitsUntil world call
    rw [Call.waitsUntil, hdue]
    rfl
  | following => rfl
  | @closed record chain hkey hdone hlinks =>
    have hcall : (Job.chain chain).call? = none := Job.call?_of_isDone hdone
    have hrest : (Job.chain chain).waitsUntil world = none := by
      rw [Job.waitsUntil_eq, hcall, Option.bind_none]
    exact hrest.symm

/-- Where a load has ended its dispatch has, and with the same links. -/
theorem completion (h : Mirrors setting spec abort load call) (hdone : load.isDone = true) :
    call.isDone = true ∧ ∃ record : FetchRecord, record.key = spec.key ∧
      load.completion = .mounted [record] ∧
      call.completion = .dispatched (spec.link record.status :: record.continuation.getD []) := by
  cases h with
  | calling => exact absurd hdone (by simp [Job.isDone, QueueRun.isDone])
  | following => exact absurd hdone (by simp [Job.isDone, QueueRun.isDone])
  | @closed record chain hkey hended hlinks =>
    refine ⟨hended, record, hkey, rfl, ?_⟩
    rw [← hlinks]
    rfl

end Mirrors

end

/-- **A load is a remote call.**  Start a load and the dispatch of the remote call it stands for in
the same world.  Whatever happens to the world between their steps, the two do the same to it step
by step, its state, its requests and its log included, and wait for the same replies; only the
payload goes through the transform of the load before it is written, if it has one.  Both come to an
end, and the dispatch reports the link of the load and then the links of what followed it. -/
theorem load_is_call (setting : Setting) (world : World) (spec : FetchSpec) (abort : Bool)
    (outside : List (World → World)) :
    let transform := setting.transforms.applyOption spec.transform
    let load := QueueRun.step setting world (.start [spec] abort)
    let call := Chain.step setting world (.start spec.action none)
    let loaded := (Job.queue load.2).along setting outside load.1
    let called := (Job.chain (call.2.withPayload transform)).along setting outside call.1
    load.1 = call.1 ∧ loaded.1 = called.1 ∧
      (∀ later, loaded.2.waitsUntil later = called.2.waitsUntil later) ∧
      (spec.transform = none → call.2.withPayload transform = call.2) ∧
      (spec.work ≤ outside.length → loaded.2.isDone = true) ∧
      (loaded.2.isDone = true → called.2.isDone = true ∧
        ∃ record : FetchRecord, record.key = spec.key ∧
          loaded.2.completion = .mounted [record] ∧
          called.2.completion
            = .dispatched (spec.link record.status :: record.continuation.getD [])) := by
  intro transform load call loaded called
  obtain ⟨hworld, hstart⟩ := mirrors_start setting world spec abort
  obtain ⟨hlater, hmirrors⟩ := hstart.along outside load.1
  have hcalled : called = (Job.chain (call.2.withPayload transform)).along setting outside load.1 :=
    congrArg (fun world => Job.along setting outside world _) hworld.symm
  rw [← hcalled] at hlater hmirrors
  refine ⟨hworld, hlater, hmirrors.waitsUntil, ?_, ?_, hmirrors.completion⟩
  · intro hnone
    have hid : transform = id := by
      simp only [transform, hnone]
      rfl
    rw [hid, Chain.withPayload_id]
  · intro hlength
    have hwork : (QueueRun.start [spec] abort).work = spec.work := Nat.zero_add _
    refine Job.isDone_along (Nat.le_of_lt ?_)
    calc load.2.left
        < (QueueRun.start [spec] abort).left := QueueRun.left_step setting world rfl
      _ ≤ spec.work := hwork ▸ QueueRun.left_le_work _
      _ ≤ outside.length := hlength

end ViewTree
