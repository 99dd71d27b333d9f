import ViewTree.Proofs.Dispatch.Descent

/-!
# The books of a queue

A queue gives each load its turn, and a turn is over before the next one begins.  `Turn` is what a
turn comes to: the record of its load and what its steps did, first on its call and then on what
followed.  `Turn.Accounted` ties both to the load itself and to the worlds that the turn finds:
`FetchSpec.callEffects` are the steps of its call, and `FetchSpec.Followed` those of the action that
its status calls for.  `Turns` are those of a queue: they go on until one of them stops the queue,
and the loads left then have turns without a step.

The steps of a queue are put together from those of its turns with `QueueRun.Reaches`: what follows
a load (`exists_following`), a load from the end of its call on (`exists_rest`), a turn
(`exists_serves`), and by induction on the loads a whole run (`exists_turns`).  `queue_accounts`
reads the books.
-/

namespace ViewTree

/-! ### Counted steps -/

/-- A queue after each of its steps, the worlds it finds given. -/
def QueueRun.through (setting : Setting) (worlds : Nat → World) (run : QueueRun) : Nat → QueueRun
  | 0 => run
  | n + 1 => ((run.through setting worlds n).step setting (worlds n)).2

namespace QueueRun

/-- The steps that have these effects take a queue to another one. -/
structure Reaches (setting : Setting) (worlds : Nat → World) (run : QueueRun)
    (effects : List Effect) (last : QueueRun) : Prop where
  through_eq : run.through setting worlds effects.length = last
  effects_eq : (List.range effects.length).map
    (fun k => (run.through setting worlds k).effect setting (worlds k)) = effects

variable {setting : Setting} {worlds : Nat → World} {run middle last : QueueRun}

theorem through_add (m n : Nat) : run.through setting worlds (m + n)
    = (run.through setting worlds m).through setting (fun k => worlds (m + k)) n := by
  induction n with
  | zero => rfl
  | succ n ih =>
    show ((run.through setting worlds (m + n)).step setting (worlds (m + n))).2 = _
    rw [ih]
    rfl

namespace Reaches

theorem refl : Reaches setting worlds run [] run := ⟨rfl, rfl⟩

theorem trans {first second : List Effect} (h : Reaches setting worlds run first middle)
    (h' : Reaches setting (fun k => worlds (first.length + k)) middle second last) :
    Reaches setting worlds run (first ++ second) last := by
  have hlater : ∀ k, run.through setting worlds (first.length + k)
      = middle.through setting (fun k => worlds (first.length + k)) k := by
    intro k
    rw [through_add, h.through_eq]
  refine ⟨?_, ?_⟩
  · rw [List.length_append, hlater, h'.through_eq]
  · rw [List.length_append, List.range_add, List.map_append, List.map_map, h.effects_eq]
    refine congrArg (first ++ ·) (Eq.trans (List.map_congr_left fun k _ => ?_) h'.effects_eq)
    rw [Function.comp_apply, hlater]

/-- A step, and the steps after it. -/
theorem head {effect : Effect} {effects : List Effect}
    (heffect : run.effect setting (worlds 0) = effect)
    (h : Reaches setting (fun k => worlds (1 + k)) (run.step setting (worlds 0)).2 effects last) :
    Reaches setting worlds run (effect :: effects) last := by
  have hfirst : Reaches setting worlds run [effect] (run.step setting (worlds 0)).2 :=
    ⟨rfl, congrArg (· :: []) heffect⟩
  exact hfirst.trans h

end Reaches

end QueueRun

/-! ### What follows a load -/

/-- The action that a status calls for after a load. -/
def FetchSpec.follower (spec : FetchSpec) : Status → Option Action
  | .succeeded => spec.onSuccess
  | .failed => spec.onError
  | _ => none

theorem FetchSpec.follower_status (spec : FetchSpec) (outcome : Outcome) :
    spec.follower outcome.status = spec.continuation outcome := by
  cases outcome <;> rfl

/-- What is reported of the action that follows a load, and what the steps do that are spent on it:
nothing if there is none, and otherwise its dispatch is taken to its end and then put down. -/
def FetchSpec.Followed (setting : Setting) (worlds : Nat → World) (spec : FetchSpec)
    (status : Status) (report : Option DispatchReport) (effects : List Effect) : Prop :=
  match spec.follower status with
  | none => report = none ∧ effects = []
  | some action => ∃ n,
    let chain := (Chain.start action none).through setting worlds
    (∀ k < n, (chain k).isDone = false) ∧ (chain n).isDone = true ∧
      report = some (chain n).links ∧
      effects = (List.range n).map (fun k => (chain k).effect setting (worlds k)) ++ [.idle]

section

variable {setting : Setting} {worlds : Nat → World} {spec : FetchSpec} {status : Status}
  {report : Option DispatchReport} {effects : List Effect}

/-- There is a report of what follows a load exactly if something does. -/
theorem FetchSpec.Followed.isSome_eq
    (h : spec.Followed setting worlds status report effects) :
    report.isSome = (spec.follower status).isSome := by
  unfold Followed at h
  split at h
  · rename_i hnone
    rw [h.1, hnone]
    rfl
  · rename_i action hsome
    obtain ⟨n, -, -, hreport, -⟩ := h
    rw [hreport, hsome]
    rfl

/-- How a load is closed depends on the world only if the load was skipped, and then the view has
ended. -/
theorem QueueRun.close_eq_over {world : World} {run : QueueRun} {record : FetchRecord}
    (h : record.status = .skipped → world.ended = true) :
    run.close world record = run.close .over record := by
  have hstops : run.stopsAfter world record.status = run.stopsAfter .over record.status := by
    cases hstatus : record.status with
    | skipped => exact h hstatus
    | _ => rfl
  unfold close
  rw [hstops]

/-- The chain that follows a load comes to its end and is put down. -/
theorem exists_following (setting : Setting) (worlds : Nat → World) (abort : Bool)
    (spec : FetchSpec) (rest : List FetchSpec) (records : FetchReport) (chain : Chain)
    (hstatus : status ≠ .skipped) :
    let last := chain.through setting worlds
    ∃ n ≤ chain.left, (∀ k < n, (last k).isDone = false) ∧ (last n).isDone = true ∧
      QueueRun.Reaches setting worlds ⟨abort, rest, some (.following spec status chain), records⟩
        ((List.range n).map (fun k => (last k).effect setting (worlds k)) ++ [.idle])
        (QueueRun.close .over ⟨abort, rest, none, records⟩
          ⟨spec.key, status, some (last n).links⟩) := by
  induction hleft : chain.left using Nat.strongRecOn generalizing chain worlds with
  | ind left ih =>
    intro last
    cases hdone : chain.isDone with
    | true =>
      refine ⟨0, Nat.zero_le _, fun k hk => absurd hk (Nat.not_lt_zero k), hdone, .head ?_ ?_⟩
      · simp only [QueueRun.effect, Chain.effect, Chain.stage_of_isDone hdone]
      · simp only [QueueRun.step, hdone, if_true]
        rw [QueueRun.close_eq_over fun h => absurd h hstatus]
        exact .refl
    | false =>
      have hfalls := Chain.left_step setting (worlds 0) hdone
      obtain ⟨n, hn, hbefore, hend, hreaches⟩ :=
        ih _ (hleft ▸ hfalls) (fun k => worlds (1 + k)) (chain.step setting (worlds 0)).2 rfl
      have hlast : ∀ k, (chain.step setting (worlds 0)).2.through setting
          (fun k => worlds (1 + k)) k = last (k + 1) := fun k => (chain.through_succ k).symm
      simp only [hlast] at hbefore hend hreaches
      refine ⟨n + 1, by omega, ?_, hend, ?_⟩
      · intro k hk
        cases k with
        | zero => exact hdone
        | succ k => exact hbefore k (Nat.lt_of_succ_lt_succ hk)
      · rw [List.range_succ_eq_map, List.map_cons, List.map_map, List.cons_append]
        refine .head rfl ?_
        simp only [QueueRun.step, hdone, Bool.false_eq_true, if_false]
        simpa only [Nat.add_comm 1, Function.comp_def] using hreaches

theorem Outcome.eq_cancelled_of_status {outcome : Outcome} (h : outcome.status = .skipped) :
    outcome = .cancelled := by
  cases outcome with
  | cancelled => rfl
  | _ => exact absurd h (by decide)

/-- From the end of its call on, a load comes to its record. -/
theorem exists_rest (setting : Setting) (worlds : Nat → World) (abort : Bool) (spec : FetchSpec)
    (rest : List FetchSpec) (records : FetchReport) (world : World) (current : Option FetchStage)
    (outcome : Outcome)
    (hended : outcome = .cancelled → world.ended = true) :
    ∃ effects report, effects.length ≤ spec.followingSteps ∧
      spec.Followed setting worlds outcome.status report effects ∧
      QueueRun.Reaches setting worlds
        (QueueRun.settle world ⟨abort, rest, current, records⟩ spec outcome).2 effects
        (QueueRun.close .over ⟨abort, rest, none, records⟩ ⟨spec.key, outcome.status, report⟩) := by
  have hnext := spec.follower_status outcome
  have hsteps := spec.steps_continuation outcome
  cases hfollows : spec.continuation outcome with
  | none =>
    refine ⟨[], none, Nat.zero_le _, ?_, ?_⟩
    · rw [FetchSpec.Followed, hnext, hfollows]
      exact ⟨rfl, rfl⟩
    · simp only [QueueRun.settle, hfollows]
      rw [QueueRun.close_eq_over]
      · exact .refl
      · exact fun h => hended (Outcome.eq_cancelled_of_status h)
  | some action =>
    have hstatus : outcome.status ≠ .skipped := by
      intro h
      obtain rfl := Outcome.eq_cancelled_of_status h
      exact absurd hfollows (by simp [FetchSpec.continuation])
    obtain ⟨n, hn, hbefore, hdone, hreaches⟩ :=
      exists_following setting worlds abort spec rest records (.start action none) hstatus
    rw [hfollows, Option.elim_some] at hsteps
    have hsettled : (QueueRun.settle world ⟨abort, rest, current, records⟩ spec outcome).2
        = ⟨abort, rest, some (.following spec outcome.status (.start action none)), records⟩ := by
      simp only [QueueRun.settle, hfollows]
    rw [hsettled]
    refine ⟨_, _, ?_, ?_, hreaches⟩
    · rw [List.length_append, List.length_map, List.length_range]
      exact Nat.le_trans (Nat.add_le_add_right hn 1) hsteps
    · rw [FetchSpec.Followed, hnext, hfollows]
      exact ⟨n, hbefore, hdone, rfl, rfl⟩

end

/-! ### The call of a load -/

namespace FetchSpec

/-- What starting the call of a load does: it is one for the key of the load, with what the load
says of it for params. -/
def opening (setting : Setting) (world : World) (spec : FetchSpec) : Effect :=
  let plan : CallPlan :=
    { target := spec.key, params := spec.api.toJson, transform := spec.transform }
  plan.effect setting world

theorem opening_eq (setting : Setting) (world : World) (spec : FetchSpec) :
    spec.opening setting world = spec.callPlan.effect setting world := rfl

/-- What the steps do that are spent on the call of a load, the first of which finds the first of
these worlds: the call starts, unless the view has ended, and one in flight ends in the next
step. -/
def callEffects (setting : Setting) (worlds : Nat → World) (spec : FetchSpec) : List Effect :=
  if (worlds 0).ended then [.idle]
  else
    let effect := spec.opening setting (worlds 0)
    effect :: (effect.opens?.map (Call.effect (worlds 1))).toList

/-- The status of a load whose first step finds the first of these worlds. -/
def statusIn (setting : Setting) (worlds : Nat → World) (spec : FetchSpec) : Status :=
  if (worlds 0).ended then .skipped
  else
    match (spec.opening setting (worlds 0)).opens? with
    | none => .failed
    | some call => if (worlds 1).ended then .skipped else call.replyStatus

variable {setting : Setting} {worlds : Nat → World} {spec : FetchSpec}

theorem callEffects_of_live (h : (worlds 0).ended = false) :
    spec.callEffects setting worlds = spec.opening setting (worlds 0) ::
      ((spec.opening setting (worlds 0)).opens?.map (Call.effect (worlds 1))).toList := by
  rw [callEffects, h, if_neg Bool.false_ne_true]

theorem statusIn_of_live (h : (worlds 0).ended = false) :
    spec.statusIn setting worlds =
      match (spec.opening setting (worlds 0)).opens? with
      | none => .failed
      | some call => if (worlds 1).ended then .skipped else call.replyStatus := by
  rw [statusIn, h, if_neg Bool.false_ne_true]

end FetchSpec

namespace Effect

/-- Whether an effect ends a call with its result, which it writes. -/
def settles : Effect → Bool
  | settled _ | refused _ _ => true
  | _ => false

/-- The request that an effect sends. -/
def request? : Effect → Option Request
  | started _ request => some request
  | _ => none

theorem settles_of_opens {effect : Effect} {call : Call} (h : effect.opens? = some call) :
    effect.settles = false := by
  cases effect with
  | started call request => rfl
  | _ => exact absurd h (by simp [opens?])

end Effect

section

variable {setting : Setting} {worlds : Nat → World} {spec : FetchSpec}

/-- A load is skipped in a view that has ended, before its call has a result. -/
theorem FetchSpec.callEffects_of_skipped (h : spec.statusIn setting worlds = .skipped) :
    (∃ k < (spec.callEffects setting worlds).length, (worlds k).ended = true) ∧
      ∀ effect ∈ spec.callEffects setting worlds, effect.settles = false := by
  cases hfirst : (worlds 0).ended with
  | true =>
    rw [callEffects, if_pos hfirst]
    refine ⟨⟨0, Nat.zero_lt_one, hfirst⟩, ?_⟩
    intro effect hmem
    rw [List.mem_singleton.mp hmem]
    rfl
  | false =>
    rw [statusIn_of_live hfirst] at h
    rw [callEffects_of_live hfirst]
    cases hopens : (spec.opening setting (worlds 0)).opens? with
    | none =>
      rw [hopens] at h
      exact absurd h (by simp)
    | some call =>
      rw [hopens] at h
      dsimp only at h
      by_cases hsecond : (worlds 1).ended = true
      · refine ⟨⟨1, Nat.one_lt_two, hsecond⟩, ?_⟩
        intro effect hmem
        rcases List.mem_cons.mp hmem with rfl | hmem
        · exact Effect.settles_of_opens hopens
        · obtain rfl := List.mem_singleton.mp hmem
          rw [Call.effect, if_pos hsecond]
          rfl
      · -- A call that ends with its reply is not skipped.
        rw [if_neg hsecond, Call.replyStatus] at h
        split at h <;> exact absurd h (by decide)

end

/-! ### Turns -/

/-- The turn of a load: what became of the load, and what the steps did that were spent on its call
and on what followed it. -/
structure Turn where
  spec : FetchSpec
  record : FetchRecord
  call : List Effect
  following : List Effect

/-- Whether a queue stops after a load that ended so. -/
def Status.stopsQueue (abort : Bool) : Status → Bool
  | .failed => abort
  | .skipped => true
  | _ => false

namespace Turn

/-- What the steps of a turn did. -/
def effects (turn : Turn) : List Effect := turn.call ++ turn.following

/-- The requests sent in a turn. -/
def requests (turn : Turn) : List Request := turn.effects.filterMap Effect.request?

/-- The turn of a load that is left out takes no steps. -/
def leftOut (spec : FetchSpec) : Turn := ⟨spec, ⟨spec.key, .skipped, none⟩, [], []⟩

/-- A turn whose first step finds the first of these worlds is that of its load: the steps of its
call come first, then those of the action that its status calls for. -/
structure Accounted (setting : Setting) (worlds : Nat → World) (turn : Turn) : Prop where
  key_eq : turn.record.key = turn.spec.key
  status_eq : turn.record.status = turn.spec.statusIn setting worlds
  call_eq : turn.call = turn.spec.callEffects setting worlds
  followed : turn.spec.Followed setting (fun k => worlds (turn.call.length + k))
    turn.record.status turn.record.continuation turn.following

variable {setting : Setting} {worlds : Nat → World} {turn : Turn}

/-- A load is skipped in a view that has ended, before its call has a result. -/
theorem Accounted.skipped (h : turn.Accounted setting worlds)
    (hskipped : turn.record.status = .skipped) :
    (∃ k < turn.effects.length, (worlds k).ended = true) ∧
      ∀ effect ∈ turn.effects, effect.settles = false := by
  have hnothing := h.followed
  rw [FetchSpec.Followed, hskipped] at hnothing
  have heffects : turn.effects = turn.spec.callEffects setting worlds := by
    rw [effects, hnothing.2, List.append_nil, h.call_eq]
  rw [heffects]
  exact FetchSpec.callEffects_of_skipped (h.status_eq.symm.trans hskipped)

/-- The turn of the first load of a queue, which leads to the queue without it. -/
structure Serves (setting : Setting) (worlds : Nat → World) (abort : Bool) (spec : FetchSpec)
    (rest : List FetchSpec) (records : FetchReport) (turn : Turn) : Prop where
  spec_eq : turn.spec = spec
  length_le : turn.effects.length ≤ spec.followingSteps + 2
  accounted : turn.Accounted setting worlds
  reaches : QueueRun.Reaches setting worlds ⟨abort, spec :: rest, none, records⟩ turn.effects
    (QueueRun.close .over ⟨abort, rest, none, records⟩ turn.record)

end Turn

section

variable {setting : Setting} {worlds : Nat → World} {abort : Bool} {spec : FetchSpec}
  {rest : List FetchSpec} {records : FetchReport}

/-- A load that finds the view ended is skipped. -/
theorem serves_of_ended (hended : (worlds 0).ended = true) :
    Turn.Serves setting worlds abort spec rest records
      ⟨spec, ⟨spec.key, .skipped, none⟩, [.idle], []⟩ := by
  refine ⟨rfl, Nat.le_add_left _ _, ⟨rfl, ?_, ?_, ⟨rfl, rfl⟩⟩, .head ?_ ?_⟩
  · rw [FetchSpec.statusIn, if_pos hended]
  · rw [FetchSpec.callEffects, if_pos hended]
  · simp only [QueueRun.effect, hended, if_true]
  · simp only [QueueRun.step, QueueRun.startFetch, hended, if_true]
    have hclosed : QueueRun.close ((worlds 0).record (spec.link .skipped))
        ⟨abort, rest, none, records⟩ (QueueRun.leftOut spec) = _ :=
      QueueRun.close_eq_over fun _ => hended
    rw [hclosed]
    exact .refl

section

variable {world : World}

/-- In a view that lives a load starts its call. -/
theorem QueueRun.effect_of_pending (hlive : world.ended = false) :
    QueueRun.effect setting world ⟨abort, spec :: rest, none, records⟩
      = spec.opening setting world := by
  simp only [QueueRun.effect, hlive, Bool.false_eq_true, if_false, FetchSpec.opening_eq]

theorem QueueRun.step_of_pending (setting : Setting) (abort : Bool) (spec : FetchSpec)
    (rest : List FetchSpec) (records : FetchReport) (hlive : world.ended = false) :
    QueueRun.step setting world ⟨abort, spec :: rest, none, records⟩ =
      match (spec.opening setting world).opens? with
      | some call => ((spec.opening setting world).apply setting world,
          ⟨abort, rest, some (.calling spec call), records⟩)
      | none => QueueRun.settle ((spec.opening setting world).apply setting world)
          ⟨abort, rest, none, records⟩ spec .failed := by
  have hstep : QueueRun.step setting world ⟨abort, spec :: rest, none, records⟩
      = QueueRun.startFetch setting world ⟨abort, rest, none, records⟩ spec := rfl
  rw [hstep, QueueRun.startFetch, hlive, if_neg Bool.false_ne_true, CallPlan.startCall_eq,
    ← FetchSpec.opening_eq]
  cases (spec.opening setting world).opens? with
  | none => rfl
  | some call => rfl

end

/-- A load without a request to send fails at once. -/
theorem exists_serves_of_refused (hlive : (worlds 0).ended = false)
    (hopens : (spec.opening setting (worlds 0)).opens? = none) :
    ∃ turn : Turn, turn.Serves setting worlds abort spec rest records := by
  have hstep := QueueRun.step_of_pending setting abort spec rest records hlive
  rw [hopens] at hstep
  let effect := spec.opening setting (worlds 0)
  obtain ⟨following, report, hlength, hfollowed, hreaches⟩ :=
    exists_rest setting (fun k => worlds (1 + k)) abort spec rest records
      (effect.apply setting (worlds 0)) none .failed fun h => absurd h (by decide)
  refine ⟨⟨spec, ⟨spec.key, .failed, report⟩, [effect], following⟩, rfl, ?_,
    ⟨rfl, ?_, ?_, hfollowed⟩, .head (QueueRun.effect_of_pending hlive) (hstep ▸ hreaches)⟩
  · show following.length + 1 ≤ _
    omega
  · rw [FetchSpec.statusIn_of_live hlive, hopens]
  · rw [FetchSpec.callEffects_of_live hlive, hopens]
    rfl

/-- A load whose request is out settles in its second step, or is given up then. -/
theorem exists_serves_of_opens {call : Call} (hlive : (worlds 0).ended = false)
    (hopens : (spec.opening setting (worlds 0)).opens? = some call) :
    ∃ turn : Turn, turn.Serves setting worlds abort spec rest records := by
  have hstep := QueueRun.step_of_pending setting abort spec rest records hlive
  rw [hopens] at hstep
  have hstatus := World.status_settleCall setting (worlds 1) call
  -- A call in flight is given up only in a view that has ended.
  have hcancelled : ((worlds 1).settleCall setting call).2 = .cancelled →
      ((worlds 1).settleCall setting call).1.ended = true := by
    intro h
    rw [World.settleCall_eq]
    by_contra hlater
    rw [h, if_neg hlater, Call.replyStatus] at hstatus
    split at hstatus <;> exact absurd hstatus (by decide)
  obtain ⟨following, report, hlength, hfollowed, hreaches⟩ :=
    exists_rest setting (fun k => worlds (1 + (1 + k))) abort spec rest records _
      (some (.calling spec call)) _ hcancelled
  have hlater : (fun k => worlds (2 + k)) = fun k => worlds (1 + (1 + k)) := by
    funext k
    rw [← Nat.add_assoc]
  let effects := [spec.opening setting (worlds 0), call.effect (worlds 1)]
  refine ⟨⟨spec, ⟨spec.key, _, report⟩, effects, following⟩, rfl, ?_,
    ⟨rfl, ?_, ?_, hlater ▸ hfollowed⟩,
    .head (QueueRun.effect_of_pending hlive) (hstep ▸ .head rfl hreaches)⟩
  · show following.length + 1 + 1 ≤ _
    omega
  · rw [FetchSpec.statusIn_of_live hlive, hopens]
    exact hstatus
  · rw [FetchSpec.callEffects_of_live hlive, hopens]
    rfl

/-- **A queue gives its first load a turn.** -/
theorem exists_serves (setting : Setting) (worlds : Nat → World) (abort : Bool) (spec : FetchSpec)
    (rest : List FetchSpec) (records : FetchReport) :
    ∃ turn : Turn, turn.Serves setting worlds abort spec rest records := by
  cases hended : (worlds 0).ended with
  | true => exact ⟨_, serves_of_ended hended⟩
  | false =>
    cases hopens : (spec.opening setting (worlds 0)).opens? with
    | none => exact exists_serves_of_refused hended hopens
    | some call => exact exists_serves_of_opens hended hopens

/-- Closing a load leaves the loads that are left to come, or leaves them out. -/
theorem QueueRun.close_over (abort : Bool) (rest : List FetchSpec) (records : FetchReport)
    (record : FetchRecord) : QueueRun.close .over ⟨abort, rest, none, records⟩ record =
      if record.status.stopsQueue abort then
        ⟨abort, [], none, records ++ record :: rest.map leftOut⟩
      else ⟨abort, rest, none, records ++ [record]⟩ := by
  have hstops : QueueRun.stopsAfter .over ⟨abort, rest, none, records⟩ record.status
      = record.status.stopsQueue abort := by
    cases record.status <;> rfl
  simp only [close, hstops, List.append_assoc, List.singleton_append]

/-- The turns of a queue.  A turn that stops the queue is the last one with a step. -/
inductive Turns (setting : Setting) (abort : Bool) : (Nat → World) → List Turn → Prop
  | nil {worlds : Nat → World} : Turns setting abort worlds []
  | next {worlds : Nat → World} {turn : Turn} {turns : List Turn} :
    turn.Accounted setting worlds → turn.record.status.stopsQueue abort = false →
    Turns setting abort (fun k => worlds (turn.effects.length + k)) turns →
    Turns setting abort worlds (turn :: turns)
  | stop {worlds : Nat → World} {turn : Turn} {rest : List FetchSpec} :
    turn.Accounted setting worlds → turn.record.status.stopsQueue abort = true →
    Turns setting abort worlds (turn :: rest.map Turn.leftOut)

/-- **The steps of a queue are those of its turns.** -/
theorem exists_turns (setting : Setting) (worlds : Nat → World) (abort : Bool)
    (specs : List FetchSpec) (records : FetchReport) :
    ∃ turns, Turns setting abort worlds turns ∧ turns.map Turn.spec = specs ∧
      (turns.flatMap Turn.effects).length ≤ total (fun spec => spec.followingSteps + 2) specs ∧
      QueueRun.Reaches setting worlds ⟨abort, specs, none, records⟩ (turns.flatMap Turn.effects)
        ⟨abort, [], none, records ++ turns.map Turn.record⟩ := by
  induction specs generalizing worlds records with
  | nil =>
    refine ⟨[], .nil, rfl, Nat.zero_le _, ?_⟩
    rw [List.map_nil, List.append_nil]
    exact .refl
  | cons spec rest ih =>
    obtain ⟨turn, rfl, hlength, haccounted, hreaches⟩ :=
      exists_serves setting worlds abort spec rest records
    rw [QueueRun.close_over] at hreaches
    cases hstops : turn.record.status.stopsQueue abort with
    | true =>
      rw [hstops, if_pos rfl] at hreaches
      have hspecs : (rest.map Turn.leftOut).map Turn.spec = rest := by
        rw [List.map_map]
        exact List.map_id rest
      have hrecords : (rest.map Turn.leftOut).map Turn.record = rest.map QueueRun.leftOut := by
        rw [List.map_map]
        rfl
      have heffects : (rest.map Turn.leftOut).flatMap Turn.effects = [] := by
        rw [List.flatMap_map, List.flatMap_eq_nil_iff]
        exact fun _ _ => rfl
      refine ⟨turn :: rest.map Turn.leftOut, .stop haccounted hstops, ?_, ?_, ?_⟩
      · rw [List.map_cons, hspecs]
      · rw [List.flatMap_cons, heffects, List.append_nil]
        exact Nat.le_trans hlength (Nat.le_add_right _ _)
      · rw [List.flatMap_cons, heffects, List.append_nil, List.map_cons, hrecords]
        exact hreaches
    | false =>
      rw [hstops, if_neg Bool.false_ne_true] at hreaches
      obtain ⟨turns, hturns, rfl, hrest, hlater⟩ :=
        ih (fun k => worlds (turn.effects.length + k)) (records ++ [turn.record])
      refine ⟨turn :: turns, .next haccounted hstops hturns, rfl, ?_, ?_⟩
      · rw [List.flatMap_cons, List.length_append]
        exact Nat.add_le_add hlength hrest
      · rw [List.flatMap_cons, List.map_cons]
        rw [List.append_assoc, List.singleton_append] at hlater
        exact hreaches.trans hlater

/-! ### The books -/

namespace Turns

variable {turns before after : List Turn} {turn : Turn}

/-- Each turn is that of its load, from where the turns before it end, unless one of these stops the
queue; then its load is left out. -/
theorem accounted (h : Turns setting abort worlds turns)
    (hturns : turns = before ++ turn :: after) :
    (turn.Accounted setting (fun k => worlds ((before.flatMap Turn.effects).length + k)) ∧
        ∀ earlier ∈ before, earlier.record.status.stopsQueue abort = false) ∨
      (turn = .leftOut turn.spec ∧
        ∃ earlier ∈ before, earlier.record.status.stopsQueue abort = true) := by
  induction h generalizing before with
  | nil => exact absurd hturns (by simp)
  | @next worlds first turns haccounted hstops _ ih =>
    cases before with
    | nil =>
      obtain ⟨rfl, -⟩ := List.cons.inj hturns
      simp only [List.flatMap_nil, List.length_nil, Nat.zero_add]
      exact .inl ⟨haccounted, fun _ hmem => absurd hmem List.not_mem_nil⟩
    | cons _ before =>
      obtain ⟨rfl, hrest⟩ := List.cons.inj hturns
      simp only [List.flatMap_cons, List.length_append, Nat.add_assoc]
      rcases ih hrest with ⟨hturn, hnone⟩ | ⟨hleft, earlier, hmem, hstop⟩
      · exact .inl ⟨hturn, List.forall_mem_cons.mpr ⟨hstops, hnone⟩⟩
      · exact .inr ⟨hleft, earlier, List.mem_cons_of_mem _ hmem, hstop⟩
  | @stop worlds first rest haccounted hstops =>
    cases before with
    | nil =>
      obtain ⟨rfl, -⟩ := List.cons.inj hturns
      simp only [List.flatMap_nil, List.length_nil, Nat.zero_add]
      exact .inl ⟨haccounted, fun _ hmem => absurd hmem List.not_mem_nil⟩
    | cons _ before =>
      obtain ⟨rfl, hrest⟩ := List.cons.inj hturns
      have hmem : turn ∈ rest.map Turn.leftOut := hrest ▸ List.mem_append_right _ List.mem_cons_self
      obtain ⟨spec, -, rfl⟩ := List.mem_map.mp hmem
      exact .inr ⟨rfl, first, List.mem_cons_self, hstops⟩

/-- Each load has the record of its key, which reports what follows if something does. -/
theorem record_eq (h : Turns setting abort worlds turns) (hmem : turn ∈ turns) :
    turn.record.key = turn.spec.key ∧
      turn.record.continuation.isSome = (turn.spec.follower turn.record.status).isSome := by
  obtain ⟨before, after, hturns⟩ := List.append_of_mem hmem
  rcases h.accounted hturns with ⟨haccounted, -⟩ | ⟨hleft, -⟩
  · exact ⟨haccounted.key_eq, haccounted.followed.isSome_eq⟩
  · rw [hleft]
    exact ⟨rfl, rfl⟩

/-- After a failure that stops the queue every load is left out. -/
theorem pairwise_leftOut (h : Turns setting true worlds turns) : turns.Pairwise
    fun turn later => turn.record.status = .failed →
      later.record = ⟨later.spec.key, .skipped, none⟩ ∧ later.effects = [] := by
  induction h with
  | nil => exact .nil
  | @next worlds turn turns haccounted hstops hturns ih =>
    refine .cons (fun later _ hfailed => ?_) ih
    rw [hfailed] at hstops
    exact absurd hstops (by decide)
  | @stop worlds turn rest haccounted hstops =>
    refine .cons (fun later hmem _ => ?_) (List.pairwise_map.mpr (List.pairwise_of_forall ?_))
    · obtain ⟨spec, -, rfl⟩ := List.mem_map.mp hmem
      exact ⟨rfl, rfl⟩
    · exact fun _ _ hfailed => absurd hfailed (by simp [Turn.leftOut])

/-- A load is skipped because the view has ended by the end of its turn, before its call had a
result, or because it is left out after a failure. -/
theorem skipped (h : Turns setting abort worlds turns) (hturns : turns = before ++ turn :: after)
    (hskipped : turn.record.status = .skipped) :
    (∀ effect ∈ turn.effects, effect.settles = false) ∧
      ((∃ k < ((before ++ [turn]).flatMap Turn.effects).length, (worlds k).ended = true) ∨
        abort = true ∧ ∃ earlier ∈ before, earlier.record.status = .failed) := by
  -- By induction on the turns before it: one that stops the queue may have been skipped itself.
  induction hlength : before.length using Nat.strongRecOn generalizing before turn after with
  | ind length ih =>
    rcases h.accounted hturns with ⟨haccounted, -⟩ | ⟨hleft, earlier, hmem, hstops⟩
    · obtain ⟨⟨k, hk, hended⟩, hunsettled⟩ := haccounted.skipped hskipped
      refine ⟨hunsettled, .inl ⟨_, ?_, hended⟩⟩
      rw [List.flatMap_append, List.length_append, List.flatMap_singleton]
      exact Nat.add_lt_add_left hk _
    · refine ⟨hleft ▸ fun _ hmem => absurd hmem List.not_mem_nil, ?_⟩
      obtain ⟨first, rest, rfl⟩ := List.append_of_mem hmem
      cases hstatus : earlier.record.status with
      | failed =>
        rw [hstatus] at hstops
        exact .inr ⟨hstops, earlier, hmem, hstatus⟩
      | skipped =>
        have hearlier : turns = first ++ earlier :: (rest ++ turn :: after) := by
          rw [hturns, List.append_assoc, List.cons_append]
        have hshorter : first.length < length := by
          rw [← hlength, List.length_append, List.length_cons]
          omega
        obtain ⟨-, hwhy⟩ := ih _ hshorter hearlier hstatus rfl
        rcases hwhy with ⟨k, hk, hended⟩ | ⟨habort, other, hfirst, hfailed⟩
        · refine .inl ⟨k, Nat.lt_of_lt_of_le hk ?_, hended⟩
          simp only [List.flatMap_append, List.flatMap_cons, List.length_append]
          omega
        · exact .inr ⟨habort, other, List.mem_append_left _ hfirst, hfailed⟩
      | succeeded | navigated =>
        rw [hstatus] at hstops
        exact absurd hstops (by simp [Status.stopsQueue])

end Turns

end

/-- **The books of a queue balance.**  Whatever happens to the world between its steps, a queue ends
after one turn for each load, in order, and the steps of each turn come before those of the next;
so do the requests that are sent in it.  The steps of a turn are those of the call of its load and
then, if the status of the load calls for an action, those of its dispatch, which is taken to its
end.  Each turn gives one record, with the key of its load, and a report of that dispatch exactly if
there is one.  After a turn that stops the queue every load is left out: no step is spent on it, so
that it sends no request.  Failures stop the queue if that is asked for.  A load is skipped only if
no result of its call has been written, and the view has ended by then or the load is left out after
a failure. -/
theorem queue_accounts (setting : Setting) (worlds : Nat → World) (specs : List FetchSpec)
    (abort : Bool) :
    let run := (QueueRun.start specs abort).through setting worlds
    ∃ turns : List Turn,
      let steps := turns.flatMap Turn.effects
      turns.map Turn.spec = specs ∧
      steps.length ≤ total FetchSpec.work specs ∧
      (run steps.length).isDone = true ∧
      (run steps.length).records = turns.map Turn.record ∧
      (List.range steps.length).map (fun k => (run k).effect setting (worlds k)) = steps ∧
      (List.range steps.length).filterMap
        (fun k => ((run k).effect setting (worlds k)).request?) = turns.flatMap Turn.requests ∧
      (∀ k, ((run k).step setting (worlds k)).1
        = { ((run k).effect setting (worlds k)).apply setting (worlds k) with
            log := ((run k).news setting (worlds k)).foldl
              (fun log link => log.record (worlds k).now link) (worlds k).log }) ∧
      (∀ turn ∈ turns, turn.record.key = turn.spec.key ∧
        turn.record.continuation.isSome = (turn.spec.follower turn.record.status).isSome) ∧
      (∀ before turn after, turns = before ++ turn :: after →
        (turn.Accounted setting (fun k => worlds ((before.flatMap Turn.effects).length + k)) ∧
            ∀ earlier ∈ before, earlier.record.status.stopsQueue abort = false) ∨
          (turn = .leftOut turn.spec ∧
            ∃ earlier ∈ before, earlier.record.status.stopsQueue abort = true)) ∧
      (abort = true → turns.Pairwise fun turn later => turn.record.status = .failed →
        later.record = ⟨later.spec.key, .skipped, none⟩ ∧ later.effects = []) ∧
      ∀ before turn after, turns = before ++ turn :: after → turn.record.status = .skipped →
        (∀ effect ∈ turn.effects, effect.settles = false) ∧
          ((∃ k < ((before ++ [turn]).flatMap Turn.effects).length, (worlds k).ended = true) ∨
            abort = true ∧ ∃ earlier ∈ before, earlier.record.status = .failed) := by
  intro run
  obtain ⟨turns, hturns, hspecs, hlength, hreaches⟩ := exists_turns setting worlds abort specs []
  have hwork := total_le_total FetchSpec.followingSteps_le specs
  have hlast : run (turns.flatMap Turn.effects).length
      = ⟨abort, [], none, turns.map Turn.record⟩ := hreaches.through_eq
  refine ⟨turns, hspecs, Nat.le_trans hlength hwork, ?done, ?records, hreaches.effects_eq,
    ?requests, fun k => (QueueRun.step_spec ..).eq, fun turn hmem => hturns.record_eq hmem,
    fun before turn after heq => hturns.accounted heq, ?stopped,
    fun before turn after heq hskipped => hturns.skipped heq hskipped⟩
  case done =>
    rw [hlast]
    rfl
  case records => rw [hlast]
  case requests =>
    refine Eq.trans ?_ List.filterMap_flatMap
    rw [← hreaches.effects_eq, List.length_map, List.length_range, List.filterMap_map]
    rfl
  case stopped =>
    rintro rfl
    exact hturns.pairwise_leftOut

/-- Nobody answers the first load, and so the second one is left out. -/
example :
    let run : QueueRun := .start [.load "a" (.get "/a"), .load "b" (.get "/b")] true
    (run.through ⟨{}, ⟨[]⟩⟩ (fun _ => { log := .empty {} }) 2).records
      = [⟨"a", .failed, none⟩, ⟨"b", .skipped, none⟩] := by decide +kernel

end ViewTree
