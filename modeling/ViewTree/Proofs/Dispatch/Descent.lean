import ViewTree.Proofs.Dispatch.Work

/-!
# The path of a dispatch

A dispatch goes down its tree of actions along one path.  `Descent` is that path: the action that
follows a link is the one that its kind and the status it ended with call for.  Other work may run
between any two steps of the chain, so the steps see an arbitrary sequence of worlds.

* `Descent.length_le`, `Descent.pairwise_rank`: a path goes down at every link, so that it is twice
  as long as the tree is deep at most.
* `Chain.dispatch_descends`: a dispatch ends, its report is its path, and its steps have the effects
  of the links of the path and no other.
-/

namespace ViewTree

/-! ### Ranks -/

namespace Action

variable {world : World} {action : Action} {status : Status}

/-- How many links can follow an action at most, itself included. -/
def rank (action : Action) : Nat :=
  match action.kind with
  | .submit => 2 * action.depth
  | _ => 2 * action.depth - 1

theorem rank_pos (action : Action) : 0 < action.rank := by
  have := action.depth_pos
  unfold rank
  split <;> omega

theorem rank_le (action : Action) : action.rank ≤ 2 * action.depth := by
  unfold rank
  split <;> omega

/-- What follows an action ranks below it. -/
theorem rank_next (world : World) (action : Action) (status : Status) :
    (action.next world status).elim 0 rank < action.rank := by
  cases h : action.next world status with
  | none => exact action.rank_pos
  | some next =>
    have hpos := next.depth_pos
    show next.rank < action.rank
    rcases next_cases h with ⟨hdepth, hkind⟩ | ⟨hdepth, hkind, hnext⟩
    · have hle := next.rank_le
      simp only [rank, hkind] at hle ⊢
      omega
    · -- The call that a submission turns into is as deep as it, but ranks below it by its kind.
      simp only [rank, hkind, hnext]
      omega

end Action

/-! ### Paths -/

/-- The status a call ends with in a view that does not end before. -/
def Call.replyStatus (call : Call) : Status :=
  match call.reply with
  | .ok _ => .succeeded
  | .error _ => .failed

/-- A call ends with its reply, unless the view has ended by then. -/
theorem World.status_settleCall (setting : Setting) (world : World) (call : Call) :
    (world.settleCall setting call).2.status
      = if world.ended then .skipped else call.replyStatus := by
  unfold Call.replyStatus
  cases hended : world.ended with
  | true =>
    rw [settleCall_of_ended hended]
    rfl
  | false =>
    cases hreply : call.reply with
    | ok payload =>
      rw [settleCall_of_ok hended hreply]
      rfl
    | error error =>
      rw [settleCall_of_error hended hreply]
      rfl

namespace Action

/-- The status an action ends with that starts in a world. -/
def statusIn (setting : Setting) (world : World) (event : Option Json) (action : Action) : Status :=
  match (action.effect setting world event).opens? with
  | some call => call.replyStatus
  | none => action.promptStatus

/-- An action without what would follow it. -/
def bare (action : Action) : Action := { action with onSuccess := none, onError := none }

end Action

/-- A link as it ran. -/
structure Visit where
  action : Action
  /-- How many steps its chain had taken before. -/
  step : Nat
  status : Status

/-- The report of a link. -/
def Visit.link (visit : Visit) : LinkReport := .ofAction visit.action visit.status

section

variable (setting : Setting) (worlds : Nat → World) (event : Option Json)

/-- What the steps of a link do, which is up to the link alone: it starts, and a call that is in
flight then settles. -/
def Visit.effects (visit : Visit) : List Effect :=
  let effect := visit.action.bare.effect setting (worlds visit.step) event
  effect :: (effect.opens?.map Effect.settled).toList

/-- The path that a tree prescribes to a chain which has taken some steps and finds these worlds. -/
inductive Descent : Nat → Option Action → List Visit → Prop
  | nil {taken : Nat} : Descent taken none []
  | cons {visit : Visit} {rest : List Visit} :
    visit.status = visit.action.statusIn setting (worlds visit.step) event →
    Descent (visit.step + (visit.effects setting worlds event).length)
      (visit.action.next (worlds visit.step) visit.status) rest →
    Descent visit.step (some visit.action) (visit :: rest)

end

/-- A chain after each of its steps, the worlds it finds given. -/
def Chain.through (setting : Setting) (worlds : Nat → World) (chain : Chain) : Nat → Chain
  | 0 => chain
  | n + 1 => ((chain.through setting worlds n).step setting (worlds n)).2

section

variable {setting : Setting} {worlds : Nat → World} {event : Option Json} {action : Action}
  {taken : Nat} {first : Option Action} {path : List Visit}

namespace Descent

/-- No link of a path ranks above its first one. -/
theorem rank_le (h : Descent setting worlds event taken first path) :
    ∀ visit ∈ path, visit.action.rank ≤ first.elim 0 Action.rank := by
  induction h with
  | nil => exact fun _ hmem => absurd hmem List.not_mem_nil
  | @cons visit rest hstatus hrest ih =>
    intro other hmem
    rcases List.mem_cons.mp hmem with rfl | hmem
    · exact Nat.le_refl _
    · exact Nat.le_trans (ih other hmem) (Nat.le_of_lt (Action.rank_next _ _ _))

/-- Each link of a path ranks below those before it, so that no link is visited twice. -/
theorem pairwise_rank (h : Descent setting worlds event taken first path) :
    path.Pairwise fun visit later => later.action.rank < visit.action.rank := by
  induction h with
  | nil => exact .nil
  | cons hstatus hrest ih =>
    refine .cons ?_ ih
    intro later hmem
    have hle := hrest.rank_le later hmem
    exact Nat.lt_of_le_of_lt hle (Action.rank_next _ _ _)

/-- A path has as many links as its first one has ranks at most. -/
theorem length_le (h : Descent setting worlds event taken first path) :
    path.length ≤ first.elim 0 Action.rank := by
  induction h with
  | nil => exact Nat.le_refl _
  | @cons visit rest hstatus hrest ih => exact Nat.lt_of_le_of_lt ih (Action.rank_next _ _ _)

end Descent

namespace Action

/-- The continuation of a remote call is what follows its link. -/
theorem continuation_of_api {world : World} (h : action.kind = .api) (outcome : Outcome) :
    action.continuation outcome = action.next world outcome.status := by
  unfold next
  rw [h]
  cases outcome <;> rfl

end Action

namespace Visit

theorem length_effects_le (setting : Setting) (worlds : Nat → World) (event : Option Json)
    (visit : Visit) : (visit.effects setting worlds event).length ≤ 2 := by
  unfold effects
  dsimp only
  cases (visit.action.bare.effect setting (worlds visit.step) event).opens? <;> simp

theorem length_effects_of_submit (setting : Setting) (worlds : Nat → World)
    (event : Option Json) {visit : Visit} (h : visit.action.kind = .submit) :
    (visit.effects setting worlds event).length = 1 := by
  unfold effects
  dsimp only
  cases hopens : (visit.action.bare.effect setting (worlds visit.step) event).opens? with
  | none => rfl
  | some call => exact absurd (h.symm.trans (Action.kind_of_opens hopens)) (by decide)

end Visit

/-- The links of a path take three steps for each level of the tree at most. -/
theorem Descent.steps_le (h : Descent setting worlds event taken first path) :
    (path.flatMap (Visit.effects setting worlds event)).length ≤ first.elim 0 Action.steps := by
  induction h with
  | nil => exact Nat.le_refl _
  | @cons visit rest hstatus hrest ih =>
    have hpos := visit.action.depth_pos
    have htwo := visit.length_effects_le setting worlds event
    rw [List.flatMap_cons, List.length_append, Option.elim_some]
    cases hnext : visit.action.next (worlds visit.step) visit.status with
    | none =>
      rw [hnext, Option.elim_none] at ih
      unfold Action.steps
      split <;> omega
    | some next =>
      rw [hnext, Option.elim_some] at ih
      have hle := next.steps_le
      rcases Action.next_cases hnext with ⟨hdepth, hkind⟩ | ⟨hdepth, hkind, hcall⟩
      · simp only [Action.steps, hkind] at ih hle ⊢
        omega
      · have hone := Visit.length_effects_of_submit setting worlds event hkind
        simp only [Action.steps, hkind, hcall] at ih ⊢
        omega

/-! ### The steps of a dispatch -/

namespace Chain

variable {world : World} {chain : Chain}

/-- The steps of a chain, the first one apart. -/
theorem through_succ (chain : Chain) (n : Nat) : chain.through setting worlds (n + 1)
    = (chain.step setting (worlds 0)).2.through setting (fun k => worlds (1 + k)) n := by
  induction n with
  | zero => rfl
  | succ n ih =>
    show ((chain.through setting worlds (n + 1)).step setting (worlds (n + 1))).2
      = ((_ : Chain).step setting (worlds (1 + n))).2
    rw [ih, Nat.add_comm 1 n]

/-- A chain that goes on to an action, or to its end. -/
def follow (chain : Chain) (link : LinkReport) (next : Option Action) : Chain :=
  { chain with stage := (next.map Stage.ready).getD .done, links := chain.links ++ [link] }

/-- The next step of a chain that stands at an action starts the action. -/
theorem effect_of_ready (h : chain.stage = .ready action) (hlive : world.ended = false) :
    chain.effect setting world = action.effect setting world chain.event := by
  unfold effect
  rw [h]
  simp only [hlive, Bool.false_eq_true, if_false]

theorem step_of_prompt (h : chain.stage = .ready action) (hlive : world.ended = false)
    (hopens : (action.effect setting world chain.event).opens? = none) :
    (chain.step setting world).2 = chain.follow (.ofAction action action.promptStatus)
      (action.next world action.promptStatus) := by
  rw [step_ready h hlive, runAction_eq]
  dsimp only
  rw [hopens]
  rfl

theorem step_of_opens {call : Call} (h : chain.stage = .ready action) (hlive : world.ended = false)
    (hopens : (action.effect setting world chain.event).opens? = some call) :
    (chain.step setting world).2 = { chain with stage := .calling action call } := by
  rw [step_ready h hlive, runAction_eq]
  dsimp only
  rw [hopens]

/-- A call that settles before the view ends goes on with its reply. -/
theorem step_of_calling {call : Call} (h : chain.stage = .calling action call)
    (hkind : action.kind = .api) (hlive : world.ended = false) (earlier : World) :
    (chain.step setting world).2 = chain.follow (.ofAction action call.replyStatus)
      (action.next earlier call.replyStatus) := by
  rw [step_calling h, Action.continuation_of_api hkind, World.status_settleCall, hlive,
    if_neg Bool.false_ne_true]
  rfl

/-- The links of a chain are those that its steps settled. -/
theorem links_through (setting : Setting) (worlds : Nat → World) (chain : Chain) (n : Nat) :
    (chain.through setting worlds n).links = chain.links ++ (List.range n).flatMap fun k =>
      (chain.through setting worlds k).news setting (worlds k) := by
  induction n with
  | zero => exact (List.append_nil _).symm
  | succ n ih =>
    rw [List.range_succ, List.flatMap_append, ← List.append_assoc, ← ih, List.flatMap_singleton]
    exact (step_spec ..).2

/-- A chain that stands at an action settles it, in the steps that the action takes. -/
theorem through_settles {m : Nat}
    (hready : (chain.through setting worlds m).stage = .ready action)
    (hlive : ∀ k, (chain.through setting worlds k).isDone = false → (worlds k).ended = false) :
    let event := (chain.through setting worlds m).event
    let visit : Visit := ⟨action, m, action.statusIn setting (worlds m) event⟩
    let effects := visit.effects setting worlds event
    chain.through setting worlds (m + effects.length)
        = (chain.through setting worlds m).follow visit.link (action.next (worlds m) visit.status) ∧
      (List.range' m effects.length).map
        (fun k => (chain.through setting worlds k).effect setting (worlds k)) = effects := by
  intro event visit effects
  have hworld : (worlds m).ended = false := by
    refine hlive m ?_
    unfold isDone
    rw [hready]
  have hfirst : (chain.through setting worlds m).effect setting (worlds m)
      = action.effect setting (worlds m) event := effect_of_ready hready hworld
  have heffects : effects = action.effect setting (worlds m) event ::
      ((action.effect setting (worlds m) event).opens?.map Effect.settled).toList := rfl
  have hstatus : visit.status = action.statusIn setting (worlds m) event := rfl
  unfold Action.statusIn at hstatus
  cases hopens : (action.effect setting (worlds m) event).opens? with
  | none =>
    rw [hopens] at heffects hstatus
    have hlink : visit.link = .ofAction action action.promptStatus :=
      congrArg (LinkReport.ofAction action) hstatus
    rw [heffects, hlink, hstatus]
    exact ⟨step_of_prompt hready hworld hopens, congrArg (· :: []) hfirst⟩
  | some call =>
    rw [hopens] at heffects hstatus
    -- The second step finds the call of the first one in flight.
    have hcalling : chain.through setting worlds (m + 1)
        = { chain.through setting worlds m with stage := .calling action call } :=
      step_of_opens hready hworld hopens
    have hlater : (worlds (m + 1)).ended = false := by
      refine hlive (m + 1) ?_
      rw [hcalling]
      rfl
    have hsecond : (chain.through setting worlds (m + 1)).effect setting (worlds (m + 1))
        = .settled call := by
      rw [hcalling]
      show call.effect (worlds (m + 1)) = _
      rw [Call.effect, hlater, if_neg Bool.false_ne_true]
    have hlink : visit.link = .ofAction action call.replyStatus :=
      congrArg (LinkReport.ofAction action) hstatus
    rw [heffects, hlink, hstatus]
    refine ⟨?_, ?_⟩
    · have hstep : chain.through setting worlds (m + 1 + 1) = _ :=
        step_of_calling (congrArg Chain.stage hcalling) (Action.kind_of_opens hopens) hlater
          (worlds m)
      rw [hcalling] at hstep
      exact hstep
    · exact congrArg₂ (fun first second => [first, second]) hfirst hsecond

/-- From an action on, a chain takes the steps of the links of its path. -/
theorem exists_descent (chain : Chain) (m : Nat)
    (hready : (chain.through setting worlds m).stage = .ready action)
    (hevent : (chain.through setting worlds m).event = event)
    (hlive : ∀ k, (chain.through setting worlds k).isDone = false → (worlds k).ended = false) :
    ∃ path, Descent setting worlds event m (some action) path ∧
      let effects := path.flatMap (Visit.effects setting worlds event)
      let last := chain.through setting worlds (m + effects.length)
      last.isDone = true ∧
        last.links = (chain.through setting worlds m).links ++ path.map Visit.link ∧
        (List.range' m effects.length).map
          (fun k => (chain.through setting worlds k).effect setting (worlds k)) = effects := by
  -- The rank of the action falls with each link, whichever continuation is taken.
  induction hrank : action.rank using Nat.strongRecOn generalizing action m with
  | ind rank ih =>
    obtain ⟨hsettled, heffects⟩ := through_settles hready hlive
    rw [hevent] at hsettled heffects
    set visit : Visit := ⟨action, m, action.statusIn setting (worlds m) event⟩
    have hcons : ∀ {rest}, Descent setting worlds event
        (m + (visit.effects setting worlds event).length)
        (action.next (worlds m) visit.status) rest →
        Descent setting worlds event m (some action) (visit :: rest) := by
      intro rest hrest
      show Descent setting worlds event visit.step (some visit.action) (visit :: rest)
      exact .cons rfl hrest
    cases hnext : action.next (worlds m) visit.status with
    | none =>
      rw [hnext] at hsettled
      refine ⟨[visit], hcons (hnext ▸ .nil), ?_⟩
      rw [List.flatMap_singleton]
      dsimp only
      rw [hsettled]
      exact ⟨rfl, rfl, heffects⟩
    | some next =>
      rw [hnext] at hsettled
      have hlt : next.rank < rank := by
        have hfalls := Action.rank_next (worlds m) action visit.status
        rwa [hnext, hrank] at hfalls
      set later := m + (visit.effects setting worlds event).length
      have hnextready : (chain.through setting worlds later).stage = .ready next := by
        rw [hsettled]
        rfl
      have hnextevent : (chain.through setting worlds later).event = event := by
        rw [hsettled]
        exact hevent
      obtain ⟨path, hpath, hdone, hlinks, hsteps⟩ :=
        ih next.rank hlt later hnextready hnextevent rfl
      refine ⟨visit :: path, hcons (hnext ▸ hpath), ?_⟩
      dsimp only
      rw [List.flatMap_cons, List.length_append, ← Nat.add_assoc]
      refine ⟨hdone, ?_, ?_⟩
      · rw [hlinks, hsettled]
        exact List.append_assoc _ _ _
      · rw [← List.range'_append_1, List.map_append, heffects, hsteps]

/-- **A dispatch goes down one path of its tree.**  Whatever other work does to the world between
its steps, as long as nothing else ends the view, a dispatch ends within three steps for each level
of the tree.  Its report is the path that the tree prescribes, no link of which is visited twice and
which has two links for each level at most.  What its steps do, in order, is what the links of the
path do by themselves.  Each step has its effect and gives the log the links that it settles, so
that the links given to the log, in order, are the report. -/
theorem dispatch_descends (setting : Setting) (worlds : Nat → World) (event : Option Json)
    (action : Action) (hlive : ∀ k, ((start action event).through setting worlds k).isDone = false →
      (worlds k).ended = false) :
    let run := (start action event).through setting worlds
    ∃ n path, n ≤ 3 * action.depth ∧ (run n).isDone = true ∧
      Descent setting worlds event 0 (some action) path ∧
      (run n).links = path.map Visit.link ∧
      path.Pairwise (fun visit later => later.action.rank < visit.action.rank) ∧
      path.length ≤ 2 * action.depth ∧
      (List.range n).map (fun k => (run k).effect setting (worlds k))
        = path.flatMap (Visit.effects setting worlds event) ∧
      (List.range n).flatMap (fun k => (run k).news setting (worlds k)) = path.map Visit.link ∧
      ∀ k, ((run k).step setting (worlds k)).1
        = { ((run k).effect setting (worlds k)).apply setting (worlds k) with
            log := ((run k).news setting (worlds k)).foldl
              (fun log link => log.record (worlds k).now link) (worlds k).log } := by
  intro run
  obtain ⟨path, hpath, hdone, hlinks, heffects⟩ :=
    exists_descent (start action event) 0 rfl rfl hlive
  rw [Nat.zero_add] at hdone hlinks
  rw [← List.range_eq_range'] at heffects
  have hreport := links_through setting worlds (start action event)
    (path.flatMap (Visit.effects setting worlds event)).length
  have hsteps := Nat.le_trans hpath.steps_le action.steps_le
  have hlength := Nat.le_trans hpath.length_le action.rank_le
  refine ⟨_, path, hsteps, hdone, hpath, hlinks, hpath.pairwise_rank, hlength, heffects, ?_, ?_⟩
  · exact hreport.symm.trans hlinks
  · intro k
    exact (step_spec ..).1.eq

/-- A submission whose call finds nobody to answer it: of its two continuations the one for failures
follows the call. -/
theorem dispatch_descends_submission :
    let setting : Setting := ⟨{}, ⟨[]⟩⟩
    let world : World := { log := .empty {} }
    let action : Action :=
      { kind := .submit, target := some "form"
        onSuccess := some { kind := .navigate, target := some "/done" }
        onError := some
          { kind := .setState, target := some "note", params := some (.text "lost") } }
    let run := (start action none).through setting fun _ => world
    (∀ k, (run k).isDone = false → world.ended = false) ∧
      (run 4).links = [⟨.submit, some "form", .succeeded⟩, ⟨.api, some "form", .failed⟩,
        ⟨.setState, some "note", .succeeded⟩] ∧
      ∃ n path, n ≤ 6 ∧ (run n).isDone = true ∧
        Descent setting (fun _ => world) none 0 (some action) path ∧
        (run n).links = path.map Visit.link := by
  intro setting world action run
  obtain ⟨n, path, hn, hdone, hpath, hlinks, -⟩ :=
    dispatch_descends setting (fun _ => world) none action fun _ _ => rfl
  exact ⟨fun _ _ => rfl, by decide +kernel, n, path, hn, hdone, hpath, hlinks⟩

end Chain

end

end ViewTree
