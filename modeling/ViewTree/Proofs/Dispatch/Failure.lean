import ViewTree.Proofs.Dispatch.Descent

/-!
# What follows a failure

A chain stands at an action from the step that reaches it to the step that settles it, and each of
its links is about the action it stood at.  What follows a link is the action that `Action.next`
names, even where the view has ended in between: the link of that action is then a skipped one.

* `Chain.step_standing`: a step leaves a chain at its action, or settles the action and goes on.
* `Chain.exists_settlesAt`: the step that settled a link, by induction on the steps.
* `Chain.failure_followed`: the failure of a remote call is followed by its error action, whatever
  made it fail; a submission fails only for want of a target, and nothing follows it then.
-/

namespace ViewTree

section

variable {setting : Setting} {world : World} {worlds : Nat → World} {chain : Chain}
  {action : Action} {status : Status} {link : LinkReport}

/-! ### Actions -/

namespace Action

/-- Nothing follows an action that was skipped. -/
theorem next_skipped : action.next world .skipped = none := by
  unfold next
  split <;> trivial

theorem next_failed_of_api (h : action.kind = .api) :
    action.next world .failed = action.onError := by
  simp only [next, h]

theorem next_failed_of_submit (h : action.kind = .submit) : action.next world .failed = none := by
  simp only [next, h]

/-- Where an action that settles at once fails, it is no submission that names a target. -/
theorem target_of_failed_submit (h : action.promptStatus = .failed)
    (hkind : action.kind = .submit) : action.target = none := by
  simp only [promptStatus, hkind] at h
  cases htarget : action.target with
  | none => rfl
  | some target => simp [htarget] at h

end Action

namespace Chain

/-! ### Steps -/

/-- The action a chain stands at. -/
def standing? (chain : Chain) : Option Action :=
  match chain.stage with
  | .ready action | .calling action _ => some action
  | .done => none

/-- Only remote calls are in flight. -/
def CallsRemotely (chain : Chain) : Prop :=
  ∀ action call, chain.stage = .calling action call → action.kind = .api

theorem isDone_iff : chain.isDone = true ↔ chain.standing? = none := by
  unfold isDone standing?
  cases chain.stage <;> simp

theorem standing?_follow {next : Option Action} : (chain.follow link next).standing? = next := by
  cases next <;> rfl

theorem callsRemotely_follow {next : Option Action} : (chain.follow link next).CallsRemotely := by
  intro action call h
  cases next <;> exact absurd h (by simp [follow])

/-- What a step makes of a chain that stands at an action. -/
inductive StepsFrom (world : World) (chain : Chain) (action : Action) (later : Chain) : Prop
  /-- The call of the action is in flight. -/
  | calls (call : Call) : action.kind = .api →
    later = { chain with stage := .calling action call } → StepsFrom world chain action later
  /-- The action has settled, and the chain goes on to what follows it. -/
  | settles (status : Status) :
    later = chain.follow (.ofAction action status) (action.next world status) →
    (status = .failed → action.kind = .submit → action.target = none) →
    StepsFrom world chain action later

theorem StepsFrom.callsRemotely {later : Chain} (h : StepsFrom world chain action later) :
    later.CallsRemotely := by
  cases h with
  | calls call hkind hlater =>
    rw [hlater]
    rintro _ _ ⟨⟩
    exact hkind
  | settles status hlater _ =>
    rw [hlater]
    exact callsRemotely_follow

/-- An action that has not started settles, or its call is in flight. -/
theorem stepsFrom_of_ready (h : chain.stage = .ready action) :
    chain.StepsFrom world action (chain.step setting world).2 := by
  cases hended : world.ended with
  | true =>
    -- A view that has ended skips the action, and nothing follows one that was skipped.
    refine .settles .skipped ?_ fun hfailed => absurd hfailed (by decide)
    rw [step_ended h hended, Action.next_skipped]
    rfl
  | false =>
    cases hopens : (action.effect setting world chain.event).opens? with
    | none => exact .settles _ (step_of_prompt h hended hopens) Action.target_of_failed_submit
    | some call => exact .calls call (Action.kind_of_opens hopens) (step_of_opens h hended hopens)

/-- A call in flight settles, and what follows it is up to how. -/
theorem stepsFrom_of_calling {call : Call} (h : chain.stage = .calling action call)
    (hkind : action.kind = .api) : chain.StepsFrom world action (chain.step setting world).2 := by
  refine .settles (world.settleCall setting call).2.status ?_ ?_
  · rw [step_calling h, Action.continuation_of_api hkind]
    rfl
  · exact fun _ hsubmit => absurd (hkind.symm.trans hsubmit) (by decide)

/-- **A step from an action** leaves the chain there, with its call in flight, or settles the action
and goes on to what follows it. -/
theorem step_standing (hcalls : chain.CallsRemotely) (h : chain.standing? = some action) :
    chain.StepsFrom world action (chain.step setting world).2 := by
  unfold standing? at h
  split at h
  · rename_i hstage
    exact stepsFrom_of_ready (hstage.trans (congrArg Stage.ready (Option.some.inj h)))
  · rename_i standing call hstage
    obtain rfl := Option.some.inj h
    exact stepsFrom_of_calling hstage (hcalls _ call hstage)
  · exact absurd h (by simp)

theorem step_of_isDone (h : chain.isDone = true) : chain.step setting world = (world, chain) := by
  simp only [step, stage_of_isDone h]

theorem callsRemotely_step (h : chain.CallsRemotely) :
    (chain.step setting world).2.CallsRemotely := by
  cases hstanding : chain.standing? with
  | none => rwa [step_of_isDone (isDone_iff.mpr hstanding)]
  | some action => exact (step_standing h hstanding).callsRemotely

/-! ### Runs -/

variable {m n : Nat}

theorem callsRemotely_through (h : chain.CallsRemotely) (n : Nat) :
    (chain.through setting worlds n).CallsRemotely := by
  induction n with
  | zero => exact h
  | succ n ih => exact callsRemotely_step ih

/-- A chain keeps the links it has. -/
theorem getElem?_links_through {i : Nat} (hle : m ≤ n)
    (h : (chain.through setting worlds m).links[i]? = some link) :
    (chain.through setting worlds n).links[i]? = some link := by
  induction hle with
  | refl => exact h
  | @step n _ ih =>
    show ((chain.through setting worlds n).step setting (worlds n)).2.links[i]? = _
    rw [(step_spec ..).2, List.getElem?_append_left (List.getElem?_eq_some_iff.mp ih).1, ih]

/-- A chain at its end stays as it is. -/
theorem through_of_isDone (hle : m ≤ n) (h : (chain.through setting worlds m).isDone = true) :
    chain.through setting worlds n = chain.through setting worlds m := by
  induction hle with
  | refl => rfl
  | @step n _ ih =>
    show ((chain.through setting worlds n).step setting (worlds n)).2 = _
    rw [ih, step_of_isDone h]

theorem stepsFrom_through (hcalls : chain.CallsRemotely)
    (h : (chain.through setting worlds n).standing? = some action) :
    (chain.through setting worlds n).StepsFrom (worlds n) action
      (chain.through setting worlds (n + 1)) :=
  step_standing (callsRemotely_through hcalls n) h

/-- A chain stays at an action until it has settled it. -/
theorem standing_or_settled (hcalls : chain.CallsRemotely) (hle : m ≤ n)
    (h : (chain.through setting worlds m).standing? = some action) :
    ((chain.through setting worlds n).standing? = some action ∧
        (chain.through setting worlds n).links = (chain.through setting worlds m).links) ∨
      ∃ status, (chain.through setting worlds n).links[
        (chain.through setting worlds m).links.length]? = some (.ofAction action status) := by
  induction hle with
  | refl => exact .inl ⟨h, rfl⟩
  | @step n _ ih =>
    rcases ih with ⟨hstanding, hlinks⟩ | ⟨status, hlink⟩
    · cases stepsFrom_through hcalls hstanding with
      | calls call hkind hlater =>
        rw [hlater]
        exact .inl ⟨rfl, hlinks⟩
      | settles status hlater _ =>
        rw [hlater, ← hlinks]
        exact .inr ⟨status, List.getElem?_concat_length⟩
    · exact .inr ⟨status, getElem?_links_through (Nat.le_succ n) hlink⟩

/-- A chain that comes to its end has settled every action it stood at. -/
theorem exists_link_of_standing (hcalls : chain.CallsRemotely) (hle : m ≤ n)
    (h : (chain.through setting worlds m).standing? = some action)
    (hdone : (chain.through setting worlds n).isDone = true) :
    ∃ status, (chain.through setting worlds n).links[(chain.through setting worlds m).links.length]?
      = some (.ofAction action status) := by
  refine (standing_or_settled hcalls hle h).resolve_left ?_
  rintro ⟨hstanding, -⟩
  rw [isDone_iff.mp hdone] at hstanding
  exact absurd hstanding (by simp)

/-- A step of a run settles a link: the chain stands at the action the link is about, and goes on to
what follows it. -/
structure SettlesAt (setting : Setting) (worlds : Nat → World) (chain : Chain) (k i : Nat)
    (link : LinkReport) (action : Action) : Prop where
  standing : (chain.through setting worlds k).standing? = some action
  length_links : (chain.through setting worlds k).links.length = i
  link_eq : link = .ofAction action link.status
  later : chain.through setting worlds (k + 1)
    = (chain.through setting worlds k).follow link (action.next (worlds k) link.status)
  target_of_submit : link.status = .failed → action.kind = .submit → action.target = none

/-- **Each link was settled by a step** from the action it is about. -/
theorem exists_settlesAt (hcalls : chain.CallsRemotely) {i : Nat} (hnew : chain.links.length ≤ i)
    (h : (chain.through setting worlds n).links[i]? = some link) :
    ∃ k < n, ∃ action, chain.SettlesAt setting worlds k i link action := by
  induction n with
  | zero =>
    have := (List.getElem?_eq_some_iff.mp h).1
    exact absurd this (Nat.not_lt.mpr hnew)
  | succ n ih =>
    have hearlier : (chain.through setting worlds n).links[i]? = some link →
        ∃ k < n + 1, ∃ action, chain.SettlesAt setting worlds k i link action := by
      intro hlink
      obtain ⟨k, hk, hsettles⟩ := ih hlink
      exact ⟨k, Nat.lt_succ_of_lt hk, hsettles⟩
    cases hstanding : (chain.through setting worlds n).standing? with
    | none =>
      rw [through_of_isDone (Nat.le_succ n) (isDone_iff.mpr hstanding)] at h
      exact hearlier h
    | some action =>
      cases stepsFrom_through hcalls hstanding with
      | calls call hkind hlater =>
        rw [hlater] at h
        exact hearlier h
      | settles status hlater hsubmit =>
        rw [hlater] at h
        -- The link is an earlier one, or the one that this step settles.
        rcases Nat.lt_or_ge i (chain.through setting worlds n).links.length with hold | hlast
        · exact hearlier ((List.getElem?_append_left hold).symm.trans h)
        · have hnow := (List.getElem?_append_right hlast).symm.trans h
          rw [List.getElem?_singleton] at hnow
          split at hnow
          · obtain rfl := Option.some.inj hnow
            exact ⟨n, Nat.lt_succ_self n, action, hstanding, by omega, rfl, hlater, hsubmit⟩
          · exact absurd hnow (by simp)

/-- However other work changes the world, and wherever it ends the view, a dispatch ends. -/
theorem exists_isDone (setting : Setting) (worlds : Nat → World) (chain : Chain) :
    ∃ n ≤ chain.left, (chain.through setting worlds n).isDone = true := by
  -- Each step lowers what is left, as long as the chain is not at its end.
  induction hleft : chain.left using Nat.strongRecOn generalizing chain worlds with
  | ind left ih =>
    cases hdone : chain.isDone with
    | true => exact ⟨0, Nat.zero_le _, hdone⟩
    | false =>
      have hfalls := left_step setting (worlds 0) hdone
      obtain ⟨n, hn, hends⟩ := ih _ (hleft ▸ hfalls) (fun k => worlds (1 + k)) _ rfl
      refine ⟨n + 1, by omega, ?_⟩
      rw [through_succ]
      exact hends

/-- A link that failed in a run that has ended, and what follows it. -/
theorem exists_failing (hcalls : chain.CallsRemotely) {i : Nat} (hnew : chain.links.length ≤ i)
    (hdone : (chain.through setting worlds n).isDone = true)
    (h : (chain.through setting worlds n).links[i]? = some link) (hfailed : link.status = .failed) :
    ∃ k < n, ∃ failing, (chain.through setting worlds k).standing? = some failing ∧
      (chain.through setting worlds k).links.length = i ∧ link = .ofAction failing .failed ∧
      (failing.kind = .api → ∀ handler, failing.onError = some handler →
        ∃ status, (chain.through setting worlds n).links[i + 1]?
          = some (.ofAction handler status)) ∧
      (failing.kind = .submit → failing.target = none ∧
        i + 1 = (chain.through setting worlds n).links.length) := by
  obtain ⟨k, hk, failing, hstanding, hlength, hlinkeq, hlater, hsubmit⟩ :=
    exists_settlesAt hcalls hnew h
  rw [hfailed] at hlinkeq hlater
  -- The step after that one finds the chain at what follows the failure.
  have hnext : (chain.through setting worlds (k + 1)).standing?
      = failing.next (worlds k) .failed := by
    rw [hlater, standing?_follow]
  have hcount : (chain.through setting worlds (k + 1)).links.length = i + 1 := by
    rw [hlater, ← hlength]
    exact List.length_append
  refine ⟨k, hk, failing, hstanding, hlength, hlinkeq, ?_, ?_⟩
  · intro hkind handler hhandler
    rw [Action.next_failed_of_api hkind, hhandler] at hnext
    rw [← hcount]
    exact exists_link_of_standing hcalls hk hnext hdone
  · intro hkind
    rw [Action.next_failed_of_submit hkind] at hnext
    refine ⟨hsubmit hfailed hkind, ?_⟩
    rw [← hcount, through_of_isDone hk (isDone_iff.mpr hnext)]

/-- **What follows a failure.**  Whatever other work does to the world between its steps, a dispatch
ends.  Each link of its report that failed is about an action the dispatch stood at.  If that is a
remote call with an error action, the next link is about the error action, whether the call had no
target, could not be read or was answered with an error.  If it is a submission, it had no target,
and the report ends with it. -/
theorem failure_followed (setting : Setting) (worlds : Nat → World) (action : Action)
    (event : Option Json) :
    let run := (start action event).through setting worlds
    (∃ n ≤ 3 * action.depth, (run n).isDone = true) ∧
      ∀ n, (run n).isDone = true → ∀ i link, (run n).links[i]? = some link →
        link.status = .failed → ∃ k < n, ∃ failing, (run k).standing? = some failing ∧
          (run k).links.length = i ∧ link = .ofAction failing .failed ∧
          (failing.kind = .api → ∀ handler, failing.onError = some handler →
            ∃ status, (run n).links[i + 1]? = some (.ofAction handler status)) ∧
          (failing.kind = .submit → failing.target = none ∧ i + 1 = (run n).links.length) := by
  intro run
  refine ⟨?_, ?_⟩
  · obtain ⟨n, hn, hdone⟩ := exists_isDone setting worlds (start action event)
    exact ⟨n, Nat.le_trans hn action.steps_le, hdone⟩
  · intro n hdone i link hlink hfailed
    have hcalls : (start action event).CallsRemotely := fun _ _ h => absurd h (by simp [start])
    exact exists_failing hcalls (Nat.zero_le i) hdone hlink hfailed

/-- A submission without a target fails and forgets its error action. -/
theorem failure_of_submission_forgotten :
    let action : Action :=
      { kind := .submit
        onError := some
          { kind := .setState, target := some "note", params := some (.text "lost") } }
    let world : World := { log := .empty {} }
    let last := (start action none).through ⟨{}, ⟨[]⟩⟩ (fun _ => world) 1
    last.isDone = true ∧ last.links = [⟨.submit, none, .failed⟩] := by
  decide

end Chain

end

end ViewTree
