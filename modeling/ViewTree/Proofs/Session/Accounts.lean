import ViewTree.Proofs.Dispatch.Handler
import ViewTree.Proofs.Session.Background
import ViewTree.Proofs.Session.Outcome

/-!
# The books of the background

Jobs in the background are numbered as they begin.  `Accounts` are the books that a session can keep
of them: each number stands for a job that is under way, that has ended with a completion, or that
was stopped, and for one of these only.  What a job completes with is up to its steps
(`Job.Yields`): a handler yields one report for each of its actions.

The books after a move follow from what it does to the background (`Accounts.move`), and those after
a run by induction (`Run.exists_accounts`).  A job is stopped by its host alone, as it unmounts the
view.  `completions_accounted` reads the books.
-/

namespace ViewTree

/-! ### What a job comes to -/

namespace Job

variable {setting : Setting} {worlds : Nat → World} {n : Nat} {job : Job}

theorem through_handler (run : HandlerRun) :
    (handler run).through setting worlds n = handler (run.through setting worlds n) := by
  induction n with
  | zero => rfl
  | succ n ih =>
    rw [through, ih]
    rfl

/-- What a job can come to, by steps in some worlds. -/
def Yields (setting : Setting) : Job → Completion → Prop
  | chain run, .dispatched report => ∃ worlds n,
    (run.through setting worlds n).isDone = true ∧ report = (run.through setting worlds n).links
  | handler run, .fired event reports => event = run.event ∧
    ∃ worlds, Reported setting (some run.payload) worlds run.pending reports
  | queue run, .mounted report => ∃ worlds n,
    (run.through setting worlds n).isDone = true ∧ report = (run.through setting worlds n).records
  | _, _ => False

/-- A job that comes to its end has come to what it yields. -/
theorem Fresh.yields (h : job.Fresh) (hdone : (job.through setting worlds n).isDone = true) :
    job.Yields setting (job.through setting worlds n).completion := by
  cases h with
  | chain action event =>
    rw [through_chain] at hdone ⊢
    exact ⟨worlds, n, hdone, rfl⟩
  | handler fired payload =>
    rw [through_handler] at hdone ⊢
    obtain ⟨hevent, reports, hall, hreports⟩ := HandlerRun.exists_reports hdone
    refine ⟨hevent, worlds, ?_⟩
    rw [hall]
    exact hreports
  | queue specs abort =>
    rw [through_queue] at hdone ⊢
    exact ⟨worlds, n, hdone, rfl⟩

end Job

namespace Session

variable {s t : Session} {deed : Deed} {deeds : List Deed}

/-! ### The books -/

/-- The books of the background: the jobs that have begun, the numbers of those that have ended,
with their completions, and the numbers of those that were stopped. -/
structure Accounts (setting : Setting) (begun : List Job) (ended : List (Nat × Completion))
    (stopped : List Nat) (s : Session) : Prop where
  setting_eq : s.setting = setting
  next : s.view.shop.pool.next = begun.length
  /-- Each job that began is under way, has ended or was stopped, and only one of these, once. -/
  numbers : (s.tasks.map Prod.fst ++ (ended.map Prod.fst ++ stopped)).Perm (List.range begun.length)
  /-- A job that is under way is some steps on. -/
  underWay : ∀ task ∈ s.tasks, ∃ job, begun[task.1]? = some job ∧ job.Fresh ∧
    ∃ worlds n, task.2 = job.through setting worlds n
  /-- A job that has ended completed with what it yields. -/
  yields : ∀ entry ∈ ended, ∃ job, begun[entry.1]? = some job ∧ job.Yields setting entry.2
  /-- The host takes completions in order, and each of them once. -/
  outputs : s.outputs <:+ ended.map Prod.snd

namespace Accounts

variable {setting : Setting} {begun : List Job} {ended : List (Nat × Completion)}
  {stopped : List Nat}

theorem create (root : Node) (components : Components) (setting : Setting) (transport : Script) :
    Accounts setting [] [] [] (create root components setting transport) where
  setting_eq := rfl
  next := rfl
  numbers := .refl _
  underWay _ hmem := absurd hmem List.not_mem_nil
  yields _ hmem := absurd hmem List.not_mem_nil
  outputs := List.suffix_refl _

/-- The books stay as they are while no job begins or ends, each being at most a step further on. -/
theorem keep (h : Accounts setting begun ended stopped s) (hsetting : t.setting = s.setting)
    (hnext : t.view.shop.pool.next = s.view.shop.pool.next)
    (hnumbers : (t.tasks.map Prod.fst).Perm (s.tasks.map Prod.fst))
    (htasks : ∀ task ∈ t.tasks, task ∈ s.tasks ∨ ∃ job world, (task.1, job) ∈ s.tasks ∧
      task.2 = (job.step setting world).2)
    (houtputs : t.outputs <:+ s.outputs) : Accounts setting begun ended stopped t where
  setting_eq := hsetting.trans h.setting_eq
  next := hnext.trans h.next
  numbers := (hnumbers.append_right _).trans h.numbers
  underWay := by
    intro task hmem
    rcases htasks task hmem with hold | ⟨job, world, hold, hstep⟩
    · exact h.underWay task hold
    · obtain ⟨first, hfirst, hfresh, worlds, n, rfl⟩ := h.underWay _ hold
      rw [← Job.through_update] at hstep
      exact ⟨first, hfirst, hfresh, _, _, hstep⟩
  yields := h.yields
  outputs := houtputs.trans h.outputs

/-- A job that begins gets the next number. -/
theorem beginJob (h : Accounts setting begun ended stopped s) {job : Job} (hfresh : job.Fresh)
    (hsetting : t.setting = s.setting)
    (htasks : t.tasks.Perm ((s.view.shop.pool.next, job) :: s.tasks))
    (hnext : t.view.shop.pool.next = s.view.shop.pool.next + 1) (houtputs : t.outputs = s.outputs) :
    Accounts setting (begun ++ [job]) ended stopped t := by
  -- The jobs that began before keep their numbers.
  have hold : ∀ {id : Nat} {first : Job}, begun[id]? = some first →
      (begun ++ [job])[id]? = some first := by
    intro id first hfirst
    rw [List.getElem?_append_left (List.getElem?_eq_some_iff.mp hfirst).1, hfirst]
  rw [h.next] at htasks hnext
  refine ⟨hsetting.trans h.setting_eq, ?_, ?_, ?_, ?_, houtputs ▸ h.outputs⟩
  · rw [hnext, List.length_append, List.length_singleton]
  · rw [List.length_append, List.length_singleton, List.range_succ]
    refine (((htasks.map Prod.fst).append_right _).trans (h.numbers.cons _)).trans ?_
    exact (List.perm_append_singleton _ _).symm
  · intro task hmem
    rcases List.mem_cons.mp (htasks.mem_iff.mp hmem) with rfl | hmem
    · exact ⟨job, List.getElem?_concat_length, hfresh, fun _ => s.world, 0, rfl⟩
    · obtain ⟨first, hfirst, hunderWay⟩ := h.underWay task hmem
      exact ⟨first, hold hfirst, hunderWay⟩
  · intro entry hmem
    obtain ⟨first, hfirst, hyields⟩ := h.yields entry hmem
    exact ⟨first, hold hfirst, hyields⟩

/-- A job that ends completes with what it yields. -/
theorem endJob (h : Accounts setting begun ended stopped s) {id : Nat} {job : Job}
    (hdone : job.isDone = true) (hsetting : t.setting = s.setting)
    (hswap : s.view.shop.pool.Swap t.view.shop.pool [(id, job)] [])
    (houtputs : t.outputs = s.outputs ++ [job.completion]) :
    Accounts setting begun (ended ++ [(id, job.completion)]) stopped t := by
  obtain ⟨rest, hbefore, hafter⟩ := hswap.tasks
  obtain ⟨first, hfirst, hfresh, worlds, n, hthrough⟩ :=
    h.underWay (id, job) (hbefore.mem_iff.mpr (.head _))
  refine ⟨hsetting.trans h.setting_eq, hswap.next.trans h.next, ?_, ?_, ?_, ?_⟩
  · -- The number of the job moves from those under way to those that have ended.
    have hmiddle : ((ended ++ [(id, job.completion)]).map Prod.fst ++ stopped).Perm
        (id :: (ended.map Prod.fst ++ stopped)) := by
      rw [List.map_append, List.append_assoc]
      exact List.perm_middle
    refine List.Perm.trans ?_ h.numbers
    refine ((hafter.map Prod.fst).append hmiddle).trans (List.perm_middle.trans ?_)
    exact (hbefore.map Prod.fst).symm.append_right _
  · intro task hmem
    exact h.underWay task (hbefore.mem_iff.mpr (.tail _ (hafter.mem_iff.mp hmem)))
  · intro entry hmem
    rcases List.mem_append.mp hmem with hold | hnew
    · exact h.yields entry hold
    · obtain rfl := List.mem_singleton.mp hnew
      change job = _ at hthrough
      subst hthrough
      exact ⟨first, hfirst, hfresh.yields hdone⟩
  · obtain ⟨taken, htaken⟩ := h.outputs
    rw [houtputs, List.map_append, ← htaken, List.append_assoc]
    exact List.suffix_append _ _

/-- The host unmounts the view, which stops every job in the background. -/
theorem unmount (h : Accounts setting begun ended stopped s)
    (hlisted : s.view.shop.pool.Listed) :
    Accounts setting begun ended (stopped ++ s.tasks.map Prod.fst) s.unmounted where
  setting_eq := h.setting_eq
  next := s.view.shop.pool.next_cancelAll.trans h.next
  numbers := by
    refine List.Perm.trans ?_ h.numbers
    rw [tasks_unmounted hlisted, List.map_nil, List.nil_append, ← List.append_assoc]
    exact List.perm_append_comm
  underWay _ hmem := by
    rw [tasks_unmounted hlisted] at hmem
    exact absurd hmem List.not_mem_nil
  yields := h.yields
  outputs := h.outputs

/-- **The books after a move.**  A job is stopped by the host alone, as it unmounts the view. -/
theorem move (h : Accounts setting begun ended stopped s) (hmove : Move s deed t)
    (hkeys : KeysGiven s.view) (hlisted : s.view.shop.pool.Listed) :
    ∃ later stopped', Accounts setting (begun ++ deed.behind?.toList) (ended ++ later) stopped' t ∧
      later.map Prod.snd = deed.completion?.toList ∧ (stopped' = stopped ∨
        deed = .quiet ∧ t = s.unmounted ∧ stopped' = stopped ++ s.tasks.map Prod.fst) := by
  have hsetting := hmove.cases.1
  cases hmove.background hkeys with
  | begins key job hdeed hlive hfresh hqueue htasks hnext houtputs =>
    subst hdeed
    refine ⟨[], stopped, ?_, rfl, .inl rfl⟩
    rw [List.append_nil]
    exact h.beginJob hfresh hsetting htasks hnext houtputs
  | works id job world hbehind hcompletion hswap houtputs =>
    obtain ⟨rest, hbefore, hafter⟩ := hswap.tasks
    rw [hbehind, hcompletion]
    refine ⟨[], stopped, ?_, rfl, .inl rfl⟩
    rw [Option.toList_none, List.append_nil, List.append_nil]
    -- The job keeps its number while it takes a step.
    refine h.keep hsetting hswap.next ?_ ?_ (houtputs ▸ List.suffix_refl _)
    · exact (hafter.map Prod.fst).trans (hbefore.map Prod.fst).symm
    · intro task hmem
      rcases List.mem_cons.mp (hafter.mem_iff.mp hmem) with rfl | hrest
      · rw [h.setting_eq]
        exact .inr ⟨job, world, hbefore.mem_iff.mpr (.head _), rfl⟩
      · exact .inl (hbefore.mem_iff.mpr (.tail _ hrest))
  | ends id job hdeed hdone hswap houtputs =>
    subst hdeed
    refine ⟨[(id, job.completion)], stopped, ?_, rfl, .inl rfl⟩
    exact (List.append_nil begun).symm ▸ h.endJob hdone hsetting hswap houtputs
  | stops hdeed hstops =>
    subst hdeed hstops
    refine ⟨[], _, ?_, rfl, .inr ⟨rfl, rfl, rfl⟩⟩
    simp only [Deed.behind?, Option.toList_none, List.append_nil]
    exact h.unmount hlisted
  | keeps hbehind hcompletion hswap houtputs =>
    obtain ⟨rest, hbefore, hafter⟩ := hswap.tasks
    have hsame : t.tasks.Perm s.tasks := hafter.trans hbefore.symm
    rw [hbehind, hcompletion]
    refine ⟨[], stopped, ?_, rfl, .inl rfl⟩
    rw [Option.toList_none, List.append_nil, List.append_nil]
    exact h.keep hsetting hswap.next (hsame.map Prod.fst)
      (fun task hmem => .inl (hsame.mem_iff.mp hmem)) houtputs

end Accounts

/-- The host has unmounted the view in the course of a run, and that stopped these jobs. -/
def StoppedByUnmount (start : Session) (deeds : List Deed) (stopped : List Nat) (s : Session) :
    Prop :=
  ∃ first mid later, deeds = first ++ .quiet :: later ∧ Run start first mid ∧
    Run mid.unmounted later s ∧ stopped = mid.tasks.map Prod.fst

theorem StoppedByUnmount.snoc {start : Session} {stopped : List Nat}
    (h : StoppedByUnmount start deeds stopped s) (hmove : Move s deed t) :
    StoppedByUnmount start (deeds ++ [deed]) stopped t := by
  obtain ⟨first, mid, later, rfl, hfirst, hlater, hstopped⟩ := h
  refine ⟨first, mid, later ++ [deed], ?_, hfirst, hlater.snoc hmove, hstopped⟩
  rw [List.append_assoc]
  rfl

/-- Every job in the background of a view that a run leads to is registered. -/
theorem Run.listed_of_create {root : Node} {components : Components} {setting : Setting}
    {transport : Script} (h : Run (create root components setting transport) deeds s) :
    s.view.shop.pool.Listed :=
  h.listed (keysGiven_create root components setting transport)
    (listed_create root components setting transport)

/-- **The books after a run.** -/
theorem Run.exists_accounts {root : Node} {components : Components} {setting : Setting}
    {transport : Script} (h : Run (create root components setting transport) deeds s) :
    ∃ ended stopped, Accounts setting (jobsBehind deeds) ended stopped s ∧
      completions deeds = ended.map Prod.snd ∧ (stopped = [] ∨
        StoppedByUnmount (create root components setting transport) deeds stopped s) := by
  induction h with
  -- The jobs that were stopped are those that a first unmounting found; later ones find none.
  | nil => exact ⟨[], [], .create root components setting transport, rfl, .inl rfl⟩
  | @snoc deeds deed s t hrun hmove ih =>
    obtain ⟨ended, stopped, haccounts, hended, hstopped⟩ := ih
    obtain ⟨later, stopped', haccounts', hlater, hstops⟩ :=
      haccounts.move hmove (hrun.keysGiven (keysGiven_create root components setting transport))
        hrun.listed_of_create
    rw [jobsBehind_concat, completions_concat, hended, ← hlater, ← List.map_append]
    refine ⟨_, stopped', haccounts', rfl, ?_⟩
    rcases hstops with hsame | ⟨hdeed, ht, hmore⟩
    · rw [hsame]
      exact hstopped.imp_right (·.snoc hmove)
    · right
      rcases hstopped with hnone | hunmounted
      · subst hdeed ht hmore hnone
        exact ⟨deeds, s, [], rfl, hrun, .nil, rfl⟩
      · -- The view was unmounted before, so that nothing was left to stop.
        obtain ⟨first, mid, after, -, hfirst, hafter, -⟩ := id hunmounted
        obtain ⟨-, hnone, -⟩ := hafter.rested_of_unmounted hfirst.listed_of_create
        rw [hnone, List.map_nil, List.append_nil] at hmore
        exact hmore ▸ hunmounted.snoc hmove

/-- **No completion is lost, and none comes twice.**  Whatever host, jobs and replies have done in
whatever order, each job that began in the background is under way, or has ended with one completion
of what it yields, or was stopped as the host unmounted the view, and only one of these.  The loads
of a mount complete once at most, and no mount starts after another one.  Once the host has
unmounted the view nothing more completes.  A host that lets the background come to rest finds
nothing under way. -/
theorem completions_accounted {root : Node} {components : Components} {setting : Setting}
    {transport : Script} {s : Session} {deeds : List Deed}
    (h : Run (create root components setting transport) deeds s) :
    (∃ ended stopped, Accounts setting (jobsBehind deeds) ended stopped s ∧
        completions deeds = ended.map Prod.snd ∧ (stopped = [] ∨
          StoppedByUnmount (create root components setting transport) deeds stopped s)) ∧
      (completions deeds).countP Completion.isMounted ≤ 1 ∧
      (∀ t, Mounts s t → ∀ later u, Run t later u →
        u.view.mount = (u.view, none) ∧ u.view.spawnMount = (u.view, false)) ∧
      (∀ later t, Run s.unmounted later t →
        completions later = [] ∧ t.tasks = [] ∧ t.outputs <:+ s.outputs) ∧
      ∀ view, Relation.ReflTransGen HostCall (View.create root components setting transport) view →
        ∃ deeds hosted, Run (create root components setting transport) deeds
          ⟨view.settle, hosted⟩ ∧ Session.tasks ⟨view.settle, hosted⟩ = [] := by
  have honce : MountsOnce deeds s :=
    h.mountsOnce (keysGiven_create root components setting transport) (Nat.le_refl _)
  refine ⟨h.exists_accounts, ?_, ?_, ?_, ?_⟩
  · unfold MountsOnce at honce
    split at honce <;> omega
  · exact fun t hmounts later u hrun => hmounts.final hrun
  · exact fun later t hrun => hrun.rested_of_unmounted h.listed_of_create
  · intro view hcalls
    obtain ⟨deeds, hosted, hrun⟩ := exists_run_of_calls (hcalls.tail (.settle view))
    exact ⟨deeds, hosted, hrun, tasks_settle_of_calls hcalls⟩

/-- A handler is fired, takes its steps and completes. -/
theorem completions_accounted_fired :
    let setting : Setting := ⟨{}, ⟨[]⟩⟩
    let start := create (.ofKind "div") .empty setting {}
    let action : Action :=
      { kind := .setState, target := some "note", params := some (.text "seen") }
    ∃ deeds s, Run start deeds s ∧
      jobsBehind deeds = [.handler (.start ⟨.click, [action]⟩ .null)] ∧
      completions deeds = [.fired .click [[⟨.setState, some "note", .succeeded⟩]]] ∧
      (∃ ended stopped, Accounts setting (jobsBehind deeds) ended stopped s) ∧
      (completions deeds).countP Completion.isMounted ≤ 1 := by
  intro setting start action
  let fired : View := start.view.fire ⟨.click, [action]⟩ ⟨.click, .null⟩
  let job : Job := .handler (.start ⟨.click, [action]⟩ .null)
  -- The handler takes its action up, runs it and puts its chain down.
  let one := job.step setting fired.world
  let two := one.2.step setting one.1
  let three := two.2.step setting two.1
  have hfire : Run start _ ⟨fired, []⟩ := Run.nil.snoc (.fire _ _ rfl)
  have hone := hfire.snoc (.workAtHead _ rfl)
  have htwo := hone.snoc (.workAtHead _ rfl)
  have hthree := htwo.snoc (.workAtHead _ rfl)
  have hends := hthree.snoc (.complete (swap_finish _ 0 three.2 []) rfl)
  obtain ⟨⟨ended, stopped, haccounts, -⟩, honce, -⟩ := completions_accounted hends
  exact ⟨_, _, hends, rfl, rfl, ⟨ended, stopped, haccounts⟩, honce⟩

end Session

end ViewTree
