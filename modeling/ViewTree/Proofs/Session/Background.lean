import ViewTree.Proofs.Session.InFlight
import ViewTree.Proofs.Tasks.Pool

/-!
# What goes on in the background

`Background` says what a move does to the jobs in the background: one of them begins, takes a step
or ends, or the host stops them all as it unmounts the view.  No job gives way to another, since the
keys in the background are given out once (`Move.background`).

* `Run.rested_of_unmounted`: once the host has unmounted a view nothing in the background completes.
* `Mounts.final`: after a mount none starts any more.
* `Run.mountsOnce`: the loads of a mount complete once at most.
-/

namespace ViewTree

/-! ### Jobs, tasks and deeds -/

namespace Job

/-- Whether a job runs the loads of a mount. -/
def isQueue : Job → Bool
  | queue _ => true
  | _ => false

theorem isQueue_step {setting : Setting} {world : World} {job : Job} :
    (job.step setting world).2.isQueue = job.isQueue := by
  cases job <;> rfl

end Job

/-- Whether the loads of a mount have ended. -/
def Completion.isMounted : Completion → Bool
  | mounted _ => true
  | _ => false

theorem Job.isMounted_completion (job : Job) : job.completion.isMounted = job.isQueue := by
  cases job <;> rfl

namespace TaskPool

variable {β : Type} {pool : TaskPool β} {key : String} {body : β}

/-- Tasks that give way to others are counted in their place. -/
theorem Swap.countP_eq {before after : TaskPool β} {removed added : List (Nat × β)}
    (h : before.Swap after removed added) (p : Nat × β → Bool) :
    after.tasks.countP p + removed.countP p = before.tasks.countP p + added.countP p := by
  obtain ⟨rest, hbefore, hafter⟩ := h.tasks
  rw [hbefore.countP_eq, hafter.countP_eq, List.countP_append, List.countP_append]
  omega

/-- A task that starts under a new key joins the others. -/
theorem tasks_spawn_of_new (h : ∀ entry ∈ pool.registered, entry.1 ≠ key) :
    (pool.spawn key body).tasks.Perm ((pool.next, body) :: pool.tasks) := by
  unfold spawn
  rw [cancel_of_new h]
  unfold tasks prune
  dsimp only
  rw [List.append_assoc]
  exact List.perm_middle

theorem next_spawn_of_new (h : ∀ entry ∈ pool.registered, entry.1 ≠ key) :
    (pool.spawn key body).next = pool.next + 1 := by
  unfold spawn
  rw [cancel_of_new h]
  rfl

/-- Tasks stay registered when another one starts under a new key. -/
theorem Listed.spawn_of_new (h : pool.Listed) (hnew : ∀ entry ∈ pool.registered, entry.1 ≠ key)
    (body : β) : (pool.spawn key body).Listed := by
  intro task hmem
  rw [spawn_eq, cancel_of_new hnew]
  rcases List.mem_cons.mp ((tasks_spawn_of_new hnew).mem_iff.mp hmem) with rfl | hold
  · exact ⟨key, List.mem_append_right _ (List.mem_singleton_self _)⟩
  · obtain ⟨other, hother⟩ := h task hold
    have halive : task.1 ∈ pool.unfinished := List.mem_map_of_mem hold
    exact ⟨other, List.mem_append_left _ (Tracks.mem_registered_prune.mpr ⟨hother, halive⟩)⟩

end TaskPool

namespace Deed

/-- The job of a deed that begins one in the background. -/
def behind? : Deed → Option Job
  | began (some _) job => some job
  | _ => none

/-- The completion of a deed that ends a job in the background. -/
def completion? : Deed → Option Completion
  | completed completion => some completion
  | _ => none

end Deed

/-- The jobs that began in the background, in order. -/
def jobsBehind (deeds : List Deed) : List Job := deeds.filterMap Deed.behind?

/-- The completions in the background, in order. -/
def completions (deeds : List Deed) : List Completion := deeds.filterMap Deed.completion?

theorem jobsBehind_concat (deeds : List Deed) (deed : Deed) :
    jobsBehind (deeds ++ [deed]) = jobsBehind deeds ++ deed.behind?.toList := filterMap_concat _ _ _

theorem completions_concat (deeds : List Deed) (deed : Deed) :
    completions (deeds ++ [deed]) = completions deeds ++ deed.completion?.toList :=
  filterMap_concat _ _ _

namespace Session

/-- A session after its host has unmounted the view. -/
def unmounted (s : Session) : Session := { s with view := s.view.unmount }

/-- The tasks in the background. -/
def tasks (s : Session) : List (Nat × Job) := s.view.shop.pool.tasks

/-- The completions that the host has not taken yet. -/
def outputs (s : Session) : List Completion := s.view.shop.outputs

/-- The host mounts the view, and waits for its loads or lets them run in the background. -/
inductive Mounts (s : Session) : Session → Prop
  | awaited : s.view.canMount = true → Mounts s
    { view := { s.view with mounted := true }, hosted := s.hosted ++ [s.view.mountJob] }
  | behind : s.view.canMount = true → Mounts s { s with view := s.view.spawnMount.1 }

/-! ### Moves -/

/-- What a move does to the jobs in the background. -/
inductive Background (s : Session) (deed : Deed) (t : Session) : Prop
  /-- A job begins with the next number, and no other one is stopped for it. -/
  | begins (key : String) (job : Job) : deed = .began (some key) job → s.world.ended = false →
    job.Fresh → (job.isQueue = true → s.view.mounted = false ∧ t.view.mounted = true) →
    t.tasks.Perm ((s.view.shop.pool.next, job) :: s.tasks) →
    t.view.shop.pool.next = s.view.shop.pool.next + 1 → t.outputs = s.outputs → Background s deed t
  /-- A job takes a step. -/
  | works (id : Nat) (job : Job) (world : World) : deed.behind? = none → deed.completion? = none →
    s.view.shop.pool.Swap t.view.shop.pool [(id, job)] [(id, (job.step s.setting world).2)] →
    t.outputs = s.outputs → Background s deed t
  /-- A job ends. -/
  | ends (id : Nat) (job : Job) : deed = .completed job.completion → job.isDone = true →
    s.view.shop.pool.Swap t.view.shop.pool [(id, job)] [] →
    t.outputs = s.outputs ++ [job.completion] → Background s deed t
  /-- The host unmounts the view. -/
  | stops : deed = .quiet → t = s.unmounted → Background s deed t
  /-- The jobs go on as they are; the host may take a completion. -/
  | keeps : deed.behind? = none → deed.completion? = none →
    s.view.shop.pool.Swap t.view.shop.pool [] [] → t.outputs <:+ s.outputs → Background s deed t

variable {s t : Session} {deed : Deed} {deeds : List Deed}

theorem Background.of_eq (hbehind : deed.behind? = none) (hcompletion : deed.completion? = none)
    (hpool : t.view.shop.pool = s.view.shop.pool) (houtputs : t.outputs = s.outputs) :
    Background s deed t :=
  .keeps hbehind hcompletion (hpool ▸ .refl _) (houtputs ▸ List.suffix_refl _)

/-- **What a move does to the jobs in the background.** -/
theorem Move.background (h : Move s deed t) (hkeys : KeysGiven s.view) : Background s deed t := by
  cases h with
  | write path value => exact .of_eq rfl rfl rfl rfl
  | start hfresh => exact .of_eq rfl rfl rfl rfl
  | mount hcan => exact .of_eq rfl rfl rfl rfl
  | spawnMount hcan =>
    obtain ⟨hmounted, hlive⟩ : s.view.mounted = false ∧ s.view.isEnded = false := by
      simpa [View.canMount] using hcan
    -- A mount starts only in a view that has not been mounted, so that its key is new.
    have hnew := hkeys.mount_new hmounted
    refine .begins "mount" s.view.mountJob rfl hlive (.queue _ _) ?_ ?_ ?_ ?_
    · rw [View.spawnMount, if_pos hcan]
      exact fun _ => ⟨hmounted, rfl⟩
    · rw [View.spawnMount, if_pos hcan]
      exact TaskPool.tasks_spawn_of_new hnew
    · rw [View.spawnMount, if_pos hcan]
      exact TaskPool.next_spawn_of_new hnew
    · rw [View.spawnMount, if_pos hcan]
      rfl
  | fire handler event hlive =>
    -- Each handler that is fired has a key of its own.
    have hnew := hkeys.event_new
    rw [View.fire, if_neg (by simp [hlive])]
    refine .begins _ _ rfl hlive (.handler handler event.payload) ?_ ?_ ?_ rfl
    · exact fun hqueue => absurd hqueue Bool.false_ne_true
    · exact TaskPool.tasks_spawn_of_new hnew
    · exact TaskPool.next_spawn_of_new hnew
  | unmount => exact .stops rfl rfl
  | take =>
    refine .keeps rfl rfl ?_ (Schedule.outputs_take _)
    show s.view.shop.pool.Swap s.view.shop.take.1.pool [] []
    rw [Schedule.pool_take]
    exact .refl _
  | wait hle => exact .of_eq rfl rfl rfl rfl
  | answers routes fallback latency => exact .of_eq rfl rfl rfl rfl
  | work hhosted => exact .of_eq rfl rfl rfl rfl
  | leave hhosted hdone => exact .of_eq rfl rfl rfl rfl
  | @workBehind job id pool hswap => exact .works id job s.world rfl rfl hswap rfl
  | @complete job id pool hswap hdone => exact .ends id job rfl hdone hswap rfl
  | rearrange hswap => exact .keeps rfl rfl hswap (List.suffix_refl _)

/-- A view that has just been created has given out no key. -/
theorem keysGiven_create (root : Node) (components : Components) (setting : Setting)
    (transport : Script) : KeysGiven (create root components setting transport).view :=
  fun _ hmem => absurd hmem List.not_mem_nil

/-! ### After the host has unmounted a view -/

theorem listed_create (root : Node) (components : Components) (setting : Setting)
    (transport : Script) : (create root components setting transport).view.shop.pool.Listed :=
  fun _ hmem => absurd hmem List.not_mem_nil

/-- Every job in the background stays registered. -/
theorem Move.listed (h : Move s deed t) (hkeys : KeysGiven s.view)
    (hlisted : s.view.shop.pool.Listed) : t.view.shop.pool.Listed := by
  cases h with
  | spawnMount hcan =>
    have hmounted : s.view.mounted = false := by
      rw [View.canMount, Bool.and_eq_true, Bool.not_eq_true'] at hcan
      exact hcan.1
    rw [View.spawnMount, if_pos hcan]
    exact hlisted.spawn_of_new (hkeys.mount_new hmounted) _
  | fire handler event hlive =>
    rw [View.fire, if_neg (by simp [hlive])]
    exact hlisted.spawn_of_new hkeys.event_new _
  | unmount =>
    intro task hmem
    change task ∈ s.view.shop.pool.cancelAll.tasks at hmem
    rw [hlisted.tasks_cancelAll] at hmem
    exact absurd hmem List.not_mem_nil
  | take =>
    show TaskPool.Listed s.view.shop.take.1.pool
    rw [Schedule.pool_take]
    exact hlisted
  | workBehind hswap => exact hlisted.swap hswap (List.Subset.refl _)
  | complete hswap hdone => exact hlisted.swap hswap (List.nil_subset _)
  | rearrange hswap => exact hlisted.swap hswap (List.Subset.refl _)
  | _ => exact hlisted

theorem Run.listed (h : Run s deeds t) (hkeys : KeysGiven s.view)
    (hlisted : s.view.shop.pool.Listed) : t.view.shop.pool.Listed := by
  induction h with
  | nil => exact hlisted
  | snoc hrun hmove ih => exact hmove.listed (hrun.keysGiven hkeys) ih

theorem keysGiven_unmounted (s : Session) : KeysGiven s.unmounted.view :=
  fun _ hmem => absurd hmem List.not_mem_nil

/-- No job is left in the background of a view that its host has unmounted. -/
theorem tasks_unmounted (h : s.view.shop.pool.Listed) : s.unmounted.tasks = [] :=
  h.tasks_cancelAll

/-- Where nothing is under way in the background of a view that has ended nothing completes. -/
theorem Run.rested (h : Run s deeds t) (hkeys : KeysGiven s.view)
    (hended : s.world.ended = true) (htasks : s.tasks = []) :
    completions deeds = [] ∧ t.tasks = [] ∧ t.outputs <:+ s.outputs := by
  induction h with
  | nil => exact ⟨rfl, htasks, List.suffix_refl _⟩
  | @snoc deeds deed t u hrun hmove ih =>
    obtain ⟨hcompletions, hnone, houtputs⟩ := ih
    rw [completions_concat, hcompletions, List.nil_append]
    -- No job gives way to another, since there is none.
    have hswap : ∀ {removed added}, t.view.shop.pool.Swap u.view.shop.pool removed added →
        removed = [] ∧ u.tasks.Perm added := by
      intro removed added hswap
      obtain ⟨rest, hbefore, hafter⟩ := hswap.tasks
      change t.tasks.Perm _ at hbefore
      rw [hnone] at hbefore
      obtain ⟨rfl, rfl⟩ := List.append_eq_nil_iff.mp hbefore.nil_eq.symm
      exact ⟨rfl, List.append_nil added ▸ hafter⟩
    cases hmove.background (hrun.keysGiven hkeys) with
    | begins key job hdeed hlive =>
      exact absurd (hlive.symm.trans (hrun.stilled hended).ended) Bool.false_ne_true
    | works id job world hbehind hcompletion hworks =>
      exact absurd (hswap hworks).1 (List.cons_ne_nil _ _)
    | ends id job hdeed hdone hends => exact absurd (hswap hends).1 (List.cons_ne_nil _ _)
    | stops hdeed hstops =>
      subst hdeed hstops
      have hsub : t.unmounted.tasks.Sublist t.tasks := t.view.shop.pool.tasks_cancelAll_sublist
      rw [hnone] at hsub
      exact ⟨rfl, List.eq_nil_of_sublist_nil hsub, houtputs⟩
    | keeps hbehind hcompletion hkeeps hsuffix =>
      rw [hcompletion]
      exact ⟨rfl, (hswap hkeeps).2.eq_nil, hsuffix.trans houtputs⟩

/-- **Once its host has unmounted a view** nothing in the background completes, and none of it is
left. -/
theorem Run.rested_of_unmounted (h : Run s.unmounted deeds t)
    (hlisted : s.view.shop.pool.Listed) :
    completions deeds = [] ∧ t.tasks = [] ∧ t.outputs <:+ s.outputs :=
  h.rested (keysGiven_unmounted s) rfl (tasks_unmounted hlisted)

/-! ### Mounting once -/

/-- A view that has been mounted stays so. -/
theorem Move.mounted (h : Move s deed t) (hmounted : s.view.mounted = true) :
    t.view.mounted = true := by
  cases h with
  | mount hcan => rfl
  | spawnMount hcan =>
    rw [View.spawnMount, if_pos hcan]
    rfl
  | fire handler event hlive =>
    rw [View.fire, if_neg (by simp [hlive])]
    exact hmounted
  | _ => exact hmounted

theorem Run.mounted (h : Run s deeds t) (hmounted : s.view.mounted = true) :
    t.view.mounted = true := by
  induction h with
  | nil => exact hmounted
  | snoc _ hmove ih => exact hmove.mounted ih

theorem Mounts.mounted (h : Mounts s t) : t.view.mounted = true := by
  cases h with
  | awaited hcan => rfl
  | behind hcan =>
    rw [View.spawnMount, if_pos hcan]
    rfl

/-- **A view is mounted once**: after a mount, whatever else happens, none starts any more. -/
theorem Mounts.final (h : Mounts s t) {u : Session} (hrun : Run t deeds u) :
    u.view.mount = (u.view, none) ∧ u.view.spawnMount = (u.view, false) := by
  have hcan : u.view.canMount = false := by
    rw [View.canMount, hrun.mounted h.mounted]
    rfl
  rw [View.mount, View.spawnMount, hcan]
  exact ⟨rfl, rfl⟩

/-- The loads of a view that is mounted once run in the background once at most. -/
def MountsOnce (deeds : List Deed) (s : Session) : Prop :=
  (completions deeds).countP Completion.isMounted + s.tasks.countP (Job.isQueue ∘ Prod.snd)
    ≤ if s.view.mounted then 1 else 0

theorem MountsOnce.snoc (h : MountsOnce deeds s) (hmove : Move s deed t)
    (hkeys : KeysGiven s.view) : MountsOnce (deeds ++ [deed]) t := by
  have hflag : (if s.view.mounted then 1 else 0) ≤ (if t.view.mounted then 1 else 0) := by
    cases hmounted : s.view.mounted with
    | false => exact Nat.zero_le _
    | true => exact Nat.le_of_eq (by rw [hmove.mounted hmounted])
  unfold MountsOnce at h ⊢
  rw [completions_concat, List.countP_append]
  cases hmove.background hkeys with
  | begins key job hdeed hlive hfresh hqueue htasks hnext houtputs =>
    subst hdeed
    rw [htasks.countP_eq, List.countP_cons]
    simp only [Deed.completion?, Option.toList_none, List.countP_nil, Function.comp_apply]
    by_cases hjob : job.isQueue = true
    · -- A mount begins in a view that has not been mounted, where nothing counts yet.
      obtain ⟨hbefore, hafter⟩ := hqueue hjob
      rw [hbefore, if_neg Bool.false_ne_true] at h
      rw [hafter, if_pos rfl, if_pos hjob]
      omega
    · rw [if_neg hjob]
      omega
  | works id job world hbehind hcompletion hswap houtputs =>
    have hcount : t.tasks.countP _ + _ = s.tasks.countP _ + _ :=
      hswap.countP_eq (Job.isQueue ∘ Prod.snd)
    rw [hcompletion]
    simp only [List.countP_singleton, Function.comp_apply, Job.isQueue_step, Option.toList_none,
      List.countP_nil] at hcount ⊢
    omega
  | ends id job hdeed hdone hswap houtputs =>
    have hcount : t.tasks.countP _ + _ = s.tasks.countP _ + _ :=
      hswap.countP_eq (Job.isQueue ∘ Prod.snd)
    subst hdeed
    simp only [List.countP_singleton, Function.comp_apply, Deed.completion?, Option.toList_some,
      Job.isMounted_completion, List.countP_nil] at hcount ⊢
    omega
  | stops hdeed hstops =>
    subst hdeed hstops
    simp only [Deed.completion?, Option.toList_none, List.countP_nil]
    have hsub : s.unmounted.tasks.Sublist s.tasks := s.view.shop.pool.tasks_cancelAll_sublist
    have hle : s.unmounted.tasks.countP (Job.isQueue ∘ Prod.snd)
        ≤ s.tasks.countP (Job.isQueue ∘ Prod.snd) := hsub.countP_le
    omega
  | keeps hbehind hcompletion hswap houtputs =>
    have hcount : t.tasks.countP _ + _ = s.tasks.countP _ + _ :=
      hswap.countP_eq (Job.isQueue ∘ Prod.snd)
    rw [hcompletion]
    simp only [Option.toList_none, List.countP_nil] at hcount ⊢
    omega

/-- The loads of a mount complete once at most. -/
theorem Run.mountsOnce (h : Run s deeds t) (hkeys : KeysGiven s.view) (hs : MountsOnce [] s) :
    MountsOnce deeds t := by
  induction h with
  | nil => exact hs
  | snoc hrun hmove ih => exact ih.snoc hmove (hrun.keysGiven hkeys)

end Session

end ViewTree
