import ViewTree.Proofs.Session.Quiescence

/-!
# The loading flag of a target

Each call of a target raises its flag as it starts and lowers it as it ends; nobody counts the calls
in flight.  So the flag tells what the last of these events was (`Run.shows`), as long as nothing
but calls of the target writes where the flag is.  While calls of one target overlap, the first one
to end lowers the flag for all of them (`loading_lowered_in_flight`).
-/

namespace ViewTree

open ViewTree.Path

/-! ### What leaves a flag to the calls -/

/-- What is written beside the flag of a key is apart from the flag of a target, when the key is the
target or the path is apart from the flag anyway. -/
theorem not_comparable_of_beside {target key path : String}
    (h : key = target ∨ ¬ Comparable path (loadingKey target)) (hb : Beside path (loadingKey key)) :
    ¬ Comparable path (loadingKey target) := by
  rcases h with rfl | hpath
  · exact hb.not_comparable
  · exact hpath

namespace Effect

/-- The key of the call that an effect is one of. -/
def key? : Effect → Option String
  | refused key _ => some key
  | started call _ => some call.target
  | settled call => some call.target
  | _ => none

/-- The paths that an effect writes. -/
def written : Effect → List String
  | wrote path _ => [path]
  | refused key _ => [loadingKey key, errorKey key]
  | started call _ => [loadingKey call.target, errorKey call.target]
  | settled call =>
    match call.reply with
    | .ok _ => [call.target, loadingKey call.target]
    | .error _ => [errorKey call.target, loadingKey call.target]
  | _ => []

/-- An effect leaves the flag of a target to the calls of the target: it is one of them, or all that
it writes is apart from the flag. -/
def Leaves (target : String) (effect : Effect) : Prop :=
  effect.key? = some target ∨ ∀ path ∈ effect.written, ¬ Comparable path (loadingKey target)

/-- What an effect makes of the flag of a target, if it is one of a call of the target. -/
def flag? (target : String) : Effect → Option Bool
  | started call _ => if call.target = target then some true else none
  | settled call => if call.target = target then some false else none
  | refused key _ => if key = target then some false else none
  | _ => none

theorem flag?_of_opens {effect : Effect} {call : Call} (h : effect.opens? = some call) :
    effect.flag? call.target = some true := by
  cases effect with
  | started other request =>
    obtain rfl := Option.some.inj h
    exact if_pos rfl
  | _ => exact absurd h (by simp [opens?])

end Effect

/-- A deed leaves the flag of a target to the calls of the target. -/
def Deed.Leaves (target : String) : Deed → Prop
  | .wrote path _ => ¬ Comparable path (loadingKey target)
  | .worked effect _ => effect.Leaves target
  | _ => True

/-! Whether the flag is left to the calls can be computed. -/

instance (target : String) (effect : Effect) : Decidable (effect.Leaves target) :=
  inferInstanceAs (Decidable (_ ∨ _))

instance (target : String) : (deed : Deed) → Decidable (deed.Leaves target)
  | .wrote _ _ => inferInstanceAs (Decidable (¬ _))
  | .worked effect _ => inferInstanceAs (Decidable (effect.Leaves target))
  | .began _ _ | .completed _ | .quiet => inferInstanceAs (Decidable True)

/-- What the last call of a target to start or end made of its flag. -/
def lastFlag (target : String) (effects : List Effect) : Option Bool :=
  effects.reverse.findSome? (Effect.flag? target)

theorem lastFlag_concat (target : String) (effects : List Effect) (effect : Effect) :
    lastFlag target (effects ++ [effect]) = (effect.flag? target).or (lastFlag target effects) := by
  unfold lastFlag
  rw [List.reverse_append, List.reverse_singleton, List.singleton_append, List.findSome?_cons]
  cases effect.flag? target <;> rfl

/-! ### What the state shows -/

/-- The state shows the flag of a target as a call has left it. -/
structure Shows (store : Store) (target : String) (flag : Option Bool) : Prop where
  distinct : store.DistinctAlong (loadingKey target)
  objects : ∀ raised, flag = some raised → store.ObjectsAlong (loadingKey target)
  value : ∀ raised, flag = some raised →
    store.get? (loadingKey target) = some (.bool raised)

namespace Shows

variable {store : Store} {target path key : String} {flag : Option Bool}

theorem set_apart (h : Shows store target flag) (hap : ¬ Comparable path (loadingKey target))
    (value : Json) : Shows (store.set path value) target flag := by
  have hdistinct : (store.set path value).DistinctAlong (loadingKey target) :=
    Store.distinctAlong_set_of_apart hap h.distinct
  refine ⟨hdistinct, ?_, ?_⟩
  · intro raised hflag
    exact Store.objectsAlong_set_of_apart hap h.distinct (h.objects raised hflag)
  · intro raised hflag
    rw [Store.get?_set_of_objects hap (h.objects raised hflag) h.distinct]
    exact h.value raised hflag

theorem remove_apart (h : Shows store target flag) (hap : ¬ Comparable path (loadingKey target)) :
    Shows (store.remove path).2 target flag :=
  h.set_apart hap .null

theorem set_flag (h : Shows store target flag) (raised : Bool) :
    Shows (store.set (loadingKey target) (.bool raised)) target (some raised) := by
  refine ⟨Store.distinctAlong_set (fun _ => rfl) h.distinct, ?_, ?_⟩
  · intro other _
    exact Store.objectsAlong_set_self (by simp)
  · intro other hflag
    rw [← Option.some.inj hflag]
    exact Store.get?_set_self (by simp)

/-- A write to the flag of a key, which is the target or whose flag is apart. -/
theorem set_flag_of_key (h : Shows store target flag)
    (hkey : key = target ∨ ¬ Comparable (loadingKey key) (loadingKey target)) (raised : Bool) :
    Shows (store.set (loadingKey key) (.bool raised)) target
      ((if key = target then some raised else none).or flag) := by
  by_cases heq : key = target
  · subst heq
    rw [if_pos rfl]
    exact h.set_flag raised
  · rw [if_neg heq]
    exact h.set_apart (hkey.resolve_left heq) _

variable {setting : Setting} {world : World}

theorem markLoading (h : Shows world.store target flag)
    (hflag : key = target ∨ ¬ Comparable (loadingKey key) (loadingKey target))
    (herror : key = target ∨ ¬ Comparable (errorKey key) (loadingKey target)) :
    Shows (world.markLoading key).store target
      ((if key = target then some true else none).or flag) := by
  have hbeside := (beside_loadingKey_errorKey key).symm
  exact (h.set_flag_of_key hflag true).remove_apart (not_comparable_of_beside herror hbeside)

theorem settleFailure (h : Shows world.store target flag)
    (hflag : key = target ∨ ¬ Comparable (loadingKey key) (loadingKey target))
    (herror : key = target ∨ ¬ Comparable (errorKey key) (loadingKey target)) (message : String) :
    Shows (world.settleFailure key message).store target
      ((if key = target then some false else none).or flag) := by
  have hbeside := (beside_loadingKey_errorKey key).symm
  exact (h.set_apart (not_comparable_of_beside herror hbeside) _).set_flag_of_key hflag false

theorem settleSuccess (h : Shows world.store target flag)
    (hflag : key = target ∨ ¬ Comparable (loadingKey key) (loadingKey target))
    (hkey : key = target ∨ ¬ Comparable key (loadingKey target)) (payload : Json) :
    Shows (world.settleSuccess key payload).store target
      ((if key = target then some false else none).or flag) := by
  have hbeside := beside_loadingKey key
  exact (h.set_apart (not_comparable_of_beside hkey hbeside) _).set_flag_of_key hflag false

/-- An effect that leaves the flag of a target to its calls leaves it as these do. -/
theorem apply {effect : Effect} (h : Shows world.store target flag)
    (hleaves : effect.Leaves target) (hfits : effect.Fits world) :
    Shows (effect.apply setting world).store target ((effect.flag? target).or flag) := by
  -- What an effect of a call writes is apart from the flag, unless the call is one of the target.
  have hapart : ∀ key path, effect.key? = some key → path ∈ effect.written →
      key = target ∨ ¬ Comparable path (loadingKey target) := by
    intro key path hkey hpath
    refine hleaves.imp (fun htarget => ?_) (fun hall => hall path hpath)
    exact Option.some.inj (hkey.symm.trans htarget)
  cases effect with
  | idle => exact h
  | wrote path value =>
    have hpath : ¬ Comparable path (loadingKey target) :=
      hleaves.resolve_left (by simp [Effect.key?]) path List.mem_cons_self
    exact h.set_apart hpath value
  | visited place => exact h
  | refused key message =>
    -- The call raises its flag and lowers it again in one step.
    have hflag := hapart key (loadingKey key) rfl (by simp [Effect.written])
    have herror := hapart key (errorKey key) rfl (by simp [Effect.written])
    have hmarked := (h.markLoading hflag herror).settleFailure hflag herror message
    show Shows ((world.markLoading key).settleFailure key message).store target
      ((if key = target then some false else none).or flag)
    by_cases hkey : key = target
    · simpa [hkey] using hmarked
    · simpa [hkey] using hmarked
  | started call request =>
    have hflag := hapart call.target (loadingKey call.target) rfl (by simp [Effect.written])
    have herror := hapart call.target (errorKey call.target) rfl (by simp [Effect.written])
    exact h.markLoading hflag herror
  | settled call =>
    show Shows (world.settleCall setting call).1.store target _
    cases hreply : call.reply with
    | ok payload =>
      have hflag := hapart call.target (loadingKey call.target) rfl
        (by simp [Effect.written, hreply])
      have hkey := hapart call.target call.target rfl (by simp [Effect.written, hreply])
      rw [World.settleCall_of_ok hfits hreply]
      exact h.settleSuccess hflag hkey _
    | error error =>
      have hflag := hapart call.target (loadingKey call.target) rfl
        (by simp [Effect.written, hreply])
      have herror := hapart call.target (errorKey call.target) rfl
        (by simp [Effect.written, hreply])
      rw [World.settleCall_of_error hfits hreply]
      exact h.settleFailure hflag herror _
  | dropped call => exact h

end Shows

/-! ### What a run shows -/

namespace Session

variable {s t : Session} {deeds : List Deed} {target : String}

theorem shows_create (root : Node) (components : Components) (setting : Setting)
    (transport : Script) (target : String) :
    Shows (create root components setting transport).world.store target none :=
  ⟨Store.distinctAlong_empty _, fun _ hflag => absurd hflag (by simp),
    fun _ hflag => absurd hflag (by simp)⟩

/-- The state shows what the last call of a target to start or end made of its flag. -/
theorem Run.shows (h : Run s deeds t) (hstart : Shows s.world.store target none)
    (hleaves : ∀ deed ∈ deeds, deed.Leaves target) :
    Shows t.world.store target (lastFlag target (deeds.filterMap Deed.effect?)) := by
  induction h with
  | nil => exact hstart
  | @snoc deeds deed t u hrun hmove ih =>
    have ih := ih fun other hmem => hleaves other (List.mem_append_left _ hmem)
    have hdeed : deed.Leaves target := hleaves deed (by simp)
    rw [filterMap_concat]
    rcases hmove.cases with
      ⟨-, ⟨path, value, rfl, hworld, -⟩ | ⟨job, -, rfl, hworld, -⟩ |
      ⟨-, heffect, hkept, -⟩⟩
    · rw [hworld]
      exact (List.append_nil _).symm ▸ ih.set_apart hdeed value
    · have hspec := job.step_spec t.setting t.world
      rw [hworld, hspec.world_eq, World.store_recordAll]
      show Shows _ target (lastFlag target (_ ++ [job.effect t.setting t.world]))
      rw [lastFlag_concat]
      exact ih.apply hdeed hspec.fits
    · rw [heffect, hkept.store]
      exact (List.append_nil _).symm ▸ ih

/-- A call in flight has started. -/
theorem Run.isSome_lastFlag (h : Run s deeds t) (hstart : s.calls = []) {call : Call}
    (hcall : call ∈ t.calls) :
    (lastFlag call.target (deeds.filterMap Deed.effect?)).isSome = true := by
  induction h with
  | nil => exact absurd (hstart ▸ hcall) List.not_mem_nil
  | @snoc deeds deed t u hrun hmove ih =>
    rw [filterMap_concat]
    rcases hmove.cases with
      ⟨-, ⟨path, value, rfl, -, hcalls⟩ | ⟨job, -, rfl, -, rest, hbefore, hafter⟩ |
      ⟨-, heffect, -, hcalls⟩⟩
    · exact (List.append_nil _).symm ▸ ih (hcalls ▸ hcall)
    · have hspec := job.step_spec t.setting t.world
      show (lastFlag _ (_ ++ [job.effect t.setting t.world])).isSome = true
      rw [lastFlag_concat]
      -- Either this step has started the call, or it was in flight before.
      rcases List.mem_append.mp (hafter.mem_iff.mp hcall) with hnew | hold
      · rw [← hspec.opens] at hnew
        rw [Effect.flag?_of_opens (Option.mem_toList.mp hnew)]
        rfl
      · have hstarted := ih (hbefore.mem_iff.mpr (List.mem_append_right _ hold))
        rw [Option.isSome_or, hstarted, Bool.or_true]
    · rw [heffect]
      exact (List.append_nil _).symm ▸ ih (hcalls.subset hcall)

/-- **The flag of a target with a call in flight**, when nothing but its calls has written where
the flag is: it is up when the last of these events was that a call of the target started, and it is
down when one has ended since.  This holds in every order in which hosts, jobs and replies take
turns. -/
theorem loading_in_flight {root : Node} {components : Components} {setting : Setting}
    {transport : Script} {s : Session} {deeds : List Deed} {call : Call}
    (h : Run (create root components setting transport) deeds s) (hcall : call ∈ s.calls)
    (hleaves : ∀ deed ∈ deeds, deed.Leaves call.target) :
    ∃ raised, lastFlag call.target (deeds.filterMap Deed.effect?) = some raised ∧
      s.world.store.get? (loadingKey call.target) = some (.bool raised) := by
  have hempty := shows_create root components setting transport call.target
  obtain ⟨raised, hraised⟩ := Option.isSome_iff_exists.mp (h.isSome_lastFlag rfl hcall)
  exact ⟨raised, hraised, (h.shows hempty hleaves).value raised hraised⟩

/-- A job that the host starts takes its first step. -/
theorem run_first (view : View) {job : Job} (hfresh : job.Fresh) :
    let first := job.step view.setting view.world
    Run ⟨view, []⟩
      [.began none job,
        .worked (job.effect view.setting view.world) (job.news view.setting view.world)]
      ⟨view.inWorld first.1, [first.2]⟩ :=
  (Run.nil.snoc (.start hfresh)).snoc (.workAmong view [] job [])

/-- Two jobs overlap: the second one takes its first step before the second step of the first. -/
theorem exists_run_overlap (view : View) {one two : Job} (hone : one.Fresh) (htwo : two.Fresh) :
    let first := one.step view.setting view.world
    let second := two.step view.setting first.1
    let third := first.2.step view.setting second.1
    Run ⟨view, []⟩
      [.began none one,
        .worked (one.effect view.setting view.world) (one.news view.setting view.world),
        .began none two,
        .worked (two.effect view.setting first.1) (two.news view.setting first.1),
        .worked (first.2.effect view.setting second.1) (first.2.news view.setting second.1)]
      ⟨view.inWorld third.1, [third.2, second.2]⟩ := by
  intro first second third
  have h := ((run_first view hone).snoc (.start htwo)).snoc (.workAmong _ [first.2] two [])
  exact h.snoc (.workAmong _ [] first.2 [second.2])

/-- **The flag does not count the calls in flight.**  A call that ends while another one of its
target is in flight lowers the flag, though nothing else has written where the flag is. -/
theorem loading_lowered_in_flight :
    let setting : Setting := ⟨{}, ⟨[]⟩⟩
    let start := create (.ofKind "div") .empty setting {}
    ∃ deeds s, Run start deeds s ∧ s.world.ended = false ∧
      (∀ deed ∈ deeds, deed.Leaves "users") ∧ (∃ call ∈ s.calls, call.target = "users") ∧
      s.world.store.get? (loadingKey "users") = some (.bool false) := by
  intro setting start
  -- Two dispatches of one call, the second of which starts before the first one settles.
  have hfresh : (Job.chain (.start (.api "users" (.get "/users")) none)).Fresh := .chain _ _
  have hrun := exists_run_overlap start.view hfresh hfresh
  refine ⟨_, _, hrun, by decide +kernel, by decide +kernel, by decide +kernel, ?_⟩
  have hshows := hrun.shows (shows_create _ _ _ _ "users") (by decide +kernel)
  exact hshows.value false (by decide +kernel)

/-- A call that has just started. -/
theorem loading_in_flight_first :
    let setting : Setting := ⟨{}, ⟨[]⟩⟩
    let start := create (.ofKind "div") .empty setting {}
    ∃ deeds s call, Run start deeds s ∧ call ∈ s.calls ∧
      (∀ deed ∈ deeds, deed.Leaves call.target) ∧ call.target = "users" ∧
      s.world.store.get? (loadingKey call.target) = some (.bool true) := by
  intro setting start
  let job : Job := .chain (.start (.api "users" (.get "/users")) none)
  let first := job.step setting start.world
  let s : Session := ⟨start.view.inWorld first.1, [first.2]⟩
  let deeds : List Deed := [.began none job,
    .worked (job.effect setting start.world) (job.news setting start.world)]
  have hrun : Run start deeds s := run_first start.view (.chain _ _)
  obtain ⟨call, hcall, htarget⟩ : ∃ call ∈ s.calls, call.target = "users" := by decide +kernel
  have hleaves : ∀ deed ∈ deeds, deed.Leaves call.target := by
    rw [htarget]
    decide +kernel
  obtain ⟨raised, hlast, hvalue⟩ := loading_in_flight hrun hcall hleaves
  have htrue : lastFlag "users" (deeds.filterMap Deed.effect?) = some true := by decide +kernel
  rw [← htarget, hlast] at htrue
  rw [Option.some.inj htrue] at hvalue
  exact ⟨deeds, s, call, hrun, hcall, hleaves, htarget, hvalue⟩

end Session

end ViewTree
