import ViewTree.Proofs.Session.Loading
import ViewTree.Proofs.Text.Split

/-!
# Calls stay in flight

While a view lives, a call is in flight from the step that starts it to the step that settles it.
A job could lose its call otherwise only by being stopped, when another job starts in the background
under its key; but the keys in the background are given out once (`KeysGiven`), so that no job is.

So what the flag of a target tells can be read off the calls in flight: it is up only if one of them
is a call of the target (`Run.exists_call`), and it is down once all of them have ended, however
each of them did (`loading_lowered`).
-/

namespace ViewTree

/-! ### Keys -/

namespace TaskPool

variable {β : Type} {pool : TaskPool β} {key : String} {body : β}

/-- Where there is no task under a key none is stopped. -/
theorem cancel_of_new (h : ∀ entry ∈ pool.registered, entry.1 ≠ key) : pool.cancel key = pool := by
  have hnone : pool.registered.lookup key = none := by
    refine List.lookup_eq_none_iff.mpr ?_
    intro entry hmem
    simpa using Ne.symm (h entry hmem)
  rw [cancel, hnone]

theorem registered_cancel_subset : (pool.cancel key).registered ⊆ pool.registered := by
  unfold cancel
  split
  · exact List.Subset.refl _
  · exact List.filter_subset_self _

theorem mem_registered_spawn {entry : String × Nat}
    (h : entry ∈ (pool.spawn key body).registered) :
    entry ∈ pool.registered ∨ entry.1 = key := by
  rcases List.mem_append.mp h with hold | hnew
  · exact .inl (registered_cancel_subset (List.mem_of_mem_filter hold))
  · exact .inr (congrArg Prod.fst (List.mem_singleton.mp hnew))

end TaskPool

/-- The keys in the background have been given out: that of the mount, if the view has been mounted,
and one for each handler that was fired. -/
def KeysGiven (view : View) : Prop :=
  ∀ entry ∈ view.shop.pool.registered,
    entry.1 = "mount" ∧ view.mounted = true ∨
      ∃ n ≤ view.fired, entry.1 = "event-" ++ toString n

namespace KeysGiven

variable {view later : View}

/-- No key is taken back. -/
theorem mono (h : KeysGiven view)
    (hregistered : later.shop.pool.registered = view.shop.pool.registered)
    (hmounted : view.mounted = true → later.mounted = true) (hfired : view.fired = later.fired) :
    KeysGiven later := by
  intro entry hmem
  rw [hregistered] at hmem
  rw [← hfired]
  exact (h entry hmem).imp_left fun hmount => ⟨hmount.1, hmounted hmount.2⟩

theorem eventKey_ne_mount (n : Nat) : "event-" ++ toString n ≠ "mount" := by
  intro h
  have hhead := congrArg (fun s : String => s.toList.head?) h
  rw [String.toList_append] at hhead
  exact absurd hhead (by simp)

/-- Handlers that were fired at different times have different keys. -/
theorem eventKey_injective {m n : Nat} (h : "event-" ++ toString m = "event-" ++ toString n) :
    m = n :=
  Text.toString_injective ((String.append_right_inj _).mp h)

/-- The key of the mount is new as long as the view has not been mounted. -/
theorem mount_new (h : KeysGiven view) (hmounted : view.mounted = false) :
    ∀ entry ∈ view.shop.pool.registered, entry.1 ≠ "mount" := by
  intro entry hmem
  rcases h entry hmem with ⟨-, htrue⟩ | ⟨n, -, hkey⟩
  · exact absurd (hmounted.symm.trans htrue) Bool.false_ne_true
  · rw [hkey]
    exact eventKey_ne_mount n

/-- The key of the next handler is new. -/
theorem event_new (h : KeysGiven view) :
    ∀ entry ∈ view.shop.pool.registered, entry.1 ≠ "event-" ++ toString (view.fired + 1) := by
  intro entry hmem
  rcases h entry hmem with ⟨hkey, -⟩ | ⟨n, hle, hkey⟩
  · rw [hkey]
    exact (eventKey_ne_mount _).symm
  · rw [hkey]
    intro heq
    have hn : n = view.fired + 1 := eventKey_injective heq
    omega

end KeysGiven

namespace Session

variable {s t : Session} {deed : Deed} {deeds : List Deed} {target : String}

/-- A move gives out new keys only. -/
theorem Move.keysGiven (h : Move s deed t) (hkeys : KeysGiven s.view) : KeysGiven t.view := by
  cases h with
  | write path value => exact hkeys.mono rfl id rfl
  | start hfresh => exact hkeys
  | mount hcan => exact hkeys.mono rfl (fun _ => rfl) rfl
  | spawnMount hcan =>
    rw [View.spawnMount, if_pos hcan]
    intro entry hmem
    rcases TaskPool.mem_registered_spawn hmem with hold | hnew
    · exact (hkeys entry hold).imp_left fun hmount => ⟨hmount.1, rfl⟩
    · exact .inl ⟨hnew, rfl⟩
  | fire handler event hlive =>
    rw [View.fire, if_neg (by simp [hlive])]
    intro entry hmem
    rcases TaskPool.mem_registered_spawn hmem with hold | hnew
    · refine (hkeys entry hold).imp_right ?_
      rintro ⟨n, hle, hkey⟩
      exact ⟨n, Nat.le_succ_of_le hle, hkey⟩
    · exact .inr ⟨_, Nat.le_refl _, hnew⟩
  | unmount => exact fun entry hmem => absurd hmem List.not_mem_nil
  | take => exact hkeys.mono (congrArg TaskPool.registered (Schedule.pool_take _)) id rfl
  | wait hle => exact hkeys.mono rfl id rfl
  | answers routes fallback latency => exact hkeys.mono rfl id rfl
  | work hhosted => exact hkeys.mono rfl id rfl
  | leave hhosted hdone => exact hkeys
  | workBehind hswap => exact hkeys.mono hswap.registered id rfl
  | complete hswap hdone => exact hkeys.mono hswap.registered id rfl
  | rearrange hswap => exact hkeys.mono hswap.registered id rfl

/-- A view that lives has lived before. -/
theorem Move.live (h : Move s deed t) (hlive : t.world.ended = false) : s.world.ended = false := by
  rcases h.cases with
    ⟨-, ⟨path, value, -, hworld, -⟩ | ⟨job, -, -, hworld, -⟩ | ⟨-, -, hkept, -⟩⟩
  · rwa [hworld] at hlive
  · rw [hworld, (job.step_spec s.setting s.world).world_eq, World.ended_recordAll,
      Effect.ended_apply, Bool.or_eq_false_iff] at hlive
    exact hlive.1
  · exact Bool.eq_false_iff.mpr fun hended => Bool.eq_false_iff.mp hlive (hkept.ended hended)

/-- **No call is lost.**  While a view lives, the calls in flight change by the steps of jobs
only. -/
theorem Move.calls_perm (h : Move s deed t) (hkeys : KeysGiven s.view)
    (hlive : t.world.ended = false) (heffect : deed.effect? = none) : t.calls.Perm s.calls := by
  cases h with
  | write path value => exact .refl _
  | start hfresh => exact .of_eq (calls_of_fresh s hfresh _ rfl)
  | mount hcan => exact .of_eq (calls_of_fresh s (.queue _ _) _ rfl)
  | spawnMount hcan =>
    have hmounted : s.view.mounted = false := by
      rw [View.canMount, Bool.and_eq_true, Bool.not_eq_true'] at hcan
      exact hcan.1
    rw [View.spawnMount, if_pos hcan, calls_eq, calls_eq]
    refine .append_left _ (.of_eq ((calls_spawn_eq _ _ rfl).trans ?_))
    exact congrArg _ (congrArg _ (TaskPool.cancel_of_new (hkeys.mount_new hmounted)))
  | fire handler event hfire =>
    rw [View.fire, if_neg (by simp [hfire]), calls_eq, calls_eq]
    refine .append_left _ (.of_eq ((calls_spawn_eq _ _ rfl).trans ?_))
    exact congrArg _ (congrArg _ (TaskPool.cancel_of_new hkeys.event_new))
  | unmount => exact absurd hlive (by simp [world, View.world, View.unmount, World.finish])
  | take =>
    rw [calls_eq, calls_eq]
    show (_ ++ s.view.shop.take.1.pool.tasks.filterMap _).Perm _
    rw [Schedule.pool_take]
  | wait hle => exact .refl _
  | answers routes fallback latency => exact .refl _
  | work hhosted => exact absurd heffect (by simp [worked, Deed.effect?])
  | @leave job before after hhosted hdone =>
    have hcalls := calls_of_hosted s.view before job after
    rw [← hhosted, Job.call?_of_isDone hdone] at hcalls
    rw [calls_eq]
    exact hcalls.symm
  | workBehind hswap => exact absurd heffect (by simp [worked, Deed.effect?])
  | @complete job id pool hswap hdone =>
    obtain ⟨rest, hbefore, hafter⟩ :=
      exists_perm_calls_of_swap hswap (s.view.withPool pool) rfl
    rw [calls_task, Job.call?_of_isDone hdone] at hbefore
    exact hafter.trans hbefore.symm
  | @rearrange pool hswap =>
    obtain ⟨rest, hbefore, hafter⟩ :=
      exists_perm_calls_of_swap hswap (s.view.withPool pool) rfl
    exact hafter.trans hbefore.symm

theorem Run.keysGiven (h : Run s deeds t) (hkeys : KeysGiven s.view) : KeysGiven t.view := by
  induction h with
  | nil => exact hkeys
  | snoc _ hmove ih => exact hmove.keysGiven ih

end Session

/-! ### The flag and the calls in flight -/

namespace Effect

variable {effect : Effect} {call : Call} {target : String}

/-- A call of a target starts: its request goes out, or it is refused for want of one. -/
def Begins (target : String) : Effect → Prop
  | started call _ => call.target = target
  | refused key _ => key = target
  | _ => False

instance (target : String) : DecidablePred (Begins target)
  | started _ _ | refused _ _ => inferInstanceAs (Decidable (_ = _))
  | idle | wrote _ _ | visited _ | settled _ | dropped _ => inferInstanceAs (Decidable False)

/-- A call that starts does something about the flag. -/
theorem isSome_flag?_of_begins (h : effect.Begins target) :
    (effect.flag? target).isSome = true := by
  cases effect with
  | started call request =>
    have htarget : call.target = target := h
    rw [flag?, if_pos htarget]
    rfl
  | refused key message =>
    have htarget : key = target := h
    rw [flag?, if_pos htarget]
    rfl
  | idle | wrote path value | visited place | settled call | dropped call => exact h.elim

/-- Only a call that goes on after its start leaves its flag up. -/
theorem exists_opens_of_flag? (h : effect.flag? target = some true) :
    ∃ call, effect.opens? = some call ∧ call.target = target := by
  cases effect with
  | started call request =>
    refine ⟨call, rfl, ?_⟩
    by_contra hne
    rw [flag?, if_neg hne] at h
    exact absurd h (by simp)
  | settled call => exact absurd h (by rw [flag?]; split <;> simp)
  | refused key message => exact absurd h (by rw [flag?]; split <;> simp)
  | idle | wrote path value | visited place | dropped call => exact absurd h (by simp [flag?])

/-- While a view lives, the end of a call lowers its flag. -/
theorem flag?_of_closes {world : World} (h : effect.closes? = some call) (hfits : effect.Fits world)
    (hlive : world.ended = false) : effect.flag? call.target = some false := by
  cases effect with
  | settled other =>
    obtain rfl := Option.some.inj h
    exact if_pos rfl
  | dropped other => exact absurd (hlive.symm.trans hfits) Bool.false_ne_true
  | idle | wrote path value | visited place | refused key message | started other request =>
    exact absurd h (by simp [closes?])

end Effect

theorem isSome_lastFlag_of_begins {effects : List Effect} {target : String}
    (h : ∃ effect ∈ effects, effect.Begins target) : (lastFlag target effects).isSome = true := by
  obtain ⟨effect, hmem, hbegins⟩ := h
  exact List.findSome?_isSome_iff.mpr
    ⟨effect, List.mem_reverse.mpr hmem, Effect.isSome_flag?_of_begins hbegins⟩

namespace Session

variable {s t : Session} {deeds : List Deed} {target : String}

/-- **A raised flag stands for a call in flight**: when the last call of a target to start or end
has started, and the view lives, some call of the target is in flight. -/
theorem Run.exists_call (h : Run s deeds t) (hkeys : KeysGiven s.view)
    (hlive : t.world.ended = false)
    (hraised : lastFlag target (deeds.filterMap Deed.effect?) = some true) :
    ∃ call ∈ t.calls, call.target = target := by
  induction h with
  | nil => exact absurd hraised (by simp [lastFlag])
  | @snoc deeds deed t u hrun hmove ih =>
    have hlive' := hmove.live hlive
    have ih := ih hlive'
    rw [filterMap_concat] at hraised
    rcases hmove.cases with
      ⟨-, ⟨path, value, rfl, -, hcalls⟩ | ⟨job, -, rfl, -, rest, hbefore, hafter⟩ |
      ⟨-, heffect, -, -⟩⟩
    · rw [hcalls]
      exact ih (List.append_nil (deeds.filterMap Deed.effect?) ▸ hraised)
    · have hspec := job.step_spec t.setting t.world
      change lastFlag target (_ ++ [job.effect t.setting t.world]) = some true at hraised
      rw [lastFlag_concat] at hraised
      cases hflag : (job.effect t.setting t.world).flag? target with
      | some raised =>
        -- The step has started the call itself.
        rw [hflag, Option.some_or] at hraised
        rw [hraised] at hflag
        obtain ⟨call, hopens, htarget⟩ := Effect.exists_opens_of_flag? hflag
        rw [← hspec.opens, hopens] at hafter
        exact ⟨call, hafter.mem_iff.mpr (by simp), htarget⟩
      | none =>
        -- The call was in flight before, and the step has not ended it.
        rw [hflag, Option.none_or] at hraised
        obtain ⟨call, hcall, htarget⟩ := ih hraised
        refine ⟨call, ?_, htarget⟩
        rcases List.mem_append.mp (hbefore.mem_iff.mp hcall) with hclosed | hrest
        · rw [← hspec.closes, Option.mem_toList] at hclosed
          have hlowered := Effect.flag?_of_closes hclosed hspec.fits hlive'
          rw [htarget, hflag] at hlowered
          exact absurd hlowered (by simp)
        · exact hafter.mem_iff.mpr (List.mem_append_right _ hrest)
    · rw [heffect, Option.toList_none, List.append_nil] at hraised
      obtain ⟨call, hcall, htarget⟩ := ih hraised
      have hperm := hmove.calls_perm (hrun.keysGiven hkeys) hlive heffect
      exact ⟨call, hperm.mem_iff.mpr hcall, htarget⟩

/-- **No flag stays up.**  In a view that has not ended, whatever host, jobs and replies have done
in whatever order: once calls of a target have started and none of them is in flight any more, the
flag of the target is down, whether they brought a payload, failed or could not be made, as long as
nothing but calls of the target has written where the flag is. -/
theorem loading_lowered {root : Node} {components : Components} {setting : Setting}
    {transport : Script} {s : Session} {deeds : List Deed} {target : String}
    (h : Run (create root components setting transport) deeds s) (hlive : s.world.ended = false)
    (hbegun : ∃ effect ∈ deeds.filterMap Deed.effect?, effect.Begins target)
    (hended : ∀ call ∈ s.calls, call.target ≠ target)
    (hleaves : ∀ deed ∈ deeds, deed.Leaves target) :
    s.world.store.get? (loadingKey target) = some (.bool false) := by
  have hempty := shows_create root components setting transport target
  have hkeys : KeysGiven (create root components setting transport).view :=
    fun entry hmem => absurd hmem List.not_mem_nil
  obtain ⟨raised, hlast⟩ := Option.isSome_iff_exists.mp (isSome_lastFlag_of_begins hbegun)
  cases raised with
  | true =>
    obtain ⟨call, hcall, htarget⟩ := h.exists_call hkeys hlive hlast
    exact absurd htarget (hended call hcall)
  | false => exact (h.shows hempty hleaves).value false hlast

/-- Two calls of one target overlap: while the request of the first is out the second cannot be
made, and lowers the flag at once; then the payload of the first comes. -/
theorem loading_lowered_overlap :
    let setting : Setting := ⟨{}, ⟨[]⟩⟩
    let start := create (.ofKind "div") .empty setting { fallback := .ok (.text "Ann") }
    ∃ deeds s, Run start deeds s ∧ s.world.ended = false ∧
      (∃ effect ∈ deeds.filterMap Deed.effect?, effect.Begins "users") ∧
      (∀ call ∈ s.calls, call.target ≠ "users") ∧ (∀ deed ∈ deeds, deed.Leaves "users") ∧
      s.world.store.get? (loadingKey "users") = some (.bool false) := by
  intro setting start
  let refused : Action :=
    { kind := .api, target := some "users", params := some (.text "/users") }
  have hone : (Job.chain (.start (.api "users" (.get "/users")) none)).Fresh := .chain _ _
  have htwo : (Job.chain (.start refused none)).Fresh := .chain _ _
  have hrun := exists_run_overlap start.view hone htwo
  refine ⟨_, _, hrun, by decide +kernel, by decide +kernel, by decide +kernel,
    by decide +kernel, ?_⟩
  exact loading_lowered hrun (by decide +kernel) (by decide +kernel) (by decide +kernel)
    (by decide +kernel)

end Session

end ViewTree
