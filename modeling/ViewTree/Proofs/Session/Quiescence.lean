import ViewTree.Proofs.Session.Basic

/-!
# After the end of a view

A view ends when it navigates or is unmounted.  From then on its jobs do nothing: `Stilled` is what
a run leaves as it was, and `Run.stilled` that every run from a view that has ended leaves it so.
A view that has not ended has not navigated, so that it navigates once at most.
-/

namespace ViewTree

namespace Session

variable {s t : Session} {deeds : List Deed}

/-- What a run leaves as it was in a view that has ended, the writes of the host apart. -/
structure Stilled (s : Session) (deeds : List Deed) (t : Session) : Prop where
  ended : t.world.ended = true
  store : t.world.store = s.world.store.setAll (deeds.filterMap Deed.write?)
  requests : t.world.transport.requests = s.world.transport.requests
  visits : t.world.visits = s.world.visits
  /-- No call starts. -/
  calls : t.calls.Subperm s.calls
  /-- A step at most drops a call that was in flight. -/
  dropped : ∀ effect ∈ deeds.filterMap Deed.effect?,
    effect = .idle ∨ ∃ call ∈ s.calls, effect = .dropped call
  /-- Every link that is settled is skipped. -/
  skipped : ∀ effect links, .worked effect links ∈ deeds → ∀ link ∈ links, link.status = .skipped

/-- A step of a job in a view that has ended. -/
theorem Stilled.worked {job : Job} {u : Session} (h : Stilled s deeds t)
    (hworld : u.world = (job.step t.setting t.world).1)
    (hcalls : ∃ rest, t.calls.Perm (job.call?.toList ++ rest) ∧
      u.calls.Perm ((job.step t.setting t.world).2.call?.toList ++ rest)) :
    Stilled s (deeds ++ [t.worked job]) u := by
  have hspec := job.step_spec t.setting t.world
  obtain ⟨hstep, hskipped⟩ := job.step_of_ended t.setting h.ended
  obtain ⟨rest, hbefore, hafter⟩ := hcalls
  rw [hstep] at hworld
  -- A call that is dropped now was in flight all along, since none has started meanwhile.
  have heffect : job.effect t.setting t.world = .idle ∨
      ∃ call ∈ s.calls, job.effect t.setting t.world = .dropped call := by
    rcases job.effect_of_ended t.setting h.ended with hidle | ⟨call, hdropped⟩
    · exact .inl hidle
    · have hcall : job.call? = some call := hspec.closes.symm.trans (congrArg _ hdropped)
      have hflight : call ∈ t.calls := hbefore.mem_iff.mpr (by simp [hcall])
      exact .inr ⟨call, h.calls.subset hflight, hdropped⟩
  have hnone : (job.step t.setting t.world).2.call? = none := by
    rw [← hspec.opens]
    rcases heffect with hidle | ⟨call, -, hdropped⟩
    · rw [hidle]; rfl
    · rw [hdropped]; rfl
  refine ⟨?_, ?_, ?_, ?_, ?_, ?_, ?_⟩
  · rw [hworld]
    exact World.ended_recordAll.trans h.ended
  · rw [hworld, List.filterMap_append]
    exact World.store_recordAll.trans
      (h.store.trans (congrArg s.world.store.setAll (List.append_nil _).symm))
  · rw [hworld]
    exact (congrArg Script.requests World.transport_recordAll).trans h.requests
  · rw [hworld]
    exact World.visits_recordAll.trans h.visits
  · rw [hnone] at hafter
    have hrest : rest.Subperm t.calls :=
      (List.sublist_append_right _ _).subperm.trans hbefore.symm.subperm
    exact (hafter.subperm.trans hrest).trans h.calls
  · intro effect hmem
    rw [List.filterMap_append] at hmem
    rcases List.mem_append.mp hmem with hmem | hmem
    · exact h.dropped effect hmem
    · obtain rfl : effect = job.effect t.setting t.world := by
        simpa [Session.worked, Deed.effect?] using hmem
      exact heffect
  · intro effect links hmem
    rcases List.mem_append.mp hmem with hmem | hmem
    · exact h.skipped effect links hmem
    · obtain ⟨rfl, rfl⟩ : effect = _ ∧ links = _ := by
        simpa [Session.worked] using hmem
      exact hskipped

/-- A move in a view that has ended other than a step of a job. -/
theorem Stilled.snoc {deed : Deed} {u : Session} (h : Stilled s deeds t)
    (heffect : deed.effect? = none) (hended : u.world.ended = true)
    (hstore : u.world.store = t.world.store.setAll deed.write?.toList)
    (hrequests : u.world.transport.requests = t.world.transport.requests)
    (hvisits : u.world.visits = t.world.visits) (hcalls : u.calls.Subperm t.calls) :
    Stilled s (deeds ++ [deed]) u := by
  refine ⟨hended, ?_, hrequests.trans h.requests, hvisits.trans h.visits, hcalls.trans h.calls,
    ?_, ?_⟩
  · rw [hstore, h.store, filterMap_concat, Store.setAll_append]
  · rw [List.filterMap_append]
    simpa [heffect] using h.dropped
  · intro effect links hmem
    rcases List.mem_append.mp hmem with hmem | hmem
    · exact h.skipped effect links hmem
    · rw [← List.mem_singleton.mp hmem] at heffect
      exact absurd heffect (by simp [Deed.effect?])

/-- Once a view has ended, its jobs do nothing any more. -/
theorem Run.stilled (h : Run s deeds t) (hended : s.world.ended = true) : Stilled s deeds t := by
  induction h with
  | nil => exact ⟨hended, rfl, rfl, rfl, .refl _, by simp, by simp⟩
  | @snoc deeds deed t u hrun hmove ih =>
    rcases hmove.cases with
      ⟨-, ⟨path, value, rfl, hworld, hcalls⟩ | ⟨job, -, rfl, hworld, hcalls⟩ |
      ⟨hwrite, heffect, hkept, hcalls⟩⟩
    · have hended : u.world.ended = true := by
        rw [hworld]
        exact ih.ended
      refine ih.snoc rfl hended ?_ ?_ ?_ (List.Perm.of_eq hcalls).subperm
      · rw [hworld]
        rfl
      · rw [hworld]
        rfl
      · rw [hworld]
        rfl
    · exact ih.worked hworld hcalls
    · have hstore : u.world.store = t.world.store.setAll deed.write?.toList := by
        rw [hwrite]
        exact hkept.store
      exact ih.snoc heffect (hkept.ended ih.ended) hstore hkept.requests hkept.visits hcalls

/-! ### One place at most -/

/-- A view goes to a place as it ends, or never. -/
def VisitsOnce (world : World) : Prop :=
  world.visits.length ≤ 1 ∧ (world.ended = false → world.visits = [])

theorem VisitsOnce.step {setting : Setting} {world : World} (h : VisitsOnce world) (job : Job) :
    VisitsOnce (job.step setting world).1 := by
  have hspec := job.step_spec setting world
  rw [hspec.world_eq]
  unfold VisitsOnce
  rw [World.visits_recordAll, World.ended_recordAll, Effect.visits_apply, Effect.ended_apply]
  cases heffect : job.effect setting world with
  | visited place =>
    -- The view goes to a place before it has ended, so that this is the first one.
    have hlive : world.ended = false := by
      have hfits := hspec.fits
      rw [heffect] at hfits
      exact hfits
    rw [h.2 hlive]
    exact ⟨Nat.le_refl _, fun hend => absurd hend (by simp [Effect.visit?])⟩
  | _ =>
    simp only [Effect.visit?, Option.toList_none, List.append_nil, Option.isSome_none,
      Bool.or_false]
    exact h

theorem Run.visitsOnce (h : Run s deeds t) (hs : VisitsOnce s.world) : VisitsOnce t.world := by
  induction h with
  | nil => exact hs
  | @snoc deeds deed t u hrun hmove ih =>
    rcases hmove.cases with
      ⟨-, ⟨path, value, -, hworld, -⟩ | ⟨job, -, -, hworld, -⟩ | ⟨-, -, hkept, -⟩⟩
    · rw [hworld]
      exact ih
    · rw [hworld]
      exact ih.step job
    · unfold VisitsOnce
      rw [hkept.visits]
      refine ⟨ih.1, ?_⟩
      intro hlive
      have hbefore : t.world.ended = false :=
        Bool.eq_false_iff.mpr fun hended => Bool.eq_false_iff.mp hlive (hkept.ended hended)
      exact ih.2 hbefore

/-- **After the end of a view nothing happens any more.**  Whatever host, jobs, remote and clock
have done to a view before, it has gone to one place at most.  Once it has ended it stays so; its
jobs do not write to its state, send no request and go to no place; of the calls in flight none is
added, and a step of a job only drops its call and skips its links, whatever reply has come and
whatever would have followed.  The host can neither mount the view nor fire a handler. -/
theorem quiescence {root : Node} {components : Components} {setting : Setting} {transport : Script}
    {s : Session} {deeds : List Deed} (h : Run (create root components setting transport) deeds s) :
    s.world.visits.length ≤ 1 ∧
      (s.world.ended = true → ∀ later t, Run s later t → Stilled s later t ∧
        (∀ job ∈ t.jobs, job.waitsUntil t.world = none ∧
          job.step t.setting t.world
            = (t.world.recordAll (job.news t.setting t.world), job.skip)) ∧
        t.view.canMount = false ∧ ∀ handler event, t.view.fire handler event = t.view) := by
  have honce : VisitsOnce s.world := h.visitsOnce ⟨Nat.zero_le _, fun _ => rfl⟩
  refine ⟨honce.1, ?_⟩
  intro hended later t hrun
  have hstilled := hrun.stilled hended
  have hview : t.view.isEnded = true := hstilled.ended
  refine ⟨hstilled, ?_, ?_, ?_⟩
  · intro job _
    exact ⟨Job.waitsUntil_of_ended hstilled.ended, (job.step_of_ended _ hstilled.ended).1⟩
  · rw [View.canMount, hview]
    exact Bool.and_false _
  · intro handler event
    rw [View.fire, if_pos hview]

/-- A view that is unmounted while a call is in flight, whose reply has come by then. -/
theorem quiescence_unmount :
    let setting : Setting := ⟨{}, ⟨[]⟩⟩
    let start := create (.ofKind "div") .empty setting { fallback := .ok (.text "late") }
    ∃ deeds s later t, Run start deeds s ∧ s.world.ended = true ∧ s.calls.length = 1 ∧
      Run s later t ∧ later.length = 1 ∧ Stilled s later t := by
  intro setting start
  let job : Job := .chain (.start (.api "users" (.get "/users")) none)
  let called := job.step setting start.world
  let s : Session := { view := (start.view.inWorld called.1).unmount, hosted := [called.2] }
  let dropped := called.2.step setting s.world
  let t : Session := { view := s.view.inWorld dropped.1, hosted := [dropped.2] }
  have hs : Run start _ s :=
    ((Run.nil.snoc (.start (.chain _ _))).snoc (.workAmong start.view [] job [])).snoc .unmount
  have ht : Run s _ t := Run.nil.snoc (.workAmong s.view [] called.2 [])
  exact ⟨_, s, _, t, hs, rfl, by decide +kernel, ht, rfl, ((quiescence hs).2 rfl _ _ ht).1⟩

end Session

end ViewTree
