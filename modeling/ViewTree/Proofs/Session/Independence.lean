import ViewTree.Proofs.Dispatch.Course
import ViewTree.Proofs.Session.Interleaving

/-!
# Dispatches that have nothing to do with one another

Dispatches of plain actions whose paths are apart do not disturb one another, however their steps
are interleaved: the courses they have ahead stay what they were, and the writes of one may trade
places with those of another.  `Underway` is what holds in between: the writes that are still ahead,
done one dispatch after another, lead to the state that all of them would lead to from the start.

So every interleaving ends with the reports and with the state that the dispatches one after another
end with, in any order (`Session.no_lost_update`).
-/

namespace ViewTree

/-- A view that has not ended, over a remote that answers by method and address. -/
structure View.Steady (view : View) (answer : Answers) : Prop where
  live : view.isEnded = false
  distinct : view.store.Distinct
  answers : view.world.transport.AnswersBy answer
  payloads : answer.Distinct

/-- Dispatches of plain actions, no path of which is a path of another one or leads to one. -/
structure Independent (dispatches : List Dispatch) : Prop where
  plain : ∀ dispatch ∈ dispatches, dispatch.action.Plain
  apart : dispatches.Pairwise fun one two => ∀ path ∈ one.action.paths,
    ∀ other ∈ two.action.paths, ¬ Path.Comparable path other

/-- The order of the dispatches does not matter. -/
theorem Independent.perm {dispatches order : List Dispatch} (h : Independent dispatches)
    (hperm : order.Perm dispatches) : Independent order := by
  refine ⟨fun dispatch hmem => h.plain dispatch (hperm.mem_iff.mp hmem), ?_⟩
  refine h.apart.perm hperm.symm ?_
  intro one two hap path hpath other hother hcomparable
  exact hap other hother path hpath hcomparable.symm

namespace Writes

variable {writes others more : Writes} {blocks after : List Writes}

theorem apart_append : Apart writes (others ++ more) ↔ Apart writes others ∧ Apart writes more := by
  unfold Apart
  simp only [List.forall_mem_append, forall_and]

/-- Blocks apart stay so when the first writes of one are left out. -/
theorem pairwise_apart_tail (h : (blocks ++ (writes ++ others) :: after).Pairwise Apart) :
    (blocks ++ others :: after).Pairwise Apart := by
  obtain ⟨hblocks, hrest, hbetween⟩ := List.pairwise_append.mp h
  obtain ⟨hlater, hafter⟩ := List.pairwise_cons.mp hrest
  refine List.pairwise_append.mpr ⟨hblocks, List.pairwise_cons.mpr ⟨?_, hafter⟩, ?_⟩
  · intro block hblock
    exact (apart_append.mp (hlater block hblock).symm).2.symm
  · intro block hblock other hother
    rcases List.mem_cons.mp hother with rfl | hother
    · exact (apart_append.mp (hbetween block hblock _ List.mem_cons_self)).2
    · exact hbetween block hblock other (List.mem_cons_of_mem _ hother)

/-- The first writes of a block are apart from all blocks before it. -/
theorem apart_flatten_head (h : (blocks ++ (writes ++ others) :: after).Pairwise Apart) :
    Apart writes blocks.flatten := by
  obtain ⟨-, -, hbetween⟩ := List.pairwise_append.mp h
  intro write hwrite other hother
  obtain ⟨block, hblock, hmem⟩ := List.mem_flatten.mp hother
  have hboth := (apart_append.mp (hbetween block hblock _ List.mem_cons_self)).1
  exact hboth.symm write hwrite other hmem

end Writes

/-- The writes that some chains have ahead, chain by chain. -/
def writesAhead (answer : Answers) (chains : List Chain) : List Writes :=
  chains.map fun chain => (chain.course answer).writes

/-- Chains under way that do not disturb one another: their reports are settled, and what they have
ahead leads to a whole that is settled too. -/
structure Underway (answer : Answers) (whole : Store) (reports : List DispatchReport)
    (world : World) (chains : List Chain) : Prop where
  plain : ∀ chain ∈ chains, chain.Plain
  live : world.ended = false
  answers : world.transport.AnswersBy answer
  distinct : world.store.Distinct
  values : ∀ writes ∈ writesAhead answer chains, writes.Distinct
  apart : (writesAhead answer chains).Pairwise Writes.Apart
  links : chains.map (fun chain => (chain.course answer).links) = reports
  ahead : (world.store.setAll (writesAhead answer chains).flatten).Alike whole

namespace Underway

variable {setting : Setting} {world : World} {chain : Chain} {chains before after : List Chain}
  {answer : Answers} {whole : Store} {reports : List DispatchReport}

/-- **A step of one of the chains** does the next few writes of its course before those of the
others. -/
theorem step (h : Underway answer whole reports world (before ++ chain :: after)) :
    Underway answer whole reports (chain.step setting world).1
      (before ++ (chain.step setting world).2 :: after) := by
  obtain ⟨hbefore, hchain⟩ := List.forall_mem_append.mp h.plain
  obtain ⟨hchain, hafter⟩ := List.forall_mem_cons.mp hchain
  obtain ⟨hplain, ⟨now, hstore, hwrites⟩, hlinks, hlive, hanswers⟩ :=
    chain.step_course setting hchain h.live h.answers
  set later := (chain.step setting world).2
  set rest := (later.course answer).writes
  have hsplit : writesAhead answer (before ++ chain :: after)
      = writesAhead answer before ++ (now ++ rest) :: writesAhead answer after := by
    rw [← hwrites]
    exact List.map_append
  have hsplit' : writesAhead answer (before ++ later :: after)
      = writesAhead answer before ++ rest :: writesAhead answer after := List.map_append
  have hapart := hsplit ▸ h.apart
  obtain ⟨hvalues, hvalues'⟩ := List.forall_mem_append.mp (hsplit ▸ h.values)
  obtain ⟨hboth, hvalues'⟩ := List.forall_mem_cons.mp hvalues'
  obtain ⟨hnow, hrest⟩ := Writes.distinct_append.mp hboth
  refine ⟨?_, hlive, hanswers, hstore ▸ h.distinct.setAll hnow, ?_, ?_, ?_, ?_⟩
  · exact List.forall_mem_append.mpr ⟨hbefore, List.forall_mem_cons.mpr ⟨hplain, hafter⟩⟩
  · rw [hsplit']
    exact List.forall_mem_append.mpr ⟨hvalues, List.forall_mem_cons.mpr ⟨hrest, hvalues'⟩⟩
  · rw [hsplit']
    exact Writes.pairwise_apart_tail hapart
  · rw [← h.links, List.map_append, List.map_append, List.map_cons, List.map_cons, hlinks]
  · -- What the step writes may come after what the chains before it have ahead.
    have hfirst := Writes.distinct_flatten hvalues
    have hlast : (rest ++ (writesAhead answer after).flatten).Distinct :=
      Writes.distinct_append.mpr ⟨hrest, Writes.distinct_flatten hvalues'⟩
    have hbefore := Store.setAll_before h.distinct hfirst hnow hlast
      (Writes.apart_flatten_head hapart)
    have hahead := h.ahead
    rw [hsplit, List.flatten_append, List.flatten_cons, List.append_assoc] at hahead
    rw [hsplit', hstore, List.flatten_append, List.flatten_cons]
    exact hbefore.trans hahead

/-- Time changes nothing. -/
theorem wait (h : Underway answer whole reports world chains) (time : Nat) :
    Underway answer whole reports { world with now := time } chains :=
  ⟨h.plain, h.live, h.answers, h.distinct, h.values, h.apart, h.links, h.ahead⟩

/-- When all chains have ended, the whole is there and the reports are those of the chains. -/
theorem of_done (h : Underway answer whole reports world chains)
    (hdone : ∀ chain ∈ chains, chain.isDone = true) :
    world.store.Alike whole ∧ chains.map Chain.links = reports := by
  have hcourse : ∀ chain ∈ chains, chain.course answer = ⟨[], chain.links⟩ := by
    intro chain hmem
    rw [Chain.course, Chain.stage_of_isDone (hdone chain hmem)]
    exact congrArg (Course.mk []) (List.append_nil _)
  have hnothing : (writesAhead answer chains).flatten = [] := by
    refine List.flatten_eq_nil_iff.mpr fun writes hmem => ?_
    obtain ⟨chain, hchain, rfl⟩ := List.mem_map.mp hmem
    rw [hcourse chain hchain]
  refine ⟨?_, ?_⟩
  · have hahead := h.ahead
    rwa [hnothing] at hahead
  · rw [← h.links]
    exact List.map_congr_left fun chain hmem => by rw [hcourse chain hmem]

end Underway

/-- What a dispatch reports when nothing disturbs it. -/
def Dispatch.report (answer : Answers) (dispatch : Dispatch) : DispatchReport :=
  (dispatch.action.course answer).links

/-- What a dispatch writes when nothing disturbs it. -/
def Dispatch.writes (answer : Answers) (dispatch : Dispatch) : Writes :=
  (dispatch.action.course answer).writes

section

variable {view : View} {answer : Answers} {dispatches : List Dispatch}

/-- A dispatch by itself keeps to its paths. -/
theorem Independent.within (h : Independent dispatches) (hview : view.Steady answer)
    {dispatch : Dispatch} (hmem : dispatch ∈ dispatches) :
    (dispatch.writes answer).Within dispatch.action.paths :=
  Action.course_within hview.payloads dispatch.action (h.plain dispatch hmem)

theorem Independent.apart_writes (h : Independent dispatches) (hview : view.Steady answer) :
    (dispatches.map (Dispatch.writes answer)).Pairwise Writes.Apart := by
  refine List.pairwise_map.mpr (h.apart.imp_of_mem ?_)
  intro one two hone htwo hap
  exact (h.within hview hone).apart (h.within hview htwo) hap

/-- Independent dispatches that have not taken a step. -/
theorem Independent.underway (h : Independent dispatches) (hview : view.Steady answer) :
    Underway answer (view.store.setAll (dispatches.map (Dispatch.writes answer)).flatten)
      (dispatches.map (Dispatch.report answer)) view.world (dispatches.map Dispatch.chain) := by
  have hahead : writesAhead answer (dispatches.map Dispatch.chain)
      = dispatches.map (Dispatch.writes answer) := List.map_map
  refine ⟨List.forall_mem_map.mpr h.plain, hview.live, hview.answers, hview.distinct,
    ?_, ?_, ?_, ?_⟩
  · rw [hahead]
    exact List.forall_mem_map.mpr fun dispatch hmem => (h.within hview hmem).distinct
  · rw [hahead]
    exact h.apart_writes hview
  · rw [List.map_map]
    rfl
  · rw [hahead]
    exact .refl _

namespace Session

/-- **However independent dispatches are interleaved**, they end with the reports and the writes
that each of them has by itself. -/
theorem Interleaving.ends (h : Independent dispatches) (hview : view.Steady answer) {n : Nat}
    {t : Session} (hrun : Interleaving (view.hosting (dispatches.map Dispatch.chain)) n t)
    (hfinished : t.Finished) :
    t.hosted.map Job.completion = dispatches.map (fun d => .dispatched (d.report answer)) ∧
      t.world.store.Alike
        (view.store.setAll (dispatches.map (Dispatch.writes answer)).flatten) := by
  obtain ⟨world, chains, rfl, hunderway⟩ := hrun.keeps _ (h.underway hview)
    (fun _ _ _ _ h => h.step) fun _ time _ h => h.wait time
  have hdone : ∀ chain ∈ chains, chain.isDone = true := fun chain hmem =>
    hfinished (.chain chain) (List.mem_map_of_mem hmem)
  obtain ⟨halike, hlinks⟩ := hunderway.of_done hdone
  refine ⟨?_, halike⟩
  calc (chains.map Job.chain).map Job.completion
      = (chains.map Chain.links).map .dispatched := by
        rw [List.map_map, List.map_map]
        rfl
    _ = (dispatches.map (Dispatch.report answer)).map .dispatched := by rw [hlinks]
    _ = dispatches.map (fun d => .dispatched (d.report answer)) := List.map_map

/-- Dispatches one after another end with the reports and the writes that each has by itself. -/
theorem dispatchAll_ends (h : Independent dispatches) (hview : view.Steady answer)
    (hidle : view.Idle) :
    (view.dispatchAll dispatches).2 = dispatches.map (Dispatch.report answer) ∧
      (view.dispatchAll dispatches).1.store.Alike
        (view.store.setAll (dispatches.map (Dispatch.writes answer)).flatten) := by
  obtain ⟨n, world, lasts, hrun, hdone, hall⟩ :=
    exists_interleaving_of_dispatchAll hidle dispatches
  obtain ⟨hcompletions, halike⟩ := hrun.ends h hview (List.forall_mem_map.mpr hdone)
  have hlasts : (lasts.map Job.chain).map Job.completion
      = (lasts.map Chain.links).map .dispatched := by
    rw [List.map_map, List.map_map]
    rfl
  have hlinks : (lasts.map Chain.links).map Completion.dispatched
      = (dispatches.map (Dispatch.report answer)).map .dispatched :=
    (hlasts.symm.trans hcompletions).trans List.map_map.symm
  rw [hall]
  exact ⟨List.map_injective_iff.mpr (fun _ _ => Completion.dispatched.inj) hlinks, halike⟩

/-- **No lost update.**  In a view that has not ended, over a remote that answers by method and
address, let dispatches run whose actions are writes and calls with params without holes, and whose
paths are apart.  Every interleaving of their steps ends, and can be brought to its end from any
point.  At its end each dispatch has the report it has by itself, and the state is the one that any
other interleaving ends with, whatever the order of the dispatches: the same number of writes and
the same contents, but for the order in which objects list their entries.  Running the dispatches
one after another is such an interleaving; in a view without other work that is what dispatching
them and waiting for each comes to. -/
theorem no_lost_update {order : List Dispatch} (hview : view.Steady answer)
    (h : Independent dispatches) (horder : order.Perm dispatches) :
    let start := view.hosting (dispatches.map Dispatch.chain)
    let inTurn := view.dispatchAll order
    ∀ n t, Interleaving start n t → n ≤ start.left ∧ (∃ m u, Interleaving t m u ∧ u.Finished) ∧
      (t.Finished →
        t.hosted.map Job.completion = dispatches.map (fun d => .dispatched (d.report answer)) ∧
        (∀ m u, Interleaving (view.hosting (order.map Dispatch.chain)) m u → u.Finished →
          u.hosted.map Job.completion = order.map (fun d => .dispatched (d.report answer)) ∧
            t.world.store.Alike u.world.store) ∧
        (view.Idle → inTurn.2 = order.map (Dispatch.report answer) ∧
          t.world.store.Alike inTurn.1.store)) := by
  intro start inTurn n t hrun
  refine ⟨Nat.le_trans (Nat.le_add_right n t.left) hrun.steps_le, Interleaving.exists_finished t,
    fun hfinished => ?_⟩
  obtain ⟨hreports, hends⟩ := hrun.ends h hview hfinished
  -- The writes of one dispatch may trade places with those of another.
  have hwhole := Store.setAll_perm (horder.symm.map (Dispatch.writes answer)) hview.distinct
    (List.forall_mem_map.mpr fun dispatch hmem => (h.within hview hmem).distinct)
    (h.apart_writes hview)
  refine ⟨hreports, fun m u hother hdone => ?_, fun hidle => ?_⟩
  · obtain ⟨hreports', hends'⟩ := hother.ends (h.perm horder) hview hdone
    exact ⟨hreports', (hends.trans hwhole).trans hends'.symm⟩
  · obtain ⟨hreports', hends'⟩ := dispatchAll_ends (h.perm horder) hview hidle
    exact ⟨hreports', (hends.trans hwhole).trans hends'.symm⟩

/-- A form that one dispatch fills in while another one's call is in flight: whichever of them comes
first makes the object that both write to. -/
theorem no_lost_update_form :
    let setting : Setting := ⟨{}, ⟨[]⟩⟩
    let view := View.create (.ofKind "div") .empty setting { fallback := .ok (.text "Ada") }
    let name : Dispatch := { action := .setState "form.note" (.text "hello") }
    let greet : Action := .setState "form.greeted" (.bool true)
    let user : Dispatch := { action := (Action.api "form.user" (.get "/user")).withSuccess greet }
    let inTurn := view.dispatchAll [user, name]
    (∀ n t, Interleaving (view.hosting [name.chain, user.chain]) n t → t.Finished →
      t.world.store.Alike inTurn.1.store) ∧
      (inTurn.1.store.get? "form.user").bind Json.text? = some "Ada" ∧
      (inTurn.1.store.get? "form.note").bind Json.text? = some "hello" := by
  intro setting view name greet user inTurn
  have hview : view.Steady view.world.transport.standing := by
    refine ⟨rfl, Store.distinct_empty, Script.answersBy_of_single nofun, ?_⟩
    intro method url payload hreply
    obtain rfl := Except.ok.inj hreply
    exact Json.distinct_text "Ada"
  have hindependent : Independent [name, user] := by
    have htext : Json.Plain (.text "hello") := by
      rw [Json.Plain]
      decide
    have hcall : (ApiCall.get "/user").toJson.Plain := by
      show (Json.object [("url", .text "/user"), ("method", .text "GET")]).Plain
      simp only [Json.Plain, Json.PlainFields]
      decide
    have hname : name.action.Plain :=
      (Action.plain_of_setState rfl).mpr ⟨htext, Json.distinct_text "hello"⟩
    have hgreet : greet.Plain :=
      (Action.plain_of_setState rfl).mpr ⟨trivial, Json.distinct_bool true⟩
    have huser : user.action.Plain := (Action.plain_of_api rfl).mpr ⟨hcall, hgreet, trivial⟩
    exact ⟨by simpa using And.intro hname huser, by decide +kernel⟩
  have hends := no_lost_update hview hindependent (List.Perm.swap name user [])
  refine ⟨fun n t hrun hfinished => ?_, by decide +kernel, by decide +kernel⟩
  exact (((hends n t hrun).2.2 hfinished).2.2 ⟨rfl, rfl⟩).2

end Session

end

end ViewTree
