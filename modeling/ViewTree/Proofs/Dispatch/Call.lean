import Mathlib.Logic.Basic
import Mathlib.Tactic.Set
import ViewTree.Dispatch.Call
import ViewTree.Proofs.State.Store

/-!
# What a remote call does to the state

A call writes at three paths that stand beside one another: its target, and the target's loading
flag and error.  `Store.Clear` says that nothing but objects of distinct names is on the way to
them, which each of the writes keeps.

* `get?_markLoading_loading`, `get?_markLoading_error`: the state while a call is in flight.
* `startCall_isSome_iff`: a request goes out when the params, filled in, describe a call.
* `call_effect`: what a call that nothing interrupts leaves behind: the payload or the text of the
  failure, the flag lowered, and every other path as it was.
-/

namespace ViewTree

open ViewTree.Path

namespace Store

/-- Nothing but objects of distinct names is on the way to a path. -/
structure Clear (store : Store) (path : String) : Prop where
  isOpen : store.OpenAlong path
  distinct : store.DistinctAlong path

variable {store : Store} {p q : String} {value : Json}

theorem Clear.beside (h : store.Clear p) (hb : Beside p q) : store.Clear q :=
  ⟨hb.openAlong h.isOpen, hb.distinctAlong h.distinct⟩

theorem Clear.set_self (h : store.Clear p) : (store.set p value).Clear p :=
  ⟨openAlong_set (fun _ => rfl) h.distinct h.isOpen, distinctAlong_set (fun _ => rfl) h.distinct⟩

theorem Clear.set_beside (h : store.Clear q) (hb : Beside p q) : (store.set p value).Clear q :=
  (h.beside hb.symm).set_self.beside hb

theorem Clear.remove (h : store.Clear q) (p : String) : (store.remove p).2.Clear q :=
  ⟨openAlong_remove h.distinct h.isOpen, distinctAlong_remove h.distinct⟩

/-- A write changes nothing beside it. -/
theorem Clear.get?_set_beside (h : store.Clear p) (hb : Beside p q) :
    (store.set p value).get? q = store.get? q :=
  get?_set_of_open hb.not_comparable h.isOpen (h.beside hb).distinct

end Store

namespace World

variable {world : World} {target other message : String} {payload : Json}

/-! ### In flight -/

/-- The flag of a target is up while a call of it is in flight. -/
theorem get?_markLoading_loading (h : world.store.Clear target) :
    (world.markLoading target).store.get? (loadingKey target) = some (.bool true) := by
  have hset : (world.store.set (loadingKey target) (.bool true)).Clear (loadingKey target) :=
    (h.beside (beside_loadingKey target)).set_self
  calc (world.markLoading target).store.get? (loadingKey target)
      = (world.store.set (loadingKey target) (.bool true)).get? (loadingKey target) :=
        Store.get?_remove_of_apart (beside_loadingKey_errorKey target).symm.not_comparable
          hset.distinct
    _ = some (.bool true) := Store.get?_set_self (by simp)

/-- The last error of a target is gone while a call of it is in flight. -/
theorem get?_markLoading_error (h : world.store.Clear target) :
    (world.markLoading target).store.get? (errorKey target) = none := by
  have hset : (world.store.set (loadingKey target) (.bool true)).Clear (errorKey target) :=
    (h.beside (beside_errorKey target)).set_beside (beside_loadingKey_errorKey target)
  exact Store.get?_remove_self hset.isOpen hset.distinct

/-- Marking a target as loading changes no path apart from its flag and its error. -/
theorem get?_markLoading_of_apart (h : world.store.Clear target)
    (hd : world.store.DistinctAlong other) (hflag : ¬ Comparable (loadingKey target) other)
    (herror : ¬ Comparable (errorKey target) other) :
    (world.markLoading target).store.get? other = world.store.get? other := by
  have hclear := h.beside (beside_loadingKey target)
  have hset : (world.store.set (loadingKey target) (.bool true)).DistinctAlong other :=
    Store.distinctAlong_set_of_apart hflag hd
  calc (world.markLoading target).store.get? other
      = (world.store.set (loadingKey target) (.bool true)).get? other :=
        Store.get?_remove_of_apart herror hset
    _ = world.store.get? other := Store.get?_set_of_open hflag hclear.isOpen hd

theorem clear_markLoading (h : world.store.Clear target) :
    (world.markLoading target).store.Clear target :=
  (h.set_beside (beside_loadingKey target).symm).remove _

theorem distinctAlong_markLoading (hd : world.store.DistinctAlong other)
    (hflag : ¬ Comparable (loadingKey target) other) :
    (world.markLoading target).store.DistinctAlong other :=
  Store.distinctAlong_remove (Store.distinctAlong_set_of_apart hflag hd)

/-! ### At the end -/

theorem get?_settleSuccess_loading :
    (world.settleSuccess target payload).store.get? (loadingKey target) = some (.bool false) :=
  Store.get?_set_self (by simp)

theorem get?_settleFailure_loading :
    (world.settleFailure target message).store.get? (loadingKey target) = some (.bool false) :=
  Store.get?_set_self (by simp)

theorem clear_set_payload (h : world.store.Clear target) :
    (world.store.set target payload).Clear (loadingKey target) :=
  h.set_self.beside (beside_loadingKey target)

theorem clear_set_message (h : world.store.Clear target) :
    (world.store.set (errorKey target) (.text message)).Clear (loadingKey target) :=
  (h.beside (beside_loadingKey target)).set_beside (beside_loadingKey_errorKey target).symm

/-- A payload is found at its target; a payload of `null` leaves nothing there. -/
theorem get?_settleSuccess_target (h : world.store.Clear target) :
    (world.settleSuccess target payload).store.get? target
      = if payload.isNull then none else some payload := by
  have hset : (world.store.set target payload).Clear (loadingKey target) := clear_set_payload h
  calc (world.settleSuccess target payload).store.get? target
      = (world.store.set target payload).get? target :=
        hset.get?_set_beside (beside_loadingKey target).symm
    _ = if payload.isNull then none else some payload := by
        cases payload with
        | null => exact Store.get?_remove_self h.isOpen h.distinct
        | _ => exact Store.get?_set_self (by simp)

theorem get?_settleSuccess_error (h : world.store.Clear target) :
    (world.settleSuccess target payload).store.get? (errorKey target)
      = world.store.get? (errorKey target) := by
  have hset : (world.store.set target payload).Clear (loadingKey target) := clear_set_payload h
  calc (world.settleSuccess target payload).store.get? (errorKey target)
      = (world.store.set target payload).get? (errorKey target) :=
        hset.get?_set_beside (beside_loadingKey_errorKey target)
    _ = world.store.get? (errorKey target) := h.get?_set_beside (beside_errorKey target)

theorem get?_settleFailure_error (h : world.store.Clear target) :
    (world.settleFailure target message).store.get? (errorKey target) = some (.text message) := by
  have hset : (world.store.set (errorKey target) (.text message)).Clear (loadingKey target) :=
    clear_set_message h
  calc (world.settleFailure target message).store.get? (errorKey target)
      = (world.store.set (errorKey target) (.text message)).get? (errorKey target) :=
        hset.get?_set_beside (beside_loadingKey_errorKey target)
    _ = some (.text message) := Store.get?_set_self (by simp)

theorem get?_settleFailure_target (h : world.store.Clear target) :
    (world.settleFailure target message).store.get? target = world.store.get? target := by
  have herror := h.beside (beside_errorKey target)
  have hset : (world.store.set (errorKey target) (.text message)).Clear (loadingKey target) :=
    clear_set_message h
  calc (world.settleFailure target message).store.get? target
      = (world.store.set (errorKey target) (.text message)).get? target :=
        hset.get?_set_beside (beside_loadingKey target).symm
    _ = world.store.get? target := herror.get?_set_beside (beside_errorKey target).symm

/-- Two writes beside one another, the second one a flag, change no path apart from both. -/
theorem get?_set_markLoaded_of_apart {path : String} {value : Json}
    (h : world.store.Clear path) (hb : Beside path (loadingKey target))
    (hd : world.store.DistinctAlong other) (hpath : ¬ Comparable path other)
    (hflag : ¬ Comparable (loadingKey target) other) :
    ((world.set path value).markLoaded target).store.get? other = world.store.get? other := by
  have hset : (world.store.set path value).Clear (loadingKey target) := h.set_self.beside hb
  have hother : (world.store.set path value).DistinctAlong other :=
    Store.distinctAlong_set_of_apart hpath hd
  calc ((world.set path value).markLoaded target).store.get? other
      = (world.store.set path value).get? other :=
        Store.get?_set_of_open hflag hset.isOpen hother
    _ = world.store.get? other := Store.get?_set_of_open hpath h.isOpen hd

end World

/-! ### From start to end -/

/-- The request a remote call makes over the options of a view. -/
def ApiCall.toRequest (options : Options) (api : ApiCall) : Request :=
  { method := api.method, url := api.url
    headers := options.headers.insertAll
      (api.headers.map fun (name, value) => (lowerAscii name, value))
    body := api.body }

/-- The params of a call as it reads them: filled in from the state that marks it as loading. -/
def CallPlan.resolved (world : World) (plan : CallPlan) : Json :=
  ((world.markLoading plan.target).scope plan.event).expandIn plan.params

/-- The call of a plan whose request was sent at a time with this result. -/
def CallPlan.call (plan : CallPlan) (sent : Reply × Script) (now : Nat) : Call :=
  { target := plan.target, transform := plan.transform, reply := sent.1
    due := now + sent.2.latency }

/-- How a call ends that started so: at once when it had no request to send, and otherwise with its
reply, in the world there is by then. -/
def World.endCall (setting : Setting) (started : World × Option Call) (later : World) :
    World × Outcome :=
  match started.2 with
  | none => (started.1, .failed)
  | some call => later.settleCall setting call

/-- The payload came: it is found at the target, unless it is `null`, and there is no error. -/
def Delivered (after : Store) (target : String) (payload : Json) : Prop :=
  after.get? target = (if payload.isNull then none else some payload) ∧
    after.get? (errorKey target) = none

/-- The call failed: the target is as it was, and its error is the text of the failure. -/
def Refused (before after : Store) (target message : String) : Prop :=
  after.get? target = before.get? target ∧
    after.get? (errorKey target) = some (.text message)

/-- A call cannot both have delivered a payload and have failed. -/
theorem Delivered.not_refused {before after : Store} {target message : String} {payload : Json}
    (h : Delivered after target payload) : ¬ Refused before after target message := by
  intro hr
  rw [Refused, h.2] at hr
  exact absurd hr.2 (by simp)

theorem Delivered.xor {before after : Store} {target : String} {payload : Json}
    (h : Delivered after target payload) :
    Xor (∃ payload, Delivered after target payload)
      (∃ message, Refused before after target message) :=
  Or.inl ⟨⟨payload, h⟩, fun ⟨_, hr⟩ => h.not_refused hr⟩

theorem Refused.xor {before after : Store} {target message : String}
    (h : Refused before after target message) :
    Xor (∃ payload, Delivered after target payload)
      (∃ message, Refused before after target message) :=
  Or.inr ⟨⟨message, h⟩, fun ⟨_, hd⟩ => hd.not_refused h⟩

namespace World

variable {setting : Setting} {world : World} {plan : CallPlan}

theorem startCall_of_error {error : DecodeError}
    (h : ApiCall.ofJson (plan.resolved world) = .error error) :
    world.startCall setting plan
      = ((world.markLoading plan.target).settleFailure plan.target (invalidParams error),
        none) := by
  rw [CallPlan.resolved] at h
  simp only [startCall, buildRequest, h]

theorem startCall_of_ok {api : ApiCall} (h : ApiCall.ofJson (plan.resolved world) = .ok api) :
    let sent := world.transport.send (api.toRequest setting.options)
    world.startCall setting plan
      = ({ world.markLoading plan.target with transport := sent.2 },
        some (plan.call sent world.now)) := by
  rw [CallPlan.resolved] at h
  simp only [startCall, buildRequest, h]
  rfl

theorem settleCall_of_ended {call : Call} (h : world.ended = true) :
    world.settleCall setting call = (world, .cancelled) := by
  simp only [settleCall, h, if_true]

theorem settleCall_of_ok {call : Call} {payload : Json} (h : world.ended = false)
    (hreply : call.reply = .ok payload) : world.settleCall setting call
      = (world.settleSuccess call.target (setting.transforms.applyOption call.transform payload),
        .succeeded) := by
  simp only [settleCall, h, hreply, Bool.false_eq_true, if_false]

theorem settleCall_of_error {call : Call} {error : TransportError} (h : world.ended = false)
    (hreply : call.reply = .error error) : world.settleCall setting call
      = (world.settleFailure call.target error.message, .failed) := by
  simp only [settleCall, h, hreply, Bool.false_eq_true, if_false]

/-- A request goes out when the params, filled in, describe a call. -/
theorem startCall_isSome_iff : (world.startCall setting plan).2.isSome
    ↔ ∃ api, ApiCall.ofJson (plan.resolved world) = .ok api := by
  cases h : ApiCall.ofJson (plan.resolved world) with
  | error error => simp [startCall_of_error h]
  | ok api => simp [startCall_of_ok h]

end World

namespace World

variable {setting : Setting} {world later : World} {plan : CallPlan}

theorem endCall_of_error {error : DecodeError}
    (h : ApiCall.ofJson (plan.resolved world) = .error error) :
    endCall setting (world.startCall setting plan) later
      = ((world.markLoading plan.target).settleFailure plan.target (invalidParams error),
        .failed) := by
  rw [startCall_of_error h]
  rfl

theorem endCall_of_ok {api : ApiCall} (h : ApiCall.ofJson (plan.resolved world) = .ok api) :
    let sent := world.transport.send (api.toRequest setting.options)
    endCall setting (world.startCall setting plan) later
      = later.settleCall setting (plan.call sent world.now) := by
  rw [startCall_of_ok h]
  rfl

end World

/-- What a call leaves behind, whichever way it ended: the flag is lowered, and no path apart from
the three it writes has changed. -/
def Undisturbed (before after : Store) (target : String) : Prop :=
  after.get? (loadingKey target) = some (.bool false) ∧
    ∀ path, ¬ Comparable target path → ¬ Comparable (loadingKey target) path →
      ¬ Comparable (errorKey target) path → after.get? path = before.get? path

section Settle

variable {world later : World} {target : String}

/-- A failure written to a state that marks its target as loading. -/
theorem settleFailure_markLoading (hd : world.store.Distinct) (h : world.store.Clear target)
    (hlater : later.store = (world.markLoading target).store) (message : String) :
    Refused world.store (later.settleFailure target message).store target message ∧
      Undisturbed world.store (later.settleFailure target message).store target := by
  have hclear : later.store.Clear target := hlater ▸ World.clear_markLoading h
  have hb := beside_errorKey target
  refine ⟨⟨?_, World.get?_settleFailure_error hclear⟩, World.get?_settleFailure_loading, ?_⟩
  · rw [World.get?_settleFailure_target hclear, hlater]
    exact World.get?_markLoading_of_apart h h.distinct
      (beside_loadingKey target).symm.not_comparable hb.symm.not_comparable
  · intro path _ hflag herror
    have hdist : later.store.DistinctAlong path :=
      hlater ▸ World.distinctAlong_markLoading (hd.along path) hflag
    rw [World.settleFailure, World.get?_set_markLoaded_of_apart (hclear.beside hb)
      (beside_loadingKey_errorKey target).symm hdist herror hflag, hlater]
    exact World.get?_markLoading_of_apart h (hd.along path) hflag herror

/-- A payload written to a state that marks its target as loading. -/
theorem settleSuccess_markLoading (hd : world.store.Distinct) (h : world.store.Clear target)
    (hlater : later.store = (world.markLoading target).store) (payload : Json) :
    Delivered (later.settleSuccess target payload).store target payload ∧
      Undisturbed world.store (later.settleSuccess target payload).store target := by
  have hclear : later.store.Clear target := hlater ▸ World.clear_markLoading h
  refine ⟨⟨World.get?_settleSuccess_target hclear, ?_⟩, World.get?_settleSuccess_loading, ?_⟩
  · rw [World.get?_settleSuccess_error hclear, hlater]
    exact World.get?_markLoading_error h
  · intro path htarget hflag herror
    have hdist : later.store.DistinctAlong path :=
      hlater ▸ World.distinctAlong_markLoading (hd.along path) hflag
    rw [World.settleSuccess, World.get?_set_markLoaded_of_apart hclear (beside_loadingKey target)
      hdist htarget hflag, hlater]
    exact World.get?_markLoading_of_apart h (hd.along path) hflag herror

end Settle

/-- **The effect of a call** whose target has nothing but objects on its way, when nothing else
writes to the state until its reply has come and the view goes on.  While it is in flight its flag
is up and its error is gone.  It sends a request exactly when its params, filled in from that state,
describe one.  At its end the flag is lowered, and either the payload has come or the text of the
failure is there; nothing apart from the target, its flag and its error has changed. -/
theorem call_effect {setting : Setting} {world later : World} {plan : CallPlan}
    (hd : world.store.Distinct) (hopen : world.store.Open plan.target)
    (hlater : later.store = (world.startCall setting plan).1.store) (hlive : later.ended = false) :
    let started := world.startCall setting plan
    let ended := World.endCall setting started later
    let target := plan.target
    (∀ call, started.2 = some call →
      started.1.store.get? (loadingKey target) = some (.bool true) ∧
        started.1.store.get? (errorKey target) = none) ∧
    (match ApiCall.ofJson (plan.resolved world) with
      | .ok api =>
        let sent := world.transport.send (api.toRequest setting.options)
        started.2.isSome ∧ started.1.transport = sent.2 ∧
          match sent.1 with
          | .ok payload => ended.2 = .succeeded ∧
            Delivered ended.1.store target (setting.transforms.applyOption plan.transform payload)
          | .error error => ended.2 = .failed ∧
            Refused world.store ended.1.store target error.message
      | .error error =>
        started.2 = none ∧ started.1.transport = world.transport ∧ ended.2 = .failed ∧
          Refused world.store ended.1.store target
            ("invalid api params: " ++ error.message?.getD "")) ∧
    Xor (∃ payload, Delivered ended.1.store target payload)
      (∃ message, Refused world.store ended.1.store target message) ∧
    Undisturbed world.store ended.1.store target := by
  intro started ended target
  have hclear : world.store.Clear target := ⟨Store.open_iff_openAlong.mp hopen, hd.along target⟩
  cases hparams : ApiCall.ofJson (plan.resolved world) with
  | error error =>
    -- There is no request to send, so that the call ends in the state it has just marked.
    have hstart : started = _ := World.startCall_of_error hparams
    have hnone : started.2 = none := by rw [hstart]
    have hended : ended = _ := World.endCall_of_error hparams
    obtain ⟨hrefused, hrest⟩ := settleFailure_markLoading hd hclear rfl (invalidParams error)
    rw [hended]
    refine ⟨fun call hcall => absurd (hnone.symm.trans hcall) (by simp), ?_⟩
    exact ⟨⟨hnone, by rw [hstart]; rfl, rfl, hrefused⟩, hrefused.xor, hrest⟩
  | ok api =>
    have hstart : started = _ := World.startCall_of_ok hparams
    have hmarked : started.1.store = (world.markLoading target).store := by rw [hstart]
    have hstore : later.store = (world.markLoading target).store := hlater.trans hmarked
    have hflight : started.1.store.get? (loadingKey target) = some (.bool true) ∧
        started.1.store.get? (errorKey target) = none := by
      rw [hmarked]
      exact ⟨World.get?_markLoading_loading hclear, World.get?_markLoading_error hclear⟩
    refine ⟨fun _ _ => hflight, ?_⟩
    have hsent : started.2.isSome ∧ started.1.transport
        = (world.transport.send (api.toRequest setting.options)).2 := by
      rw [hstart]
      exact ⟨rfl, rfl⟩
    -- The reply is settled in a state that nobody else has written to since.
    set sent := world.transport.send (api.toRequest setting.options)
    have hcall : ended = later.settleCall setting (plan.call sent world.now) :=
      World.endCall_of_ok hparams
    cases hreply : sent.1 with
    | ok payload =>
      have hended := hcall.trans (World.settleCall_of_ok hlive hreply)
      obtain ⟨hdelivered, hrest⟩ := settleSuccess_markLoading hd hclear hstore
        (setting.transforms.applyOption plan.transform payload)
      rw [hended]
      exact ⟨⟨hsent.1, hsent.2, by rw [hreply]; exact ⟨rfl, hdelivered⟩⟩, hdelivered.xor, hrest⟩
    | error error =>
      have hended := hcall.trans (World.settleCall_of_error hlive hreply)
      obtain ⟨hrefused, hrest⟩ := settleFailure_markLoading hd hclear hstore error.message
      rw [hended]
      exact ⟨⟨hsent.1, hsent.2, by rw [hreply]; exact ⟨rfl, hrefused⟩⟩, hrefused.xor, hrest⟩

/-- A call of a nested target whose last call failed: the payload takes the place of the old value
and of the error. -/
theorem call_effect_after_error :
    let setting : Setting := ⟨{}, ⟨[]⟩⟩
    let store := (Store.empty.set "form.user" (.text "old")).set "form.user_error" (.text "lost")
    let world : World := { store, transport := { fallback := .ok (.text "new") }, log := .empty {} }
    let plan : CallPlan := { target := "form.user", params := .object [("url", .text "/users")] }
    let started := world.startCall setting plan
    world.store.Distinct ∧ world.store.Open plan.target ∧ started.1.ended = false ∧
      Delivered (World.endCall setting started started.1).1.store "form.user" (.text "new") ∧
      Undisturbed world.store (World.endCall setting started started.1).1.store "form.user" := by
  intro setting store world plan started
  have hd : world.store.Distinct :=
    (Store.distinct_empty.set (Json.distinct_text _) _).set (Json.distinct_text _) _
  have hopen : world.store.Open plan.target :=
    Store.open_iff_openAlong.mpr ((beside_errorKey "form.user").symm.openAlong
      (Store.objectsAlong_set_self (by simp)).openAlong)
  have hstore : started.1.store = (world.startCall setting plan).1.store := rfl
  have hlive : started.1.ended = false := rfl
  have h := call_effect hd hopen hstore hlive
  exact ⟨hd, hopen, hlive, h.2.1.2.2.2, h.2.2.2⟩

end ViewTree
