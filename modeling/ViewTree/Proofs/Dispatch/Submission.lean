import ViewTree.Proofs.Config.RoundTrip
import ViewTree.Proofs.Dispatch.Effect
import ViewTree.Proofs.State.Template

/-!
# What a submission sends

A submission turns into a call that posts what the state holds.  The call goes through the same
steps as one that was written by hand: it becomes params, templates in the params are filled in, and
the params are read as a call.  So what is sent is the value with every hole in its texts filled
(`Chain.submission_posts`); a value without holes is sent as it is, and a text that looks like a
template is not (`Chain.submission_fills_in`).
-/

namespace ViewTree

namespace ApiCall

variable (scope : Scope) (call : ApiCall)

/-- The call with its templates filled in. -/
def expand (scope : Scope) (call : ApiCall) : ApiCall :=
  { url := scope.expand call.url, method := call.method
    headers := call.headers.map fun (name, value) => (name, scope.expand value)
    body := call.body.map scope.expandIn }

theorem expand_methodName (method : Method) : scope.expand method.name = method.name := by
  cases method <;> rfl

theorem expandFields_headers (headers : Headers) :
    scope.expandFields (headers.map fun (name, value) => (name, .text value))
      = (headers.map fun (name, value) => (name, scope.expand value)).map
        fun (name, value) => (name, .text value) := by
  induction headers with
  | nil => rfl
  | cons header headers ih =>
    simp only [List.map_cons, Scope.expandFields, Scope.expandIn, ih]

/-- Filling templates in goes through the form a call has as a value. -/
theorem expandIn_toJson : scope.expandIn call.toJson = (call.expand scope).toJson := by
  obtain ⟨url, method, headers, body⟩ := call
  have hmethod := expand_methodName scope method
  cases headers <;> cases body <;>
    simp [toJson, expand, optionalField, Headers.toJson, Scope.expandIn, Scope.expandFields,
      hmethod, expandFields_headers]

variable {call}

/-- Filling templates in keeps a call canonical. -/
theorem Canonical.expand (h : call.Canonical) : (call.expand scope).Canonical := by
  refine ⟨List.pairwise_map.mpr h.sorted, ?_⟩
  intro value hvalue
  obtain ⟨body, hbody, rfl⟩ := Option.map_eq_some_iff.mp hvalue
  have hpresent := h.body body hbody
  exact ⟨scope.expandIn_ne_null hpresent.ne_null, scope.wellNamed_expandIn _ hpresent.wellNamed⟩

/-- What a call reads from its own params when their templates have been filled in. -/
theorem ofJson_expandIn_toJson (h : call.Canonical) :
    ofJson (scope.expandIn call.toJson) = .ok (call.expand scope) := by
  rw [expandIn_toJson]
  exact decode_ofJson Source.settled_ofValue (h.expand scope)

end ApiCall

/-- Params that describe a call, templates filled in, send its request. -/
theorem CallPlan.effect_of_ok {setting : Setting} {world : World} {plan : CallPlan} {api : ApiCall}
    (h : ApiCall.ofJson (plan.resolved world) = .ok api) :
    let request := api.toRequest setting.options
    plan.effect setting world
      = .started (plan.call (world.transport.send request) world.now) request := by
  rw [effect, h]

/-- Starting the call a submission stands for sends its request, templates filled in from the state
that marks the call as loading. -/
theorem Action.effect_submitCall (setting : Setting) (world : World) (event : Option Json)
    (action : Action) (target : String) {value : Json} (h : value.Present) :
    ∃ call, (action.submitCall target (some value)).effect setting world event
      = .started call (((ApiCall.post target value).expand
          ((world.markLoading target).scope event)).toRequest setting.options) := by
  have hcanonical : (ApiCall.post target value).Canonical := by
    refine ⟨List.Pairwise.nil, ?_⟩
    rintro body ⟨⟩
    exact h
  let plan := (action.submitCall target (some value)).callPlan target event
  have hread : ApiCall.ofJson (plan.resolved world)
      = .ok ((ApiCall.post target value).expand ((world.markLoading target).scope event)) :=
    ApiCall.ofJson_expandIn_toJson _ hcanonical
  exact ⟨_, CallPlan.effect_of_ok hread⟩

namespace Chain

/-- **What a submission sends.**  In a view that goes on, a submission whose source holds a value
turns into a call, and the call posts the value to the target; holes in its texts are filled in as
in the params of any call, so that a value without holes is sent as it is. -/
theorem submission_posts (setting : Setting) {world later : World} {chain : Chain}
    {action : Action} {target : String} {value : Json} (hstage : chain.stage = .ready action)
    (hkind : action.kind = .submit) (htarget : action.target = some target)
    (hlive : world.ended = false) (hlater : later.ended = false)
    (hsource : world.store.get? (action.submitSource target) = some value)
    (hvalue : value.Present) :
    let scope := (later.markLoading target).scope chain.event
    ∃ call request, (chain.step setting world).2.effect setting later = .started call request ∧
      request.method = .post ∧ request.url = scope.expand target ∧
      request.body = some (scope.expandIn value) ∧ (value.Plain → request.body = some value) := by
  intro scope
  have hstep : (chain.step setting world).2.stage = .ready (action.submitCall target (some value)) ∧
      (chain.step setting world).2.event = chain.event := by
    rw [step_ready hstage hlive, runAction, hkind]
    simp only [runSubmit, htarget, hsource]
    exact ⟨rfl, rfl⟩
  obtain ⟨call, hcall⟩ := action.effect_submitCall setting later chain.event target hvalue
  have heffect : (chain.step setting world).2.effect setting later = .started call
      (((ApiCall.post target value).expand scope).toRequest setting.options) := by
    simp only [effect, hstep.1, hstep.2, hlater]
    exact hcall
  exact ⟨call, _, heffect, rfl, rfl, rfl,
    fun hplain => congrArg some (scope.expandIn_of_plain value hplain)⟩

/-- A form without holes goes out as it was typed. -/
theorem submission_posts_form :
    let setting : Setting := ⟨{}, ⟨[]⟩⟩
    let world : World := { store := Store.empty.set "form" (.text "a@b"), log := .empty {} }
    let chain := Chain.start { kind := .submit, target := some "form" } none
    ∃ call request, (chain.step setting world).2.effect setting (chain.step setting world).1
        = .started call request ∧
      request.method = .post ∧ request.url = "form" ∧ request.body = some (.text "a@b") := by
  intro setting world chain
  have hplain : (Json.text "a@b").Plain := by
    rw [Json.Plain]
    decide
  let action : Action := { kind := .submit, target := some "form" }
  have hstage : chain.stage = .ready action := rfl
  have htarget : action.target = some "form" := rfl
  have hlive : world.ended = false := rfl
  have hlater : (chain.step setting world).1.ended = false := rfl
  have hsource : world.store.get? (action.submitSource "form") = some (.text "a@b") :=
    Store.get?_set_self nofun
  obtain ⟨call, request, heffect, hmethod, hurl, -, hbody⟩ :=
    submission_posts setting hstage rfl htarget hlive hlater hsource ⟨nofun, trivial⟩
  exact ⟨call, request, heffect, hmethod, hurl, hbody hplain⟩

/-- What was typed is not what is sent when it looks like a template: the hole is filled in with
another part of the state. -/
theorem submission_fills_in :
    let setting : Setting := ⟨{}, ⟨[]⟩⟩
    let form := Store.empty.set "form" (.text "cost: $\x7bstate.secret\x7d")
    let store := form.set "secret" (.text "x")
    let world : World := { store, log := .empty {} }
    let chain := Chain.start { kind := .submit, target := some "form" } none
    world.store.get? "form" = some (.text "cost: $\x7bstate.secret\x7d") ∧
      ∃ call request, (chain.step setting world).2.effect setting (chain.step setting world).1
          = .started call request ∧
        request.body = some (.text "cost: x") :=
  ⟨rfl, _, _, rfl, rfl⟩

end Chain

end ViewTree
