import ViewTree.Proofs.Dispatch.Effect
import ViewTree.Proofs.Dispatch.Script
import ViewTree.Proofs.State.Alike
import ViewTree.Proofs.State.Template

/-!
# The course of a dispatch

What writes and calls do whose params have no holes is known beforehand, when the remote answers by
method and address alone: `Action.course` lists the writes of a dispatch and the links of its
report, without looking at a state.  A step of the dispatch does the next few of these writes,
whatever world it finds, and leaves the rest of its course ahead (`Chain.step_course`).

A dispatch writes at the targets of its actions and beside those of its calls only (`Action.paths`,
`Action.course_writes`).
-/

namespace ViewTree

/-! ### The answers of a remote -/

/-- What a remote answers to a method at an address. -/
abbrev Answers := Method → String → Reply

/-- The payloads that a remote answers with have distinct names. -/
def Answers.Distinct (answer : Answers) : Prop :=
  ∀ method url payload, answer method url = .ok payload → payload.Distinct

/-- What a call comes to: its payload, or the text of its failure. -/
abbrev Verdict := Except String Json

/-- What a call with some params comes to. -/
def Answers.verdict (answer : Answers) (params : Json) : Verdict :=
  match ApiCall.ofJson params with
  | .error error => .error (invalidParams error)
  | .ok api => (answer api.method api.url).mapError TransportError.message

namespace Script

/-- A script gives these answers, whatever was sent before. -/
def AnswersBy (script : Script) (answer : Answers) : Prop :=
  ∀ requests request,
    ((script.sendAll requests).send request).1 = answer request.method request.url

variable {script : Script} {answer : Answers}

theorem AnswersBy.reply (h : script.AnswersBy answer) (request : Request) :
    (script.send request).1 = answer request.method request.url := h [] request

theorem AnswersBy.send (h : script.AnswersBy answer) (request : Request) :
    (script.send request).2.AnswersBy answer := fun requests => h (request :: requests)

/-- A route with one reply at most never uses it up. -/
theorem snd_take_of_single {routes : List Route} (h : ∀ route ∈ routes, route.replies.length ≤ 1)
    (method : Method) (url : String) : (take method url routes).2 = routes := by
  induction routes with
  | nil => rfl
  | cons route routes ih =>
    obtain ⟨hroute, hroutes⟩ := List.forall_mem_cons.mp h
    unfold take
    split
    · split
      · rename_i hreplies
        rw [hreplies] at hroute
        simp at hroute
      · rfl
    · exact congrArg (route :: ·) (ih hroutes)

/-- What a script says next when no reply is used up. -/
def standing (script : Script) : Answers := fun method url =>
  (take method url script.routes).1.getD script.fallback

/-- A script without a second reply to anything answers by method and address. -/
theorem answersBy_of_single (h : ∀ route ∈ script.routes, route.replies.length ≤ 1) :
    script.AnswersBy script.standing := by
  intro requests
  induction requests generalizing script with
  | nil => exact fun _ => rfl
  | cons request requests ih =>
    have hroutes : (script.send request).2.routes = script.routes := snd_take_of_single h _ _
    have hstanding : (script.send request).2.standing = script.standing := by
      unfold standing
      rw [hroutes]
      rfl
    rw [← hstanding]
    exact ih (hroutes ▸ h)

end Script

/-! ### Actions -/

/-- What a dispatch does: the writes it makes and the links of its report. -/
structure Course where
  writes : Writes
  links : DispatchReport

namespace Course

/-- The course of what does nothing. -/
def rest : Course := ⟨[], []⟩

/-- A course that comes after a link and its writes. -/
def after (course : Course) (writes : Writes) (link : LinkReport) : Course :=
  ⟨writes ++ course.writes, link :: course.links⟩

end Course

/-- What a call writes as it starts. -/
def announcement (target : String) : Writes :=
  [(loadingKey target, .bool true), (errorKey target, .null)]

/-- What a call writes as it ends. -/
def settlement (target : String) : Verdict → Writes
  | .ok payload => [(target, payload), (loadingKey target, .bool false)]
  | .error message => [(errorKey target, .text message), (loadingKey target, .bool false)]

namespace Action

mutual

/-- Only writes and calls follow one another, and their params have no holes. -/
def Plain : Action → Prop
  | ⟨.setState, _, params, _, _⟩ => (params.getD .null).Plain ∧ (params.getD .null).Distinct
  | ⟨.api, _, params, onSuccess, onError⟩ =>
    (params.getD .null).Plain ∧ PlainAfter onSuccess ∧ PlainAfter onError
  | _ => False

/-- What follows an action is plain, if anything does. -/
def PlainAfter : Option Action → Prop
  | none => True
  | some action => Plain action

end

mutual

/-- The paths that the writes and calls of a dispatch may write: their targets, and beside the
targets of its calls the flags and errors. -/
def paths : Action → List String
  | ⟨.setState, some target, _, _, _⟩ => [target]
  | ⟨.api, target, _, onSuccess, onError⟩ =>
    (target.elim [] fun target => [target, loadingKey target, errorKey target])
      ++ (pathsAfter onSuccess ++ pathsAfter onError)
  | _ => []

/-- The paths that are written by what follows an action. -/
def pathsAfter : Option Action → List String
  | none => []
  | some action => paths action

end

mutual

/-- The course of a dispatch, worked out from the answers of the remote. -/
def course (answer : Answers) : Action → Course
  | ⟨.setState, some target, params, _, _⟩ =>
    Course.rest.after [(target, params.getD .null)] ⟨.setState, some target, .succeeded⟩
  | ⟨.setState, none, _, _, _⟩ => Course.rest.after [] ⟨.setState, none, .failed⟩
  | ⟨.api, none, _, _, onError⟩ => (courseAfter answer onError).after [] ⟨.api, none, .failed⟩
  | ⟨.api, some target, params, onSuccess, onError⟩ =>
    let verdict := answer.verdict (params.getD .null)
    let writes := announcement target ++ settlement target verdict
    match verdict with
    | .ok _ => (courseAfter answer onSuccess).after writes ⟨.api, some target, .succeeded⟩
    | .error _ => (courseAfter answer onError).after writes ⟨.api, some target, .failed⟩
  | _ => .rest

/-- The course of what follows an action. -/
def courseAfter (answer : Answers) : Option Action → Course
  | none => .rest
  | some action => course answer action

end

end Action

namespace Action

variable {action : Action}

theorem plain_of_setState (h : action.kind = .setState) : action.Plain ↔
    (action.params.getD .null).Plain ∧ (action.params.getD .null).Distinct := by
  obtain ⟨kind, target, params, onSuccess, onError⟩ := action
  obtain rfl : kind = .setState := h
  rw [Plain]

theorem plain_of_api (h : action.kind = .api) : action.Plain ↔
    (action.params.getD .null).Plain ∧ PlainAfter action.onSuccess ∧
      PlainAfter action.onError := by
  obtain ⟨kind, target, params, onSuccess, onError⟩ := action
  obtain rfl : kind = .api := h
  rw [Plain]

end Action

/-! ### Where a course writes -/

/-- Writes at some of these paths, of values with distinct names. -/
def Writes.Within (writes : Writes) (paths : List String) : Prop :=
  ∀ write ∈ writes, write.1 ∈ paths ∧ write.2.Distinct

namespace Writes

variable {write : String × Json} {writes more : Writes} {paths others : List String}

theorem within_nil : Within [] paths := fun _ h => absurd h List.not_mem_nil

theorem within_cons : Within (write :: writes) paths ↔
    (write.1 ∈ paths ∧ write.2.Distinct) ∧ writes.Within paths :=
  List.forall_mem_cons

theorem Within.append (h : writes.Within paths) (h' : more.Within others) :
    (writes ++ more).Within (paths ++ others) := by
  intro write hwrite
  rcases List.mem_append.mp hwrite with hwrite | hwrite
  · exact (h write hwrite).imp_left (List.mem_append_left _)
  · exact (h' write hwrite).imp_left (List.mem_append_right _)

theorem Within.mono (h : writes.Within paths) (hsub : paths ⊆ others) : writes.Within others :=
  fun write hwrite => (h write hwrite).imp_left fun hmem => hsub hmem

theorem Within.distinct (h : writes.Within paths) : writes.Distinct :=
  fun write hwrite => (h write hwrite).2

/-- Writes at paths apart are apart. -/
theorem Within.apart (h : writes.Within paths) (h' : more.Within others)
    (hap : ∀ path ∈ paths, ∀ other ∈ others, ¬ Path.Comparable path other) :
    writes.Apart more :=
  fun write hwrite other hother => hap _ (h write hwrite).1 _ (h' other hother).1

end Writes

theorem Answers.distinct_verdict {answer : Answers} (h : answer.Distinct) (params payload : Json)
    (hverdict : answer.verdict params = .ok payload) : payload.Distinct := by
  unfold verdict at hverdict
  split at hverdict
  · exact absurd hverdict (by simp)
  · rename_i api _
    cases hreply : answer api.method api.url with
    | error error =>
      rw [hreply] at hverdict
      exact absurd hverdict (by simp [Except.mapError])
    | ok value =>
      rw [hreply] at hverdict
      exact Except.ok.inj hverdict ▸ h api.method api.url value hreply

/-- A call writes its target and what stands beside it. -/
theorem within_call (target : String) {verdict : Verdict}
    (h : ∀ payload, verdict = .ok payload → payload.Distinct) :
    (announcement target ++ settlement target verdict).Within
      [target, loadingKey target, errorKey target] := by
  cases verdict with
  | ok payload =>
    have hpayload := h payload rfl
    simp [announcement, settlement, Writes.within_cons, Writes.within_nil, Json.distinct_null,
      Json.distinct_bool, hpayload]
  | error message =>
    simp [announcement, settlement, Writes.within_cons, Writes.within_nil, Json.distinct_null,
      Json.distinct_bool, Json.distinct_text]

namespace Action

variable {answer : Answers}

mutual

/-- **Where a dispatch writes**: its course keeps to the paths of its actions. -/
theorem course_within (hanswer : answer.Distinct) : ∀ action : Action, action.Plain →
    (action.course answer).writes.Within action.paths
  | ⟨.setState, none, _, _, _⟩, _ => Writes.within_nil
  | ⟨.setState, some target, params, _, _⟩, h => by
    rw [course, paths]
    rw [Plain] at h
    exact Writes.within_cons.mpr ⟨⟨List.mem_singleton_self target, h.2⟩, Writes.within_nil⟩
  | ⟨.api, none, params, onSuccess, onError⟩, h => by
    rw [Plain] at h
    rw [course, paths]
    exact (courseAfter_within hanswer onError h.2.2).mono (by simp)
  | ⟨.api, some target, params, onSuccess, onError⟩, h => by
    rw [Plain] at h
    have hcall := within_call target (Answers.distinct_verdict hanswer (params.getD .null))
    have hsuccess := courseAfter_within hanswer onSuccess h.2.1
    have herror := courseAfter_within hanswer onError h.2.2
    rw [course, paths]
    split
    · exact hcall.append (hsuccess.mono (List.subset_append_left _ _))
    · exact hcall.append (herror.mono (List.subset_append_right _ _))
  | ⟨.submit, _, _, _, _⟩, h | ⟨.navigate, _, _, _, _⟩, h | ⟨.unknown _, _, _, _, _⟩, h => by
    simp [Plain] at h

theorem courseAfter_within (hanswer : answer.Distinct) : ∀ next : Option Action,
    PlainAfter next → (courseAfter answer next).writes.Within (pathsAfter next)
  | none, _ => Writes.within_nil
  | some action, h => by
    rw [courseAfter, pathsAfter]
    rw [PlainAfter] at h
    exact course_within hanswer action h

end

end Action

/-! ### Chains -/

namespace Action

variable {answer : Answers} {action : Action} {target : String}

/-- What a call of an action does from its end on, and what follows. -/
def courseOfCall (answer : Answers) (action : Action) (target : String) (verdict : Verdict) :
    Course :=
  match verdict with
  | .ok _ => (courseAfter answer action.onSuccess).after (settlement target verdict)
      (.ofAction action .succeeded)
  | .error _ => (courseAfter answer action.onError).after (settlement target verdict)
      (.ofAction action .failed)

/-- A call announces itself and then settles. -/
theorem course_of_api (answer : Answers) (hkind : action.kind = .api)
    (htarget : action.target = some target) :
    let ending := action.courseOfCall answer target (answer.verdict (action.params.getD .null))
    (action.course answer).writes = announcement target ++ ending.writes ∧
      (action.course answer).links = ending.links := by
  obtain ⟨kind, found, params, onSuccess, onError⟩ := action
  obtain rfl : kind = .api := hkind
  obtain rfl : found = some target := htarget
  rw [course]
  cases answer.verdict (params.getD .null) <;> exact ⟨List.append_assoc _ _ _, rfl⟩

end Action

/-- What a call in flight comes to. -/
def Call.verdict (call : Call) : Verdict := call.reply.mapError TransportError.message

namespace Chain

/-- The course that a chain has ahead of it, after the links it has settled. -/
def course (answer : Answers) (chain : Chain) : Course :=
  let ahead : Course := match chain.stage with
    | .ready action => action.course answer
    | .calling action call => action.courseOfCall answer call.target call.verdict
    | .done => .rest
  ⟨ahead.writes, chain.links ++ ahead.links⟩

/-- A chain runs plain actions. -/
def Plain (chain : Chain) : Prop :=
  match chain.stage with
  | .ready action => action.Plain
  | .calling action call => Action.PlainAfter action.onSuccess ∧ Action.PlainAfter action.onError ∧
      call.transform = none
  | .done => True

variable {setting : Setting} {world : World} {chain : Chain} {action : Action}
  {answer : Answers} {status : Status} {next : Option Action}

theorem plain_settle : (chain.settle world action status next).2.Plain ↔
    Action.PlainAfter next := by
  cases next with
  | none => exact Iff.rfl
  | some next => exact Iff.rfl

theorem course_settle : (chain.settle world action status next).2.course answer
    = ⟨(Action.courseAfter answer next).writes,
        chain.links ++ (.ofAction action status :: (Action.courseAfter answer next).links)⟩ := by
  cases next <;> simp [settle, course, Action.courseAfter, Course.rest]

/-- What a step leaves of a chain whose course is known: it does the next few writes. -/
structure Advances (answer : Answers) (world : World) (course : Course) (later : World)
    (chain : Chain) : Prop where
  plain : chain.Plain
  writes : ∃ now, later.store = world.store.setAll now ∧
    course.writes = now ++ (chain.course answer).writes
  links : (chain.course answer).links = course.links
  live : later.ended = false
  answers : later.transport.AnswersBy answer

/-- A link that settles at once, its writes done, leaves the course of what follows. -/
theorem advances_settle {later : World} {now : Writes} {course : Course}
    (hnext : Action.PlainAfter next) (hstore : later.store = world.store.setAll now)
    (hwrites : course.writes = now ++ (Action.courseAfter answer next).writes)
    (hlinks : course.links
      = chain.links ++ (.ofAction action status :: (Action.courseAfter answer next).links))
    (hlive : later.ended = false) (hanswers : later.transport.AnswersBy answer) :
    Advances answer world course (chain.settle later action status next).1
      (chain.settle later action status next).2 := by
  refine ⟨plain_settle.mpr hnext, ⟨now, hstore, ?_⟩, ?_, hlive, hanswers⟩
  · rw [course_settle, hwrites]
  · rw [course_settle, hlinks]

/-- A call that cannot be made announces itself and fails in one step. -/
theorem runApi_of_refused {later : World} {target : String} (htarget : action.target = some target)
    (h : world.startCall setting (action.callPlan target chain.event) = (later, none)) :
    chain.runApi setting world action = chain.settle later action .failed action.onError := by
  simp only [runApi, htarget, h]
  rfl

theorem runApi_of_sent {later : World} {target : String} {call : Call}
    (htarget : action.target = some target)
    (h : world.startCall setting (action.callPlan target chain.event) = (later, some call)) :
    chain.runApi setting world action = (later, { chain with stage := .calling action call }) := by
  simp only [runApi, htarget, h]

/-- A step that starts a call. -/
theorem runApi_course {event : Option Json} {links : DispatchReport} {target : String}
    (hkind : action.kind = .api) (htarget : action.target = some target)
    (hparams : (action.params.getD .null).Plain) (hsuccess : Action.PlainAfter action.onSuccess)
    (herror : Action.PlainAfter action.onError) (hlive : world.ended = false)
    (hanswers : world.transport.AnswersBy answer) :
    let chain : Chain := ⟨event, .ready action, links⟩
    Advances answer world (chain.course answer) (chain.runApi setting world action).1
      (chain.runApi setting world action).2 := by
  intro chain
  let plan := action.callPlan target event
  have hresolved : plan.resolved world = action.params.getD .null :=
    Scope.expandIn_of_plain _ _ hparams
  obtain ⟨hwrites, hlinks⟩ := Action.course_of_api answer hkind htarget
  cases hread : ApiCall.ofJson (action.params.getD .null) with
  | error error =>
    have hverdict : answer.verdict (action.params.getD .null) = .error (invalidParams error) := by
      rw [Answers.verdict, hread]
    rw [hverdict] at hwrites hlinks
    have hstart : world.startCall setting plan = _ :=
      World.startCall_of_error (hresolved ▸ hread)
    let writes := announcement target ++ settlement target (.error (invalidParams error))
    have hstore : ((world.markLoading target).settleFailure target (invalidParams error)).store
        = world.store.setAll writes := rfl
    rw [runApi_of_refused htarget hstart]
    refine advances_settle herror hstore ?_ ?_ hlive hanswers
    · exact hwrites.trans (List.append_assoc _ _ _).symm
    · exact congrArg (links ++ ·) hlinks
  | ok api =>
    have hverdict : answer.verdict (action.params.getD .null)
        = (answer api.method api.url).mapError TransportError.message := by
      rw [Answers.verdict, hread]
    let request := api.toRequest setting.options
    have hstart : world.startCall setting plan = _ := World.startCall_of_ok (hresolved ▸ hread)
    have hreply : (world.transport.send request).1 = answer api.method api.url :=
      hanswers.reply request
    -- What the call comes to is settled as its request goes out, and so is the rest of the course.
    have hcall : (plan.call (world.transport.send request) world.now).verdict
        = answer.verdict (action.params.getD .null) := by
      rw [hverdict, ← hreply]
      rfl
    rw [← hcall] at hwrites hlinks
    rw [runApi_of_sent htarget hstart]
    exact ⟨⟨hsuccess, herror, rfl⟩, ⟨announcement target, rfl, hwrites⟩,
      congrArg (links ++ ·) hlinks.symm, hlive, hanswers.send request⟩

/-- A step that starts an action. -/
theorem runAction_course {event : Option Json} {links : DispatchReport} (hplain : action.Plain)
    (hlive : world.ended = false) (hanswers : world.transport.AnswersBy answer) :
    let chain : Chain := ⟨event, .ready action, links⟩
    Advances answer world (chain.course answer) (chain.runAction setting world action).1
      (chain.runAction setting world action).2 := by
  intro chain
  obtain ⟨kind, target, params, onSuccess, onError⟩ := action
  have hnone : world.store = world.store.setAll [] := rfl
  cases kind with
  | setState =>
    rw [Action.Plain] at hplain
    cases target with
    | none => exact advances_settle trivial hnone rfl rfl hlive hanswers
    | some target =>
      have hvalue := (world.scope event).expandIn_of_plain _ hplain.1
      have hstore : (world.set target ((world.scope event).expandIn (params.getD .null))).store
          = world.store.setAll [(target, params.getD .null)] := by
        rw [hvalue]
        rfl
      exact advances_settle trivial hstore rfl rfl hlive hanswers
  | api =>
    rw [Action.Plain] at hplain
    obtain ⟨hparams, hsuccess, herror⟩ := hplain
    cases target with
    | none => exact advances_settle herror hnone rfl rfl hlive hanswers
    | some target => exact runApi_course rfl rfl hparams hsuccess herror hlive hanswers
  | submit => simp [Action.Plain] at hplain
  | navigate => simp [Action.Plain] at hplain
  | unknown name => simp [Action.Plain] at hplain

/-- **A step of a chain whose course is known** does the next few writes of it, whatever world it
finds, and leaves the rest ahead. -/
theorem step_course (setting : Setting) (hplain : chain.Plain) (hlive : world.ended = false)
    (hanswers : world.transport.AnswersBy answer) :
    Advances answer world (chain.course answer) (chain.step setting world).1
      (chain.step setting world).2 := by
  obtain ⟨event, stage, links⟩ := chain
  cases stage with
  | ready action =>
    rw [step_ready rfl hlive]
    exact runAction_course hplain hlive hanswers
  | calling action call =>
    obtain ⟨hsuccess, herror, htransform⟩ := hplain
    cases hreply : call.reply with
    | ok payload =>
      have hverdict : call.verdict = .ok payload := by
        rw [Call.verdict, hreply]
        rfl
      have hstore : (world.settleSuccess call.target payload).store
          = world.store.setAll (settlement call.target (.ok payload)) := rfl
      simp only [step, World.settleCall_of_ok hlive hreply, htransform, course, hverdict]
      exact advances_settle hsuccess hstore rfl rfl hlive hanswers
    | error error =>
      have hverdict : call.verdict = .error error.message := by
        rw [Call.verdict, hreply]
        rfl
      have hstore : (world.settleFailure call.target error.message).store
          = world.store.setAll (settlement call.target (.error error.message)) := rfl
      simp only [step, World.settleCall_of_error hlive hreply, course, hverdict]
      exact advances_settle herror hstore rfl rfl hlive hanswers
  | done => exact ⟨hplain, ⟨[], rfl, rfl⟩, rfl, hlive, hanswers⟩

end Chain

end ViewTree
