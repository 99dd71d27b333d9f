import ViewTree.Config.Build
import ViewTree.Proofs.Config.RoundTrip

/-!
# Configurations put together step by step

`Node.Built` says that a node comes from the building functions of `ViewTree.Config.Build`, with
values whose objects have distinct names, with no `null` for params or a body, and with no unknown
kind of action under a known name.  Any condition and any child may be given.

Not all of these read back as what they are, since a condition, content and an invalid child are
written as the bare value in them.  Reading takes a flag or a text for a condition of that form, an
object with a text for its type for a node, and, where it stands alone, `null` for no condition or
no children and an array for a list of them.  `Node.Faithful` says that no raw value of a node or of
a node below it is of a form that is read otherwise.

What building keeps is `Node.Sound`: all but the raw values is canonical.  So a node that is built
reads back as itself exactly if it is faithful, and every node that was read does
(`Node.round_trip`).
-/

namespace ViewTree

/-! ### Calls -/

namespace ApiCall

/-- A call that is put together step by step. -/
inductive Built : ApiCall → Prop where
  | get (url : String) : Built (.get url)
  | post (url : String) {body : Json} (hbody : body.Present) : Built (.post url body)
  | header {call : ApiCall} (name value : String) (hcall : Built call) :
    Built (call.header name value)

theorem Built.canonical {call : ApiCall} (h : call.Built) : call.Canonical := by
  induction h with
  | get url => exact ⟨List.Pairwise.nil, fun _ h => absurd h (Option.not_mem_none _)⟩
  | post url hbody =>
    refine ⟨List.Pairwise.nil, ?_⟩
    rintro value ⟨⟩
    exact hbody
  | header name value _ ih => exact ⟨Headers.sorted_insert ih.sorted, ih.body⟩

end ApiCall

theorem Headers.wellNamed_toJson {headers : Headers} (h : headers.Sorted) :
    headers.toJson.WellNamed := by
  refine Json.wellNamed_object.mpr ⟨?_, ?_⟩
  · rw [Fields.Distinct, Fields.names, List.map_map]
    refine List.pairwise_map.mpr (h.imp fun {one other} hlt heq => ?_)
    have hname : one.1 = other.1 := heq
    exact String.lt_irrefl other.1 (hname ▸ hlt)
  · intro entry hentry
    obtain ⟨header, -, rfl⟩ := List.mem_map.mp hentry
    exact Json.wellNamed_text _

/-- A call as a value has distinct names. -/
theorem ApiCall.wellNamed_toJson {call : ApiCall} (h : call.Canonical) :
    call.toJson.WellNamed := by
  have hheaders := Headers.wellNamed_toJson h.sorted
  have hbody : ∀ value ∈ call.body, value.WellNamed := fun value hvalue =>
    (h.body value hvalue).wellNamed
  refine Json.wellNamed_object.mpr ⟨?_, ?_⟩
  · cases call.body <;> cases call.headers.isEmpty <;>
      simp [Fields.Distinct, Fields.names, optionalField]
  · cases hvalue : call.body <;> cases call.headers.isEmpty <;>
      simp_all [optionalField]

/-! ### Actions -/

/-- A kind of action that is not unknown under one of the known names. -/
def ActionKind.Proper (kind : ActionKind) : Prop :=
  ∀ name, kind = .unknown name → name ∉ ["setState", "api", "submit", "navigate"]

theorem ActionKind.proper_of_ne {kind : ActionKind} (h : ∀ name, kind ≠ .unknown name) :
    kind.Proper := fun name heq => absurd heq (h name)

theorem ActionKind.Proper.ofName_name {kind : ActionKind} (h : kind.Proper) :
    ofName kind.name = kind := by
  cases kind with
  | unknown name =>
    have hname := h name rfl
    simp only [List.mem_cons, List.not_mem_nil, or_false, not_or] at hname
    obtain ⟨hset, hapi, hsubmit, hnavigate⟩ := hname
    rw [ActionKind.name, ofName, if_neg hset, if_neg hapi, if_neg hsubmit, if_neg hnavigate]
  | _ => rfl

namespace Action

/-- An action that is put together step by step. -/
inductive Built : Action → Prop where
  | ofKind {kind : ActionKind} (hkind : kind.Proper) : Built (.ofKind kind)
  | target {action : Action} (target : String) (haction : Built action) :
    Built (action.withTarget target)
  | params {action : Action} {params : Json} (hparams : params.Present) (haction : Built action) :
    Built (action.withParams params)
  | success {action next : Action} (haction : Built action) (hnext : Built next) :
    Built (action.withSuccess next)
  | error {action next : Action} (haction : Built action) (hnext : Built next) :
    Built (action.withError next)

theorem Built.setState (target : String) {params : Json} (h : params.Present) :
    Built (.setState target params) :=
  have hkind : ActionKind.Proper .setState := ActionKind.proper_of_ne (by simp)
  .params h (.target target (.ofKind hkind))

theorem Built.api (target : String) {call : ApiCall} (h : call.Built) :
    Built (.api target call) :=
  have hkind : ActionKind.Proper .api := ActionKind.proper_of_ne (by simp)
  have hparams : call.toJson.Present :=
    ⟨by simp [ApiCall.toJson], ApiCall.wellNamed_toJson h.canonical⟩
  .params hparams (.target target (.ofKind hkind))

theorem Built.navigate (location : String) : Built (.navigate location) :=
  have hkind : ActionKind.Proper .navigate := ActionKind.proper_of_ne (by simp)
  have hparams : (Json.text location).Present := ⟨by simp, Json.wellNamed_text location⟩
  .params hparams (.ofKind hkind)

theorem Built.canonical {action : Action} (h : action.Built) : action.Canonical := by
  induction h with
  | ofKind hkind =>
    exact .intro hkind.ofName_name (fun _ h => absurd h (Option.not_mem_none _))
      (fun _ h => absurd h (Option.not_mem_none _)) (fun _ h => absurd h (Option.not_mem_none _))
  | target target _ ih =>
    obtain ⟨hkind, hparams, hsuccess, herror⟩ := ih
    exact .intro hkind hparams hsuccess herror
  | params hparams _ ih =>
    obtain ⟨hkind, -, hsuccess, herror⟩ := ih
    refine .intro hkind ?_ hsuccess herror
    rintro value ⟨⟩
    exact hparams
  | success _ _ ih hnext =>
    obtain ⟨hkind, hparams, -, herror⟩ := ih
    refine .intro hkind hparams ?_ herror
    rintro next ⟨⟩
    exact hnext
  | error _ _ ih hnext =>
    obtain ⟨hkind, hparams, hsuccess, -⟩ := ih
    refine .intro hkind hparams hsuccess ?_
    rintro next ⟨⟩
    exact hnext

end Action

/-! ### Loads -/

namespace FetchSpec

/-- A load that is put together step by step. -/
inductive Built : FetchSpec → Prop where
  | load (key : String) {api : ApiCall} (hapi : api.Built) : Built (.load key api)
  | transform {spec : FetchSpec} (transform : String) (hspec : Built spec) :
    Built (spec.withTransform transform)
  | success {spec : FetchSpec} {next : Action} (hspec : Built spec) (hnext : next.Built) :
    Built (spec.withSuccess next)
  | error {spec : FetchSpec} {next : Action} (hspec : Built spec) (hnext : next.Built) :
    Built (spec.withError next)

theorem Built.canonical {spec : FetchSpec} (h : spec.Built) : spec.Canonical := by
  induction h with
  | load key hapi =>
    exact ⟨hapi.canonical, fun _ h => absurd h (Option.not_mem_none _),
      fun _ h => absurd h (Option.not_mem_none _)⟩
  | transform transform _ ih => exact ⟨ih.api, ih.onSuccess, ih.onError⟩
  | success _ hnext ih =>
    refine ⟨ih.api, ?_, ih.onError⟩
    rintro next ⟨⟩
    exact hnext.canonical
  | error _ hnext ih =>
    refine ⟨ih.api, ih.onSuccess, ?_⟩
    rintro next ⟨⟩
    exact hnext.canonical

end FetchSpec

/-! ### Raw values -/

namespace Children

theorem canonicalAll_iff {children : List Child} :
    CanonicalAll children ↔ ∀ child ∈ children, child.Canonical := by
  induction children with
  | nil => simp [CanonicalAll]
  | cons child children ih => rw [CanonicalAll, ih, List.forall_mem_cons]

theorem canonicalIn_iff {children : Option Children} : CanonicalIn children ↔
    (∀ child ∈ (children.map toList).getD [], child.Canonical) ∧
      ∀ child, children = some (.one child) →
        child.toJson ≠ .null ∧ ∀ items, child.toJson ≠ .array items := by
  match children with
  | none => simp [CanonicalIn]
  | some (.many list) => simp [CanonicalIn, Canonical, canonicalAll_iff, toList]
  | some (.one child) => simp [CanonicalIn, Canonical, toList]

end Children

/-- A node that holds no raw value of a form that is read otherwise, and no node below it does. -/
inductive Node.Faithful : Node → Prop where
  | intro {node : Node}
      (condition : ∀ value, node.condition = some (.other value) →
        value ≠ .null ∧ (∀ b, value ≠ .bool b) ∧ ∀ s, value ≠ .text s)
      (alone : ∀ value, node.children = some (.one (.content value)) →
        value ≠ .null ∧ ∀ items, value ≠ .array items)
      (content : ∀ value, .content value ∈ node.childList → ¬ value.Typed)
      (invalid : ∀ value, .invalid value ∈ node.childList →
        value.Typed ∧ ∀ inner, ofJson value ≠ .ok inner)
      (nodes : ∀ inner, .node inner ∈ node.childList → Faithful inner) : Faithful node

namespace Node

/-- A canonical node is faithful if the nodes below it are. -/
theorem Canonical.faithful {node : Node} (h : node.Canonical)
    (hnodes : ∀ inner, .node inner ∈ node.childList → inner.Faithful) : node.Faithful := by
  obtain ⟨hsettled, hchildren⟩ := canonical_iff.mp h
  obtain ⟨hall, halone⟩ := Children.canonicalIn_iff.mp hchildren
  refine .intro ?condition ?alone ?content ?invalid hnodes
  case condition =>
    intro value hvalue
    obtain ⟨hdescribed, hpresent⟩ := hsettled.condition _ hvalue
    refine ⟨hpresent.ne_null, ?_, ?_⟩
    · rintro b rfl
      exact nomatch hdescribed
    · rintro s rfl
      exact nomatch hdescribed
  case alone =>
    intro value hvalue
    have hlooks := halone _ hvalue
    rwa [Child.toJson] at hlooks
  case content => exact fun value hmem => (Child.ofJson_eq_content.mp (hall _ hmem)).1
  case invalid =>
    intro value hmem
    obtain ⟨htyped, hnone, -⟩ := Child.ofJson_eq_invalid.mp (hall _ hmem)
    exact ⟨htyped, hnone⟩

end Node

mutual

/-- Every canonical node is faithful.  By induction on the tree. -/
theorem Node.faithful_of_canonical : ∀ node : Node, node.Canonical → node.Faithful
  | ⟨_, _, children, _, _, _, _, _, _⟩, h =>
    h.faithful (Children.faithful_of_canonicalIn children (Node.canonical_iff.mp h).2)

theorem Children.faithful_of_canonicalIn : ∀ children : Option Children,
    Children.CanonicalIn children →
    ∀ inner, Child.node inner ∈ (children.map Children.toList).getD [] → inner.Faithful
  | none, _ => fun _ hmem => absurd hmem List.not_mem_nil
  | some (.many children), h => Children.faithful_of_canonicalAll children h
  | some (.one child), h => fun inner hmem =>
    Child.faithful_of_canonical child h.1 inner (List.mem_singleton.mp hmem).symm

theorem Children.faithful_of_canonicalAll : ∀ children : List Child,
    Children.CanonicalAll children → ∀ inner, Child.node inner ∈ children → inner.Faithful
  | [], _ => fun _ hmem => absurd hmem List.not_mem_nil
  | child :: children, h => fun inner hmem => (List.mem_cons.mp hmem).elim
    (fun heq => Child.faithful_of_canonical child h.1 inner heq.symm)
    (Children.faithful_of_canonicalAll children h.2 inner)

theorem Child.faithful_of_canonical : ∀ child : Child, child.Canonical →
    ∀ inner, child = .node inner → inner.Faithful
  | .node node, h => fun _ heq => Child.node.inj heq ▸ Node.faithful_of_canonical node h
  | .content _, _ | .invalid _, _ => nofun

end

/-! ### Nodes -/

namespace Node

/-- A node that is put together step by step. -/
inductive Built : Node → Prop where
  | ofKind (kind : String) : Built (.ofKind kind)
  /-- A node that was read may be built on. -/
  | read {value : Json} {node : Node} (h : Node.ofJson value = .ok node) : Built node
  | prop {node : Node} (name : String) {value : Json} (hvalue : value.WellNamed)
    (hnode : Built node) : Built (node.prop name value)
  | node {node inner : Node} (hnode : Built node) (hinner : Built inner) :
    Built (node.child (.node inner))
  | content {node : Node} (value : Json) (hnode : Built node) : Built (node.child (.content value))
  | invalid {node : Node} (value : Json) (hnode : Built node) : Built (node.child (.invalid value))
  | condition {node : Node} {condition : Condition} (hcondition : condition.toJson.WellNamed)
    (hnode : Built node) : Built (node.when condition)
  | items {node : Node} {items : List Json} (hitems : (Json.array items).WellNamed)
    (hnode : Built node) : Built (node.repeatedOver (.items items))
  | source {node : Node} (key : String) (hnode : Built node) :
    Built (node.repeatedOver (.source key))
  | bind {node : Node} (prop : String) (binding : DataBinding) (hnode : Built node) :
    Built (node.bind prop binding)
  | on {node : Node} (event : EventKind) {action : Action} (haction : action.Built)
    (hnode : Built node) : Built (node.on event action)
  | fetch {node : Node} {spec : FetchSpec} (hspec : spec.Built) (hnode : Built node) :
    Built (node.fetch spec)

theorem Built.text {node : Node} (text : String) (hnode : node.Built) : (node.text text).Built :=
  .content (.text text) hnode

theorem mem_childList_child {node : Node} {child other : Child} :
    other ∈ (node.child child).childList ↔ other ∈ node.childList ∨ other = child := by
  obtain ⟨kind, props, children, condition, repetition, key, events, bindings, fetches⟩ := node
  match children with
  | none => simp [childList, Node.child, Children.append, Children.toList]
  | some (.one first) => simp [childList, Node.child, Children.append, Children.toList]
  | some (.many list) => simp [childList, Node.child, Children.append, Children.toList]

/-- A node of which all but the raw values is canonical. -/
structure Sound (node : Node) : Prop where
  settled : Settled { node with condition := none }
  condition : ∀ condition ∈ node.condition, condition.toJson.WellNamed
  nodes : ∀ inner, .node inner ∈ node.childList → inner.Faithful → inner.Canonical

namespace Sound

variable {node : Node}

theorem of_canonical (h : node.Canonical) : node.Sound := by
  obtain ⟨hsettled, hchildren⟩ := canonical_iff.mp h
  refine ⟨{ hsettled with condition := ?_ }, ?_, ?_⟩
  · exact fun _ h => absurd h (Option.not_mem_none _)
  · exact fun condition hmem => (hsettled.condition condition hmem).present.wellNamed
  · exact fun inner hmem _ => (Children.canonicalIn_iff.mp hchildren).1 _ hmem

/-- A child that is no node leaves a node sound, as does one that is canonical if it is faithful. -/
theorem child (h : node.Sound) {child : Child}
    (hchild : ∀ inner, child = .node inner → inner.Faithful → inner.Canonical) :
    (node.child child).Sound := by
  refine ⟨{ h.settled with }, h.condition, ?_⟩
  intro inner hmem
  rcases mem_childList_child.mp hmem with hold | hnew
  · exact h.nodes inner hold
  · exact hchild inner hnew.symm

/-- A sound node whose raw values are faithful is canonical. -/
theorem canonical (h : node.Sound) (hfaithful : node.Faithful) : node.Canonical := by
  obtain ⟨hcondition, halone, hcontent, hinvalid, hnodes⟩ := hfaithful
  refine canonical_iff.mpr
    ⟨{ h.settled with condition := ?condition }, Children.canonicalIn_iff.mpr ⟨?all, ?alone⟩⟩
  case condition =>
    intro condition hmem
    have hnamed := h.condition condition hmem
    cases condition with
    | flag b => exact ⟨rfl, by simp [Condition.toJson], hnamed⟩
    | expression s => exact ⟨rfl, by simp [Condition.toJson], hnamed⟩
    | other value =>
      obtain ⟨hnull, hflag, htext⟩ := hcondition value hmem
      refine ⟨?_, hnull, hnamed⟩
      cases value with
      | bool b => exact absurd rfl (hflag b)
      | text s => exact absurd rfl (htext s)
      | _ => rfl
  case all =>
    intro child hmem
    cases child with
    | node inner => exact h.nodes inner hmem (hnodes inner hmem)
    | content value => exact Child.ofJson_of_not_typed (hcontent value hmem)
    | invalid value =>
      obtain ⟨htyped, hnone⟩ := hinvalid value hmem
      exact Child.ofJson_eq_invalid.mpr ⟨htyped, hnone, rfl⟩
  case alone =>
    intro child hone
    cases child with
    | node inner =>
      obtain ⟨fields, hfields⟩ := inner.exists_toJson_eq
      rw [Child.toJson, hfields]
      simp
    | content value => exact halone value hone
    | invalid value =>
      have hmem : .invalid value ∈ node.childList := by simp [childList, hone, Children.toList]
      exact (hinvalid value hmem).1.single

end Sound

/-- Building keeps a node sound. -/
theorem Built.sound {node : Node} (h : node.Built) : node.Sound := by
  induction h with
  | ofKind kind =>
    refine ⟨⟨Json.wellNamed_object_nil, ?_, ?_, ?_, ?_, List.nodup_nil, ?_⟩, ?_, ?_⟩
    · exact fun _ h => absurd h (Option.not_mem_none _)
    · exact fun _ h => absurd h (Option.not_mem_none _)
    · exact fun _ h => absurd h (Option.not_mem_none _)
    · exact fun _ h => absurd h List.not_mem_nil
    · exact fun _ h => absurd h List.not_mem_nil
    · exact fun _ h => absurd h (Option.not_mem_none _)
    · exact fun _ h => absurd h List.not_mem_nil
  | read h => exact .of_canonical (canonical_of_ofJson h)
  | prop name hvalue _ ih =>
    refine ⟨{ ih.settled with props := ?_ }, ih.condition, ih.nodes⟩
    exact Fields.wellNamed_insert ih.settled.props hvalue
  | @node node inner _ _ ih hinner =>
    refine ih.child ?_
    rintro inner ⟨⟩ hfaithful
    exact hinner.canonical hfaithful
  | content value _ ih => exact ih.child nofun
  | invalid value _ ih => exact ih.child nofun
  | condition hcondition _ ih =>
    refine ⟨ih.settled, ?_, ih.nodes⟩
    rintro condition ⟨⟩
    exact hcondition
  | items hitems _ ih =>
    refine ⟨{ ih.settled with repetition := ?_ }, ih.condition, ih.nodes⟩
    rintro repetition ⟨⟩
    exact hitems
  | source key _ ih =>
    refine ⟨{ ih.settled with repetition := ?_ }, ih.condition, ih.nodes⟩
    rintro repetition ⟨⟩
    exact Json.wellNamed_text key
  | bind prop binding _ ih =>
    refine ⟨{ ih.settled with bindings := ?_ }, ih.condition, ih.nodes⟩
    exact Bindings.distinct_insert ih.settled.bindings
  | on event haction _ ih =>
    refine ⟨{ ih.settled with events := ?_ }, ih.condition, ih.nodes⟩
    exact List.forall_mem_append.mpr
      ⟨ih.settled.events, List.forall_mem_singleton.mpr haction.canonical⟩
  | fetch hspec _ ih =>
    refine ⟨{ ih.settled with fetches := ?_ }, ih.condition, ih.nodes⟩
    exact List.forall_mem_append.mpr
      ⟨ih.settled.fetches, List.forall_mem_singleton.mpr hspec.canonical⟩

/-- **Reading back.**  A node that was read reads back as itself, and one that was put together step
by step does exactly if no raw value in it or below it is of a form that is read otherwise. -/
theorem round_trip :
    (∀ {value : Json} {node : Node}, ofJson value = .ok node → ofJson node.toJson = .ok node) ∧
      ∀ {node : Node}, node.Built → (ofJson node.toJson = .ok node ↔ node.Faithful) := by
  refine ⟨fun h => ofJson_toJson _ (canonical_of_ofJson h), fun {node} hbuilt => ⟨?_, ?_⟩⟩
  · intro hread
    exact node.faithful_of_canonical (canonical_of_ofJson hread)
  · intro hfaithful
    exact ofJson_toJson node (hbuilt.sound.canonical hfaithful)

/-- A card with a malformed child, as it was read, and a button that is put together, on which
`null` and a text stand side by side. -/
theorem round_trip_card :
    let button := (((ofKind "Button").child (.content .null)).text "Load").on .click
      ((Action.api "users" (.get "/users")).withSuccess (.navigate "/"))
    (∃ node, ofJson (.object [("type", .text "Card"), ("children", .array
          [.text "a", .object [("type", .text "Box"), ("props", .null)]])]) = .ok node ∧
        ofJson node.toJson = .ok node) ∧
      button.Built ∧ button.Faithful ∧ ofJson button.toJson = .ok button := by
  intro button
  obtain ⟨node, hread⟩ : ∃ node, ofJson (.object [("type", .text "Card"), ("children", .array
      [.text "a", .object [("type", .text "Box"), ("props", .null)]])]) = .ok node := ⟨_, rfl⟩
  have hbuilt : button.Built :=
    .on .click (.success (.api "users" (.get "/users")) (.navigate "/"))
      (.text "Load" (.content .null (.ofKind "Button")))
  have hchildren : button.childList = [.content .null, .content (.text "Load")] := rfl
  have hfaithful : button.Faithful := by
    refine .intro nofun nofun ?_ ?_ ?_ <;> rw [hchildren]
    · intro value hmem
      have hvalue : value = .null ∨ value = .text "Load" := by simpa using hmem
      rcases hvalue with rfl | rfl <;> exact Json.not_typed rfl
    · simp
    · simp
  exact ⟨⟨node, hread, round_trip.1 hread⟩, hbuilt, hfaithful,
    (round_trip.2 hbuilt).mpr hfaithful⟩

/-- A condition that holds a flag is read as the flag, and content that looks like a node as the
node. -/
theorem reads_otherwise :
    let flagged := (ofKind "div").when (.other (.bool true))
    let listed := (ofKind "div").child (.content (.object [("type", .text "span")]))
    (flagged.Built ∧ ofJson flagged.toJson = .ok ((ofKind "div").when (.flag true)) ∧
        ofJson flagged.toJson ≠ .ok flagged) ∧
      listed.Built ∧ ofJson listed.toJson = .ok ((ofKind "div").child (.node (ofKind "span"))) ∧
        ofJson listed.toJson ≠ .ok listed := by
  intro flagged listed
  have hflagged : ofJson flagged.toJson = .ok ((ofKind "div").when (.flag true)) := rfl
  have hlisted : ofJson listed.toJson = .ok ((ofKind "div").child (.node (ofKind "span"))) := rfl
  refine ⟨⟨.condition (Json.wellNamed_bool true) (.ofKind "div"), hflagged, ?_⟩,
    .content _ (.ofKind "div"), hlisted, ?_⟩
  · rw [hflagged]
    simp [flagged, Node.when]
  · rw [hlisted]
    simp [listed, Node.child, Children.append, ofKind]

end Node

end ViewTree
