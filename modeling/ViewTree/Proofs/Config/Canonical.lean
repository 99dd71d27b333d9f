import ViewTree.Config.Encode
import ViewTree.Proofs.Config.Children
import ViewTree.Proofs.Config.Decode

/-!
# Canonical configurations

A configuration is canonical when nothing in it would read as something else: no field holds a
`null` that stands for absence, headers are in order, no prop is bound twice, a kind of action is
not unknown under a known name, and every child is what its value describes.

Whatever is read is canonical (`Node.canonical_of_ofJson`).
-/

namespace ViewTree

/-! ### Remote calls -/

namespace Headers

variable {headers : Headers} {name value : String}

/-- The names of headers increase. -/
def Sorted (headers : Headers) : Prop := headers.Pairwise fun one other => one.1 < other.1

theorem mem_insert {entry : String × String} (h : entry ∈ insert name value headers) :
    entry = (name, value) ∨ entry ∈ headers := by
  induction headers with
  | nil => exact .inl (List.mem_singleton.mp h)
  | cons first headers ih =>
    obtain ⟨other, old⟩ := first
    rw [insert] at h
    split at h
    · exact (List.mem_cons.mp h).imp_right (List.mem_cons_of_mem _)
    · split at h
      · exact List.mem_cons.mp h
      · rcases List.mem_cons.mp h with rfl | h
        · exact .inr List.mem_cons_self
        · exact (ih h).imp_right (List.mem_cons_of_mem _)

theorem sorted_insert (h : headers.Sorted) : (headers.insert name value).Sorted := by
  induction headers with
  | nil => exact List.pairwise_singleton _ _
  | cons first headers ih =>
    obtain ⟨other, old⟩ := first
    obtain ⟨hfirst, hrest⟩ := List.pairwise_cons.mp h
    rw [insert]
    split
    · rename_i heq
      exact List.pairwise_cons.mpr ⟨fun entry hentry => heq ▸ hfirst entry hentry, hrest⟩
    · rename_i hne
      split
      · rename_i hlt
        refine List.pairwise_cons.mpr ⟨fun entry hentry => ?_, h⟩
        rcases List.mem_cons.mp hentry with rfl | hentry
        · exact hlt
        · exact String.lt_trans hlt (hfirst entry hentry)
      · rename_i hnlt
        have hgt : other < name := Std.lt_of_le_of_ne hnlt (Ne.symm hne)
        refine List.pairwise_cons.mpr ⟨fun entry hentry => ?_, ih hrest⟩
        rcases mem_insert hentry with rfl | hentry
        · exact hgt
        · exact hfirst entry hentry

/-- A name after all others goes to the end. -/
theorem insert_of_lt (h : ∀ entry ∈ headers, entry.1 < name) :
    headers.insert name value = headers ++ [(name, value)] := by
  induction headers with
  | nil => rfl
  | cons first headers ih =>
    obtain ⟨hfirst, hrest⟩ := List.forall_mem_cons.mp h
    have hne : name ≠ first.1 := fun heq => String.lt_irrefl name (heq ▸ hfirst)
    rw [insert, if_neg hne, if_neg (String.lt_asymm hfirst), ih hrest, List.cons_append]

end Headers

namespace ApiCall

/-- A call whose headers are in order and whose body is not `null`. -/
structure Canonical (call : ApiCall) : Prop where
  sorted : call.headers.Sorted
  body : ∀ value ∈ call.body, value.Present

/-- The call whose fields have been read. -/
def Partial.finish (call : Partial) : ApiCall :=
  { url := call.url.getD "", method := call.method.getD .get, headers := call.headers.getD [],
    body := call.body.getD none }

theorem decode_eq (source : Source) (draft : Draft) :
    decode source draft = Partial.finish <$> rule.read source draft {} := rfl

theorem canonical_of_decode {source : Source} {draft : Draft} {call : ApiCall}
    (h : decode source draft = .ok call) : call.Canonical := by
  rw [decode_eq] at h
  obtain ⟨record, hrecord, rfl⟩ := map_eq_ok.mp h
  have hkeeps : rule.Keeps (fun _ => True) (fun record => record.finish.Canonical) := by
    simp only [RecordRule.Keeps, rule, List.forall_mem_cons]
    refine ⟨?url, ?method, ?headers, ?body, fun _ h => absurd h List.not_mem_nil⟩
    case url => exact FieldRule.keeps_ofSlot fun _ h _ => ⟨h.sorted, h.body⟩
    case method => exact FieldRule.keeps_ofSlot fun _ h _ => ⟨h.sorted, h.body⟩
    case headers =>
      refine FieldRule.keeps_ofSlot fun _ h hread => ⟨?_, h.body⟩
      have hempty : Headers.Sorted [] := List.Pairwise.nil
      exact Decode.map_holds (fun _ => trivial) (fun _ _ _ (_ : True) h => Headers.sorted_insert h)
        hempty hread
    case body =>
      refine FieldRule.keeps_ofSlot fun _ h hread => ⟨h.sorted, ?_⟩
      rintro value rfl
      exact Decode.present_of_optional_json hread
  have hempty : ({} : Partial).finish.Canonical := ⟨List.Pairwise.nil, fun _ h => (nomatch h)⟩
  exact hkeeps.read hempty hrecord

end ApiCall

/-! ### Actions -/

namespace ActionKind

theorem ofName_name_ofName (name : String) : ofName (ofName name).name = ofName name := by
  unfold ofName
  split
  · rfl
  · split
    · rfl
    · split
      · rfl
      · split
        · rfl
        · rename_i hset hapi hsubmit hnavigate
          rw [ActionKind.name, if_neg hset, if_neg hapi, if_neg hsubmit, if_neg hnavigate]

end ActionKind

namespace Action

/-- An action, and every action that follows it, whose kind is not unknown under a known name and
whose params are not `null`. -/
inductive Canonical : Action → Prop where
  | intro {action : Action} (kind : ActionKind.ofName action.kind.name = action.kind)
      (params : ∀ value ∈ action.params, value.Present)
      (onSuccess : ∀ next ∈ action.onSuccess, Canonical next)
      (onError : ∀ next ∈ action.onError, Canonical next) : Canonical action

/-- What a field of an action is given as would be a canonical action. -/
def Given.Sound (given : Given) : Prop :=
  ∀ source action, given.2 source = .ok action → action.Canonical

theorem canonical_of_readContinuation {source : Source} {given : Given} {action : Action}
    (hgiven : given.Sound) (h : readContinuation source given = .ok (some action)) :
    action.Canonical := by
  unfold readContinuation at h
  split at h
  · cases h
  · obtain ⟨next, hnext, heq⟩ := map_eq_ok.mp h
    cases heq
    exact hgiven _ _ hnext

theorem rule_keeps_canonical :
    rule.Keeps Given.Sound (fun record => record.finish.Canonical) := by
  simp only [RecordRule.Keeps, rule, List.forall_mem_cons]
  refine ⟨?action, ?target, ?params, ?success, ?error, fun _ h => absurd h List.not_mem_nil⟩
  case action =>
    refine FieldRule.keeps_ofSlot fun _ h hread => ?_
    obtain ⟨name, -, rfl⟩ := map_eq_ok.mp hread
    obtain ⟨-, hparams, hsuccess, herror⟩ := h
    exact .intro (ActionKind.ofName_name_ofName name) hparams hsuccess herror
  case target =>
    refine FieldRule.keeps_ofSlot fun _ h _ => ?_
    obtain ⟨hkind, hparams, hsuccess, herror⟩ := h
    exact .intro hkind hparams hsuccess herror
  case params =>
    refine FieldRule.keeps_ofSlot fun _ h hread => ?_
    obtain ⟨hkind, -, hsuccess, herror⟩ := h
    refine .intro hkind ?_ hsuccess herror
    rintro value rfl
    exact Decode.present_of_optional_json hread
  case success =>
    refine FieldRule.keeps_ofSlot fun hgiven h hread => ?_
    obtain ⟨hkind, hparams, -, herror⟩ := h
    refine .intro hkind hparams ?_ herror
    rintro next rfl
    exact canonical_of_readContinuation hgiven hread
  case error =>
    refine FieldRule.keeps_ofSlot fun hgiven h hread => ?_
    obtain ⟨hkind, hparams, hsuccess, -⟩ := h
    refine .intro hkind hparams hsuccess ?_
    rintro next rfl
    exact canonical_of_readContinuation hgiven hread

theorem canonical_finish_empty : ({} : Partial).finish.Canonical :=
  .intro rfl (fun _ h => (nomatch h)) (fun _ h => (nomatch h)) (fun _ h => (nomatch h))

mutual

theorem canonical_of_decodeDraft : ∀ (draft : Draft) (source : Source) (action : Action),
    decodeDraft draft source = .ok action → action.Canonical
  | .object entries _, _, _, h => by
    rw [decodeDraft] at h
    obtain ⟨record, hrecord, rfl⟩ := map_eq_ok.mp h
    exact rule_keeps_canonical.readObject (sound_givenEntries entries) canonical_finish_empty
      hrecord
  | .array items _, _, _, h => by
    rw [decodeDraft] at h
    obtain ⟨record, hrecord, rfl⟩ := map_eq_ok.mp h
    exact rule_keeps_canonical.readArray (sound_givenItems items) canonical_finish_empty hrecord
  | .null, _, _, h | .bool _, _, _, h | .number _, _, _, h | .text _, _, _, h
  | .unreadable, _, _, h | .broken _ _ _, _, _, h => by
    rw [decodeDraft] at h
    · exact absurd h Decode.wrongType_ne_ok
    · nofun
    · nofun

theorem sound_givenEntries : ∀ entries : List (Option String × Draft),
    ∀ entry ∈ givenEntries entries, Given.Sound entry.2.2
  | [] => fun _ h => absurd h List.not_mem_nil
  | (_, draft) :: entries =>
    List.forall_mem_cons.mpr ⟨canonical_of_decodeDraft draft, sound_givenEntries entries⟩

theorem sound_givenItems : ∀ items : List Draft, ∀ item ∈ givenItems items, Given.Sound item.2
  | [] => fun _ h => absurd h List.not_mem_nil
  | draft :: items =>
    List.forall_mem_cons.mpr ⟨canonical_of_decodeDraft draft, sound_givenItems items⟩

end

/-- Every action that is read is canonical. -/
theorem canonical_of_decode {source : Source} {draft : Draft} {action : Action}
    (h : decode source draft = .ok action) : action.Canonical :=
  canonical_of_decodeDraft draft source action h

end Action

theorem EventAction.canonical_of_decode {source : Source} {draft : Draft} {binding : EventAction}
    (h : decode source draft = .ok binding) : binding.action.Canonical := by
  cases draft with
  | object entries ending =>
    obtain ⟨inner, -, h⟩ := bind_eq_ok.mp h
    obtain ⟨⟨event, collected⟩, -, h⟩ := bind_eq_ok.mp h
    obtain ⟨-, -, h⟩ := bind_eq_ok.mp h
    cases event with
    | none => cases h
    | some event =>
      obtain ⟨action, haction, h⟩ := bind_eq_ok.mp h
      cases h
      exact Action.canonical_of_decode haction
  | _ =>
    unfold decode at h
    exact absurd h Decode.wrongType_ne_ok

/-! ### Loads -/

namespace FetchSpec

/-- A load whose call and continuations are canonical. -/
structure Canonical (spec : FetchSpec) : Prop where
  api : spec.api.Canonical
  onSuccess : ∀ next ∈ spec.onSuccess, next.Canonical
  onError : ∀ next ∈ spec.onError, next.Canonical

/-- The load whose fields have been read. -/
def Partial.finish (spec : Partial) : FetchSpec :=
  { key := spec.key.getD "", api := spec.api.getD default, transform := spec.transform.getD none,
    onSuccess := spec.onSuccess.getD none, onError := spec.onError.getD none }

theorem decode_eq (source : Source) (draft : Draft) :
    decode source draft = Partial.finish <$> rule.read source draft {} := rfl

theorem canonical_of_decode {source : Source} {draft : Draft} {spec : FetchSpec}
    (h : decode source draft = .ok spec) : spec.Canonical := by
  rw [decode_eq] at h
  obtain ⟨record, hrecord, rfl⟩ := map_eq_ok.mp h
  have hkeeps : rule.Keeps (fun _ => True) (fun record => record.finish.Canonical) := by
    simp only [RecordRule.Keeps, rule, List.forall_mem_cons]
    refine ⟨?key, ?api, ?transform, ?success, ?error, fun _ h => absurd h List.not_mem_nil⟩
    case key => exact FieldRule.keeps_ofSlot fun _ h _ => ⟨h.api, h.onSuccess, h.onError⟩
    case api =>
      exact FieldRule.keeps_ofSlot fun _ h hread =>
        ⟨ApiCall.canonical_of_decode hread, h.onSuccess, h.onError⟩
    case transform => exact FieldRule.keeps_ofSlot fun _ h _ => ⟨h.api, h.onSuccess, h.onError⟩
    case success =>
      refine FieldRule.keeps_ofSlot fun _ h hread => ⟨h.api, ?_, h.onError⟩
      rintro next rfl
      exact Action.canonical_of_decode (Decode.optional_eq_some hread).2
    case error =>
      refine FieldRule.keeps_ofSlot fun _ h hread => ⟨h.api, h.onSuccess, ?_⟩
      rintro next rfl
      exact Action.canonical_of_decode (Decode.optional_eq_some hread).2
  have hempty : ({} : Partial).finish.Canonical :=
    ⟨⟨List.Pairwise.nil, fun _ h => (nomatch h)⟩, fun _ h => (nomatch h), fun _ h => (nomatch h)⟩
  exact hkeeps.read hempty hrecord

end FetchSpec

/-! ### The other fields of a node -/

namespace Condition

/-- A condition that its value describes. -/
structure Canonical (condition : Condition) : Prop where
  described : ofJson condition.toJson = condition
  present : condition.toJson.Present

theorem toJson_ofJson (value : Json) : (ofJson value).toJson = value := by
  cases value <;> rfl

theorem canonical_of_optional_decode {source : Source} {draft : Draft} {condition : Condition}
    (h : Decode.optional decode source draft = .ok (some condition)) : condition.Canonical := by
  obtain ⟨hne, h⟩ := Decode.optional_eq_some h
  obtain ⟨value, hvalue, rfl⟩ := map_eq_ok.mp h
  have hread := Decode.lift_eq_ok.mp hvalue
  refine ⟨by rw [toJson_ofJson], ?_⟩
  rw [toJson_ofJson]
  refine ⟨?_, Draft.wellNamed_read draft hread⟩
  rintro rfl
  exact hne (Draft.eq_null_of_read hread)

end Condition

namespace Repeat

/-- A repetition whose items have distinct names. -/
def Canonical (repetition : Repeat) : Prop := repetition.toJson.WellNamed

theorem ofJson?_toJson (repetition : Repeat) : ofJson? repetition.toJson = some repetition := by
  cases repetition <;> rfl

theorem toJson_of_ofJson? {value : Json} {repetition : Repeat}
    (h : ofJson? value = some repetition) : repetition.toJson = value := by
  cases value <;> cases h <;> rfl

theorem canonical_of_decode {source : Source} {draft : Draft} {repetition : Repeat}
    (h : decode source draft = .ok repetition) : repetition.Canonical := by
  obtain ⟨value, hvalue, h⟩ := bind_eq_ok.mp h
  split at h
  · rename_i other hother
    cases h
    rw [Canonical, toJson_of_ofJson? hother]
    exact Draft.wellNamed_read draft (Decode.lift_eq_ok.mp hvalue)
  · cases h

end Repeat

namespace Bindings

/-- No prop is bound twice. -/
def Distinct (bindings : Bindings) : Prop := (bindings.map Prod.fst).Nodup

variable {bindings : Bindings} {prop other : String} {binding : DataBinding}

theorem mem_insert : other ∈ (insert prop binding bindings).map Prod.fst ↔
    other = prop ∨ other ∈ bindings.map Prod.fst := by
  induction bindings with
  | nil => simp [insert]
  | cons entry bindings ih =>
    rw [insert]
    split
    · rename_i heq
      simp [heq]
    · simp only [List.map_cons, List.mem_cons, ih]
      tauto

theorem distinct_insert (h : bindings.Distinct) : (bindings.insert prop binding).Distinct := by
  induction bindings with
  | nil => exact List.nodup_singleton _
  | cons entry bindings ih =>
    obtain ⟨hnew, hrest⟩ := List.nodup_cons.mp h
    rw [insert]
    split
    · exact List.nodup_cons.mpr ⟨hnew, hrest⟩
    · rename_i hne
      refine List.nodup_cons.mpr ⟨?_, ih hrest⟩
      exact fun hmem => (mem_insert.mp hmem).elim hne hnew

/-- A prop that is not bound yet goes to the end. -/
theorem insert_of_not_mem (h : prop ∉ bindings.map Prod.fst) :
    bindings.insert prop binding = bindings ++ [(prop, binding)] := by
  induction bindings with
  | nil => rfl
  | cons entry bindings ih =>
    obtain ⟨hne, hrest⟩ := not_or.mp (List.mem_cons.not.mp h)
    rw [insert, if_neg (Ne.symm hne), ih hrest, List.cons_append]

theorem distinct_of_decode {source : Source} {draft : Draft} {bindings : Bindings}
    (h : decode source draft = .ok bindings) : bindings.Distinct := by
  have hempty : Distinct [] := List.nodup_nil
  exact Decode.map_holds (fun _ => trivial) (fun _ _ _ (_ : True) h => distinct_insert h) hempty h

end Bindings

/-! ### Nodes -/

/-- A node whose fields other than its children are canonical. -/
structure Node.Settled (node : Node) : Prop where
  props : (Json.object node.props).WellNamed
  condition : ∀ condition ∈ node.condition, condition.Canonical
  repetition : ∀ repetition ∈ node.repetition, repetition.Canonical
  key : ∀ key ∈ node.key, key.Present
  events : ∀ binding ∈ node.events, binding.action.Canonical
  bindings : node.bindings.Distinct
  fetches : ∀ spec ∈ node.fetches, spec.Canonical

mutual

/-- A node whose fields are canonical, its children among them. -/
def Node.Canonical : Node → Prop
  | ⟨kind, props, children, condition, repetition, key, events, bindings, fetches⟩ =>
    Node.Settled ⟨kind, props, children, condition, repetition, key, events, bindings, fetches⟩
      ∧ Children.CanonicalIn children

/-- No children, or canonical ones. -/
def Children.CanonicalIn : Option Children → Prop
  | none => True
  | some children => Children.Canonical children

/-- Canonical children.  A child that stands alone must not look like none or like a list. -/
def Children.Canonical : Children → Prop
  | .many children => Children.CanonicalAll children
  | .one child =>
    Child.Canonical child ∧ child.toJson ≠ .null ∧ ∀ items, child.toJson ≠ .array items

/-- Every child of a list is canonical. -/
def Children.CanonicalAll : List Child → Prop
  | [] => True
  | child :: children => Child.Canonical child ∧ Children.CanonicalAll children

/-- A child that its value describes. -/
def Child.Canonical : Child → Prop
  | .node node => Node.Canonical node
  | .content value => Child.ofJson value = .content value
  | .invalid value => Child.ofJson value = .invalid value

end

theorem Node.canonical_iff {node : Node} :
    node.Canonical ↔ node.Settled ∧ Children.CanonicalIn node.children := by
  cases node
  rw [Node.Canonical]

namespace Node

theorem canonical_of_assemble {children : Option Children} {value : Json} {node : Node}
    (hchildren : Children.CanonicalIn children) (h : assemble children value = .ok node) :
    node.Canonical := by
  obtain ⟨record, hrecord, rfl⟩ := map_eq_ok.mp h
  have hkeeps : (rule fun _ _ => return children).Keeps (fun _ => True)
      (fun record => record.finish.Settled ∧ Children.CanonicalIn record.finish.children) := by
    simp only [RecordRule.Keeps, rule, List.forall_mem_cons]
    refine ⟨?kind, ?props, ?children, ?condition, ?repetition, ?key, ?events, ?bindings, ?fetches,
      fun _ h => absurd h List.not_mem_nil⟩
    case kind => exact FieldRule.keeps_ofSlot fun _ h _ => ⟨{ h.1 with }, h.2⟩
    case props =>
      refine FieldRule.keeps_ofSlot fun _ h hread => ⟨{ h.1 with props := ?_ }, h.2⟩
      exact Decode.map_holds Decode.wellNamed_of_json
        (fun _ _ fields hv (h : (Json.object fields).WellNamed) => Fields.wellNamed_insert h hv)
        Json.wellNamed_object_nil hread
    case children =>
      refine FieldRule.keeps_ofSlot fun _ h hread => ⟨{ h.1 with }, ?_⟩
      cases hread
      exact hchildren
    case condition =>
      refine FieldRule.keeps_ofSlot fun _ h hread => ⟨{ h.1 with condition := ?_ }, h.2⟩
      rintro condition rfl
      exact Condition.canonical_of_optional_decode hread
    case repetition =>
      refine FieldRule.keeps_ofSlot fun _ h hread => ⟨{ h.1 with repetition := ?_ }, h.2⟩
      rintro repetition rfl
      exact Repeat.canonical_of_decode (Decode.optional_eq_some hread).2
    case key =>
      refine FieldRule.keeps_ofSlot fun _ h hread => ⟨{ h.1 with key := ?_ }, h.2⟩
      rintro key rfl
      exact Decode.present_of_optional_json hread
    case events =>
      exact FieldRule.keeps_ofSlot fun _ h hread =>
        ⟨{ h.1 with events := Decode.list_good EventAction.canonical_of_decode hread }, h.2⟩
    case bindings =>
      exact FieldRule.keeps_ofSlot fun _ h hread =>
        ⟨{ h.1 with bindings := Bindings.distinct_of_decode hread }, h.2⟩
    case fetches =>
      exact FieldRule.keeps_ofSlot fun _ h hread =>
        ⟨{ h.1 with fetches := Decode.list_good FetchSpec.canonical_of_decode hread }, h.2⟩
  have hempty : ({} : Partial).finish.Settled :=
    ⟨Json.wellNamed_object_nil, fun _ h => (nomatch h), fun _ h => (nomatch h),
      fun _ h => (nomatch h), fun _ h => absurd h List.not_mem_nil, List.nodup_nil,
      fun _ h => absurd h List.not_mem_nil⟩
  exact canonical_iff.mpr (hkeeps.read ⟨hempty, trivial⟩ hrecord)

/-- A node as a value is an object. -/
theorem exists_toJson_eq (node : Node) : ∃ fields, node.toJson = .object fields := by
  cases node
  exact ⟨_, by rw [toJson]⟩

end Node

namespace Child

theorem canonical_ofJson_of_within {value : Json}
    (h : Children.CanonicalIn (Children.within value)) : (ofJson value).Canonical := by
  rcases ofJson_cases value with ⟨-, hc⟩ | ⟨node, -, hnode, hc⟩ | ⟨error, -, -, hc⟩
  · rw [hc, Canonical]
    exact hc
  · rw [hc, Canonical]
    exact Node.canonical_of_assemble h hnode
  · rw [hc, Canonical]
    exact hc

/-- A child described by a value that is neither `null` nor a list looks like neither. -/
theorem toJson_ofJson_single {value : Json} (hnull : value ≠ .null)
    (harray : ∀ items, value ≠ .array items) :
    (ofJson value).toJson ≠ .null ∧ ∀ items, (ofJson value).toJson ≠ .array items := by
  rcases ofJson_cases value with ⟨-, hc⟩ | ⟨node, -, -, hc⟩ | ⟨error, -, -, hc⟩
  · rw [hc, toJson]
    exact ⟨hnull, harray⟩
  · obtain ⟨fields, hfields⟩ := node.exists_toJson_eq
    rw [hc, toJson, hfields]
    exact ⟨nofun, nofun⟩
  · rw [hc, toJson]
    exact ⟨hnull, harray⟩

end Child

namespace Children

theorem canonicalIn_single {value : Json} (hnull : value ≠ .null)
    (harray : ∀ items, value ≠ .array items) (h : CanonicalIn (within value)) :
    CanonicalIn (ofJson value) := by
  rw [ofJson_of_single hnull harray, CanonicalIn, Canonical]
  exact ⟨Child.canonical_ofJson_of_within h, Child.toJson_ofJson_single hnull harray⟩

mutual

theorem canonicalIn_within : ∀ value : Json, CanonicalIn (within value)
  | .object fields => by
    rw [within]
    exact canonicalIn_ofFields fields
  | .array values => by
    rw [within]
    exact canonicalIn_ofItems 2 values
  | .null | .bool _ | .number _ | .text _ => trivial

theorem canonicalIn_ofFields : ∀ fields : List (String × Json), CanonicalIn (ofFields fields)
  | [] => trivial
  | (name, value) :: fields => by
    rw [ofFields]
    split
    · exact canonicalIn_ofJson value
    · exact canonicalIn_ofFields fields

theorem canonicalIn_ofItems : ∀ (place : Nat) (values : List Json),
    CanonicalIn (ofItems place values)
  | 0, [] | _ + 1, [] => trivial
  | 0, value :: _ => by
    rw [ofItems]
    exact canonicalIn_ofJson value
  | place + 1, _ :: values => by
    rw [ofItems]
    exact canonicalIn_ofItems place values

theorem canonicalIn_ofJson : ∀ value : Json, CanonicalIn (ofJson value)
  | .null => trivial
  | .array values => by
    rw [ofJson, CanonicalIn, Canonical]
    exact canonicalAll_listOf values
  | .object fields =>
    canonicalIn_single nofun nofun (by
      rw [within]
      exact canonicalIn_ofFields fields)
  | .bool _ | .number _ | .text _ => canonicalIn_single nofun nofun trivial

theorem canonicalAll_listOf : ∀ values : List Json, CanonicalAll (listOf values)
  | [] => trivial
  | value :: values => by
    rw [listOf, CanonicalAll]
    exact ⟨Child.canonical_ofJson_of_within (canonicalIn_within value), canonicalAll_listOf values⟩

end

end Children

/-- Every node that is read is canonical. -/
theorem Node.canonical_of_ofJson {value : Json} {node : Node} (h : ofJson value = .ok node) :
    node.Canonical :=
  canonical_of_assemble (Children.canonicalIn_within value) h

end ViewTree
