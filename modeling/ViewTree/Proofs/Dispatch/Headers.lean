import Mathlib
import ViewTree.Proofs.Config.Canonical
import ViewTree.Proofs.Config.Independent
import ViewTree.Proofs.Dispatch.Call
import ViewTree.Proofs.State.Template

/-!
# The headers of a request

The headers of a request come from three places: those that options start with, those that were
added to the options one after another, and those of the call.  Names are put in lower case at the
last two of them, after the headers of the call have been read into a map of their own, whose names
count as different when they differ in case.

* `Headers.lookup_insertAll`: what is found under a name after several writes.
* `ApiCall.headers_perm`: the headers of a call are those its params give, in another order.
* `World.headers_merged`: what each header of a request is.
-/

namespace ViewTree

theorem lowerAscii_lowerAscii (name : String) :
    lowerAscii (lowerAscii name) = lowerAscii name := by
  have hchars : Char.toLower ∘ Char.toLower = Char.toLower :=
    funext Char.toLower_toLower_eq_toLower
  rw [lowerAscii, lowerAscii, String.toList_ofList, List.map_map, hchars]

/-- No character of a name in lower case is a capital letter. -/
theorem isUpper_of_mem_lowerAscii {name : String} {c : Char} (h : c ∈ (lowerAscii name).toList) :
    c.isUpper = false := by
  rw [lowerAscii, String.toList_ofList] at h
  obtain ⟨d, -, rfl⟩ := List.mem_map.mp h
  exact Char.isUpper_toLower_eq_false d

/-! ### Writing headers -/

namespace Headers

variable {headers : Headers} {entries : List (String × String)} {name other value : String}

theorem lookup_entry {key old : String} : List.lookup other ((key, old) :: headers)
    = if other = key then some old else headers.lookup other := by
  by_cases h : other = key
  · rw [if_pos h, List.lookup_cons, beq_iff_eq.mpr h]
  · rw [if_neg h, List.lookup_cons, beq_false_of_ne h]

theorem lookup_insert : (headers.insert name value).lookup other
    = if other = name then some value else headers.lookup other := by
  induction headers with
  | nil => exact lookup_entry
  | cons first headers ih =>
    obtain ⟨key, old⟩ := first
    rw [insert, lookup_entry]
    split
    · rename_i hkey
      subst hkey
      rw [lookup_entry]
      split <;> rfl
    · rename_i hkey
      split
      · rw [lookup_entry, lookup_entry]
      · -- The name goes further back, past an entry of another name.
        rw [lookup_entry, ih]
        by_cases h : other = name
        · rw [if_pos h, if_pos h, if_neg fun heq => hkey (h.symm.trans heq)]
        · rw [if_neg h, if_neg h]

/-- What is found under a name is what the last of the writes to it put there. -/
theorem lookup_insertAll : (headers.insertAll entries).lookup name
    = (entries.reverse.lookup name).or (headers.lookup name) := by
  induction entries generalizing headers with
  | nil => rfl
  | cons entry entries ih =>
    have hone : (headers.insert entry.1 entry.2).lookup name
        = ([entry].lookup name).or (headers.lookup name) := by
      rw [lookup_insert, lookup_entry]
      split <;> rfl
    calc (headers.insertAll (entry :: entries)).lookup name
        = ((headers.insert entry.1 entry.2).insertAll entries).lookup name := rfl
      _ = (entries.reverse.lookup name).or (([entry].lookup name).or (headers.lookup name)) := by
          rw [ih, hone]
      _ = ((entry :: entries).reverse.lookup name).or (headers.lookup name) := by
          rw [List.reverse_cons, List.lookup_append, Option.or_assoc]

theorem perm_insert (h : name ∉ headers.map Prod.fst) :
    (headers.insert name value).Perm ((name, value) :: headers) := by
  induction headers with
  | nil => exact .refl _
  | cons first headers ih =>
    obtain ⟨hne, hrest⟩ := not_or.mp (List.mem_cons.not.mp h)
    rw [insert, if_neg hne]
    split
    · exact .refl _
    · exact ((ih hrest).cons first).trans (.swap (name, value) first headers)

/-- Writes under new names add themselves, and nothing else changes. -/
theorem perm_insertAll (h : ((entries ++ headers).map Prod.fst).Nodup) :
    (headers.insertAll entries).Perm (entries ++ headers) := by
  induction entries generalizing headers with
  | nil => exact .refl _
  | cons entry entries ih =>
    obtain ⟨hnew, hrest⟩ := List.nodup_cons.mp h
    have hfresh : entry.1 ∉ headers.map Prod.fst := fun hmem =>
      hnew (List.map_append ▸ List.mem_append_right _ hmem)
    have hone : (headers.insert entry.1 entry.2).Perm (entry :: headers) := perm_insert hfresh
    have hmoved :
        (entries ++ headers.insert entry.1 entry.2).Perm (entry :: (entries ++ headers)) :=
      (hone.append_left entries).trans List.perm_middle
    have hnodup : ((entries ++ headers.insert entry.1 entry.2).map Prod.fst).Nodup :=
      ((hmoved.map Prod.fst).nodup_iff).mpr h
    exact (ih hnodup).trans hmoved

/-- Headers in order whose names are in lower case. -/
structure Folded (headers : Headers) : Prop where
  sorted : headers.Sorted
  lower : ∀ entry ∈ headers, lowerAscii entry.1 = entry.1

/-- The entries with their names in lower case. -/
def lowered (entries : List (String × String)) : List (String × String) :=
  entries.map fun entry => (lowerAscii entry.1, entry.2)

theorem Folded.insert (h : headers.Folded) :
    (headers.insert (lowerAscii name) value).Folded := by
  refine ⟨sorted_insert h.sorted, fun entry hentry => ?_⟩
  rcases mem_insert hentry with rfl | hentry
  · exact lowerAscii_lowerAscii name
  · exact h.lower entry hentry

/-- Writing headers under names in lower case keeps all names in lower case. -/
theorem Folded.insertAll (h : headers.Folded) : (headers.insertAll (lowered entries)).Folded := by
  induction entries generalizing headers with
  | nil => exact h
  | cons entry entries ih => exact ih h.insert

/-- Names in lower case that are in order do not repeat in any case. -/
theorem Folded.nodup (h : headers.Folded) :
    (headers.map fun entry => lowerAscii entry.1).Nodup := by
  have hnames : (headers.map fun entry => lowerAscii entry.1) = headers.map Prod.fst :=
    List.map_congr_left h.lower
  rw [hnames]
  refine List.pairwise_map.mpr (h.sorted.imp fun hlt heq => ?_)
  exact String.lt_irrefl _ (heq ▸ hlt)

/-! ### Which write counts -/

/-- Some entry has this name in lower case. -/
def Names (entries : List (String × String)) (name : String) : Prop :=
  ∃ entry ∈ entries, lowerAscii entry.1 = name

/-- The last entry with this name in lower case has this value. -/
def LastNamed (entries : List (String × String)) (name value : String) : Prop :=
  ∃ before given after, entries = before ++ (given, value) :: after ∧ lowerAscii given = name ∧
    ¬ Names after name

theorem names_congr {others : List (String × String)}
    (h : (entries.map Prod.fst).Perm (others.map Prod.fst)) :
    Names entries name ↔ Names others name := by
  have hnames : ∀ entries : List (String × String),
      Names entries name ↔ ∃ given ∈ entries.map Prod.fst, lowerAscii given = name := by
    intro entries
    simp [Names]
  rw [hnames, hnames]
  exact exists_congr fun given => and_congr_left fun _ => h.mem_iff

theorem not_names_of_lookup (h : (lowered entries).reverse.lookup name = none) :
    ¬ Names entries name := by
  rintro ⟨entry, hentry, rfl⟩
  have hmem : (lowerAscii entry.1, entry.2) ∈ (lowered entries).reverse :=
    List.mem_reverse.mpr (List.mem_map_of_mem hentry)
  have hne := List.lookup_eq_none_iff.mp h _ hmem
  exact absurd rfl (bne_iff_ne.mp hne)

theorem lastNamed_of_lookup (h : (lowered entries).reverse.lookup name = some value) :
    LastNamed entries name value := by
  obtain ⟨later, earlier, hsplit, hlater⟩ := List.lookup_eq_some_iff.mp h
  -- What is found first from the end stands between the entries before it and those after it.
  have hwhole : lowered entries = earlier.reverse ++ (name, value) :: later.reverse := by
    rw [List.reverse_eq_append_iff.mp hsplit, List.reverse_cons, List.append_assoc,
      List.singleton_append]
  obtain ⟨before, rest, rfl, -, hrest⟩ := List.map_eq_append_iff.mp hwhole
  obtain ⟨⟨given, _⟩, after, rfl, hentry, hafter⟩ := List.map_eq_cons_iff.mp hrest
  obtain ⟨rfl, rfl⟩ := Prod.mk.inj hentry
  refine ⟨before, given, after, rfl, rfl, ?_⟩
  rintro ⟨entry, hmem, hname⟩
  have hlast : (lowerAscii entry.1, entry.2) ∈ later :=
    List.mem_reverse.mp (hafter ▸ List.mem_map_of_mem hmem)
  have hne := bne_iff_ne.mp (hlater _ hlast)
  exact hne hname.symm

/-- In headers that are in order, the last name is the greatest. -/
theorem LastNamed.greatest (h : LastNamed headers name value) (hsorted : headers.Sorted) :
    ∃ given, (given, value) ∈ headers ∧ lowerAscii given = name ∧
      ∀ other ∈ headers, lowerAscii other.1 = name → other.1 ≤ given := by
  obtain ⟨before, given, after, rfl, hname, hafter⟩ := h
  refine ⟨given, List.mem_append_right _ List.mem_cons_self, hname, fun other hother heq => ?_⟩
  rcases List.mem_append.mp hother with hbefore | hother
  · have hlt : other.1 < given :=
      (List.pairwise_append.mp hsorted).2.2 other hbefore _ List.mem_cons_self
    exact Std.le_of_lt hlt
  · rcases List.mem_cons.mp hother with rfl | hmem
    · exact Std.le_refl given
    · exact absurd ⟨other, hmem, heq⟩ hafter

end Headers

/-! ### The headers a call is given -/

/-- A field that has been read holds what it was given, and one that was not given is as it was. -/
theorem FieldRule.take_ofSlot {α β γ : Type} {name : String} {required : Bool}
    {slot : α → Option γ} {put : γ → α → α} {f : Source → β → Decode γ} {source : Source}
    {given : Option β} {record result : α}
    (h : (ofSlot name required slot put f).take source given record = .ok result) :
    (given = none ∧ record = result) ∨
      ∃ b ∈ given, ∃ value, f source b = .ok value ∧ put value record = result := by
  cases given with
  | none =>
    rw [take] at h
    split at h
    · cases h
    · exact .inl ⟨rfl, Except.ok.inj h⟩
  | some b => exact .inr ⟨b, rfl, fill_ofSlot.mp h⟩

/-- What reading a field does not touch. -/
theorem FieldRule.view_take_ofSlot {α β γ δ : Type} {name : String} {required : Bool}
    {slot : α → Option γ} {put : γ → α → α} {f : Source → β → Decode γ} {source : Source}
    {given : Option β} {record result : α}
    (h : (ofSlot name required slot put f).take source given record = .ok result) (view : α → δ)
    (hview : ∀ value record, view (put value record) = view record) :
    view result = view record := by
  rcases take_ofSlot h with ⟨-, rfl⟩ | ⟨b, -, value, -, rfl⟩
  · rfl
  · exact hview value record

/-- Items that are read by their places are read as if each was given by the name of the field at
its place. -/
theorem RecordRule.gather_of_readItems {α β : Type} {rule : RecordRule α β} {source : Source}
    {ending : Ending} {fields : List (FieldRule α β)} {items rest : List (Draft × β)}
    {record result : α} {given : String → Option β}
    (hgiven : ∀ (i : Nat) field, fields[i]? = some field →
      given field.name = items[i]?.map Prod.snd)
    (h : rule.readItems source ending fields items record = .ok (rest, result)) :
    gather source given fields record = .ok result := by
  induction fields generalizing items record with
  | nil =>
    cases items <;>
    · cases h
      rfl
  | cons field fields ih =>
    have hfirst := hgiven 0 field rfl
    cases items with
    | nil =>
      obtain ⟨-, -, h⟩ := bind_eq_ok.mp h
      split at h
      · cases h
      · rename_i hrequired
        rw [gather, hfirst]
        show (field.take source none record >>= _) = _
        rw [take_none (Bool.eq_false_iff.mpr hrequired), ok_bind]
        exact ih (fun i other hother => hgiven (i + 1) other hother) h
    | cons item items =>
      obtain ⟨next, hfill, h⟩ := bind_eq_ok.mp h
      have htake : field.take source (given field.name) record = .ok next := hfirst ▸ hfill
      rw [gather, htake, ok_bind]
      exact ih (fun i other hother => hgiven (i + 1) other hother) h

namespace ApiCall

/-- The fields of a remote call are independent of each other. -/
theorem lawful_rule : rule.Lawful where
  steady := by
    simp only [rule, List.forall_mem_cons]
    and_intros <;> first
      | exact FieldRule.steady_ofSlot fun _ _ => rfl
      | exact fun _ h => absurd h List.not_mem_nil
  apart := by
    simp only [rule, List.pairwise_cons, List.forall_mem_cons]
    and_intros <;> first
      | exact FieldRule.apart_ofSlot (by decide) (fun _ _ _ => rfl) (fun _ _ => rfl)
          fun _ _ => rfl
      | exact fun _ h => absurd h List.not_mem_nil
      | exact List.Pairwise.nil

/-- The value that is given for the headers of a call. -/
def headersGiven : Json → Option Json
  | .object fields => Fields.get? "headers" fields
  | .array items => items[2]?
  | _ => none

/-- The texts among the entries of an object. -/
def textEntries (fields : Fields) : List (String × String) :=
  fields.filterMap fun entry => entry.2.text?.map (entry.1, ·)

/-- The headers that a value gives for a call. -/
def headersOf (params : Json) : List (String × String) :=
  match headersGiven params with
  | some (.object fields) => textEntries fields
  | _ => []

/-- The header map of a call. -/
def readHeaders (draft : Draft) : Decode Headers :=
  Decode.map Decode.text Headers.insert [] .ofValue draft

theorem headers_of_gather {given : String → Option Draft} {record : Partial}
    (h : RecordRule.gather .ofValue given rule.fields {} = .ok record) :
    (given "headers" = none ∧ record.headers = none) ∨
      ∃ draft ∈ given "headers", ∃ headers, readHeaders draft = .ok headers ∧
        record.headers = some headers := by
  obtain ⟨one, hurl, h⟩ := bind_eq_ok.mp h
  obtain ⟨two, hmethod, h⟩ := bind_eq_ok.mp h
  obtain ⟨three, hheaders, h⟩ := bind_eq_ok.mp h
  obtain ⟨four, hbody, h⟩ := bind_eq_ok.mp h
  cases h
  -- The other three fields leave the headers alone.
  have hone : one.headers = ({} : Partial).headers :=
    FieldRule.view_take_ofSlot hurl Partial.headers fun _ _ => rfl
  have htwo : two.headers = one.headers :=
    FieldRule.view_take_ofSlot hmethod Partial.headers fun _ _ => rfl
  have hlast : record.headers = three.headers :=
    FieldRule.view_take_ofSlot hbody Partial.headers fun _ _ => rfl
  rcases FieldRule.take_ofSlot hheaders with ⟨hnone, rfl⟩ | ⟨draft, hdraft, headers, hread, rfl⟩
  · exact .inl ⟨hnone, hlast.trans (htwo.trans hone)⟩
  · exact .inr ⟨draft, hdraft, headers, hread, hlast⟩

theorem gather_of_readObject {fields : Fields} {record : Partial} (hd : Fields.Distinct fields)
    (h : rule.readObject .ofValue (RecordRule.entriesOf id fields) .closed {} = .ok record) :
    RecordRule.gather .ofValue (RecordRule.givenIn id fields) rule.fields {} = .ok record := by
  have hopen : ∀ field ∈ rule.fields, field.filled ({} : Partial) = false := by
    simp only [rule, List.forall_mem_cons]
    and_intros <;> first
      | rfl
      | exact fun _ h => absurd h List.not_mem_nil
  exact (RecordRule.readObject_eq_ok lawful_rule Source.settled_ofValue hd hopen).mp h

/-- What the items of an array give for the fields of a call, each by its place. -/
def placed (items : List Json) (name : String) : Option Draft :=
  (["url", "method", "headers", "body"].idxOf? name).bind fun place => items[place]?.map .ofJson

theorem gather_of_readArray {items : List Json} {record : Partial} {ending : Ending}
    (h : rule.readArray .ofValue ((items.map Draft.ofJson).map fun draft => (draft, draft)) ending
      {} = .ok record) :
    RecordRule.gather .ofValue (placed items) rule.fields {} = .ok record := by
  rw [RecordRule.readArray, Source.settled_ofValue.enter, ok_bind] at h
  obtain ⟨⟨rest, last⟩, hitems, h⟩ := bind_eq_ok.mp h
  obtain ⟨-, -, h⟩ := bind_eq_ok.mp h
  cases h
  refine RecordRule.gather_of_readItems (fun i field hfield => ?_) hitems
  have hplace : (((items.map Draft.ofJson).map fun draft => (draft, draft))[i]?.map Prod.snd)
      = items[i]?.map Draft.ofJson := by
    rw [List.getElem?_map, List.getElem?_map, Option.map_map, Option.map_map]
    rfl
  rw [hplace]
  match i, hfield with
  | 0, hfield | 1, hfield | 2, hfield | 3, hfield =>
    cases hfield
    rfl
  | i + 4, hfield => cases hfield

/-- What is given for the headers of a call is what its headers are read from. -/
theorem headers_of_ofJson {params : Json} {call : ApiCall} (hd : params.WellNamed)
    (h : ofJson params = .ok call) :
    (headersGiven params = none ∧ call.headers = []) ∨
      ∃ value ∈ headersGiven params, readHeaders (.ofJson value) = .ok call.headers := by
  rw [ofJson, decode_eq] at h
  obtain ⟨record, hrecord, rfl⟩ := map_eq_ok.mp h
  -- An object gives the headers by their name, and an array by their place.
  have hgather : ∃ given, RecordRule.gather .ofValue given rule.fields {} = .ok record ∧
      given "headers" = (headersGiven params).map Draft.ofJson := by
    cases params with
    | object fields =>
      rw [Draft.ofJson, RecordRule.read, RecordRule.entriesOf_ofFields] at hrecord
      exact ⟨_, gather_of_readObject (Json.wellNamed_object.mp hd).1 hrecord, rfl⟩
    | array items =>
      rw [Draft.ofJson, RecordRule.read, Draft.ofItems_eq_map] at hrecord
      exact ⟨_, gather_of_readArray hrecord, rfl⟩
    | _ =>
      simp [Draft.ofJson, RecordRule.read, RecordRule.refuse, Decode.wrongType_ne_ok] at hrecord
  obtain ⟨given, hgather, hgiven⟩ := hgather
  rcases headers_of_gather hgather with ⟨hnone, hheaders⟩ | ⟨draft, hdraft, headers, hread, hsome⟩
  · refine .inl ⟨Option.map_eq_none_iff.mp (hgiven.symm.trans hnone), ?_⟩
    rw [Partial.finish, hheaders, Option.getD_none]
  · obtain ⟨value, hvalue, rfl⟩ := Option.map_eq_some_iff.mp (hgiven.symm.trans hdraft)
    refine .inr ⟨value, hvalue, ?_⟩
    rw [hread, Partial.finish, hsome, Option.getD_some]

/-- A header map is read by writing the texts of its entries one after another. -/
theorem entries_text_ofFields {source : Source} {fields : Fields} {before headers : Headers}
    (h : Decode.entries Decode.text Headers.insert source (Draft.ofFields fields) before
      = .ok headers) :
    headers = before.insertAll (textEntries fields) ∧
      (textEntries fields).map Prod.fst = Fields.names fields := by
  induction fields generalizing before with
  | nil =>
    cases h
    exact ⟨rfl, rfl⟩
  | cons entry fields ih =>
    obtain ⟨name, value⟩ := entry
    obtain ⟨text, htext, h⟩ := bind_eq_ok.mp h
    obtain ⟨hheaders, hnames⟩ := ih h
    cases value with
    | text s =>
      cases htext
      exact ⟨hheaders, congrArg (name :: ·) hnames⟩
    | _ => simp [Draft.ofJson, Decode.text, Decode.wrongType_ne_ok] at htext

/-- The headers of a call are those its params give, put in order. -/
theorem headers_perm {params : Json} {call : ApiCall} (hd : params.WellNamed)
    (h : ofJson params = .ok call) : call.headers.Perm (headersOf params) := by
  rcases headers_of_ofJson hd h with ⟨hnone, hheaders⟩ | ⟨value, hvalue, hread⟩
  · rw [headersOf, hnone, hheaders]
  · have hwell : value.WellNamed := by
      cases params with
      | object fields => exact Json.WellNamed.get? hd hvalue
      | array items => exact Json.wellNamed_array.mp hd value (List.mem_of_getElem? hvalue)
      | _ => cases hvalue
    cases value with
    | object fields =>
      rw [readHeaders, Draft.ofJson, Decode.map, Source.settled_ofValue.enter, ok_bind] at hread
      obtain ⟨headers, hentries, hread⟩ := bind_eq_ok.mp hread
      cases hread
      obtain ⟨hheaders, hnames⟩ := entries_text_ofFields hentries
      have hnodup : ((textEntries fields ++ []).map Prod.fst).Nodup := by
        rw [List.append_nil, hnames]
        exact (Json.wellNamed_object.mp hwell).1
      have hperm := Headers.perm_insertAll hnodup
      rw [List.append_nil] at hperm
      rw [headersOf, hvalue, hheaders]
      exact hperm
    | _ => simp [readHeaders, Draft.ofJson, Decode.map, Decode.wrongType_ne_ok] at hread

end ApiCall

/-! ### Filling templates in -/

namespace Scope

variable (scope : Scope)

theorem get?_expandFields (name : String) (fields : Fields) :
    Fields.get? name (scope.expandFields fields)
      = (Fields.get? name fields).map scope.expandIn := by
  induction fields with
  | nil => rfl
  | cons entry fields ih =>
    rw [expandFields, Fields.get?_cons, Fields.get?_cons, ih]
    split <;> rfl

theorem expandItems_eq_map (items : List Json) :
    scope.expandItems items = items.map scope.expandIn := by
  induction items with
  | nil => rfl
  | cons item items ih => rw [expandItems, ih, List.map_cons]

/-- A header with its template filled in. -/
def expandEntry (entry : String × String) : String × String := (entry.1, scope.expand entry.2)

end Scope

namespace ApiCall

variable (scope : Scope)

theorem headersGiven_expandIn (params : Json) :
    headersGiven (scope.expandIn params) = (headersGiven params).map scope.expandIn := by
  cases params with
  | object fields => exact scope.get?_expandFields "headers" fields
  | array items =>
    rw [Scope.expandIn, headersGiven, headersGiven, scope.expandItems_eq_map, List.getElem?_map]
  | _ => rfl

theorem textEntries_expandFields (fields : Fields) :
    textEntries (scope.expandFields fields) = (textEntries fields).map scope.expandEntry := by
  induction fields with
  | nil => rfl
  | cons entry fields ih =>
    obtain ⟨name, value⟩ := entry
    cases value with
    | text s => exact congrArg ((name, scope.expand s) :: ·) ih
    | _ => exact ih

/-- The headers that params give when their templates are filled in. -/
theorem headersOf_expandIn (params : Json) :
    headersOf (scope.expandIn params) = (headersOf params).map scope.expandEntry := by
  rw [headersOf, headersOf, headersGiven_expandIn]
  cases headersGiven params with
  | none => rfl
  | some value =>
    cases value with
    | object fields => exact textEntries_expandFields scope fields
    | _ => rfl

end ApiCall

/-! ### The headers of a request -/

/-- The options with headers added one after another. -/
def Options.withHeaders (options : Options) (entries : List (String × String)) : Options :=
  entries.foldl (fun options entry => options.withHeader entry.1 entry.2) options

theorem Options.headers_withHeaders {options : Options} {entries : List (String × String)} :
    (options.withHeaders entries).headers
      = options.headers.insertAll (Headers.lowered entries) := by
  induction entries generalizing options with
  | nil => rfl
  | cons entry entries ih => exact ih

/-- The value of a header in a request, if it has one.  `own` holds the headers of the call, with
their templates, and `general` those that were added to the options, in that order. -/
inductive HeaderValue (own general : List (String × String)) (scope : Scope) (name : String) :
    Option String → Prop where
  /-- Of the names in the call that are this one in lower case, the greatest counts. -/
  | own {given template : String} (mem : (given, template) ∈ own)
      (named : lowerAscii given = name)
      (greatest : ∀ other ∈ own, lowerAscii other.1 = name → other.1 ≤ given) :
      HeaderValue own general scope name (some (scope.expand template))
  /-- Of those added to the options, the last counts. -/
  | general {value : String} (unnamed : ¬ Headers.Names own name)
      (last : Headers.LastNamed general name value) :
      HeaderValue own general scope name (some value)
  /-- What no one names is as in options without additions. -/
  | builtin (unnamed : ¬ Headers.Names own name) (unadded : ¬ Headers.Names general name) :
      HeaderValue own general scope name (({} : Options).headers.lookup name)

/-- Headers in lower case that were written over those of options hold these values. -/
theorem HeaderValue.of_insertAll {own general : List (String × String)} {scope : Scope}
    {headers : Headers} (hsorted : headers.Sorted)
    (hown : headers.Perm (own.map scope.expandEntry)) (name : String) :
    HeaderValue own general scope name
      (((({} : Options).withHeaders general).headers.insertAll (Headers.lowered headers)).lookup
        name) := by
  have hnames : Headers.Names headers name ↔ Headers.Names own name := by
    refine Headers.names_congr ?_
    have hfst : (own.map scope.expandEntry).map Prod.fst = own.map Prod.fst := by
      rw [List.map_map]
      rfl
    exact hfst ▸ hown.map Prod.fst
  rw [Headers.lookup_insertAll, Options.headers_withHeaders, Headers.lookup_insertAll]
  cases hlast : (Headers.lowered headers).reverse.lookup name with
  | some value =>
    obtain ⟨given, hmem, hname, hgreatest⟩ := (Headers.lastNamed_of_lookup hlast).greatest hsorted
    obtain ⟨⟨_, template⟩, htemplate, heq⟩ := List.mem_map.mp (hown.mem_iff.mp hmem)
    obtain ⟨rfl, rfl⟩ := Prod.mk.inj heq
    refine .own htemplate hname fun other hother hlower => ?_
    exact hgreatest (scope.expandEntry other) (hown.mem_iff.mpr (List.mem_map_of_mem hother)) hlower
  | none =>
    have hunnamed : ¬ Headers.Names own name :=
      fun h => Headers.not_names_of_lookup hlast (hnames.mpr h)
    rw [Option.none_or]
    cases hadded : (Headers.lowered general).reverse.lookup name with
    | some value => exact .general hunnamed (Headers.lastNamed_of_lookup hadded)
    | none => exact .builtin hunnamed (Headers.not_names_of_lookup hadded)

theorem Headers.folded_default : Headers.Folded ({} : Options).headers :=
  ⟨List.pairwise_singleton _ _, by decide⟩

/-- **The headers of a request**, for options that come from adding headers to the default ones, in
any case and any number, and for a call with any headers of its own.  The request that goes out has
no capital letter in the name of a header and no name twice in any case.  Each name has the value
from the call, else the one that was last added to the options, else the one options start with. -/
theorem World.headers_merged {setting : Setting} {world : World} {plan : CallPlan}
    {entries : List (String × String)} {request : Request}
    (hoptions : setting.options.headers = (({} : Options).withHeaders entries).headers)
    (hparams : plan.params.WellNamed)
    (hrequest : buildRequest setting.options ((world.markLoading plan.target).scope plan.event)
      plan.params = .ok request) :
    (world.startCall setting plan).1.transport = (world.transport.send request).2 ∧
      (∀ entry ∈ request.headers, ∀ c ∈ entry.1.toList, c.isUpper = false) ∧
      (request.headers.map fun entry => lowerAscii entry.1).Nodup ∧
      ∀ name, HeaderValue (ApiCall.headersOf plan.params) entries
        ((world.markLoading plan.target).scope plan.event) name (request.headers.lookup name) := by
  set scope := (world.markLoading plan.target).scope plan.event with hscope
  have hsent : (world.startCall setting plan).1.transport = (world.transport.send request).2 := by
    simp only [World.startCall, ← hscope, hrequest]
    rfl
  obtain ⟨call, hcall, hheaders⟩ : ∃ call, ApiCall.ofJson (scope.expandIn plan.params) = .ok call ∧
      request.headers = setting.options.headers.insertAll (Headers.lowered call.headers) := by
    unfold buildRequest at hrequest
    split at hrequest
    · cases hrequest
    · rename_i call hcall
      cases hrequest
      exact ⟨call, hcall, rfl⟩
  have hperm := ApiCall.headers_perm (scope.wellNamed_expandIn _ hparams) hcall
  rw [ApiCall.headersOf_expandIn] at hperm
  have hfolded : request.headers.Folded := by
    rw [hheaders, hoptions, Options.headers_withHeaders]
    exact Headers.folded_default.insertAll.insertAll
  refine ⟨hsent, fun entry hentry c hc => ?_, hfolded.nodup, fun name => ?_⟩
  · exact isUpper_of_mem_lowerAscii (hfolded.lower entry hentry ▸ hc)
  · rw [hheaders, hoptions]
    exact .of_insertAll (ApiCall.canonical_of_decode hcall).sorted hperm name

/-- Names that differ in case, in the call and in the options: the greatest one of the call counts,
with its template filled in, and over the default the one that was added. -/
theorem World.headers_merged_over_case :
    let entries :=
      [("X-Trace", "1"), ("Content-Type", "text/plain"), ("x-trace", "2"), ("X-B", "3")]
    let setting : Setting := ⟨({} : Options).withHeaders entries, ⟨[]⟩⟩
    let world : World := { store := Store.empty.set "id" (.text "7"), log := .empty {} }
    let params := .object [("url", .text "/a"),
      ("headers", .object [("X-TRACE", .text "no"), ("x-Trace", .text "n$\x7bstate.id\x7d")])]
    let plan : CallPlan := { target := "t", params }
    ∃ request, buildRequest setting.options ((world.markLoading "t").scope none) params
        = .ok request ∧
      request.headers = [("content-type", "text/plain"), ("x-b", "3"), ("x-trace", "n7")] ∧
      (world.startCall setting plan).1.transport = (world.transport.send request).2 ∧
      HeaderValue [("X-TRACE", "no"), ("x-Trace", "n$\x7bstate.id\x7d")] entries
        ((world.markLoading "t").scope none) "x-trace" (some "n7") := by
  intro entries setting world params plan
  have hparams : params.WellNamed := by
    simp [params, Json.wellNamed_object, Fields.Distinct, Fields.names]
  have hfilled : ((world.markLoading "t").scope none).expandIn params
      = .object [("url", .text "/a"),
        ("headers", .object [("X-TRACE", .text "no"), ("x-Trace", .text "n7")])] := by
    cbv
  have hrequest : buildRequest setting.options ((world.markLoading "t").scope none) params
      = .ok { method := .get, url := "/a", body := none
              headers := [("content-type", "text/plain"), ("x-b", "3"), ("x-trace", "n7")] } := by
    rw [buildRequest, hfilled]
    rfl
  have hown : ApiCall.headersOf params
      = [("X-TRACE", "no"), ("x-Trace", "n$\x7bstate.id\x7d")] := rfl
  have hoptions : setting.options.headers = (({} : Options).withHeaders entries).headers := rfl
  have hplan : plan.params.WellNamed := hparams
  obtain ⟨hsent, -, -, hvalues⟩ := World.headers_merged hoptions hplan hrequest
  have hvalue := hvalues "x-trace"
  rw [hown] at hvalue
  exact ⟨_, hrequest, rfl, hsent, hvalue⟩

end ViewTree
