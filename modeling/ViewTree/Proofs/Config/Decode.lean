import ViewTree.Config.Decode
import ViewTree.Proofs.Config.Record

/-!
# Reading maps, lists and what may be absent

For each way of putting decoders together, what holds of anything it reads, and when what was
written is read back.  The second is about values (`Source.Settled`).
-/

namespace ViewTree

/-- A value that a field can hold beside being absent: reading takes `null` for absence. -/
structure Json.Present (value : Json) : Prop where
  ne_null : value ≠ .null
  wellNamed : value.WellNamed

theorem Draft.ofJson_ne_null {value : Json} (h : value ≠ .null) : ofJson value ≠ .null := by
  cases value with
  | null => exact absurd rfl h
  | _ => nofun

namespace Decode

variable {α β : Type} {f : Source → Draft → Decode α} {insert : String → α → β → β}
  {source : Source} {draft : Draft} {empty : β}

/-! ### What is read -/

theorem optional_eq_some {a : α} (h : optional f source draft = .ok (some a)) :
    draft ≠ .null ∧ f source draft = .ok a := by
  cases draft with
  | null => cases h
  | _ =>
    obtain ⟨b, hb, hab⟩ := map_eq_ok.mp h
    cases hab
    exact ⟨nofun, hb⟩

theorem wellNamed_of_json {value : Json} (h : json source draft = .ok value) : value.WellNamed :=
  Draft.wellNamed_read draft (lift_eq_ok.mp h)

/-- A value that was read where `null` means absence. -/
theorem present_of_optional_json {value : Json}
    (h : optional json source draft = .ok (some value)) :
    value.Present := by
  obtain ⟨hne, hread⟩ := optional_eq_some h
  refine ⟨?_, wellNamed_of_json hread⟩
  rintro rfl
  exact hne (Draft.eq_null_of_read (lift_eq_ok.mp hread))

section

variable {good : α → Prop} {holds : β → Prop}

theorem entries_holds (hf : ∀ {source draft a}, f source draft = .ok a → good a)
    (hinsert : ∀ name a b, good a → holds b → holds (insert name a b))
    {rest : List (Option String × Draft)} {before result : β} (hbefore : holds before)
    (h : entries f insert source rest before = .ok result) : holds result := by
  induction rest generalizing before with
  | nil =>
    cases h
    exact hbefore
  | cons entry rest ih =>
    obtain ⟨name, draft⟩ := entry
    cases name with
    | none => cases h
    | some name =>
      obtain ⟨a, ha, h⟩ := bind_eq_ok.mp h
      exact ih (hinsert name a before (hf ha) hbefore) h

/-- What inserting good values keeps holds of any map that is read. -/
theorem map_holds (hf : ∀ {source draft a}, f source draft = .ok a → good a)
    (hinsert : ∀ name a b, good a → holds b → holds (insert name a b)) (hempty : holds empty)
    {result : β} (h : map f insert empty source draft = .ok result) : holds result := by
  cases draft with
  | object fields ending =>
    obtain ⟨inner, -, h⟩ := bind_eq_ok.mp h
    obtain ⟨last, hlast, h⟩ := bind_eq_ok.mp h
    obtain ⟨-, -, h⟩ := bind_eq_ok.mp h
    cases h
    exact entries_holds hf hinsert hempty hlast
  | _ =>
    unfold map at h
    exact absurd h wrongType_ne_ok

theorem items_good (hf : ∀ {source draft a}, f source draft = .ok a → good a)
    {drafts : List Draft} {values : List α} (h : items f source drafts = .ok values) :
    ∀ a ∈ values, good a := by
  induction drafts generalizing values with
  | nil =>
    cases h
    exact fun _ hmem => absurd hmem List.not_mem_nil
  | cons draft drafts ih =>
    obtain ⟨a, ha, h⟩ := bind_eq_ok.mp h
    obtain ⟨rest, hrest, h⟩ := bind_eq_ok.mp h
    cases h
    exact List.forall_mem_cons.mpr ⟨hf ha, ih hrest⟩

/-- Every value of a list that is read is good. -/
theorem list_good (hf : ∀ {source draft a}, f source draft = .ok a → good a) {values : List α}
    (h : list f source draft = .ok values) : ∀ a ∈ values, good a := by
  cases draft with
  | array drafts ending =>
    obtain ⟨inner, -, h⟩ := bind_eq_ok.mp h
    obtain ⟨last, hlast, h⟩ := bind_eq_ok.mp h
    obtain ⟨-, -, h⟩ := bind_eq_ok.mp h
    cases h
    exact items_good hf hlast
  | _ =>
    unfold list at h
    exact absurd h wrongType_ne_ok

end

/-! ### What was written -/

@[simp] theorem text_ofJson (s : String) : text source (.ofJson (.text s)) = .ok s := rfl

theorem optional_ofJson {value : Json} (h : value ≠ .null) {a : α}
    (hread : f source (.ofJson value) = .ok a) :
    optional f source (.ofJson value) = .ok (some a) := by
  have hne := Draft.ofJson_ne_null h
  unfold optional
  split
  · rename_i heq
    exact absurd heq hne
  · rw [hread, map_ok]

theorem optional_text_ofJson (s : String) :
    optional text source (.ofJson (.text s)) = .ok (some s) := rfl

theorem optional_json_ofJson (hsource : source.Settled) {value : Json} (h : value.Present) :
    optional json source (.ofJson value) = .ok (some value) :=
  optional_ofJson h.ne_null (hsource.read h.wellNamed)

variable {encode : α → Json}

theorem entries_ofFields {insert : String → α → List (String × α) → List (String × α)}
    {written before : List (String × α)}
    (hread : ∀ entry ∈ written, f source (.ofJson (encode entry.2)) = .ok entry.2)
    (hinsert : ∀ first name value last, before ++ written = first ++ (name, value) :: last →
      insert name value first = first ++ [(name, value)]) :
    entries f insert source
        (Draft.ofFields (written.map fun entry => (entry.1, encode entry.2))) before
      = .ok (before ++ written) := by
  induction written generalizing before with
  | nil =>
    rw [List.append_nil]
    rfl
  | cons entry written ih =>
    obtain ⟨name, value⟩ := entry
    obtain ⟨hvalue, hrest⟩ := List.forall_mem_cons.mp hread
    have happend : before ++ (name, value) :: written = before ++ [(name, value)] ++ written :=
      List.append_cons _ _ _
    simp only [List.map_cons, Draft.ofFields, entries, hvalue, ok_bind,
      hinsert before name value written rfl]
    rw [happend] at hinsert ⊢
    exact ih hrest hinsert

/-- A map reads back when inserting its entries in their order puts each at the end. -/
theorem map_ofJson {insert : String → α → List (String × α) → List (String × α)}
    {written : List (String × α)} (hsource : source.Settled)
    (hread : ∀ entry ∈ written, f source (.ofJson (encode entry.2)) = .ok entry.2)
    (hinsert : ∀ first name value last, written = first ++ (name, value) :: last →
      insert name value first = first ++ [(name, value)]) :
    map f insert [] source
        (.ofJson (.object (written.map fun entry => (entry.1, encode entry.2))))
      = .ok written := by
  have hentries : entries f insert source
      (Draft.ofFields (written.map fun entry => (entry.1, encode entry.2))) [] = .ok written :=
    entries_ofFields hread hinsert
  simp only [Draft.ofJson, map, hsource.enter, ok_bind, hentries]
  rfl

theorem items_ofItems {written : List α}
    (hread : ∀ a ∈ written, f source (.ofJson (encode a)) = .ok a) :
    items f source (Draft.ofItems (written.map encode)) = .ok written := by
  induction written with
  | nil => rfl
  | cons a written ih =>
    obtain ⟨ha, hrest⟩ := List.forall_mem_cons.mp hread
    simp [Draft.ofItems, items, ha, ih hrest]

/-- A list reads back when each of its values does. -/
theorem list_ofJson {written : List α} (hsource : source.Settled)
    (hread : ∀ a ∈ written, f source (.ofJson (encode a)) = .ok a) :
    list f source (.ofJson (.array (written.map encode))) = .ok written := by
  simp only [Draft.ofJson, list, hsource.enter, ok_bind, items_ofItems hread]
  rfl

end Decode

end ViewTree
