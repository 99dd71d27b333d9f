import Mathlib.Data.List.Nodup
import Mathlib.Logic.Function.Basic
import ViewTree.Proofs.Tasks.Basic

/-!
# What a pool keeps track of

Suppose it is known from outside which task each key stands for, and which tasks have finished.  A
pool keeps track of this (`TaskPool.Tracks`) if a task is unfinished exactly when a key stands for
it and it has not finished, and if such a task is registered under its key.

Each operation keeps track of what it does to the keys (`Tracks.cancel`, `Tracks.spawn` and their
like), and the task under another key is left as it is (`Tracks.under_spawn`,
`Tracks.under_cancel`, `Tracks.under_prune`).
-/

namespace ViewTree

/-! ### Reading the registered tasks -/

theorem lookup_eq_some_iff_mem {entries : List (String × Nat)}
    (h : (entries.map Prod.fst).Nodup) {key : String} {id : Nat} :
    entries.lookup key = some id ↔ (key, id) ∈ entries := by
  induction entries with
  | nil => simp
  | cons entry entries ih =>
    obtain ⟨other, number⟩ := entry
    obtain ⟨hnot, hnodup⟩ := List.nodup_cons.mp h
    rw [List.lookup_cons, List.mem_cons, Prod.mk.injEq]
    by_cases hkey : key = other
    · subst hkey
      have hnone : (key, id) ∉ entries := fun hmem => hnot (List.mem_map.mpr ⟨_, hmem, rfl⟩)
      simp [hnone, eq_comm]
    · have hbeq : (key == other) = false := beq_eq_false_iff_ne.mpr hkey
      simp [hbeq, hkey, ih hnodup]

theorem lookup_filter_ne {entries : List (String × Nat)} {key other : String} (h : other ≠ key) :
    (entries.filter fun entry => entry.1 != key).lookup other = entries.lookup other := by
  induction entries with
  | nil => rfl
  | cons entry entries ih =>
    obtain ⟨name, number⟩ := entry
    by_cases hname : name = key
    · subst hname
      have hother : (other == name) = false := beq_eq_false_iff_ne.mpr h
      simp [List.lookup_cons, hother, ih]
    · simp [List.lookup_cons, hname, ih]

namespace TaskPool

variable {β : Type} {pool later : TaskPool β} {held : String → Option Nat} {done : Nat → Prop}
  {key other : String} {id : Nat} {body : β}

/-- The numbers of the unfinished tasks. -/
def unfinished (pool : TaskPool β) : List Nat := pool.tasks.map Prod.fst

/-- What is left to do under a key: of the tasks that can run, and of those that wait. -/
def under (pool : TaskPool β) (key : String) : List (Nat × β) × List (Sleeper β) :=
  (pool.ready.filter fun task => pool.registered.lookup key == some task.1,
    pool.waiting.filter fun task => pool.registered.lookup key == some task.id)

/-- The pool with one more task. -/
def enroll (pool : TaskPool β) (key : String) (body : β) : TaskPool β :=
  { pool with
    registered := pool.registered ++ [(key, pool.next)]
    ready := pool.ready ++ [(pool.next, body)]
    next := pool.next + 1 }

theorem spawn_eq (pool : TaskPool β) (key : String) (body : β) :
    pool.spawn key body = (pool.cancel key).prune.enroll key body := rfl

theorem unfinished_eq (pool : TaskPool β) :
    pool.unfinished = pool.ready.map Prod.fst ++ pool.waiting.map Sleeper.id := by
  rw [unfinished, tasks, List.map_append, List.map_map]
  rfl

theorem isAlive_iff : pool.isAlive id = true ↔ id ∈ pool.unfinished := by
  rw [unfinished_eq, isAlive]
  simp

theorem unfinished_enroll :
    (pool.enroll key body).unfinished.Perm (pool.next :: pool.unfinished) := by
  rw [unfinished_eq, unfinished_eq, enroll]
  simp only [List.map_append, List.map_cons, List.map_nil, List.append_assoc]
  exact List.perm_middle

theorem unfinished_abort : (pool.abort id).unfinished = pool.unfinished.filter (· != id) := by
  rw [unfinished_eq, unfinished_eq, abort, List.filter_append, List.filter_map, List.filter_map]
  rfl

theorem cancel_of_none (h : pool.registered.lookup key = none) : pool.cancel key = pool := by
  rw [cancel, h]

theorem cancel_of_some (h : pool.registered.lookup key = some id) :
    pool.cancel key = { pool.abort id with
      registered := pool.registered.filter fun entry => entry.1 != key } := by
  rw [cancel, h]

theorem next_cancel (pool : TaskPool β) (key : String) :
    (pool.cancel key).next = pool.next := by
  unfold cancel
  split <;> rfl

/-! ### Keeping track -/

/-- The pool keeps track of which task each key stands for and of which tasks have finished.  Its
unfinished tasks are those that a key stands for and that have not finished, and they are all
registered; a finished task may be, too. -/
structure Tracks (pool : TaskPool β) (held : String → Option Nat) (done : Nat → Prop) : Prop where
  keys_nodup : (pool.registered.map Prod.fst).Nodup
  held_of_mem : ∀ {key id}, (key, id) ∈ pool.registered → held key = some id
  registered_of_unfinished : ∀ {id}, id ∈ pool.unfinished → ∃ key, (key, id) ∈ pool.registered
  unfinished_of_held : ∀ {key id}, held key = some id → ¬done id → id ∈ pool.unfinished
  not_done : ∀ {id}, id ∈ pool.unfinished → ¬done id
  nodup : pool.unfinished.Nodup
  held_lt : ∀ {key id}, held key = some id → id < pool.next
  done_lt : ∀ {id}, done id → id < pool.next
  held_inj : ∀ {key key' id}, held key = some id → held key' = some id → key = key'

namespace Tracks

theorem empty : (TaskPool.empty : TaskPool β).Tracks (fun _ => none) (fun _ => False) where
  keys_nodup := List.nodup_nil
  held_of_mem h := absurd h List.not_mem_nil
  registered_of_unfinished h := absurd h List.not_mem_nil
  unfinished_of_held h := nomatch h
  not_done h := absurd h List.not_mem_nil
  nodup := List.nodup_nil
  held_lt h := nomatch h
  done_lt h := h.elim
  held_inj h := nomatch h

theorem lookup_iff (h : pool.Tracks held done) :
    pool.registered.lookup key = some id ↔ (key, id) ∈ pool.registered :=
  lookup_eq_some_iff_mem h.keys_nodup

theorem held_of_lookup (h : pool.Tracks held done)
    (hlookup : pool.registered.lookup key = some id) : held key = some id :=
  h.held_of_mem (h.lookup_iff.mp hlookup)

/-- An unfinished task that a key stands for is registered under it. -/
theorem lookup_of_held (h : pool.Tracks held done) (hheld : held key = some id)
    (hid : id ∈ pool.unfinished) : pool.registered.lookup key = some id := by
  obtain ⟨key', hmem⟩ := h.registered_of_unfinished hid
  obtain rfl : key' = key := h.held_inj (h.held_of_mem hmem) hheld
  exact h.lookup_iff.mpr hmem

/-! ### The operations of the host -/

/-- Where the unfinished tasks only trade places, nothing else is to be kept track of. -/
theorem of_perm (h : pool.Tracks held done) (hregistered : later.registered = pool.registered)
    (hnext : later.next = pool.next) (hperm : later.unfinished.Perm pool.unfinished) :
    later.Tracks held done where
  keys_nodup := hregistered ▸ h.keys_nodup
  held_of_mem hmem := h.held_of_mem (hregistered ▸ hmem)
  registered_of_unfinished hid :=
    hregistered ▸ h.registered_of_unfinished (hperm.mem_iff.mp hid)
  unfinished_of_held hheld hdone := hperm.mem_iff.mpr (h.unfinished_of_held hheld hdone)
  not_done hid := h.not_done (hperm.mem_iff.mp hid)
  nodup := hperm.nodup_iff.mpr h.nodup
  held_lt hheld := hnext ▸ h.held_lt hheld
  done_lt hdone := hnext ▸ h.done_lt hdone
  held_inj := h.held_inj

theorem cancel (h : pool.Tracks held done) (key : String) :
    (pool.cancel key).Tracks (Function.update held key none) done := by
  -- What still stands for a task has another key.
  have hother : ∀ {key' id}, Function.update held key none key' = some id →
      key' ≠ key ∧ held key' = some id := by
    intro key' id hheld
    by_cases hkey : key' = key
    · rw [hkey, Function.update_self] at hheld
      exact nomatch hheld
    · rw [Function.update_of_ne hkey] at hheld
      exact ⟨hkey, hheld⟩
  cases hlookup : pool.registered.lookup key with
  | none =>
    rw [cancel_of_none hlookup]
    refine { h with
      held_of_mem := ?_
      unfinished_of_held := fun hheld hdone => h.unfinished_of_held (hother hheld).2 hdone
      held_lt := fun hheld => h.held_lt (hother hheld).2
      held_inj := fun hheld hheld' => h.held_inj (hother hheld).2 (hother hheld').2 }
    intro key' id hmem
    have hkey : key' ≠ key := by
      rintro rfl
      rw [h.lookup_iff.mpr hmem] at hlookup
      exact nomatch hlookup
    rw [Function.update_of_ne hkey]
    exact h.held_of_mem hmem
  | some stopped =>
    rw [cancel_of_some hlookup]
    have hmem_iff : ∀ {id}, id ∈ (pool.abort stopped).unfinished ↔
        id ∈ pool.unfinished ∧ id ≠ stopped := by
      intro id
      rw [unfinished_abort, List.mem_filter, bne_iff_ne]
    constructor
    case keys_nodup => exact h.keys_nodup.sublist (List.filter_sublist.map _)
    case held_of_mem =>
      intro key' id hmem
      obtain ⟨hmem, hkey⟩ := List.mem_filter.mp hmem
      rw [Function.update_of_ne (bne_iff_ne.mp hkey)]
      exact h.held_of_mem hmem
    case registered_of_unfinished =>
      intro id hid
      obtain ⟨hid, hne⟩ := hmem_iff.mp hid
      obtain ⟨key', hmem⟩ := h.registered_of_unfinished hid
      refine ⟨key', List.mem_filter.mpr ⟨hmem, bne_iff_ne.mpr ?_⟩⟩
      rintro rfl
      exact hne (Option.some.inj ((h.lookup_iff.mpr hmem).symm.trans hlookup))
    case unfinished_of_held =>
      intro key' id hheld hdone
      obtain ⟨hkey, hheld⟩ := hother hheld
      refine hmem_iff.mpr ⟨h.unfinished_of_held hheld hdone, ?_⟩
      rintro rfl
      exact hkey (h.held_inj hheld (h.held_of_lookup hlookup))
    case not_done => exact fun hid => h.not_done (hmem_iff.mp hid).1
    case nodup =>
      have hnodup : (pool.abort stopped).unfinished.Nodup := by
        rw [unfinished_abort]
        exact h.nodup.filter _
      exact hnodup
    case held_lt => exact fun hheld => h.held_lt (hother hheld).2
    case done_lt => exact h.done_lt
    case held_inj => exact fun hheld hheld' => h.held_inj (hother hheld).2 (hother hheld').2

theorem listed (h : pool.Tracks held done) : pool.Listed :=
  fun _ hmem => h.registered_of_unfinished (List.mem_map_of_mem hmem)

/-- Stopping every registered task leaves none, since all of them are registered. -/
theorem cancelAll (h : pool.Tracks held done) : pool.cancelAll.Tracks (fun _ => none) done := by
  have hnone : pool.cancelAll.unfinished = [] := by
    rw [unfinished, h.listed.tasks_cancelAll, List.map_nil]
  have hnot : ∀ {id}, id ∉ pool.cancelAll.unfinished := by
    intro id hid
    rw [hnone] at hid
    exact List.not_mem_nil hid
  exact {
    keys_nodup := List.nodup_nil
    held_of_mem := fun hmem => absurd hmem List.not_mem_nil
    registered_of_unfinished := fun hid => absurd hid hnot
    unfinished_of_held := fun hheld => nomatch hheld
    not_done := fun hid => absurd hid hnot
    nodup := hnone ▸ List.nodup_nil
    held_lt := fun hheld => nomatch hheld
    done_lt := fun hdone => (next_cancelAll pool).symm ▸ h.done_lt hdone
    held_inj := fun hheld => nomatch hheld }

theorem mem_registered_prune :
    (key, id) ∈ pool.prune.registered ↔ (key, id) ∈ pool.registered ∧ id ∈ pool.unfinished := by
  rw [prune, List.mem_filter, isAlive_iff]

theorem prune (h : pool.Tracks held done) : pool.prune.Tracks held done :=
  { h with
    keys_nodup := h.keys_nodup.sublist (List.filter_sublist.map _)
    held_of_mem := fun hmem => h.held_of_mem (mem_registered_prune.mp hmem).1
    registered_of_unfinished := fun hid => by
      obtain ⟨key, hmem⟩ := h.registered_of_unfinished hid
      exact ⟨key, mem_registered_prune.mpr ⟨hmem, hid⟩⟩ }

/-- A key that stands for no task takes a new one. -/
theorem enroll (h : pool.Tracks held done) (hfree : held key = none) (body : β) :
    (pool.enroll key body).Tracks (Function.update held key (some pool.next)) done := by
  have hcases : ∀ {key' id}, Function.update held key (some pool.next) key' = some id →
      key' = key ∧ id = pool.next ∨ key' ≠ key ∧ held key' = some id := by
    intro key' id hheld
    by_cases hkey : key' = key
    · rw [hkey, Function.update_self] at hheld
      exact .inl ⟨hkey, (Option.some.inj hheld).symm⟩
    · rw [Function.update_of_ne hkey] at hheld
      exact .inr ⟨hkey, hheld⟩
  have hmem_iff : ∀ {id}, id ∈ (pool.enroll key body).unfinished ↔
      id = pool.next ∨ id ∈ pool.unfinished := by
    intro id
    rw [unfinished_enroll.mem_iff, List.mem_cons]
  have hlt : ∀ {id}, id ∈ pool.unfinished → id < pool.next := by
    intro id hid
    obtain ⟨key', hmem⟩ := h.registered_of_unfinished hid
    exact h.held_lt (h.held_of_mem hmem)
  have hne : ∀ {key' id}, (key', id) ∈ pool.registered → key' ≠ key := by
    rintro key' id hmem rfl
    rw [h.held_of_mem hmem] at hfree
    exact nomatch hfree
  constructor
  case keys_nodup =>
    have hkeys : ((pool.enroll key body).registered.map Prod.fst)
        = pool.registered.map Prod.fst ++ [key] := by simp [TaskPool.enroll]
    rw [hkeys, List.nodup_append_comm, List.singleton_append, List.nodup_cons]
    refine ⟨?_, h.keys_nodup⟩
    intro hkey
    obtain ⟨⟨key', id⟩, hmem, rfl⟩ := List.mem_map.mp hkey
    exact hne hmem rfl
  case held_of_mem =>
    intro key' id hmem
    rcases List.mem_append.mp hmem with hmem | hnew
    · rw [Function.update_of_ne (hne hmem)]
      exact h.held_of_mem hmem
    · obtain ⟨rfl, rfl⟩ := Prod.mk.inj (List.mem_singleton.mp hnew)
      exact Function.update_self ..
  case registered_of_unfinished =>
    intro id hid
    rcases hmem_iff.mp hid with rfl | hid
    · exact ⟨key, List.mem_append_right _ (List.mem_singleton_self _)⟩
    · obtain ⟨key', hmem⟩ := h.registered_of_unfinished hid
      exact ⟨key', List.mem_append_left _ hmem⟩
  case unfinished_of_held =>
    intro key' id hheld hdone
    rcases hcases hheld with ⟨-, rfl⟩ | ⟨-, hheld⟩
    · exact hmem_iff.mpr (.inl rfl)
    · exact hmem_iff.mpr (.inr (h.unfinished_of_held hheld hdone))
  case not_done =>
    intro id hid hdone
    rcases hmem_iff.mp hid with rfl | hid
    · exact Nat.lt_irrefl _ (h.done_lt hdone)
    · exact h.not_done hid hdone
  case nodup =>
    rw [unfinished_enroll.nodup_iff, List.nodup_cons]
    exact ⟨fun hid => Nat.lt_irrefl _ (hlt hid), h.nodup⟩
  case held_lt =>
    intro key' id hheld
    rcases hcases hheld with ⟨-, rfl⟩ | ⟨-, hheld⟩
    · exact Nat.lt_succ_self _
    · exact Nat.lt_succ_of_lt (h.held_lt hheld)
  case done_lt => exact fun hdone => Nat.lt_succ_of_lt (h.done_lt hdone)
  case held_inj =>
    intro key₁ key₂ id hheld₁ hheld₂
    rcases hcases hheld₁ with ⟨rfl, rfl⟩ | ⟨-, hold₁⟩
    · rcases hcases hheld₂ with ⟨rfl, -⟩ | ⟨-, hold₂⟩
      · rfl
      · exact absurd (h.held_lt hold₂) (Nat.lt_irrefl _)
    · rcases hcases hheld₂ with ⟨-, rfl⟩ | ⟨-, hold₂⟩
      · exact absurd (h.held_lt hold₁) (Nat.lt_irrefl _)
      · exact h.held_inj hold₁ hold₂

/-- The new task takes the place of the one that its key stood for. -/
theorem spawn (h : pool.Tracks held done) (key : String) (body : β) :
    (pool.spawn key body).Tracks (Function.update held key (some pool.next)) done := by
  have hfree : Function.update held key none key = none := Function.update_self ..
  have hspawned := (h.cancel key).prune.enroll hfree body
  have hnext : (pool.cancel key).prune.next = pool.next := next_cancel pool key
  rwa [Function.update_idem, hnext, ← spawn_eq] at hspawned

/-- A task that finishes is not unfinished any more. -/
theorem finish (h : pool.Tracks held done) (hregistered : later.registered = pool.registered)
    (hnext : later.next = pool.next) (hperm : pool.unfinished.Perm (id :: later.unfinished)) :
    later.Tracks held fun number => done number ∨ number = id := by
  have hmem_iff : ∀ {number}, number ∈ pool.unfinished ↔
      number = id ∨ number ∈ later.unfinished := by
    intro number
    rw [hperm.mem_iff, List.mem_cons]
  have hnodup := List.nodup_cons.mp (hperm.nodup_iff.mp h.nodup)
  constructor
  case keys_nodup => exact hregistered ▸ h.keys_nodup
  case held_of_mem => exact fun hmem => h.held_of_mem (hregistered ▸ hmem)
  case registered_of_unfinished =>
    exact fun hid => hregistered ▸ h.registered_of_unfinished (hmem_iff.mpr (.inr hid))
  case unfinished_of_held =>
    intro key number hheld hdone
    rw [not_or] at hdone
    exact (hmem_iff.mp (h.unfinished_of_held hheld hdone.1)).resolve_left hdone.2
  case not_done =>
    rintro number hid (hdone | rfl)
    · exact h.not_done (hmem_iff.mpr (.inr hid)) hdone
    · exact hnodup.1 hid
  case nodup => exact hnodup.2
  case held_lt => exact fun hheld => hnext ▸ h.held_lt hheld
  case done_lt =>
    rintro number (hdone | rfl)
    · exact hnext ▸ h.done_lt hdone
    · obtain ⟨key, hmem⟩ := h.registered_of_unfinished (hmem_iff.mpr (.inl rfl))
      exact hnext ▸ h.held_lt (h.held_of_mem hmem)
  case held_inj => exact h.held_inj

/-! ### Other keys -/

/-- A key other than the one that is cancelled keeps its task as it is. -/
theorem under_cancel (h : pool.Tracks held done) (hne : other ≠ key) :
    (pool.cancel key).under other = pool.under other := by
  cases hlookup : pool.registered.lookup key with
  | none => rw [cancel_of_none hlookup]
  | some stopped =>
    rw [cancel_of_some hlookup]
    -- The task that is stopped is not the one under the other key.
    have hkept : ∀ id, (pool.registered.lookup other == some id) = true →
        (id != stopped) = true := by
      intro id hid
      refine bne_iff_ne.mpr ?_
      rintro rfl
      exact hne (h.held_inj (h.held_of_lookup (eq_of_beq hid)) (h.held_of_lookup hlookup))
    simp only [under, abort, lookup_filter_ne hne, List.filter_filter]
    congr 1
    · refine List.filter_congr fun task _ => ?_
      rw [Bool.and_eq_left_iff_imp]
      exact hkept task.1
    · refine List.filter_congr fun task _ => ?_
      rw [Bool.and_eq_left_iff_imp]
      exact hkept task.id

/-- Pruning forgets no unfinished task. -/
theorem under_prune (h : pool.Tracks held done) (key : String) :
    pool.prune.under key = pool.under key := by
  have hsame : ∀ id ∈ pool.unfinished,
      (pool.prune.registered.lookup key == some id) = (pool.registered.lookup key == some id) := by
    intro id hid
    rw [Bool.eq_iff_iff, beq_iff_eq, beq_iff_eq, h.prune.lookup_iff, h.lookup_iff,
      mem_registered_prune, and_iff_left hid]
  rw [unfinished_eq] at hsame
  unfold under
  congr 1
  · refine List.filter_congr fun task htask => hsame task.1 ?_
    exact List.mem_append_left _ (List.mem_map_of_mem htask)
  · refine List.filter_congr fun task htask => hsame task.id ?_
    exact List.mem_append_right _ (List.mem_map_of_mem htask)

theorem under_enroll (h : pool.Tracks held done) (hne : other ≠ key) (body : β) :
    (pool.enroll key body).under other = pool.under other := by
  have hlookup : (pool.enroll key body).registered.lookup other
      = pool.registered.lookup other := by
    have hother : [(key, pool.next)].lookup other = none := by
      rw [List.lookup_cons, beq_eq_false_iff_ne.mpr hne]
      rfl
    rw [TaskPool.enroll, List.lookup_append, hother, Option.or_none]
  -- The number of the new task has not been given to another.
  have hnew : (pool.registered.lookup other == some pool.next) = false := by
    refine beq_eq_false_iff_ne.mpr ?_
    intro hnext
    exact Nat.lt_irrefl _ (h.held_lt (h.held_of_lookup hnext))
  rw [under, hlookup]
  simp [TaskPool.enroll, under, List.filter_append, hnew]

/-- A key other than the one that a task is spawned under keeps its task as it is. -/
theorem under_spawn (h : pool.Tracks held done) (hne : other ≠ key) (body : β) :
    (pool.spawn key body).under other = pool.under other := by
  rw [spawn_eq, (h.cancel key).prune.under_enroll hne, (h.cancel key).under_prune,
    h.under_cancel hne]

end Tracks

end TaskPool

end ViewTree
