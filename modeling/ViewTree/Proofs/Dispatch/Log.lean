import Mathlib.Data.List.DropRight
import ViewTree.Dispatch.Log

/-!
# What a log holds

A log is recorded to and cleared in any order.  Its history is every link that its filter has let
through since it was made, numbered from zero; clearing does not touch the history.  The log holds
the end of its history: as many entries as were let through since it was last cleared, or as many as
it has room for, if that is less (`log_contents`).

One act keeps this (`Reflects.perform`): where the log is full the oldest entry gives way, which is
`rtake_concat`.
-/

namespace ViewTree

/-! ### The end of a list -/

section

variable {α : Type}

theorem length_rtake (l : List α) (n : Nat) : (l.rtake n).length = min n l.length := by
  rw [List.rtake, List.length_drop]
  omega

theorem drop_one_rtake {l : List α} {n : Nat} (h : n < l.length) :
    (l.rtake (n + 1)).drop 1 = l.rtake n := by
  have hstart : l.length - (n + 1) + 1 = l.length - n := by omega
  rw [List.rtake, List.drop_drop, hstart, List.rtake]

/-- One more at the end of a list: of the last `k`, of which at most `room` are kept, the first has
to go if there is no room left. -/
theorem rtake_concat {l : List α} {room k : Nat} (hroom : room ≠ 0) (hk : k ≤ l.length) (x : α) :
    (l ++ [x]).rtake (min room (k + 1)) =
      (if room ≤ (l.rtake (min room k)).length then (l.rtake (min room k)).drop 1
        else l.rtake (min room k)) ++ [x] := by
  obtain ⟨room, rfl⟩ := Nat.exists_eq_succ_of_ne_zero hroom
  rw [Nat.succ_min_succ, List.rtake_concat_succ, length_rtake]
  congr 1
  by_cases hfull : room < k
  · have hmin : min (room + 1) k = room + 1 := by omega
    rw [Nat.succ_eq_add_one, hmin, if_pos (by omega), drop_one_rtake (by omega), Nat.min_eq_left]
    omega
  · have hmin : min (room + 1) k = k := by omega
    rw [Nat.succ_eq_add_one, hmin, if_neg (by omega), Nat.min_eq_right]
    omega

end

/-! ### The history of a log -/

/-- Something that is done to a log. -/
inductive LogAct where
  | record (time : Nat) (link : LinkReport)
  | clear

namespace LogAct

/-- The link, and its time, that a filter lets through. -/
def accepted? (filter : LogFilter) : LogAct → Option (Nat × LinkReport)
  | record time link => if filter.allows link.name then some (time, link) else none
  | clear => none

def isClear : LogAct → Bool
  | record _ _ => false
  | clear => true

end LogAct

namespace DispatchLog

/-- The links that a filter lets through, in order. -/
def accepted (filter : LogFilter) (acts : List LogAct) : List (Nat × LinkReport) :=
  acts.filterMap (LogAct.accepted? filter)

/-- What was done after the log was last cleared. -/
def sinceClear (acts : List LogAct) : List LogAct :=
  acts.rtakeWhile fun act => !act.isClear

/-- An entry for each link that a filter lets through, with the number of those before it. -/
def history (filter : LogFilter) (acts : List LogAct) : List LogEntry :=
  (accepted filter acts).zipIdx.map fun ((time, link), number) => ⟨link, number, time⟩

/-- The log after something is done to it. -/
def perform (log : DispatchLog) : LogAct → DispatchLog
  | .record time link => log.record time link
  | .clear => log.clear

/-- The log after several things are done to it, one after another. -/
def performAll (log : DispatchLog) (acts : List LogAct) : DispatchLog :=
  acts.foldl perform log

variable {filter : LogFilter} {config : LogConfig} {acts : List LogAct} {log : DispatchLog}
  {time : Nat} {link : LinkReport}

theorem accepted_concat (filter : LogFilter) (acts : List LogAct) (act : LogAct) :
    accepted filter (acts ++ [act]) = accepted filter acts ++ (act.accepted? filter).toList := by
  rw [accepted, List.filterMap_append]
  cases h : act.accepted? filter <;> simp [accepted, h]

theorem history_concat_of_allowed (h : filter.allows link.name = true) :
    history filter (acts ++ [.record time link]) =
      history filter acts ++ [⟨link, (accepted filter acts).length, time⟩] := by
  have hact : (LogAct.record time link).accepted? filter = some (time, link) := if_pos h
  rw [history, accepted_concat, hact, Option.toList_some, List.zipIdx_append, List.map_append]
  simp [history]

theorem history_concat_of_not_accepted {act : LogAct} (h : act.accepted? filter = none) :
    history filter (acts ++ [act]) = history filter acts := by
  rw [history, accepted_concat, h, Option.toList_none, List.append_nil]
  rfl

theorem length_history (filter : LogFilter) (acts : List LogAct) :
    (history filter acts).length = (accepted filter acts).length := by
  rw [history, List.length_map, List.length_zipIdx]

theorem sinceClear_record :
    sinceClear (acts ++ [.record time link]) = sinceClear acts ++ [.record time link] :=
  List.rtakeWhile_concat_pos _ _ _ rfl

theorem sinceClear_clear : sinceClear (acts ++ [.clear]) = [] :=
  List.rtakeWhile_concat_neg _ _ _ (by simp [LogAct.isClear])

theorem length_accepted_sinceClear_le (filter : LogFilter) (acts : List LogAct) :
    (accepted filter (sinceClear acts)).length ≤ (history filter acts).length := by
  rw [length_history]
  exact ((List.rtakeWhile_suffix _ acts).sublist.filterMap _).length_le

/-! ### What is kept -/

/-- How many entries a log holds: those let through since it was last cleared, up to its
capacity. -/
def held (config : LogConfig) (acts : List LogAct) : Nat :=
  min config.capacity (accepted config.filter (sinceClear acts)).length

/-- The log stands as it has to after what was done to it.  A log without room keeps no count. -/
structure Reflects (config : LogConfig) (acts : List LogAct) (log : DispatchLog) : Prop where
  config_eq : log.config = config
  entries_eq : log.entries = (history config.filter acts).rtake (held config acts)
  next_eq : config.capacity ≠ 0 → log.next = (accepted config.filter acts).length

namespace Reflects

theorem empty (config : LogConfig) : Reflects config [] (.empty config) where
  config_eq := rfl
  entries_eq := by simp [DispatchLog.empty, history, accepted]
  next_eq _ := rfl

theorem accepts_eq (h : Reflects config acts log) (link : LinkReport) :
    log.accepts link = true ↔ config.capacity ≠ 0 ∧ config.filter.allows link.name = true := by
  rw [DispatchLog.accepts, h.config_eq]
  simp

theorem clear (h : Reflects config acts log) : Reflects config (acts ++ [.clear]) log.clear where
  config_eq := h.config_eq
  entries_eq := by
    rw [held, sinceClear_clear]
    simp [DispatchLog.clear, accepted]
  next_eq hroom := by
    have hnext : log.clear.next = log.next := rfl
    rw [accepted_concat, hnext, h.next_eq hroom]
    simp [LogAct.accepted?]

/-- A link that is let through joins the history and the log, with the next number. -/
theorem record_of_accepted (h : Reflects config acts log) (hroom : config.capacity ≠ 0)
    (hallows : config.filter.allows link.name = true) :
    Reflects config (acts ++ [.record time link]) (log.record time link) := by
  have haccepts : log.accepts link = true := (h.accepts_eq link).mpr ⟨hroom, hallows⟩
  have hact : (LogAct.record time link).accepted? config.filter = some (time, link) :=
    if_pos hallows
  have hheld : held config (acts ++ [.record time link]) =
      min config.capacity ((accepted config.filter (sinceClear acts)).length + 1) := by
    rw [held, sinceClear_record, accepted_concat, hact]
    simp
  have hnext : log.next = (accepted config.filter acts).length := h.next_eq hroom
  rw [DispatchLog.record, if_pos haccepts]
  constructor
  · exact h.config_eq
  · have hle := length_accepted_sinceClear_le config.filter acts
    rw [hheld, history_concat_of_allowed hallows, rtake_concat hroom hle]
    simp only [h.config_eq, h.entries_eq, hnext, held]
  · intro _
    rw [accepted_concat, hact]
    simp [hnext]

/-- A link that is not let through changes nothing, and a log without room holds nothing. -/
theorem record_of_not_accepted (h : Reflects config acts log)
    (hnot : ¬(config.capacity ≠ 0 ∧ config.filter.allows link.name = true)) :
    Reflects config (acts ++ [.record time link]) (log.record time link) := by
  have haccepts : ¬log.accepts link = true := fun haccepts => hnot ((h.accepts_eq link).mp haccepts)
  rw [DispatchLog.record, if_neg haccepts]
  refine ⟨h.config_eq, ?_, ?_⟩
  · by_cases hroom : config.capacity = 0
    · have hempty : log.entries = [] := by simp [h.entries_eq, held, hroom]
      simp [hempty, held, hroom]
    · have hact : (LogAct.record time link).accepted? config.filter = none :=
        if_neg fun hallows => hnot ⟨hroom, hallows⟩
      rw [history_concat_of_not_accepted hact, held, sinceClear_record, accepted_concat, hact]
      simpa [held] using h.entries_eq
  · intro hroom
    have hact : (LogAct.record time link).accepted? config.filter = none :=
      if_neg fun hallows => hnot ⟨hroom, hallows⟩
    rw [accepted_concat, hact]
    simpa using h.next_eq hroom

/-- **One act** keeps the log as it has to be. -/
theorem perform (h : Reflects config acts log) (act : LogAct) :
    Reflects config (acts ++ [act]) (log.perform act) := by
  cases act with
  | clear => exact h.clear
  | record time link =>
    by_cases haccepted : config.capacity ≠ 0 ∧ config.filter.allows link.name = true
    · exact h.record_of_accepted haccepted.1 haccepted.2
    · exact h.record_of_not_accepted haccepted

theorem performAll (config : LogConfig) (acts : List LogAct) :
    Reflects config acts ((DispatchLog.empty config).performAll acts) := by
  induction acts using List.reverseRecOn with
  | nil => exact empty config
  | append_singleton acts act ih =>
    rw [DispatchLog.performAll, List.foldl_concat]
    exact ih.perform act

theorem length_entries (h : Reflects config acts log) : log.entries.length = held config acts := by
  have hle := length_accepted_sinceClear_le config.filter acts
  rw [h.entries_eq, length_rtake]
  unfold held
  omega

/-- Recording gives back the new entry, which stands last. -/
theorem recorded?_eq (h : Reflects config acts log) (time : Nat) (link : LinkReport) :
    log.recorded? time link =
      if config.capacity ≠ 0 ∧ config.filter.allows link.name = true
      then some ⟨link, (accepted config.filter acts).length, time⟩ else none := by
  by_cases haccepted : config.capacity ≠ 0 ∧ config.filter.allows link.name = true
  · have haccepts : log.accepts link = true := (h.accepts_eq link).mpr haccepted
    rw [DispatchLog.recorded?, if_pos haccepts, if_pos haccepted, DispatchLog.record,
      if_pos haccepts, ← h.next_eq haccepted.1]
    exact List.getLast?_concat
  · have haccepts : ¬log.accepts link = true :=
      fun haccepts => haccepted ((h.accepts_eq link).mp haccepts)
    rw [DispatchLog.recorded?, if_neg haccepts, if_neg haccepted]

end Reflects

theorem recent_eq (log : DispatchLog) (count : Nat) :
    log.recent count = (log.entries.rtake count).reverse := by
  rw [DispatchLog.recent, List.rtake_eq_reverse_take_reverse, List.reverse_reverse]

/-- **The contents of a log.**  Whatever was done to a log since it was made, it holds the last of
the links its filter has let through, oldest first: as many as were let through since it was last
cleared, up to its capacity.  An entry has the number of the links let through before it.  Recording
gives back the new entry if the link is let through and there is room for one, and the recent
entries are the last ones in reverse. -/
theorem log_contents (config : LogConfig) (acts : List LogAct) :
    let log := (empty config).performAll acts
    let count := min config.capacity (accepted config.filter (sinceClear acts)).length
    log.entries = (history config.filter acts).rtake count ∧
    log.entries.length = count ∧
    (∀ time link, log.recorded? time link =
      if config.capacity ≠ 0 ∧ config.filter.allows link.name = true
      then some ⟨link, (accepted config.filter acts).length, time⟩ else none) ∧
    ∀ n, log.recent n = (log.entries.rtake n).reverse := by
  intro log count
  have h : Reflects config acts log := .performAll config acts
  exact ⟨h.entries_eq, h.length_entries, h.recorded?_eq, recent_eq log⟩

/-- A full log lets its oldest entry go, and clearing it does not start the numbers over. -/
example (link : LinkReport) :
    (((empty { capacity := 1 }).performAll [.record 3 link, .clear, .record 5 link,
      .record 8 link]).entries.map LogEntry.sequence) = [2] := rfl

end DispatchLog

end ViewTree
