import ViewTree.Proofs.Dispatch.Descent

/-!
# The reports of a handler

A handler takes up its actions in order, and puts a chain down once it has ended.  So a handler that
comes to its end has one report for each of its actions: `Reported` says of which chains they are,
and `HandlerRun.exists_reports` follows a handler from wherever it stands.
-/

namespace ViewTree

/-- A handler after each of its steps, the worlds it finds given. -/
def HandlerRun.through (setting : Setting) (worlds : Nat → World) (run : HandlerRun) :
    Nat → HandlerRun
  | 0 => run
  | n + 1 => ((run.through setting worlds n).step setting (worlds n)).2

/-- The reports of some actions, which are dispatched one after another: an action is taken up some
steps on, and the next one not before its chain has ended. -/
inductive Reported (setting : Setting) (event : Option Json) :
    (Nat → World) → List Action → List DispatchReport → Prop
  | nil {worlds : Nat → World} : Reported setting event worlds [] []
  | cons {worlds : Nat → World} {action : Action} {actions : List Action}
    {reports : List DispatchReport} {chain : Chain} (first n : Nat) :
    chain = (Chain.start action event).through setting (fun k => worlds (first + k)) n →
    chain.isDone = true →
    Reported setting event (fun k => worlds (first + n + k)) actions reports →
    Reported setting event worlds (action :: actions) (chain.links :: reports)

section

variable {setting : Setting} {event : Option Json} {worlds : Nat → World} {actions : List Action}
  {reports : List DispatchReport}

namespace Reported

theorem of_later (n : Nat)
    (h : Reported setting event (fun k => worlds (n + k)) actions reports) :
    Reported setting event worlds actions reports := by
  cases h with
  | nil => exact .nil
  | cons first m hchain hdone hrest =>
    simp only [← Nat.add_assoc] at hchain hrest
    exact .cons (n + first) m hchain hdone hrest

/-- There is one report for each action. -/
theorem length_eq (h : Reported setting event worlds actions reports) :
    reports.length = actions.length := by
  induction h with
  | nil => rfl
  | cons first n _ _ _ ih => exact congrArg (· + 1) ih

end Reported

namespace HandlerRun

variable {run : HandlerRun}

/-- The steps of a handler, the first one apart. -/
theorem through_succ (run : HandlerRun) (n : Nat) : run.through setting worlds (n + 1)
    = (run.step setting (worlds 0)).2.through setting (fun k => worlds (1 + k)) n := by
  induction n with
  | zero => rfl
  | succ n ih =>
    show ((run.through setting worlds (n + 1)).step setting (worlds (n + 1))).2
      = ((_ : HandlerRun).step setting (worlds (1 + n))).2
    rw [ih, Nat.add_comm 1 n]

/-- What a handler that comes to its end still reports: the chain under way, if there is one, and
the actions still to come. -/
def Reports (setting : Setting) (worlds : Nat → World) (run : HandlerRun)
    (reports : List DispatchReport) : Prop :=
  match run.current with
  | none => Reported setting (some run.payload) worlds run.pending reports
  | some chain => ∃ n rest, (chain.through setting worlds n).isDone = true ∧
    reports = (chain.through setting worlds n).links :: rest ∧
    Reported setting (some run.payload) (fun k => worlds (n + k)) run.pending rest

/-- A step of a handler adds to its reports the chain it puts down, and nothing else. -/
theorem exists_reports_step
    (h : (run.step setting (worlds 0)).2.Reports setting (fun k => worlds (1 + k)) reports) :
    ∃ now, (run.step setting (worlds 0)).2.reports = run.reports ++ now ∧
      run.Reports setting worlds (now ++ reports) := by
  obtain ⟨kind, payload, pending, current, settled⟩ := run
  cases current with
  | some chain =>
    cases hdone : chain.isDone with
    | true =>
      simp only [step, hdone, if_true] at h ⊢
      -- The chain has ended, so that its links are the report to come, and it is put down.
      refine ⟨[chain.links], rfl, 0, reports, hdone, rfl, ?_⟩
      simp only [Nat.zero_add]
      exact Reported.of_later 1 h
    | false =>
      simp only [step, hdone, Bool.false_eq_true, if_false] at h ⊢
      obtain ⟨n, rest, hends, hreports, hrest⟩ := h
      -- The chain ends one step later, counted from here.
      rw [← Chain.through_succ] at hends hreports
      refine ⟨[], (List.append_nil _).symm, n + 1, rest, hends, hreports, ?_⟩
      simpa only [Nat.add_comm n 1, Nat.add_assoc] using hrest
  | none =>
    cases pending with
    | nil => exact ⟨[], (List.append_nil _).symm, Reported.of_later 1 h⟩
    | cons action pending =>
      -- The step takes up the next action, whose chain starts in the world after this one.
      obtain ⟨n, rest, hends, rfl, hrest⟩ := h
      simp only [← Nat.add_assoc] at hrest
      exact ⟨[], (List.append_nil _).symm, Reported.cons 1 n rfl hends hrest⟩

/-- **A handler that comes to its end** has reported one chain for each of its actions, in order,
and still stands for the same event. -/
theorem exists_reports {n : Nat} (hdone : (run.through setting worlds n).isDone = true) :
    (run.through setting worlds n).event = run.event ∧
      ∃ reports, (run.through setting worlds n).reports = run.reports ++ reports ∧
        run.Reports setting worlds reports := by
  induction n generalizing run worlds with
  | zero =>
    obtain ⟨hcurrent, hpending⟩ := idle_of_isDone hdone
    refine ⟨rfl, [], (List.append_nil _).symm, ?_⟩
    change run.current = none at hcurrent
    change run.pending = [] at hpending
    rw [Reports, hcurrent, hpending]
    exact .nil
  | succ n ih =>
    rw [through_succ] at hdone ⊢
    obtain ⟨hevent, later, hlater, hreports⟩ := ih hdone
    obtain ⟨now, hnow, hall⟩ := exists_reports_step hreports
    have hsame : (run.step setting (worlds 0)).2.event = run.event := by
      unfold step
      split
      · split <;> rfl
      · split <;> rfl
    refine ⟨hevent.trans hsame, now ++ later, ?_, hall⟩
    rw [hlater, hnow, List.append_assoc]

end HandlerRun

end

end ViewTree
