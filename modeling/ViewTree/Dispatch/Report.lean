import ViewTree.Config.Action

/-!
# Reports

What became of the actions of a dispatch, link by link.
-/

namespace ViewTree

/-- How a link ended. -/
inductive Status where
  | succeeded
  | failed
  /-- It handed over to the host, and the view ended. -/
  | navigated
  /-- It did nothing: its kind is unknown, or the view had ended. -/
  | skipped
deriving DecidableEq, Repr, Inhabited

/-- The name of a status. -/
def Status.name : Status → String
  | succeeded => "Succeeded"
  | failed => "Failed"
  | navigated => "Navigated"
  | skipped => "Skipped"

/-- What became of one action. -/
structure LinkReport where
  kind : ActionKind
  target : Option String
  status : Status
deriving DecidableEq, Repr, Inhabited

namespace LinkReport

/-- The report for an action that ended with a status. -/
def ofAction (action : Action) (status : Status) : LinkReport :=
  ⟨action.kind, action.target, status⟩

/-- The name a link is logged under: its kind, and its target if it has one. -/
def name (link : LinkReport) : String :=
  match link.target with
  | some target => link.kind.name ++ ":" ++ target
  | none => link.kind.name

end LinkReport

/-- The links of one dispatch in the order they ran. -/
abbrev DispatchReport := List LinkReport

/-- How a dispatch ended, if it had any links. -/
def lastStatus (report : DispatchReport) : Option Status :=
  report.getLast?.map LinkReport.status

end ViewTree
