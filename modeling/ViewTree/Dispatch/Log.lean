import ViewTree.Decimal.Fixed
import ViewTree.Dispatch.Report
import ViewTree.Text.Blank
import ViewTree.Text.Glob
import ViewTree.Text.Split

/-!
# The dispatch log

The most recent links, up to a capacity, among those whose names a filter lets through.
-/

namespace ViewTree

/-- Which names are logged. -/
structure LogFilter where
  /-- Unless there are none, a name must match one of these patterns. -/
  wanted : List String := []
  /-- A name that matches one of these patterns is left out. -/
  unwanted : List String := []
deriving DecidableEq, Repr, Inhabited

namespace LogFilter

/-- The patterns of a list with commas between them. -/
def patterns (list : String) : List String :=
  (((Text.pieces ',' list.toList).map Text.trim).filter fun p => !p.isEmpty).map String.ofList

/-- The filter with these lists of patterns. -/
def ofLists (wanted unwanted : Option String) : LogFilter :=
  { wanted := (wanted.map patterns).getD [], unwanted := (unwanted.map patterns).getD [] }

/-- Whether a name is logged. -/
def allows (filter : LogFilter) (name : String) : Bool :=
  (filter.wanted.isEmpty || filter.wanted.any fun p => Text.globMatches p name)
    && !filter.unwanted.any fun p => Text.globMatches p name

end LogFilter

/-- How many links are kept, and which. -/
structure LogConfig where
  capacity : Nat := 100
  filter : LogFilter := {}
deriving DecidableEq, Repr, Inhabited

/-- A logged link. -/
structure LogEntry where
  link : LinkReport
  /-- How many links were logged before this one. -/
  sequence : Nat
  /-- When it was logged, in milliseconds. -/
  time : Nat
deriving DecidableEq, Repr

/-- The text of an age in milliseconds: seconds with one decimal from one second on. -/
def ageText (millis : Nat) : String :=
  if 1000 ≤ millis then
    match Double.nearest false millis 1000 with
    | some seconds => String.ofList (seconds.fixedText 1) ++ "s"
    | none => "infs"
  else toString millis ++ "ms"

/-- The log: its entries, oldest first, and the number the next entry gets. -/
structure DispatchLog where
  config : LogConfig
  entries : List LogEntry := []
  next : Nat := 0
deriving DecidableEq, Repr

namespace DispatchLog

/-- The log without entries. -/
def empty (config : LogConfig) : DispatchLog := { config }

/-- Whether a link is logged. -/
def accepts (log : DispatchLog) (link : LinkReport) : Bool :=
  log.config.capacity != 0 && log.config.filter.allows link.name

/-- Logs a link at a time.  The oldest entry makes room when the log is full. -/
def record (log : DispatchLog) (time : Nat) (link : LinkReport) : DispatchLog :=
  if log.accepts link then
    let kept :=
      if log.config.capacity ≤ log.entries.length then log.entries.drop 1 else log.entries
    { log with entries := kept ++ [⟨link, log.next, time⟩], next := log.next + 1 }
  else log

/-- The entry that logging a link made, if it was logged. -/
def recorded? (log : DispatchLog) (time : Nat) (link : LinkReport) : Option LogEntry :=
  if log.accepts link then (log.record time link).entries.getLast? else none

/-- The last entries, newest first. -/
def recent (log : DispatchLog) (count : Nat) : List LogEntry :=
  log.entries.reverse.take count

/-- The log with its entries forgotten; the numbering goes on. -/
def clear (log : DispatchLog) : DispatchLog := { log with entries := [] }

end DispatchLog

end ViewTree
