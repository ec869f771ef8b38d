import Triage.Schedule.Journal
import Triage.Schedule.Task

/-!
# Commands

What a task runs.  A command makes its own requests when it begins, may stop the scheduler, then
sleeps for a while, and ends well or badly.
-/

namespace Triage

inductive Outcome where
  | success
  /-- An error and its causes, outermost first. -/
  | failure (chain : List String)
  /-- A crash, with its text if it has one. -/
  | crash (text : Option String)
  deriving DecidableEq, Repr

/-- What the log says of a bad end. -/
def Outcome.fault? : Outcome → Option String
  | success => none
  | failure chain => some (": ".intercalate chain)
  | crash text => some ("panicked: " ++ text.getD "unknown panic")

mutual

/-- A request to run a command under the name of a task. -/
structure Request where
  name : String
  quietMs : Nat
  command : Command
  /-- The request comes from a place where no workers can be started. -/
  outside : Bool

structure Command where
  label : String
  requests : List Request
  stops : Bool
  sleepMs : Nat
  outcome : Outcome

end

mutual

/-- The number of commands that come of a command, itself included. -/
def Command.count : Command → Nat
  | ⟨_, requests, _, _, _⟩ => 1 + Request.countAll requests

def Request.countAll : List Request → Nat
  | [] => 0
  | ⟨_, _, command, _⟩ :: rest => command.count + Request.countAll rest

end

/-- A command that has begun. -/
structure Execution where
  /-- The visit that took the command; a delayed command comes of none. -/
  visit : Option Visit
  command : Command
  start : Nat

/-- The task that an execution runs for. -/
def Execution.task (e : Execution) : Option String := e.visit.map (·.name)

/-- The name under which the log speaks of an execution. -/
def Execution.name (e : Execution) : String := e.task.getD "invokeLater"

end Triage
