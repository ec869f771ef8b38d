import Triage.Number.Word

/-!
# Named tasks

A task holds at most one pending command: a new request replaces the old one and can only shorten
the quiet period.  A runner claims the command once the task is not running and has been quiet for
long enough since its last run, and reports the end of the run in two steps: first the time, then
the status.  Times are milliseconds of a clock that stops at `Task.clockEnd`.
-/

namespace Triage

inductive TaskStatus where
  | created
  | running
  | completed
  deriving DecidableEq, Repr

def TaskStatus.name : TaskStatus → String
  | created => "created"
  | running => "running"
  | completed => "completed"

/-- A task whose commands are of type `κ`. -/
structure Task (κ : Type) where
  name : String
  status : TaskStatus
  /-- The end of the last run, if there was one. -/
  lastFinish : Option Nat
  quietMs : Nat
  pending : Option κ
  /-- What a look at the task without its lock sees of the pending command. -/
  hasPending : Bool

namespace Task

variable {κ : Type}

/-- The last value of the clock.  A run that ends there counts as no run. -/
def clockEnd : Nat := Word.size - 1

def make (name : String) (quietMs : Nat) : Task κ := ⟨name, .created, none, quietMs, none, false⟩

def request (t : Task κ) (command : κ) (quietMs : Nat) : Task κ :=
  { t with pending := some command, hasPending := true, quietMs := min t.quietMs quietMs }

def isQuiet (t : Task κ) (now : Nat) : Bool :=
  match t.lastFinish with
  | none => true
  | some last => t.quietMs ≤ now - last

def isEligible (t : Task κ) (now : Nat) : Bool :=
  t.status ≠ .running && t.hasPending && t.isQuiet now

/-- Takes the pending command of an eligible task, which then runs. -/
def claim? (t : Task κ) (now : Nat) : Option (κ × Task κ) :=
  if t.isEligible now then
    t.pending.map fun command =>
      (command, { t with status := .running, pending := none, hasPending := false })
  else none

/-- The first step of the end of a run. -/
def recordFinish (t : Task κ) (now : Nat) : Task κ :=
  { t with lastFinish := if now = clockEnd then none else some now }

/-- The second step of the end of a run. -/
def complete (t : Task κ) : Task κ := { t with status := .completed }

def finish (t : Task κ) (now : Nat) : Task κ := (t.recordFinish now).complete

end Task

/-- A span of seconds in milliseconds, as far as the clock can measure it. -/
def quietMsOfSecs (secs : Nat) : Nat := min (secs * 1000) Task.clockEnd

end Triage
