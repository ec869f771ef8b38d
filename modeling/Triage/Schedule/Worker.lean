import Triage.Schedule.Command

/-!
# Workers

A worker is a poller, a sweep of its own, or a delayed command.  It goes on until it has to wait for
a point in time, and lies still until then.
-/

namespace Triage

inductive Duty where
  /-- Sweeps at each tick, the next of which is due at the given time; the ticks are further apart by
  the jitter than those of a poller without one. -/
  | poll (jitterMs due : Nat)
  | sweep (runner : String)
  | delayed (command : Command) (delayMs : Nat)

inductive Stage where
  | fresh
  /-- Waits for a tick, or for the delay to be over. -/
  | waiting
  /-- Is inside a run that sleeps, in a sweep that has other tasks to visit after it. -/
  | asleep (run : Execution) (rest : List String) (executed : Nat)

/-- When a worker goes on; of alarms for the same time the one set earlier comes first. -/
structure Alarm where
  time : Nat
  order : Nat
  deriving DecidableEq, Repr

def Alarm.le (a b : Alarm) : Bool := a.time < b.time || (a.time = b.time && a.order ≤ b.order)

structure Worker where
  id : Nat
  duty : Duty
  stage : Stage
  alarm : Option Alarm
  /-- Is to be cancelled as soon as it lies still. -/
  aborted : Bool

namespace Worker

/-- Whether stopping the scheduler aborts the worker. -/
def isStoppable (w : Worker) : Bool :=
  match w.duty with
  | .sweep _ => false
  | _ => true

def isPoller (w : Worker) : Bool :=
  match w.duty with
  | .poll _ _ => true
  | _ => false

/-- The commands that the worker may still have to do with. -/
def commandCount (w : Worker) : Nat :=
  (match w.duty with
    | .delayed c _ => c.count
    | _ => 0) +
  match w.stage with
    | .asleep run _ _ => run.command.count
    | _ => 0

/-- The tick after one that was due at `due` and is served at `now`: one period later, or, when
it is late by more than the tolerance, the next one on the grid of ticks. -/
def tickAfter (period due now : Nat) : Nat :=
  let tolerance := 5
  if due + tolerance < now then now + period - (now - due) % period else due + period

end Worker

end Triage
