/-!
# The journal of a scheduler

What happens to named tasks, event by event.  A sweep is known by its number, and comes to each of
its tasks once.
-/

namespace Triage

/-- A sweep at one of its tasks. -/
structure Visit where
  sweep : Nat
  name : String
  deriving DecidableEq, Repr

/-- An event in the life of tasks whose commands are of type `κ`. -/
inductive Event (κ : Type) where
  | requested (name : String) (command : κ) (quietMs : Nat)
  /-- A sweep came to the task, and took the command that was pending or took nothing. -/
  | visited (visit : Visit) (time : Nat) (taken : Option κ)
  /-- The run of the command that was taken is over. -/
  | ended (visit : Visit) (time : Nat)

end Triage
