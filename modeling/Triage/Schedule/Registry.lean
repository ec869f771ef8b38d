import Triage.Ordered.Set
import Triage.Schedule.Task

/-!
# Registered tasks

Tasks by name, in the order in which they were first requested.  A task once requested stays.
-/

namespace Triage

structure Registry (κ : Type) where
  tasks : List (Task κ)

namespace Registry

variable {κ : Type}

def empty : Registry κ := ⟨[]⟩

def find? (r : Registry κ) (name : String) : Option (Task κ) :=
  r.tasks.find? fun t => t.name = name

def modify (r : Registry κ) (name : String) (f : Task κ → Task κ) : Registry κ :=
  ⟨r.tasks.map fun t => if t.name = name then f t else t⟩

def request (r : Registry κ) (name : String) (command : κ) (quietMs : Nat) : Registry κ :=
  match r.find? name with
  | some _ => r.modify name (·.request command quietMs)
  | none => ⟨r.tasks ++ [(Task.make name quietMs).request command quietMs]⟩

def names (r : Registry κ) : List String := r.tasks.map (·.name)

/-- The names in ascending order. -/
def sortedNames (r : Registry κ) : List String := (OrderedSet.ofList r.names).toList

def status? (r : Registry κ) (name : String) : Option TaskStatus := (r.find? name).map (·.status)

/-- Claims the named task, if it is eligible. -/
def claim? (r : Registry κ) (name : String) (now : Nat) : Option (κ × Registry κ) :=
  match (r.find? name).bind (·.claim? now) with
  | some (command, t) => some (command, r.modify name fun _ => t)
  | none => none

def finish (r : Registry κ) (name : String) (now : Nat) : Registry κ :=
  r.modify name (·.finish now)

end Registry

end Triage
