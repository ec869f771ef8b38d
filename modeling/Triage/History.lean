import Triage.Error

/-!
# Run histories

The outcomes of one test or suite on one branch, oldest first.  A recorded outcome is never the
wildcard `okOrFailure`: `RunHistory.append` refuses it.  The statistics look only at the runs that
took place, that is, at the entries that are not `missing`.
-/

namespace Triage

inductive RunStatus where
  | ok
  | failure
  | criticalFailure
  | missing
  /-- Stands for `ok` or `failure` in a template. -/
  | okOrFailure
  deriving DecidableEq, Repr

namespace RunStatus

def all : List RunStatus := [ok, failure, criticalFailure, missing, okOrFailure]

def code : RunStatus → Nat
  | ok => 0
  | failure => 1
  | criticalFailure => 3
  | missing => 4
  | okOrFailure => 10

def ofCode? (n : Nat) : Option RunStatus := all.find? fun s => s.code = n

def isFailure : RunStatus → Bool
  | failure | criticalFailure => true
  | _ => false

end RunStatus

/-- The outcome of one build. -/
structure Run where
  build : Nat
  status : RunStatus
  deriving DecidableEq, Repr

structure RunHistory where
  runs : List Run
  deriving DecidableEq, Repr

namespace RunHistory

def empty : RunHistory := ⟨[]⟩

def append (h : RunHistory) (build : Nat) (status : RunStatus) : Except StorageError RunHistory :=
  if status = .okOrFailure then .error (.invalidRecord (.wildcardStatus build))
  else .ok ⟨h.runs ++ [⟨build, status⟩]⟩

/-- The history of the given entries, unless one of them is the wildcard; the first is reported. -/
def ofRuns? (runs : List Run) : Except StorageError RunHistory :=
  match runs.find? fun r => r.status = .okOrFailure with
  | some r => .error (.invalidRecord (.wildcardStatus r.build))
  | none => .ok ⟨runs⟩

def length (h : RunHistory) : Nat := h.runs.length

/-- The newest `n` entries. -/
def latest (h : RunHistory) (n : Nat) : List Run := h.runs.drop (h.runs.length - n)

def recorded (h : RunHistory) : List Run := h.runs.filter fun r => r.status ≠ .missing

def firstRecorded? (h : RunHistory) : Option Run := h.recorded.head?

def lastRecorded? (h : RunHistory) : Option Run := h.recorded.getLast?

def runCount (h : RunHistory) : Nat := h.recorded.length

/-- How often neighbouring elements differ. -/
def changes : List RunStatus → Nat
  | a :: b :: rest => (if a ≠ b then 1 else 0) + changes (b :: rest)
  | _ => 0

def statusChanges (h : RunHistory) : Nat := changes (h.recorded.map (·.status))

def isFlaky (h : RunHistory) (border : Nat) : Bool := decide (border ≤ h.statusChanges)

/-- Status changes for every hundred runs. -/
def flakyRate (h : RunHistory) : Float :=
  if h.runCount = 0 then 0.0
  else Float.ofNat h.statusChanges * 100.0 / Float.ofNat h.runCount

theorem append_eq_ok_iff {h h' : RunHistory} {build : Nat} {status : RunStatus} :
    h.append build status = .ok h' ↔
      status ≠ .okOrFailure ∧ h' = ⟨h.runs ++ [⟨build, status⟩]⟩ := by
  unfold append
  by_cases hs : status = .okOrFailure <;> simp [hs, eq_comm]

end RunHistory

/-- A test, or a suite when no suite owns it. -/
structure Identity where
  name : String
  suite : Option String
  deriving DecidableEq, Repr

namespace Identity

def isSuite (i : Identity) : Bool := i.suite.isNone

/-- The suite that the identity belongs to; a suite belongs to itself. -/
def suiteName (i : Identity) : String := i.suite.getD i.name

end Identity

end Triage
