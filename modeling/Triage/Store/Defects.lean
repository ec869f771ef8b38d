import Triage.Defect

/-!
# Stored defects

Defects by id, and the last id given out.  Ids are given out in ascending order and never again.
-/

namespace Triage

structure DefectStore where
  defects : OrderedMap Nat Defect
  lastId : Nat
  deriving DecidableEq

namespace DefectStore

def empty : DefectStore := ⟨.empty, 0⟩

def nextId (s : DefectStore) : Nat × DefectStore := (s.lastId + 1, { s with lastId := s.lastId + 1 })

def find? (s : DefectStore) (id : Nat) : Option Defect := s.defects.find? id

def save (s : DefectStore) (d : Defect) : DefectStore :=
  { s with defects := s.defects.insert d.id d }

/-- Stores what `change` makes of a defect, if it reports a change; the flag is its report. -/
def update (s : DefectStore) (id : Nat) (change : Defect → Bool × Defect) :
    Except StorageError (Bool × DefectStore) :=
  match s.find? id with
  | none => .error (.defectNotFound id)
  | some d =>
    match change d with
    | (true, d') => .ok (true, { s with defects := s.defects.insert id d' })
    | (false, _) => .ok (false, s)

/-- Forgets a defect; the flag tells whether it was there. -/
def remove (s : DefectStore) (id : Nat) : Bool × DefectStore :=
  (s.defects.contains id, { s with defects := s.defects.erase id })

def all (s : DefectStore) : List Defect := s.defects.values

def openDefects (s : DefectStore) : List Defect := s.all.filter (·.isOpen)

/-- Resolved before the threshold, with every member build known. -/
def isOld (threshold : Timestamp) (d : Defect) : Bool :=
  d.consistency = .consistent && d.resolvedAt.any fun t => t < threshold

/-- Removes the old defects with the smallest ids and tells how many there were. -/
def removeOld (s : DefectStore) (threshold : Timestamp) (budget : Nat) : Nat × DefectStore :=
  let kept := s.defects.removeFirst (isOld threshold) budget
  (s.defects.size - kept.size, { s with defects := kept })

end DefectStore

end Triage
