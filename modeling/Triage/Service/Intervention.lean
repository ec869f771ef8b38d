import Triage.Store

/-!
# Interventions

An intervention waits for a request of some kind.  When its turn comes it first changes the stores,
as another user of them might, and then lets the request through or makes it fail.
-/

namespace Triage

/-- The kinds of requests that an intervention can wait for. -/
inductive CallKind where
  | identities
  | history
  /-- A request for a history that is about to be answered. -/
  | historyAnswer
  | build
  | nextDefectId
  | loadDefect
  | saveDefect
  | updateDefect
  | removeDefect
  | openDefects
  | allDefects
  | removeOldDefects
  | saveIssue
  | containsIssue
  | allIssues
  | removeOldIssues
  | mark
  | saveStat
  deriving DecidableEq, Repr

def Call.kind : Call → CallKind
  | .identities _ => .identities
  | .history _ _ => .history
  | .build _ => .build
  | .nextDefectId => .nextDefectId
  | .loadDefect _ => .loadDefect
  | .saveDefect _ => .saveDefect
  | .updateDefect _ _ => .updateDefect
  | .removeDefect _ => .removeDefect
  | .openDefects => .openDefects
  | .allDefects => .allDefects
  | .removeOldDefects _ _ => .removeOldDefects
  | .saveIssue _ => .saveIssue
  | .containsIssue _ => .containsIssue
  | .allIssues => .allIssues
  | .removeOldIssues _ _ _ => .removeOldIssues
  | .announce _ _ _ | .recordFailure _ _ _ _ => .mark
  | .saveStat _ _ => .saveStat

/-- A change of the stores from outside. -/
inductive Act where
  | resolveDefect (id : Nat) (user : Option String) (time : Timestamp)
  | removeDefect (id : Nat)
  | saveDefect (d : Defect)
  | setConsistency (id : Nat) (consistency : Consistency)
  | removeBuild (ref : BuildRef)
  | putBuild (b : BuildSnapshot)
  | saveIssue (i : Issue)

/-- Changes a stored defect; an unknown id is of no consequence. -/
def Stores.adjustDefect (s : Stores) (id : Nat) (f : Defect → Defect) : Stores :=
  { s with defects := { s.defects with defects := s.defects.defects.modify id f } }

def Act.apply : Act → Stores → Stores
  | resolveDefect id user time, s =>
    s.adjustDefect id fun d => (d.resolve user time).toOption.getD d
  | removeDefect id, s => { s with defects := (s.defects.remove id).2 }
  | saveDefect d, s => { s with defects := s.defects.save d }
  | setConsistency id consistency, s => s.adjustDefect id ({ · with consistency })
  | removeBuild ref, s => s.removeBuild ref
  | putBuild b, s => s.putBuild b
  | saveIssue i, s => { s with issues := s.issues.save i }

structure Intervention where
  kind : CallKind
  /-- So many requests pass before it takes place. -/
  skip : Nat
  acts : List Act
  failure : Option StorageError

namespace Intervention

/-- The intervention that takes place at a request of the kind, and those that wait on.  Only the
first of a kind counts a request that it lets pass. -/
def next (kind : CallKind) : List Intervention → Option Intervention × List Intervention
  | [] => (none, [])
  | i :: is =>
    if i.kind = kind then
      if 0 < i.skip then (none, { i with skip := i.skip - 1 } :: is) else (some i, is)
    else
      let (found, rest) := next kind is
      (found, i :: rest)

end Intervention

end Triage
