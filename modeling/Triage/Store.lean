import Triage.Store.Defects
import Triage.Store.Histories
import Triage.Store.Issues

/-!
# The stores of the service

`Call` is everything that the work of the service may ask of its stores, and `Stores.answer` is
what the stores do when asked.
-/

namespace Triage

/-- A request to the stores. -/
inductive Call where
  | identities (branch : TrackedBranch)
  | history (branch : TrackedBranch) (identity : Identity)
  | build (ref : BuildRef)
  | nextDefectId
  | loadDefect (id : Nat)
  | saveDefect (defect : Defect)
  | updateDefect (id : Nat) (change : Defect → Bool × Defect)
  | removeDefect (id : Nat)
  | openDefects
  | allDefects
  | removeOldDefects (threshold : Timestamp) (budget : Nat)
  | saveIssue (issue : Issue)
  | containsIssue (key : IssueKey)
  | allIssues
  | removeOldIssues (threshold : Timestamp) (budget : Nat) (kept : OrderedSet BuildRef)
  | announce (key : IssueKey) (address : String) (maxRetries : Nat)
  | recordFailure (key : IssueKey) (address reason : String) (maxRetries : Nat)
  | saveStat (key : IssueKey) (stat : SubscriberStat)

/-- What a request is answered with. -/
@[reducible] def Call.Answer : Call → Type
  | .identities _ => List Identity
  | .history _ _ => Option RunHistory
  | .build _ => Option BuildSnapshot
  | .nextDefectId => Nat
  | .loadDefect _ => Option Defect
  | .saveDefect _ => Unit
  | .updateDefect _ _ => Bool
  | .removeDefect _ => Bool
  | .openDefects => List Defect
  | .allDefects => List Defect
  | .removeOldDefects _ _ => Nat
  | .saveIssue _ => Unit
  | .containsIssue _ => Bool
  | .allIssues => List Issue
  | .removeOldIssues _ _ _ => Nat
  | .announce _ _ _ => Bool
  | .recordFailure _ _ _ _ => Bool
  | .saveStat _ _ => Unit

structure Stores where
  histories : HistoryStore
  builds : OrderedMap BuildRef BuildSnapshot
  defects : DefectStore
  issues : IssueStore
  deriving DecidableEq

namespace Stores

def empty : Stores := ⟨.empty, .empty, .empty, .empty⟩

def putBuild (s : Stores) (b : BuildSnapshot) : Stores :=
  { s with builds := s.builds.insert b.ref b }

def removeBuild (s : Stores) (r : BuildRef) : Stores := { s with builds := s.builds.erase r }

def withDefects (s : Stores) {α : Type} (r : α × DefectStore) : Except StorageError α × Stores :=
  (.ok r.1, { s with defects := r.2 })

def withIssues (s : Stores) {α : Type} (r : α × IssueStore) : Except StorageError α × Stores :=
  (.ok r.1, { s with issues := r.2 })

/-- Carries a request out. -/
def answer (s : Stores) : (c : Call) → Except StorageError c.Answer × Stores
  | .identities branch => (.ok (s.histories.identities branch), s)
  | .history branch identity => (.ok (s.histories.find? branch identity), s)
  | .build ref => (.ok (s.builds.find? ref), s)
  | .nextDefectId => s.withDefects s.defects.nextId
  | .loadDefect id => (.ok (s.defects.find? id), s)
  | .saveDefect d => s.withDefects ((), s.defects.save d)
  | .updateDefect id change =>
    match s.defects.update id change with
    | .ok r => s.withDefects r
    | .error e => (.error e, s)
  | .removeDefect id => s.withDefects (s.defects.remove id)
  | .openDefects => (.ok s.defects.openDefects, s)
  | .allDefects => (.ok s.defects.all, s)
  | .removeOldDefects threshold budget => s.withDefects (s.defects.removeOld threshold budget)
  | .saveIssue i => s.withIssues ((), s.issues.save i)
  | .containsIssue k => (.ok (s.issues.contains k), s)
  | .allIssues => (.ok s.issues.all, s)
  | .removeOldIssues threshold budget kept =>
    s.withIssues (s.issues.removeOld threshold budget kept)
  | .announce k address maxRetries => s.withIssues (s.issues.announce k address maxRetries)
  | .recordFailure k address reason maxRetries =>
    s.withIssues (s.issues.recordFailure k address reason maxRetries)
  | .saveStat k stat => s.withIssues ((), s.issues.saveStat k stat)

end Stores

end Triage
