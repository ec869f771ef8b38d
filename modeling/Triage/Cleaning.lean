import Triage.Config
import Triage.Work

/-!
# Removal of old records

A run first marks the defects whose builds cannot all be looked up any more, then removes defects
resolved long ago and issues detected long ago, a bounded number of each.  Open and broken defects
stay, and so do the issues of a build in an open defect.
-/

namespace Triage.Cleaning

structure Report where
  flagged : Nat
  restored : Nat
  defects : Nat
  issues : Nat
  deriving DecidableEq, Repr

def Report.empty : Report := ⟨0, 0, 0, 0⟩

/-- The first build that cannot be looked up. -/
def firstUnresolvable : List BuildRef → Pass (Option BuildRef)
  | [] => return none
  | r :: rs => do
    match ← Pass.ask (.build r) with
    | none => return some r
    | some _ => firstUnresolvable rs

def setConsistency (wanted : Consistency) (d : Defect) : Bool × Defect :=
  if d.consistency = wanted then (false, d) else (true, { d with consistency := wanted })

/-- Brings the mark of one defect up to date and counts it. -/
def checkDefect (counts : Nat × Nat) (d : Defect) : Pass (Nat × Nat) := do
  let unresolvable ← firstUnresolvable d.memberRefs
  let wanted : Consistency := if unresolvable.isSome then .broken else .consistent
  if d.consistency = wanted then return counts
  if ← Pass.ask (.updateDefect d.id (setConsistency wanted)) then
    match unresolvable with
    | some r =>
      Pass.log (.memberUnresolvable d.id r)
      return (counts.1 + 1, counts.2)
    | none =>
      Pass.log (.defectRestored d.id)
      return (counts.1, counts.2 + 1)
  return counts

/-- Brings all marks up to date; gives the numbers of marks set and of marks taken away. -/
def checkConsistency : Pass (Nat × Nat) := do
  let counts ← (← Pass.ask .allDefects).foldlM checkDefect (0, 0)
  Pass.log (.consistencyChecked counts.1 counts.2)
  return counts

/-- The builds in the given defects. -/
def buildsOf (ds : List Defect) : OrderedSet BuildRef := .ofList (ds.flatMap (·.memberRefs))

def clean (cfg : CleanerConfig) (now : Timestamp) : Pass Report := do
  if !cfg.enabled then
    Pass.log .cleanDisabled
    return .empty
  let threshold ← Pass.ofTime (now.minusDays cfg.safeDays)
  Pass.log (.removingOldRecords cfg.budget)
  let (flagged, restored) ← checkConsistency
  let defects : Nat ← Pass.ask (.removeOldDefects threshold cfg.budget)
  Pass.log (.oldDefectsRemoved defects)
  let kept := buildsOf (← Pass.ask .openDefects)
  let issues : Nat ← Pass.ask (.removeOldIssues threshold cfg.budget kept)
  Pass.log (.oldIssuesRemoved issues)
  Pass.log (.cleanFinished flagged restored defects issues)
  return ⟨flagged, restored, defects, issues⟩

def brokenDefects : Pass (List Defect) := do
  return (← Pass.ask .allDefects).filter fun d => d.consistency = .broken

/-- Removes a broken defect on behalf of a user. -/
def discardBroken (id : Nat) (user : String) : Pass Unit := do
  match ← Pass.ask (.loadDefect id) with
  | none => Pass.fail (.defectNotFound id)
  | some d =>
    if d.consistency ≠ .broken then Pass.fail (.notBroken id)
    let _ ← Pass.ask (.removeDefect id)
    Pass.log (.brokenDiscarded id user)

end Triage.Cleaning
