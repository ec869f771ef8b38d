import Triage.Template
import Triage.Work

/-!
# Detection of issues

`classify` reads issues off a history alone.  `checkIdentity` and `checkBranch` register the issues
that are not stored yet; a stored issue is never written again.
-/

namespace Triage.Detection

/-- The issue that a matching template stands for, if the history's flakiness does not silence it.
A flaky history has no new failures, only new failures of a flaky test, and a steady one the
other way round. -/
def issueType? (cfg : DetectionConfig) (identity : Identity) (isFlaky : Bool) :
    TemplateKind → Option IssueType
  | .newFailure =>
    if isFlaky then none
    else if cfg.trustedSuites.contains identity.suiteName then some .newTrustedSuiteFailure
    else some .newFailure
  | .newFailureForFlakyTest => if isFlaky then some .newFailureForFlakyTest else none
  | kind => some kind.issueType

/-- The newest run, if it failed and the history changes its mind too often. -/
def highFlakyRate? (cfg : DetectionConfig) (h : RunHistory) : Option (IssueType × Nat) :=
  if cfg.highFlakyRate ≤ h.flakyRate then
    match h.lastRecorded? with
    | some r => if r.status.isFailure then some (.newTestWithHighFlakyRate, r.build) else none
    | none => none
  else none

/-- The issues of a history, each with the build that it points at. -/
def classify (cfg : DetectionConfig) (identity : Identity) (h : RunHistory) :
    List (IssueType × Nat) :=
  h.transitions.filterMap (fun (kind, build) =>
    (issueType? cfg identity (h.isFlaky cfg.flakyBorder) kind).map (·, build)) ++
  (highFlakyRate? cfg h).toList

/-- What a snapshot adds to a new issue of its build. -/
def withSnapshot (i : Issue) (b : BuildSnapshot) : Issue :=
  { i with
    buildStartAt := b.startAt
    tags := b.tags
    changes := b.changes.map fun c => ⟨c.author, c.webUrl⟩ }

def newIssue (key : IssueKey) (type : IssueType) (now : Timestamp) (branch : String)
    (flakyRate : Float) : Issue :=
  { Issue.make key type now with trackedBranch := some branch, flakyRate }

/-- Registers a finding; `registered` are the keys stored so far. -/
def register (now : Timestamp) (branch : TrackedBranch) (identity : Identity) (h : RunHistory)
    (registered : List IssueKey) (finding : IssueType × Nat) : Pass (List IssueKey) := do
  let (type, build) := finding
  let key : IssueKey := ⟨branch.server, build, identity.name⟩
  if registered.contains key then return registered
  if ← Pass.ask (.containsIssue key) then return registered
  let issue := newIssue key type now branch.branch h.flakyRate
  match ← Pass.ask (.build key.ref) with
  | some b => Pass.ask (.saveIssue (withSnapshot issue b))
  | none =>
    Pass.log (.snapshotUnavailable key)
    Pass.ask (.saveIssue issue)
  Pass.log (.issueRegistered key type)
  return registered ++ [key]

/-- Registers the issues of one history and gives the keys of those that are new. -/
def checkIdentity (cfg : DetectionConfig) (now : Timestamp) (branch : TrackedBranch)
    (identity : Identity) (h : RunHistory) : Pass (List IssueKey) := do
  if h.isFlaky cfg.flakyBorder && (TemplateKind.newFailure.template.detect h).isSome then
    Pass.log (.flakyFailureSkipped identity.name)
  (classify cfg identity h).foldlM (register now branch identity h) []

/-- The number of new issues of one identity; what goes wrong is only logged. -/
def checkRecorded (cfg : DetectionConfig) (now : Timestamp) (branch : TrackedBranch)
    (identity : Identity) : Pass Nat := do
  match ← Pass.tryAsk (.history branch identity) with
  | .error e =>
    Pass.log (.historyUnavailable branch.server identity.name e.message)
    return 0
  | .ok none => return 0
  | .ok (some h) =>
    match ← Pass.attempt (checkIdentity cfg now branch identity h) with
    | .ok keys => return keys.length
    | .error e =>
      Pass.log (.issueCheckFailed branch.server identity.name e.message)
      return 0

/-- Checks every history of a branch and gives the number of new issues. -/
def checkBranch (cfg : DetectionConfig) (now : Timestamp) (branch : TrackedBranch) : Pass Nat := do
  let identities ← Pass.ask (.identities branch)
  let found ← identities.foldlM (fun found i => do
    return found + (← checkRecorded cfg now branch i)) 0
  Pass.log (.branchChecked branch.server branch.branch found)
  return found

end Triage.Detection
