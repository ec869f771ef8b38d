import Triage.Issue

/-!
# Log records

What the service reports while it works.  A record has a level, the part of the service it comes
from, fields and, unless it is a named event, a message.
-/

namespace Triage

inductive LogLevel where
  | debug
  | info
  | warn
  | error
  deriving DecidableEq, Repr

def LogLevel.name : LogLevel → String
  | debug => "DEBUG"
  | info => "INFO"
  | warn => "WARN"
  | error => "ERROR"

/-- The value of a field of a log record. -/
inductive LogValue where
  | text (s : String)
  | number (n : Nat)
  deriving DecidableEq, Repr

inductive LogRecord where
  | issueRegistered (key : IssueKey) (type : IssueType)
  | historyUnavailable (server name error : String)
  | issueCheckFailed (server name error : String)
  | flakyFailureSkipped (name : String)
  | snapshotUnavailable (key : IssueKey)
  | branchChecked (server branch : String) (newIssues : Nat)
  | detectionFinished (server branch : String) (newIssues : Nat)
  | issueSkipped (key : IssueKey)
  | defectCreated (id : Nat) (build : BuildRef)
  | defectUpdated (id build : Nat)
  | defectMerged (id : Nat) (others : List Nat)
  | defectResolved (id : Nat) (user : String)
  | clusteringFinished (report : String)
  | cleanDisabled
  | removingOldRecords (budget : Nat)
  | memberUnresolvable (id : Nat) (build : BuildRef)
  | defectRestored (id : Nat)
  | consistencyChecked (flagged restored : Nat)
  | oldDefectsRemoved (removed : Nat)
  | oldIssuesRemoved (removed : Nat)
  | cleanFinished (flagged restored defects issues : Nat)
  | brokenDiscarded (id : Nat) (user : String)
  | queued (address : String) (key : IssueKey)
  | messageLogged (address subject body : String)
  | messageSent (address : String) (issues : Nat)
  | messageFailed (address error : String)
  | notificationsProcessed (checked : Option Nat) (sent failed : Nat)
  | taskRequested (task : String) (quietMs : Nat)
  | taskFinished (task : String) (durationMs : Nat)
  | taskFailed (task error : String)
  | delayedDropped
  | pollersNotStarted
  | pollersStarted (pollers periodMs jitterMs : Nat)
  | schedulerStopped
  | configLoaded (path : String)
  | daemonStarted (tracked pollers : Nat)
  | shutdownRequested
  deriving DecidableEq, Repr

namespace LogRecord

def level : LogRecord → LogLevel
  | historyUnavailable .. | issueCheckFailed .. | memberUnresolvable .. | messageFailed ..
  | delayedDropped | pollersNotStarted => .warn
  | taskFailed .. => .error
  | flakyFailureSkipped .. | snapshotUnavailable .. | branchChecked .. | issueSkipped ..
  | defectResolved .. | consistencyChecked .. | oldDefectsRemoved .. | oldIssuesRemoved ..
  | queued .. | taskRequested .. | taskFinished .. | configLoaded .. => .debug
  | _ => .info

/-- The name of an event, for the records that are one. -/
def event? : LogRecord → Option String
  | issueRegistered .. => some "issue.registered"
  | defectCreated .. => some "defect.created"
  | defectUpdated .. => some "defect.updated"
  | defectMerged .. => some "defect.merged"
  | cleanFinished .. => some "gc.finished"
  | messageSent .. => some "notification.sent"
  | messageFailed .. => some "notification.failed"
  | taskFinished .. => some "task.finished"
  | taskFailed .. => some "task.failed"
  | _ => none

/-- The message of a record that is no named event. -/
def message? : LogRecord → Option String
  | historyUnavailable .. => some "history unavailable"
  | issueCheckFailed .. => some "issue check failed"
  | flakyFailureSkipped .. => some "skipping new failure of a flaky history"
  | snapshotUnavailable .. => some "build snapshot not available"
  | branchChecked .. => some "branch checked"
  | detectionFinished .. => some "detection finished"
  | issueSkipped .. => some "skipping issue, build not resolvable"
  | defectResolved .. => some "defect resolved"
  | clusteringFinished .. => some "issues converted to defects"
  | cleanDisabled => some "periodic clean disabled"
  | removingOldRecords .. => some "removing records older than threshold"
  | memberUnresolvable .. => some "defect references unresolvable build"
  | defectRestored .. => some "broken defect is consistent again"
  | consistencyChecked .. => some "consistency check finished"
  | oldDefectsRemoved .. => some "old defects removed"
  | oldIssuesRemoved .. => some "old issues removed"
  | brokenDiscarded .. => some "broken defect discarded"
  | queued .. => some "queued for notification"
  | messageLogged .. => some "notification"
  | notificationsProcessed .. => some "notifications processed"
  | taskRequested .. => some "named task scheduled"
  | delayedDropped => some "no async runtime, delayed command dropped"
  | pollersNotStarted => some "no async runtime, pollers not started"
  | pollersStarted .. => some "scheduler pollers started"
  | schedulerStopped => some "scheduler stopped"
  | configLoaded .. => some "Loaded config from file"
  | daemonStarted .. => some "healthbotd started"
  | shutdownRequested => some "shutdown requested"
  | _ => none

def idList (ids : List Nat) : String := "[" ++ ", ".intercalate (ids.map toString) ++ "]"

/-- The fields of a record, in alphabetical order, without its event name and message. -/
def fields : LogRecord → List (String × LogValue)
  | issueRegistered key type =>
    [("build_id", .number key.build), ("issue_type", .text type.code), ("name", .text key.name),
     ("server", .text key.server)]
  | historyUnavailable server name error | issueCheckFailed server name error =>
    [("error", .text error), ("name", .text name), ("server", .text server)]
  | flakyFailureSkipped name => [("name", .text name)]
  | snapshotUnavailable key | issueSkipped key => [("issue", .text key.toText)]
  | branchChecked server branch newIssues | detectionFinished server branch newIssues =>
    [("branch", .text branch), ("new_issues", .number newIssues), ("server", .text server)]
  | defectCreated id build =>
    [("build_id", .number build.build), ("defect_id", .number id), ("server", .text build.server)]
  | defectUpdated id build => [("build_id", .number build), ("defect_id", .number id)]
  | defectMerged id others => [("defect_id", .number id), ("superseded", .text (idList others))]
  | defectResolved id user | brokenDiscarded id user =>
    [("defect_id", .number id), ("user", .text user)]
  | clusteringFinished report => [("report", .text report)]
  | cleanDisabled | delayedDropped | pollersNotStarted | schedulerStopped | shutdownRequested => []
  | removingOldRecords budget => [("budget", .number budget)]
  | memberUnresolvable id build => [("build", .text build.toText), ("defect_id", .number id)]
  | defectRestored id => [("defect_id", .number id)]
  | consistencyChecked flagged restored =>
    [("flagged", .number flagged), ("restored", .number restored)]
  | oldDefectsRemoved removed | oldIssuesRemoved removed => [("removed", .number removed)]
  | cleanFinished flagged restored defects issues =>
    [("broken_flagged", .number flagged), ("broken_restored", .number restored),
     ("defects_removed", .number defects), ("issues_removed", .number issues)]
  | queued address key => [("address", .text address), ("issue", .text key.toText)]
  | messageLogged address subject body =>
    [("address", .text address), ("body", .text body), ("subject", .text subject)]
  | messageSent address issues => [("address", .text address), ("issues", .number issues)]
  | messageFailed address error => [("address", .text address), ("error", .text error)]
  | notificationsProcessed (some checked) sent failed =>
    [("failed", .number failed), ("issues_checked", .number checked), ("sent", .number sent)]
  | notificationsProcessed none sent failed => [("failed", .number failed), ("sent", .number sent)]
  | taskRequested task quietMs => [("quiet_ms", .number quietMs), ("task", .text task)]
  | taskFinished task durationMs => [("duration_ms", .number durationMs), ("task", .text task)]
  | taskFailed task error => [("error", .text error), ("task", .text task)]
  | pollersStarted pollers periodMs jitterMs =>
    [("jitter_ms", .number jitterMs), ("period_ms", .number periodMs),
     ("pollers", .number pollers)]
  | configLoaded path => [("path", .text path)]
  | daemonStarted tracked pollers => [("pollers", .number pollers), ("tracked", .number tracked)]

/-- Whether an observer of the service is shown the record: named events, warnings and the
messages that a logging transport writes. -/
def isNotable (r : LogRecord) : Bool :=
  r.event?.isSome || r.level = .warn || r matches .messageLogged ..

def daemonPlace : String := "healthbotd"

/-- The place in the service that a record comes from, as log lines and log filters name it. -/
def place : LogRecord → String
  | oldDefectsRemoved .. | oldIssuesRemoved .. => "healthbot_state::fakes"
  | historyUnavailable .. | issueCheckFailed .. | flakyFailureSkipped .. | snapshotUnavailable ..
  | branchChecked .. => "healthbot_core::detector"
  | issueSkipped .. | defectResolved .. => "healthbot_core::clustering"
  | cleanDisabled | removingOldRecords .. | memberUnresolvable .. | defectRestored ..
  | consistencyChecked .. | brokenDiscarded .. => "healthbot_core::cleaner"
  | queued .. | messageLogged .. => "healthbot_core::notify"
  | taskRequested .. | delayedDropped | pollersNotStarted | pollersStarted .. | schedulerStopped =>
    "healthbot_core::scheduler"
  | configLoaded .. => "healthbot_core::config"
  | detectionFinished .. | clusteringFinished .. | notificationsProcessed (some _) _ _ =>
    "healthbot_core::service"
  | notificationsProcessed none _ _ | daemonStarted .. | shutdownRequested => daemonPlace
  | _ => "healthbot_core::obs"

end LogRecord

end Triage
