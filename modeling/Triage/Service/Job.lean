import Triage.Cleaning
import Triage.Clustering
import Triage.Detection
import Triage.Notification
import Triage.Schedule.Registry

/-!
# Jobs of the service

What the service does again and again, each job under the name of a task.
-/

namespace Triage

inductive Job where
  | detect (branch : TrackedBranch)
  | cluster
  | notify
  | clean
  deriving DecidableEq, Repr

namespace Job

def taskName : Job → String
  | detect branch => s!"detect:{branch.server}:{branch.branch}"
  | cluster => "issuesToDefects"
  | notify => "sendNotifications"
  | clean => "cleaner"

def quietSecs (cfg : Config) : Job → Nat
  | detect _ => cfg.detection.quietSecs
  | cluster => cfg.clustering.quietSecs
  | notify => cfg.notifications.quietSecs
  | clean => cfg.cleaner.quietSecs

/-- Does the job and logs what came of it. -/
def pass (cfg : Config) (now : Timestamp) : Job → Pass Unit
  | detect branch => do
    let found ← Detection.checkBranch cfg.detection now branch
    Pass.log (.detectionFinished branch.server branch.branch found)
  | cluster => do
    let report ← Clustering.cluster cfg.clustering now
    Pass.log (.clusteringFinished report.toText)
  | notify => do
    let report ← Notification.sendNew cfg.notifications now
    Pass.log (.notificationsProcessed (some report.checked) report.sent report.failed)
  | clean => do
    let _ ← Cleaning.clean cfg.cleaner now

def failureText : Failure → String
  | .error e => ": ".intercalate e.chain
  | .crash o => s!"panicked: {o.message}"

/-- Does the job as the run of its task; the run takes no time. -/
def execution (cfg : Config) (now : Timestamp) (job : Job) : Work Unit :=
  (job.pass cfg now).run.bind fun
    | .ok () => .log (.taskFinished job.taskName 0) (.done ())
    | .error e => .log (.taskFailed job.taskName (failureText e)) (.done ())

/-- The jobs that are due again and again, in the order in which they are requested. -/
def periodic (cfg : Config) : List Job :=
  cfg.detection.tracked.map detect ++ [cluster, notify] ++
    (if cfg.cleaner.enabled then [clean] else [])

end Job

end Triage
