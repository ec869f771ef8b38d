import Triage.Error
import Triage.Ordered.Set
import Triage.Text.Blank

/-!
# Settings

The settings of the service with their defaults, and the check that `Config.validate` makes of
them: it reports the first setting, in a fixed order, that no service can work with.
-/

namespace Triage

structure SchedulerConfig where
  pollers : Nat
  pollPeriodMs : Nat
  /-- The greatest random delay added to a poll period. -/
  pollJitterMs : Nat
  deriving DecidableEq, Repr

/-- A branch of a server that is watched for issues. -/
structure TrackedBranch where
  server : String
  branch : String
  deriving DecidableEq, Repr

structure DetectionConfig where
  /-- So many status changes make a history flaky. -/
  flakyBorder : Nat
  /-- A flaky rate, in percent, that is an issue of its own. -/
  highFlakyRate : Float
  trustedSuites : List String
  tracked : List TrackedBranch
  quietSecs : Nat
  deriving DecidableEq

structure ClusteringConfig where
  lookbackDays : Int
  quietSecs : Nat
  deriving DecidableEq, Repr

structure CleanerConfig where
  enabled : Bool
  /-- Records younger than this stay. -/
  safeDays : Int
  /-- At most so many records of each kind are removed in one run. -/
  budget : Nat
  quietSecs : Nat
  deriving DecidableEq, Repr

/-- An address with filters; an empty filter lets everything pass. -/
structure Subscriber where
  address : String
  servers : List String
  branches : List String
  tags : List String
  deriving DecidableEq, Repr

structure NotificationConfig where
  maxRetries : Nat
  recentMinutes : Int
  quietSecs : Nat
  subscribers : List Subscriber
  deriving DecidableEq, Repr

structure Config where
  scheduler : SchedulerConfig
  detection : DetectionConfig
  clustering : ClusteringConfig
  cleaner : CleanerConfig
  notifications : NotificationConfig
  deriving DecidableEq

def SchedulerConfig.default : SchedulerConfig := ⟨16, 15000, 10000⟩

def DetectionConfig.default : DetectionConfig := ⟨6, 20.0, [], [], 900⟩

def ClusteringConfig.default : ClusteringConfig := ⟨14, 300⟩

def CleanerConfig.default : CleanerConfig := ⟨true, 180, 100000, 86400⟩

def NotificationConfig.default : NotificationConfig := ⟨2, 120, 300, []⟩

def Config.default : Config := ⟨.default, .default, .default, .default, .default⟩

namespace Subscriber

def followsServer (s : Subscriber) (server : String) : Bool :=
  s.servers.isEmpty || s.servers.contains server

/-- Nothing is known of an issue without a branch, so it passes the empty filter only. -/
def followsBranch (s : Subscriber) (branch : Option String) : Bool :=
  s.branches.isEmpty || branch.any s.branches.contains

/-- An untagged build passes every filter. -/
def followsTags (s : Subscriber) (tags : OrderedSet String) : Bool :=
  s.tags.isEmpty || tags.isEmpty || s.tags.any tags.contains

def quoted (s : Subscriber) : String :=
  "Subscriber \x7b address: " ++ Text.quoted s.address ++
    ", servers: " ++ Text.quotedList s.servers ++
    ", branches: " ++ Text.quotedList s.branches ++
    ", tags: " ++ Text.quotedList s.tags ++ " \x7d"

def hasAddress (s : Subscriber) : Bool := s.address.toList.any fun c => !Text.isBlank c

end Subscriber

namespace Config

/-- The first fault of the settings, if there is one. -/
def fault? (c : Config) : Option ConfigFault :=
  if c.scheduler.pollers = 0 then some .noPollers
  else if c.scheduler.pollPeriodMs = 0 then some .noPollPeriod
  else if !(0.0 ≤ c.detection.highFlakyRate && c.detection.highFlakyRate ≤ 100.0) then
    some .flakyRateOutOfRange
  else if c.clustering.lookbackDays ≤ 0 then some .noLookback
  else if c.cleaner.safeDays ≤ 0 then some .noSafeDays
  else if c.notifications.recentMinutes ≤ 0 then some .noRecentWindow
  else match c.notifications.subscribers.find? fun s => !s.hasAddress with
    | some s => some (.subscriberWithoutAddress s.quoted)
    | none => none

def validate (c : Config) : Except ServiceError Config :=
  match c.fault? with
  | some fault => .error (.config fault)
  | none => .ok c

end Config

end Triage
