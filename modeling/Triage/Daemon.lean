import Triage.CommandLine
import Triage.Config.File
import Triage.Log.Filter
import Triage.Service

/-!
# The daemon

A run of the program from its options to its exit.  `Daemon.once` does every job once in the
foreground; otherwise the daemon requests all jobs again and again until it is interrupted.
-/

namespace Triage.Daemon

def version : String := "healthbotd 0.1.0"

/-- Does every job once, in the order in which results flow from one to the next. -/
def once (cfg : Config) (now : Timestamp) : Pass Unit := do
  for branch in cfg.detection.tracked do
    (Job.detect branch).pass cfg now
  Job.cluster.pass cfg now
  let report ← Notification.sendNew cfg.notifications now
  Pass.log (.notificationsProcessed none report.sent report.failed)
  if cfg.cleaner.enabled then
    Job.clean.pass cfg now

/-! ### Settings -/

/-- The lines that say what caused an error; several causes are numbered. -/
def causeLines : List String → List String
  | [cause] => ["    " ++ cause]
  | causes => causes.zipIdx.map fun (cause, i) => s!"    {i}: {cause}"

def loadFailure (path : String) (e : ServiceError) : String :=
  "\n".intercalate (s!"Error: failed to load config {path}" :: "" :: "Caused by:" ::
    causeLines e.chain)

/-- The settings that the options ask for, and the record of where they come from. -/
def settings (o : Options) (contentOf : String → Option ByteArray) :
    Except String (Config × List LogRecord) :=
  match o.config with
  | none => .ok (.default, [])
  | some path =>
    match Config.ofFile (contentOf path) with
    | .ok cfg => .ok (cfg, [.configLoaded path])
    | .error e => .error (loadFailure path e)

/-! ### Runs -/

def filter (o : Options) (directives : Option String) : LogFilter :=
  (directives.bind LogFilter.parse?).getD (.ofLevel (if o.verbose then .debug else .info))

/-- The place that a record of the daemon comes from; in the foreground it reports on its own. -/
def place (foreground : Bool) (r : LogRecord) : String :=
  match r with
  | .detectionFinished .. | .clusteringFinished .. =>
    if foreground then LogRecord.daemonPlace else r.place
  | _ => r.place

def isShown (f : LogFilter) (foreground : Bool) (r : LogRecord) : Bool :=
  f.shows (place foreground r) r.level

/-- What is left of a run: the exit code, the shown part of the log, and the text of an error. -/
structure Ending where
  exitCode : Nat
  records : List LogRecord
  error : Option String

/-- The exit code of a crash. -/
def crashCode : Nat := 101

def runOnce (cfg : Config) (now : Timestamp) : Except Failure Unit × List LogRecord :=
  let (result, s) := (Service.make cfg now .log).perform (once cfg now)
  (result, s.records)

/-- Requests all jobs and does those that are due. -/
def round (s : Service) : Service := (s.requestPeriodic.sweep).2

def start (cfg : Config) (now : Timestamp) : Service :=
  let sched := cfg.scheduler
  let s := (Service.make cfg now .log).record
    (.daemonStarted cfg.detection.tracked.length sched.pollers)
  s.record (.pollersStarted sched.pollers (max sched.pollPeriodMs 1) sched.pollJitterMs)

def interrupt (s : Service) : Service := (s.record .shutdownRequested).stop

/-- Rounds, one refresh period after another, until so many records are shown; at most as many
rounds as records. -/
def rounds (o : Options) (f : LogFilter) (wanted : Nat) : Nat → Service → Service
  | 0, s => s
  | fuel + 1, s =>
    let s := round s
    if wanted ≤ (s.records.filter (isShown f false)).length then s
    else rounds o f wanted fuel (s.advance (o.refreshPeriod * 1000))

/-- A run with the given options.  Without `once` it is interrupted when `wanted` records have been
shown. -/
def run (o : Options) (directives : Option String) (contentOf : String → Option ByteArray)
    (now : Timestamp) (wanted : Nat) : Ending :=
  let f := filter o directives
  match settings o contentOf with
  | .error text => ⟨1, [], some text⟩
  | .ok (cfg, loaded) =>
    if o.once then
      let (result, records) := runOnce cfg now
      let shown := (loaded ++ records).filter (isShown f true)
      match result with
      | .ok () => ⟨0, shown, none⟩
      | .error (.crash _) => ⟨crashCode, shown, none⟩
      | .error (.error e) => ⟨1, shown, some ("Error: " ++ ": ".intercalate e.chain)⟩
    else
      let s := start cfg now
      let s := interrupt (rounds o f wanted (wanted + 1) { s with records := loaded ++ s.records })
      ⟨0, s.records.filter (isShown f false), none⟩

end Triage.Daemon
