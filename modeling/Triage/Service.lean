import Triage.Service.Intervention
import Triage.Service.Job

/-!
# The service

A running service: its settings, its stores, its clocks and its tasks.  `Service.perform` runs a
pass on it, and `Service.sweep` runs every task that is due.
-/

namespace Triage

/-- How messages leave the service: to the log, or directly to addresses some of which cannot be
reached for the given reasons. -/
inductive Transport where
  | log
  | direct (unreachable : OrderedMap String String)

structure Service where
  config : Config
  stores : Stores
  now : Timestamp
  /-- Milliseconds since the start, by a clock of its own. -/
  uptimeMs : Nat
  tasks : Registry Job
  transport : Transport
  interventions : List Intervention
  /-- The log, newest record last. -/
  records : List LogRecord
  /-- The messages handed to a direct transport, newest last. -/
  attempts : List Message

namespace Service

def make (config : Config) (now : Timestamp) (transport : Transport) : Service where
  config := config
  stores := .empty
  now := now
  uptimeMs := 0
  tasks := .empty
  transport := transport
  interventions := []
  records := []
  attempts := []

def record (r : LogRecord) (s : Service) : Service := { s with records := s.records ++ [r] }

/-- Lets the next intervention of the kind take place; gives the failure that it asks for. -/
def intervene (kind : CallKind) (s : Service) : Option StorageError × Service :=
  match Intervention.next kind s.interventions with
  | (none, rest) => (none, { s with interventions := rest })
  | (some i, rest) =>
    (i.failure,
     { s with interventions := rest, stores := i.acts.foldl (fun st a => a.apply st) s.stores })

/-- Carries a request out on the stores. -/
def carryOut (c : Call) (s : Service) : Except StorageError c.Answer × Service :=
  match s.stores.answer c with
  | (r, stores) => (r, { s with stores })

def answer (c : Call) (s : Service) : Except StorageError c.Answer × Service :=
  match s.intervene c.kind with
  | (some e, s) => (.error e, s)
  | (none, s) =>
    match c with
    | .history branch identity =>
      match s.intervene .historyAnswer with
      | (some _, s) => (.ok none, s)
      | (none, s) => s.carryOut (.history branch identity)
    | c => s.carryOut c

def deliver (m : Message) (s : Service) : Except ServiceError Unit × Service :=
  match s.transport with
  | .log => (.ok (), s.record (.messageLogged m.address m.subject m.body))
  | .direct unreachable =>
    let s := { s with attempts := s.attempts ++ [m] }
    match unreachable.find? m.address with
    | some reason => (.error (.notification m.address reason), s)
    | none => (.ok (), s)

def handler : Work.Handler Service := ⟨answer, deliver, record⟩

def perform {α : Type} (p : Pass α) (s : Service) : Except Failure α × Service :=
  Work.run handler p.run s

def request (job : Job) (s : Service) : Service :=
  let quietMs := quietMsOfSecs (job.quietSecs s.config)
  { s with tasks := s.tasks.request job.taskName job quietMs }.record
    (.taskRequested job.taskName quietMs)

def requestPeriodic (s : Service) : Service := (Job.periodic s.config).foldl (fun s j => s.request j) s

/-- Runs the named task if it is due; the flag tells whether it ran. -/
def runTask (name : String) (s : Service) : Bool × Service :=
  match s.tasks.claim? name s.uptimeMs with
  | none => (false, s)
  | some (job, tasks) =>
    let s := (Work.run handler (job.execution s.config s.now) { s with tasks }).2
    (true, { s with tasks := s.tasks.finish name s.uptimeMs })

/-- Runs every task that is due, each at most once, and counts the runs. -/
def sweep (s : Service) : Nat × Service :=
  s.tasks.names.foldl (fun (n, s) name =>
    let (ran, s) := s.runTask name
    (if ran then n + 1 else n, s)) (0, s)

def advance (ms : Nat) (s : Service) : Service :=
  { s with now := .ofMillis (s.now.toMillis + ms), uptimeMs := min (s.uptimeMs + ms) Task.clockEnd }

def stop (s : Service) : Service := s.record .schedulerStopped

/-- Takes the log and the attempted messages away from the service. -/
def takeReports (s : Service) : (List LogRecord × List Message) × Service :=
  ((s.records, s.attempts), { s with records := [], attempts := [] })

end Service

end Triage
