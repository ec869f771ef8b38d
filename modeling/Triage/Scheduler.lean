import Triage.Config
import Triage.Log
import Triage.Schedule.Registry
import Triage.Schedule.Worker

/-!
# The scheduler

Tasks, and the workers that run them, on a clock that moves only when it is told to.  Workers take
turns: each goes on until it lies still, in the order in which they became ready, and the clock
moves to the next alarm when none is ready.  `Scheduler.advance` moves the clock, and
`Scheduler.sweep` runs all tasks that are due and lets the others work while a command sleeps.
In which order a sweep comes to the tasks, and how far apart the ticks of a poller are, is not for the
scheduler to decide: it is given a `Chance`.
-/

namespace Triage

/-- What a command showed of itself: its beginning or its end, with the status of its task then. -/
structure Trace where
  time : Nat
  label : String
  isEnd : Bool
  status : Option TaskStatus
  deriving DecidableEq, Repr

/-- What a scheduler leaves to chance. -/
structure Chance where
  /-- The order in which the sweep with the number comes to the tasks that there are. -/
  order : Nat → List String → List String
  order_perm : ∀ sweep names, (order sweep names).Perm names
  /-- By how much the period of the poller with the number is to be longer; the settings say how much
  of it counts. -/
  jitterMs : Nat → Nat

/-- Tasks in the order in which they were first requested, and pollers without jitter. -/
def Chance.plain : Chance where
  order _ names := names
  order_perm _ _ := .refl _
  jitterMs _ := 0

structure Scheduler where
  config : SchedulerConfig
  chance : Chance
  /-- Milliseconds since the start. -/
  now : Nat
  tasks : Registry Command
  hasPollers : Bool
  workers : List Worker
  /-- The workers that can go on, first come first served. -/
  ready : List Nat
  nextWorker : Nat
  nextAlarm : Nat
  records : List LogRecord
  traces : List Trace
  /-- The sweeps that ended, with their numbers of runs. -/
  swept : List (String × Nat)
  nextSweep : Nat
  /-- What has happened to the tasks since the start. -/
  journal : Array (Event Command)

namespace Scheduler

def make (config : SchedulerConfig) (chance : Chance) : Scheduler where
  config := config
  chance := chance
  now := 0
  tasks := .empty
  hasPollers := false
  workers := []
  ready := []
  nextWorker := 0
  nextAlarm := 0
  records := []
  traces := []
  swept := []
  nextSweep := 0
  journal := #[]

def record (r : LogRecord) (s : Scheduler) : Scheduler := { s with records := s.records ++ [r] }

def enter (e : Event Command) (s : Scheduler) : Scheduler :=
  { s with journal := s.journal.push e }

/-- What the clock of the tasks shows. -/
def clock (s : Scheduler) : Nat := min s.now Task.clockEnd

/-- The period of a poller without jitter. -/
def period (s : Scheduler) : Nat := max s.config.pollPeriodMs 1

/-- The jitter of the next worker, should it be a poller. -/
def nextJitter (s : Scheduler) : Nat :=
  min (s.chance.jitterMs s.nextWorker) s.config.pollJitterMs

def spawn (duty : Duty) (s : Scheduler) : Scheduler :=
  { s with
    workers := s.workers ++ [⟨s.nextWorker, duty, .fresh, none, false⟩]
    ready := s.ready ++ [s.nextWorker]
    nextWorker := s.nextWorker + 1 }

/-! ### Requests -/

def spawnPollers : Nat → Scheduler → Scheduler
  | 0, s => s
  | n + 1, s => spawnPollers n (s.spawn (.poll s.nextJitter 0))

/-- The first request starts the pollers, and so does the first one after a stop. -/
def ensurePollers (outside : Bool) (s : Scheduler) : Scheduler :=
  if s.config.pollers = 0 || s.hasPollers then s
  else if outside then s.record .pollersNotStarted
  else
    { spawnPollers s.config.pollers s with hasPollers := true }.record
      (.pollersStarted s.config.pollers s.period s.config.pollJitterMs)

def request (r : Request) (s : Scheduler) : Scheduler :=
  let s := { s with tasks := s.tasks.request r.name r.command r.quietMs }.enter
    (.requested r.name r.command r.quietMs)
  (s.record (.taskRequested r.name r.quietMs)).ensurePollers r.outside

def invokeLater (command : Command) (delayMs : Nat) (outside : Bool) (s : Scheduler) : Scheduler :=
  if outside then s.record .delayedDropped else s.spawn (.delayed command delayMs)

def wake (id : Nat) (s : Scheduler) : Scheduler :=
  if s.ready.contains id then s else { s with ready := s.ready ++ [id] }

/-- Aborts all pollers and delayed commands; each is cancelled when its turn comes. -/
def stop (s : Scheduler) : Scheduler :=
  let aborted := s.workers.filter fun w => w.isStoppable && !w.aborted
  let pollers := aborted.filter (·.isPoller)
  let others := aborted.filter fun w => !w.isPoller
  let workers := s.workers.map fun w => if w.isStoppable then { w with aborted := true } else w
  let s := { s with hasPollers := false, workers }
  ((pollers ++ others).foldl (fun s w => s.wake w.id) s).record .schedulerStopped

/-! ### Runs -/

def trace (run : Execution) (isEnd : Bool) (s : Scheduler) : Scheduler :=
  { s with traces := s.traces ++
    [⟨s.now, run.command.label, isEnd, run.task.bind s.tasks.status?⟩] }

/-- Enters in the journal that the command begins which a visit has taken. -/
def enterStart (run : Execution) (s : Scheduler) : Scheduler :=
  match run.visit with
  | some v => s.enter (.visited v s.clock (some run.command))
  | none => s

def begin (run : Execution) (s : Scheduler) : Scheduler :=
  let s := (s.enterStart run).trace run false
  let s := run.command.requests.foldl (fun s r => s.request r) s
  if run.command.stops then s.stop else s

def finish (run : Execution) (s : Scheduler) : Scheduler :=
  match run.visit with
  | some v => { s with tasks := s.tasks.finish v.name s.clock }.enter (.ended v s.clock)
  | none => s

def conclude (run : Execution) (s : Scheduler) : Scheduler :=
  finish run <|
    match run.command.outcome.fault? with
    | some fault => s.record (.taskFailed run.name fault)
    | none => (s.trace run true).record (.taskFinished run.name (s.now - run.start))

/-- How far a worker came: to its end, or to a stage in which it lies still for some time. -/
inductive Progress where
  | over
  | still (duty : Duty) (stage : Stage) (until_ : Nat)

/-- A sweep ended with a number of runs, or it is inside a run that sleeps. -/
inductive SweepProgress where
  | over (executed : Nat)
  | asleep (run : Execution) (rest : List String) (executed : Nat)

/-- Comes to a task with a sweep, takes its command if it is due, and begins to run it. -/
def visitTask (v : Visit) (s : Scheduler) : Option Execution × Scheduler :=
  match s.tasks.claim? v.name s.clock with
  | none => (none, s.enter (.visited v s.clock none))
  | some (command, tasks) =>
    let run : Execution := ⟨some v, command, s.now⟩
    (some run, { s with tasks }.begin run)

/-- Visits the named tasks with a sweep and runs those that are due. -/
def visit (sweep : Nat) : List String → Nat → Scheduler → Scheduler × SweepProgress
  | [], n, s => (s, .over n)
  | name :: rest, n, s =>
    match s.visitTask ⟨sweep, name⟩ with
    | (none, s) => visit sweep rest n s
    | (some run, s) =>
      if run.command.sleepMs = 0 then visit sweep rest (n + 1) (s.conclude run)
      else (s, .asleep run rest n)

/-- The scheduler once the next sweep has its number. -/
def numberSweep (s : Scheduler) : Scheduler := { s with nextSweep := s.nextSweep + 1 }

/-- The tasks that there are, in the order in which the next sweep comes to them. -/
def visitOrder (s : Scheduler) : List String := s.chance.order s.nextSweep s.tasks.names

theorem visitOrder_perm (s : Scheduler) : s.visitOrder.Perm s.tasks.names :=
  s.chance.order_perm s.nextSweep s.tasks.names

/-- Begins a sweep of all tasks that there are. -/
def beginSweep (s : Scheduler) : Scheduler × SweepProgress :=
  visit s.nextSweep s.visitOrder 0 s.numberSweep

/-- Serves all ticks that are due.  Each tick is later than the one before, so there are at most as
many as the first one is late. -/
def serveTicks (jitterMs : Nat) : Nat → Nat → Scheduler → Scheduler × Progress
  | 0, due, s => (s, .still (.poll jitterMs due) .waiting due)
  | fuel + 1, due, s =>
    if s.now < due then (s, .still (.poll jitterMs due) .waiting due)
    else
      let next := Worker.tickAfter (s.period + jitterMs) due s.now
      match s.beginSweep with
      | (s, .over _) => serveTicks jitterMs fuel next s
      | (s, .asleep run rest n) =>
        (s, .still (.poll jitterMs next) (.asleep run rest n) (s.now + run.command.sleepMs))

def poll (jitterMs due : Nat) (s : Scheduler) : Scheduler × Progress :=
  serveTicks jitterMs (s.now - due + 1) due s

/-- What a worker does after a sweep, or a part of one. -/
def afterVisit (duty : Duty) : Scheduler × SweepProgress → Scheduler × Progress
  | (s, .asleep run rest n) =>
    (s, .still duty (.asleep run rest n) (s.now + run.command.sleepMs))
  | (s, .over n) =>
    match duty with
    | .poll jitterMs due => s.poll jitterMs due
    | .sweep runner => ({ s with swept := s.swept ++ [(runner, n)] }, .over)
    | .delayed _ _ => (s, .over)

def runDelayed (command : Command) (s : Scheduler) : Scheduler × Progress :=
  let run : Execution := ⟨none, command, s.now⟩
  let s := s.begin run
  if command.sleepMs = 0 then (s.conclude run, .over)
  else (s, .still (.delayed command 0) (.asleep run [] 0) (s.now + command.sleepMs))

def goOn (w : Worker) (s : Scheduler) : Scheduler × Progress :=
  match w.stage, w.duty with
  | .asleep run rest n, duty =>
    match run.visit with
    | some v => afterVisit duty (visit v.sweep rest (n + 1) (s.conclude run))
    | none => afterVisit duty (s.conclude run, .over (n + 1))
  | .fresh, .poll jitterMs _ => s.poll jitterMs s.now
  | .fresh, .delayed command delayMs =>
    if delayMs = 0 then s.runDelayed command
    else (s, .still (.delayed command delayMs) .waiting (s.now + delayMs))
  | .waiting, .poll jitterMs due => s.poll jitterMs due
  | .waiting, .delayed command _ => s.runDelayed command
  | _, .sweep runner => afterVisit (.sweep runner) s.beginSweep

/-- A cancelled worker leaves the run that it is in; the task counts as completed. -/
def cancel (id : Nat) (stage : Stage) (s : Scheduler) : Scheduler :=
  let s := { s with workers := s.workers.filter (·.id ≠ id) }
  match stage with
  | .asleep run _ _ => s.finish run
  | _ => s

def isAborted (id : Nat) (s : Scheduler) : Bool := s.workers.any fun w => w.id = id && w.aborted

/-- Puts a worker to rest after its turn.  One that was aborted during its turn is cancelled. -/
def settle (id : Nat) : Scheduler × Progress → Scheduler
  | (s, .over) => { s with workers := s.workers.filter (·.id ≠ id) }
  | (s, .still duty stage time) =>
    if s.isAborted id then s.cancel id stage
    else
      { s with
        nextAlarm := s.nextAlarm + 1
        workers := s.workers.map fun w =>
          if w.id = id then { w with duty, stage, alarm := some ⟨time, s.nextAlarm⟩ } else w }

/-- Gives a worker its turn; one that is gone has none. -/
def resume (id : Nat) (s : Scheduler) : Scheduler :=
  match s.workers.find? (·.id = id) with
  | none => s
  | some w => if w.aborted then s.cancel id w.stage else settle id (s.goOn w)

/-! ### Time -/

def resumeReady : Nat → Scheduler → Scheduler
  | 0, s => s
  | fuel + 1, s =>
    match s.ready with
    | [] => s
    | id :: rest => resumeReady fuel ({ s with ready := rest }.resume id)

/-- More than the turns that can be taken before all workers lie still: each command can start the
pollers again and abort all workers, and no command runs twice. -/
def turns (s : Scheduler) : Nat :=
  let pending := s.tasks.tasks.foldl (fun n t => n + t.pending.elim 0 Command.count) 0
  let commands := s.workers.foldl (fun n w => n + w.commandCount) pending + 1
  commands * (s.workers.length + commands * (s.config.pollers + 1)) + s.ready.length

/-- Lets all workers go on that can do so at the present time. -/
def settleAll (s : Scheduler) : Scheduler := s.resumeReady s.turns

def nextAlarm? (s : Scheduler) : Option Nat := ((s.workers.filterMap (·.alarm)).map (·.time)).min?

/-- Moves the clock and makes the workers ready whose alarm has come. -/
def moveTo (time : Nat) (s : Scheduler) : Scheduler :=
  let due := (s.workers.filterMap fun w => w.alarm.bind fun a =>
    if a.time ≤ time then some (a, w.id) else none).mergeSort fun x y => x.1.le y.1
  let s := { s with
    now := time
    workers := s.workers.map fun w =>
      if w.alarm.any (·.time ≤ time) then { w with alarm := none } else w }
  due.foldl (fun s x => s.wake x.2) s

/-- Works up to the given time; who becomes ready at that time has not had a turn yet. -/
def workUntil (time : Nat) : Nat → Scheduler → Scheduler
  | 0, s => s.moveTo time
  | fuel + 1, s =>
    let s := s.settleAll
    match s.nextAlarm? with
    | some next => if next < time then workUntil time fuel (s.moveTo next) else s.moveTo time
    | none => s.moveTo time

/-- Lets others work for some time.  Alarms lie in the future, so the clock moves each time. -/
def wait (ms : Nat) (s : Scheduler) : Scheduler := s.workUntil (s.now + ms) (ms + 1)

def advance (ms : Nat) (s : Scheduler) : Scheduler := (s.wait ms).settleAll

/-! ### Sweeps -/

/-- Visits the named tasks for the caller, who waits while a command sleeps. -/
def visitAndWait (sweep : Nat) : List String → Nat → Scheduler → Nat × Scheduler
  | [], n, s => (n, s)
  | name :: rest, n, s =>
    match s.visitTask ⟨sweep, name⟩ with
    | (none, s) => visitAndWait sweep rest n s
    | (some run, s) =>
      let s := if run.command.sleepMs = 0 then s else s.wait run.command.sleepMs
      visitAndWait sweep rest (n + 1) (s.conclude run)

/-- Runs every task that is due, each at most once, and counts the runs. -/
def sweep (s : Scheduler) : Nat × Scheduler :=
  visitAndWait s.nextSweep s.visitOrder 0 s.numberSweep

def spawnSweep (runner : String) (s : Scheduler) : Scheduler := s.spawn (.sweep runner)

def takeReports (s : Scheduler) : Scheduler :=
  { s with records := [], traces := [], swept := [] }

end Scheduler

end Triage
