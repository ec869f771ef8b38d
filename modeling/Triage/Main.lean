import Std.Time.DateTime.Timestamp
import Triage.Daemon
import Triage.Log.Render

/-!
# The program

Reads the arguments, the environment and the settings file, and prints the log.  What the program
does is decided by `Daemon` alone.
-/

namespace Triage.Program

def usage : String :=
  "Usage: healthbotd [-c FILE] [--json] [-v] [--refresh-secs SECONDS] [--once]"

def currentTime : IO Timestamp := do
  let t ← Std.Time.Timestamp.now
  return .ofMillis t.toMillisecondsSinceUnixEpoch.val

/-- The content of a file, if there is such a file. -/
def content? (path : String) : IO (Option ByteArray) := do
  try
    return some (← IO.FS.readBinFile path)
  catch _ =>
    return none

def print (o : Options) (records : List LogRecord) : IO Unit := do
  let now ← currentTime
  for r in records do
    IO.println (if o.json then r.jsonLine now else r.textLine now)
  (← IO.getStdout).flush

/-- Keeps the service going: requests all jobs once in every refresh period, and looks for tasks
that are due once in every poll period. -/
partial def serve (o : Options) (f : LogFilter) (idleMs : Nat) (s : Service) : IO Unit := do
  let s := { s with now := ← currentTime }
  let refreshMs := o.refreshPeriod * 1000
  let (idleMs, s) := if refreshMs ≤ idleMs then (0, s.requestPeriodic) else (idleMs, s)
  let (_, s) := s.sweep
  let ((records, _), s) := s.takeReports
  print o (records.filter (Daemon.isShown f false))
  let pauseMs := max s.config.scheduler.pollPeriodMs 1
  IO.sleep (min pauseMs 60000).toUInt32
  serve o f (idleMs + pauseMs) { s with uptimeMs := s.uptimeMs + pauseMs }

def runOnce (o : Options) (directives : Option String) (content : Option ByteArray) : IO UInt32 := do
  let ending := Daemon.run o directives (fun _ => content) (← currentTime) 0
  print o ending.records
  if let some text := ending.error then
    IO.eprintln text
  return ending.exitCode.toUInt32

def runForever (o : Options) (directives : Option String) (content : Option ByteArray) :
    IO UInt32 := do
  match Daemon.settings o (fun _ => content) with
  | .error text =>
    IO.eprintln text
    return 1
  | .ok (cfg, loaded) =>
    let s := Daemon.start cfg (← currentTime)
    serve o (Daemon.filter o directives) (o.refreshPeriod * 1000)
      { s with records := loaded ++ s.records }
    return 0

end Triage.Program

open Triage Program in
def main (args : List String) : IO UInt32 := do
  match Invocation.ofArgs (← IO.getEnv "HEALTHBOT_CONFIG") args with
  | .refused =>
    IO.eprintln usage
    return 2
  | .help =>
    IO.println usage
    return 0
  | .version =>
    IO.println Daemon.version
    return 0
  | .run o =>
    let directives ← IO.getEnv "RUST_LOG"
    let content ← match o.config with
      | some path => content? path
      | none => pure none
    if o.once then runOnce o directives content else runForever o directives content
