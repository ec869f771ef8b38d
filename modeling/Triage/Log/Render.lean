import Triage.Json
import Triage.Log
import Triage.Time.Rfc3339

/-!
# Log lines

A log record as a JSON object or as a line of text.
-/

namespace Triage

def LogValue.toJson : LogValue → Json
  | .text s => .ofString s
  | .number n => .ofNat n

def LogValue.toText : LogValue → String
  | .text s => s
  | .number n => toString n

namespace LogRecord

/-- All that a record says, by name in alphabetical order: its fields and the name of its event or,
under `messageKey`, its message. -/
def entries (messageKey : String) (r : LogRecord) : List (String × LogValue) :=
  let event := r.event?.toList.map fun e => ("event", LogValue.text e)
  let message := r.message?.toList.map fun m => (messageKey, LogValue.text m)
  (event ++ message ++ r.fields).mergeSort fun a b => a.1 ≤ b.1

def toJson (messageKey : String) (r : LogRecord) : Json :=
  .record ((r.entries messageKey).map fun e => (e.1, e.2.toJson))

/-- A line of a log of JSON objects. -/
def jsonLine (time : Timestamp) (r : LogRecord) : String :=
  (Json.record [
    ("timestamp", .ofString (String.ofList (Rfc3339.render time))),
    ("level", .ofString r.level.name),
    ("fields", r.toJson "message")]).toText

/-- A line of a log for readers. -/
def textLine (time : Timestamp) (r : LogRecord) : String :=
  let fields := r.fields.map fun e => e.1 ++ "=" ++ e.2.toText
  let words := (r.event?.toList.map ("event=" ++ ·)) ++ r.message?.toList ++ fields
  " ".intercalate
    (String.ofList (Rfc3339.render time) :: r.level.name :: (r.place ++ ":") :: words)

end LogRecord

end Triage
