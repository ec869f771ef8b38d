import Triage.Persistence.Basic
import Triage.Template

/-!
# Stored histories and templates
-/

namespace Triage

open Document Persistence

namespace RunStatus

def storedName : RunStatus → String
  | ok => "ok"
  | failure => "failure"
  | criticalFailure => "critical_failure"
  | missing => "missing"
  | okOrFailure => "ok_or_failure"

def toJson (s : RunStatus) : Json := .ofString s.storedName

def ofJson? (v : Json) : Option RunStatus := variant? all storedName v

end RunStatus

namespace Run

def toJson (r : Run) : Json := .record [("build_id", .ofNat r.build), ("status", r.status.toJson)]

def ofJson? (v : Json) : Option Run := do
  let f ← fields? ["build_id", "status"] v
  return ⟨← f.required "build_id" word?, ← f.required "status" RunStatus.ofJson?⟩

end Run

namespace RunHistory

def toJson (h : RunHistory) : Json := .record [("entries", list Run.toJson h.runs)]

/-- A stored history is taken as it is, wildcards included. -/
def ofJson? (v : Json) : Option RunHistory := do
  let f ← fields? ["entries"] v
  return ⟨← f.required "entries" (listOf? Run.ofJson?)⟩

end RunHistory

namespace Identity

def toJson (i : Identity) : Json :=
  .record [("name", .ofString i.name), ("suite_name", .ofOption Json.ofString i.suite)]

def ofJson? (v : Json) : Option Identity := do
  let f ← fields? ["name", "suite_name"] v
  return ⟨← f.required "name" text?, ← f.optional "suite_name" text?⟩

end Identity

def Template.toJson (t : Template) : Json := .record [
  ("before_event", list RunStatus.toJson t.before),
  ("event_and_after", list RunStatus.toJson t.after),
  ("include_missing", .bool t.includeMissing),
  ("should_be_first_non_missing", .bool t.firstRecorded)]

end Triage
