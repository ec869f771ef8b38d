import Triage.History
import Triage.Issue.Type

/-!
# Transition templates

A template describes a change of health as two lists of statuses, oldest first: what must come
right before the change, and the change with what follows it.  `Template.detect` looks for the
newest stretch of a history that matches and gives the build at its change.
-/

namespace Triage

structure Template where
  before : List RunStatus
  after : List RunStatus
  includeMissing : Bool
  /-- The change must be the first run that the history records. -/
  firstRecorded : Bool
  hasChange : after ≠ []
  missingDeclared : RunStatus.missing ∈ before ++ after → includeMissing = true

namespace Template

def make (before after : List RunStatus) (includeMissing firstRecorded : Bool) :
    Except ServiceError Template :=
  if h : after = [] then .error (.invalidTemplate .noTransition)
  else if h' : RunStatus.missing ∈ before ++ after ∧ includeMissing = false then
    .error (.invalidTemplate .undeclaredMissing)
  else .ok ⟨before, after, includeMissing, firstRecorded, h, by
    intro hm
    cases hi : includeMissing with
    | true => rfl
    | false => exact absurd ⟨hm, hi⟩ h'⟩

def pattern (t : Template) : List RunStatus := t.before ++ t.after

def statusMatches (expected actual : RunStatus) (includeMissing : Bool) : Bool :=
  if actual = .missing ∧ includeMissing = false then false
  else if expected = .okOrFailure then actual = .ok || actual = .failure
  else expected = actual

/-- Whether the runs begin with a stretch that matches the statuses. -/
def matchesPrefix (includeMissing : Bool) : List RunStatus → List Run → Bool
  | [], _ => true
  | _ :: _, [] => false
  | s :: ss, r :: rs =>
    statusMatches s r.status includeMissing && matchesPrefix includeMissing ss rs

/-- The runs from the newest matching stretch on. -/
def newestMatch (t : Template) : List Run → Option (List Run)
  | [] => none
  | r :: rs =>
    match t.newestMatch rs with
    | some w => some w
    | none => if matchesPrefix t.includeMissing t.pattern (r :: rs) then some (r :: rs) else none

def detect (t : Template) (h : RunHistory) : Option Nat :=
  match (t.newestMatch h.runs).bind (·[t.before.length]?) with
  | none => none
  | some r =>
    if t.firstRecorded && h.firstRecorded?.map (·.build) ≠ some r.build then none
    else some r.build

end Template

/-- The built-in templates. -/
inductive TemplateKind where
  | newFailure
  | newCriticalFailure
  | newContributedTestFailure
  | newFailureForFlakyTest
  | alwaysFailure
  deriving DecidableEq, Repr

namespace TemplateKind

/-- In the order in which they are tried. -/
def all : List TemplateKind :=
  [newFailure, newCriticalFailure, newContributedTestFailure, newFailureForFlakyTest, alwaysFailure]

def name : TemplateKind → String
  | newFailure => "newFailure"
  | newCriticalFailure => "newCriticalFailure"
  | newContributedTestFailure => "newContributedTestFailure"
  | newFailureForFlakyTest => "newFailureForFlakyTest"
  | alwaysFailure => "alwaysFailure"

def issueType : TemplateKind → IssueType
  | newFailure => .newFailure
  | newCriticalFailure => .newCriticalFailure
  | newContributedTestFailure => .newContributedTestFailure
  | newFailureForFlakyTest => .newFailureForFlakyTest
  | alwaysFailure => .alwaysFailure

def template : TemplateKind → Template
  | newFailure =>
    ⟨List.replicate 5 .ok, List.replicate 4 .failure, false, false, by decide, by decide⟩
  | newCriticalFailure =>
    ⟨[.okOrFailure], List.replicate 3 .criticalFailure, false, false, by decide, by decide⟩
  | newContributedTestFailure =>
    ⟨List.replicate 4 .missing, List.replicate 4 .failure, true, true, by decide, by decide⟩
  | newFailureForFlakyTest =>
    ⟨List.replicate 5 .ok, List.replicate 8 .failure, false, false, by decide, by decide⟩
  | alwaysFailure =>
    ⟨List.replicate 6 .failure, List.replicate 6 .failure, false, false, by decide, by decide⟩

end TemplateKind

/-- The built-in templates that match, each with the build at its change. -/
def RunHistory.transitions (h : RunHistory) : List (TemplateKind × Nat) :=
  TemplateKind.all.filterMap fun k => (k.template.detect h).map (k, ·)

end Triage
