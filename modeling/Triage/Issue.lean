import Triage.Build
import Triage.Issue.Type
import Triage.Ordered.Map

/-!
# Issues

An issue records that a failure pattern was seen for one test or suite in one build, and whom it
was announced to.
-/

namespace Triage

/-- One detection for each server, build and test or suite. -/
structure IssueKey where
  server : String
  build : Nat
  name : String
  deriving DecidableEq, Repr

namespace IssueKey

def ref (k : IssueKey) : BuildRef := ⟨k.server, k.build⟩

def toText (k : IssueKey) : String := s!"{k.server}#{k.build}:{k.name}"

instance : OrderedKey IssueKey :=
  .lexicographic IssueKey.ref IssueKey.name fun a b h h' => by
    cases a; cases b; cases h; cases h'; rfl

end IssueKey

/-- Author and link of a change that an issue may come from. -/
structure Suspect where
  author : String
  webUrl : Option String
  deriving DecidableEq, Repr

/-- How many subscribers passed each filter in turn. -/
structure SubscriberStat where
  serverAllowed : Nat
  subscribed : Nat
  tagsFilterPassed : Nat
  deriving DecidableEq, Repr

structure Issue where
  key : IssueKey
  type : IssueType
  trackedBranch : Option String
  displayName : Option String
  webUrl : Option String
  detectedAt : Timestamp
  buildStartAt : Option Timestamp
  flakyRate : Float
  changes : List Suspect
  notified : OrderedSet String
  /-- The last failure of each address that could not be reached. -/
  failed : OrderedMap String String
  /-- Failed deliveries so far, over all addresses.  After 2³² of them the count begins again. -/
  retries : UInt32
  stat : SubscriberStat
  tags : OrderedSet String
  deriving DecidableEq

namespace Issue

def make (key : IssueKey) (type : IssueType) (detectedAt : Timestamp) : Issue where
  key := key
  type := type
  trackedBranch := none
  displayName := none
  webUrl := none
  detectedAt := detectedAt
  buildStartAt := none
  flakyRate := 0.0
  changes := []
  notified := .empty
  failed := .empty
  retries := 0
  stat := ⟨0, 0, 0⟩
  tags := .empty

/-- The display name, or else the name of the test or suite. -/
def title (i : Issue) : String := i.displayName.getD i.key.name

def afterBlank : Option String → String
  | some s => " " ++ s
  | none => ""

def suspectsText (i : Issue) : String :=
  if i.changes.isEmpty then "\n No changes in the build"
  else "\n Changes may lead to failure were done by" ++
    String.join (i.changes.map fun c => "\n\t - " ++ c.author ++ afterBlank c.webUrl)

/-- The issue in one line, followed on request by the changes it may come from. -/
def plainText (i : Issue) (withChanges : Bool) : String :=
  let branch := match i.trackedBranch with
    | some b => " in " ++ b
    | none => ""
  i.type.displayName ++ branch ++ " " ++ i.title ++ afterBlank i.webUrl ++
    (if withChanges then i.suspectsText else "")

end Issue

end Triage
