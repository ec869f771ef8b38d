import Triage.Issue
import Triage.Text.Blank

/-!
# Defects

A defect collects builds that are believed to fail for the same reason, with copies of what its
issues need.  It is open until it is resolved, by a person or because another defect took over.
-/

namespace Triage

structure DefectIssue where
  type : IssueType
  test : String
  flakyRate : Float
  deriving DecidableEq

/-- What a defect keeps of a member build. -/
structure DefectBuild where
  build : Nat
  branch : Option String
  startAt : Option Timestamp
  fingerprint : OrderedSet CommitHash
  issues : List DefectIssue
  deriving DecidableEq

namespace DefectBuild

def ofSnapshot (b : BuildSnapshot) : DefectBuild :=
  ⟨b.build, b.branch, b.startAt, b.fingerprint, []⟩

def hasIssue (b : DefectBuild) (type : IssueType) (test : String) : Bool :=
  b.issues.any fun i => i.type = type && i.test = test

end DefectBuild

structure BlameCandidate where
  username : String
  fullName : Option String
  deriving DecidableEq, Repr

/-- Whether every member build can still be looked up. -/
inductive Consistency where
  | consistent
  | broken
  deriving DecidableEq, Repr

structure Defect where
  id : Nat
  server : String
  trackedBranch : Option String
  members : OrderedMap Nat DefectBuild
  blame : List BlameCandidate
  createdAt : Timestamp
  resolvedAt : Option Timestamp
  resolvedBy : Option String
  supersededBy : Option Nat
  consistency : Consistency
  deriving DecidableEq

namespace Defect

def make (id : Nat) (server : String) (createdAt : Timestamp) : Defect where
  id := id
  server := server
  trackedBranch := none
  members := .empty
  blame := []
  createdAt := createdAt
  resolvedAt := none
  resolvedBy := none
  supersededBy := none
  consistency := .consistent

def isOpen (d : Defect) : Bool := d.resolvedAt.isNone

def hasBuild (d : Defect) (build : Nat) : Bool := d.members.contains build

/-- Whether some member has a commit of `fingerprint`. -/
def sharesFingerprint (d : Defect) (fingerprint : OrderedSet CommitHash) : Bool :=
  d.members.values.any fun b => b.fingerprint.meets fingerprint

def memberRefs (d : Defect) : List BuildRef := d.members.keys.map fun b => ⟨d.server, b⟩

/-- Adds a build that is not yet a member; the flag tells whether it was added. -/
def addBuild (d : Defect) (b : DefectBuild) : Bool × Defect :=
  if d.hasBuild b.build then (false, d)
  else (true, { d with members := d.members.insert b.build b })

/-- Attaches an issue to a member that has none of its type and test yet. -/
def attachIssue (d : Defect) (build : Nat) (issue : DefectIssue) : Bool × Defect :=
  match d.members.find? build with
  | none => (false, d)
  | some b =>
    if b.hasIssue issue.type issue.test then (false, d)
    else (true,
      { d with members := d.members.modify build fun b => { b with issues := b.issues ++ [issue] } })

def setBranchIfNone (d : Defect) (branch : Option String) : Defect :=
  { d with trackedBranch := d.trackedBranch.or branch }

def resolve (d : Defect) (user : Option String) (time : Timestamp) : Except StorageError Defect :=
  if d.isOpen then .ok { d with resolvedAt := some time, resolvedBy := user }
  else .error (.invalidRecord (.defectResolved d.id))

end Defect

/-- The name in an author written as `Full Name <address>`. -/
def BlameCandidate.fullNameOf? (author : String) : Option String :=
  let cs := author.toList
  let head := cs.takeWhile (· ≠ '<')
  if '<' ∈ cs ∧ '>' ∈ cs ∧ '>' ∉ head then
    match Text.trim head with
    | [] => none
    | name => some (String.ofList name)
  else none

/-- One candidate for each author of a change, in the order of their first changes. -/
def BuildSnapshot.blameCandidates (b : BuildSnapshot) : List BlameCandidate :=
  b.changes.foldl (fun found c =>
    if found.any fun f => f.username = c.author then found
    else found ++ [⟨c.author, BlameCandidate.fullNameOf? c.author⟩]) []

end Triage
