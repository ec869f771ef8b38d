import Triage.Config
import Triage.Work

/-!
# Clustering of issues into defects

Every recent issue is attached to the defect that holds its build; a build that no defect holds
joins the open defects that share a commit with it, which thereby become one, or starts a new
defect.  A pass writes a defect only where something changes.
-/

namespace Triage.Clustering

structure Report where
  checked : Nat
  created : Nat
  updated : Nat
  superseded : Nat
  /-- Issues whose build is unknown. -/
  skipped : Nat
  deriving DecidableEq, Repr

def Report.empty : Report := ⟨0, 0, 0, 0, 0⟩

def Report.toText (r : Report) : String :=
  s!"{r.created} defects created, {r.updated} updated, {r.superseded} superseded for {r.checked} issues checked"

/-- What a defect keeps of an issue. -/
def defectIssue (i : Issue) : DefectIssue := ⟨i.type, i.key.name, i.flakyRate⟩

def fillBlame (candidates : List BlameCandidate) (d : Defect) : Bool × Defect :=
  if d.blame.isEmpty && !candidates.isEmpty then (true, { d with blame := candidates })
  else (false, d)

def fillBranch (branch : Option String) (d : Defect) : Bool × Defect :=
  if d.trackedBranch.isNone && branch.isSome then (true, d.setBranchIfNone branch)
  else (false, d)

/-- Adds an issue and its build to a defect; the flag tells whether anything changed. -/
def attach (i : Issue) (b : BuildSnapshot) (d : Defect) : Bool × Defect :=
  let (added, d) := d.addBuild (.ofSnapshot b)
  let (attached, d) := d.attachIssue b.build (defectIssue i)
  let (branched, d) := fillBranch i.trackedBranch d
  let (blamed, d) := fillBlame b.blameCandidates d
  (added || attached || branched || blamed, d)

/-- Adds builds that are not yet members; the flag tells whether there were any. -/
def addMembers (bs : List DefectBuild) (d : Defect) : Bool × Defect :=
  bs.foldl (fun (changed, d) b =>
    let (added, d) := d.addBuild b
    (changed || added, d)) (false, d)

/-- Adds what `other` knows to a defect. -/
def absorb (other d : Defect) : Bool × Defect :=
  let (added, d) := addMembers other.members.values d
  let (blamed, d) := fillBlame other.blame d
  (added || blamed, d)

/-- Closes an open defect in favour of `target`. -/
def supersede (now : Timestamp) (target : Nat) (d : Defect) : Bool × Defect :=
  if d.isOpen then (true, { d with resolvedAt := some now, supersededBy := some target })
  else (false, d)

/-- Merges the open defects among `others` into `target` and counts them. -/
def mergeAll (now : Timestamp) (target : Nat) : List Nat → Report → Pass Report
  | [], r => return r
  | id :: ids, r => do
    match ← Pass.ask (.loadDefect id) with
    | none => mergeAll now target ids r
    | some other =>
      if other.isOpen then
        let _ ← Pass.ask (.updateDefect target (absorb other))
        let _ ← Pass.ask (.updateDefect id (supersede now target))
        mergeAll now target ids { r with superseded := r.superseded + 1 }
      else mergeAll now target ids r

def merge (now : Timestamp) (target : Nat) (others : List Nat) (r : Report) : Pass Report := do
  let r ← mergeAll now target others r
  Pass.log (.defectMerged target others)
  return r

/-- Whether the first of two holders of a build is to be preferred: one that no other defect took
over, then an open one, then the one with the smaller id. -/
def isPreferred (a b : Defect) : Bool :=
  if a.supersededBy.isSome ≠ b.supersededBy.isSome then b.supersededBy.isSome
  else if a.isOpen ≠ b.isOpen then a.isOpen
  else a.id ≤ b.id

/-- The defect that a further issue of a build goes to, among those that have the build. -/
def holder? (build : Nat) (ds : List Defect) : Option Defect :=
  (ds.filter (·.hasBuild build)).foldl (fun best d =>
    match best with
    | some a => if isPreferred a d then some a else some d
    | none => some d) none

/-- The open defects that share a commit, in the order of their ids. -/
def related (fingerprint : OrderedSet CommitHash) (ds : List Defect) : List Nat :=
  (OrderedSet.ofList
    ((ds.filter fun d => d.isOpen && d.sharesFingerprint fingerprint).map (·.id))).toList

/-- Attaches an issue to a stored defect and counts the change. -/
def attachTo (id : Nat) (i : Issue) (b : BuildSnapshot) (r : Report) : Pass Report := do
  if ← Pass.ask (.updateDefect id (attach i b)) then
    Pass.log (.defectUpdated id b.build)
    return { r with updated := r.updated + 1 }
  return r

/-- Starts a defect with an issue and its build. -/
def create (now : Timestamp) (i : Issue) (b : BuildSnapshot) (r : Report) : Pass Report := do
  let id ← Pass.ask .nextDefectId
  Pass.ask (.saveDefect (attach i b (Defect.make id b.server now)).2)
  Pass.log (.defectCreated id b.ref)
  return { r with created := r.created + 1 }

def clusterIssue (now : Timestamp) (i : Issue) (b : BuildSnapshot) (r : Report) : Pass Report := do
  let ds := (← Pass.ask .allDefects).filter fun d => d.server = b.server
  match holder? b.build ds with
  | some d => attachTo d.id i b r
  | none =>
    match related b.fingerprint ds with
    | [] => create now i b r
    | [target] => attachTo target i b r
    | target :: others => attachTo target i b (← merge now target others r)

def clusterAll (now : Timestamp) : List Issue → Report → Pass Report
  | [], r => return r
  | i :: is, r => do
    let r := { r with checked := r.checked + 1 }
    match ← Pass.ask (.build i.key.ref) with
    | none =>
      Pass.log (.issueSkipped i.key)
      clusterAll now is { r with skipped := r.skipped + 1 }
    | some b => clusterAll now is (← clusterIssue now i b r)

/-- One pass over the issues detected within the lookback. -/
def cluster (cfg : ClusteringConfig) (now : Timestamp) : Pass Report := do
  let since ← Pass.ofTime (now.minusDays cfg.lookbackDays)
  let issues ← Pass.ask .allIssues
  clusterAll now (issues.filter fun i => since ≤ i.detectedAt) .empty

/-- What resolving does to a stored defect, if it is still open. -/
def resolution (now : Timestamp) (user : String) (d : Defect) : Bool × Defect :=
  match d.resolve (some user) now with
  | .ok d' => (true, d')
  | .error _ => (false, d)

/-- Resolves an open defect on behalf of a user. -/
def resolve (now : Timestamp) (id : Nat) (user : String) : Pass Unit := do
  match ← Pass.ask (.loadDefect id) with
  | none => Pass.fail (.defectNotFound id)
  | some d =>
    if !d.isOpen then Pass.fail (.alreadyResolved id)
    if ← Pass.ask (.updateDefect id (resolution now user)) then
      Pass.log (.defectResolved id user)
    else Pass.fail (.alreadyResolved id)

end Triage.Clustering
