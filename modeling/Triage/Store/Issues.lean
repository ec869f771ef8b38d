import Triage.Issue

/-!
# Stored issues

Issues by key.  `IssueStore.announce` and `IssueStore.recordFailure` keep track of which addresses
have been told of an issue: an address is marked before a message goes out to it, and a failed
message takes the mark away as long as the issue has retries left.
-/

namespace Triage

structure IssueStore where
  issues : OrderedMap IssueKey Issue
  deriving DecidableEq

namespace IssueStore

def empty : IssueStore := ⟨.empty⟩

def save (s : IssueStore) (i : Issue) : IssueStore := ⟨s.issues.insert i.key i⟩

def find? (s : IssueStore) (k : IssueKey) : Option Issue := s.issues.find? k

def contains (s : IssueStore) (k : IssueKey) : Bool := s.issues.contains k

def all (s : IssueStore) : List Issue := s.issues.values

/-- Detected before the threshold, in a build that is not protected. -/
def isOld (threshold : Timestamp) (kept : OrderedSet BuildRef) (i : Issue) : Bool :=
  i.detectedAt < threshold && !kept.contains i.key.ref

/-- Removes the old issues with the smallest keys and tells how many there were. -/
def removeOld (s : IssueStore) (threshold : Timestamp) (budget : Nat) (kept : OrderedSet BuildRef) :
    Nat × IssueStore :=
  let rest := s.issues.removeFirst (isOld threshold kept) budget
  (s.issues.size - rest.size, ⟨rest⟩)

/-- Whether no further message about the issue may go to an address that could not be reached. -/
def isExhausted (i : Issue) (address : String) (maxRetries : Nat) : Bool :=
  decide (maxRetries ≤ i.retries.toNat) && i.failed.contains address

/-- Marks the address as told of the issue; the flag tells whether a message is due. -/
def announce (s : IssueStore) (k : IssueKey) (address : String) (maxRetries : Nat) :
    Bool × IssueStore :=
  match s.find? k with
  | none => (false, s)
  | some i =>
    if isExhausted i address maxRetries || i.notified.contains address then (false, s)
    else (true, ⟨s.issues.modify k fun i =>
      { i with notified := i.notified.insert address, failed := i.failed.erase address }⟩)

/-- The sum of the counter wraps round, so that an issue has all its retries again after 2³²
failures. -/
def noteFailure (address reason : String) (maxRetries : Nat) (i : Issue) : Issue :=
  { i with
    notified := if i.retries.toNat < maxRetries then i.notified.erase address else i.notified
    retries := i.retries + 1
    failed := i.failed.insert address reason }

/-- Records that a message about the issue did not reach the address. -/
def recordFailure (s : IssueStore) (k : IssueKey) (address reason : String) (maxRetries : Nat) :
    Bool × IssueStore :=
  match s.find? k with
  | none => (false, s)
  | some _ => (true, ⟨s.issues.modify k (noteFailure address reason maxRetries)⟩)

def saveStat (s : IssueStore) (k : IssueKey) (stat : SubscriberStat) : IssueStore :=
  ⟨s.issues.modify k fun i => { i with stat }⟩

end IssueStore

end Triage
