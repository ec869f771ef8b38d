import Triage.Config
import Triage.History
import Triage.Ordered.Map

/-!
# Stored histories

Each branch lists its histories in the order in which their identities were first recorded.  A branch
is known from the first attempt on to record an outcome there, even if the outcome is refused.
-/

namespace Triage

instance : OrderedKey TrackedBranch :=
  .lexicographic TrackedBranch.server TrackedBranch.branch fun a b h h' => by
    cases a; cases b; cases h; cases h'; rfl

structure HistoryStore where
  branches : OrderedMap TrackedBranch (List (Identity × RunHistory))
  deriving DecidableEq

namespace HistoryStore

def empty : HistoryStore := ⟨.empty⟩

/-- What a branch lists; nothing if it is not known. -/
def listed (s : HistoryStore) (branch : TrackedBranch) : List (Identity × RunHistory) :=
  (s.branches.find? branch).getD []

def setListed (s : HistoryStore) (branch : TrackedBranch) (listed : List (Identity × RunHistory)) :
    HistoryStore :=
  ⟨s.branches.insert branch listed⟩

/-- Lists a branch, without any history if it was not known. -/
def withBranch (s : HistoryStore) (branch : TrackedBranch) : HistoryStore :=
  if s.branches.contains branch then s else s.setListed branch []

/-- The list with the history of `identity` set, in its place or at the end. -/
def setHistory (identity : Identity) (history : RunHistory) :
    List (Identity × RunHistory) → List (Identity × RunHistory)
  | [] => [(identity, history)]
  | e :: es =>
    if e.1 = identity then (identity, history) :: es else e :: setHistory identity history es

def insert (s : HistoryStore) (branch : TrackedBranch) (identity : Identity)
    (history : RunHistory) : HistoryStore :=
  s.setListed branch (setHistory identity history (s.listed branch))

def find? (s : HistoryStore) (branch : TrackedBranch) (identity : Identity) : Option RunHistory :=
  ((s.listed branch).find? fun e => e.1 = identity).map (·.2)

def identities (s : HistoryStore) (branch : TrackedBranch) : List Identity :=
  (s.listed branch).map (·.1)

/-- Adds an outcome at the newest end, to an empty history if there is none yet. -/
def append (s : HistoryStore) (branch : TrackedBranch) (identity : Identity) (build : Nat)
    (status : RunStatus) : Except StorageError HistoryStore :=
  match ((s.find? branch identity).getD .empty).append build status with
  | .ok h => .ok (s.insert branch identity h)
  | .error e => .error e

/-- Records an outcome.  The branch is looked up, and listed if need be, before the outcome is
checked. -/
def record (s : HistoryStore) (branch : TrackedBranch) (identity : Identity) (build : Nat)
    (status : RunStatus) : Except StorageError Unit × HistoryStore :=
  let s := s.withBranch branch
  match s.append branch identity build status with
  | .ok s' => (.ok (), s')
  | .error e => (.error e, s)

end HistoryStore

end Triage
