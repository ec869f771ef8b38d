import Triage.Error
import Triage.Ordered.Set

/-!
# Builds and their commits

A snapshot of one build: where it ran, what it was built from and which changes it contains.  The
fingerprint of a build is the set of commits that its failures may be blamed on.
-/

namespace Triage

structure CommitHash where
  bytes : List UInt8
  deriving DecidableEq, Repr

namespace CommitHash

instance : OrderedKey CommitHash where
  lt a b := a.bytes < b.bytes
  decLt a b := inferInstanceAs (Decidable (a.bytes < b.bytes))
  decEq := inferInstance
  lt_irrefl a := OrderedKey.lt_irrefl a.bytes
  lt_trans := OrderedKey.lt_trans (κ := List UInt8)
  connected {a b} h h' := by
    cases a; cases b
    exact congrArg CommitHash.mk (OrderedKey.connected h h')

/-- The UTF-8 bytes of a text. -/
def utf8 (s : String) : List UInt8 := s.toList.flatMap String.utf8EncodeChar

def ofHex? (s : String) : Except StorageError CommitHash :=
  match Text.Hex.decode (utf8 s) with
  | .ok bytes => .ok ⟨bytes⟩
  | .error fault => .error (.invalidRecord (.badCommitHash s fault))

def toHex (h : CommitHash) : String := String.ofList (Text.Hex.encode h.bytes)

/-- The first eight digits, or all if there are fewer. -/
def short (h : CommitHash) : String := String.ofList ((Text.Hex.encode h.bytes).take 8)

end CommitHash

/-- A build among those of all servers. -/
structure BuildRef where
  server : String
  build : Nat
  deriving DecidableEq, Repr

namespace BuildRef

def toText (r : BuildRef) : String := s!"{r.server}#{r.build}"

instance : OrderedKey BuildRef :=
  .lexicographic BuildRef.server BuildRef.build fun a b h h' => by
    cases a; cases b; cases h; cases h'; rfl

end BuildRef

/-- The commit of one repository that a build was made from. -/
structure Revision where
  commit : CommitHash
  root : String
  deriving DecidableEq, Repr

structure Change where
  id : Nat
  commit : CommitHash
  author : String
  webUrl : Option String
  deriving DecidableEq, Repr

structure BuildSnapshot where
  server : String
  build : Nat
  branch : Option String
  startAt : Option Timestamp
  revisions : List Revision
  /-- Empty when the changes could not be found out. -/
  changes : List Change
  tags : OrderedSet String
  deriving DecidableEq

namespace BuildSnapshot

def ref (b : BuildSnapshot) : BuildRef := ⟨b.server, b.build⟩

/-- The commits of the changes, or those of the revisions when no change is known. -/
def fingerprint (b : BuildSnapshot) : OrderedSet CommitHash :=
  if b.changes.isEmpty then .ofList (b.revisions.map (·.commit))
  else .ofList (b.changes.map (·.commit))

end BuildSnapshot

end Triage
