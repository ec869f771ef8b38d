import Triage.Error

/-!
# Kinds of issues

The failure patterns that an issue can report, each with a stored code and a name for readers.
-/

namespace Triage

inductive IssueType where
  | newFailure
  | newContributedTestFailure
  | newFailureForFlakyTest
  | newCriticalFailure
  | newTrustedSuiteFailure
  | newTestWithHighFlakyRate
  | alwaysFailure
  deriving DecidableEq, Repr

namespace IssueType

def all : List IssueType :=
  [newFailure, newContributedTestFailure, newFailureForFlakyTest, newCriticalFailure,
   newTrustedSuiteFailure, newTestWithHighFlakyRate, alwaysFailure]

def code : IssueType → String
  | newFailure => "newFailure"
  | newContributedTestFailure => "newContributedTestFailure"
  | newFailureForFlakyTest => "newFailureForFlakyTest"
  | newCriticalFailure => "newCriticalFailure"
  | newTrustedSuiteFailure => "newTrustedSuiteFailure"
  | newTestWithHighFlakyRate => "newTestWithHighFlakyRate"
  | alwaysFailure => "newAlwaysFailure"

def displayName : IssueType → String
  | newFailure => "New test failure"
  | newContributedTestFailure => "Recently contributed test failed"
  | newFailureForFlakyTest => "New stable failure of a flaky test"
  | newCriticalFailure => "New Critical Failure"
  | newTrustedSuiteFailure => "New Trusted Suite failure"
  | newTestWithHighFlakyRate => "Test with high flaky rate"
  | alwaysFailure => "Always failed test"

def ofCode? (code : String) : Except StorageError IssueType :=
  match all.find? fun t => t.code = code with
  | some t => .ok t
  | none => .error (.invalidRecord (.unknownIssueCode code))

def ofDisplayName? (name : String) : Except StorageError IssueType :=
  match all.find? fun t => t.displayName = name with
  | some t => .ok t
  | none => .error (.invalidRecord (.unknownIssueName name))

end IssueType

end Triage
