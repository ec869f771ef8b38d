import Triage.Text.Hex
import Triage.Text.Quoted
import Triage.Time.Timestamp

/-!
# Failures and their wording

Each failure is a cause; `StorageError.message` and `ServiceError.message` are the only places
that put causes into words.
-/

namespace Triage

/-- Why a record is refused. -/
inductive RecordFault where
  | wildcardStatus (build : Nat)
  | badCommitHash (text : String) (fault : Text.Hex.Fault)
  | unknownIssueCode (code : String)
  | unknownIssueName (name : String)
  | defectResolved (id : Nat)
  | other (text : String)
  deriving DecidableEq, Repr

inductive StorageError where
  | notFound (key : String)
  | defectNotFound (id : Nat)
  | invalidRecord (fault : RecordFault)
  | backend (reason : String)
  | serialization (reason : String)
  deriving DecidableEq, Repr

/-- Why two lists of statuses make no template. -/
inductive TemplateFault where
  | noTransition
  | undeclaredMissing
  deriving DecidableEq, Repr

/-- A setting whose value `Config.validate` refuses; the quoted subscriber is the first without
an address. -/
inductive ConfigFault where
  | unreadable
  | noPollers
  | noPollPeriod
  | flakyRateOutOfRange
  | noLookback
  | noSafeDays
  | noRecentWindow
  | subscriberWithoutAddress (quoted : String)
  deriving DecidableEq, Repr

inductive FileFault where
  | missing
  | notUtf8
  deriving DecidableEq, Repr

inductive ServiceError where
  | storage (error : StorageError)
  | invalidTemplate (fault : TemplateFault)
  | alreadyResolved (id : Nat)
  | defectNotFound (id : Nat)
  | notBroken (id : Nat)
  | notification (address reason : String)
  | config (fault : ConfigFault)
  | io (fault : FileFault)
  deriving DecidableEq, Repr

namespace Text.Hex

def Fault.message : Fault → String
  | .oddLength => "Odd number of digits"
  | .badDigit byte position =>
    s!"Invalid character {quotedChar (Char.ofNat byte.toNat)} at position {position}"

end Text.Hex

def RecordFault.message : RecordFault → String
  | .wildcardStatus build => s!"build {build}: wildcard status cannot be recorded"
  | .badCommitHash text fault => s!"bad commit hash {Text.quoted text}: {fault.message}"
  | .unknownIssueCode code => s!"unknown issue type code: {code}"
  | .unknownIssueName name => s!"unknown issue type: {name}"
  | .defectResolved id => s!"defect {id} is already resolved"
  | .other text => text

def StorageError.message : StorageError → String
  | .notFound key => s!"Record not found: {key}"
  | .defectNotFound id => s!"Defect not found: {id}"
  | .invalidRecord fault => s!"Invalid record: {fault.message}"
  | .backend reason => s!"Storage backend failed: {reason}"
  | .serialization reason => s!"Serialization failed: {reason}"

def TemplateFault.message : TemplateFault → String
  | .noTransition => "event_and_after must contain the transition"
  | .undeclaredMissing => "MISSING in a template requires include_missing"

def ConfigFault.message : ConfigFault → String
  | .unreadable => "TOML parse error"
  | .noPollers => "scheduler.pollers must be at least 1"
  | .noPollPeriod => "scheduler.poll_period_ms must be positive"
  | .flakyRateOutOfRange => "detection.high_flaky_rate_percent must be within 0..=100"
  | .noLookback => "clustering.issue_lookback_days must be positive"
  | .noSafeDays => "cleaner.safe_days must be positive"
  | .noRecentWindow => "notifications.recent_window_mins must be positive"
  | .subscriberWithoutAddress quoted => s!"subscriber with empty address: {quoted}"

def FileFault.message : FileFault → String
  | .missing => "No such file or directory (os error 2)"
  | .notUtf8 => "stream did not contain valid UTF-8"

def ServiceError.message : ServiceError → String
  | .storage error => s!"storage error: {error.message}"
  | .invalidTemplate fault => s!"invalid event template: {fault.message}"
  | .alreadyResolved id => s!"defect {id} is already resolved"
  | .defectNotFound id => s!"defect not found: {id}"
  | .notBroken id => s!"defect {id} is not flagged broken"
  | .notification address reason => s!"notification failed for {address}: {reason}"
  | .config fault => s!"config error: {fault.message}"
  | .io fault => s!"io error: {fault.message}"

/-- The error with what caused it, outermost first. -/
def ServiceError.chain : ServiceError → List String
  | .storage error => [(ServiceError.storage error).message, error.message]
  | .io fault => [(ServiceError.io fault).message, fault.message]
  | e => [e.message]

end Triage
