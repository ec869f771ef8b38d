import Triage.Issue
import Triage.Persistence.Basic

/-!
# Stored issues
-/

namespace Triage

open Document Persistence

namespace IssueType

def storedName : IssueType → String
  | newFailure => "NewFailure"
  | newContributedTestFailure => "NewContributedTestFailure"
  | newFailureForFlakyTest => "NewFailureForFlakyTest"
  | newCriticalFailure => "NewCriticalFailure"
  | newTrustedSuiteFailure => "NewTrustedSuiteFailure"
  | newTestWithHighFlakyRate => "NewTestWithHighFlakyRate"
  | alwaysFailure => "AlwaysFailure"

def toJson (t : IssueType) : Json := .ofString t.storedName

def ofJson? (v : Json) : Option IssueType := variant? all storedName v

end IssueType

namespace IssueKey

def toJson (k : IssueKey) : Json := .record [
  ("server_id", .ofString k.server),
  ("build_id", .ofNat k.build),
  ("test_or_suite_name", .ofString k.name)]

def ofJson? (v : Json) : Option IssueKey := do
  let f ← fields? ["server_id", "build_id", "test_or_suite_name"] v
  return {
    server := ← f.required "server_id" text?
    build := ← f.required "build_id" word?
    name := ← f.required "test_or_suite_name" text? }

end IssueKey

namespace Suspect

def toJson (s : Suspect) : Json :=
  .record [("author", .ofString s.author), ("web_url", .ofOption Json.ofString s.webUrl)]

def ofJson? (v : Json) : Option Suspect := do
  let f ← fields? ["author", "web_url"] v
  return ⟨← f.required "author" text?, ← f.optional "web_url" text?⟩

end Suspect

namespace SubscriberStat

def toJson (s : SubscriberStat) : Json := .record [
  ("server_allowed", .ofNat s.serverAllowed),
  ("subscribed", .ofNat s.subscribed),
  ("tags_filter_passed", .ofNat s.tagsFilterPassed)]

def ofJson? (v : Json) : Option SubscriberStat := do
  let f ← fields? ["server_allowed", "subscribed", "tags_filter_passed"] v
  return {
    serverAllowed := ← f.required "server_allowed" halfWord?
    subscribed := ← f.required "subscribed" halfWord?
    tagsFilterPassed := ← f.required "tags_filter_passed" halfWord? }

end SubscriberStat

namespace Issue

def toJson (i : Issue) : Json := .record [
  ("issue_key", i.key.toJson),
  ("issue_type", i.type.toJson),
  ("tracked_branch", .ofOption Json.ofString i.trackedBranch),
  ("display_name", .ofOption Json.ofString i.displayName),
  ("web_url", .ofOption Json.ofString i.webUrl),
  ("detected_at", timestamp i.detectedAt),
  ("build_start_at", .ofOption timestamp i.buildStartAt),
  ("flaky_rate", .ofFloat i.flakyRate),
  ("changes", list Suspect.toJson i.changes),
  ("addresses_notified", set Json.ofString i.notified),
  ("notification_failed", textMap i.failed),
  ("notification_retry", .ofNat i.retries.toNat),
  ("subscriber_stat", i.stat.toJson),
  ("build_tags", set Json.ofString i.tags)]

def ofJson? (v : Json) : Option Issue := do
  let f ← fields? ["issue_key", "issue_type", "tracked_branch", "display_name", "web_url",
    "detected_at", "build_start_at", "flaky_rate", "changes", "addresses_notified",
    "notification_failed", "notification_retry", "subscriber_stat", "build_tags"] v
  return {
    key := ← f.required "issue_key" IssueKey.ofJson?
    type := ← f.required "issue_type" IssueType.ofJson?
    trackedBranch := ← f.optional "tracked_branch" text?
    displayName := ← f.optional "display_name" text?
    webUrl := ← f.optional "web_url" text?
    detectedAt := ← f.required "detected_at" timestamp?
    buildStartAt := ← f.optional "build_start_at" timestamp?
    flakyRate := ← f.required "flaky_rate" number?
    changes := ← f.required "changes" (listOf? Suspect.ofJson?)
    notified := ← f.required "addresses_notified" (set? text?)
    failed := ← f.required "notification_failed" textMap?
    retries := .ofNat (← f.required "notification_retry" halfWord?)
    stat := ← f.required "subscriber_stat" SubscriberStat.ofJson?
    tags := ← f.required "build_tags" (set? text?) }

end Issue

end Triage
