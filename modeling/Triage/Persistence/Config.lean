import Triage.Config
import Triage.Persistence.Basic

/-!
# Settings in documents

Settings are read from documents of any format; a setting that is left out has its default.
-/

namespace Triage

open Document Persistence

variable {δ : Type} [Document δ]

namespace SchedulerConfig

def ofDocument? (v : δ) : Option SchedulerConfig := do
  let f ← fields? ["pollers", "poll_period_ms", "poll_jitter_ms"] v
  return {
    pollers := ← f.withDefault "pollers" word? default.pollers
    pollPeriodMs := ← f.withDefault "poll_period_ms" word? default.pollPeriodMs
    pollJitterMs := ← f.withDefault "poll_jitter_ms" word? default.pollJitterMs }

def toJson (c : SchedulerConfig) : Json := .record [
  ("pollers", .ofNat c.pollers),
  ("poll_period_ms", .ofNat c.pollPeriodMs),
  ("poll_jitter_ms", .ofNat c.pollJitterMs)]

end SchedulerConfig

namespace TrackedBranch

def ofDocument? (v : δ) : Option TrackedBranch := do
  let f ← fields? ["server", "branch"] v
  return ⟨← f.required "server" text?, ← f.required "branch" text?⟩

def toJson (b : TrackedBranch) : Json :=
  .record [("server", .ofString b.server), ("branch", .ofString b.branch)]

end TrackedBranch

namespace DetectionConfig

def ofDocument? (v : δ) : Option DetectionConfig := do
  let f ← fields? ["flaky_status_change_border", "high_flaky_rate_percent", "trusted_suites",
    "tracked", "detect_quiet_secs"] v
  return {
    flakyBorder := ← f.withDefault "flaky_status_change_border" word? default.flakyBorder
    highFlakyRate := ← f.withDefault "high_flaky_rate_percent" number? default.highFlakyRate
    trustedSuites := ← f.withDefault "trusted_suites" texts? default.trustedSuites
    tracked := ← f.withDefault "tracked" (listOf? TrackedBranch.ofDocument?) default.tracked
    quietSecs := ← f.withDefault "detect_quiet_secs" word? default.quietSecs }

def toJson (c : DetectionConfig) : Json := .record [
  ("flaky_status_change_border", .ofNat c.flakyBorder),
  ("high_flaky_rate_percent", .ofFloat c.highFlakyRate),
  ("trusted_suites", list Json.ofString c.trustedSuites),
  ("tracked", list TrackedBranch.toJson c.tracked),
  ("detect_quiet_secs", .ofNat c.quietSecs)]

end DetectionConfig

namespace ClusteringConfig

def ofDocument? (v : δ) : Option ClusteringConfig := do
  let f ← fields? ["issue_lookback_days", "quiet_period_secs"] v
  return {
    lookbackDays := ← f.withDefault "issue_lookback_days" signedWord? default.lookbackDays
    quietSecs := ← f.withDefault "quiet_period_secs" word? default.quietSecs }

def toJson (c : ClusteringConfig) : Json := .record [
  ("issue_lookback_days", .ofInt c.lookbackDays),
  ("quiet_period_secs", .ofNat c.quietSecs)]

end ClusteringConfig

namespace CleanerConfig

def ofDocument? (v : δ) : Option CleanerConfig := do
  let f ← fields? ["enabled", "safe_days", "items_to_delete", "quiet_period_secs"] v
  return {
    enabled := ← f.withDefault "enabled" bool? default.enabled
    safeDays := ← f.withDefault "safe_days" signedWord? default.safeDays
    budget := ← f.withDefault "items_to_delete" word? default.budget
    quietSecs := ← f.withDefault "quiet_period_secs" word? default.quietSecs }

def toJson (c : CleanerConfig) : Json := .record [
  ("enabled", .bool c.enabled),
  ("safe_days", .ofInt c.safeDays),
  ("items_to_delete", .ofNat c.budget),
  ("quiet_period_secs", .ofNat c.quietSecs)]

end CleanerConfig

namespace Subscriber

def ofDocument? (v : δ) : Option Subscriber := do
  let f ← fields? ["address", "servers", "branches", "tags"] v
  return {
    address := ← f.required "address" text?
    servers := ← f.withDefault "servers" texts? []
    branches := ← f.withDefault "branches" texts? []
    tags := ← f.withDefault "tags" texts? [] }

def toJson (s : Subscriber) : Json := .record [
  ("address", .ofString s.address),
  ("servers", list Json.ofString s.servers),
  ("branches", list Json.ofString s.branches),
  ("tags", list Json.ofString s.tags)]

end Subscriber

namespace NotificationConfig

def ofDocument? (v : δ) : Option NotificationConfig := do
  let f ← fields? ["max_retries", "recent_window_mins", "quiet_period_secs", "subscribers"] v
  return {
    maxRetries := ← f.withDefault "max_retries" halfWord? default.maxRetries
    recentMinutes := ← f.withDefault "recent_window_mins" signedWord? default.recentMinutes
    quietSecs := ← f.withDefault "quiet_period_secs" word? default.quietSecs
    subscribers := ←
      f.withDefault "subscribers" (listOf? Subscriber.ofDocument?) default.subscribers }

def toJson (c : NotificationConfig) : Json := .record [
  ("max_retries", .ofNat c.maxRetries),
  ("recent_window_mins", .ofInt c.recentMinutes),
  ("quiet_period_secs", .ofNat c.quietSecs),
  ("subscribers", list Subscriber.toJson c.subscribers)]

end NotificationConfig

namespace Config

def ofDocument? (v : δ) : Option Config := do
  let f ← fields? ["scheduler", "detection", "clustering", "cleaner", "notifications"] v
  return {
    scheduler := ← f.withDefault "scheduler" SchedulerConfig.ofDocument? .default
    detection := ← f.withDefault "detection" DetectionConfig.ofDocument? .default
    clustering := ← f.withDefault "clustering" ClusteringConfig.ofDocument? .default
    cleaner := ← f.withDefault "cleaner" CleanerConfig.ofDocument? .default
    notifications := ← f.withDefault "notifications" NotificationConfig.ofDocument? .default }

def toJson (c : Config) : Json := .record [
  ("scheduler", c.scheduler.toJson),
  ("detection", c.detection.toJson),
  ("clustering", c.clustering.toJson),
  ("cleaner", c.cleaner.toJson),
  ("notifications", c.notifications.toJson)]

end Config

end Triage
