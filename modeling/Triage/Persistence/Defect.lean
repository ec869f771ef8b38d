import Triage.Defect
import Triage.Persistence.Build
import Triage.Persistence.Issue

/-!
# Stored defects
-/

namespace Triage

open Document Persistence

namespace DefectIssue

def toJson (i : DefectIssue) : Json := .record [
  ("issue_type", i.type.toJson),
  ("test_name", .ofString i.test),
  ("flaky_rate", .ofFloat i.flakyRate)]

def ofJson? (v : Json) : Option DefectIssue := do
  let f ← fields? ["issue_type", "test_name", "flaky_rate"] v
  return {
    type := ← f.required "issue_type" IssueType.ofJson?
    test := ← f.required "test_name" text?
    flakyRate := ← f.required "flaky_rate" number? }

end DefectIssue

namespace DefectBuild

def toJson (b : DefectBuild) : Json := .record [
  ("build_id", .ofNat b.build),
  ("branch", .ofOption Json.ofString b.branch),
  ("start_at", .ofOption timestamp b.startAt),
  ("fingerprint", set CommitHash.toJson b.fingerprint),
  ("issues", list DefectIssue.toJson b.issues)]

def ofJson? (v : Json) : Option DefectBuild := do
  let f ← fields? ["build_id", "branch", "start_at", "fingerprint", "issues"] v
  return {
    build := ← f.required "build_id" word?
    branch := ← f.optional "branch" text?
    startAt := ← f.optional "start_at" timestamp?
    fingerprint := ← f.required "fingerprint" (set? CommitHash.ofJson?)
    issues := ← f.required "issues" (listOf? DefectIssue.ofJson?) }

end DefectBuild

namespace BlameCandidate

def toJson (c : BlameCandidate) : Json := .record [
  ("vcs_username", .ofString c.username),
  ("full_display_name", .ofOption Json.ofString c.fullName)]

def ofJson? (v : Json) : Option BlameCandidate := do
  let f ← fields? ["vcs_username", "full_display_name"] v
  return ⟨← f.required "vcs_username" text?, ← f.optional "full_display_name" text?⟩

end BlameCandidate

namespace Consistency

def storedName : Consistency → String
  | consistent => "consistent"
  | broken => "broken"

def toJson (c : Consistency) : Json := .ofString c.storedName

def ofJson? (v : Json) : Option Consistency := variant? [consistent, broken] storedName v

end Consistency

namespace Defect

def toJson (d : Defect) : Json := .record [
  ("id", .ofNat d.id),
  ("server_id", .ofString d.server),
  ("tracked_branch", .ofOption Json.ofString d.trackedBranch),
  ("builds_involved", wordKeyed DefectBuild.toJson d.members),
  ("blame_candidates", list BlameCandidate.toJson d.blame),
  ("created_at", timestamp d.createdAt),
  ("resolved_at", .ofOption timestamp d.resolvedAt),
  ("resolved_by", .ofOption Json.ofString d.resolvedBy),
  ("superseded_by", .ofOption Json.ofNat d.supersededBy),
  ("consistency", d.consistency.toJson)]

def ofJson? (v : Json) : Option Defect := do
  let f ← fields? ["id", "server_id", "tracked_branch", "builds_involved", "blame_candidates",
    "created_at", "resolved_at", "resolved_by", "superseded_by", "consistency"] v
  return {
    id := ← f.required "id" word?
    server := ← f.required "server_id" text?
    trackedBranch := ← f.optional "tracked_branch" text?
    members := ← f.required "builds_involved" (wordKeyed? DefectBuild.ofJson?)
    blame := ← f.required "blame_candidates" (listOf? BlameCandidate.ofJson?)
    createdAt := ← f.required "created_at" timestamp?
    resolvedAt := ← f.optional "resolved_at" timestamp?
    resolvedBy := ← f.optional "resolved_by" text?
    supersededBy := ← f.optional "superseded_by" word?
    consistency := ← f.required "consistency" Consistency.ofJson? }

end Defect

end Triage
