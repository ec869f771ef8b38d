import Triage.Build
import Triage.Persistence.Basic

/-!
# Stored builds
-/

namespace Triage

open Document Persistence

namespace CommitHash

def toJson (h : CommitHash) : Json := list (fun b => .ofNat b.toNat) h.bytes

def ofJson? (v : Json) : Option CommitHash := do
  return ⟨(← listOf? (natBelow? 256) v).map UInt8.ofNat⟩

end CommitHash

namespace Revision

def toJson (r : Revision) : Json :=
  .record [("commit", r.commit.toJson), ("vcs_root", .ofString r.root)]

def ofJson? (v : Json) : Option Revision := do
  let f ← fields? ["commit", "vcs_root"] v
  return ⟨← f.required "commit" CommitHash.ofJson?, ← f.required "vcs_root" text?⟩

end Revision

namespace Change

def toJson (c : Change) : Json := .record [
  ("id", .ofNat c.id),
  ("commit", c.commit.toJson),
  ("author", .ofString c.author),
  ("web_url", .ofOption Json.ofString c.webUrl)]

def ofJson? (v : Json) : Option Change := do
  let f ← fields? ["id", "commit", "author", "web_url"] v
  return {
    id := ← f.required "id" word?
    commit := ← f.required "commit" CommitHash.ofJson?
    author := ← f.required "author" text?
    webUrl := ← f.optional "web_url" text? }

end Change

namespace BuildSnapshot

def toJson (b : BuildSnapshot) : Json := .record [
  ("server_id", .ofString b.server),
  ("build_id", .ofNat b.build),
  ("branch", .ofOption Json.ofString b.branch),
  ("start_at", .ofOption timestamp b.startAt),
  ("revisions", list Revision.toJson b.revisions),
  ("changes", list Change.toJson b.changes),
  ("tags", set Json.ofString b.tags)]

def ofJson? (v : Json) : Option BuildSnapshot := do
  let f ← fields? ["server_id", "build_id", "branch", "start_at", "revisions", "changes", "tags"] v
  return {
    server := ← f.required "server_id" text?
    build := ← f.required "build_id" word?
    branch := ← f.optional "branch" text?
    startAt := ← f.optional "start_at" timestamp?
    revisions := ← f.required "revisions" (listOf? Revision.ofJson?)
    changes := ← f.required "changes" (listOf? Change.ofJson?)
    tags := ← f.required "tags" (set? text?) }

end BuildSnapshot

end Triage
