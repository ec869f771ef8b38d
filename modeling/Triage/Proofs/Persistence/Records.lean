import Triage.Proofs.Persistence

/-!
# Stored builds, histories and defects read back

A record is stored faithfully if its numbers fit into words and its times have years of four digits
(`BuildSnapshot.Storable`, `RunHistory.Storable`, `Defect.Storable`); of a flaky rate all that is
asked is that its own text reads back, which only that of a finite one can.  The records then come
back from their texts unchanged, and no two of them share a text (`Persistence.records_read_back`).
-/

namespace Triage

open Document Persistence

/-! ## Builds -/

theorem CommitHash.readsBack (h : CommitHash) : ReadsBack toJson ofJson? h := by
  have hbytes : ReadsBack (list Json.ofNat) (listOf? (natBelow? 256)) (h.bytes.map UInt8.toNat) :=
    readsBack_list fun n hn => by
      obtain ⟨b, -, rfl⟩ := List.mem_map.1 hn
      exact readsBack_natBelow b.toNat_lt (by decide)
  have hjson : h.toJson = list Json.ofNat (h.bytes.map UInt8.toNat) := by
    rw [list, List.map_map]
    rfl
  have hback : (h.bytes.map UInt8.toNat).map UInt8.ofNat = h.bytes := by
    rw [List.map_map]
    exact List.map_id'' (fun b => UInt8.ofNat_toNat) _
  refine ⟨hjson ▸ hbytes.wellFormed, ?_⟩
  rw [ofJson?, hjson, hbytes.read_write]
  exact congrArg (fun bytes => some (CommitHash.mk bytes)) hback

theorem Revision.plainNames : PlainNames ["commit", "vcs_root"] := by decide +kernel

theorem Revision.readsBack (r : Revision) : ReadsBack toJson ofJson? r := by
  have hcommit := r.commit.readsBack
  have hroot := readsBack_text r.root
  refine readsBack_record plainNames rfl rfl ?_ ?_
  · simp only [List.forall_mem_cons]
    exact ⟨hcommit.wellFormed, hroot.wellFormed, List.forall_mem_nil _⟩
  · rw [required_eq (by simp [Fields.find?]) hcommit, required_eq (by simp [Fields.find?]) hroot]
    rfl

theorem Change.plainNames : PlainNames ["id", "commit", "author", "web_url"] := by
  decide +kernel

theorem Change.readsBack {c : Change} (hid : c.id < Word.size) : ReadsBack toJson ofJson? c := by
  have hid := readsBack_word hid
  have hcommit := c.commit.readsBack
  have hauthor := readsBack_text c.author
  have hurl := readsBack_option (o := c.webUrl) (fun _ => rfl) fun s _ => readsBack_text s
  refine readsBack_record Change.plainNames rfl rfl ?_ ?_
  · simp only [List.forall_mem_cons]
    exact ⟨hid.wellFormed, hcommit.wellFormed, hauthor.wellFormed, hurl.wellFormed,
      List.forall_mem_nil _⟩
  · rw [required_eq (by simp [Fields.find?]) hid,
      required_eq (by simp [Fields.find?]) hcommit,
      required_eq (by simp [Fields.find?]) hauthor,
      optional_eq (by simp [Fields.find?]) hurl]
    rfl

/-- A snapshot whose ids are words and whose start has a year of four digits. -/
structure BuildSnapshot.Storable (b : BuildSnapshot) : Prop where
  build : b.build < Word.size
  startAt : ∀ t ∈ b.startAt, t.IsPlain
  changes : ∀ c ∈ b.changes, c.id < Word.size

theorem BuildSnapshot.plainNames : PlainNames ["server_id", "build_id", "branch", "start_at",
    "revisions", "changes", "tags"] := by
  decide +kernel

theorem BuildSnapshot.readsBack {b : BuildSnapshot} (h : b.Storable) :
    ReadsBack toJson ofJson? b := by
  have hserver := readsBack_text b.server
  have hbuild := readsBack_word h.build
  have hbranch := readsBack_option (o := b.branch) (fun _ => rfl) fun s _ => readsBack_text s
  have hstart := readsBack_option (o := b.startAt) (fun _ => rfl) fun t ht =>
    readsBack_timestamp (h.startAt t ht)
  have hrevisions := readsBack_list fun r (_ : r ∈ b.revisions) => r.readsBack
  have hchanges := readsBack_list fun c hc => Change.readsBack (h.changes c hc)
  have htags := readsBack_set (s := b.tags) fun s _ => readsBack_text s
  refine readsBack_record BuildSnapshot.plainNames rfl rfl ?_ ?_
  · simp only [List.forall_mem_cons]
    exact ⟨hserver.wellFormed, hbuild.wellFormed, hbranch.wellFormed, hstart.wellFormed,
      hrevisions.wellFormed, hchanges.wellFormed, htags.wellFormed, List.forall_mem_nil _⟩
  · rw [required_eq (by simp [Fields.find?]) hserver,
      required_eq (by simp [Fields.find?]) hbuild,
      optional_eq (by simp [Fields.find?]) hbranch,
      optional_eq (by simp [Fields.find?]) hstart,
      required_eq (by simp [Fields.find?]) hrevisions,
      required_eq (by simp [Fields.find?]) hchanges,
      required_eq (by simp [Fields.find?]) htags]
    rfl

/-! ## Histories -/

theorem RunStatus.readsBack (s : RunStatus) : ReadsBack toJson ofJson? s :=
  readsBack_variant (by cases s <;> rfl)

theorem Run.plainNames : PlainNames ["build_id", "status"] := by
  decide +kernel

theorem Run.readsBack {r : Run} (hid : r.build < Word.size) : ReadsBack toJson ofJson? r := by
  have hbuild := readsBack_word hid
  have hstatus := r.status.readsBack
  refine readsBack_record Run.plainNames rfl rfl ?_ ?_
  · simp only [List.forall_mem_cons]
    exact ⟨hbuild.wellFormed, hstatus.wellFormed, List.forall_mem_nil _⟩
  · rw [required_eq (by simp [Fields.find?]) hbuild,
      required_eq (by simp [Fields.find?]) hstatus]
    rfl

/-- A history whose build ids are words. -/
def RunHistory.Storable (h : RunHistory) : Prop := ∀ r ∈ h.runs, r.build < Word.size

theorem RunHistory.plainNames : PlainNames ["entries"] := by decide +kernel

theorem RunHistory.readsBack {g : RunHistory} (h : g.Storable) : ReadsBack toJson ofJson? g := by
  have hruns := readsBack_list fun r hr => Run.readsBack (h r hr)
  refine readsBack_record RunHistory.plainNames rfl rfl ?_ ?_
  · simp only [List.forall_mem_cons]
    exact ⟨hruns.wellFormed, List.forall_mem_nil _⟩
  · rw [required_eq (by simp [Fields.find?]) hruns]
    rfl

/-! ## Defects -/

theorem IssueType.readsBack (t : IssueType) : ReadsBack toJson ofJson? t :=
  readsBack_variant (by cases t <;> rfl)

theorem DefectIssue.plainNames : PlainNames ["issue_type", "test_name", "flaky_rate"] := by
  decide +kernel

theorem DefectIssue.readsBack {i : DefectIssue} (h : FloatReadsBack i.flakyRate) :
    ReadsBack toJson ofJson? i := by
  have htype := i.type.readsBack
  have htest := readsBack_text i.test
  have hrate := readsBack_float h
  refine readsBack_record DefectIssue.plainNames rfl rfl ?_ ?_
  · simp only [List.forall_mem_cons]
    exact ⟨htype.wellFormed, htest.wellFormed, hrate.wellFormed, List.forall_mem_nil _⟩
  · rw [required_eq (by simp [Fields.find?]) htype,
      required_eq (by simp [Fields.find?]) htest,
      required_eq (by simp [Fields.find?]) hrate]
    rfl

/-- The flaky rates that a member keeps. -/
def DefectBuild.rates (b : DefectBuild) : List Float := b.issues.map (·.flakyRate)

/-- A member whose id is a word and whose start has a year of four digits. -/
structure DefectBuild.Storable (b : DefectBuild) : Prop where
  build : b.build < Word.size
  startAt : ∀ t ∈ b.startAt, t.IsPlain

theorem DefectBuild.plainNames : PlainNames ["build_id", "branch", "start_at", "fingerprint",
    "issues"] := by
  decide +kernel

theorem DefectBuild.readsBack {b : DefectBuild} (h : b.Storable)
    (hrates : ∀ x ∈ b.rates, FloatReadsBack x) : ReadsBack toJson ofJson? b := by
  have hbuild := readsBack_word h.build
  have hbranch := readsBack_option (o := b.branch) (fun _ => rfl) fun s _ => readsBack_text s
  have hstart := readsBack_option (o := b.startAt) (fun _ => rfl) fun t ht =>
    readsBack_timestamp (h.startAt t ht)
  have hfingerprint := readsBack_set (s := b.fingerprint) fun c _ => c.readsBack
  have hissues := readsBack_list fun i hi =>
    DefectIssue.readsBack (hrates _ (List.mem_map_of_mem hi))
  refine readsBack_record DefectBuild.plainNames rfl rfl ?_ ?_
  · simp only [List.forall_mem_cons]
    exact ⟨hbuild.wellFormed, hbranch.wellFormed, hstart.wellFormed, hfingerprint.wellFormed,
      hissues.wellFormed, List.forall_mem_nil _⟩
  · rw [required_eq (by simp [Fields.find?]) hbuild,
      optional_eq (by simp [Fields.find?]) hbranch,
      optional_eq (by simp [Fields.find?]) hstart,
      required_eq (by simp [Fields.find?]) hfingerprint,
      required_eq (by simp [Fields.find?]) hissues]
    rfl

theorem BlameCandidate.plainNames : PlainNames ["vcs_username", "full_display_name"] := by
  decide +kernel

theorem BlameCandidate.readsBack (c : BlameCandidate) : ReadsBack toJson ofJson? c := by
  have husername := readsBack_text c.username
  have hfull := readsBack_option (o := c.fullName) (fun _ => rfl) fun s _ => readsBack_text s
  refine readsBack_record BlameCandidate.plainNames rfl rfl ?_ ?_
  · simp only [List.forall_mem_cons]
    exact ⟨husername.wellFormed, hfull.wellFormed, List.forall_mem_nil _⟩
  · rw [required_eq (by simp [Fields.find?]) husername,
      optional_eq (by simp [Fields.find?]) hfull]
    rfl

theorem Consistency.readsBack (c : Consistency) : ReadsBack toJson ofJson? c :=
  readsBack_variant (by cases c <;> rfl)

def Defect.rates (d : Defect) : List Float := d.members.values.flatMap (·.rates)

/-- A defect whose ids are words, those of its members included, and whose times have years of four
digits. -/
structure Defect.Storable (d : Defect) : Prop where
  id : d.id < Word.size
  members : ∀ e ∈ d.members.entries, e.1 < Word.size ∧ e.2.Storable
  createdAt : d.createdAt.IsPlain
  resolvedAt : ∀ t ∈ d.resolvedAt, t.IsPlain
  supersededBy : ∀ n ∈ d.supersededBy, n < Word.size

theorem Defect.plainNames : PlainNames ["id", "server_id", "tracked_branch", "builds_involved",
    "blame_candidates", "created_at", "resolved_at", "resolved_by", "superseded_by",
    "consistency"] := by
  decide +kernel

theorem Defect.readsBack {d : Defect} (h : d.Storable) (hrates : ∀ x ∈ d.rates, FloatReadsBack x) :
    ReadsBack toJson ofJson? d := by
  have hid := readsBack_word h.id
  have hserver := readsBack_text d.server
  have hbranch := readsBack_option (o := d.trackedBranch) (fun _ => rfl) fun s _ => readsBack_text s
  have hmembers := readsBack_wordKeyed (fun e he => (h.members e he).1) fun e he =>
    DefectBuild.readsBack (h.members e he).2 fun x hx =>
      hrates x (List.mem_flatMap.2 ⟨e.2, List.mem_map_of_mem he, hx⟩)
  have hblame := readsBack_list fun c (_ : c ∈ d.blame) => c.readsBack
  have hcreated := readsBack_timestamp h.createdAt
  have hresolved := readsBack_option (o := d.resolvedAt) (fun _ => rfl) fun t ht =>
    readsBack_timestamp (h.resolvedAt t ht)
  have huser := readsBack_option (o := d.resolvedBy) (fun _ => rfl) fun s _ => readsBack_text s
  have hsuperseded := readsBack_option (o := d.supersededBy) (fun _ => rfl) fun n hn =>
    readsBack_word (h.supersededBy n hn)
  have hconsistency := d.consistency.readsBack
  refine readsBack_record Defect.plainNames rfl rfl ?_ ?_
  · simp only [List.forall_mem_cons]
    exact ⟨hid.wellFormed, hserver.wellFormed, hbranch.wellFormed, hmembers.wellFormed,
      hblame.wellFormed, hcreated.wellFormed, hresolved.wellFormed, huser.wellFormed,
      hsuperseded.wellFormed, hconsistency.wellFormed, List.forall_mem_nil _⟩
  · rw [required_eq (by simp [Fields.find?]) hid,
      required_eq (by simp [Fields.find?]) hserver,
      optional_eq (by simp [Fields.find?]) hbranch,
      required_eq (by simp [Fields.find?]) hmembers,
      required_eq (by simp [Fields.find?]) hblame,
      required_eq (by simp [Fields.find?]) hcreated,
      optional_eq (by simp [Fields.find?]) hresolved,
      optional_eq (by simp [Fields.find?]) huser,
      optional_eq (by simp [Fields.find?]) hsuperseded,
      required_eq (by simp [Fields.find?]) hconsistency]
    rfl

/-! ## The texts of records -/

/-- Records are read back from their texts, and different records have different texts.  Of the
flaky rates this asks that their own texts read back. -/
theorem Persistence.records_read_back :
    ((∀ b : BuildSnapshot, b.Storable →
        readText BuildSnapshot.ofJson? b.toJson.toText = some b) ∧
      (∀ h : RunHistory, h.Storable → readText RunHistory.ofJson? h.toJson.toText = some h) ∧
      ∀ d : Defect, d.Storable → (∀ x ∈ d.rates, FloatReadsBack x) →
        readText Defect.ofJson? d.toJson.toText = some d) ∧
    Set.InjOn (fun b : BuildSnapshot => b.toJson.toText) {b | b.Storable} ∧
    Set.InjOn (fun h : RunHistory => h.toJson.toText) {h | h.Storable} ∧
    Set.InjOn (fun d : Defect => d.toJson.toText)
      {d | d.Storable ∧ ∀ x ∈ d.rates, FloatReadsBack x} :=
  ⟨⟨fun _ h => (BuildSnapshot.readsBack h).readText, fun _ h => (RunHistory.readsBack h).readText,
      fun _ h hrates => (Defect.readsBack h hrates).readText⟩,
    injOn_toText fun _ => BuildSnapshot.readsBack, injOn_toText fun _ => RunHistory.readsBack,
    injOn_toText fun _ h => Defect.readsBack h.1 h.2⟩

namespace Persistence

/-! ### Records at the ends of the ranges -/

/-- The last moment of the year 9999. -/
def lastPlain : Timestamp := ⟨253402300799, 999999999⟩

/-- The first moment of the year 0. -/
def firstPlain : Timestamp := ⟨-62167219200, 0⟩

/-- A snapshot of the build with the largest id, with characters that are escaped in every way. -/
def quotedBuild : BuildSnapshot where
  server := "ci \"main\" \\ \x01\t"
  build := 18446744073709551615
  branch := some "release/✓"
  startAt := some firstPlain
  revisions := [⟨⟨[0, 127, 255]⟩, ""⟩]
  changes := [⟨0, ⟨[]⟩, "A <a@b>", none⟩]
  tags := .ofList ["b", "a"]

def quotedHistory : RunHistory := ⟨[⟨0, .okOrFailure⟩, ⟨18446744073709551615, .criticalFailure⟩]⟩

/-- A defect with a member and a flaky rate, taken over by another defect. -/
def quotedDefect : Defect where
  id := 2
  server := "ci"
  trackedBranch := none
  members := .ofList [(7, ⟨7, some "main", some ⟨1700000000, 1500000⟩, .ofList [⟨[171]⟩],
    [⟨.newTestWithHighFlakyRate, "a\nb", 37.5⟩]⟩)]
  blame := [⟨"dev01", some "Dev"⟩]
  createdAt := firstPlain
  resolvedAt := some lastPlain
  resolvedBy := none
  supersededBy := some 1
  consistency := .broken

theorem isPlain_firstPlain : firstPlain.IsPlain := ⟨by decide +kernel, by decide⟩

theorem isPlain_lastPlain : lastPlain.IsPlain := ⟨by decide +kernel, by decide⟩

theorem storable_quotedDefect : quotedDefect.Storable where
  id := by decide
  members := by
    have hstart : (⟨1700000000, 1500000⟩ : Timestamp).IsPlain := ⟨by decide +kernel, by decide⟩
    intro e he
    obtain rfl := List.mem_singleton.1 he
    refine ⟨by decide, by decide, ?_⟩
    rintro t ⟨⟩
    exact hstart
  createdAt := isPlain_firstPlain
  resolvedAt := by
    rintro t ⟨⟩
    exact isPlain_lastPlain
  supersededBy := by decide

theorem records_read_back_quoted :
    (quotedBuild.Storable ∧
      readText BuildSnapshot.ofJson? quotedBuild.toJson.toText = some quotedBuild) ∧
    (quotedHistory.Storable ∧
      readText RunHistory.ofJson? quotedHistory.toJson.toText = some quotedHistory) ∧
    (quotedDefect.Storable ∧ FloatReadsBack 37.5 ∧ quotedDefect.rates = [37.5]) ∧
      readText Defect.ofJson? quotedDefect.toJson.toText = some quotedDefect := by
  obtain ⟨⟨hbuilds, hhistories, hdefects⟩, -⟩ := records_read_back
  have hbuild : quotedBuild.Storable :=
    ⟨by decide, by rintro t ⟨⟩; exact isPlain_firstPlain, by decide⟩
  have hhistory : quotedHistory.Storable := by
    unfold RunHistory.Storable
    decide
  have hdefect := storable_quotedDefect
  have hrate : FloatReadsBack 37.5 := by
    unfold FloatReadsBack
    decide +kernel
  have hrates : quotedDefect.rates = [37.5] := rfl
  refine ⟨⟨hbuild, hbuilds _ hbuild⟩, ⟨hhistory, hhistories _ hhistory⟩, ⟨hdefect, hrate, hrates⟩,
    hdefects _ hdefect fun x hx => ?_⟩
  rw [hrates, List.mem_singleton] at hx
  exact hx ▸ hrate

end Persistence

end Triage
