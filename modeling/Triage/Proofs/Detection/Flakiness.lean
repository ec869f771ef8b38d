import Triage.Proofs.Detection.Coverage
import Triage.Proofs.History
import Triage.Proofs.Template.Search

/-!
# What flakiness silences

A flaky history shows no new failure, and nor does any history that goes on from it; a steady one shows
no failure of a flaky test.  No alarm is lost either way (`classify_of_flakiness`): every window of the
template for flaky tests begins with a window of the template for new failures, so what is silenced
in a steady history is shown as a new failure, at the same change or at a newer one.
-/

namespace Triage

/-- A template whose statuses are the first ones of another fits wherever the other one does. -/
theorem Template.FitsAt.of_prefix {t t' : Template} {runs : List Run} {start : Nat}
    (h : t.FitsAt runs start) (hpattern : t'.pattern <+: t.pattern)
    (hmissing : t'.includeMissing = t.includeMissing) : t'.FitsAt runs start := by
  refine ⟨(Nat.add_le_add_left hpattern.length_le start).trans h.1, fun i expected hexpected => ?_⟩
  rw [hmissing]
  refine h.2 i expected ?_
  obtain ⟨rest, hrest⟩ := hpattern
  obtain ⟨hi, -⟩ := List.getElem?_eq_some_iff.1 hexpected
  rw [← hrest, List.getElem?_append_left hi, hexpected]

theorem TemplateKind.fitsAt_newFailure {runs : List Run} {start : Nat}
    (h : newFailureForFlakyTest.template.FitsAt runs start) :
    newFailure.template.FitsAt runs start :=
  h.of_prefix ⟨List.replicate 4 .failure, rfl⟩ rfl

namespace Detection

variable {cfg : DetectionConfig} {identity : Identity} {h : RunHistory} {type : IssueType}
  {build : Nat}

/-! ### Which template an issue comes from -/

theorem type_highFlakyRate? {finding : IssueType × Nat}
    (hf : highFlakyRate? cfg h = some finding) : finding.1 = .newTestWithHighFlakyRate := by
  unfold highFlakyRate? at hf
  split at hf
  · split at hf
    · split at hf
      · cases hf
        rfl
      · cases hf
    · cases hf
  · cases hf

/-- But for the rate of changes, an issue of a history comes from a template that matches it. -/
theorem mem_classify (htype : type ≠ .newTestWithHighFlakyRate) :
    (type, build) ∈ classify cfg identity h ↔
      ∃ kind : TemplateKind, kind.template.detect h = some build ∧
        issueType? cfg identity (h.isFlaky cfg.flakyBorder) kind = some type := by
  have hrate : highFlakyRate? cfg h ≠ some (type, build) := fun hf => htype (type_highFlakyRate? hf)
  unfold classify
  rw [List.mem_append, Option.mem_toList, or_iff_left hrate, List.mem_filterMap]
  constructor
  · rintro ⟨⟨kind, build'⟩, hmem, hmap⟩
    obtain ⟨type', htype', heq⟩ := Option.map_eq_some_iff.1 hmap
    cases heq
    exact ⟨kind, mem_transitions.1 hmem, htype'⟩
  · rintro ⟨kind, hdetect, htype'⟩
    exact ⟨(kind, build), mem_transitions.2 hdetect, by simp only [htype', Option.map_some]⟩

/-- Where only one template stands for an issue, the issue is shown at the change of this template's
window. -/
theorem mem_classify_of_source {source : TemplateKind} {shown : Prop}
    (htype : type ≠ .newTestWithHighFlakyRate)
    (hsource : ∀ kind, issueType? cfg identity (h.isFlaky cfg.flakyBorder) kind = some type ↔
      shown ∧ kind = source) :
    (type, build) ∈ classify cfg identity h ↔
      shown ∧ source.template.detect h = some build := by
  rw [mem_classify htype]
  constructor
  · rintro ⟨kind, hdetect, hkind⟩
    obtain ⟨hshown, rfl⟩ := (hsource kind).1 hkind
    exact ⟨hshown, hdetect⟩
  · rintro ⟨hshown, hdetect⟩
    exact ⟨source, hdetect, (hsource source).2 ⟨hshown, rfl⟩⟩

theorem mem_classify_newFailure_iff : (.newFailure, build) ∈ classify cfg identity h ↔
    (h.isFlaky cfg.flakyBorder = false ∧ identity.suiteName ∉ cfg.trustedSuites) ∧
      TemplateKind.newFailure.template.detect h = some build := by
  refine mem_classify_of_source (by decide) fun kind => ?_
  cases kind <;> simp [issueType?, TemplateKind.issueType]

theorem mem_classify_newTrustedSuiteFailure_iff :
    (.newTrustedSuiteFailure, build) ∈ classify cfg identity h ↔
      (h.isFlaky cfg.flakyBorder = false ∧ identity.suiteName ∈ cfg.trustedSuites) ∧
        TemplateKind.newFailure.template.detect h = some build := by
  refine mem_classify_of_source (by decide) fun kind => ?_
  cases kind <;> simp [issueType?, TemplateKind.issueType]

theorem mem_classify_newFailureForFlakyTest_iff :
    (.newFailureForFlakyTest, build) ∈ classify cfg identity h ↔
      h.isFlaky cfg.flakyBorder = true ∧
        TemplateKind.newFailureForFlakyTest.template.detect h = some build := by
  refine mem_classify_of_source (by decide) fun kind => ?_
  by_cases hsuite : identity.suiteName ∈ cfg.trustedSuites <;>
    cases kind <;> simp [issueType?, TemplateKind.issueType, hsuite]

/-! ### The newest window of a built-in template -/

/-- Where a template without a condition on the first run fits, it finds the entry at the change of its
newest window. -/
theorem detect_of_newest {t : Template} {s : Nat} (hfirst : t.firstRecorded = false)
    (hs : IsGreatest {s | t.FitsAt h.runs s} s) :
    ∃ r, h.runs[s + t.before.length]? = some r ∧ t.detect h = some r.build := by
  obtain ⟨r, hr⟩ := Template.FitsAt.exists_change hs.1
  refine ⟨r, hr, ?_⟩
  rw [Template.detect_of_isGreatest hs hr, Template.verdict_of_startsWith (.inl hfirst)]

/-- A flaky history, and any that goes on from it, shows no new failure; it shows the newest window of the
template for flaky tests.  A steady history shows no failure of a flaky test; when that template fits,
the new failure is shown instead, of a trusted suite or not, at the change of its own newest window,
which is no older. -/
theorem classify_of_flakiness (cfg : DetectionConfig) (identity : Identity) (h : RunHistory) :
    (h.isFlaky cfg.flakyBorder = true →
      (∀ later build, (.newFailure, build) ∉ classify cfg identity ⟨h.runs ++ later⟩ ∧
        (.newTrustedSuiteFailure, build) ∉ classify cfg identity ⟨h.runs ++ later⟩) ∧
      ∀ s, IsGreatest {s | TemplateKind.newFailureForFlakyTest.template.FitsAt h.runs s} s →
        ∃ r, h.runs[s + 5]? = some r ∧
          (.newFailureForFlakyTest, r.build) ∈ classify cfg identity h) ∧
    (h.isFlaky cfg.flakyBorder = false →
      (∀ build, (.newFailureForFlakyTest, build) ∉ classify cfg identity h) ∧
      ∀ s, IsGreatest {s | TemplateKind.newFailureForFlakyTest.template.FitsAt h.runs s} s →
        ∃ s' r, s ≤ s' ∧ IsGreatest {s | TemplateKind.newFailure.template.FitsAt h.runs s} s' ∧
          h.runs[s' + 5]? = some r ∧
          ((.newFailure, r.build) ∈ classify cfg identity h ↔
            identity.suiteName ∉ cfg.trustedSuites) ∧
          ((.newTrustedSuiteFailure, r.build) ∈ classify cfg identity h ↔
            identity.suiteName ∈ cfg.trustedSuites)) := by
  constructor
  · intro hflaky
    refine ⟨fun later build => ?_, fun s hs => ?_⟩
    · have hstays := RunHistory.isFlaky_append hflaky later
      rw [mem_classify_newFailure_iff, mem_classify_newTrustedSuiteFailure_iff, hstays]
      simp
    · obtain ⟨r, hr, hdetect⟩ := detect_of_newest rfl hs
      exact ⟨r, hr, mem_classify_newFailureForFlakyTest_iff.2 ⟨hflaky, hdetect⟩⟩
  · intro hsteady
    refine ⟨fun build => ?_, fun s hs => ?_⟩
    · rw [mem_classify_newFailureForFlakyTest_iff, hsteady]
      simp
    · have hfits := TemplateKind.fitsAt_newFailure hs.1
      obtain ⟨s', hs'⟩ := hfits.exists_isGreatest
      obtain ⟨r, hr, hdetect⟩ := detect_of_newest rfl hs'
      refine ⟨s', r, hs'.2 hfits, hs', hr, ?_, ?_⟩
      · rw [mem_classify_newFailure_iff]
        simp [hsteady, hdetect]
      · rw [mem_classify_newTrustedSuiteFailure_iff]
        simp [hsteady, hdetect]

/-- The last eight failures of a test that relapsed are new failures of a flaky test if three changes make
it flaky, and new failures by default. -/
theorem classify_of_flakiness_relapse :
    (RunHistory.isFlaky ⟨relapse⟩ threeChanges.flakyBorder = true ∧
      ∃ r, relapse[9 + 5]? = some r ∧ r.build = 114 ∧
        (.newFailureForFlakyTest, r.build) ∈ classify threeChanges ⟨"t1", some "S"⟩ ⟨relapse⟩) ∧
    RunHistory.isFlaky ⟨relapse⟩ DetectionConfig.default.flakyBorder = false ∧
      ∃ s r, 9 ≤ s ∧ relapse[s + 5]? = some r ∧
        (.newFailure, r.build) ∈ classify .default ⟨"t1", some "S"⟩ ⟨relapse⟩ := by
  have hnewest : IsGreatest {s | TemplateKind.newFailureForFlakyTest.template.FitsAt relapse s} 9 := by
    refine ⟨Template.fitsAt_iff_matches.2 ⟨by decide, by unfold Template.Matches; decide⟩, ?_⟩
    exact fun s hs => Template.FitsAt.le hs
  have hflaky : RunHistory.isFlaky ⟨relapse⟩ threeChanges.flakyBorder = true := by decide
  have hsteady : RunHistory.isFlaky ⟨relapse⟩ DetectionConfig.default.flakyBorder = false := by decide
  obtain ⟨-, hshown⟩ := (classify_of_flakiness threeChanges ⟨"t1", some "S"⟩ ⟨relapse⟩).1 hflaky
  obtain ⟨-, hkept⟩ :=
    (classify_of_flakiness .default ⟨"t1", some "S"⟩ ⟨relapse⟩).2 hsteady
  obtain ⟨r, hr, hmem⟩ := hshown 9 hnewest
  obtain ⟨s, r', hle, -, hr', hplain, -⟩ := hkept 9 hnewest
  refine ⟨⟨hflaky, r, hr, ?_, hmem⟩, hsteady, s, r', hle, hr', hplain.2 (by decide)⟩
  cases hr
  rfl

end Detection

end Triage
