import Triage.Proofs.Detection
import Triage.Proofs.Template

/-!
# Checks after every entry

A history is recorded entry by entry and checked after each entry (`Watched`).  A check looks only at
the newest window of each template, but every window is the newest one when its last entry has just
been recorded.  So the stored issues are those that the prefixes of the history show
(`Watched.contains_iff`): no window is missed, and nothing else is registered
(`Watched.stored_of_windows`).
-/

namespace Triage.Detection

variable {cfg : DetectionConfig} {branch : TrackedBranch} {identity : Identity} {h : RunHistory}
  {s : Stores}

/-- The verdict on the flakiness of a history that silences the windows of a template: a flaky history
has no new failures, and a steady one no new failures of a flaky test. -/
def isSilenced (cfg : DetectionConfig) (h : RunHistory) : TemplateKind → Bool
  | .newFailure => h.isFlaky cfg.flakyBorder
  | .newFailureForFlakyTest => !h.isFlaky cfg.flakyBorder
  | _ => false

theorem isSome_issueType? (cfg : DetectionConfig) (identity : Identity) (h : RunHistory)
    (kind : TemplateKind) :
    (issueType? cfg identity (h.isFlaky cfg.flakyBorder) kind).isSome = !isSilenced cfg h kind := by
  cases kind with
  | newFailure =>
    cases hf : h.isFlaky cfg.flakyBorder with
    | true => simp [issueType?, isSilenced, hf]
    | false =>
      unfold issueType? isSilenced
      simp only [hf, Bool.false_eq_true, if_false]
      split <;> rfl
  | newFailureForFlakyTest => cases hf : h.isFlaky cfg.flakyBorder <;> simp [issueType?, isSilenced, hf]
  | _ => rfl

/-! ### What one history shows -/

theorem mem_transitions {kind : TemplateKind} {build : Nat} :
    (kind, build) ∈ h.transitions ↔ kind.template.detect h = some build := by
  have hall : kind ∈ TemplateKind.all := by cases kind <;> decide
  unfold RunHistory.transitions
  rw [List.mem_filterMap]
  constructor
  · rintro ⟨kind', -, hd⟩
    obtain ⟨build', hd, heq⟩ := Option.map_eq_some_iff.1 hd
    cases heq
    exact hd
  · exact fun hd => ⟨kind, hall, by rw [hd]; rfl⟩

theorem highFlakyRate?_eq_some {finding : IssueType × Nat}
    (hf : highFlakyRate? cfg h = some finding) :
    cfg.highFlakyRate ≤ h.flakyRate ∧ ∃ r, h.lastRecorded? = some r ∧ r.status.isFailure = true ∧
      r.build = finding.2 := by
  unfold highFlakyRate? at hf
  split at hf
  · rename_i hrate
    refine ⟨hrate, ?_⟩
    split at hf
    · rename_i r hr
      split at hf
      · rename_i hfailed
        cases hf
        exact ⟨r, hr, hfailed, rfl⟩
      · cases hf
    · cases hf
  · cases hf

/-- What a template finds is shown, unless it is silenced. -/
theorem mem_foundIn_of_detect {kind : TemplateKind} {build : Nat}
    (hd : kind.template.detect h = some build) (hs : isSilenced cfg h kind = false) :
    ⟨branch.server, build, identity.name⟩ ∈ foundIn cfg branch identity h := by
  have hsome := isSome_issueType? cfg identity h kind
  rw [hs, Bool.not_false] at hsome
  obtain ⟨type, htype⟩ := Option.isSome_iff_exists.1 hsome
  refine List.mem_map.2 ⟨(type, build), List.mem_append.2 (.inl ?_), rfl⟩
  refine List.mem_filterMap.2 ⟨(kind, build), mem_transitions.2 hd, ?_⟩
  simp only [htype, Option.map_some]

/-- What is shown was found by a template or is the newest run of a history that is too flaky. -/
theorem of_mem_foundIn {build : Nat}
    (hk : ⟨branch.server, build, identity.name⟩ ∈ foundIn cfg branch identity h) :
    (∃ kind : TemplateKind, kind.template.detect h = some build) ∨
      (cfg.highFlakyRate ≤ h.flakyRate ∧
        ∃ r, h.lastRecorded? = some r ∧ r.status.isFailure = true ∧ r.build = build) := by
  obtain ⟨⟨type, build'⟩, hmem, heq⟩ := List.mem_map.1 hk
  obtain rfl : build' = build := congrArg IssueKey.build heq
  rcases List.mem_append.1 hmem with hmem | hmem
  · obtain ⟨⟨kind, build''⟩, htransition, htype⟩ := List.mem_filterMap.1 hmem
    obtain ⟨type', -, heq⟩ := Option.map_eq_some_iff.1 htype
    cases heq
    exact .inl ⟨kind, mem_transitions.1 htransition⟩
  · exact .inr (highFlakyRate?_eq_some (Option.mem_toList.1 hmem))

/-! ### A watched history -/

/-- The stores once a history has been recorded entry by entry, with a check after each entry.  At the
start no issue is stored for the identity on the server, and between the checks none is added or
removed. -/
inductive Watched (cfg : DetectionConfig) (branch : TrackedBranch) (identity : Identity) :
    RunHistory → Stores → Prop
  | start {s : Stores}
      (none : ∀ build, s.issues.contains ⟨branch.server, build, identity.name⟩ = false) :
      Watched cfg branch identity .empty s
  | record {h h' : RunHistory} {s : Stores} (before : Watched cfg branch identity h s) (build : Nat)
      (status : RunStatus) (recorded : h.append build status = .ok h') (now : Timestamp) :
      Watched cfg branch identity h' ((checkIdentity cfg now branch identity h').exec s).2
  | meanwhile {h : RunHistory} {s s' : Stores} (before : Watched cfg branch identity h s)
      (same : ∀ build, s'.issues.contains ⟨branch.server, build, identity.name⟩ =
        s.issues.contains ⟨branch.server, build, identity.name⟩) : Watched cfg branch identity h s'

/-- The issues of the identity are those that some prefix of the history shows. -/
theorem Watched.contains_iff (hw : Watched cfg branch identity h s) (build : Nat) :
    s.issues.contains ⟨branch.server, build, identity.name⟩ = true ↔
      ∃ earlier later, h.runs = earlier ++ later ∧ earlier ≠ [] ∧
        ⟨branch.server, build, identity.name⟩ ∈ foundIn cfg branch identity ⟨earlier⟩ := by
  induction hw with
  | start none =>
    rw [none]
    refine ⟨fun hfalse => (by cases hfalse), ?_⟩
    rintro ⟨earlier, later, hruns, hne, -⟩
    exact absurd (List.append_eq_nil_iff.1 hruns.symm).1 hne
  | @record h h' s _ build' status recorded now ih =>
    obtain ⟨-, rfl⟩ := RunHistory.append_eq_ok_iff.1 recorded
    obtain ⟨new, s', hexec, hreg⟩ :=
      exec_checkIdentity cfg now branch identity ⟨h.runs ++ [⟨build', status⟩]⟩ s
    rw [hexec, hreg.contains, ih]
    constructor
    · rintro (⟨earlier, later, hruns, hne, hfound⟩ | hfound)
      · refine ⟨earlier, later ++ [⟨build', status⟩], ?_, hne, hfound⟩
        rw [hruns, List.append_assoc]
      · exact ⟨_, [], (List.append_nil _).symm, by simp, hfound⟩
    · rintro ⟨earlier, later, hruns, hne, hfound⟩
      have hconcat : h.runs ++ [⟨build', status⟩] = earlier ++ later := hruns
      -- the prefix is the whole history or leaves the new entry out
      rcases List.eq_nil_or_concat later with rfl | ⟨later, r, rfl⟩
      · rw [List.append_nil] at hconcat
        exact .inr (hconcat ▸ hfound)
      · rw [List.concat_eq_append, ← List.append_assoc] at hconcat
        exact .inl ⟨earlier, later, (List.append_inj' hconcat rfl).1, hne, hfound⟩
  | meanwhile _ same ih => rw [same, ih]

/-- Once a history has been recorded with a check after each entry, an issue is stored for every window
of a template that its prefix did not silence; only the template whose change must be the first entry
is left out.  Conversely, each stored issue of the identity is in the build at the change of a window or in
the newest run of a prefix, a failure, when the rate of changes reached the limit. -/
theorem Watched.stored_of_windows (hw : Watched cfg branch identity h s) :
    (∀ kind : TemplateKind, kind ≠ .newContributedTestFailure → ∀ earlier window later,
      h.runs = earlier ++ window ++ later → kind.template.Matches window →
      isSilenced cfg ⟨earlier ++ window⟩ kind = false →
      ∃ r, window[kind.template.before.length]? = some r ∧
        s.issues.contains ⟨branch.server, r.build, identity.name⟩ = true) ∧
    ∀ build, s.issues.contains ⟨branch.server, build, identity.name⟩ = true →
      (∃ (kind : TemplateKind) (earlier window later : List Run) (r : Run),
        h.runs = earlier ++ window ++ later ∧ kind.template.Matches window ∧
        window[kind.template.before.length]? = some r ∧ r.build = build) ∨
      ∃ (earlier later : List Run) (r : Run), h.runs = earlier ++ later ∧
        cfg.highFlakyRate ≤ RunHistory.flakyRate ⟨earlier⟩ ∧
        RunHistory.lastRecorded? ⟨earlier⟩ = some r ∧ r.status.isFailure = true ∧
        r.build = build := by
  constructor
  · intro kind hkind earlier window later hruns hmatches hsilenced
    have hfirst : kind.template.firstRecorded = false := by
      cases kind with
      | newContributedTestFailure => exact absurd rfl hkind
      | _ => rfl
    obtain ⟨r, hr, hd⟩ := Template.detect_of_matches hfirst earlier hmatches
    refine ⟨r, hr, (hw.contains_iff r.build).2 ⟨earlier ++ window, later, hruns, ?_, ?_⟩⟩
    · intro hnil
      rw [(List.append_eq_nil_iff.1 hnil).2] at hr
      cases hr
    · exact mem_foundIn_of_detect hd hsilenced
  · intro build hstored
    obtain ⟨earlier, later, hruns, -, hfound⟩ := (hw.contains_iff build).1 hstored
    rcases of_mem_foundIn hfound with ⟨kind, hd⟩ | ⟨hrate, r, hr, hfailed, hbuild⟩
    · obtain ⟨earlier', window, later', r, hruns', hmatches, hr, hbuild⟩ :=
        Template.exists_window_of_detect hd
      refine .inl ⟨kind, earlier', window, later' ++ later, r, ?_, hmatches, hr, hbuild⟩
      have hearlier : earlier = earlier' ++ window ++ later' := hruns'
      rw [hruns, hearlier, List.append_assoc _ later']
    · exact .inr ⟨earlier, later, r, hruns, hrate, hr, hfailed, hbuild⟩

/-! ### A test that becomes flaky -/

/-- Any history can be watched. -/
theorem exists_watched (cfg : DetectionConfig) (branch : TrackedBranch) (identity : Identity)
    (runs : List Run) (hruns : ∀ r ∈ runs, r.status ≠ .okOrFailure) :
    ∃ s, Watched cfg branch identity ⟨runs⟩ s := by
  induction runs using List.reverseRecOn with
  | nil => exact ⟨.empty, .start fun _ => rfl⟩
  | append_singleton runs r ih =>
    obtain ⟨s, hs⟩ := ih fun r' hr' => hruns r' (by simp [hr'])
    have hrecorded : RunHistory.append ⟨runs⟩ r.build r.status = .ok ⟨runs ++ [r]⟩ :=
      RunHistory.append_eq_ok_iff.2 ⟨hruns r (by simp), rfl⟩
    exact ⟨_, hs.record r.build r.status hrecorded default⟩

/-- Five good runs, four failures, five good runs and eight failures. -/
def relapse : List Run :=
  (List.range 22).map fun n =>
    ⟨100 + n, if n < 5 ∨ (9 ≤ n ∧ n < 14) then .ok else .failure⟩

/-- Three changes of status make a test flaky. -/
def threeChanges : DetectionConfig := { DetectionConfig.default with flakyBorder := 3 }

/-- The first change is reported as a new failure, long before the test is flaky, and the last one, which
is no new failure any more, as one of a flaky test. -/
theorem Watched.stored_of_windows_relapse :
    ∃ s, Watched threeChanges ⟨"apache", "master"⟩ ⟨"t1", some "S"⟩ ⟨relapse⟩ s ∧
      isSilenced threeChanges ⟨relapse.take 9⟩ .newFailure = false ∧
      isSilenced threeChanges ⟨relapse.take 18⟩ .newFailure = true ∧
      isSilenced threeChanges ⟨relapse⟩ .newFailureForFlakyTest = false ∧
      s.issues.contains ⟨"apache", 105, "t1"⟩ = true ∧
      s.issues.contains ⟨"apache", 114, "t1"⟩ = true := by
  obtain ⟨s, hw⟩ := exists_watched threeChanges ⟨"apache", "master"⟩ ⟨"t1", some "S"⟩ relapse
    (by decide)
  obtain ⟨hfound, -⟩ := Watched.stored_of_windows hw
  have hearly : isSilenced threeChanges ⟨relapse.take 9⟩ .newFailure = false := by decide
  have hlate : isSilenced threeChanges ⟨relapse⟩ .newFailureForFlakyTest = false := by decide
  refine ⟨s, hw, hearly, by decide, hlate, ?_, ?_⟩
  · obtain ⟨r, hr, hstored⟩ := hfound .newFailure (by decide) [] (relapse.take 9) (relapse.drop 9)
      (by decide) (by unfold Template.Matches; decide) hearly
    cases hr
    exact hstored
  · obtain ⟨r, hr, hstored⟩ := hfound .newFailureForFlakyTest (by decide) (relapse.take 9)
      (relapse.drop 9) [] (by decide) (by unfold Template.Matches; decide) hlate
    cases hr
    exact hstored

end Triage.Detection
