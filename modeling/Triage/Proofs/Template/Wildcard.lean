import Triage.Proofs.Template.Search

/-!
# Wildcards stand for all their instances

An instance of a template has `ok` or `failure` in the place of each wildcard (`Template.instances`).
A template fits where one of its instances does (`fitsAt_iff_exists_instance`), so its newest window is
the newest window of all instances, and what it detects is what any instance that fits there detects
(`detect_instances`).
-/

namespace Triage

/-- What may stand in the place of a status: for a wildcard each of the two outcomes that it admits. -/
def RunStatus.choices : RunStatus → List RunStatus
  | .okOrFailure => [.ok, .failure]
  | s => [s]

namespace Template

variable {t t' : Template} {runs : List Run} {start : Nat}

/-- The lists that choose for each wildcard on its own. -/
def choicesOf (statuses : List RunStatus) : List (List RunStatus) :=
  (statuses.map RunStatus.choices).sections

/-- The templates that have an outcome in the place of each wildcard. -/
def instances (t : Template) : List Template :=
  (choicesOf t.before).flatMap fun before => (choicesOf t.after).filterMap fun after =>
    (make before after t.includeMissing t.firstRecorded).toOption

/-! ### Choices -/

theorem mem_choicesOf {chosen statuses : List RunStatus} :
    chosen ∈ choicesOf statuses ↔ List.Forall₂ (fun c s => c ∈ s.choices) chosen statuses := by
  unfold choicesOf
  rw [List.mem_sections, List.forall₂_map_right_iff]

theorem length_choicesOf (statuses : List RunStatus) :
    (choicesOf statuses).length = 2 ^ statuses.count .okOrFailure := by
  unfold choicesOf
  induction statuses with
  | nil => rfl
  | cons s statuses ih =>
    have hconst : ((statuses.map RunStatus.choices).sections.map fun chosen =>
        (s.choices.map fun c => c :: chosen).length) =
        (statuses.map RunStatus.choices).sections.map fun _ => s.choices.length :=
      List.map_congr_left fun _ _ => List.length_map _
    rw [List.map_cons, List.sections, List.length_flatMap, hconst, List.map_const',
      List.sum_replicate, ih, List.count_cons]
    cases s <;> simp [RunStatus.choices, pow_succ]

theorem mem_choicesOf_append {chosen earlier later : List RunStatus} :
    chosen ∈ choicesOf (earlier ++ later) ↔
      ∃ c ∈ choicesOf earlier, ∃ c' ∈ choicesOf later, chosen = c ++ c' := by
  simp only [mem_choicesOf]
  constructor
  · intro h
    exact ⟨_, List.forall₂_take_append _ _ _ h, _, List.forall₂_drop_append _ _ _ h,
      (List.take_append_drop _ _).symm⟩
  · rintro ⟨c, hc, c', hc', rfl⟩
    exact List.rel_append hc hc'

/-- The choice for a status that is not a wildcard is the status. -/
theorem eq_missing_of_mem_choices {s : RunStatus} (h : RunStatus.missing ∈ s.choices) :
    s = .missing := by
  cases s <;> simp_all [RunStatus.choices]

theorem missing_mem_of_choices {chosen statuses : List RunStatus} (h : chosen ∈ choicesOf statuses)
    (hmissing : RunStatus.missing ∈ chosen) : RunStatus.missing ∈ statuses := by
  rw [mem_choicesOf] at h
  induction h with
  | nil => cases hmissing
  | cons hc _ ih =>
    rcases List.mem_cons.1 hmissing with rfl | hmissing
    · rw [eq_missing_of_mem_choices hc]
      exact List.mem_cons_self
    · exact List.mem_cons_of_mem _ (ih hmissing)

/-- A recorded status is admitted where one of the choices admits it. -/
theorem admits_iff_exists_choice {includeMissing : Bool} {expected actual : RunStatus} :
    Admits includeMissing expected actual ↔
      ∃ c ∈ expected.choices, Admits includeMissing c actual := by
  cases expected <;> simp [RunStatus.choices, Admits]

theorem matches_iff_exists_choice {includeMissing : Bool} {pattern : List RunStatus}
    {window : List Run} :
    List.Forall₂ (fun expected r => statusMatches expected r.status includeMissing = true)
        pattern window ↔
      ∃ chosen ∈ choicesOf pattern,
        List.Forall₂ (fun expected r => statusMatches expected r.status includeMissing = true)
          chosen window := by
  simp only [mem_choicesOf, statusMatches_iff]
  constructor
  · intro h
    induction h with
    | nil => exact ⟨[], .nil, .nil⟩
    | cons hr _ ih =>
      obtain ⟨c, hc, hcr⟩ := admits_iff_exists_choice.1 hr
      obtain ⟨chosen, hchosen, hwindow⟩ := ih
      exact ⟨c :: chosen, .cons hc hchosen, .cons hcr hwindow⟩
  · rintro ⟨chosen, hchosen, hwindow⟩
    induction hchosen generalizing window with
    | nil =>
      cases hwindow
      exact .nil
    | cons hc _ ih =>
      cases hwindow with
      | cons hcr hwindow =>
        exact .cons (admits_iff_exists_choice.2 ⟨_, hc, hcr⟩) (ih hwindow)

/-! ### Instances -/

theorem mem_instances :
    t' ∈ t.instances ↔ t'.before ∈ choicesOf t.before ∧ t'.after ∈ choicesOf t.after ∧
      t'.includeMissing = t.includeMissing ∧ t'.firstRecorded = t.firstRecorded := by
  unfold instances
  simp only [List.mem_flatMap, List.mem_filterMap]
  have hmake : ∀ before after,
      (make before after t.includeMissing t.firstRecorded).toOption = some t' ↔
        make before after t.includeMissing t.firstRecorded = .ok t' := by
    intro before after
    cases make before after t.includeMissing t.firstRecorded <;> simp [Except.toOption]
  simp only [hmake, make_eq_ok_iff]
  constructor
  · rintro ⟨before, hbefore, after, hafter, rfl, rfl, hinclude, hfirst⟩
    exact ⟨hbefore, hafter, hinclude.symm, hfirst.symm⟩
  · rintro ⟨hbefore, hafter, hinclude, hfirst⟩
    exact ⟨_, hbefore, _, hafter, rfl, rfl, hinclude.symm, hfirst.symm⟩

/-- Whatever is chosen for the wildcards makes a template. -/
theorem make_of_choices {before after : List RunStatus} (hbefore : before ∈ choicesOf t.before)
    (hafter : after ∈ choicesOf t.after) :
    ∃ t', make before after t.includeMissing t.firstRecorded = .ok t' := by
  have hchange : after ≠ [] := by
    rintro rfl
    cases hempty : t.after with
    | nil => exact t.hasChange hempty
    | cons s statuses =>
      rw [hempty, mem_choicesOf] at hafter
      cases hafter
  have hdeclared : ¬ (RunStatus.missing ∈ before ++ after ∧ t.includeMissing = false) := by
    rintro ⟨hmissing, hnot⟩
    have hpattern : before ++ after ∈ choicesOf (t.before ++ t.after) :=
      mem_choicesOf_append.2 ⟨_, hbefore, _, hafter, rfl⟩
    rw [t.missingDeclared (missing_mem_of_choices hpattern hmissing)] at hnot
    cases hnot
  unfold make
  rw [dif_neg hchange, dif_neg hdeclared]
  exact ⟨_, rfl⟩

/-- Each wildcard doubles the number of instances. -/
theorem length_instances (t : Template) :
    t.instances.length = 2 ^ t.pattern.count .okOrFailure := by
  have hall : ∀ before ∈ choicesOf t.before,
      ((choicesOf t.after).filterMap fun after =>
        (make before after t.includeMissing t.firstRecorded).toOption).length =
      (choicesOf t.after).length := by
    intro before hbefore
    refine List.filterMap_length_eq_length.2 fun after hafter => ?_
    obtain ⟨t', hmake⟩ := make_of_choices hbefore hafter
    rw [hmake]
    rfl
  unfold instances pattern
  rw [List.length_flatMap, List.map_congr_left hall, List.map_const', List.sum_replicate,
    length_choicesOf, length_choicesOf, List.count_append, pow_add, smul_eq_mul]

theorem exists_instance_iff {chosen : List RunStatus} :
    chosen ∈ choicesOf t.pattern ↔ ∃ t' ∈ t.instances, t'.pattern = chosen := by
  unfold pattern
  rw [mem_choicesOf_append]
  constructor
  · rintro ⟨before, hbefore, after, hafter, rfl⟩
    obtain ⟨t', hmake⟩ := make_of_choices hbefore hafter
    obtain ⟨rfl, rfl, hinclude, hfirst⟩ := make_eq_ok_iff.1 hmake
    exact ⟨t', mem_instances.2 ⟨hbefore, hafter, hinclude.symm, hfirst.symm⟩, rfl⟩
  · rintro ⟨t', hmem, rfl⟩
    obtain ⟨hbefore, hafter, -⟩ := mem_instances.1 hmem
    exact ⟨_, hbefore, _, hafter, rfl⟩

theorem length_before_of_instance (h : t' ∈ t.instances) : t'.before.length = t.before.length :=
  (mem_choicesOf.1 (mem_instances.1 h).1).length_eq

theorem length_pattern_of_instance (h : t' ∈ t.instances) : t'.pattern.length = t.pattern.length :=
  (mem_choicesOf.1 (exists_instance_iff.2 ⟨t', h, rfl⟩)).length_eq

/-- A template has a window wherever one of its instances has one. -/
theorem fitsAt_iff_exists_instance :
    t.FitsAt runs start ↔ ∃ t' ∈ t.instances, t'.FitsAt runs start := by
  have hwindow : ∀ t' ∈ t.instances, t'.FitsAt runs start ↔
      start + t.pattern.length ≤ runs.length ∧
        List.Forall₂ (fun expected r => statusMatches expected r.status t.includeMissing = true)
          t'.pattern (t.windowAt runs start) := by
    intro t' h
    rw [fitsAt_iff_matches, Matches, windowAt, windowAt, length_pattern_of_instance h,
      (mem_instances.1 h).2.2.1]
  rw [fitsAt_iff_matches, Matches, matches_iff_exists_choice]
  constructor
  · rintro ⟨hroom, chosen, hchosen, hmatches⟩
    obtain ⟨t', hmem, rfl⟩ := exists_instance_iff.1 hchosen
    exact ⟨t', hmem, (hwindow t' hmem).2 ⟨hroom, hmatches⟩⟩
  · rintro ⟨t', hmem, hfits⟩
    obtain ⟨hroom, hmatches⟩ := (hwindow t' hmem).1 hfits
    exact ⟨hroom, _, exists_instance_iff.2 ⟨t', hmem, rfl⟩, hmatches⟩

/-! ### Detection -/

/-- A template without a condition on its first run has one instance for each choice of outcomes, and has
a window wherever one of them has.  Its newest window is the newest one of all its instances, and it
detects what every instance with this window detects.  Where no instance matches, nothing is detected. -/
theorem detect_instances (t : Template) (hfirst : t.firstRecorded = false) (h : RunHistory) :
    t.instances.length = 2 ^ t.pattern.count .okOrFailure ∧
      (∀ s, t.FitsAt h.runs s ↔ ∃ t' ∈ t.instances, t'.FitsAt h.runs s) ∧
      ((t.detect h = none ∧ ∀ t' ∈ t.instances, (∀ s, ¬ t'.FitsAt h.runs s) ∧ t'.detect h = none) ∨
        ∃ s r, IsGreatest {s | t.FitsAt h.runs s} s ∧
          IsGreatest {s | ∃ t' ∈ t.instances, t'.FitsAt h.runs s} s ∧
          h.runs[s + t.before.length]? = some r ∧ t.detect h = some r.build ∧
          ∀ t' ∈ t.instances, t'.FitsAt h.runs s → t'.detect h = some r.build) := by
  refine ⟨t.length_instances, fun s => fitsAt_iff_exists_instance, ?_⟩
  have hsame : {s | t.FitsAt h.runs s} = {s | ∃ t' ∈ t.instances, t'.FitsAt h.runs s} :=
    Set.ext fun s => fitsAt_iff_exists_instance
  by_cases hfits : ∃ s, t.FitsAt h.runs s
  · obtain ⟨s₀, hs₀⟩ := hfits
    obtain ⟨s, hs⟩ := hs₀.exists_isGreatest
    obtain ⟨r, hr⟩ := FitsAt.exists_change hs.1
    refine .inr ⟨s, r, hs, hsame ▸ hs, hr, ?_, fun t' hmem hfits' => ?_⟩
    · rw [detect_of_isGreatest hs hr, verdict_of_startsWith (.inl hfirst)]
    · -- the windows of an instance are among those of the template
      have hs' : IsGreatest {s | t'.FitsAt h.runs s} s :=
        ⟨hfits', fun k hk => hs.2 (fitsAt_iff_exists_instance.2 ⟨t', hmem, hk⟩)⟩
      have hr' : h.runs[s + t'.before.length]? = some r := by
        rw [length_before_of_instance hmem, hr]
      have hfirst' : t'.firstRecorded = false := (mem_instances.1 hmem).2.2.2.trans hfirst
      rw [detect_of_isGreatest hs' hr', verdict_of_startsWith (.inl hfirst')]
  · rw [not_exists] at hfits
    refine .inl ⟨detect_of_not_fitsAt hfits, fun t' hmem => ?_⟩
    have hnone : ∀ s, ¬ t'.FitsAt h.runs s := fun s hs =>
      hfits s (fitsAt_iff_exists_instance.2 ⟨t', hmem, hs⟩)
    exact ⟨hnone, detect_of_not_fitsAt hnone⟩

/-- A crash between two runs that are no crash. -/
def lonelyCrash : Template :=
  ⟨[.okOrFailure], [.criticalFailure, .okOrFailure], false, false, by decide, by decide⟩

/-- Two lonely crashes, and a third one right after a missing run. -/
def crashes : RunHistory :=
  ⟨[⟨1, .ok⟩, ⟨2, .criticalFailure⟩, ⟨3, .failure⟩, ⟨4, .criticalFailure⟩, ⟨5, .ok⟩, ⟨6, .missing⟩,
    ⟨7, .criticalFailure⟩, ⟨8, .ok⟩]⟩

/-- Of the four instances one finds the first crash and another one the second, which is the newest. -/
theorem detect_instances_crashes :
    lonelyCrash.firstRecorded = false ∧ lonelyCrash.instances.length = 4 ∧
      lonelyCrash.instances.map (·.detect crashes) = [none, some 2, some 4, none] ∧
      lonelyCrash.detect crashes = some 4 ∧
      ∃ s, IsGreatest {s | ∃ t' ∈ lonelyCrash.instances, t'.FitsAt crashes.runs s} s ∧
        ∀ t' ∈ lonelyCrash.instances, t'.FitsAt crashes.runs s → t'.detect crashes = some 4 := by
  have hdetect : lonelyCrash.detect crashes = some 4 := by decide
  obtain ⟨hlength, -, ⟨hnone, -⟩ | ⟨s, r, -, hs, -, hr, hall⟩⟩ :=
    detect_instances lonelyCrash rfl crashes
  · cases hdetect.symm.trans hnone
  · rw [hdetect] at hr
    rw [← hr] at hall
    exact ⟨rfl, hlength, by decide +kernel, hdetect, s, hs, hall⟩

end Template

end Triage
