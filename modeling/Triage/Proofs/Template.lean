import Mathlib
import Triage.Template

/-!
# What a template finds in a history

A window is a stretch of a history that matches a template entry by entry (`Template.Matches`).  The
newest match begins with the last window (`newestMatch_eq_some_iff`), so what `detect` gives is the
build at the change of a window (`exists_window_of_detect`), and a window at the newest end of a
history is always the one that is found (`detect_of_matches`).
-/

namespace Triage.Template

variable {t : Template} {runs window w : List Run}

/-- The window has one entry for each status of the template, and each entry matches its status. -/
def Matches (t : Template) (window : List Run) : Prop :=
  List.Forall₂ (fun expected r => statusMatches expected r.status t.includeMissing = true)
    t.pattern window

/-- A window begins at the first of the runs. -/
def Begins (t : Template) (runs : List Run) : Prop :=
  matchesPrefix t.includeMissing t.pattern runs = true

theorem length_pattern (t : Template) : t.pattern.length = t.before.length + t.after.length :=
  List.length_append

theorem length_before_lt (t : Template) : t.before.length < t.pattern.length := by
  have hafter := List.length_pos_iff.2 t.hasChange
  rw [length_pattern]
  omega

theorem Matches.length_eq (h : t.Matches window) : window.length = t.pattern.length :=
  (List.Forall₂.length_eq h).symm

/-- A window has an entry at the change. -/
theorem Matches.exists_change (h : t.Matches window) : ∃ r, window[t.before.length]? = some r := by
  have hlt : t.before.length < window.length := h.length_eq ▸ t.length_before_lt
  exact ⟨_, List.getElem?_eq_getElem hlt⟩

theorem matchesPrefix_iff {includeMissing : Bool} {pattern : List RunStatus} {runs : List Run} :
    matchesPrefix includeMissing pattern runs = true ↔ ∃ window later, runs = window ++ later ∧
      List.Forall₂ (fun expected r => statusMatches expected r.status includeMissing = true)
        pattern window := by
  induction pattern generalizing runs with
  | nil => exact ⟨fun _ => ⟨[], runs, rfl, .nil⟩, fun _ => by simp [matchesPrefix]⟩
  | cons expected pattern ih =>
    cases runs with
    | nil =>
      refine ⟨fun h => by simp [matchesPrefix] at h, ?_⟩
      rintro ⟨window, later, hruns, hmatches⟩
      cases hmatches
      cases hruns
    | cons r runs =>
      rw [matchesPrefix, Bool.and_eq_true, ih]
      constructor
      · rintro ⟨hr, window, later, rfl, hmatches⟩
        exact ⟨r :: window, later, rfl, .cons hr hmatches⟩
      · rintro ⟨window, later, hruns, hmatches⟩
        cases hmatches with
        | cons hr hmatches =>
          cases hruns
          exact ⟨hr, _, later, rfl, hmatches⟩

theorem begins_iff : t.Begins runs ↔ ∃ window later, runs = window ++ later ∧ t.Matches window :=
  matchesPrefix_iff

theorem Begins.length_le (h : t.Begins runs) : t.pattern.length ≤ runs.length := by
  obtain ⟨window, later, rfl, hmatches⟩ := begins_iff.1 h
  rw [List.length_append, hmatches.length_eq]
  omega

theorem not_begins_nil (t : Template) : ¬ t.Begins [] := by
  intro h
  have hle := h.length_le
  have hlt := t.length_before_lt
  simp only [List.length_nil] at hle
  omega

/-! ### The newest window -/

/-- Where a window begins, some match is found. -/
theorem exists_newestMatch (hsuffix : w <:+ runs) (hbegins : t.Begins w) :
    ∃ v, t.newestMatch runs = some v := by
  induction runs with
  | nil =>
    rw [List.suffix_nil.1 hsuffix] at hbegins
    exact absurd hbegins t.not_begins_nil
  | cons r rs ih =>
    unfold newestMatch
    cases hrest : t.newestMatch rs with
    | some v => exact ⟨v, rfl⟩
    | none =>
      rcases List.suffix_cons_iff.1 hsuffix with rfl | hsuffix
      · exact ⟨r :: rs, if_pos hbegins⟩
      · obtain ⟨v, hv⟩ := ih hsuffix
        rw [hv] at hrest
        cases hrest

/-- The newest match is a rest of the runs that begins with a window, and no longer than any other. -/
theorem newestMatch_spec (h : t.newestMatch runs = some w) :
    w <:+ runs ∧ t.Begins w ∧ ∀ v, v <:+ runs → t.Begins v → w.length ≤ v.length := by
  induction runs with
  | nil => cases h
  | cons r rs ih =>
    unfold newestMatch at h
    cases hrest : t.newestMatch rs with
    | some v =>
      rw [hrest] at h
      cases h
      obtain ⟨hsuffix, hbegins, hshortest⟩ := ih hrest
      refine ⟨hsuffix.trans (List.suffix_cons r rs), hbegins, fun v hv hvbegins => ?_⟩
      rcases List.suffix_cons_iff.1 hv with rfl | hv
      · exact hsuffix.length_le.trans (Nat.le_succ _)
      · exact hshortest v hv hvbegins
    | none =>
      rw [hrest] at h
      simp only at h
      split at h
      · rename_i hbegins
        cases h
        refine ⟨List.suffix_rfl, hbegins, fun v hv hvbegins => ?_⟩
        rcases List.suffix_cons_iff.1 hv with rfl | hv
        · exact le_rfl
        · -- a shorter rest that begins with a window would have been found
          obtain ⟨u, hu⟩ := exists_newestMatch hv hvbegins
          rw [hu] at hrest
          cases hrest
      · cases h

/-- The newest match is the shortest rest of the runs that begins with a window. -/
theorem newestMatch_eq_some_iff : t.newestMatch runs = some w ↔
    w <:+ runs ∧ t.Begins w ∧ ∀ v, v <:+ runs → t.Begins v → w.length ≤ v.length := by
  refine ⟨newestMatch_spec, fun ⟨hsuffix, hbegins, hshortest⟩ => ?_⟩
  obtain ⟨v, hv⟩ := exists_newestMatch hsuffix hbegins
  obtain ⟨hvsuffix, hvbegins, hvshortest⟩ := newestMatch_spec hv
  have hlength : v.length = w.length :=
    le_antisymm (hvshortest w hsuffix hbegins) (hshortest v hvsuffix hvbegins)
  have hprefix := List.suffix_of_suffix_length_le hvsuffix hsuffix hlength.le
  rw [hv, hprefix.eq_of_length hlength]

/-- A window at the newest end is the newest match. -/
theorem newestMatch_of_matches (earlier : List Run) (h : t.Matches window) :
    t.newestMatch (earlier ++ window) = some window := by
  refine newestMatch_eq_some_iff.2 ⟨List.suffix_append _ _, ?_, fun v _ hv => ?_⟩
  · exact begins_iff.2 ⟨window, [], (List.append_nil _).symm, h⟩
  · rw [h.length_eq]
    exact hv.length_le

/-! ### Detection -/

/-- What is found is the build at the change of a window. -/
theorem exists_window_of_detect {h : RunHistory} {build : Nat} (hd : t.detect h = some build) :
    ∃ earlier window later r, h.runs = earlier ++ window ++ later ∧ t.Matches window ∧
      window[t.before.length]? = some r ∧ r.build = build := by
  unfold detect at hd
  cases hn : t.newestMatch h.runs with
  | none =>
    rw [hn] at hd
    cases hd
  | some w =>
    obtain ⟨⟨earlier, hruns⟩, hbegins, -⟩ := newestMatch_spec hn
    obtain ⟨window, later, rfl, hmatches⟩ := begins_iff.1 hbegins
    obtain ⟨r, hr⟩ := hmatches.exists_change
    have hlt : t.before.length < window.length := hmatches.length_eq ▸ t.length_before_lt
    have hchange : (window ++ later)[t.before.length]? = some r := by
      rw [List.getElem?_append_left hlt, hr]
    rw [hn, Option.bind_some, hchange] at hd
    simp only at hd
    split at hd
    · cases hd
    · exact ⟨earlier, window, later, r, by rw [← hruns, List.append_assoc], hmatches, hr,
        Option.some.inj hd⟩

/-- A window at the newest end of a history is found, unless its change would have to be the first
entry that the history records. -/
theorem detect_of_matches (hfirst : t.firstRecorded = false) (earlier : List Run)
    (h : t.Matches window) : ∃ r, window[t.before.length]? = some r ∧
      t.detect ⟨earlier ++ window⟩ = some r.build := by
  obtain ⟨r, hr⟩ := h.exists_change
  refine ⟨r, hr, ?_⟩
  unfold detect
  simp only [newestMatch_of_matches earlier h, Option.bind_some, hr, hfirst, Bool.false_and,
    Bool.false_eq_true, if_false]

end Triage.Template
