import Triage.Proofs.Template

/-!
# Which window a template finds

`FitsAt` says by index where a stretch of a history matches a template.  `detectIndexed` looks for the
greatest such start index in the way of an array program: it goes down from the last index at which
the template has room, cuts each window out and reads the entry at the change, and any of these
accesses fails when it leaves the list.  None does, and what is found is the build at the change of the
newest window (`detect_newest`).  To a template that does not mention missing runs it makes no
difference whether they are declared (`detect_includeMissing`).
-/

namespace Triage

/-- The first run that the history records, the missing ones left out, is of this build. -/
def RunHistory.StartsWith (h : RunHistory) (build : Nat) : Prop :=
  ∃ earlier r later, h.runs = earlier ++ r :: later ∧ (∀ r' ∈ earlier, r'.status = .missing) ∧
    r.status ≠ .missing ∧ r.build = build

theorem RunHistory.firstRecorded?_eq_some_iff {h : RunHistory} {r : Run} :
    h.firstRecorded? = some r ↔ ∃ earlier later, h.runs = earlier ++ r :: later ∧
      (∀ r' ∈ earlier, r'.status = .missing) ∧ r.status ≠ .missing := by
  unfold firstRecorded? recorded
  rw [List.head?_filter, List.find?_eq_some_iff_append]
  simp only [decide_eq_true_eq, decide_not, Bool.not_not]
  constructor
  · rintro ⟨hr, earlier, later, hruns, hmissing⟩
    exact ⟨earlier, later, hruns, hmissing, by simpa using hr⟩
  · rintro ⟨earlier, later, hruns, hmissing, hr⟩
    exact ⟨by simpa using hr, earlier, later, hruns, hmissing⟩

theorem RunHistory.startsWith_iff {h : RunHistory} {build : Nat} :
    h.StartsWith build ↔ h.firstRecorded?.map (·.build) = some build := by
  rw [Option.map_eq_some_iff]
  constructor
  · rintro ⟨earlier, r, later, hruns, hmissing, hr, hbuild⟩
    exact ⟨r, firstRecorded?_eq_some_iff.2 ⟨earlier, later, hruns, hmissing, hr⟩, hbuild⟩
  · rintro ⟨r, hfirst, hbuild⟩
    obtain ⟨earlier, later, hruns, hmissing, hr⟩ := firstRecorded?_eq_some_iff.1 hfirst
    exact ⟨earlier, r, later, hruns, hmissing, hr, hbuild⟩

namespace Template

variable {t : Template} {runs window : List Run} {start s : Nat}

/-- The accepted lists and flags are those of a template, and those of every template are accepted. -/
theorem make_eq_ok_iff {before after : List RunStatus} {includeMissing firstRecorded : Bool} :
    make before after includeMissing firstRecorded = .ok t ↔
      before = t.before ∧ after = t.after ∧ includeMissing = t.includeMissing ∧
        firstRecorded = t.firstRecorded := by
  unfold make
  constructor
  · intro h
    split at h
    · cases h
    · split at h
      · cases h
      · cases h
        exact ⟨rfl, rfl, rfl, rfl⟩
  · rintro ⟨rfl, rfl, rfl, rfl⟩
    have hdeclared : ¬ (RunStatus.missing ∈ t.before ++ t.after ∧ t.includeMissing = false) := by
      rintro ⟨hmissing, hnot⟩
      rw [t.missingDeclared hmissing] at hnot
      cases hnot
    rw [dif_neg t.hasChange, dif_neg hdeclared]

/-! ### Windows by index -/

/-- Whether a status of a template stands for a recorded one. -/
def Admits (includeMissing : Bool) : RunStatus → RunStatus → Prop
  | .okOrFailure, actual => actual = .ok ∨ actual = .failure
  | .missing, actual => actual = .missing ∧ includeMissing = true
  | expected, actual => actual = expected

/-- The template has room from the index on, and each of its statuses stands for the entry there. -/
def FitsAt (t : Template) (runs : List Run) (start : Nat) : Prop :=
  start + t.pattern.length ≤ runs.length ∧
    ∀ i expected, t.pattern[i]? = some expected →
      ∃ r, runs[start + i]? = some r ∧ Admits t.includeMissing expected r.status

/-- The window that begins at the index. -/
def windowAt (t : Template) (runs : List Run) (start : Nat) : List Run :=
  (runs.drop start).take t.pattern.length

theorem statusMatches_iff {expected actual : RunStatus} {includeMissing : Bool} :
    statusMatches expected actual includeMissing = true ↔
      Admits includeMissing expected actual := by
  cases expected <;> cases actual <;> cases includeMissing <;> simp [statusMatches, Admits]

theorem length_windowAt (h : start + t.pattern.length ≤ runs.length) :
    (t.windowAt runs start).length = t.pattern.length := by
  unfold windowAt
  rw [List.length_take, List.length_drop]
  omega

theorem getElem?_windowAt {i : Nat} (hi : i < t.pattern.length) :
    (t.windowAt runs start)[i]? = runs[start + i]? := by
  unfold windowAt
  rw [List.getElem?_take_of_lt hi, List.getElem?_drop]

theorem fitsAt_iff_matches :
    t.FitsAt runs start ↔
      start + t.pattern.length ≤ runs.length ∧ t.Matches (t.windowAt runs start) := by
  refine and_congr_right fun hroom => ?_
  unfold Matches
  rw [List.forall₂_iff_get]
  constructor
  · refine fun hfits => ⟨(length_windowAt hroom).symm, fun i hi hwindow => ?_⟩
    obtain ⟨r, hr, hadmits⟩ := hfits i _ (List.getElem?_eq_getElem hi)
    rw [← getElem?_windowAt hi, List.getElem?_eq_some_iff] at hr
    obtain ⟨_, hr⟩ := hr
    rw [List.get_eq_getElem, List.get_eq_getElem, hr]
    exact statusMatches_iff.2 hadmits
  · rintro ⟨-, hmatches⟩ i expected hexpected
    obtain ⟨hi, rfl⟩ := List.getElem?_eq_some_iff.1 hexpected
    have hwindow : i < (t.windowAt runs start).length := (length_windowAt hroom).symm ▸ hi
    refine ⟨(t.windowAt runs start)[i], ?_, statusMatches_iff.1 (hmatches i hi hwindow)⟩
    rw [← getElem?_windowAt hi, List.getElem?_eq_getElem hwindow]

theorem fitsAt_iff_begins : t.FitsAt runs start ↔ t.Begins (runs.drop start) := by
  rw [fitsAt_iff_matches, begins_iff]
  constructor
  · rintro ⟨-, hmatches⟩
    exact ⟨_, _, (List.take_append_drop t.pattern.length (runs.drop start)).symm, hmatches⟩
  · rintro ⟨window, later, hruns, hmatches⟩
    have hwindow : t.windowAt runs start = window := by
      unfold windowAt
      rw [hruns, ← hmatches.length_eq, List.take_left]
    have hlength := congrArg List.length hruns
    rw [List.length_drop, List.length_append, hmatches.length_eq] at hlength
    have hpattern := t.length_before_lt
    exact ⟨by omega, hwindow ▸ hmatches⟩

/-- A window has an entry at the change. -/
theorem FitsAt.exists_change (h : t.FitsAt runs start) :
    ∃ r, runs[start + t.before.length]? = some r := by
  obtain ⟨r, hr, -⟩ := h.2 _ _ (List.getElem?_eq_getElem t.length_before_lt)
  exact ⟨r, hr⟩

theorem FitsAt.le (h : t.FitsAt runs start) : start ≤ runs.length - t.pattern.length :=
  Nat.le_sub_of_add_le h.1

/-- If there is a window at all, there is a newest one. -/
theorem FitsAt.exists_isGreatest (h : t.FitsAt runs start) :
    ∃ s, IsGreatest {s | t.FitsAt runs s} s := by
  have hbound : BddAbove {s | t.FitsAt runs s} := ⟨_, fun _ hs => FitsAt.le hs⟩
  exact ⟨_, Nat.sSup_mem ⟨start, h⟩ hbound, fun _ hs => le_csSup hbound hs⟩

/-! ### The newest window -/

theorem newestMatch_of_isGreatest (hs : IsGreatest {s | t.FitsAt runs s} s) :
    t.newestMatch runs = some (runs.drop s) := by
  refine newestMatch_eq_some_iff.2 ⟨List.drop_suffix s runs, fitsAt_iff_begins.1 hs.1, ?_⟩
  intro w hw hbegins
  rw [List.suffix_iff_eq_drop.1 hw] at hbegins ⊢
  have hle := hs.2 (fitsAt_iff_begins.2 hbegins)
  rw [List.length_drop, List.length_drop]
  omega

theorem newestMatch_of_not_fitsAt (h : ∀ s, ¬ t.FitsAt runs s) : t.newestMatch runs = none := by
  refine Option.eq_none_iff_forall_ne_some.2 fun w hw => ?_
  obtain ⟨hsuffix, hbegins, -⟩ := newestMatch_spec hw
  rw [List.suffix_iff_eq_drop.1 hsuffix] at hbegins
  exact h _ (fitsAt_iff_begins.2 hbegins)

/-- What a template makes of the entry at the change of its newest window. -/
def verdict (t : Template) (h : RunHistory) (r : Run) : Option Nat :=
  if t.firstRecorded && h.firstRecorded?.map (·.build) ≠ some r.build then none else some r.build

theorem verdict_of_startsWith {h : RunHistory} {r : Run}
    (hr : t.firstRecorded = false ∨ h.StartsWith r.build) : t.verdict h r = some r.build := by
  unfold verdict
  rcases hr with hfirst | hstarts
  · simp [hfirst]
  · simp [RunHistory.startsWith_iff.1 hstarts]

theorem verdict_of_not_startsWith {h : RunHistory} {r : Run} (hfirst : t.firstRecorded = true)
    (hr : ¬ h.StartsWith r.build) : t.verdict h r = none := by
  rw [RunHistory.startsWith_iff] at hr
  unfold verdict
  simp [hfirst, hr]

theorem detect_of_isGreatest {h : RunHistory} {r : Run}
    (hs : IsGreatest {s | t.FitsAt h.runs s} s) (hr : h.runs[s + t.before.length]? = some r) :
    t.detect h = t.verdict h r := by
  unfold detect verdict
  rw [newestMatch_of_isGreatest hs, Option.bind_some, List.getElem?_drop, hr]

theorem detect_of_not_fitsAt {h : RunHistory} (hnone : ∀ s, ¬ t.FitsAt h.runs s) :
    t.detect h = none := by
  unfold detect
  rw [newestMatch_of_not_fitsAt hnone]
  rfl

/-! ### The search by index -/

/-- An access that leaves a list. -/
inductive OutOfRange where
  | slice (start stop : Nat)
  | entry (index : Nat)

def slice (runs : List Run) (start stop : Nat) : Except OutOfRange (List Run) :=
  if start ≤ stop ∧ stop ≤ runs.length then .ok ((runs.drop start).take (stop - start))
  else .error (.slice start stop)

def entry (runs : List Run) (index : Nat) : Except OutOfRange Run :=
  match runs[index]? with
  | some r => .ok r
  | none => .error (.entry index)

/-- The entry at the change of the window that begins at the index, if that window matches. -/
def tryAt (t : Template) (runs : List Run) (start : Nat) : Except OutOfRange (Option Run) := do
  let window ← slice runs start (start + t.pattern.length)
  if (window.zip t.pattern).all fun (r, expected) =>
      statusMatches expected r.status t.includeMissing then
    return some (← entry window t.before.length)
  return none

/-- Tries one window after the other, from the one that begins at the index down to the first. -/
def searchDown (t : Template) (runs : List Run) : Nat → Except OutOfRange (Option Run)
  | 0 => t.tryAt runs 0
  | start + 1 => do
    match ← t.tryAt runs (start + 1) with
    | some r => return some r
    | none => t.searchDown runs start

def detectIndexed (t : Template) (h : RunHistory) : Except OutOfRange (Option Nat) := do
  if t.pattern.length = 0 ∨ h.length < t.pattern.length then return none
  match ← t.searchDown h.runs (h.length - t.pattern.length) with
  | some r => return t.verdict h r
  | none => return none

theorem slice_windowAt (hroom : start + t.pattern.length ≤ runs.length) :
    slice runs start (start + t.pattern.length) = .ok (t.windowAt runs start) := by
  unfold slice windowAt
  rw [if_pos ⟨Nat.le_add_right _ _, hroom⟩, Nat.add_sub_cancel_left]

theorem all_zip_iff (hlength : window.length = t.pattern.length) :
    ((window.zip t.pattern).all fun (r, expected) =>
      statusMatches expected r.status t.includeMissing) = true ↔ t.Matches window := by
  rw [List.all_eq_true]
  constructor
  · exact fun hall => .flip (List.forall₂_iff_zip.2 ⟨hlength, fun hmem => hall _ hmem⟩)
  · rintro hmatches ⟨r, expected⟩ hmem
    exact (List.forall₂_iff_zip.1 hmatches.flip).2 hmem

/-- Where the template has room, no access leaves the list, and the entry that is found is the one at
the change. -/
theorem tryAt_spec (hroom : start + t.pattern.length ≤ runs.length) :
    (t.FitsAt runs start ∧ ∃ r, runs[start + t.before.length]? = some r ∧
      t.tryAt runs start = .ok (some r)) ∨
    (¬ t.FitsAt runs start ∧ t.tryAt runs start = .ok none) := by
  have hall := all_zip_iff (length_windowAt (t := t) hroom)
  unfold tryAt
  rw [slice_windowAt hroom]
  by_cases hfits : t.FitsAt runs start
  · obtain ⟨r, hr⟩ := hfits.exists_change
    have hentry : entry (t.windowAt runs start) t.before.length = .ok r := by
      unfold entry
      rw [getElem?_windowAt t.length_before_lt, hr]
    refine .inl ⟨hfits, r, hr, ?_⟩
    simp only [bind, Except.bind, hall.2 (fitsAt_iff_matches.1 hfits).2, if_true, hentry]
    rfl
  · have hnot := mt hall.1 fun hmatches => hfits (fitsAt_iff_matches.2 ⟨hroom, hmatches⟩)
    refine .inr ⟨hfits, ?_⟩
    simp only [bind, Except.bind, hnot]
    rfl

/-- The search down from an index finds the entry at the change of the greatest window up to it. -/
theorem searchDown_spec (hroom : start + t.pattern.length ≤ runs.length) :
    (∃ s r, IsGreatest {s | s ≤ start ∧ t.FitsAt runs s} s ∧
      runs[s + t.before.length]? = some r ∧ t.searchDown runs start = .ok (some r)) ∨
    ((∀ s ≤ start, ¬ t.FitsAt runs s) ∧ t.searchDown runs start = .ok none) := by
  induction start with
  | zero =>
    rcases tryAt_spec hroom with ⟨hfits, r, hr, htry⟩ | ⟨hnot, htry⟩
    · exact .inl ⟨0, r, ⟨⟨le_rfl, hfits⟩, fun _ hs => hs.1⟩, hr, htry⟩
    · refine .inr ⟨fun s hs => ?_, htry⟩
      rwa [Nat.le_zero.1 hs]
  | succ start ih =>
    rw [searchDown]
    rcases tryAt_spec hroom with ⟨hfits, r, hr, htry⟩ | ⟨hnot, htry⟩
    · refine .inl ⟨start + 1, r, ⟨⟨le_rfl, hfits⟩, fun _ hs => hs.1⟩, hr, ?_⟩
      rw [htry]
      rfl
    · -- the window is no match, so the windows up to it are those before it
      have hbefore : ∀ s, t.FitsAt runs s → s ≤ start + 1 → s ≤ start := by
        intro s hs hle
        rcases Nat.le_succ_iff.1 hle with hle | rfl
        · exact hle
        · exact absurd hs hnot
      rw [htry]
      rcases ih (by omega) with ⟨s, r, hs, hr, hsearch⟩ | ⟨hnone, hsearch⟩
      · refine .inl ⟨s, r, ⟨⟨Nat.le_succ_of_le hs.1.1, hs.1.2⟩, ?_⟩, hr, hsearch⟩
        exact fun s' hs' => hs.2 ⟨hbefore s' hs'.2 hs'.1, hs'.2⟩
      · exact .inr ⟨fun s hle hs => hnone s (hbefore s hs hle) hs, hsearch⟩

/-- The search by index never leaves the history and finds what `detect` finds. -/
theorem detectIndexed_eq (t : Template) (h : RunHistory) : t.detectIndexed h = .ok (t.detect h) := by
  have hpattern := t.length_before_lt
  unfold detectIndexed
  by_cases hshort : h.runs.length < t.pattern.length
  · have hnone : ∀ s, ¬ t.FitsAt h.runs s := fun s hs => by
      have hroom := hs.1
      omega
    rw [detect_of_not_fitsAt hnone]
    exact if_pos (.inr hshort)
  · have hroom : h.runs.length - t.pattern.length + t.pattern.length ≤ h.runs.length := by omega
    have hlong : ¬ (t.pattern.length = 0 ∨ h.length < t.pattern.length) := by
      rintro (hempty | hlt)
      · omega
      · exact hshort hlt
    rw [if_neg hlong]
    rcases searchDown_spec hroom with ⟨s, r, hs, hr, hsearch⟩ | ⟨hnone, hsearch⟩
    · have hgreatest : IsGreatest {s | t.FitsAt h.runs s} s :=
        ⟨hs.1.2, fun s' hs' => hs.2 ⟨FitsAt.le hs', hs'⟩⟩
      rw [detect_of_isGreatest hgreatest hr]
      simp only [RunHistory.length, hsearch]
      rfl
    · rw [detect_of_not_fitsAt fun s hs => hnone s hs.le hs]
      simp only [RunHistory.length, hsearch]
      rfl

/-! ### What is detected -/

/-- No index that the search uses leaves the history.  If no window matches, nothing is detected;
otherwise it is the build at the change of the newest window, unless this would have to be the build
of the first run that the history records and is not. -/
theorem detect_newest (t : Template) (h : RunHistory) :
    t.detectIndexed h = .ok (t.detect h) ∧
      ((∀ s, ¬ t.FitsAt h.runs s) ∧ t.detect h = none ∨
        ∃ s r, IsGreatest {s | t.FitsAt h.runs s} s ∧ h.runs[s + t.before.length]? = some r ∧
          (t.firstRecorded = false ∨ h.StartsWith r.build → t.detect h = some r.build) ∧
          (t.firstRecorded = true ∧ ¬ h.StartsWith r.build → t.detect h = none)) := by
  refine ⟨detectIndexed_eq t h, ?_⟩
  by_cases hfits : ∃ s, t.FitsAt h.runs s
  · obtain ⟨s₀, hs₀⟩ := hfits
    obtain ⟨s, hs⟩ := hs₀.exists_isGreatest
    obtain ⟨r, hr⟩ := FitsAt.exists_change hs.1
    refine .inr ⟨s, r, hs, hr, ?_, ?_⟩
    · rw [detect_of_isGreatest hs hr]
      exact verdict_of_startsWith
    · rintro ⟨hfirst, hnot⟩
      rw [detect_of_isGreatest hs hr]
      exact verdict_of_not_startsWith hfirst hnot
  · rw [not_exists] at hfits
    exact .inl ⟨hfits, detect_of_not_fitsAt hfits⟩

-- The older window is at the first recorded run, but only the newest one is looked at.
example : (Template.mk [.missing] [.failure] true true (by decide) (by decide)).detect
    ⟨[⟨1, .missing⟩, ⟨2, .failure⟩, ⟨3, .missing⟩, ⟨4, .failure⟩]⟩ = none := by decide

/-! ### Templates that do not mention missing runs -/

/-- A status other than `missing` stands for the same outcomes whether or not missing runs count. -/
theorem admits_iff_of_ne_missing {expected actual : RunStatus} (hexpected : expected ≠ .missing)
    (b b' : Bool) : Admits b expected actual ↔ Admits b' expected actual := by
  cases expected with
  | missing => exact absurd rfl hexpected
  | ok | failure | criticalFailure | okOrFailure => exact Iff.rfl

variable {t' : Template}

/-- Of a pattern without `missing`, missing runs are no window, declared or not. -/
theorem fitsAt_iff_of_not_mem (hpattern : t'.pattern = t.pattern)
    (hmissing : RunStatus.missing ∉ t.pattern) : t'.FitsAt runs start ↔ t.FitsAt runs start := by
  unfold FitsAt
  rw [hpattern]
  refine and_congr_right fun _ => forall_congr' fun i => forall_congr' fun expected => ?_
  refine imp_congr_right fun hexpected => exists_congr fun r => and_congr_right fun _ => ?_
  have hne : expected ≠ .missing := fun heq => hmissing (heq ▸ List.mem_of_getElem? hexpected)
  exact admits_iff_of_ne_missing hne _ _

/-- Templates with the same windows, and with the change at the same place, detect the same. -/
theorem detect_congr {h : RunHistory} (hbefore : t'.before.length = t.before.length)
    (hfirst : t'.firstRecorded = t.firstRecorded)
    (hfits : ∀ s, t'.FitsAt h.runs s ↔ t.FitsAt h.runs s) : t'.detect h = t.detect h := by
  by_cases hsome : ∃ s, t.FitsAt h.runs s
  · obtain ⟨s₀, hs₀⟩ := hsome
    obtain ⟨s, hs⟩ := hs₀.exists_isGreatest
    obtain ⟨r, hr⟩ := FitsAt.exists_change hs.1
    have hs' : IsGreatest {s | t'.FitsAt h.runs s} s :=
      ⟨(hfits s).2 hs.1, fun k hk => hs.2 ((hfits k).1 hk)⟩
    rw [detect_of_isGreatest hs hr, detect_of_isGreatest hs' (hbefore ▸ hr)]
    unfold verdict
    rw [hfirst]
  · rw [not_exists] at hsome
    rw [detect_of_not_fitsAt hsome, detect_of_not_fitsAt fun s hs => hsome s ((hfits s).1 hs)]

/-- The same template with missing runs declared. -/
def declaringMissing (t : Template) : Template where
  before := t.before
  after := t.after
  includeMissing := true
  firstRecorded := t.firstRecorded
  hasChange := t.hasChange
  missingDeclared := fun _ => rfl

/-- Lists that are accepted without missing runs are accepted with them too, and the two templates
have the same windows and detect the same in every history. -/
theorem detect_includeMissing {before after : List RunStatus} {firstRecorded : Bool}
    (ht : make before after false firstRecorded = .ok t) :
    ∃ t', make before after true firstRecorded = .ok t' ∧
      (∀ runs s, t'.FitsAt runs s ↔ t.FitsAt runs s) ∧ ∀ h, t'.detect h = t.detect h := by
  obtain ⟨rfl, rfl, hnot, rfl⟩ := make_eq_ok_iff.1 ht
  have hmissing : RunStatus.missing ∉ t.pattern := fun hmem => by
    rw [t.missingDeclared hmem] at hnot
    cases hnot
  have hfits : ∀ runs s, t.declaringMissing.FitsAt runs s ↔ t.FitsAt runs s :=
    fun _ _ => fitsAt_iff_of_not_mem rfl hmissing
  exact ⟨t.declaringMissing, make_eq_ok_iff.2 ⟨rfl, rfl, rfl, rfl⟩, hfits,
    fun h => detect_congr rfl rfl (hfits h.runs)⟩

/-- Missing runs before and between the others: both templates find the first run, which a failure
follows, and not the newest one, which comes right after a missing run. -/
theorem detect_includeMissing_firstRun :
    ∃ t t', make [] [.okOrFailure, .failure] false true = .ok t ∧
      make [] [.okOrFailure, .failure] true true = .ok t' ∧
      t.detect ⟨[⟨1, .missing⟩, ⟨2, .ok⟩, ⟨3, .failure⟩, ⟨4, .missing⟩, ⟨5, .failure⟩]⟩ = some 2 ∧
      t'.detect ⟨[⟨1, .missing⟩, ⟨2, .ok⟩, ⟨3, .failure⟩, ⟨4, .missing⟩, ⟨5, .failure⟩]⟩ =
        some 2 := by
  have ht : make [] [.okOrFailure, .failure] false true =
      .ok ⟨[], [.okOrFailure, .failure], false, true, by decide, by decide⟩ := rfl
  obtain ⟨t', ht', -, hsame⟩ := detect_includeMissing ht
  exact ⟨_, t', ht, ht', by decide, (hsame _).trans (by decide)⟩

end Template

end Triage
