import Mathlib
import Triage.History

/-!
# What the statistics of a history see

The changes of two histories one after the other are the changes of each and the one at the seam, if the
status differs there (`statusChanges_append`).  So a history that goes on never has fewer changes, and one
that was flaky stays so (`isFlaky_append`).

The statistics see the runs that took place and nothing else: missing runs may be put in and taken out
anywhere (`SameRuns`).  Each change stands between two of the runs, so there are fewer changes than runs
and the rate of changes stays below one hundred (`statistics_of_runs`).
-/

namespace Triage.RunHistory

variable {g h : RunHistory}

/-! ### Changes in a row -/

/-- Whether the last of some statuses differs from the first of some others. -/
def seam (xs ys : List RunStatus) : Nat :=
  match xs.getLast?, ys.head? with
  | some a, some b => if a ≠ b then 1 else 0
  | _, _ => 0

theorem changes_append (xs ys : List RunStatus) :
    changes (xs ++ ys) = changes xs + seam xs ys + changes ys := by
  induction xs using changes.induct with
  | case1 a b rest ih =>
    have hseam : seam (a :: b :: rest) ys = seam (b :: rest) ys := by
      unfold seam
      rw [List.getLast?_cons_cons]
    have happend : changes (a :: b :: rest ++ ys) =
        (if a ≠ b then 1 else 0) + changes (b :: rest ++ ys) := rfl
    rw [happend, ih, hseam, changes]
    omega
  | case2 xs hshort =>
    -- at most one status stands before the seam
    cases xs with
    | nil => simp [changes, seam]
    | cons a rest =>
      cases rest with
      | nil =>
        cases ys with
        | nil => rfl
        | cons b ys => simp [changes, seam]
      | cons b rest => exact absurd rfl (hshort a b rest)

/-- Each change stands between two statuses. -/
theorem changes_lt_length {xs : List RunStatus} (hne : xs ≠ []) : changes xs < xs.length := by
  induction xs using changes.induct with
  | case1 a b rest ih =>
    have hrest : changes (b :: rest) < (b :: rest).length := ih (List.cons_ne_nil b rest)
    rw [changes, List.length_cons]
    split <;> omega
  | case2 xs hshort =>
    cases xs with
    | nil => exact absurd rfl hne
    | cons a rest =>
      cases rest with
      | nil => exact Nat.zero_lt_one
      | cons b rest => exact absurd rfl (hshort a b rest)

theorem recorded_append (h : RunHistory) (later : List Run) :
    recorded ⟨h.runs ++ later⟩ = h.recorded ++ recorded ⟨later⟩ := by
  unfold recorded
  rw [List.filter_append]

/-! ### One history after another -/

/-- The newest run of the first history and the oldest one of the second differ in status. -/
def TurnsInto (g h : RunHistory) : Prop :=
  ∃ a ∈ g.lastRecorded?, ∃ b ∈ h.firstRecorded?, a.status ≠ b.status

instance (g h : RunHistory) : Decidable (g.TurnsInto h) :=
  inferInstanceAs (Decidable (∃ a ∈ g.lastRecorded?, ∃ b ∈ h.firstRecorded?, a.status ≠ b.status))

theorem seam_recorded (g h : RunHistory) :
    seam (g.recorded.map (·.status)) (h.recorded.map (·.status)) =
      if g.TurnsInto h then 1 else 0 := by
  unfold seam
  rw [List.getLast?_map, List.head?_map]
  cases ha : g.recorded.getLast? with
  | none => simp [TurnsInto, lastRecorded?, ha]
  | some a =>
    cases hb : h.recorded.head? with
    | none => simp [TurnsInto, firstRecorded?, hb]
    | some b => simp [TurnsInto, lastRecorded?, firstRecorded?, ha, hb]

theorem statusChanges_append (g h : RunHistory) :
    statusChanges ⟨g.runs ++ h.runs⟩ =
      g.statusChanges + h.statusChanges + if g.TurnsInto h then 1 else 0 := by
  unfold statusChanges
  rw [recorded_append g h.runs, List.map_append, changes_append, seam_recorded]
  exact Nat.add_right_comm _ _ _

/-- A history that goes on never has fewer changes. -/
theorem statusChanges_le_append (h : RunHistory) (later : List Run) :
    h.statusChanges ≤ statusChanges ⟨h.runs ++ later⟩ := by
  rw [statusChanges_append h ⟨later⟩]
  omega

/-- What is flaky stays flaky. -/
theorem isFlaky_append {border : Nat} (hf : h.isFlaky border = true)
    (later : List Run) : isFlaky ⟨h.runs ++ later⟩ border = true := by
  unfold isFlaky at hf ⊢
  rw [decide_eq_true_eq] at hf ⊢
  exact hf.trans (statusChanges_le_append h later)

/-- An entry brings a change if it is a run that ended differently from the last one before it. -/
theorem statusChanges_concat (h : RunHistory) (r : Run) :
    statusChanges ⟨h.runs ++ [r]⟩ = h.statusChanges + if h.TurnsInto ⟨[r]⟩ then 1 else 0 := by
  have hone : statusChanges ⟨[r]⟩ = 0 := by
    obtain ⟨build, status⟩ := r
    cases status <;> rfl
  rw [statusChanges_append h ⟨[r]⟩, hone, Nat.add_zero]

/-! ### Missing runs -/

/-- The second history has one missing run more, at any place among the entries of the first one. -/
inductive AddsMissing : RunHistory → RunHistory → Prop where
  | intro (before after : List Run) (build : Nat) :
    AddsMissing ⟨before ++ after⟩ ⟨before ++ ⟨build, .missing⟩ :: after⟩

/-- One history becomes the other one when missing runs are put in and taken out, any number of each. -/
def SameRuns : RunHistory → RunHistory → Prop := Relation.EqvGen AddsMissing

theorem AddsMissing.recorded_eq (ha : AddsMissing g h) : g.recorded = h.recorded := by
  obtain ⟨before, after, build⟩ := ha
  rw [recorded_append ⟨before⟩ after, recorded_append ⟨before⟩ (⟨build, .missing⟩ :: after)]
  rfl

theorem AddsMissing.cons (ha : AddsMissing g h) (r : Run) :
    AddsMissing ⟨r :: g.runs⟩ ⟨r :: h.runs⟩ := by
  obtain ⟨before, after, build⟩ := ha
  exact .intro (r :: before) after build

theorem SameRuns.cons (hs : SameRuns g h) (r : Run) :
    SameRuns ⟨r :: g.runs⟩ ⟨r :: h.runs⟩ := by
  induction hs with
  | rel _ _ ha => exact .rel _ _ (ha.cons r)
  | refl _ => exact .refl _
  | symm _ _ _ ih => exact .symm _ _ ih
  | trans _ _ _ _ _ ih ih' => exact .trans _ _ _ ih ih'

/-- All missing runs can be taken out. -/
theorem sameRuns_recorded (runs : List Run) : SameRuns ⟨runs⟩ ⟨recorded ⟨runs⟩⟩ := by
  induction runs with
  | nil => exact .refl _
  | cons r rest ih =>
    obtain ⟨build, status⟩ := r
    by_cases hs : status = .missing
    · subst hs
      exact .trans _ _ _ (.symm _ _ (.rel _ _ (.intro [] rest build))) ih
    · have hkept : recorded ⟨⟨build, status⟩ :: rest⟩ = ⟨build, status⟩ :: recorded ⟨rest⟩ :=
        List.filter_cons_of_pos (by simpa using hs)
      rw [hkept]
      exact ih.cons _

theorem sameRuns_iff : SameRuns g h ↔ g.recorded = h.recorded := by
  constructor
  · intro hs
    induction hs with
    | rel _ _ ha => exact ha.recorded_eq
    | refl _ => rfl
    | symm _ _ _ ih => exact ih.symm
    | trans _ _ _ _ _ ih ih' => exact ih.trans ih'
  · intro heq
    have hg : SameRuns g ⟨h.recorded⟩ := heq ▸ sameRuns_recorded g.runs
    exact .trans _ _ _ hg (.symm _ _ (sameRuns_recorded h.runs))

/-! ### The rate of changes -/

theorem statusChanges_lt_runCount (hr : 0 < h.runCount) : h.statusChanges < h.runCount := by
  have hne : h.recorded.map (·.status) ≠ [] := by
    rw [Ne, List.map_eq_nil_iff]
    exact List.ne_nil_of_length_pos hr
  have hlt := changes_lt_length hne
  rwa [List.length_map] at hlt

/-- The rate of changes as a fraction, without the rounding of `flakyRate`. -/
def exactFlakyRate (h : RunHistory) : ℚ :=
  if h.runCount = 0 then 0 else h.statusChanges * 100 / h.runCount

theorem exactFlakyRate_nonneg (h : RunHistory) : 0 ≤ h.exactFlakyRate := by
  unfold exactFlakyRate
  split
  · exact le_rfl
  · positivity

theorem exactFlakyRate_lt_hundred (h : RunHistory) : h.exactFlakyRate < 100 := by
  unfold exactFlakyRate
  split
  · norm_num
  · rename_i hr
    have hpos : (0 : ℚ) < h.runCount := by exact_mod_cast Nat.pos_of_ne_zero hr
    have hlt : (h.statusChanges : ℚ) < h.runCount := by
      exact_mod_cast statusChanges_lt_runCount (Nat.pos_of_ne_zero hr)
    rw [div_lt_iff₀ hpos]
    linarith

/-- The statistics see only the runs that took place.  They are the same for histories that differ in
missing runs alone; the changes of two histories in a row add up, with one more where the newest run of
the first one and the oldest of the second differ; so one entry more brings no change or one; and there
are fewer changes than runs, so the exact rate of changes lies between nought and one hundred. -/
theorem statistics_of_runs (g h : RunHistory) :
    (g.SameRuns h ↔ g.recorded = h.recorded) ∧
    (g.SameRuns h → g.runCount = h.runCount ∧ g.statusChanges = h.statusChanges ∧
      g.firstRecorded? = h.firstRecorded? ∧ g.lastRecorded? = h.lastRecorded?) ∧
    statusChanges ⟨g.runs ++ h.runs⟩ =
      g.statusChanges + h.statusChanges + (if g.TurnsInto h then 1 else 0) ∧
    (∀ build status, status ≠ .okOrFailure → ∃ h', h.append build status = .ok h' ∧
      h.statusChanges ≤ h'.statusChanges ∧ h'.statusChanges ≤ h.statusChanges + 1) ∧
    (0 < h.runCount → h.statusChanges < h.runCount) ∧
    0 ≤ h.exactFlakyRate ∧ h.exactFlakyRate < 100 := by
  refine ⟨sameRuns_iff, fun hs => ?_, statusChanges_append g h, fun build status hs => ?_,
    statusChanges_lt_runCount, h.exactFlakyRate_nonneg, h.exactFlakyRate_lt_hundred⟩
  · have heq := sameRuns_iff.1 hs
    unfold runCount statusChanges firstRecorded? lastRecorded?
    rw [heq]
    exact ⟨rfl, rfl, rfl, rfl⟩
  · refine ⟨_, append_eq_ok_iff.2 ⟨hs, rfl⟩, statusChanges_le_append h _, ?_⟩
    rw [statusChanges_concat]
    split <;> omega

/-- A failure between two successes. -/
def lapse : RunHistory := ⟨[⟨2, .ok⟩, ⟨5, .failure⟩, ⟨7, .ok⟩]⟩

/-- The same runs with missing ones before, between and after them. -/
def sparseLapse : RunHistory :=
  ⟨[⟨1, .missing⟩, ⟨2, .ok⟩, ⟨3, .missing⟩, ⟨4, .missing⟩, ⟨5, .failure⟩, ⟨6, .missing⟩, ⟨7, .ok⟩,
    ⟨8, .missing⟩]⟩

/-- The missing runs do not count, neither inside a history nor where a failure goes on from it. -/
theorem statistics_of_runs_sparseLapse :
    (lapse.SameRuns sparseLapse ∧ lapse.runCount = sparseLapse.runCount ∧
      lapse.lastRecorded? = sparseLapse.lastRecorded?) ∧
    statusChanges ⟨sparseLapse.runs ++ [⟨9, .missing⟩, ⟨10, .failure⟩]⟩ = 3 ∧
    (∃ h', sparseLapse.append 9 .failure = .ok h' ∧ h'.statusChanges ≤ 3) ∧
    0 < sparseLapse.runCount ∧ sparseLapse.statusChanges < sparseLapse.runCount := by
  obtain ⟨hsame, hequal, -, happend, hfewer, -⟩ := statistics_of_runs lapse sparseLapse
  obtain ⟨-, -, hseam, -⟩ := statistics_of_runs sparseLapse ⟨[⟨9, .missing⟩, ⟨10, .failure⟩]⟩
  have hs : lapse.SameRuns sparseLapse := hsame.2 (by decide)
  have hpos : 0 < sparseLapse.runCount := by decide
  obtain ⟨hcount, -, -, hlast⟩ := hequal hs
  obtain ⟨h', hok, -, hle⟩ := happend 9 .failure (by decide)
  exact ⟨⟨hs, hcount, hlast⟩, hseam.trans (by decide), ⟨h', hok, hle⟩, hpos, hfewer hpos⟩

end Triage.RunHistory
