import Triage.Proofs.Cleaning.Effect

/-!
# Budgets of removal runs add up

A run that follows another one at the same time finds all marks up to date, the same builds in open
defects, and of the removable records those that the first run has left.  So two runs do what one run
with both budgets does (`cleared_cleared`), and runs whose budgets reach the number of removable records
remove all of these and no more (`clean_budgets_add`).
-/

namespace Triage

/-- The same settings with another budget. -/
def CleanerConfig.withBudget (cfg : CleanerConfig) (budget : Nat) : CleanerConfig :=
  { cfg with budget }

namespace Cleaning

open DefectStore

variable {s : Stores} {threshold : Timestamp}

/-- The stores after a run. -/
def cleared (threshold : Timestamp) (budget : Nat) (s : Stores) : Stores :=
  { s with
    defects := remaining threshold budget s
    issues := remainingIssues threshold budget s }

@[simp] theorem builds_cleared (threshold : Timestamp) (budget : Nat) (s : Stores) :
    (cleared threshold budget s).builds = s.builds := rfl

@[simp] theorem defects_cleared (threshold : Timestamp) (budget : Nat) (s : Stores) :
    (cleared threshold budget s).defects = remaining threshold budget s := rfl

@[simp] theorem issues_cleared (threshold : Timestamp) (budget : Nat) (s : Stores) :
    (cleared threshold budget s).issues = remainingIssues threshold budget s := rfl

/-! ### Two runs -/

theorem keyed_cleared (hs : s.defects.Keyed) (threshold : Timestamp) (budget : Nat) :
    (cleared threshold budget s).defects.Keyed := by
  intro id d' hd'
  rw [defects_cleared, find?_remaining hs] at hd'
  split at hd'
  · cases hd'
  · obtain ⟨d, hd, rfl⟩ := Option.map_eq_some_iff.1 hd'
    have hid : d.id = id := hs hd
    exact hid

/-- After a run all marks are up to date. -/
theorem remarked_cleared (hs : s.defects.Keyed) (threshold : Timestamp) (budget : Nat) :
    remarked (cleared threshold budget s) = remaining threshold budget s := by
  refine ext_find? (fun k => ?_) (lastId_remark _ _ _)
  rw [find?_remarked (keyed_cleared hs threshold budget), defects_cleared, find?_remaining hs]
  split
  · rfl
  · rw [Option.map_map]
    rfl

theorem remaining_cleared (hs : s.defects.Keyed) (threshold : Timestamp) (a b : Nat) :
    remaining threshold b (cleared threshold a s) = remaining threshold (a + b) s := by
  change ((remarked (cleared threshold a s)).removeOld threshold b).2 = _
  rw [remarked_cleared hs]
  unfold remaining removeOld
  simp only [OrderedMap.removeFirst_removeFirst]

theorem remainingIssues_eq (hs : s.defects.Keyed) (threshold : Timestamp) (budget : Nat) :
    (remainingIssues threshold budget s).issues =
      s.issues.issues.removeFirst (isStale s threshold) budget := by
  unfold remainingIssues IssueStore.removeOld
  rw [isOld_eq_isStale hs]

/-- A run changes nothing in which issues are stale. -/
theorem isStale_cleared (hs : s.defects.Keyed) (threshold : Timestamp) (budget : Nat) :
    isStale (cleared threshold budget s) threshold = isStale s threshold := by
  rw [← isOld_eq_isStale (keyed_cleared hs threshold budget) threshold 0, remaining_cleared hs,
    isOld_eq_isStale hs]

theorem remainingIssues_cleared (hs : s.defects.Keyed) (threshold : Timestamp) (a b : Nat) :
    remainingIssues threshold b (cleared threshold a s) = remainingIssues threshold (a + b) s := by
  have h : (remainingIssues threshold b (cleared threshold a s)).issues =
      (remainingIssues threshold (a + b) s).issues := by
    rw [remainingIssues_eq (keyed_cleared hs threshold a), isStale_cleared hs, issues_cleared,
      remainingIssues_eq hs, remainingIssues_eq hs, OrderedMap.removeFirst_removeFirst]
  exact congrArg IssueStore.mk h

theorem cleared_cleared (hs : s.defects.Keyed) (threshold : Timestamp) (a b : Nat) :
    cleared threshold b (cleared threshold a s) = cleared threshold (a + b) s := by
  change { s with
    defects := remaining threshold b (cleared threshold a s)
    issues := remainingIssues threshold b (cleared threshold a s) } = _
  rw [remaining_cleared hs, remainingIssues_cleared hs]
  rfl

/-! ### Counts -/

theorem removed_add (hs : s.defects.Keyed) (threshold : Timestamp) (a b : Nat) :
    ((remarked s).removeOld threshold a).1 +
        ((remarked (cleared threshold a s)).removeOld threshold b).1 =
      ((remarked s).removeOld threshold (a + b)).1 := by
  have hfirst := OrderedMap.size_removeFirst_le (remarked s).defects (isOld threshold) a
  have hsecond := OrderedMap.size_removeFirst_le
    ((remarked s).defects.removeFirst (isOld threshold) a) (isOld threshold) b
  rw [remarked_cleared hs]
  unfold remaining removeOld
  simp only
  rw [OrderedMap.removeFirst_removeFirst] at hsecond ⊢
  omega

theorem removedIssues_add (hs : s.defects.Keyed) (threshold : Timestamp) (a b : Nat) :
    (s.issues.removeOld threshold a (buildsOf (remaining threshold a s).openDefects)).1 +
        ((cleared threshold a s).issues.removeOld threshold b
          (buildsOf (remaining threshold b (cleared threshold a s)).openDefects)).1 =
      (s.issues.removeOld threshold (a + b)
        (buildsOf (remaining threshold (a + b) s).openDefects)).1 := by
  have hfirst := OrderedMap.size_removeFirst_le s.issues.issues (isStale s threshold) a
  have hsecond := OrderedMap.size_removeFirst_le
    (s.issues.issues.removeFirst (isStale s threshold) a) (isStale s threshold) b
  unfold IssueStore.removeOld
  simp only
  rw [remaining_cleared hs, isOld_eq_isStale hs, isOld_eq_isStale hs, issues_cleared,
    remainingIssues_eq hs, OrderedMap.removeFirst_removeFirst]
  rw [OrderedMap.removeFirst_removeFirst] at hsecond
  omega

section Runs

variable {cfg : CleanerConfig} {now : Timestamp}

/-- A run clears the stores and counts what it removes. -/
theorem exec_clean_eq_cleared (hs : s.defects.Keyed) (he : cfg.enabled = true)
    (ht : now.minusDays cfg.safeDays = .ok threshold) (budget : Nat) :
    ∃ r, (clean (cfg.withBudget budget) now).exec s = (.ok r, cleared threshold budget s) ∧
      r.defects = ((remarked s).removeOld threshold budget).1 ∧
      r.issues = (s.issues.removeOld threshold budget
        (buildsOf (remaining threshold budget s).openDefects)).1 := by
  have henabled : (cfg.withBudget budget).enabled = true := he
  exact ⟨_, exec_clean_of_ok hs henabled ht, rfl, rfl⟩

/-- Whatever their budgets, runs do nothing, or they fail, or they clear the stores. -/
theorem exec_clean_cases (cfg : CleanerConfig) (now : Timestamp) :
    (∀ budget s, (clean (cfg.withBudget budget) now).exec s = (.ok .empty, s)) ∨
      (∃ o, cfg.enabled = true ∧ now.minusDays cfg.safeDays = .error o ∧
        ∀ budget s, (clean (cfg.withBudget budget) now).exec s = (.error (.crash o), s)) ∨
      ∃ threshold, cfg.enabled = true ∧ now.minusDays cfg.safeDays = .ok threshold := by
  cases he : cfg.enabled with
  | false =>
    have hdisabled : ∀ budget, (cfg.withBudget budget).enabled = false := fun _ => he
    exact .inl fun budget s => exec_clean_of_disabled (hdisabled budget) now s
  | true =>
    cases ht : now.minusDays cfg.safeDays with
    | error o =>
      have henabled : ∀ budget, (cfg.withBudget budget).enabled = true := fun _ => he
      exact .inr (.inl ⟨o, rfl, rfl, fun budget s => exec_clean_of_error (henabled budget) ht s⟩)
    | ok threshold => exact .inr (.inr ⟨threshold, rfl, rfl⟩)

/-- Two runs, one after the other, and one run with both budgets. -/
theorem exec_clean_add (hs : s.defects.Keyed) (cfg : CleanerConfig) (now : Timestamp) (a b : Nat) :
    (∃ r₁ r₂ r s₁ s₂, (clean (cfg.withBudget a) now).exec s = (.ok r₁, s₁) ∧
      (clean (cfg.withBudget b) now).exec s₁ = (.ok r₂, s₂) ∧
      (clean (cfg.withBudget (a + b)) now).exec s = (.ok r, s₂) ∧
      r₁.defects + r₂.defects = r.defects ∧ r₁.issues + r₂.issues = r.issues) ∨
    ∃ o, cfg.enabled = true ∧ now.minusDays cfg.safeDays = .error o ∧
      ∀ budget, (clean (cfg.withBudget budget) now).exec s = (.error (.crash o), s) := by
  rcases exec_clean_cases cfg now with hidle | ⟨o, he, ht, hfail⟩ | ⟨threshold, he, ht⟩
  · exact .inl ⟨_, _, _, _, _, hidle a s, hidle b s, hidle (a + b) s, rfl, rfl⟩
  · exact .inr ⟨o, he, ht, fun budget => hfail budget s⟩
  · obtain ⟨r₁, hexec₁, hdefects₁, hissues₁⟩ := exec_clean_eq_cleared hs he ht a
    obtain ⟨r₂, hexec₂, hdefects₂, hissues₂⟩ :=
      exec_clean_eq_cleared (keyed_cleared hs threshold a) he ht b
    obtain ⟨r, hexec, hdefects, hissues⟩ := exec_clean_eq_cleared hs he ht (a + b)
    rw [cleared_cleared hs] at hexec₂
    refine .inl ⟨r₁, r₂, r, _, _, hexec₁, hexec₂, hexec, ?_, ?_⟩
    · rw [hdefects₁, hdefects₂, hdefects, removed_add hs]
    · rw [hissues₁, hissues₂, hissues, removedIssues_add hs]

end Runs

/-! ### Any number of runs -/

/-- The stores after runs with the given budgets, one after the other and all at the same time. -/
def runs (cfg : CleanerConfig) (now : Timestamp) (budgets : List Nat) (s : Stores) : Stores :=
  budgets.foldl (fun s budget => ((clean (cfg.withBudget budget) now).exec s).2) s

/-- The second stores are the first ones with all marks up to date and without the first removable
records of each kind, as many as the budget allows; nothing removable is left if it allows for all. -/
structure Drained (threshold : Timestamp) (budget : Nat) (s s' : Stores) : Prop where
  defects (id : Nat) : s'.defects.find? id =
    if id ∈ overdueIds s threshold budget then none else (s.defects.find? id).map (marked s.builds)
  issues (key : IssueKey) : s'.issues.find? key =
    if key ∈ ((staleEntries s threshold).take budget).map (·.1) then none else s.issues.find? key
  noneOverdue : (s.defects.all.filter (isOverdue s.builds threshold)).length ≤ budget →
    ∀ id d, s'.defects.find? id = some d → isOverdue s'.builds threshold d = false
  noneStale : (staleEntries s threshold).length ≤ budget →
    ∀ key i, s'.issues.find? key = some i → isStale s' threshold i = false

theorem overdueIds_subset (s : Stores) (threshold : Timestamp) {a b : Nat} (h : a ≤ b) :
    overdueIds s threshold a ⊆ overdueIds s threshold b :=
  List.map_subset _ (List.take_subset_take_left _ h)

theorem drained_cleared (hs : s.defects.Keyed) (threshold : Timestamp) (budget : Nat) :
    Drained threshold budget s (cleared threshold budget s) where
  defects := find?_remaining hs threshold budget
  issues := find?_remainingIssues hs threshold budget
  noneOverdue hbudget id d hd := by
    rw [defects_cleared, find?_remaining hs] at hd
    split at hd
    · cases hd
    · rename_i hkept
      obtain ⟨d₀, hd₀, rfl⟩ := Option.map_eq_some_iff.1 hd
      have hsame : isOverdue s.builds threshold (marked s.builds d₀) =
          isOverdue s.builds threshold d₀ := rfl
      rw [builds_cleared, hsame]
      by_contra hover
      exact hkept (mem_overdueIds_of_le hs hd₀ (by simpa using hover) hbudget)
  noneStale hbudget key i hi := by
    rw [isStale_cleared hs]
    rw [issues_cleared, find?_remainingIssues hs] at hi
    split at hi
    · cases hi
    · rename_i hkept
      by_contra hstale
      refine hkept (List.mem_map.2 ⟨(key, i), ?_, rfl⟩)
      rw [List.take_of_length_le hbudget]
      exact List.mem_filter.2 ⟨OrderedMap.mem_entries_iff.2 hi, by simpa using hstale⟩

/-- A run with a smaller budget keeps whatever one with a larger budget keeps. -/
theorem Drained.keeps {a b : Nat} {s₁ s₂ : Stores} (h₁ : Drained threshold a s s₁)
    (h₂ : Drained threshold b s s₂) (hle : a ≤ b) :
    (∀ id d, s₂.defects.find? id = some d → s₁.defects.find? id = some d) ∧
      ∀ key i, s₂.issues.find? key = some i → s₁.issues.find? key = some i := by
  constructor
  · intro id d hd
    rw [h₂.defects] at hd
    split at hd
    · cases hd
    · rename_i hkept
      rw [h₁.defects, if_neg fun hid => hkept (overdueIds_subset s threshold hle hid), hd]
  · intro key i hi
    rw [h₂.issues] at hi
    split at hi
    · cases hi
    · rename_i hkept
      have hsubset : ((staleEntries s threshold).take a).map (·.1) ⊆
          ((staleEntries s threshold).take b).map (·.1) :=
        List.map_subset _ (List.take_subset_take_left _ hle)
      rw [h₁.issues, if_neg fun hkey => hkept (hsubset hkey), hi]

/-- Runs one after the other leave what one run with the sum of their budgets leaves. -/
theorem runs_eq (hs : s.defects.Keyed) (cfg : CleanerConfig) (now : Timestamp) {budgets : List Nat}
    (h : budgets ≠ []) :
    runs cfg now budgets s = ((clean (cfg.withBudget budgets.sum) now).exec s).2 := by
  induction budgets generalizing s with
  | nil => exact absurd rfl h
  | cons budget budgets ih =>
    have hcons : runs cfg now (budget :: budgets) s =
        runs cfg now budgets ((clean (cfg.withBudget budget) now).exec s).2 := rfl
    rw [hcons]
    cases budgets with
    | nil => rfl
    | cons next budgets =>
      rw [ih (keyed_clean hs _ now) (List.cons_ne_nil _ _), List.sum_cons (l := next :: budgets)]
      rcases exec_clean_add hs cfg now budget (next :: budgets).sum with
        ⟨r₁, r₂, r, s₁, s₂, h₁, h₂, h, -⟩ | ⟨o, -, -, hfail⟩
      · rw [h₁, h₂, h]
      · rw [hfail, hfail, hfail]

/-- Runs remove nothing that a run with a larger budget keeps. -/
theorem runs_keep (hs : s.defects.Keyed) (cfg : CleanerConfig) (now : Timestamp)
    {budgets : List Nat} (h : budgets ≠ []) {budget : Nat} (hle : budgets.sum ≤ budget) {s' : Stores}
    (hs' : ((clean (cfg.withBudget budget) now).exec s).2 = s') :
    (∀ id d, s'.defects.find? id = some d → (runs cfg now budgets s).defects.find? id = some d) ∧
      ∀ key i, s'.issues.find? key = some i →
        (runs cfg now budgets s).issues.find? key = some i := by
  subst hs'
  rw [runs_eq hs cfg now h]
  rcases exec_clean_cases cfg now with hidle | ⟨o, -, -, hfail⟩ | ⟨threshold, he, ht⟩
  · rw [hidle, hidle]
    exact ⟨fun _ _ hd => hd, fun _ _ hi => hi⟩
  · rw [hfail, hfail]
    exact ⟨fun _ _ hd => hd, fun _ _ hi => hi⟩
  · obtain ⟨r, hexec, -⟩ := exec_clean_eq_cleared hs he ht budgets.sum
    obtain ⟨r', hexec', -⟩ := exec_clean_eq_cleared hs he ht budget
    rw [hexec, hexec']
    exact (drained_cleared hs threshold budgets.sum).keeps (drained_cleared hs threshold budget) hle

theorem drained_runs (hs : s.defects.Keyed) {cfg : CleanerConfig} {now : Timestamp}
    (he : cfg.enabled = true) (ht : now.minusDays cfg.safeDays = .ok threshold)
    {budgets : List Nat} (h : budgets ≠ []) :
    Drained threshold budgets.sum s (runs cfg now budgets s) := by
  obtain ⟨r, hexec, -⟩ := exec_clean_eq_cleared hs he ht budgets.sum
  rw [runs_eq hs cfg now h, hexec]
  exact drained_cleared hs threshold budgets.sum

/-! ### Main result -/

/-- Two runs at the same time leave what one run with the sum of their budgets leaves, and remove together
as many records of each kind; they fail only where a run of any budget does, and then leave everything.
So do any number of runs: they remove the first removable records of each kind, nothing that a run with
a larger budget keeps, and everything removable once their budgets reach the number of these. -/
theorem clean_budgets_add (hs : s.defects.Keyed) (cfg : CleanerConfig) (now : Timestamp) :
    (∀ a b,
      (∃ r₁ r₂ r s₁ s₂, (clean (cfg.withBudget a) now).exec s = (.ok r₁, s₁) ∧
        (clean (cfg.withBudget b) now).exec s₁ = (.ok r₂, s₂) ∧
        (clean (cfg.withBudget (a + b)) now).exec s = (.ok r, s₂) ∧
        r₁.defects + r₂.defects = r.defects ∧ r₁.issues + r₂.issues = r.issues) ∨
      ∃ o, cfg.enabled = true ∧ now.minusDays cfg.safeDays = .error o ∧
        ∀ budget, (clean (cfg.withBudget budget) now).exec s = (.error (.crash o), s)) ∧
    ∀ budgets, budgets ≠ [] →
      runs cfg now budgets s = ((clean (cfg.withBudget budgets.sum) now).exec s).2 ∧
      (∀ budget s', budgets.sum ≤ budget → ((clean (cfg.withBudget budget) now).exec s).2 = s' →
        (∀ id d, s'.defects.find? id = some d →
          (runs cfg now budgets s).defects.find? id = some d) ∧
        ∀ key i, s'.issues.find? key = some i →
          (runs cfg now budgets s).issues.find? key = some i) ∧
      ∀ threshold, cfg.enabled = true → now.minusDays cfg.safeDays = .ok threshold →
        Drained threshold budgets.sum s (runs cfg now budgets s) :=
  ⟨exec_clean_add hs cfg now, fun _ hne => ⟨runs_eq hs cfg now hne,
    fun _ _ hle hs' => runs_keep hs cfg now hne hle hs', fun _ he ht => drained_runs hs he ht hne⟩⟩

/-- Of the five defects the second and the fourth are removable.  Two runs with a budget of one remove
one after the other, and nothing removable is left. -/
theorem clean_budgets_add_mixed :
    mixed.defects.Keyed ∧ mixedTime.minusDays 1 = .ok (.ofMillis 1699913600000) ∧
    overdueIds mixed (.ofMillis 1699913600000) 2 = [2, 4] ∧
    (∃ r₁ r₂ r s₁ s₂, (clean ⟨true, 1, 1, 0⟩ mixedTime).exec mixed = (.ok r₁, s₁) ∧
      (clean ⟨true, 1, 1, 0⟩ mixedTime).exec s₁ = (.ok r₂, s₂) ∧
      (clean ⟨true, 1, 2, 0⟩ mixedTime).exec mixed = (.ok r, s₂) ∧
      r₁.defects + r₂.defects = r.defects ∧ r₁.issues + r₂.issues = r.issues) ∧
    (runs ⟨true, 1, 0, 0⟩ mixedTime [1, 1] mixed).defects.all.map (·.id) = [1, 3, 5] ∧
    ∀ id d, (runs ⟨true, 1, 0, 0⟩ mixedTime [1, 1] mixed).defects.find? id = some d →
      isOverdue (runs ⟨true, 1, 0, 0⟩ mixedTime [1, 1] mixed).builds (.ofMillis 1699913600000) d =
        false := by
  have hs : mixed.defects.Keyed := keyed_iff.2 (by decide +kernel)
  have ht : mixedTime.minusDays 1 = .ok (.ofMillis 1699913600000) := by decide +kernel
  obtain ⟨hadd, hruns⟩ := clean_budgets_add hs ⟨true, 1, 0, 0⟩ mixedTime
  obtain ⟨-, -, hdrained⟩ := hruns [1, 1] (by decide)
  refine ⟨hs, ht, by decide +kernel, ?_, by decide +kernel,
    (hdrained _ rfl ht).noneOverdue (by decide +kernel)⟩
  rcases hadd 1 1 with h | ⟨o, -, herror, -⟩
  · exact h
  · cases ht.symm.trans herror

end Cleaning

end Triage
