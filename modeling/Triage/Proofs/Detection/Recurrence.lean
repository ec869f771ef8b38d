import Triage.Proofs.Cleaning.Effect
import Triage.Proofs.Detection

/-!
# Issues that come back

All that detection remembers of a change of health is the stored issue, and the histories keep showing
the change.  So an issue that a removal run takes away is registered anew by the next check of its
branch (`checkBranch_after_clean`), and this does happen (`checkBranch_after_clean_again`).
-/

namespace Triage.Detection

open Cleaning

variable {s : Stores}

/-- An issue that is gone after a removal run was detected before the threshold of the run, in a build
of no open defect. -/
theorem isStale_of_removed (hs : s.defects.Keyed) {cfg : CleanerConfig} {now : Timestamp}
    {k : IssueKey} {i : Issue} (hi : s.issues.find? k = some i)
    (hgone : ((clean cfg now).exec s).2.issues.contains k = false) :
    cfg.enabled = true ∧ ∃ threshold, now.minusDays cfg.safeDays = .ok threshold ∧
      isStale s threshold i = true := by
  rw [IssueStore.contains_eq_isSome] at hgone
  cases he : cfg.enabled with
  | false =>
    rw [exec_clean_of_disabled he, hi] at hgone
    cases hgone
  | true =>
    cases ht : now.minusDays cfg.safeDays with
    | error o =>
      rw [exec_clean_of_error he ht, hi] at hgone
      cases hgone
    | ok threshold =>
      refine ⟨rfl, threshold, rfl, ?_⟩
      have hfind := find?_remainingIssues hs threshold cfg.budget k
      rw [exec_clean_of_ok hs he ht] at hgone
      rw [hfind, hi] at hgone
      split at hgone
      · rename_i hk
        obtain ⟨⟨k', i'⟩, htaken, rfl⟩ := List.mem_map.1 hk
        obtain ⟨hmem, hstale⟩ := List.mem_filter.1 (List.mem_of_mem_take htaken)
        have hi' : s.issues.find? k' = some i' := OrderedMap.mem_entries_iff.1 hmem
        rw [hi] at hi'
        cases hi'
        exact hstale
      · cases hgone

/-- When a check of a branch finds nothing new, a check after a removal run registers, each once, the
issues that the histories show and that the run took away.  All of these were detected before the
threshold of the run in builds of no open defect. -/
theorem checkBranch_after_clean (hs : s.defects.Keyed) {cfg : DetectionConfig}
    {branch : TrackedBranch} {before : Timestamp}
    (hquiet : ((checkBranch cfg before branch).exec s).1 = .ok 0) (cleaner : CleanerConfig)
    (now after : Timestamp) :
    ∃ (again : List IssueKey) (s' : Stores),
      (checkBranch cfg after branch).exec ((clean cleaner now).exec s).2 = (.ok again.length, s') ∧
      again.Nodup ∧
      (∀ k, k ∈ again ↔ k ∈ found cfg s.histories branch ∧
        s.issues.contains k = true ∧ ((clean cleaner now).exec s).2.issues.contains k = false) ∧
      (∀ k, s'.issues.contains k = true ↔
        ((clean cleaner now).exec s).2.issues.contains k = true ∨ k ∈ again) ∧
      (∀ k ∈ again, ∃ i threshold, s.issues.find? k = some i ∧ cleaner.enabled = true ∧
        now.minusDays cleaner.safeDays = .ok threshold ∧ i.detectedAt < threshold ∧
        s.defects.hasInOpen i.key.ref = false) := by
  obtain ⟨new, s₁, hexec, hreg⟩ := exec_checkBranch cfg before branch s
  obtain ⟨again, s', hexec', hreg'⟩ :=
    exec_checkBranch cfg after branch ((clean cleaner now).exec s).2
  rw [Pass.histories_exec] at hreg'
  have hnew : new = [] := by
    rw [hexec] at hquiet
    exact List.length_eq_zero_iff.1 (Except.ok.inj hquiet)
  have hstored : ∀ k ∈ found cfg s.histories branch, s.issues.contains k = true := by
    intro k hk
    by_contra hnot
    have hmem := (hreg.mem_new k).2 ⟨hk, Bool.eq_false_iff.2 hnot⟩
    rw [hnew] at hmem
    exact absurd hmem List.not_mem_nil
  have hagain : ∀ k, k ∈ again ↔ k ∈ found cfg s.histories branch ∧
      s.issues.contains k = true ∧ ((clean cleaner now).exec s).2.issues.contains k = false := by
    intro k
    rw [hreg'.mem_new]
    exact ⟨fun ⟨hk, hgone⟩ => ⟨hk, hstored k hk, hgone⟩, fun ⟨hk, _, hgone⟩ => ⟨hk, hgone⟩⟩
  refine ⟨again, s', hexec', hreg'.nodup, hagain, fun k => ?_, fun k hk => ?_⟩
  · rw [hreg'.contains, hreg'.mem_new]
    cases ((clean cleaner now).exec s).2.issues.contains k <;> simp
  · obtain ⟨-, hin, hgone⟩ := (hagain k).1 hk
    rw [IssueStore.contains_eq_isSome] at hin
    obtain ⟨i, hi⟩ := Option.isSome_iff_exists.1 hin
    obtain ⟨he, threshold, ht, hstale⟩ := isStale_of_removed hs hi hgone
    unfold isStale at hstale
    rw [Bool.and_eq_true, decide_eq_true_eq, Bool.not_eq_true'] at hstale
    exact ⟨i, threshold, hi, he, ht, hstale.1, hstale.2⟩

/-! ### A failure that stays -/

def master : TrackedBranch := ⟨"apache", "master"⟩

def firstCheck : Timestamp := .ofMillis 1700000000000

/-- Two hundred days after the first check. -/
def lateCheck : Timestamp := .ofMillis 1717280000000

/-- A test that failed for good, and the issue that was registered for it. -/
def lastingFailure : Stores :=
  ((checkBranch .default firstCheck master).exec
    { Stores.empty with
      histories := HistoryStore.empty.insert master ⟨"t1", some "S"⟩
        ⟨(List.range 9).map fun n => ⟨100 + n, if n < 5 then .ok else .failure⟩⟩ }).2

/-- The check that follows finds nothing new, but once the issue has been removed for its age the
next one registers it again. -/
theorem checkBranch_after_clean_again :
    lastingFailure.issues.all.map (·.key) = [⟨"apache", 105, "t1"⟩] ∧
      ((checkBranch .default firstCheck master).exec lastingFailure).1 = .ok 0 ∧
      ((checkBranch .default lateCheck master).exec
        ((clean .default lateCheck).exec lastingFailure).2).1 = .ok 1 := by
  decide +kernel

/-- Of the same failure, with what the general statement says of it. -/
theorem checkBranch_after_clean_lasting :
    lastingFailure.defects.Keyed ∧
      ((checkBranch .default firstCheck master).exec lastingFailure).1 = .ok 0 ∧
      ∃ (again : List IssueKey) (s' : Stores),
        (checkBranch .default lateCheck master).exec
          ((clean .default lateCheck).exec lastingFailure).2 = (.ok again.length, s') ∧
        again = [⟨"apache", 105, "t1"⟩] ∧
        ∀ k ∈ again, ∃ i threshold, lastingFailure.issues.find? k = some i ∧
          lateCheck.minusDays 180 = .ok threshold ∧ i.detectedAt < threshold ∧
          lastingFailure.defects.hasInOpen i.key.ref = false := by
  have hs : lastingFailure.defects.Keyed := DefectStore.keyed_iff.2 (by decide +kernel)
  have hquiet : ((checkBranch .default firstCheck master).exec lastingFailure).1 = .ok 0 := by
    decide +kernel
  obtain ⟨again, s', hexec, hnodup, hagain, -, hold⟩ :=
    checkBranch_after_clean hs hquiet .default lateCheck lateCheck
  have hfound : found .default lastingFailure.histories master = [⟨"apache", 105, "t1"⟩] := by
    decide +kernel
  have hgone : lastingFailure.issues.contains ⟨"apache", 105, "t1"⟩ = true ∧
      ((clean .default lateCheck).exec lastingFailure).2.issues.contains ⟨"apache", 105, "t1"⟩ =
        false := by
    decide +kernel
  have hkeys : again.Perm [⟨"apache", 105, "t1"⟩] := by
    refine (List.perm_ext_iff_of_nodup hnodup (List.nodup_singleton _)).2 fun k => ?_
    rw [hagain, hfound, List.mem_singleton]
    constructor
    · exact And.left
    · rintro rfl
      exact ⟨rfl, hgone⟩
  refine ⟨hs, hquiet, again, s', hexec, List.perm_singleton.1 hkeys, fun k hk => ?_⟩
  obtain ⟨i, threshold, hi, -, ht, hlt, hopen⟩ := hold k hk
  exact ⟨i, threshold, hi, ht, hlt, hopen⟩

end Triage.Detection
