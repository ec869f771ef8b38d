import Triage.Proofs.Detection

/-!
# What a check registers

The classifications of a branch come in the order of its identities and, for one identity, in that of
its templates (`classified`).  Several of them may have one key, of one identity or of two that have one
name in different suites.  A check stores, for each key that has no issue yet, the first classification
with this key, touches nothing else, and leaves nothing to do for the next check
(`checkBranch_registers`).
-/

namespace Triage.Detection

/-- The issues that the histories of a branch show, each with its key and its type. -/
def classified (cfg : DetectionConfig) (histories : HistoryStore) (branch : TrackedBranch) :
    List (IssueKey × IssueType) :=
  (histories.identities branch).flatMap fun identity =>
    match histories.find? branch identity with
    | none => []
    | some h => (classify cfg identity h).map fun finding => (keyOf branch identity finding, finding.1)

theorem map_issuesShown (cfg : DetectionConfig) (now : Timestamp) (histories : HistoryStore)
    (builds : OrderedMap BuildRef BuildSnapshot) (branch : TrackedBranch) :
    (issuesShown cfg now histories builds branch).map (fun i => (i.key, i.type)) =
      classified cfg histories branch := by
  unfold issuesShown classified
  rw [List.map_flatMap]
  congr 1
  funext identity
  unfold issuesAt
  cases histories.find? branch identity with
  | none => rfl
  | some h =>
    simp only [List.map_map]
    refine List.map_congr_left fun finding _ => ?_
    rw [Function.comp_apply, key_issueOf, type_issueOf]

/-- A new key has the first issue that is shown under it. -/
theorem first_of_mem_newKeys {s : IssueStore} {is : List Issue} {k : IssueKey}
    (hk : k ∈ s.newKeys is) : ∃ i earlier later, (s.addAll is).find? k = some i ∧ i.key = k ∧
      is = earlier ++ i :: later ∧ ∀ i' ∈ earlier, i'.key ≠ k := by
  obtain ⟨hnot, hmem⟩ := IssueStore.mem_newKeys.1 hk
  obtain ⟨i, hi, hkey⟩ := List.mem_map.1 hmem
  rw [IssueStore.contains_eq_isSome, Option.isSome_eq_false_iff, Option.isNone_iff_eq_none] at hnot
  have hsome : (is.find? fun i => i.key = k).isSome :=
    List.find?_isSome.2 ⟨i, hi, by simpa using hkey⟩
  obtain ⟨first, hfirst⟩ := Option.isSome_iff_exists.1 hsome
  obtain ⟨hkey, earlier, later, his, hearlier⟩ := List.find?_eq_some_iff_append.1 hfirst
  refine ⟨first, earlier, later, ?_, by simpa using hkey, his, fun i' hi' => ?_⟩
  · rw [IssueStore.find?_addAll, hnot, Option.none_or, hfirst]
  · simpa using hearlier i' hi'

/-- A check gives the number of keys that it adds and changes no issue that was stored before.  It adds
the keys of the classifications that had none, each with the type of the first classification that has
this key.  A second check, at any time and with any snapshots, gives 0 and changes nothing. -/
theorem checkBranch_registers (cfg : DetectionConfig) (now : Timestamp) (branch : TrackedBranch)
    (s : Stores) :
    ∃ (new : List IssueKey) (s' : Stores),
      (checkBranch cfg now branch).exec s = (.ok new.length, s') ∧
      (s'.histories = s.histories ∧ s'.builds = s.builds ∧ s'.defects = s.defects) ∧
      (∀ k i, s.issues.find? k = some i → s'.issues.find? k = some i) ∧
      new.Nodup ∧
      (∀ k, k ∈ new ↔ s.issues.contains k = false ∧ s'.issues.contains k = true) ∧
      (∀ k, k ∈ new ↔ s.issues.contains k = false ∧
        ∃ type, (k, type) ∈ classified cfg s.histories branch) ∧
      (∀ k ∈ new, ∃ i earlier later, s'.issues.find? k = some i ∧ i.key = k ∧
        classified cfg s.histories branch = earlier ++ (k, i.type) :: later ∧
        ∀ type, (k, type) ∉ earlier) ∧
      ∀ (again : Timestamp) (builds : OrderedMap BuildRef BuildSnapshot),
        (checkBranch cfg again branch).exec { s' with builds := builds } =
          (.ok 0, { s' with builds := builds }) := by
  let shown := issuesShown cfg now s.histories s.builds branch
  have hreg := registers_withNew s shown
  have hclassified : shown.map (fun i => (i.key, i.type)) = classified cfg s.histories branch :=
    map_issuesShown cfg now s.histories s.builds branch
  refine ⟨_, _, exec_checkBranch_eq cfg now branch s, ⟨rfl, rfl, rfl⟩, fun _ _ => hreg.kept,
    hreg.nodup, fun k => ?_, fun k => ?_, fun k hk => ?_, fun again builds => ?_⟩
  · rw [hreg.mem_new, hreg.contains]
    cases s.issues.contains k <;> simp
  · rw [hreg.mem_new, and_comm, ← hclassified]
    simp [shown]
  · obtain ⟨i, earlier, later, hi, hkey, hshown, hearlier⟩ := first_of_mem_newKeys hk
    refine ⟨i, earlier.map fun i => (i.key, i.type), later.map fun i => (i.key, i.type), hi, hkey,
      ?_, fun type htype => ?_⟩
    · have hsplit : shown = earlier ++ i :: later := hshown
      rw [← hclassified, hsplit, List.map_append, List.map_cons, hkey]
    · obtain ⟨i', hi', heq⟩ := List.mem_map.1 htype
      exact hearlier i' hi' (congrArg Prod.fst heq)
  · -- every issue that is shown has its key in use by now
    have hall : ∀ i ∈ issuesShown cfg again s.histories builds branch,
        (s.issues.addAll shown).contains i.key = true := by
      intro i hi
      have hmem := List.mem_map_of_mem (f := fun i : Issue => i.key) hi
      rw [map_key_issuesShown, ← map_key_issuesShown cfg now s.histories s.builds] at hmem
      exact (IssueStore.contains_addAll _ _ _).2 (.inr hmem)
    refine (exec_checkBranch_eq cfg again branch _).trans ?_
    simp only [Stores.withNew]
    rw [IssueStore.newKeys_of_contains hall, IssueStore.addAll_of_contains hall]
    rfl

/-- Two tests of one name in different suites that began to fail in the same build. -/
def namesakes : Stores :=
  let h : RunHistory := ⟨(List.range 9).map fun n => ⟨100 + n, if n < 5 then .ok else .failure⟩⟩
  { Stores.empty with
    histories := (HistoryStore.empty.insert ⟨"apache", "master"⟩ ⟨"t1", some "A"⟩ h).insert
      ⟨"apache", "master"⟩ ⟨"t1", some "B"⟩ h }

-- They have one key, and the suite that comes first decides its type.
example :
    let cfg := { DetectionConfig.default with trustedSuites := ["B"] }
    let checked := (checkBranch cfg (.ofMillis 1700000000000) ⟨"apache", "master"⟩).exec namesakes
    classified cfg namesakes.histories ⟨"apache", "master"⟩ =
        [(⟨"apache", 105, "t1"⟩, .newFailure), (⟨"apache", 105, "t1"⟩, .newTrustedSuiteFailure)] ∧
      checked.1 = .ok 1 ∧ checked.2.issues.all.map (·.type) = [.newFailure] := by
  decide +kernel

end Triage.Detection
