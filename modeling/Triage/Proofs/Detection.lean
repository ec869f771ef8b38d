import Triage.Detection
import Triage.Proofs.Execution

/-!
# What a check of the histories does to the stores

A check reads the issues off the recorded histories of a branch (`issuesShown`) and adds each of them
to the stored issues, unless one is stored under its key (`exec_checkBranch_eq`).  `found` are the keys
of these issues.  `exec_checkBranch` says that a check registers those of them that are not stored yet,
each once, and leaves every stored issue as it is.
-/

namespace Triage

/-! ### Issues that are added -/

namespace IssueStore

variable {s : IssueStore} {k : IssueKey}

theorem contains_eq_isSome (s : IssueStore) (k : IssueKey) : s.contains k = (s.find? k).isSome :=
  OrderedMap.contains_eq_isSome s.issues k

theorem find?_save (s : IssueStore) (i : Issue) (k : IssueKey) :
    (s.save i).find? k = if i.key = k then some i else s.find? k :=
  OrderedMap.find?_insert s.issues i.key k i

/-- Saves an issue, unless one is stored under its key. -/
def add (s : IssueStore) (i : Issue) : IssueStore := if s.contains i.key then s else s.save i

def addAll (s : IssueStore) (is : List Issue) : IssueStore := is.foldl add s

/-- The keys of the issues that are saved when one after the other is added. -/
def newKeys (s : IssueStore) : List Issue → List IssueKey
  | [] => []
  | i :: is => (if s.contains i.key then [] else [i.key]) ++ newKeys (s.add i) is

theorem find?_add (s : IssueStore) (i : Issue) (k : IssueKey) :
    (s.add i).find? k = (s.find? k).or (if i.key = k then some i else none) := by
  unfold add
  rw [contains_eq_isSome]
  cases hi : s.find? i.key with
  | some x =>
    by_cases hk : i.key = k
    · subst hk
      simp [hi]
    · simp [hk]
  | none =>
    simp only [Option.isSome_none, Bool.false_eq_true, if_false, find?_save]
    by_cases hk : i.key = k
    · subst hk
      simp [hi]
    · simp [hk]

/-- A stored issue stays, and of those that are added the first one with its key is stored. -/
theorem find?_addAll (s : IssueStore) (is : List Issue) (k : IssueKey) :
    (s.addAll is).find? k = (s.find? k).or (is.find? fun i => i.key = k) := by
  induction is generalizing s with
  | nil => simp [addAll]
  | cons i is ih =>
    have hrest := ih (s.add i)
    unfold addAll at hrest ⊢
    rw [List.foldl_cons, hrest, find?_add, List.find?_cons]
    by_cases hk : i.key = k
    · cases s.find? k <;> simp [hk]
    · simp [hk]

theorem contains_addAll (s : IssueStore) (is : List Issue) (k : IssueKey) :
    (s.addAll is).contains k = true ↔ s.contains k = true ∨ k ∈ is.map (·.key) := by
  rw [contains_eq_isSome, contains_eq_isSome, find?_addAll, Option.isSome_or, Bool.or_eq_true,
    List.find?_isSome, List.mem_map]
  simp only [decide_eq_true_eq]

theorem contains_add_self (s : IssueStore) (i : Issue) : (s.add i).contains i.key = true := by
  rw [contains_eq_isSome, find?_add, if_pos rfl]
  cases s.find? i.key <;> rfl

theorem addAll_append (s : IssueStore) (is js : List Issue) :
    s.addAll (is ++ js) = (s.addAll is).addAll js :=
  List.foldl_append

theorem newKeys_append (s : IssueStore) (is js : List Issue) :
    s.newKeys (is ++ js) = s.newKeys is ++ (s.addAll is).newKeys js := by
  induction is generalizing s with
  | nil => rfl
  | cons i is ih =>
    have hadd : s.addAll (i :: is) = (s.add i).addAll is := rfl
    rw [List.cons_append, newKeys, newKeys, ih, hadd, List.append_assoc]

theorem mem_newKeys {is : List Issue} :
    k ∈ s.newKeys is ↔ s.contains k = false ∧ k ∈ is.map (·.key) := by
  induction is generalizing s with
  | nil => simp [newKeys]
  | cons i is ih =>
    have hadd : (s.add i).contains k = false ↔ s.contains k = false ∧ i.key ≠ k := by
      rw [contains_eq_isSome, contains_eq_isSome, find?_add]
      cases s.find? k <;> by_cases hk : i.key = k <;> simp [hk]
    rw [newKeys, List.mem_append, ih, hadd, List.map_cons, List.mem_cons]
    by_cases hk : i.key = k
    · subst hk
      cases s.contains i.key <;> simp
    · cases s.contains i.key <;> simp [hk, Ne.symm hk]

theorem nodup_newKeys (s : IssueStore) (is : List Issue) : (s.newKeys is).Nodup := by
  induction is generalizing s with
  | nil => exact List.nodup_nil
  | cons i is ih =>
    rw [newKeys]
    split
    · exact ih (s.add i)
    · refine List.nodup_cons.2 ⟨fun hmem => ?_, ih (s.add i)⟩
      have hnot := (mem_newKeys.1 hmem).1
      rw [contains_add_self] at hnot
      cases hnot

/-- Issues whose keys are all in use are not added. -/
theorem addAll_of_contains {is : List Issue} (h : ∀ i ∈ is, s.contains i.key = true) :
    s.addAll is = s := by
  induction is with
  | nil => rfl
  | cons i is ih =>
    have hadd : s.add i = s := if_pos (h i List.mem_cons_self)
    have hall : s.addAll (i :: is) = (s.add i).addAll is := rfl
    rw [hall, hadd]
    exact ih fun j hj => h j (List.mem_cons_of_mem _ hj)

theorem newKeys_of_contains {is : List Issue} (h : ∀ i ∈ is, s.contains i.key = true) :
    s.newKeys is = [] := by
  refine List.eq_nil_iff_forall_not_mem.2 fun k hk => ?_
  obtain ⟨hnot, hmem⟩ := mem_newKeys.1 hk
  obtain ⟨i, hi, rfl⟩ := List.mem_map.1 hmem
  rw [h i hi] at hnot
  cases hnot

end IssueStore

/-- The stores with the issues added that are not stored yet. -/
def Stores.withNew (s : Stores) (is : List Issue) : Stores := { s with issues := s.issues.addAll is }

theorem Stores.withNew_append (s : Stores) (is js : List Issue) :
    s.withNew (is ++ js) = (s.withNew is).withNew js := by
  unfold withNew
  rw [IssueStore.addAll_append]

namespace Detection

/-! ### What the histories show -/

/-- The key under which a finding is registered. -/
def keyOf (branch : TrackedBranch) (identity : Identity) (finding : IssueType × Nat) : IssueKey :=
  ⟨branch.server, finding.2, identity.name⟩

/-- The keys of the issues that one history shows. -/
def foundIn (cfg : DetectionConfig) (branch : TrackedBranch) (identity : Identity) (h : RunHistory) :
    List IssueKey :=
  (classify cfg identity h).map (keyOf branch identity)

/-- The keys of the issues that the history of an identity shows, if there is one. -/
def foundAt (cfg : DetectionConfig) (histories : HistoryStore) (branch : TrackedBranch)
    (identity : Identity) : List IssueKey :=
  match histories.find? branch identity with
  | none => []
  | some h => foundIn cfg branch identity h

/-- The keys of the issues that the histories of a branch show. -/
def found (cfg : DetectionConfig) (histories : HistoryStore) (branch : TrackedBranch) :
    List IssueKey :=
  (histories.identities branch).flatMap (foundAt cfg histories branch)

/-- The issue that stands for a finding, with what the snapshot of its build adds. -/
def issueOf (builds : OrderedMap BuildRef BuildSnapshot) (now : Timestamp) (branch : TrackedBranch)
    (identity : Identity) (h : RunHistory) (finding : IssueType × Nat) : Issue :=
  let issue := newIssue (keyOf branch identity finding) finding.1 now branch.branch h.flakyRate
  match builds.find? issue.key.ref with
  | some b => withSnapshot issue b
  | none => issue

/-- The issues that the history of an identity shows, if there is one. -/
def issuesAt (cfg : DetectionConfig) (now : Timestamp) (histories : HistoryStore)
    (builds : OrderedMap BuildRef BuildSnapshot) (branch : TrackedBranch) (identity : Identity) :
    List Issue :=
  match histories.find? branch identity with
  | none => []
  | some h => (classify cfg identity h).map (issueOf builds now branch identity h)

/-- The issues that the histories of a branch show. -/
def issuesShown (cfg : DetectionConfig) (now : Timestamp) (histories : HistoryStore)
    (builds : OrderedMap BuildRef BuildSnapshot) (branch : TrackedBranch) : List Issue :=
  (histories.identities branch).flatMap (issuesAt cfg now histories builds branch)

section Shown

variable (cfg : DetectionConfig) (now : Timestamp) (histories : HistoryStore)
  (builds : OrderedMap BuildRef BuildSnapshot) (branch : TrackedBranch) (identity : Identity)

@[simp] theorem key_issueOf (h : RunHistory) (finding : IssueType × Nat) :
    (issueOf builds now branch identity h finding).key = keyOf branch identity finding := by
  unfold issueOf
  simp only
  split <;> rfl

@[simp] theorem type_issueOf (h : RunHistory) (finding : IssueType × Nat) :
    (issueOf builds now branch identity h finding).type = finding.1 := by
  unfold issueOf
  simp only
  split <;> rfl

theorem map_key_issueOf (h : RunHistory) :
    ((classify cfg identity h).map (issueOf builds now branch identity h)).map (·.key) =
      foundIn cfg branch identity h := by
  unfold foundIn
  rw [List.map_map]
  exact List.map_congr_left fun finding _ => key_issueOf now builds branch identity h finding

theorem map_key_issuesShown :
    (issuesShown cfg now histories builds branch).map (·.key) = found cfg histories branch := by
  unfold issuesShown found
  rw [List.map_flatMap]
  congr 1
  funext identity
  unfold issuesAt foundAt
  cases histories.find? branch identity with
  | none => rfl
  | some h => exact map_key_issueOf cfg now builds branch identity h

end Shown

/-- The stores `s'` have an issue at each of the found keys; `new` are the keys that had none before. -/
structure Registers (s s' : Stores) (found new : List IssueKey) : Prop where
  histories : s'.histories = s.histories
  builds : s'.builds = s.builds
  defects : s'.defects = s.defects
  nodup : new.Nodup
  mem_new (k : IssueKey) : k ∈ new ↔ k ∈ found ∧ s.issues.contains k = false
  contains (k : IssueKey) : s'.issues.contains k = true ↔ s.issues.contains k = true ∨ k ∈ found
  kept {k : IssueKey} {i : Issue} : s.issues.find? k = some i → s'.issues.find? k = some i

theorem registers_withNew (s : Stores) (is : List Issue) :
    Registers s (s.withNew is) (is.map (·.key)) (s.issues.newKeys is) where
  histories := rfl
  builds := rfl
  defects := rfl
  nodup := IssueStore.nodup_newKeys s.issues is
  mem_new _ := IssueStore.mem_newKeys.trans and_comm
  contains k := IssueStore.contains_addAll s.issues is k
  kept {k i} hi := by
    have hfind := IssueStore.find?_addAll s.issues is k
    rwa [hi, Option.some_or] at hfind

/-! ### One finding after the other -/

variable {s : Stores}

theorem exec_register_of_new (now : Timestamp) (branch : TrackedBranch) (identity : Identity)
    (h : RunHistory) {registered : List IssueKey} (type : IssueType) {build : Nat}
    (hreg : registered.contains ⟨branch.server, build, identity.name⟩ = false)
    (hnew : s.issues.contains ⟨branch.server, build, identity.name⟩ = false) :
    (register now branch identity h registered (type, build)).exec s =
      (.ok (registered ++ [⟨branch.server, build, identity.name⟩]),
        { s with issues :=
            s.issues.save (issueOf s.builds now branch identity h (type, build)) }) := by
  let key : IssueKey := ⟨branch.server, build, identity.name⟩
  have hask : (Pass.ask (.containsIssue key)).exec s = (.ok false, s) :=
    hnew ▸ Pass.runWith_ask_of_ok _ (c := .containsIssue key) rfl
  have hbuild : (Pass.ask (.build key.ref)).exec s = (.ok (s.builds.find? key.ref), s) :=
    Pass.runWith_ask_of_ok _ (c := .build key.ref) rfl
  have hsave : ∀ i, (Pass.ask (.saveIssue i)).exec s =
      (.ok (), { s with issues := s.issues.save i }) :=
    fun i => Pass.runWith_ask_of_ok _ (c := .saveIssue i) rfl
  have hlog : (Pass.log (.snapshotUnavailable key)).exec s = (.ok (), s) := rfl
  have hissue : issueOf s.builds now branch identity h (type, build) =
      match s.builds.find? key.ref with
      | some b => withSnapshot (newIssue key type now branch.branch h.flakyRate) b
      | none => newIssue key type now branch.branch h.flakyRate := rfl
  rw [hissue]
  unfold register Pass.exec
  simp only [hreg, Bool.false_eq_true, if_false]
  rw [Pass.runWith_bind_of_ok _ hask]
  simp only [Bool.false_eq_true, if_false]
  rw [Pass.runWith_bind_of_ok _ hbuild]
  cases s.builds.find? key.ref with
  | none =>
    simp only
    rw [Pass.runWith_bind_of_ok _ hlog, Pass.runWith_bind_of_ok _ (hsave _)]
    rfl
  | some b =>
    simp only
    rw [Pass.runWith_bind_of_ok _ (hsave _)]
    rfl

theorem exec_register_of_stored (now : Timestamp) (branch : TrackedBranch) (identity : Identity)
    (h : RunHistory) (registered : List IssueKey) {type : IssueType} {build : Nat}
    (hstored : s.issues.contains ⟨branch.server, build, identity.name⟩ = true) :
    (register now branch identity h registered (type, build)).exec s = (.ok registered, s) := by
  have hask : (Pass.ask (.containsIssue ⟨branch.server, build, identity.name⟩)).exec s =
      (.ok true, s) :=
    hstored ▸ Pass.runWith_ask_of_ok _
      (c := .containsIssue ⟨branch.server, build, identity.name⟩) rfl
  unfold register
  simp only
  split
  · rfl
  · exact Pass.runWith_bind_of_ok _ hask

/-- A finding adds its issue. -/
theorem exec_register (now : Timestamp) (branch : TrackedBranch) (identity : Identity)
    (h : RunHistory) {registered : List IssueKey}
    (hreg : ∀ k ∈ registered, s.issues.contains k = true) (finding : IssueType × Nat) :
    (register now branch identity h registered finding).exec s =
      (.ok (registered ++ s.issues.newKeys [issueOf s.builds now branch identity h finding]),
        s.withNew [issueOf s.builds now branch identity h finding]) := by
  obtain ⟨type, build⟩ := finding
  have hkey := key_issueOf now s.builds branch identity h (type, build)
  cases hstored : s.issues.contains (keyOf branch identity (type, build)) with
  | true =>
    have hall : ∀ i ∈ [issueOf s.builds now branch identity h (type, build)],
        s.issues.contains i.key = true := by
      intro i hi
      rw [List.mem_singleton.1 hi, hkey, hstored]
    unfold Stores.withNew
    rw [IssueStore.newKeys_of_contains hall, IssueStore.addAll_of_contains hall, List.append_nil]
    exact exec_register_of_stored now branch identity h registered hstored
  | false =>
    have hnot : registered.contains (keyOf branch identity (type, build)) = false := by
      rw [Bool.eq_false_iff, ne_eq, List.contains_iff_mem]
      intro hmem
      rw [hreg _ hmem] at hstored
      cases hstored
    rw [exec_register_of_new now branch identity h type hnot hstored]
    unfold Stores.withNew IssueStore.addAll
    rw [List.foldl_cons, List.foldl_nil, IssueStore.add, IssueStore.newKeys, hkey, hstored]
    rfl

theorem exec_foldlM_register (now : Timestamp) (branch : TrackedBranch) (identity : Identity)
    (h : RunHistory) :
    ∀ (findings : List (IssueType × Nat)) (registered : List IssueKey) (s : Stores),
      (∀ k ∈ registered, s.issues.contains k = true) →
      Pass.exec (findings.foldlM (register now branch identity h) registered) s =
        (.ok (registered ++
            s.issues.newKeys (findings.map (issueOf s.builds now branch identity h))),
          s.withNew (findings.map (issueOf s.builds now branch identity h)))
  | [], registered, s, _ => by
    rw [List.map_nil, IssueStore.newKeys, List.append_nil]
    rfl
  | finding :: findings, registered, s, hreg => by
    let i := issueOf s.builds now branch identity h finding
    have hreg' : ∀ k ∈ registered ++ s.issues.newKeys [i],
        (s.withNew [i]).issues.contains k = true := by
      intro k hk
      refine (IssueStore.contains_addAll s.issues [i] k).2 ?_
      exact (List.mem_append.1 hk).imp (hreg k) fun hk => (IssueStore.mem_newKeys.1 hk).2
    have hcons : (finding :: findings).map (issueOf s.builds now branch identity h) =
        [i] ++ findings.map (issueOf s.builds now branch identity h) := rfl
    rw [hcons, IssueStore.newKeys_append, Stores.withNew_append, List.foldlM_cons,
      ← List.append_assoc]
    exact (Pass.runWith_bind_of_ok _ (exec_register now branch identity h hreg finding)).trans
      (exec_foldlM_register now branch identity h findings _ _ hreg')

/-! ### One history after the other -/

theorem exec_checkIdentity_eq (cfg : DetectionConfig) (now : Timestamp) (branch : TrackedBranch)
    (identity : Identity) (h : RunHistory) (s : Stores) :
    (checkIdentity cfg now branch identity h).exec s =
      (.ok (s.issues.newKeys
          ((classify cfg identity h).map (issueOf s.builds now branch identity h))),
        s.withNew ((classify cfg identity h).map (issueOf s.builds now branch identity h))) := by
  have hexec := exec_foldlM_register now branch identity h (classify cfg identity h) [] s
    fun _ hk => absurd hk List.not_mem_nil
  unfold checkIdentity
  split
  · exact (Pass.runWith_bind_of_ok _ (Pass.runWith_log _ _ _)).trans hexec
  · exact hexec

theorem exec_checkRecorded (cfg : DetectionConfig) (now : Timestamp) (branch : TrackedBranch)
    (identity : Identity) (s : Stores) :
    (checkRecorded cfg now branch identity).exec s =
      (.ok (s.issues.newKeys (issuesAt cfg now s.histories s.builds branch identity)).length,
        s.withNew (issuesAt cfg now s.histories s.builds branch identity)) := by
  have hask : (Pass.tryAsk (.history branch identity)).exec s =
      (.ok (.ok (s.histories.find? branch identity)), s) := Pass.runWith_tryAsk _ _ _
  unfold checkRecorded issuesAt Pass.exec
  rw [Pass.runWith_bind_of_ok _ hask]
  cases s.histories.find? branch identity with
  | none => rfl
  | some h =>
    simp only
    rw [Pass.runWith_bind_of_ok _
      (Pass.runWith_attempt_of_ok _ (exec_checkIdentity_eq cfg now branch identity h s))]
    rfl

theorem exec_foldlM_checkRecorded (cfg : DetectionConfig) (now : Timestamp)
    (branch : TrackedBranch) :
    ∀ (identities : List Identity) (n : Nat) (s : Stores),
      Pass.exec (identities.foldlM (fun n i => do
          return n + (← checkRecorded cfg now branch i)) n) s =
        (.ok (n + (s.issues.newKeys
            (identities.flatMap (issuesAt cfg now s.histories s.builds branch))).length),
          s.withNew (identities.flatMap (issuesAt cfg now s.histories s.builds branch)))
  | [], _, _ => rfl
  | i :: is, n, s => by
    let first := issuesAt cfg now s.histories s.builds branch i
    have hstep : Pass.exec (do return n + (← checkRecorded cfg now branch i)) s =
        (.ok (n + (s.issues.newKeys first).length), s.withNew first) :=
      Pass.runWith_bind_of_ok _ (exec_checkRecorded cfg now branch i s)
    rw [List.flatMap_cons, IssueStore.newKeys_append, Stores.withNew_append, List.length_append,
      List.foldlM_cons, ← Nat.add_assoc]
    exact (Pass.runWith_bind_of_ok _ hstep).trans (exec_foldlM_checkRecorded cfg now branch is _ _)

/-- A check of a branch adds the issues that its histories show, and gives the number of those that are
new. -/
theorem exec_checkBranch_eq (cfg : DetectionConfig) (now : Timestamp) (branch : TrackedBranch)
    (s : Stores) :
    (checkBranch cfg now branch).exec s =
      (.ok (s.issues.newKeys (issuesShown cfg now s.histories s.builds branch)).length,
        s.withNew (issuesShown cfg now s.histories s.builds branch)) := by
  have hask : (Pass.ask (.identities branch)).exec s = (.ok (s.histories.identities branch), s) :=
    Pass.runWith_ask_of_ok _ (c := .identities branch) rfl
  have hexec := exec_foldlM_checkRecorded cfg now branch (s.histories.identities branch) 0 s
  rw [Nat.zero_add] at hexec
  unfold checkBranch Pass.exec
  rw [Pass.runWith_bind_of_ok _ hask, Pass.runWith_bind_of_ok _ hexec]
  rfl

/-! ### What is registered -/

theorem exec_checkIdentity (cfg : DetectionConfig) (now : Timestamp) (branch : TrackedBranch)
    (identity : Identity) (h : RunHistory) (s : Stores) :
    ∃ new s', (checkIdentity cfg now branch identity h).exec s = (.ok new, s') ∧
      Registers s s' (foundIn cfg branch identity h) new :=
  ⟨_, _, exec_checkIdentity_eq cfg now branch identity h s,
    map_key_issueOf cfg now s.builds branch identity h ▸ registers_withNew s _⟩

/-- A check of a branch registers the issues that its histories show and that are not stored yet, and
gives their number. -/
theorem exec_checkBranch (cfg : DetectionConfig) (now : Timestamp) (branch : TrackedBranch)
    (s : Stores) :
    ∃ new s', (checkBranch cfg now branch).exec s = (.ok new.length, s') ∧
      Registers s s' (found cfg s.histories branch) new :=
  ⟨_, _, exec_checkBranch_eq cfg now branch s,
    map_key_issuesShown cfg now s.histories s.builds branch ▸ registers_withNew s _⟩

end Detection

end Triage
