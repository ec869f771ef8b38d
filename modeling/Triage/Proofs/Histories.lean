import Triage.Proofs.Ordered
import Triage.Store.Histories

/-!
# Stored histories are what the calls make of them

A `HistoryCall` sets a history or records an outcome.  What is stored for a branch and an identity
is what the calls for these two make of nothing (`HistoryCall.stored_eq_replayed`), the identities of
a branch are those of its successful calls in the order of their first ones, and a refused outcome
cannot be told from no call at all.  All that can be seen of a store is what its branches list
(`HistoryStore.Alike`), so each call is described by what it does to the lists.
-/

namespace Triage

namespace HistoryStore

variable {s t : HistoryStore} {branch branch' : TrackedBranch} {identity identity' : Identity}
  {history : RunHistory}

/-! ### The list of a branch -/

theorem listed_setListed (s : HistoryStore) (branch branch' : TrackedBranch)
    (listed : List (Identity × RunHistory)) :
    (s.setListed branch listed).listed branch' =
      if branch = branch' then listed else s.listed branch' := by
  unfold HistoryStore.listed setListed
  rw [OrderedMap.find?_insert]
  split <;> rfl

/-- A branch that becomes known lists what an unknown one does. -/
theorem listed_withBranch (s : HistoryStore) (branch branch' : TrackedBranch) :
    (s.withBranch branch).listed branch' = s.listed branch' := by
  unfold withBranch
  split
  · rfl
  · rename_i hunknown
    rw [listed_setListed]
    split
    · rename_i hbranch
      subst hbranch
      rw [OrderedMap.contains_eq_isSome, Option.not_isSome_iff_eq_none] at hunknown
      unfold HistoryStore.listed
      rw [hunknown]
      rfl
    · rfl

theorem find?_setHistory (identity identity' : Identity) (history : RunHistory)
    (es : List (Identity × RunHistory)) :
    ((setHistory identity history es).find? fun e => e.1 = identity').map (·.2) =
      if identity = identity' then some history
      else (es.find? fun e => e.1 = identity').map (·.2) := by
  induction es with
  | nil => by_cases h : identity = identity' <;> simp [setHistory, h]
  | cons e es ih =>
    unfold setHistory
    by_cases he : e.1 = identity
    · subst he
      rw [if_pos rfl]
      by_cases h : e.1 = identity' <;> simp [h]
    · rw [if_neg he]
      by_cases h : e.1 = identity'
      · have hne : identity ≠ identity' := fun heq => he (h.trans heq.symm)
        simp [h, hne]
      · rw [List.find?_cons_of_neg (by simpa using h), List.find?_cons_of_neg (by simpa using h),
          ih]

theorem map_fst_setHistory (identity : Identity) (history : RunHistory)
    (es : List (Identity × RunHistory)) :
    (setHistory identity history es).map (·.1) =
      if identity ∈ es.map (·.1) then es.map (·.1) else es.map (·.1) ++ [identity] := by
  induction es with
  | nil => rfl
  | cons e es ih =>
    unfold setHistory
    by_cases he : e.1 = identity
    · simp [he]
    · rw [if_neg he, List.map_cons, ih, List.map_cons]
      by_cases hmem : identity ∈ es.map (·.1)
      · rw [if_pos hmem, if_pos (List.mem_cons_of_mem _ hmem)]
      · have hnot : identity ∉ e.1 :: es.map (·.1) := by
          rintro (_ | ⟨_, h⟩)
          · exact he rfl
          · exact hmem h
        rw [if_neg hmem, if_neg hnot, List.cons_append]

/-! ### Look-ups -/

theorem find?_insert (s : HistoryStore) (branch branch' : TrackedBranch)
    (identity identity' : Identity) (history : RunHistory) :
    (s.insert branch identity history).find? branch' identity' =
      if branch = branch' ∧ identity = identity' then some history
      else s.find? branch' identity' := by
  unfold find? insert
  rw [listed_setListed]
  by_cases hb : branch = branch'
  · subst hb
    rw [if_pos rfl, find?_setHistory]
    simp only [true_and]
  · rw [if_neg hb, if_neg (fun h => hb h.1)]

theorem identities_insert (s : HistoryStore) (branch branch' : TrackedBranch) (identity : Identity)
    (history : RunHistory) :
    (s.insert branch identity history).identities branch' =
      if branch = branch' ∧ identity ∉ s.identities branch' then s.identities branch' ++ [identity]
      else s.identities branch' := by
  unfold identities insert
  rw [listed_setListed]
  by_cases hb : branch = branch'
  · subst hb
    rw [if_pos rfl, map_fst_setHistory]
    by_cases hmem : identity ∈ (s.listed branch).map (·.1)
    · rw [if_pos hmem, if_neg fun h => h.2 hmem]
    · rw [if_neg hmem, if_pos ⟨rfl, hmem⟩]
  · rw [if_neg hb, if_neg fun h => hb h.1]

theorem mem_identities_iff :
    identity ∈ s.identities branch ↔ ∃ h, s.find? branch identity = some h := by
  unfold identities find?
  rw [← Option.isSome_iff_exists, Option.isSome_map, List.find?_isSome]
  simp only [List.mem_map, decide_eq_true_eq]

/-! ### What can be seen -/

/-- The branches list the same, whether or not they are known. -/
def Alike (s t : HistoryStore) : Prop := ∀ branch, s.listed branch = t.listed branch

theorem Alike.find? (h : s.Alike t) : s.find? branch identity = t.find? branch identity := by
  unfold HistoryStore.find?
  rw [h branch]

theorem Alike.identities (h : s.Alike t) : s.identities branch = t.identities branch := by
  unfold HistoryStore.identities
  rw [h branch]

theorem alike_withBranch (s : HistoryStore) (branch : TrackedBranch) :
    (s.withBranch branch).Alike s :=
  listed_withBranch s branch

theorem Alike.insert (h : s.Alike t) (branch : TrackedBranch) (identity : Identity)
    (history : RunHistory) : (s.insert branch identity history).Alike
      (t.insert branch identity history) := by
  intro branch'
  unfold HistoryStore.insert
  rw [listed_setListed, listed_setListed, h branch, h branch']

/-! ### Recording an outcome -/

theorem record_of_wildcard (s : HistoryStore) (branch : TrackedBranch) (identity : Identity)
    (build : Nat) : s.record branch identity build .okOrFailure =
      (.error (.invalidRecord (.wildcardStatus build)), s.withBranch branch) := rfl

theorem record_of_ne {status : RunStatus} (hs : status ≠ .okOrFailure) (s : HistoryStore)
    (branch : TrackedBranch) (identity : Identity) (build : Nat) :
    s.record branch identity build status = (.ok (), (s.withBranch branch).insert branch identity
      ⟨((s.find? branch identity).getD .empty).runs ++ [⟨build, status⟩]⟩) := by
  simp only [record, append, (alike_withBranch s branch).find?,
    RunHistory.append_eq_ok_iff.2 ⟨hs, rfl⟩]

end HistoryStore

/-! ## Calls -/

/-- A call that changes the histories. -/
inductive HistoryCall where
  | insert (branch : TrackedBranch) (identity : Identity) (history : RunHistory)
  | append (branch : TrackedBranch) (identity : Identity) (build : Nat) (status : RunStatus)

namespace HistoryCall

open HistoryStore

def run : HistoryCall → HistoryStore → Except StorageError Unit × HistoryStore
  | insert branch identity history, s => (.ok (), s.insert branch identity history)
  | append branch identity build status, s => s.record branch identity build status

def branch : HistoryCall → TrackedBranch
  | insert branch _ _ | append branch _ _ _ => branch

def identity : HistoryCall → Identity
  | insert _ identity _ | append _ identity _ _ => identity

/-- Whether the call is for the branch and the identity. -/
def concerns (branch : TrackedBranch) (identity : Identity) (c : HistoryCall) : Bool :=
  c.branch = branch && c.identity = identity

def succeeds : HistoryCall → Bool
  | insert _ _ _ => true
  | append _ _ _ status => status ≠ .okOrFailure

/-- What a call makes of the history that it is for. -/
def update : HistoryCall → Option RunHistory → Option RunHistory
  | insert _ _ history, _ => some history
  | append _ _ build status, h =>
    if status = .okOrFailure then h else some ⟨(h.getD .empty).runs ++ [⟨build, status⟩]⟩

/-- The store after one call after the other. -/
def runAll (cs : List HistoryCall) (s : HistoryStore) : HistoryStore :=
  cs.foldl (fun s c => (c.run s).2) s

/-- What the calls for the branch and the identity make of nothing. -/
def replayed (cs : List HistoryCall) (branch : TrackedBranch) (identity : Identity) :
    Option RunHistory :=
  (cs.filter (concerns branch identity)).foldl (fun h c => c.update h) none

/-- The identities of the successful calls on a branch, each where it comes first. -/
def recordedOn (cs : List HistoryCall) (branch : TrackedBranch) : List Identity :=
  ((cs.filter fun c => c.branch = branch && c.succeeds).map identity).eraseDups

variable {s t : HistoryStore} {b : TrackedBranch} {i : Identity}

theorem concerns_iff {c : HistoryCall} : c.concerns b i = true ↔ c.branch = b ∧ c.identity = i := by
  unfold concerns
  rw [Bool.and_eq_true, decide_eq_true_iff, decide_eq_true_iff]

/-! ### One call -/

/-- What a call returns does not depend on what is stored. -/
theorem run_fst_congr (c : HistoryCall) (s t : HistoryStore) : (c.run s).1 = (c.run t).1 := by
  cases c with
  | insert b i history => rfl
  | append b i build status =>
    by_cases hs : status = .okOrFailure
    · subst hs
      rfl
    · rw [run, run, record_of_ne hs, record_of_ne hs]

theorem run_fst_eq_ok_iff (c : HistoryCall) (s : HistoryStore) :
    (c.run s).1 = .ok () ↔ c.succeeds = true := by
  cases c with
  | insert b i history => exact ⟨fun _ => rfl, fun _ => rfl⟩
  | append b i build status =>
    by_cases hs : status = .okOrFailure
    · subst hs
      exact iff_of_false (fun h => by cases h) fun h => by cases h
    · rw [run, record_of_ne hs]
      exact ⟨fun _ => by simpa [succeeds] using hs, fun _ => rfl⟩

/-- A call changes the history that it is for, and no other. -/
theorem find?_run (c : HistoryCall) (s : HistoryStore) (b : TrackedBranch) (i : Identity) :
    (c.run s).2.find? b i = if c.concerns b i then c.update (s.find? b i) else s.find? b i := by
  simp only [concerns_iff]
  cases c with
  | insert b' i' history => exact find?_insert s b' b i' i history
  | append b' i' build status =>
    by_cases hs : status = .okOrFailure
    · subst hs
      rw [run, record_of_wildcard, (alike_withBranch s b').find?]
      exact (ite_self _).symm
    · rw [run, record_of_ne hs, find?_insert, (alike_withBranch s b').find?]
      by_cases h : b' = b ∧ i' = i
      · obtain ⟨rfl, rfl⟩ := h
        rw [if_pos ⟨rfl, rfl⟩, if_pos ⟨rfl, rfl⟩, update, if_neg hs]
      · rw [if_neg h, branch, identity, if_neg h]

/-- A successful call adds its identity to those of its branch, unless it is there. -/
theorem identities_run (c : HistoryCall) (s : HistoryStore) (b : TrackedBranch) :
    (c.run s).2.identities b =
      if (c.branch = b ∧ c.succeeds = true) ∧ c.identity ∉ s.identities b then
        s.identities b ++ [c.identity]
      else s.identities b := by
  cases c with
  | insert b' i' history =>
    rw [run, identities_insert]
    simp only [branch, succeeds, identity, and_true]
  | append b' i' build status =>
    by_cases hs : status = .okOrFailure
    · subst hs
      rw [run, record_of_wildcard, (alike_withBranch s b').identities, if_neg]
      exact fun h => by cases h.1.2
    · have hsucceeds : (append b' i' build status).succeeds = true := by simpa [succeeds] using hs
      rw [run, record_of_ne hs, identities_insert, (alike_withBranch s b').identities, hsucceeds]
      simp only [branch, identity, and_true]

/-- Stores that look alike do so after the same call. -/
theorem alike_run (h : s.Alike t) (c : HistoryCall) : (c.run s).2.Alike (c.run t).2 := by
  cases c with
  | insert b i history => exact h.insert b i history
  | append b i build status =>
    have hwith : (s.withBranch b).Alike (t.withBranch b) := fun b' => by
      rw [listed_withBranch, listed_withBranch, h b']
    by_cases hs : status = .okOrFailure
    · subst hs
      exact hwith
    · rw [run, run, record_of_ne hs, record_of_ne hs, h.find?]
      exact hwith.insert b i _

/-- A refused call leaves its branch known, which nothing shows. -/
theorem alike_run_of_not_succeeds {c : HistoryCall} (hc : c.succeeds = false) (s : HistoryStore) :
    (c.run s).2.Alike s := by
  cases c with
  | insert b i history => cases hc
  | append b i build status =>
    have hs : status = .okOrFailure := by simpa [succeeds] using hc
    subst hs
    exact alike_withBranch s b

/-! ### One call after the other -/

theorem runAll_concat (cs : List HistoryCall) (c : HistoryCall) (s : HistoryStore) :
    runAll (cs ++ [c]) s = (c.run (runAll cs s)).2 := by
  rw [runAll, List.foldl_append]
  rfl

theorem runAll_append (cs ds : List HistoryCall) (s : HistoryStore) :
    runAll (cs ++ ds) s = runAll ds (runAll cs s) := by
  rw [runAll, List.foldl_append]
  rfl

theorem alike_runAll (h : s.Alike t) (cs : List HistoryCall) :
    (runAll cs s).Alike (runAll cs t) := by
  induction cs generalizing s t with
  | nil => exact h
  | cons c cs ih => exact ih (alike_run h c)

theorem replayed_concat (cs : List HistoryCall) (c : HistoryCall) (b : TrackedBranch)
    (i : Identity) : replayed (cs ++ [c]) b i =
      if c.concerns b i then c.update (replayed cs b i) else replayed cs b i := by
  unfold replayed
  rw [List.filter_append, List.foldl_append]
  by_cases hc : c.concerns b i = true
  · rw [if_pos hc, List.filter_cons_of_pos hc]
    rfl
  · rw [if_neg hc, List.filter_cons_of_neg hc]
    rfl

theorem find?_runAll (cs : List HistoryCall) (b : TrackedBranch) (i : Identity) :
    (runAll cs .empty).find? b i = replayed cs b i := by
  induction cs using List.reverseRecOn with
  | nil => rfl
  | append_singleton cs c ih => rw [runAll_concat, find?_run, replayed_concat, ih]

theorem recordedOn_concat (cs : List HistoryCall) (c : HistoryCall) (b : TrackedBranch) :
    recordedOn (cs ++ [c]) b =
      if (c.branch = b ∧ c.succeeds = true) ∧ c.identity ∉ recordedOn cs b then
        recordedOn cs b ++ [c.identity]
      else recordedOn cs b := by
  unfold recordedOn
  rw [List.filter_append]
  by_cases hc : c.branch = b ∧ c.succeeds = true
  · rw [List.filter_cons_of_pos (by simpa using hc), List.filter_nil, List.map_append,
      List.map_singleton, List.eraseDups_append]
    by_cases hmem : c.identity ∈ (cs.filter fun c => c.branch = b && c.succeeds).map identity
    · rw [if_neg fun h => h.2 (List.mem_eraseDups.2 hmem), List.removeAll,
        List.filter_cons_of_neg (by simpa [and_assoc] using hmem)]
      exact List.append_nil _
    · rw [if_pos ⟨hc, fun h => hmem (List.mem_eraseDups.1 h)⟩, List.removeAll,
        List.filter_cons_of_pos (by simpa [and_assoc] using hmem)]
      rfl
  · rw [List.filter_cons_of_neg (by simpa using hc), List.filter_nil, List.append_nil,
      if_neg fun h => hc h.1]

theorem identities_runAll (cs : List HistoryCall) (b : TrackedBranch) :
    (runAll cs .empty).identities b = recordedOn cs b := by
  induction cs using List.reverseRecOn with
  | nil => rfl
  | append_singleton cs c ih => rw [runAll_concat, identities_run, recordedOn_concat, ih]

theorem nodup_recordedOn (cs : List HistoryCall) (b : TrackedBranch) : (recordedOn cs b).Nodup := by
  induction cs using List.reverseRecOn with
  | nil => exact List.nodup_nil
  | append_singleton cs c ih =>
    rw [recordedOn_concat]
    split
    · rename_i hnew
      exact List.nodup_append.2 ⟨ih, List.nodup_singleton _, fun i hi j hj heq =>
        hnew.2 (List.mem_singleton.1 hj ▸ heq ▸ hi)⟩
    · exact ih

/-- A call leaves a history where there was one or where it succeeds. -/
theorem update_eq_none_iff (c : HistoryCall) (h : Option RunHistory) :
    c.update h = none ↔ h = none ∧ c.succeeds = false := by
  cases c with
  | insert b i history => exact iff_of_false (fun h => by cases h) fun h => by cases h.2
  | append b i build status =>
    by_cases hs : status = .okOrFailure
    · simp [update, succeeds, hs]
    · simp [update, succeeds, hs]

theorem replayed_eq_none_iff (cs : List HistoryCall) (b : TrackedBranch) (i : Identity) :
    replayed cs b i = none ↔ ∀ c ∈ cs, c.concerns b i = true → c.succeeds = false := by
  induction cs using List.reverseRecOn with
  | nil => exact iff_of_true rfl fun c h => by cases h
  | append_singleton cs c ih =>
    rw [replayed_concat, List.forall_mem_append, List.forall_mem_singleton, ← ih]
    by_cases hc : c.concerns b i = true
    · rw [if_pos hc, update_eq_none_iff]
      exact and_congr_right fun _ => ⟨fun h _ => h, fun h => h hc⟩
    · rw [if_neg hc]
      exact ⟨fun h => ⟨h, fun h' => absurd h' hc⟩, fun h => h.1⟩

/-- The store is the map of histories that the calls describe.  Each history is what its own calls
make of it, and there is none where none of them succeeded; the identities of a branch are those of
its successful calls, in the order of their first ones, and have a history each; a call fails only
on the wildcard, and then nothing that can be asked, then or later, is answered differently. -/
theorem stored_eq_replayed (cs : List HistoryCall) :
    (∀ b i, (runAll cs .empty).find? b i = replayed cs b i ∧
      ((runAll cs .empty).find? b i = none ↔
        ∀ c ∈ cs, c.concerns b i = true → c.succeeds = false)) ∧
    (∀ b, (runAll cs .empty).identities b = recordedOn cs b ∧
      ((runAll cs .empty).identities b).Nodup ∧
      ∀ i, i ∈ (runAll cs .empty).identities b ↔ ((runAll cs .empty).find? b i).isSome = true) ∧
    (∀ c : HistoryCall, (c.run (runAll cs .empty)).1 = .ok () ↔ c.succeeds = true) ∧
    ∀ b i n, (append b i n .okOrFailure |>.run (runAll cs .empty)).1 =
        .error (.invalidRecord (.wildcardStatus n)) ∧
      ∀ ds : List HistoryCall,
        let s := runAll (cs ++ ds) .empty
        let t := runAll (cs ++ append b i n .okOrFailure :: ds) .empty
        (∀ b' i', t.find? b' i' = s.find? b' i') ∧ (∀ b', t.identities b' = s.identities b') ∧
          ∀ d : HistoryCall, (d.run t).1 = (d.run s).1 := by
  refine ⟨fun b i => ⟨find?_runAll cs b i, ?_⟩, fun b => ⟨identities_runAll cs b, ?_, fun i => ?_⟩,
    fun c => run_fst_eq_ok_iff c _, fun b i n => ⟨rfl, fun ds => ?_⟩⟩
  · rw [find?_runAll, replayed_eq_none_iff]
  · rw [identities_runAll]
    exact nodup_recordedOn cs b
  · rw [mem_identities_iff, Option.isSome_iff_exists]
  · -- the refused call leaves stores that look alike, and later calls keep them so
    have halike : (runAll (cs ++ append b i n .okOrFailure :: ds) .empty).Alike
        (runAll (cs ++ ds) .empty) := by
      rw [runAll_append, runAll_append]
      exact alike_runAll (alike_run_of_not_succeeds rfl _) ds
    exact ⟨fun b' i' => halike.find?, fun b' => halike.identities, fun d => run_fst_congr d _ _⟩

/-- Two branches; on the first one a refused outcome comes before all else, and another one after
the history of the second identity has been replaced. -/
def twoBranches : List HistoryCall :=
  [.append ⟨"ci", "main"⟩ ⟨"login", none⟩ 1 .okOrFailure,
    .append ⟨"ci", "main"⟩ ⟨"export", some "reports"⟩ 1 .failure,
    .append ⟨"ci", "main"⟩ ⟨"login", none⟩ 2 .ok,
    .append ⟨"ci", "next"⟩ ⟨"login", none⟩ 3 .criticalFailure,
    .insert ⟨"ci", "main"⟩ ⟨"export", some "reports"⟩ ⟨[⟨7, .missing⟩]⟩,
    .append ⟨"ci", "main"⟩ ⟨"export", some "reports"⟩ 8 .okOrFailure,
    .append ⟨"ci", "main"⟩ ⟨"export", some "reports"⟩ 9 .ok]

theorem stored_eq_replayed_twoBranches :
    (runAll twoBranches .empty).identities ⟨"ci", "main"⟩ =
        [⟨"export", some "reports"⟩, ⟨"login", none⟩] ∧
      (runAll twoBranches .empty).find? ⟨"ci", "main"⟩ ⟨"export", some "reports"⟩ =
        some ⟨[⟨7, .missing⟩, ⟨9, .ok⟩]⟩ ∧
      (runAll twoBranches .empty).find? ⟨"ci", "next"⟩ ⟨"export", some "reports"⟩ = none ∧
      (runAll (twoBranches ++ [.append ⟨"ci", "old"⟩ ⟨"login", none⟩ 4 .okOrFailure])
        .empty).identities ⟨"ci", "old"⟩ = [] := by
  obtain ⟨hfind, hidentities, -, hrefused⟩ := stored_eq_replayed twoBranches
  have hrefused := (hrefused ⟨"ci", "old"⟩ ⟨"login", none⟩ 4).2 []
  refine ⟨?_, ?_, (hfind _ _).2.2 (by decide +kernel), ?_⟩
  · rw [(hidentities _).1]
    decide +kernel
  · rw [(hfind _ _).1]
    decide +kernel
  · rw [hrefused.2.1, List.append_nil, (hidentities _).1]
    decide +kernel

end HistoryCall

end Triage
