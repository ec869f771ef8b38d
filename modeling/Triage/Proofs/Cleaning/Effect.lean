import Triage.Proofs.Cleaning

/-!
# The exact effect of a removal run

A run is described by what the stores held before it: which defects lack a member, which are overdue,
and which issues are stale.  `clean_effect` says what every look-up gives afterwards and what the
report counts.
-/

namespace Triage

theorem Defect.mem_memberRefs {d : Defect} {r : BuildRef} :
    r ∈ d.memberRefs ↔ d.server = r.server ∧ d.hasBuild r.build = true := by
  unfold memberRefs hasBuild
  rw [OrderedMap.contains_iff_mem_keys, List.mem_map]
  constructor
  · rintro ⟨b, hb, rfl⟩
    exact ⟨rfl, hb⟩
  · rintro ⟨hserver, hb⟩
    exact ⟨r.build, hb, by rw [hserver]⟩

namespace DefectStore

theorem keyed_iff {s : DefectStore} : s.Keyed ↔ ∀ e ∈ s.defects.entries, e.2.id = e.1 :=
  ⟨fun h _ he => h (OrderedMap.mem_entries_iff.1 he), fun h _ _ hd =>
    h _ (OrderedMap.mem_entries_iff.2 hd)⟩

theorem mem_openDefects {s : DefectStore} {d : Defect} :
    d ∈ s.openDefects ↔ (∃ id, s.find? id = some d) ∧ d.isOpen = true := by
  unfold openDefects
  rw [List.mem_filter, mem_all_iff]

/-- Whether the build is a member of an open defect. -/
def hasInOpen (s : DefectStore) (r : BuildRef) : Bool :=
  s.all.any fun d => d.isOpen && decide (d.server = r.server) && d.hasBuild r.build

theorem hasInOpen_iff {s : DefectStore} {r : BuildRef} :
    s.hasInOpen r = true ↔ ∃ id d, s.find? id = some d ∧ d.isOpen = true ∧ r ∈ d.memberRefs := by
  unfold hasInOpen
  simp only [List.any_eq_true, mem_all_iff, Bool.and_eq_true, decide_eq_true_eq,
    Defect.mem_memberRefs, and_assoc]
  constructor
  · rintro ⟨d, ⟨id, hd⟩, h⟩
    exact ⟨id, d, hd, h⟩
  · rintro ⟨id, d, hd, h⟩
    exact ⟨d, ⟨id, hd⟩, h⟩

end DefectStore

namespace Cleaning

open DefectStore

/-! ### Defects -/

section Defects

variable (builds : OrderedMap BuildRef BuildSnapshot)

/-- Some member of the defect cannot be looked up. -/
def lacksMember (d : Defect) : Bool := d.memberRefs.any fun r => (builds.find? r).isNone

/-- Resolved before the threshold, with every member known. -/
def isOverdue (threshold : Timestamp) (d : Defect) : Bool :=
  d.resolvedAt.any (fun t => t < threshold) && !lacksMember builds d

theorem wanted_eq (d : Defect) :
    wanted builds d = if lacksMember builds d then .broken else .consistent := by
  have h : (d.memberRefs.find? fun r => (builds.find? r).isNone).isSome = lacksMember builds d := by
    rw [Bool.eq_iff_iff, List.find?_isSome, lacksMember, List.any_eq_true]
  unfold wanted
  simp only [h]

theorem isOld_marked (threshold : Timestamp) (d : Defect) :
    isOld threshold (marked builds d) = isOverdue builds threshold d := by
  unfold isOld isOverdue marked
  rw [wanted_eq]
  cases lacksMember builds d <;> simp

/-- A check counts the marks that it sets and those that it takes away. -/
theorem foldl_tally (ds : List Defect) (counts : Nat × Nat) :
    ds.foldl (tally builds) counts =
      (counts.1 + ds.countP fun d => d.consistency = .consistent && lacksMember builds d,
        counts.2 + ds.countP fun d => d.consistency = .broken && !lacksMember builds d) := by
  induction ds generalizing counts with
  | nil => rfl
  | cons d ds ih =>
    rw [List.foldl_cons, ih, List.countP_cons, List.countP_cons]
    unfold tally
    rw [wanted_eq]
    cases hc : d.consistency <;> cases hl : lacksMember builds d <;> simp <;> omega

end Defects

variable {s : Stores} {threshold : Timestamp} {budget : Nat}

theorem defects_remarked (hs : s.defects.Keyed) :
    (remarked s).defects = s.defects.defects.mapValues (marked s.builds) := by
  refine OrderedMap.ext_find? fun k => ?_
  rw [OrderedMap.find?_mapValues]
  exact find?_remarked hs k

/-- The ids of the defects that a run removes. -/
def overdueIds (s : Stores) (threshold : Timestamp) (budget : Nat) : List Nat :=
  ((s.defects.all.filter (isOverdue s.builds threshold)).take budget).map (·.id)

theorem removed_eq_overdueIds (hs : s.defects.Keyed) (threshold : Timestamp) (budget : Nat) :
    (((remarked s).defects.entries.filter fun e => isOld threshold e.2).take budget).map (·.1) =
      overdueIds s threshold budget := by
  have hkey : ∀ e ∈ s.defects.defects.entries, e.2.id = e.1 := keyed_iff.1 hs
  unfold overdueIds all OrderedMap.values
  rw [defects_remarked hs, OrderedMap.mapValues, List.filter_map, List.filter_map, ← List.map_take,
    ← List.map_take, List.map_map, List.map_map]
  have hold : ((fun e => isOld threshold e.2) ∘ fun e : Nat × Defect => (e.1, marked s.builds e.2)) =
      isOverdue s.builds threshold ∘ fun e => e.2 := by
    funext e
    exact isOld_marked s.builds threshold e.2
  rw [hold]
  refine List.map_congr_left fun e he => ?_
  exact (hkey e (List.mem_of_mem_filter (List.mem_of_mem_take he))).symm

/-- The defects after a run: the overdue ones with the smallest ids are gone, and the others have
their marks brought up to date. -/
theorem find?_remaining (hs : s.defects.Keyed) (threshold : Timestamp) (budget k : Nat) :
    (remaining threshold budget s).find? k =
      if k ∈ overdueIds s threshold budget then none
      else (s.defects.find? k).map (marked s.builds) := by
  have hremove := OrderedMap.find?_removeFirst (remarked s).defects (isOld threshold) budget k
  rw [removed_eq_overdueIds hs] at hremove
  have hmarked := find?_remarked hs k
  unfold find? at hmarked
  rw [hmarked] at hremove
  exact hremove

theorem not_mem_overdueIds (hs : s.defects.Keyed) {k : Nat} {d : Defect}
    (hd : s.defects.find? k = some d) (h : isOverdue s.builds threshold d = false) :
    k ∉ overdueIds s threshold budget := by
  intro hk
  obtain ⟨d', hd', rfl⟩ := List.mem_map.1 hk
  obtain ⟨hmem, hover⟩ := List.mem_filter.1 (List.mem_of_mem_take hd')
  rw [hs.find?_of_mem_all hmem] at hd
  cases hd
  rw [h] at hover
  cases hover

/-- A budget as large as the number of overdue defects suffices for each of them. -/
theorem mem_overdueIds_of_le (hs : s.defects.Keyed) {k : Nat} {d : Defect}
    (hd : s.defects.find? k = some d) (h : isOverdue s.builds threshold d = true)
    (hle : (s.defects.all.filter (isOverdue s.builds threshold)).length ≤ budget) :
    k ∈ overdueIds s threshold budget := by
  refine List.mem_map.2 ⟨d, ?_, hs hd⟩
  rw [List.take_of_length_le hle]
  exact List.mem_filter.2 ⟨mem_all_iff.2 ⟨k, hd⟩, h⟩

theorem isOverdue_of_isOpen {builds : OrderedMap BuildRef BuildSnapshot} {d : Defect}
    (h : d.isOpen = true) : isOverdue builds threshold d = false := by
  unfold Defect.isOpen at h
  unfold isOverdue
  rw [Option.isNone_iff_eq_none.1 h]
  rfl

/-- A run removes no open defect, so the builds of open defects are the same before and after. -/
theorem contains_buildsOf_remaining (hs : s.defects.Keyed) (threshold : Timestamp) (budget : Nat)
    (r : BuildRef) :
    (buildsOf (remaining threshold budget s).openDefects).contains r = s.defects.hasInOpen r := by
  rw [Bool.eq_iff_iff, hasInOpen_iff]
  unfold OrderedSet.contains buildsOf
  rw [decide_eq_true_iff, OrderedSet.mem_ofList, List.mem_flatMap]
  constructor
  · rintro ⟨d, hd, hr⟩
    obtain ⟨⟨id, hid⟩, ho⟩ := mem_openDefects.1 hd
    rw [find?_remaining hs] at hid
    split at hid
    · cases hid
    · obtain ⟨d₀, hd₀, rfl⟩ := Option.map_eq_some_iff.1 hid
      exact ⟨id, d₀, hd₀, ho, hr⟩
  · rintro ⟨id, d, hd, ho, hr⟩
    refine ⟨marked s.builds d, mem_openDefects.2 ⟨⟨id, ?_⟩, ho⟩, hr⟩
    rw [find?_remaining hs, if_neg (not_mem_overdueIds hs hd (isOverdue_of_isOpen ho)), hd]
    rfl

theorem count_removed (hs : s.defects.Keyed) (threshold : Timestamp) (budget : Nat) :
    ((remarked s).removeOld threshold budget).1 =
      min budget (s.defects.all.filter (isOverdue s.builds threshold)).length := by
  have hcount : (remarked s).defects.values.countP (isOld threshold) =
      s.defects.all.countP (isOverdue s.builds threshold) := by
    rw [defects_remarked hs]
    unfold OrderedMap.values OrderedMap.mapValues all OrderedMap.values
    rw [List.map_map, List.countP_map, List.countP_map]
    exact List.countP_congr fun e _ => by
      simp only [Function.comp, isOld_marked]
  rw [← List.countP_eq_length_filter, ← hcount]
  exact OrderedMap.size_sub_removeFirst _ _ _

/-! ### Issues -/

/-- Detected before the threshold, in a build that is in no open defect. -/
def isStale (s : Stores) (threshold : Timestamp) (i : Issue) : Bool :=
  i.detectedAt < threshold && !s.defects.hasInOpen i.key.ref

/-- The stored issues that are stale, with their keys, in the order of these. -/
def staleEntries (s : Stores) (threshold : Timestamp) : List (IssueKey × Issue) :=
  s.issues.issues.entries.filter fun e => isStale s threshold e.2

theorem isOld_eq_isStale (hs : s.defects.Keyed) (threshold : Timestamp) (budget : Nat) :
    IssueStore.isOld threshold (buildsOf (remaining threshold budget s).openDefects) =
      isStale s threshold := by
  funext i
  unfold IssueStore.isOld isStale
  rw [contains_buildsOf_remaining hs]

theorem find?_remainingIssues (hs : s.defects.Keyed) (threshold : Timestamp) (budget : Nat)
    (k : IssueKey) :
    (remainingIssues threshold budget s).find? k =
      if k ∈ ((staleEntries s threshold).take budget).map (·.1) then none
      else s.issues.find? k := by
  unfold remainingIssues IssueStore.removeOld
  rw [isOld_eq_isStale hs]
  exact OrderedMap.find?_removeFirst s.issues.issues (isStale s threshold) budget k

theorem count_removedIssues (hs : s.defects.Keyed) (threshold : Timestamp) (budget : Nat) :
    (s.issues.removeOld threshold budget
      (buildsOf (remaining threshold budget s).openDefects)).1 =
        min budget (staleEntries s threshold).length := by
  unfold IssueStore.removeOld staleEntries
  rw [isOld_eq_isStale hs, ← List.countP_eq_length_filter]
  have hcount : s.issues.issues.values.countP (isStale s threshold) =
      s.issues.issues.entries.countP fun e => isStale s threshold e.2 := List.countP_map
  rw [← hcount]
  exact OrderedMap.size_sub_removeFirst _ _ _

/-! ### Whole runs -/

/-- A run removes the overdue defects with the smallest ids and the stale issues with the smallest
keys, as many of each as its budget allows; it brings the mark of every other defect up to date and
changes nothing else; and it reports how many marks it set and took away and how much it removed. -/
theorem clean_effect (hs : s.defects.Keyed) {cfg : CleanerConfig} (he : cfg.enabled = true)
    {now : Timestamp} (ht : now.minusDays cfg.safeDays = .ok threshold) :
    ∃ defects issues,
      (clean cfg now).exec s =
        (.ok
          { flagged := s.defects.all.countP fun d =>
              d.consistency = .consistent && lacksMember s.builds d
            restored := s.defects.all.countP fun d =>
              d.consistency = .broken && !lacksMember s.builds d
            defects := min cfg.budget (s.defects.all.filter (isOverdue s.builds threshold)).length
            issues := min cfg.budget (staleEntries s threshold).length },
          { s with defects, issues }) ∧
      defects.lastId = s.defects.lastId ∧
      (∀ id, defects.find? id =
        if id ∈ overdueIds s threshold cfg.budget then none
        else (s.defects.find? id).map fun d =>
          { d with consistency := if lacksMember s.builds d then .broken else .consistent }) ∧
      (∀ id d, s.defects.find? id = some d → d.isOpen = true ∨ lacksMember s.builds d = true →
        (defects.find? id).isSome) ∧
      (∀ key, issues.find? key =
        if key ∈ ((staleEntries s threshold).take cfg.budget).map (·.1) then none
        else s.issues.find? key) := by
  have hfind := find?_remaining hs threshold cfg.budget
  refine ⟨remaining threshold cfg.budget s, remainingIssues threshold cfg.budget s, ?_, ?_, ?_, ?_,
    find?_remainingIssues hs threshold cfg.budget⟩
  · rw [exec_clean_of_ok hs he ht, foldl_tally, count_removed hs, count_removedIssues hs,
      Nat.zero_add, Nat.zero_add]
  · exact lastId_remark _ _ _
  · intro id
    have hmark : marked s.builds = fun d =>
        { d with consistency := if lacksMember s.builds d then .broken else .consistent } := by
      funext d
      rw [marked, wanted_eq]
    rw [hfind, hmark]
  · intro id d hd hguard
    have hover : isOverdue s.builds threshold d = false := by
      rcases hguard with ho | hl
      · exact isOverdue_of_isOpen ho
      · simp [isOverdue, hl]
    rw [hfind, if_neg (not_mem_overdueIds hs hd hover), hd]
    rfl

/-- The defect may be removed by a run for its age. -/
def IsExpired (cfg : CleanerConfig) (now : Timestamp) (s : Stores) (d : Defect) : Prop :=
  cfg.enabled = true ∧ ∃ threshold, now.minusDays cfg.safeDays = .ok threshold ∧
    isOverdue s.builds threshold d = true

/-- What a run makes of each defect: nothing, or its mark is brought up to date, or it is gone for its
age. -/
theorem find?_clean (hs : s.defects.Keyed) (cfg : CleanerConfig) (now : Timestamp) (id : Nat) :
    ((clean cfg now).exec s).2.defects.find? id = s.defects.find? id ∨
      ((clean cfg now).exec s).2.defects.find? id =
        (s.defects.find? id).map (marked s.builds) ∨
      (((clean cfg now).exec s).2.defects.find? id = none ∧
        ∃ d, s.defects.find? id = some d ∧ IsExpired cfg now s d) := by
  cases he : cfg.enabled with
  | false =>
    rw [exec_clean_of_disabled he]
    exact .inl rfl
  | true =>
    cases ht : now.minusDays cfg.safeDays with
    | error o =>
      rw [exec_clean_of_error he ht]
      exact .inl rfl
    | ok threshold =>
      rw [exec_clean_of_ok hs he ht]
      have hfind := find?_remaining hs threshold cfg.budget id
      split at hfind
      · rename_i hmem
        obtain ⟨d, hd, rfl⟩ := List.mem_map.1 hmem
        obtain ⟨hstored, hover⟩ := List.mem_filter.1 (List.mem_of_mem_take hd)
        exact .inr (.inr ⟨hfind, d, hs.find?_of_mem_all hstored, he, threshold, ht, hover⟩)
      · exact .inr (.inl hfind)

theorem keyed_clean (hs : s.defects.Keyed) (cleaner : CleanerConfig) (now : Timestamp) :
    ((clean cleaner now).exec s).2.defects.Keyed := by
  intro id d' hd'
  rcases find?_clean hs cleaner now id with h | h | ⟨h, -⟩
  · exact hs (h.symm.trans hd')
  · obtain ⟨d, hd, rfl⟩ := Option.map_eq_some_iff.1 (h.symm.trans hd')
    have hid : d.id = id := hs hd
    exact hid
  · cases h.symm.trans hd'

theorem IsExpired.notOpen {cfg : CleanerConfig} {now : Timestamp} {d : Defect}
    (h : IsExpired cfg now s d) : d.isOpen = false ∧ lacksMember s.builds d = false := by
  obtain ⟨-, threshold, -, hover⟩ := h
  constructor
  · by_contra hopen
    rw [isOverdue_of_isOpen (by simpa using hopen)] at hover
    cases hover
  · unfold isOverdue at hover
    simpa using (Bool.and_eq_true_iff.1 hover).2

/-! ### Records of every kind -/

def mixedTime : Timestamp := .ofMillis 1700000000000

def mixedBuild (n : Nat) : BuildSnapshot := ⟨"apache", n, none, none, [], [], .empty⟩

/-- A defect of one build, open unless it has been resolved. -/
def mixedDefect (id build : Nat) (resolvedAt : Option Timestamp) (c : Consistency) : Defect :=
  { Defect.make id "apache" default with
    members := OrderedMap.empty.insert build (.ofSnapshot (mixedBuild build))
    resolvedAt
    consistency := c }

def mixedIssue (n : Nat) (detectedAt : Timestamp) : Issue := .make ⟨"apache", n, "t"⟩ .newFailure detectedAt

/-- All builds but the third are known.  Of the defects, two are open, one of them without its build;
three were resolved long ago, one of them without its build and one with a mark that it no longer
deserves.  All issues but the last are old. -/
def mixed : Stores where
  histories := .empty
  builds := .ofList ([1, 2, 4, 6].map fun n => (⟨"apache", n⟩, mixedBuild n))
  defects :=
    [mixedDefect 1 1 none .consistent, mixedDefect 2 2 (some default) .broken,
      mixedDefect 3 3 (some default) .consistent, mixedDefect 4 4 (some default) .consistent,
      mixedDefect 5 3 none .broken].foldl (·.save ·) ⟨.empty, 5⟩
  issues := [mixedIssue 1 default, mixedIssue 2 default, mixedIssue 4 default,
    mixedIssue 6 mixedTime].foldl (·.save ·) .empty

/-- With a budget of one, the second defect goes and the fourth stays, although both are overdue; and
of the issues goes the one of the second build, since the first build is in an open defect. -/
theorem clean_effect_mixed :
    mixed.defects.Keyed ∧ mixedTime.minusDays 1 = .ok (.ofMillis 1699913600000) ∧
    ∃ defects issues,
      (clean ⟨true, 1, 1, 0⟩ mixedTime).exec mixed =
        (.ok ⟨1, 1, 1, 1⟩, { mixed with defects, issues }) ∧
      (∀ id, defects.find? id =
        if id ∈ [2] then none
        else (mixed.defects.find? id).map fun d =>
          { d with consistency := if lacksMember mixed.builds d then .broken else .consistent }) ∧
      (∀ key, issues.find? key =
        if key ∈ [⟨"apache", 2, "t"⟩] then none else mixed.issues.find? key) := by
  have hs : mixed.defects.Keyed := keyed_iff.2 (by decide +kernel)
  have ht : mixedTime.minusDays 1 = .ok (.ofMillis 1699913600000) := by decide +kernel
  have he : (⟨true, 1, 1, 0⟩ : CleanerConfig).enabled = true := rfl
  obtain ⟨defects, issues, hexec, -, hdefects, -, hissues⟩ := clean_effect hs he ht
  have hids : overdueIds mixed (.ofMillis 1699913600000) 1 = [2] := by decide +kernel
  have hkeys : ((staleEntries mixed (.ofMillis 1699913600000)).take 1).map (·.1) =
      [⟨"apache", 2, "t"⟩] := by decide +kernel
  refine ⟨hs, ht, defects, issues, hexec, ?_, ?_⟩
  · rw [← hids]
    exact hdefects
  · rw [← hkeys]
    exact hissues

end Cleaning

end Triage
