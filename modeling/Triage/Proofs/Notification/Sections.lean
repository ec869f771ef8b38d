import Triage.Proofs.Notification.Due

/-!
# The sections of a message

A message groups its issues by the id of their build and gives each id a section, which ends with the
changes that its last issue may come from (`sections_of_message`).  An id names a build of one server
only, so the builds of a message have sections of their own exactly if no two of them, on different
servers, have one id; else they share a section, and only the changes of the last issue are listed
(`sections_of_message_shared`).
-/

namespace Triage.Notification

/-! ### Lines -/

theorem plainText_true (i : Issue) : i.plainText true = i.plainText false ++ i.suspectsText := by
  unfold Issue.plainText
  simp

theorem issueLines_concat (earlier : List Issue) (last : Issue) :
    issueLines (earlier ++ [last]) = String.join (earlier.map fun i => i.plainText false ++ "\n") ++
      last.plainText true ++ "\n" := by
  induction earlier with
  | nil => simp [issueLines]
  | cons i is ih =>
    have hcons : issueLines (i :: (is ++ [last])) =
        i.plainText false ++ "\n" ++ issueLines (is ++ [last]) := by
      cases is <;> rfl
    rw [List.cons_append, hcons, ih]
    simp [String.append_assoc]

theorem sectionText_concat (build : Nat) (earlier : List Issue) (last : Issue) :
    sectionText build (earlier ++ [last]) = s!"Build {build}\n" ++
      String.join (earlier.map fun i => i.plainText false ++ "\n") ++ last.plainText false ++
      last.suspectsText ++ "\n\n" := by
  unfold sectionText
  rw [issueLines_concat, plainText_true]
  simp [String.append_assoc]

/-! ### Grouping -/

/-- The issues whose builds have the id. -/
def withId (is : List Issue) (build : Nat) : List Issue := is.filter fun i => i.key.build = build

theorem find?_byBuild_compose (a : String) (is : List Issue) (build : Nat) :
    (compose a is).byBuild.find? build =
      if withId is build = [] then none else some (withId is build) := by
  induction is using List.reverseRecOn with
  | nil => rfl
  | append_singleton is i ih =>
    have hwith : withId (is ++ [i]) build =
        withId is build ++ if i.key.build = build then [i] else [] := by
      unfold withId
      rw [List.filter_append, List.filter_singleton]
      by_cases hi : i.key.build = build <;> simp [hi]
    rw [compose_concat, hwith]
    unfold add
    rw [OrderedMap.find?_insert]
    by_cases hi : i.key.build = build
    · rw [if_pos hi, hi, ih]
      by_cases hnil : withId is build = [] <;> simp [hnil]
    · rw [if_neg hi, ih]
      simp [hi]

theorem mem_byBuild_entries {a : String} {is : List Issue} {e : Nat × List Issue} :
    e ∈ (compose a is).byBuild.entries ↔ e.2 ≠ [] ∧ e.2 = withId is e.1 := by
  obtain ⟨build, group⟩ := e
  rw [OrderedMap.mem_entries_iff, find?_byBuild_compose]
  by_cases hnil : withId is build = []
  · simp only [hnil, if_true]
    grind
  · simp only [hnil, if_false, Option.some.injEq]
    grind

theorem mem_byBuild_keys {a : String} {is : List Issue} {build : Nat} :
    build ∈ (compose a is).byBuild.keys ↔ ∃ i ∈ is, i.key.build = build := by
  have hnil : withId is build = [] ↔ ∀ i ∈ is, ¬ i.key.build = build := by
    unfold withId
    rw [List.filter_eq_nil_iff]
    simp
  rw [OrderedMap.mem_keys_iff, find?_byBuild_compose]
  by_cases hempty : withId is build = []
  · simpa [hempty] using hnil.1 hempty
  · simpa [hempty] using mt hnil.2 hempty

/-! ### Builds that share an id -/

/-- The issues of a build. -/
def ofBuild (is : List Issue) (r : BuildRef) : List Issue := is.filter fun i => i.key.ref = r

/-- No two builds of the issues, on different servers, have one id. -/
def IdsDiffer (is : List Issue) : Prop :=
  ∀ i ∈ is, ∀ j ∈ is, i.key.build = j.key.build → i.key.server = j.key.server

theorem ref_eq_iff {i : Issue} {r : BuildRef} :
    i.key.ref = r ↔ i.key.build = r.build ∧ i.key.server = r.server := by
  cases r
  simp [IssueKey.ref, and_comm]

/-- The issues with the id of a build are those of the build, unless another build has its id. -/
theorem withId_eq_ofBuild_iff {is : List Issue} {r : BuildRef} :
    withId is r.build = ofBuild is r ↔
      ∀ i ∈ is, i.key.build = r.build → i.key.server = r.server := by
  unfold withId ofBuild
  constructor
  · intro heq i hi hid
    have hmem : i ∈ is.filter fun i => i.key.build = r.build :=
      List.mem_filter.2 ⟨hi, by simpa using hid⟩
    rw [heq] at hmem
    exact (ref_eq_iff.1 (by simpa using (List.mem_filter.1 hmem).2)).2
  · intro hserver
    refine List.filter_congr fun i hi => decide_eq_decide.2 ?_
    rw [ref_eq_iff]
    exact ⟨fun hid => ⟨hid, hserver i hi hid⟩, And.left⟩

/-- As many builds as ids are the case exactly if the ids differ. -/
theorem card_refs_eq_iff {is : List Issue} {ids : List Nat} (hnodup : ids.Nodup)
    (hids : ∀ build, build ∈ ids ↔ ∃ i ∈ is, i.key.build = build) :
    ids.length = (is.map (·.key.ref)).toFinset.card ↔ IdsDiffer is := by
  have himage : ids.toFinset = (is.map (·.key.ref)).toFinset.image BuildRef.build := by
    ext build
    simp [hids, IssueKey.ref]
  rw [← List.toFinset_card_of_nodup hnodup, himage, Finset.card_image_iff]
  constructor
  · intro hinj i hi j hj hid
    have href := hinj (by simpa using ⟨i, hi, rfl⟩) (by simpa using ⟨j, hj, rfl⟩)
      (show i.key.ref.build = j.key.ref.build from hid)
    exact congrArg BuildRef.server href
  · intro hdiffer r hr r' hr' hid
    obtain ⟨i, hi, rfl⟩ : ∃ i ∈ is, i.key.ref = r := by simpa using hr
    obtain ⟨j, hj, rfl⟩ : ∃ j ∈ is, j.key.ref = r' := by simpa using hr'
    exact ref_eq_iff.2 ⟨hid, hdiffer i hi j hj hid⟩

/-! ### The message -/

/-- The body has one section for each id of a build, which holds the issues of this id in the order in
which they were added and ends with the changes of the last one; the subject lists these ids.  A build
has a section of its own exactly if no other build has its id, and the ids are as many as the builds
exactly if no two builds have one id. -/
theorem sections_of_message (a : String) (is : List Issue) :
    ∃ sections : List (Nat × List Issue),
      (compose a is).body = String.join (sections.map fun e => sectionText e.1 e.2) ∧
      (compose a is).subject = "[healthbot]: " ++ toString is.length ++ " new failures in builds [" ++
        ", ".intercalate (sections.map fun e => toString e.1) ++ "] need to be handled" ∧
      (sections.map (·.1)).Pairwise (· < ·) ∧
      (∀ build, build ∈ sections.map (·.1) ↔ ∃ i ∈ is, i.key.build = build) ∧
      (∀ e ∈ sections, e.2 = withId is e.1 ∧ ∃ earlier last, e.2 = earlier ++ [last] ∧
        sectionText e.1 e.2 = "Build " ++ toString e.1 ++ "\n" ++
          String.join (earlier.map fun i => i.plainText false ++ "\n") ++ last.plainText false ++
          last.suspectsText ++ "\n\n") ∧
      (∀ r ∈ is.map (·.key.ref), (∃ e ∈ sections, e.2 = ofBuild is r) ↔
        ∀ i ∈ is, i.key.build = r.build → i.key.server = r.server) ∧
      (sections.length = (is.map (·.key.ref)).toFinset.card ↔ IdsDiffer is) := by
  have hids : ∀ build, build ∈ (compose a is).byBuild.keys ↔ ∃ i ∈ is, i.key.build = build :=
    fun _ => mem_byBuild_keys
  refine ⟨(compose a is).byBuild.entries, rfl, ?_, List.pairwise_map.2 (compose a is).byBuild.sorted,
    hids, fun e he => ?_, fun r hr => ?_, ?_⟩
  · unfold subject OrderedMap.keys
    rw [(issues_compose_perm a is).length_eq, List.map_map]
    rfl
  · obtain ⟨hne, hgroup⟩ := mem_byBuild_entries.1 he
    refine ⟨hgroup, e.2.dropLast, e.2.getLast hne, (List.dropLast_append_getLast hne).symm, ?_⟩
    have htext := sectionText_concat e.1 e.2.dropLast (e.2.getLast hne)
    rw [List.dropLast_append_getLast hne] at htext
    exact htext
  · rw [← withId_eq_ofBuild_iff]
    obtain ⟨i, hi, rfl⟩ := List.mem_map.1 hr
    have hof : i ∈ ofBuild is i.key.ref := List.mem_filter.2 ⟨hi, by simp⟩
    constructor
    · rintro ⟨e, he, heq⟩
      obtain ⟨-, hgroup⟩ := mem_byBuild_entries.1 he
      -- the section holds the issue, so it is the one of its id
      rw [← heq, hgroup] at hof
      have hid : i.key.build = e.1 := by simpa using (List.mem_filter.1 hof).2
      rw [← heq, hgroup, ← hid]
      rfl
    · intro heq
      refine ⟨(i.key.build, ofBuild is i.key.ref), mem_byBuild_entries.2 ⟨?_, heq.symm⟩, rfl⟩
      exact List.ne_nil_of_mem hof
  · have hlength : (compose a is).byBuild.entries.length = (compose a is).byBuild.keys.length :=
      List.length_map _ |>.symm
    rw [hlength]
    exact card_refs_eq_iff (OrderedMap.nodup_keys _) hids

/-! ### One id on two servers -/

/-- Issues of two builds with one id; only the first one comes with a change. -/
def sharedId : List Issue :=
  [{ Issue.make ⟨"apache", 10, "t1"⟩ .newFailure (.ofMillis 1700000000000) with
      changes := [⟨"dev01", none⟩] },
    Issue.make ⟨"ignite", 10, "t2"⟩ .newFailure (.ofMillis 1700000000000)]

/-- Two builds, one section, and the change of the first build is not in the message. -/
theorem sections_of_message_shared :
    (sharedId.map (·.key.ref)).toFinset.card = 2 ∧
      (compose "dev" sharedId).subject =
        "[healthbot]: 2 new failures in builds [10] need to be handled" ∧
      (compose "dev" sharedId).body =
        "Build 10\nNew test failure t1\nNew test failure t2\n No changes in the build\n\n" := by
  decide +kernel

end Triage.Notification
