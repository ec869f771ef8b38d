import Triage.Proofs.Clustering.Idempotence

/-!
# The report of a pass

What a pass counts is what it has done: the ids of the defects and of the superseded ones grow by as
many as the report says (`Accounted`), and an issue whose build is unknown moves no count but its own
(`SameChanges`).  With `Settled` from the repetition of a pass this says where each recent issue is
afterwards (`Reachable.cluster_report`).
-/

namespace Triage

/-- The issue is in the entry that the defect has of the build. -/
def Issue.AttachedTo (i : Issue) (b : BuildSnapshot) (d : Defect) : Prop :=
  d.server = b.server ∧
    ∃ m, d.members.find? b.build = some m ∧ m.hasIssue i.type i.key.name = true

namespace DefectStore

/-- The ids of the stored defects. -/
def ids (s : DefectStore) : Finset Nat := s.defects.keys.toFinset

/-- The ids of the stored defects that another one took over. -/
def supersededIds (s : DefectStore) : Finset Nat :=
  s.ids.filter fun id => (s.find? id).any (·.supersededBy.isSome)

variable {s : DefectStore} {id : Nat}

theorem mem_ids : id ∈ s.ids ↔ ∃ d, s.find? id = some d := by
  unfold ids
  rw [List.mem_toFinset, OrderedMap.mem_keys_iff, Option.isSome_iff_exists]
  rfl

theorem mem_supersededIds :
    id ∈ s.supersededIds ↔ ∃ d, s.find? id = some d ∧ d.supersededBy.isSome := by
  unfold supersededIds
  rw [Finset.mem_filter, mem_ids, Option.any_eq_true]
  constructor
  · rintro ⟨-, d, hd, hsup⟩
    exact ⟨d, hd, hsup⟩
  · rintro ⟨d, hd, hsup⟩
    exact ⟨⟨d, hd⟩, d, hd, hsup⟩

end DefectStore

namespace Clustering

open DefectStore

variable {s : DefectStore} {b : BuildSnapshot} {i : Issue} {now : Timestamp}

/-! ### The ids after a placement -/

/-- The id of the defect that a placement starts, if it does. -/
def Placement.newIds (s : DefectStore) : Placement → Finset Nat
  | started => {s.lastId + 1}
  | _ => ∅

/-- The ids of the defects that a placement has taken over. -/
def Placement.closedIds : Placement → Finset Nat
  | joined _ others => others.toFinset
  | _ => ∅

@[simp] theorem Placement.newIds_held (s : DefectStore) (d : Defect) : (held d).newIds s = ∅ := rfl

@[simp] theorem Placement.newIds_joined (s : DefectStore) (target : Nat) (others : List Nat) :
    (joined target others).newIds s = ∅ := rfl

@[simp] theorem Placement.newIds_started (s : DefectStore) :
    started.newIds s = {s.lastId + 1} := rfl

@[simp] theorem Placement.closedIds_held (d : Defect) : (held d).closedIds = ∅ := rfl

@[simp] theorem Placement.closedIds_joined (target : Nat) (others : List Nat) :
    (joined target others).closedIds = others.toFinset := rfl

@[simp] theorem Placement.closedIds_started : started.closedIds = ∅ := rfl

theorem ids_placed (hs : s.WellFormed) (now : Timestamp) (i : Issue) (b : BuildSnapshot) :
    (placed now i b s).ids = s.ids ∪ (placement b s).newIds s := by
  ext id
  rw [Finset.mem_union, mem_ids, mem_ids]
  constructor
  · rintro ⟨d', hd'⟩
    rcases becomes_of_find?_placed hs hd' with ⟨d, hd, -⟩ | ⟨hp, rfl, -⟩
    · exact .inl ⟨d, hd⟩
    · rw [hp]
      exact .inr (Finset.mem_singleton_self _)
  · rintro (⟨d, hd⟩ | hnew)
    · obtain ⟨d', hd', -⟩ := exists_becomes hs now i b hd
      exact ⟨d', hd'⟩
    · cases hp : placement b s with
      | held => simp [hp] at hnew
      | joined => simp [hp] at hnew
      | started =>
        rw [hp, Placement.newIds_started, Finset.mem_singleton] at hnew
        unfold placed
        rw [hp, find?_result_started, if_pos hnew.symm]
        exact ⟨_, rfl⟩

theorem supersededIds_placed (hs : s.WellFormed) (now : Timestamp) (i : Issue)
    (b : BuildSnapshot) :
    (placed now i b s).supersededIds = s.supersededIds ∪ (placement b s).closedIds := by
  ext id
  rw [Finset.mem_union, mem_supersededIds, mem_supersededIds]
  constructor
  · rintro ⟨d', hd', hsup⟩
    rcases becomes_of_find?_placed hs hd' with ⟨d, hd, hb⟩ | ⟨-, -, rfl⟩
    · cases hb with
      | same => exact .inl ⟨d', hd, hsup⟩
      | held => exact .inl ⟨d, hd, (attached_sameStanding i b d).supersededBy ▸ hsup⟩
      | target => exact .inl ⟨d, hd, (joined_sameStanding i b _ d).supersededBy ▸ hsup⟩
      | takenOver hp hmem =>
        rw [hp, Placement.closedIds_joined, List.mem_toFinset, ← hs.keyed hd]
        exact .inr hmem
    · rw [(firstDefect_sameStanding now i b s).supersededBy] at hsup
      cases hsup
  · rintro (⟨d, hd, hsup⟩ | hclosed)
    · obtain ⟨d', hd', hb⟩ := exists_becomes hs now i b hd
      refine ⟨d', hd', ?_⟩
      cases hb with
      | same => exact hsup
      | held => rwa [(attached_sameStanding i b d).supersededBy]
      | target => rwa [(joined_sameStanding i b _ d).supersededBy]
      | takenOver hp hmem hopen =>
        rw [superseded_of_isOpen hopen]
        rfl
    · have hspec := placement_spec hs b
      cases hp : placement b s with
      | held => simp [hp] at hclosed
      | started => simp [hp] at hclosed
      | joined target others =>
        rw [hp] at hspec
        have hmem : id ∈ others := by simpa [hp] using hclosed
        obtain ⟨o, ho, hopen⟩ := hspec.mergeable.others id hmem
        have hne : id ≠ target := by
          rintro rfl
          exact (List.nodup_cons.1 hspec.mergeable.nodup).1 hmem
        unfold placed
        rw [hp, hspec.find?_result_joined, if_neg hne, if_pos hmem, ho]
        exact ⟨_, rfl, by rw [superseded_of_isOpen hopen]; rfl⟩

/-! ### What a placement counts -/

/-- What the counts of a placement say about the defects. -/
theorem card_newIds (hs : s.WellFormed) (r : Report) :
    ((placement b s).count i b r).created + s.ids.card =
      r.created + (placed now i b s).ids.card := by
  rw [ids_placed hs]
  cases hp : placement b s with
  | held d =>
    have hcount : ((Placement.held d).count i b r).created = r.created := by
      rw [Placement.count_held]
      split <;> rfl
    rw [hcount, Placement.newIds_held, Finset.union_empty]
  | joined target others =>
    rw [Placement.newIds_joined, Finset.union_empty]
    rfl
  | started =>
    have hnew : s.lastId + 1 ∉ s.ids := by
      intro hmem
      obtain ⟨d, hd⟩ := mem_ids.1 hmem
      exact Nat.not_succ_le_self _ (hs.bounded hd)
    rw [Placement.newIds_started,
      Finset.card_union_of_disjoint (Finset.disjoint_singleton_right.2 hnew), Finset.card_singleton]
    show r.created + 1 + s.ids.card = r.created + (s.ids.card + 1)
    omega

theorem card_closedIds (hs : s.WellFormed) (r : Report) :
    ((placement b s).count i b r).superseded + s.supersededIds.card =
      r.superseded + (placed now i b s).supersededIds.card := by
  have hspec := placement_spec hs b
  rw [supersededIds_placed hs]
  cases hp : placement b s with
  | held d =>
    have hcount : ((Placement.held d).count i b r).superseded = r.superseded := by
      rw [Placement.count_held]
      split <;> rfl
    rw [hcount, Placement.closedIds_held, Finset.union_empty]
  | started =>
    rw [Placement.closedIds_started, Finset.union_empty]
    rfl
  | joined target others =>
    rw [hp] at hspec
    -- what is taken over was open before
    have hdisjoint : Disjoint s.supersededIds others.toFinset := by
      rw [Finset.disjoint_left]
      intro id hsup hmem
      obtain ⟨d, hd, hsup⟩ := mem_supersededIds.1 hsup
      obtain ⟨o, ho, hopen⟩ := hspec.mergeable.others id (List.mem_toFinset.1 hmem)
      cases hd.symm.trans ho
      rw [hs.closed hd hsup] at hopen
      cases hopen
    have hlength : others.toFinset.card = others.length :=
      List.toFinset_card_of_nodup (List.nodup_cons.1 hspec.mergeable.nodup).2
    rw [Placement.closedIds_joined, Finset.card_union_of_disjoint hdisjoint, hlength]
    show r.superseded + others.length + s.supersededIds.card =
      r.superseded + (s.supersededIds.card + others.length)
    omega

theorem count_changes_le (p : Placement) (i : Issue) (b : BuildSnapshot) (r : Report) :
    (p.count i b r).created + (p.count i b r).updated ≤ r.created + r.updated + 1 ∧
      (p.count i b r).checked = r.checked ∧ (p.count i b r).skipped = r.skipped := by
  cases p with
  | held d =>
    rw [Placement.count_held]
    split
    · exact ⟨by show r.created + (r.updated + 1) ≤ _; omega, rfl, rfl⟩
    · exact ⟨by omega, rfl, rfl⟩
  | joined target others => exact ⟨by show r.created + (r.updated + 1) ≤ _; omega, rfl, rfl⟩
  | started => exact ⟨by show r.created + 1 + r.updated ≤ _; omega, rfl, rfl⟩

/-! ### The account of a pass -/

/-- From one state of a pass to another, the counts have grown as the defects have, and at most by one
for each issue that was not skipped. -/
structure Accounted (acc acc' : Report × DefectStore) : Prop where
  ids : acc.2.ids ⊆ acc'.2.ids
  created : acc'.1.created + acc.2.ids.card = acc.1.created + acc'.2.ids.card
  supersededIds : acc.2.supersededIds ⊆ acc'.2.supersededIds
  superseded : acc'.1.superseded + acc.2.supersededIds.card =
    acc.1.superseded + acc'.2.supersededIds.card
  changes : acc'.1.created + acc'.1.updated + acc'.1.skipped + acc.1.checked ≤
    acc.1.created + acc.1.updated + acc.1.skipped + acc'.1.checked

variable {acc acc' acc'' : Report × DefectStore} {builds : OrderedMap BuildRef BuildSnapshot}

theorem Accounted.refl (acc : Report × DefectStore) : Accounted acc acc :=
  ⟨subset_rfl, rfl, subset_rfl, rfl, le_rfl⟩

theorem Accounted.trans (h : Accounted acc acc') (h' : Accounted acc' acc'') :
    Accounted acc acc'' := by
  obtain ⟨hids, hcreated, hsup, hsuperseded, hchanges⟩ := h
  obtain ⟨hids', hcreated', hsup', hsuperseded', hchanges'⟩ := h'
  exact ⟨hids.trans hids', by omega, hsup.trans hsup', by omega, by omega⟩

theorem accounted_passStep (hs : acc.2.WellFormed) (now : Timestamp)
    (builds : OrderedMap BuildRef BuildSnapshot) (i : Issue) :
    Accounted acc (passStep now builds acc i) := by
  cases hb : builds.find? i.key.ref with
  | none =>
    rw [passStep_of_none hb]
    refine ⟨subset_rfl, rfl, subset_rfl, rfl, ?_⟩
    show acc.1.created + acc.1.updated + (acc.1.skipped + 1) + acc.1.checked ≤
      acc.1.created + acc.1.updated + acc.1.skipped + (acc.1.checked + 1)
    omega
  | some b =>
    rw [passStep_of_some hb]
    let r : Report := { acc.1 with checked := acc.1.checked + 1 }
    obtain ⟨hchanges, hchecked, hskipped⟩ := count_changes_le (placement b acc.2) i b r
    refine ⟨?_, card_newIds hs r, ?_, card_closedIds hs r, ?_⟩
    · show acc.2.ids ⊆ (placed now i b acc.2).ids
      rw [ids_placed hs]
      exact Finset.subset_union_left
    · show acc.2.supersededIds ⊆ (placed now i b acc.2).supersededIds
      rw [supersededIds_placed hs]
      exact Finset.subset_union_left
    · have hr : r.checked = acc.1.checked + 1 := rfl
      have hr' : r.created + r.updated = acc.1.created + acc.1.updated := rfl
      have hr'' : r.skipped = acc.1.skipped := rfl
      show ((placement b acc.2).count i b r).created + ((placement b acc.2).count i b r).updated +
          ((placement b acc.2).count i b r).skipped + acc.1.checked ≤
        acc.1.created + acc.1.updated + acc.1.skipped + ((placement b acc.2).count i b r).checked
      omega

theorem accounted_foldl (now : Timestamp) (builds : OrderedMap BuildRef BuildSnapshot)
    (is : List Issue) (acc : Report × DefectStore) (hs : acc.2.WellFormed) :
    Accounted acc (is.foldl (passStep now builds) acc) := by
  induction is generalizing acc with
  | nil => exact .refl acc
  | cons i is ih =>
    have hstep := accounted_passStep hs now builds i
    exact hstep.trans (ih _ (wellFormed_passStep hs now builds i))

theorem checked_foldl (now : Timestamp) (builds : OrderedMap BuildRef BuildSnapshot)
    (is : List Issue) (acc : Report × DefectStore) :
    (is.foldl (passStep now builds) acc).1.checked = acc.1.checked + is.length := by
  induction is generalizing acc with
  | nil => rfl
  | cons i is ih =>
    have hstep : (passStep now builds acc i).1.checked = acc.1.checked + 1 := by
      unfold passStep
      cases builds.find? i.key.ref with
      | none => rfl
      | some b => exact (count_changes_le _ i b _).2.1
    rw [List.foldl_cons, ih, hstep, List.length_cons]
    omega

theorem skipped_foldl (now : Timestamp) (builds : OrderedMap BuildRef BuildSnapshot)
    (is : List Issue) (acc : Report × DefectStore) :
    (is.foldl (passStep now builds) acc).1.skipped =
      acc.1.skipped + (is.filter fun i => (builds.find? i.key.ref).isNone).length := by
  induction is generalizing acc with
  | nil => rfl
  | cons i is ih =>
    rw [List.foldl_cons, ih]
    cases hb : builds.find? i.key.ref with
    | none =>
      rw [passStep_of_none hb, List.filter_cons_of_pos (by simp [hb]), List.length_cons]
      show acc.1.skipped + 1 + _ = _
      omega
    | some b =>
      rw [passStep_of_some hb, List.filter_cons_of_neg (by simp [hb])]
      exact congrArg (· + _) (count_changes_le (placement b acc.2) i b _).2.2

/-- What the counts of a pass say about its issues and about the defects that it leaves. -/
theorem counts_foldl (hs : s.WellFormed) {is : List Issue}
    (h : is.foldl (passStep now builds) (.empty, s) = acc) :
    acc.1.checked = is.length ∧
      acc.1.skipped = (is.filter fun i => (builds.find? i.key.ref).isNone).length ∧
      s.ids ⊆ acc.2.ids ∧ (acc.2.ids \ s.ids).card = acc.1.created ∧
      (acc.2.supersededIds \ s.supersededIds).card = acc.1.superseded ∧
      acc.1.created + acc.1.updated ≤ acc.1.checked - acc.1.skipped := by
  have hchecked := checked_foldl now builds is (.empty, s)
  have hskipped := skipped_foldl now builds is (.empty, s)
  obtain ⟨hids, hcreated, hsup, hsuperseded, hchanges⟩ := accounted_foldl now builds is (.empty, s) hs
  rw [h] at hchecked hskipped hids hcreated hsup hsuperseded hchanges
  simp only [Report.empty, Nat.zero_add, Nat.add_zero] at *
  refine ⟨hchecked, hskipped, hids, ?_, ?_, ?_⟩
  · rw [Finset.card_sdiff_of_subset hids]
    omega
  · rw [Finset.card_sdiff_of_subset hsup]
    omega
  · omega

/-! ### Issues without a snapshot -/

/-- The same defects and the same counts of what was done to them. -/
structure SameChanges (acc acc' : Report × DefectStore) : Prop where
  defects : acc'.2 = acc.2
  created : acc'.1.created = acc.1.created
  updated : acc'.1.updated = acc.1.updated
  superseded : acc'.1.superseded = acc.1.superseded

theorem SameChanges.passStep (h : SameChanges acc acc') (now : Timestamp)
    (builds : OrderedMap BuildRef BuildSnapshot) (i : Issue) :
    SameChanges (passStep now builds acc i) (Clustering.passStep now builds acc' i) := by
  obtain ⟨hdefects, hcreated, hupdated, hsuperseded⟩ := h
  cases hb : builds.find? i.key.ref with
  | none =>
    rw [passStep_of_none hb, passStep_of_none hb]
    exact ⟨hdefects, hcreated, hupdated, hsuperseded⟩
  | some b =>
    rw [passStep_of_some hb, passStep_of_some hb, hdefects]
    generalize placement b acc.2 = p
    cases p with
    | held d =>
      simp only [Placement.count_held]
      split
      · exact ⟨rfl, hcreated, congrArg (· + 1) hupdated, hsuperseded⟩
      · exact ⟨rfl, hcreated, hupdated, hsuperseded⟩
    | joined target others =>
      exact ⟨rfl, hcreated, congrArg (· + 1) hupdated, congrArg (· + others.length) hsuperseded⟩
    | started => exact ⟨rfl, congrArg (· + 1) hcreated, hupdated, hsuperseded⟩

/-- A pass over all issues does what a pass over those does whose build is known. -/
theorem sameChanges_foldl (now : Timestamp) (builds : OrderedMap BuildRef BuildSnapshot)
    (is : List Issue) (h : SameChanges acc acc') :
    SameChanges ((is.filter fun i => (builds.find? i.key.ref).isSome).foldl (passStep now builds)
      acc) (is.foldl (passStep now builds) acc') := by
  induction is generalizing acc acc' with
  | nil => exact h
  | cons i is ih =>
    cases hb : builds.find? i.key.ref with
    | none =>
      rw [List.filter_cons_of_neg (by simp [hb]), List.foldl_cons]
      refine ih ?_
      rw [passStep_of_none hb]
      exact ⟨h.defects, h.created, h.updated, h.superseded⟩
    | some b =>
      rw [List.filter_cons_of_pos (by simp [hb]), List.foldl_cons, List.foldl_cons]
      exact ih (h.passStep now builds i)

/-- The recent issues whose build is known. -/
def recentKnown (cfg : ClusteringConfig) (now : Timestamp) (s : Stores) : List Issue :=
  (recent cfg now s).filter fun i => (s.builds.find? i.key.ref).isSome

/-- Stores with the same recent issues of known builds, and what else there is among the issues. -/
theorem recentKnown_congr {s : Stores} {is : IssueStore} {cfg : ClusteringConfig}
    {now since : Timestamp} (hwindow : now.minusDays cfg.lookbackDays = .ok since)
    (h : ∀ k i, since ≤ i.detectedAt → (s.builds.find? i.key.ref).isSome →
      (is.find? k = some i ↔ s.issues.find? k = some i)) :
    recentKnown cfg now { s with issues := is } = recentKnown cfg now s := by
  let known : Issue → Bool := fun i =>
    (s.builds.find? i.key.ref).isSome && decide (since ≤ i.detectedAt)
  have hfilter : (is.issues.filter fun _ i => known i) = s.issues.issues.filter fun _ i => known i := by
    refine OrderedMap.ext_find? fun k => Option.ext fun i => ?_
    rw [OrderedMap.find?_filter, OrderedMap.find?_filter, Option.filter_eq_some_iff,
      Option.filter_eq_some_iff]
    refine and_congr_left fun hi => ?_
    obtain ⟨hbuild, hsince⟩ := Bool.and_eq_true_iff.1 hi
    exact h k i (of_decide_eq_true hsince) hbuild
  have hvalues := congrArg OrderedMap.values hfilter
  rw [OrderedMap.values_filter, OrderedMap.values_filter] at hvalues
  unfold recentKnown
  rw [recent_of_ok hwindow, recent_of_ok hwindow, List.filter_filter, List.filter_filter]
  exact hvalues

/-! ### Main result -/

theorem sameChanges_outcome (cfg : ClusteringConfig) (now : Timestamp) (s : Stores) :
    SameChanges ((recentKnown cfg now s).foldl (passStep now s.builds) (.empty, s.defects))
      (outcome cfg now s) :=
  sameChanges_foldl now s.builds (recent cfg now s) ⟨rfl, rfl, rfl, rfl⟩

theorem Settled.attachedTo (h : Settled i b s) :
    ∃ d, holder? b.build (s.onServer b.server) = some d ∧ i.AttachedTo b d := by
  obtain ⟨d, hd, hset⟩ := h
  rw [placement_eq_held_iff] at hd
  have hmem := List.mem_filter.1 (holder?_eq_some hd).1
  exact ⟨d, hd, of_decide_eq_true hmem.2, hset.issue⟩

end Clustering

open Clustering

/-- A pass puts each recent issue whose build is known into the entry of its build, in the defect that
further issues of the build would go to, and looks at nothing else among the issues.  Its report counts
the recent issues, those of unknown builds, the new ids and the newly superseded defects. -/
theorem Reachable.cluster_report {s : Stores} (h : Reachable s) (cfg : ClusteringConfig)
    (now : Timestamp) :
    (∀ o, now.minusDays cfg.lookbackDays = .error o →
      (cluster cfg now).exec s = (.error (.crash o), s)) ∧
    ∀ since, now.minusDays cfg.lookbackDays = .ok since →
      ∃ r s', (cluster cfg now).exec s = (.ok r, s') ∧
        (∀ k i b, s.issues.find? k = some i → since ≤ i.detectedAt →
          s.builds.find? i.key.ref = some b →
            ∃ d, holder? b.build (s'.defects.onServer b.server) = some d ∧ i.AttachedTo b d) ∧
        (∀ is : IssueStore, (∀ k i, since ≤ i.detectedAt → (s.builds.find? i.key.ref).isSome →
            (is.find? k = some i ↔ s.issues.find? k = some i)) →
          ∃ r' s'', (cluster cfg now).exec { s with issues := is } = (.ok r', s'') ∧
            s''.defects = s'.defects ∧ r'.created = r.created ∧ r'.updated = r.updated ∧
              r'.superseded = r.superseded) ∧
        r.checked = (s.issues.all.filter fun i => since ≤ i.detectedAt).length ∧
        r.skipped = (s.issues.all.filter fun i =>
          since ≤ i.detectedAt && (s.builds.find? i.key.ref).isNone).length ∧
        s.defects.ids ⊆ s'.defects.ids ∧ (s'.defects.ids \ s.defects.ids).card = r.created ∧
        (s'.defects.supersededIds \ s.defects.supersededIds).card = r.superseded ∧
        r.created + r.updated ≤ r.checked - r.skipped := by
  refine ⟨fun o ho => exec_cluster_of_error ho s, fun since hwindow => ?_⟩
  have hs := h.sound
  have hrecent := recent_of_ok hwindow s
  have hskipped : (s.issues.all.filter fun i =>
      since ≤ i.detectedAt && (s.builds.find? i.key.ref).isNone) =
      (recent cfg now s).filter fun i => (s.builds.find? i.key.ref).isNone := by
    rw [hrecent, List.filter_filter]
    simp only [Bool.and_comm]
  have houtcome : (recent cfg now s).foldl (passStep now s.builds) (.empty, s.defects) =
      outcome cfg now s := rfl
  have hcounts := counts_foldl hs.wellFormed houtcome
  rw [← hskipped, hrecent] at hcounts
  obtain ⟨s', hexec, hdefects⟩ := exec_cluster_defects hs.wellFormed hwindow
  rw [← hdefects] at hcounts
  refine ⟨_, s', hexec, ?_, ?_, hcounts⟩
  · intro k i b hi hsince hb
    have hmem : i ∈ recent cfg now s := by
      rw [hrecent]
      exact List.mem_filter.2 ⟨OrderedMap.mem_values_iff.2 ⟨k, hi⟩, decide_eq_true hsince⟩
    rw [hdefects]
    exact (settled_foldl hb _ hmem hs).attachedTo
  · intro is his
    have hw : ({ s with issues := is } : Stores).defects.WellFormed := hs.wellFormed
    have hsame := sameChanges_outcome cfg now s
    have hsame' := sameChanges_outcome cfg now { s with issues := is }
    rw [recentKnown_congr hwindow his] at hsame'
    obtain ⟨s'', hexec', hdefects'⟩ := exec_cluster_defects hw hwindow
    refine ⟨_, s'', hexec', ?_, ?_, ?_, ?_⟩
    · rw [hdefects', hdefects]
      exact hsame'.defects.trans hsame.defects.symm
    · exact hsame'.created.trans hsame.created.symm
    · exact hsame'.updated.trans hsame.updated.symm
    · exact hsame'.superseded.trans hsame.superseded.symm

/-- The bridge, an issue of a build without a snapshot, and one that is long past. -/
def bridgingAmongOthers : List Operation :=
  bridging ++ [.saveIssue (bridgeIssue 9 "t9" none),
    .saveIssue (Issue.make ⟨"apache", 1, "t0"⟩ .newFailure (.ofMillis 1600000000000))]

/-- Two defects are created and one of them is taken over; the second issue has moved with its build. -/
theorem Reachable.cluster_report_bridging :
    ∃ s r s', Reachable s ∧ (cluster .default bridgeTime).exec s = (.ok r, s') ∧
      r = ⟨4, 2, 1, 1, 1⟩ ∧ (s'.defects.ids \ s.defects.ids).card = 2 ∧
      (s'.defects.supersededIds \ s.defects.supersededIds).card = 1 ∧
      ∃ d, holder? 2 (s'.defects.onServer "apache") = some d ∧
        (bridgeIssue 2 "t2" (some "master")).AttachedTo (bridgeBuild 2 [secondChange]) d := by
  have hr := Reachable.empty.runAll bridgingAmongOthers
  have hwindow : bridgeTime.minusDays ClusteringConfig.default.lookbackDays =
      .ok ⟨1698790400, 0⟩ := by decide +kernel
  obtain ⟨r, s', hexec, hissues, -, -, -, -, hcreated, hsuperseded, -⟩ :=
    (Reachable.cluster_report hr .default bridgeTime).2 _ hwindow
  have hreport : r = ⟨4, 2, 1, 1, 1⟩ := by
    obtain ⟨-, hreport, -⟩ := outcome_of_exec hr.sound.wellFormed hexec
    rw [← hreport]
    decide +kernel
  have hsecond := hissues ⟨"apache", 2, "t2"⟩ (bridgeIssue 2 "t2" (some "master"))
    (bridgeBuild 2 [secondChange]) (by decide +kernel) (by decide +kernel) (by decide +kernel)
  rw [hreport] at hcreated hsuperseded
  exact ⟨_, r, s', hr, hexec, hreport, hcreated, hsuperseded, hsecond⟩

end Triage
