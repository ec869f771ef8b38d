import Triage.Proofs.Clustering.Holder

/-!
# Merging open defects

Merging gives one defect the members and the blame lists of several other ones, which it then
supersedes.  `exec_mergeAll` says that a merge does so and cannot fail, `find?_merged` what it leaves
under each id, and the lemmas on `absorbedAll` what the members of the merged defect are.
-/

namespace Triage.Clustering

open DefectStore

theorem faithful_absorb (other : Defect) : Faithful (absorb other) :=
  fun _ => absorbed_eq_of_unchanged

theorem faithful_supersede (now : Timestamp) (target : Nat) : Faithful (supersede now target) :=
  fun _ => superseded_eq_of_unchanged

/-- The members and the blame list of one defect go to `target`, which supersedes it. -/
def takeOver (now : Timestamp) (target : Nat) (s : DefectStore) (id : Nat) : DefectStore :=
  match s.find? id with
  | some other => (s.alter target (absorbed other)).alter id (superseded now target)
  | none => s

def merged (now : Timestamp) (target : Nat) (ids : List Nat) (s : DefectStore) : DefectStore :=
  ids.foldl (takeOver now target) s

/-- A defect with the members and the blame lists of several other ones added, in this order. -/
def absorbedAll (others : List Defect) (d : Defect) : Defect :=
  others.foldl (fun d other => absorbed other d) d

theorem merged_append (now : Timestamp) (target : Nat) (ids ids' : List Nat) (s : DefectStore) :
    merged now target (ids ++ ids') s = merged now target ids' (merged now target ids s) :=
  List.foldl_append

theorem absorbedAll_append (os os' : List Defect) (d : Defect) :
    absorbedAll (os ++ os') d = absorbedAll os' (absorbedAll os d) :=
  List.foldl_append

theorem takeOver_of_find? {now : Timestamp} {target id : Nat} {s : DefectStore} {other : Defect}
    (h : s.find? id = some other) :
    takeOver now target s id = (s.alter target (absorbed other)).alter id (superseded now target) := by
  unfold takeOver
  rw [h]

theorem find?_takeOver_of_ne {now : Timestamp} {target id k : Nat} {s : DefectStore}
    (ht : target ≠ k) (hi : id ≠ k) : (takeOver now target s id).find? k = s.find? k := by
  unfold takeOver
  split
  · rw [find?_alter_of_ne hi, find?_alter_of_ne ht]
  · rfl

/-- Several open defects are merged into another one, all different. -/
structure Mergeable (s : DefectStore) (target : Nat) (ids : List Nat) : Prop where
  stored : ∃ t, s.find? target = some t
  others : ∀ id ∈ ids, ∃ o, s.find? id = some o ∧ o.isOpen = true
  nodup : (target :: ids).Nodup

theorem Mergeable.tail {now : Timestamp} {s : DefectStore} {target id : Nat} {ids : List Nat}
    (h : Mergeable s target (id :: ids)) : Mergeable (takeOver now target s id) target ids := by
  obtain ⟨⟨t, ht⟩, hothers, hnd⟩ := h
  obtain ⟨htn, hnd'⟩ := List.nodup_cons.1 hnd
  obtain ⟨hin, hnd''⟩ := List.nodup_cons.1 hnd'
  obtain ⟨o, ho, -⟩ := hothers id (by simp)
  have hne : id ≠ target := fun he => htn (by simp [he])
  refine ⟨?_, ?_, ?_⟩
  · refine ⟨absorbed o t, ?_⟩
    rw [takeOver_of_find? ho, find?_alter_of_ne hne, find?_alter_self ht]
  · intro k hk
    obtain ⟨o', ho', hopen⟩ := hothers k (by simp [hk])
    refine ⟨o', ?_, hopen⟩
    rw [find?_takeOver_of_ne ?_ ?_, ho']
    · rintro rfl; exact htn (by simp [hk])
    · rintro rfl; exact hin hk
  · exact List.nodup_cons.2 ⟨fun hk => htn (by simp [hk]), hnd''⟩

theorem exec_mergeAll (now : Timestamp) (target : Nat) :
    ∀ (ids : List Nat) (s : Stores) (r : Report), Mergeable s.defects target ids →
      (mergeAll now target ids r).exec s =
        (.ok { r with superseded := r.superseded + ids.length },
          { s with defects := merged now target ids s.defects })
  | [], s, r, _ => Pass.runWith_pure _ _ _
  | id :: ids, s, r, h => by
    obtain ⟨t, ht⟩ := h.stored
    obtain ⟨o, ho, hopen⟩ := h.others id (by simp)
    have hne : target ≠ id := fun he => (List.nodup_cons.1 h.nodup).1 (by simp [he])
    have hload : (Pass.ask (.loadDefect id)).exec s = (.ok (some o), s) :=
      Pass.runWith_ask_of_ok _ (c := .loadDefect id) (by simp [Stores.handler, Stores.answer, ho])
    have hsup : (s.defects.alter target (absorbed o)).find? id = some o := by
      rw [find?_alter_of_ne hne, ho]
    unfold mergeAll Pass.exec
    rw [Pass.runWith_bind_of_ok _ hload]
    simp only [hopen, if_true]
    rw [Pass.runWith_bind_of_ok _ (Pass.exec_update (faithful_absorb o) ht),
      Pass.runWith_bind_of_ok _ (Pass.exec_update (faithful_supersede now target) hsup)]
    have hstore : (s.defects.alter target (absorbed o)).alter id (superseded now target) =
        takeOver now target s.defects id := (takeOver_of_find? ho).symm
    rw [hstore]
    have ih := exec_mergeAll now target ids { s with defects := takeOver now target s.defects id }
      { r with superseded := r.superseded + 1 } h.tail
    refine ih.trans ?_
    simp [merged, Nat.add_assoc, Nat.add_comm 1]

/-- What one defect that is taken over leaves under each id. -/
theorem find?_takeOver {now : Timestamp} {target id : Nat} (hne : id ≠ target) (s : DefectStore)
    (k : Nat) : (takeOver now target s id).find? k =
      if k = target then (s.find? k).map (absorbedAll (s.find? id).toList)
      else if k = id then (s.find? k).map (superseded now target)
      else s.find? k := by
  cases ho : s.find? id with
  | none =>
    have hsame : takeOver now target s id = s := by
      unfold takeOver
      rw [ho]
    rw [hsame]
    split
    · cases s.find? k <;> rfl
    · split
      · rename_i hk
        rw [hk, ho]
        rfl
      · rfl
  | some o =>
    rw [takeOver_of_find? ho]
    split
    · rename_i hk
      rw [hk, find?_alter_of_ne hne, find?_alter, if_pos rfl]
      rfl
    · rename_i hk
      rw [find?_alter, find?_alter_of_ne (Ne.symm hk)]
      simp only [eq_comm]

/-- What a merge leaves under each id. -/
theorem find?_merged (now : Timestamp) (target : Nat) :
    ∀ (ids : List Nat) (s : DefectStore), (target :: ids).Nodup → ∀ k,
      (merged now target ids s).find? k =
        if k = target then (s.find? k).map (absorbedAll (ids.filterMap s.find?))
        else if k ∈ ids then (s.find? k).map (superseded now target)
        else s.find? k
  | [], s, _, k => by
    by_cases hk : k = target
    · cases hs : s.find? target <;> simp [merged, absorbedAll, hk, hs]
    · simp [merged, hk]
  | id :: ids, s, h, k => by
    obtain ⟨htn, hnd⟩ := List.nodup_cons.1 h
    obtain ⟨hin, hnd'⟩ := List.nodup_cons.1 hnd
    have hne : id ≠ target := fun he => htn (by simp [he])
    have htl : (target :: ids).Nodup := List.nodup_cons.2 ⟨fun hk => htn (by simp [hk]), hnd'⟩
    have hrest : ids.filterMap (takeOver now target s id).find? = ids.filterMap s.find? := by
      refine List.filterMap_congr fun k' hk' => find?_takeOver_of_ne ?_ ?_
      · rintro rfl; exact htn (by simp [hk'])
      · rintro rfl; exact hin hk'
    have ih := find?_merged now target ids (takeOver now target s id) htl k
    rw [hrest, find?_takeOver hne] at ih
    change (merged now target ids (takeOver now target s id)).find? k = _
    rw [ih]
    by_cases hk : k = target
    · rw [if_pos hk, if_pos hk, if_pos hk, List.filterMap_cons, Option.map_map]
      cases s.find? id <;> rfl
    · rw [if_neg hk, if_neg hk, if_neg hk]
      by_cases hki : k = id
      · subst hki
        rw [if_neg hin, if_pos rfl, if_pos List.mem_cons_self]
      · simp only [List.mem_cons, hki, false_or, if_false]

/-! ### Members of a defect that took others over -/

theorem absorbedAll_sameStanding (others : List Defect) (d : Defect) :
    Defect.SameStanding d (absorbedAll others d) := by
  induction others generalizing d with
  | nil => exact .refl d
  | cons o os ih => exact (absorbed_sameStanding o d).trans (ih _)

/-- The target of a merge, with the build that joins it, keeps its standing. -/
theorem joined_sameStanding (i : Issue) (b : BuildSnapshot) (others : List Defect) (d : Defect) :
    Defect.SameStanding d (attached i b (absorbedAll others d)) :=
  (absorbedAll_sameStanding others d).trans (attached_sameStanding i b _)

theorem trackedBranch_absorbedAll (others : List Defect) (d : Defect) :
    (absorbedAll others d).trackedBranch = d.trackedBranch := by
  induction others generalizing d with
  | nil => rfl
  | cons o os ih => exact (ih _).trans (trackedBranch_absorbed o d)

/-- Members stay as they are. -/
theorem find?_absorbedAll_of_find? {others : List Defect} (hk : ∀ o ∈ others, o.MembersKeyed)
    {d : Defect} {k : Nat} {m : DefectBuild} (h : d.members.find? k = some m) :
    (absorbedAll others d).members.find? k = some m := by
  induction others generalizing d with
  | nil => exact h
  | cons o os ih =>
    refine ih (fun o ho => hk o (by simp [ho])) ?_
    rw [find?_absorbed (hk o (by simp)), h]
    rfl

/-- A member comes from the defect itself or from one that it took over. -/
theorem mem_of_find?_absorbedAll {others : List Defect} (hk : ∀ o ∈ others, o.MembersKeyed)
    {d : Defect} {k : Nat} {m : DefectBuild} (h : (absorbedAll others d).members.find? k = some m) :
    ∃ o ∈ d :: others, o.members.find? k = some m := by
  induction others generalizing d with
  | nil => exact ⟨d, by simp, h⟩
  | cons o os ih =>
    obtain ⟨o', ho', hm⟩ := ih (fun o ho => hk o (by simp [ho])) h
    rcases List.mem_cons.1 ho' with rfl | ho'
    · rw [find?_absorbed (hk o (by simp))] at hm
      rcases Option.or_eq_some_iff.1 hm with hm | ⟨-, hm⟩
      · exact ⟨d, by simp, hm⟩
      · exact ⟨o, by simp, hm⟩
    · exact ⟨o', by simp [ho'], hm⟩

/-- A build that only one of the defects has keeps the entry that it has there. -/
theorem find?_absorbedAll_of_mem {others : List Defect} (hk : ∀ o ∈ others, o.MembersKeyed)
    {d o : Defect} {k : Nat} {m : DefectBuild} (ho : o ∈ d :: others)
    (hm : o.members.find? k = some m)
    (huniq : ∀ o' ∈ d :: others, o'.hasBuild k = true → o'.members.find? k = some m) :
    (absorbedAll others d).members.find? k = some m := by
  induction others generalizing d o with
  | nil =>
    obtain rfl : o = d := by simpa using ho
    exact hm
  | cons o₁ os ih =>
    have hfind := find?_absorbed (hk o₁ (by simp)) d k
    -- the first of the two that has the build has the entry
    have hfirst : ∀ m', (absorbed o₁ d).members.find? k = some m' → m' = m := by
      intro m' hm'
      rw [hfind] at hm'
      rcases Option.or_eq_some_iff.1 hm' with h' | ⟨-, h'⟩
      · rw [huniq d (by simp) (Defect.hasBuild_of_find? h')] at h'
        exact (Option.some.inj h').symm
      · rw [huniq o₁ (by simp) (Defect.hasBuild_of_find? h')] at h'
        exact (Option.some.inj h').symm
    have huniq' : ∀ o' ∈ absorbed o₁ d :: os, o'.hasBuild k = true →
        o'.members.find? k = some m := by
      intro o' ho' hb
      rcases List.mem_cons.1 ho' with rfl | ho'
      · obtain ⟨m', hm'⟩ := Defect.find?_of_hasBuild hb
        rw [hm', hfirst m' hm']
      · exact huniq o' (by simp [ho']) hb
    have hos : ∀ o ∈ os, o.MembersKeyed := fun o ho => hk o (by simp [ho])
    rcases List.mem_cons.1 ho with rfl | ho
    · exact ih hos (o := absorbed o₁ o) (by simp) (by rw [hfind, hm]; rfl) huniq'
    · rcases List.mem_cons.1 ho with rfl | ho
      · refine ih hos (o := absorbed o d) (by simp) ?_ huniq'
        rw [hfind]
        cases hd : d.members.find? k with
        | none => exact hm
        | some m' =>
          rw [hfirst m' (by rw [hfind, hd]; rfl)]
          rfl
      · exact ih hos (o := o) (by simp [ho]) hm huniq'

theorem blame_absorbedAll_ne_nil {others : List Defect} {d o : Defect} (ho : o ∈ d :: others)
    (h : o.blame ≠ []) : (absorbedAll others d).blame ≠ [] := by
  induction others generalizing d o with
  | nil =>
    obtain rfl : o = d := by simpa using ho
    exact h
  | cons o₁ os ih =>
    have hblame := blame_absorbed o₁ d
    rcases List.mem_cons.1 ho with rfl | ho
    · refine ih (o := absorbed o₁ o) (by simp) ?_
      rw [hblame, if_neg h]
      exact h
    · rcases List.mem_cons.1 ho with rfl | ho
      · refine ih (o := absorbed o d) (by simp) ?_
        rw [hblame]
        split
        · exact h
        · assumption
      · exact ih (o := o) (by simp [ho]) h

/-! ### Well-formedness -/

theorem membersKeyed_attached {d : Defect} (h : d.MembersKeyed) (i : Issue) (b : BuildSnapshot) :
    (attached i b d).MembersKeyed := by
  intro k m hm
  rw [find?_attached] at hm
  split at hm
  · rename_i hk
    cases hm
    rw [Defect.withIssue_build]
    cases hd : d.members.find? k with
    | none => exact hk.symm
    | some m => exact h k m hd
  · exact h k m hm

theorem membersKeyed_absorbed {o d : Defect} (ho : o.MembersKeyed) (h : d.MembersKeyed) :
    (absorbed o d).MembersKeyed := by
  intro k m hm
  rw [find?_absorbed ho] at hm
  rcases Option.or_eq_some_iff.1 hm with hm | ⟨-, hm⟩
  · exact h k m hm
  · exact ho k m hm

theorem membersKeyed_absorbedAll {os : List Defect} (hos : ∀ o ∈ os, o.MembersKeyed) {d : Defect}
    (hd : d.MembersKeyed) : (absorbedAll os d).MembersKeyed := by
  intro k m hm
  obtain ⟨o, ho, hom⟩ := mem_of_find?_absorbedAll hos hm
  rcases List.mem_cons.1 ho with rfl | ho
  · exact hd k m hom
  · exact hos o ho k m hom

theorem wellFormed_takeOver {s : DefectStore} (hs : s.WellFormed) (now : Timestamp)
    (target id : Nat) : (takeOver now target s id).WellFormed := by
  cases ho : s.find? id with
  | none =>
    unfold takeOver
    rw [ho]
    exact hs
  | some o =>
    have hw : (s.alter target (absorbed o)).WellFormed :=
      hs.alter_of_sameStanding (fun d => absorbed_sameStanding o d)
        fun d hd => membersKeyed_absorbed (hs.members ho) (hs.members hd)
    rw [takeOver_of_find? ho]
    refine hw.alter fun d hd => ?_
    have hmem := hw.members hd
    by_cases hopen : d.isOpen = true
    · rw [superseded_of_isOpen hopen]
      exact ⟨rfl, hmem, fun _ => rfl⟩
    · unfold superseded supersede
      rw [if_neg hopen]
      exact ⟨rfl, hmem, hw.closed hd⟩

theorem wellFormed_merged {s : DefectStore} (hs : s.WellFormed) (now : Timestamp) (target : Nat)
    (ids : List Nat) : (merged now target ids s).WellFormed := by
  induction ids generalizing s with
  | nil => exact hs
  | cons id ids ih => exact ih (wellFormed_takeOver hs now target id)

end Triage.Clustering
