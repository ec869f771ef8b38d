import Triage.Proofs.Clustering.Components
import Triage.Proofs.Clustering.Halfway
import Triage.Proofs.Clustering.Likeness

/-!
# The next pass repairs a cut one

Halfway through a merge a build may have two open holders, against what holds between passes.  But the
target of the merge is preferred to the other one, so issues that are settled stay settled
(`settled_halfMerged`), and the merge starts again where it was cut and leads to the same defects
(`placed_halfMerged`).  An id that was given out in vain moves the later ones (`alike_nextId`).  So the
next pass finds the issues that have been placed settled, comes to the issue where the pass was cut,
and from there on runs in step with the pass that was not cut (`Paused.again`).
-/

namespace Triage

namespace Clustering

open DefectStore

variable {now : Timestamp} {i : Issue} {b c : BuildSnapshot} {s : DefectStore} {d e : Defect}

/-! ### Merging again -/

/-- A defect whose members have been copied is taken over as if they had not. -/
theorem takeOver_halfMerged (now : Timestamp) (hs : s.WellFormed) {target id : Nat}
    (hne : target ≠ id) :
    takeOver now target (s.alter target (absorbedAll (takenOver s [id]))) id =
      takeOver now target s id := by
  cases ho : s.find? id with
  | none =>
    have hnone : takenOver s [id] = [] := by simp [takenOver, ho]
    have hsame : s.alter target (absorbedAll []) = s := alter_eq_self fun _ _ => rfl
    rw [hnone, hsame]
  | some o =>
    have hone : takenOver s [id] = [o] := by simp [takenOver, ho]
    have ho' : (s.alter target (absorbedAll [o])).find? id = some o := by
      rw [find?_alter_of_ne hne, ho]
    rw [hone, takeOver_of_find? ho, takeOver_of_find? ho', alter_alter]
    exact congrArg (fun f => (s.alter target f).alter id (superseded now target))
      (funext fun d => absorbed_absorbed (hs.members ho) d)

theorem merged_halfMerged (hs : s.WellFormed) {target : Nat} {closed rest : List Nat}
    {copied : Option Nat} (hne : target ∉ copied) :
    merged now target (copied.toList ++ rest) (halfMerged now target closed copied s) =
      merged now target (closed ++ copied.toList ++ rest) s := by
  cases copied with
  | none => rw [halfMerged_none, merged_append, merged_append, merged_append]
  | some id =>
    have hm := wellFormed_merged hs now target closed
    have htake := takeOver_halfMerged now hm fun he => hne (congrArg some he.symm)
    rw [merged_append, merged_append, merged_append]
    exact congrArg (merged now target rest) htake

/-! ### Half a merge -/

section HalfMerged

variable {target : Nat} {closed rest : List Nat} {copied : Option Nat}

theorem find?_halfMerged (now : Timestamp) (s : DefectStore)
    (hnodup : (target :: (closed ++ copied.toList)).Nodup) (k : Nat) :
    (halfMerged now target closed copied s).find? k =
      if k = target then
        (s.find? k).map (absorbedAll (takenOver s (closed ++ copied.toList)))
      else if k ∈ closed then (s.find? k).map (superseded now target)
      else s.find? k := by
  have hclosed : (target :: closed).Nodup :=
    hnodup.sublist (.cons_cons _ (List.sublist_append_left closed _))
  have hm := find?_merged now target closed s hclosed
  -- what is copied has not been closed yet
  have hcopied : takenOver (merged now target closed s) copied.toList =
      takenOver s copied.toList := by
    refine List.filterMap_congr fun id hid => ?_
    have hne : id ≠ target := by
      rintro rfl
      exact (List.nodup_cons.1 hnodup).1 (List.mem_append_right _ hid)
    have hopen : id ∉ closed := fun h =>
      List.disjoint_of_nodup_append (List.nodup_cons.1 hnodup).2 h hid
    rw [hm, if_neg hne, if_neg hopen]
  unfold halfMerged
  rw [find?_alter, hm, hcopied, takenOver_append]
  by_cases hk : k = target
  · subst hk
    rw [if_pos rfl, if_pos rfl, if_pos rfl, Option.map_map]
    refine congrArg (fun f => (s.find? k).map f) (funext fun d => ?_)
    exact (absorbedAll_append _ _ d).symm
  · rw [if_neg (Ne.symm hk), if_neg hk, if_neg hk]

/-- The defect that the merge makes, and the parts that it has so far. -/
theorem PlacementSpec.parts (hs : s.WellFormed)
    (h : PlacementSpec b s (.joined target (closed ++ copied.toList ++ rest))) :
    ∃ t, s.find? target = some t ∧ (target :: (closed ++ copied.toList)).Nodup ∧
      ∀ o ∈ t :: takenOver s (closed ++ copied.toList), s.find? o.id = some o ∧
        o.server = b.server ∧ o.isOpen = true ∧
        o.sharesFingerprint b.fingerprint = true ∧ o.hasBuild b.build = false := by
  obtain ⟨t, ht, -, hall⟩ := h.find?_target default hs
  refine ⟨t, ht, ?_, fun o ho => hall o ?_⟩
  · exact h.mergeable.nodup.sublist (.cons_cons _ (List.sublist_append_left _ _))
  · rw [takenOver_append, ← List.cons_append]
    exact List.mem_append_left _ ho

/-- The rest of the merge is as if it had just begun. -/
theorem PlacementSpec.halfMerged (hs : s.WellFormed)
    (h : PlacementSpec b s (.joined target (closed ++ copied.toList ++ rest))) (now : Timestamp) :
    PlacementSpec b (halfMerged now target closed copied s)
      (.joined target (copied.toList ++ rest)) := by
  obtain ⟨t, ht, hnodup, hparts⟩ := h.parts hs
  have hfind := find?_halfMerged now s hnodup
  have hothers := h.mergeable.others
  have hstand := absorbedAll_sameStanding (takenOver s (closed ++ copied.toList)) t
  obtain ⟨-, htserver, htopen, htshares, -⟩ := hparts t List.mem_cons_self
  -- the closed ones were open
  have hclosed : ∀ {id d}, id ∈ closed → (s.find? id).map (superseded now target) = some d →
      ∃ o, s.find? id = some o ∧
        d = { o with resolvedAt := some now, supersededBy := some target } := by
    intro id d hid hd
    obtain ⟨o, ho, hopen⟩ := hothers id (by simp [hid])
    rw [ho, Option.map_some, superseded_of_isOpen hopen] at hd
    exact ⟨o, ho, (Option.some.inj hd).symm⟩
  cases h with
  | joined unheld shares nodup =>
    have hdisjoint : closed.Disjoint (copied.toList ++ rest) := by
      rw [List.append_assoc] at nodup
      exact List.disjoint_of_nodup_append (List.nodup_cons.1 nodup).2
    refine .joined (fun d hd hserver => ?_) (fun id => ?_) ?_
    · rw [hfind] at hd
      split at hd
      · rename_i hid
        rw [hid, ht] at hd
        cases hd
        exact PlacementSpec.hasBuild_target hs fun o ho => (hparts o ho).2.2.2.2
      · split at hd
        · rename_i hid
          obtain ⟨o, ho, rfl⟩ := hclosed hid hd
          exact unheld o ho hserver
        · exact unheld d hd hserver
    · rw [hfind]
      by_cases htarget : id = target
      · rw [if_pos htarget, htarget, ht]
        refine iff_of_true List.mem_cons_self ⟨_, rfl, hstand.server.trans htserver,
          hstand.isOpen.trans htopen, ?_⟩
        obtain ⟨k, m, hm, hmeets⟩ := Defect.sharesFingerprint_iff.1 htshares
        exact Defect.sharesFingerprint_iff.2
          ⟨k, m, find?_absorbedAll_of_find? (membersKeyed_takenOver hs) hm, hmeets⟩
      · rw [if_neg htarget]
        by_cases hid : id ∈ closed
        · rw [if_pos hid]
          refine iff_of_false (fun hmem => ?_) ?_
          · exact hdisjoint hid ((List.mem_cons.1 hmem).resolve_left htarget)
          · rintro ⟨d, hd, -, hopen, -⟩
            obtain ⟨o, ho, rfl⟩ := hclosed hid hd
            cases hopen
        · rw [if_neg hid, ← shares id]
          simp [hid, htarget]
    · refine nodup.sublist (.cons_cons _ ?_)
      rw [List.append_assoc]
      exact List.sublist_append_right closed _

variable (hs : s.Sound) (hp : placement b s = .joined target (closed ++ copied.toList ++ rest))

include hs hp

/-- Halfway through a merge, its build is placed with the same outcome. -/
theorem placed_halfMerged (now : Timestamp) (i : Issue) :
    placed now i b (halfMerged now target closed copied s) = placed now i b s := by
  have hw := hs.wellFormed
  have hspec := placement_spec hw b
  have hsorted := sorted_of_joined hp
  rw [hp] at hspec
  have hrest : (target :: (copied.toList ++ rest)).Pairwise (· < ·) := by
    rw [List.append_assoc] at hsorted
    exact hsorted.sublist (.cons_cons _ (List.sublist_append_right closed _))
  have hp' := placement_eq_joined (wellFormed_halfMerged hw now target closed copied)
    (hspec.halfMerged hw now) hrest
  have hne : target ∉ copied := fun hmem =>
    (List.nodup_cons.1 hspec.mergeable.nodup).1 (by simp [Option.mem_def.1 hmem])
  unfold placed
  rw [hp, hp']
  exact congrArg (fun x => x.alter target (attached i b)) (merged_halfMerged hw hne)

/-- A defect halfway through a merge that has a build was there before, or a part of the merge has the
build, and the defect is the target or closed. -/
theorem origin_halfMerged {k : Nat} (he : (halfMerged now target closed copied s).find? e.id = some e)
    (hk : e.hasBuild k = true) :
    (e.id ≠ target ∧ s.find? e.id = some e) ∨
      (e.id = target ∨ e.supersededBy.isSome) ∧
        ∃ o, s.find? o.id = some o ∧ o.id ∈ target :: (closed ++ copied.toList) ∧
          o.server = e.server ∧ o.supersededBy = none ∧ o.hasBuild k = true := by
  have hw := hs.wellFormed
  have hspec := placement_spec hw b
  rw [hp] at hspec
  obtain ⟨t, ht, hnodup, hparts⟩ := hspec.parts hw
  have hlive : ∀ o ∈ t :: takenOver s (closed ++ copied.toList), o.supersededBy = none :=
    fun o ho => hw.notSuperseded_of_isOpen (hparts o ho).1 (hparts o ho).2.2.1
  rw [find?_halfMerged now s hnodup] at he
  split at he
  · rename_i hid
    rw [hid, ht] at he
    cases he
    obtain ⟨m, hm⟩ := Defect.find?_of_hasBuild hk
    obtain ⟨o, ho, hom⟩ := mem_of_find?_absorbedAll (membersKeyed_takenOver hw) hm
    have hserver : o.server = t.server :=
      (hparts o ho).2.1.trans (hparts t List.mem_cons_self).2.1.symm
    refine .inr ⟨.inl hid, o, (hparts o ho).1, ?_, ?_, hlive o ho, Defect.hasBuild_of_find? hom⟩
    · rcases List.mem_cons.1 ho with rfl | ho
      · rw [hw.keyed ht]
        exact List.mem_cons_self
      · obtain ⟨id, hmem, hid⟩ := mem_takenOver.1 ho
        rw [hw.keyed hid]
        exact List.mem_cons_of_mem _ hmem
    · exact hserver.trans (absorbedAll_sameStanding _ t).server.symm
  · rename_i hne
    split at he
    · rename_i hid
      obtain ⟨o, ho, hopen⟩ := hspec.mergeable.others e.id (by simp [hid])
      rw [ho, Option.map_some, superseded_of_isOpen hopen] at he
      obtain rfl := Option.some.inj he
      exact .inr ⟨.inr rfl, o, ho, by simp [hid], rfl, hw.notSuperseded_of_isOpen ho hopen, hk⟩
    · exact .inl ⟨hne, he⟩

/-- The target has the members of each part as soon as they have been copied. -/
theorem exists_target_halfMerged (now : Timestamp) :
    ∃ t', (halfMerged now target closed copied s).find? t'.id = some t' ∧ t'.id = target ∧
      t'.supersededBy = none ∧ t'.isOpen = true ∧
      ∀ o, s.find? o.id = some o → o.id ∈ target :: (closed ++ copied.toList) →
        o.server = t'.server ∧ o.isOpen = true ∧
        (∀ {k m}, o.members.find? k = some m → t'.members.find? k = some m) ∧
        (o.blame ≠ [] → t'.blame ≠ []) := by
  have hw := hs.wellFormed
  have hspec := placement_spec hw b
  rw [hp] at hspec
  obtain ⟨t, ht, hnodup, hall⟩ := hspec.parts hw
  have hparts : ∀ o ∈ t :: takenOver s (closed ++ copied.toList), s.find? o.id = some o ∧
      o.server = b.server ∧ o.isOpen = true := fun o ho =>
    ⟨(hall o ho).1, (hall o ho).2.1, (hall o ho).2.2.1⟩
  obtain ⟨-, htserver, htopen⟩ := hparts t List.mem_cons_self
  have hstand := absorbedAll_sameStanding (takenOver s (closed ++ copied.toList)) t
  have hid := hstand.id.trans (hw.keyed ht)
  have hlive := hstand.supersededBy.trans (hw.notSuperseded_of_isOpen ht htopen)
  refine ⟨_, ?_, hid, hlive, hstand.isOpen.trans htopen, fun o ho hpart => ?_⟩
  · rw [hid, find?_halfMerged now s hnodup, if_pos rfl, ht, Option.map_some]
  · have hmem : o ∈ t :: takenOver s (closed ++ copied.toList) := by
      rcases List.mem_cons.1 hpart with htarget | hother
      · rw [htarget, ht] at ho
        cases ho
        exact List.mem_cons_self
      · exact List.mem_cons_of_mem _ (mem_takenOver.2 ⟨o.id, hother, ho⟩)
    obtain ⟨-, hserver, hopen⟩ := hparts o hmem
    exact ⟨hserver.trans (hstand.server.trans htserver).symm, hopen,
      find?_absorbedAll_of_part hw hs.exclusive hparts hmem, blame_absorbedAll_ne_nil hmem⟩

/-- A build whose holder is part of the merge goes to the target as soon as it has been copied: the
target is open too and has the smaller id. -/
theorem held_halfMerged_of_part (hd : placement c s = .held d)
    (hpart : d.id ∈ target :: (closed ++ copied.toList)) :
    ∃ d', placement c (halfMerged now target closed copied s) = .held d' ∧ Passed c d d' := by
  have hw := hs.wellFormed
  have hlt : ∀ id ∈ closed ++ copied.toList, target < id := fun id hid =>
    target_lt_of_joined hp (List.mem_append_left _ hid)
  obtain ⟨hstored, hserver, hb, -⟩ := held_spec hw hd
  obtain ⟨t', hfound, hid, hlive, hopen, hhas⟩ := exists_target_halfMerged hs hp now
  obtain ⟨hdserver, hdopen, hentry, hblame⟩ := hhas d hstored hpart
  have hdlive := hw.notSuperseded_of_isOpen hstored hdopen
  obtain ⟨m, hm⟩ := Defect.find?_of_hasBuild hb
  refine ⟨t', held_of_least (wellFormed_halfMerged hw now target closed copied) hfound
    (hdserver.symm.trans hserver) (Defect.hasBuild_of_find? (hentry hm)) ?_,
    fun {m} hm => ⟨m, hentry hm, .refl m⟩, hblame⟩
  intro e he heserver heb
  rcases origin_halfMerged hs hp he heb with ⟨hne, hes⟩ | ⟨htarget | hsup, -⟩
  · cases hsup : e.supersededBy with
    | some id => exact rank_le_of_superseded hlive (by rw [hsup]; rfl)
    | none =>
      obtain rfl := hs.exclusive.eq_of_hasBuild hw hes hsup heb hstored hdlive hb
        (heserver.trans hserver.symm)
      refine rank_le_of_isOpen hlive hsup hopen hdopen ?_
      rw [hid]
      exact (hlt e.id ((List.mem_cons.1 hpart).resolve_left hne)).le
  · rw [htarget.trans hid.symm, hfound] at he
    rw [Option.some.inj he]
  · exact rank_le_of_superseded hlive hsup

/-- Any other build stays with its holder. -/
theorem held_halfMerged_of_not_part (hd : placement c s = .held d)
    (hpart : d.id ∉ target :: (closed ++ copied.toList)) :
    placement c (halfMerged now target closed copied s) = .held d := by
  have hw := hs.wellFormed
  have hspec := placement_spec hw b
  obtain ⟨hstored, hserver, hb, hle⟩ := held_spec hw hd
  rw [hp] at hspec
  obtain ⟨-, -, hnodup, -⟩ := hspec.parts hw
  have hfound : (halfMerged now target closed copied s).find? d.id = some d := by
    obtain ⟨hne, hnot⟩ := not_or.1 (mt List.mem_cons.2 hpart)
    rw [find?_halfMerged now s hnodup, if_neg hne, if_neg fun h => hnot (List.mem_append_left _ h)]
    exact hstored
  refine held_of_least (wellFormed_halfMerged hw now target closed copied) hfound hserver hb
    fun e he heserver heb => ?_
  rcases origin_halfMerged hs hp he heb with ⟨-, hes⟩ | ⟨-, o, ho, hmem, hos, holive, hok⟩
  · exact hle e hes heserver heb
  · -- a part of the merge with the build would be the holder
    have hoserver : o.server = c.server := hos.trans heserver
    have hdlive := supersededBy_of_rank_le (hle o ho hoserver hok) holive
    have hsame := hs.exclusive.eq_of_hasBuild hw ho holive hok hstored hdlive hb
      (hoserver.trans hserver.symm)
    rw [hsame] at hmem
    exact absurd hmem hpart

/-- A settled issue stays settled. -/
theorem settled_halfMerged (hset : Settled i c s) :
    Settled i c (halfMerged now target closed copied s) := by
  obtain ⟨d, hd, hin⟩ := hset
  by_cases hpart : d.id ∈ target :: (closed ++ copied.toList)
  · obtain ⟨d', hd', hpassed⟩ := held_halfMerged_of_part hs hp hd hpart
    exact ⟨d', hd', hin.passed hpassed⟩
  · exact ⟨d, held_halfMerged_of_not_part hs hp hd hpart, hin⟩

end HalfMerged

/-! ### Running again -/

section Again

variable {builds : OrderedMap BuildRef BuildSnapshot} {x : DefectStore}
  {acc : Report × DefectStore} {pre is : List Issue}

/-- An id that is given out in vain moves the ids to come by one. -/
theorem alike_nextId (hs : s.WellFormed) (hd : s.Descending) :
    Alike (skip s.lastId fun id => id) s s.nextId.2 := by
  refine ⟨hs, hs.nextId, strictMono_skip strictMono_id _, fun j => ?_, fun server => ?_⟩
  · have hlast : s.nextId.2.lastId = s.lastId + 1 := rfl
    rw [skip_of_lt (by omega), hlast]
    omega
  · refine List.map_congr_left fun d hmem => congrArg Defect.unbranched ?_
    have hstored := (hs.mem_onServer.1 hmem).1
    have hbound := hs.bounded hstored
    refine (Defect.rename_eq_self (skip_of_le hbound) fun target htarget => ?_).symm
    exact skip_of_le ((hd hstored htarget).le.trans hbound)

/-- When the placement of an issue has been cut, placing the issues before it again, which are
settled, and then the issue itself leads where the placement would have led. -/
theorem Halfway.again (h : Halfway now b s x) (hs : s.Sound) (hd : s.Descending)
    (hset : ∀ j ∈ pre, ∀ c, builds.find? j.key.ref = some c → Settled j c s) (r : Report)
    (i : Issue) : ∃ ρ, (∀ id ≤ s.lastId, ρ id = id) ∧ Alike ρ (placed now i b s)
      (placed now i b (pre.foldl (passStep now builds) (r, x)).2) := by
  have hw := hs.wellFormed
  cases h with
  | before =>
    have hpre := alike_foldl_of_settled now pre r hw hset
    exact ⟨fun id => id, fun _ _ => rfl, hpre.place now i b⟩
  | allocated =>
    have hnext := alike_nextId hw hd
    have hpre := alike_foldl_of_settled now pre r hnext.right
      fun j hj c hc => hnext.settled (hset j hj c hc)
    exact ⟨_, fun id hid => skip_of_le hid, (hnext.trans hpre).place now i b⟩
  | @merging target closed rest copied hp =>
    have hw' := wellFormed_halfMerged hw now target closed copied
    have hpre := alike_foldl_of_settled now pre r hw'
      fun j hj c hc => settled_halfMerged hs hp (hset j hj c hc)
    have hplace := hpre.place now i b
    rw [placed_halfMerged hs hp] at hplace
    exact ⟨fun id => id, fun _ _ => rfl, hplace⟩

/-- When a pass has been cut, placing all its issues again leads where the pass would have led. -/
theorem Paused.again (h : Paused now builds is acc x) (hs : acc.2.Sound) (hd : acc.2.Descending)
    (r : Report) : ∃ ρ, (∀ id ≤ acc.2.lastId, ρ id = id) ∧
      Alike ρ (is.foldl (passStep now builds) acc).2
        (is.foldl (passStep now builds) (r, x)).2 := by
  -- the issues that were placed before the cut
  have hfirst : ∀ pre : List Issue, (pre.foldl (passStep now builds) acc).2.Sound ∧
      (pre.foldl (passStep now builds) acc).2.Descending ∧
      acc.2.lastId ≤ (pre.foldl (passStep now builds) acc).2.lastId := fun pre =>
    foldl_passStep_induction (P := fun ds => ds.Sound ∧ ds.Descending ∧ acc.2.lastId ≤ ds.lastId)
      (fun i b ds _ h => ⟨sound_placed h.1 now i b, descending_placed h.1.wellFormed h.2.1 now i b,
        h.2.2.trans (lastId_le_placed now i b ds)⟩) pre ⟨hs, hd, le_rfl⟩
  have hset : ∀ pre : List Issue, ∀ j ∈ pre, ∀ c, builds.find? j.key.ref = some c →
      Settled j c (pre.foldl (passStep now builds) acc).2 :=
    fun pre j hj c hc => settled_foldl hc pre hj hs
  cases h with
  | @between pre post split =>
    subst split
    have hpre := alike_foldl_of_settled now pre r (hfirst pre).1.wellFormed (hset pre)
    rw [List.foldl_append, List.foldl_append]
    exact ⟨fun id => id, fun _ _ => rfl, hpre.foldl now builds post⟩
  | @within pre post i b x split known halfway =>
    subst split
    obtain ⟨hsound, hdescending, hlast⟩ := hfirst pre
    obtain ⟨ρ, hfixes, halike⟩ := halfway.again hsound hdescending (hset pre) r i
    refine ⟨ρ, fun id hid => hfixes id (hid.trans hlast), ?_⟩
    rw [List.foldl_append, List.foldl_append, List.foldl_cons, List.foldl_cons]
    refine Alike.foldl now builds post ?_
    rw [passStep_of_some known, passStep_of_some known]
    exact halike

/-- A pass from stores that differ in their defects only. -/
theorem outcome_of_fields {s s' : Stores} (cfg : ClusteringConfig) (now : Timestamp)
    (hbuilds : s'.builds = s.builds) (hissues : s'.issues = s.issues) :
    outcome cfg now s' =
      (recent cfg now s).foldl (passStep now s.builds) (.empty, s'.defects) := by
  unfold outcome
  rw [recent_congr hissues, hbuilds]

theorem outcome_after_cut {s s₁ : Stores} {cfg : ClusteringConfig} (hs : s.defects.Sound)
    (hd : s.defects.Descending) (hcut : (cluster cfg now).Cut s s₁) :
    s₁.builds = s.builds ∧ s₁.issues = s.issues ∧ s₁.defects.WellFormed ∧
      ∃ ρ, (∀ id ≤ s.defects.lastId, ρ id = id) ∧
        Alike ρ (outcome cfg now s).2 (outcome cfg now s₁).2 := by
  obtain ⟨x, hx, hs₁⟩ := cut_cluster hs.wellFormed hcut
  obtain ⟨hdefects, hbuilds, hissues⟩ := withDefects_fields hs₁.symm
  obtain ⟨ρ, hfixes, halike⟩ := hx.again hs hd .empty
  refine ⟨hbuilds, hissues, ?_, ρ, hfixes, ?_⟩
  · rw [hdefects]
    exact hx.wellFormed hs.wellFormed
  · rw [outcome_of_fields cfg now hbuilds hissues, outcome_of_fields cfg now rfl rfl, hdefects]
    exact halike

end Again

/-! ### What is the same in stores that are alike -/

/-- The issues that are attached to a build in a defect of its server that no other one took over. -/
def liveIssues (s : DefectStore) (server : String) (build : Nat) : Set DefectIssue :=
  {x | ∃ d ∈ s.onServer server, d.supersededBy = none ∧
    ∃ m, d.members.find? build = some m ∧ x ∈ m.issues}

section Alike

variable {t : DefectStore} {ρ : Nat → Nat} {server : String}

/-- The same defect in two stores that are alike. -/
structure Counterpart (d e : Defect) : Prop where
  members : e.members = d.members
  isOpen : e.isOpen = d.isOpen
  live : e.supersededBy = none ↔ d.supersededBy = none

theorem counterpart_of_eq (h : e.unbranched = (d.rename ρ).unbranched) : Counterpart d e := by
  have hsup : e.supersededBy = d.supersededBy.map ρ := congrArg (·.supersededBy) h
  refine ⟨congrArg (·.members) h, congrArg (·.isOpen) h, ?_⟩
  rw [hsup, Option.map_eq_none_iff]

theorem Alike.exists_right (h : Alike ρ s t) (hd : d ∈ s.onServer server) :
    ∃ e ∈ t.onServer server, Counterpart d e := by
  have hmem : (d.rename ρ).unbranched ∈ (t.onServer server).map Defect.unbranched := by
    rw [h.same server]
    exact List.mem_map_of_mem hd
  obtain ⟨e, he, hsame⟩ := List.mem_map.1 hmem
  exact ⟨e, he, counterpart_of_eq hsame⟩

theorem Alike.exists_left (h : Alike ρ s t) (he : e ∈ t.onServer server) :
    ∃ d ∈ s.onServer server, Counterpart d e := by
  have hmem : e.unbranched ∈ (s.onServer server).map fun d => (d.rename ρ).unbranched := by
    rw [← h.same server]
    exact List.mem_map_of_mem he
  obtain ⟨d, hd, hsame⟩ := List.mem_map.1 hmem
  exact ⟨d, hd, counterpart_of_eq hsame.symm⟩

theorem Counterpart.builds (h : Counterpart d e) : e.builds = d.builds := by
  unfold Defect.builds Defect.hasBuild
  rw [h.members]

theorem Alike.partition (h : Alike ρ s t) (server : String) :
    partition t server = partition s server := by
  ext B
  constructor
  · rintro ⟨e, he, hopen, rfl⟩
    obtain ⟨d, hd, hsame⟩ := h.exists_left he
    exact ⟨d, hd, hsame.isOpen.symm.trans hopen, hsame.builds⟩
  · rintro ⟨d, hd, hopen, rfl⟩
    obtain ⟨e, he, hsame⟩ := h.exists_right hd
    exact ⟨e, he, hsame.isOpen.trans hopen, hsame.builds.symm⟩

theorem Alike.liveIssues (h : Alike ρ s t) (server : String) (build : Nat) :
    liveIssues t server build = liveIssues s server build := by
  ext x
  constructor
  · rintro ⟨e, he, hlive, m, hm, hx⟩
    obtain ⟨d, hd, hsame⟩ := h.exists_left he
    exact ⟨d, hd, hsame.live.1 hlive, m, hsame.members ▸ hm, hx⟩
  · rintro ⟨d, hd, hlive, m, hm, hx⟩
    obtain ⟨e, he, hsame⟩ := h.exists_right hd
    exact ⟨e, he, hsame.live.2 hlive, m, hsame.members ▸ hm, hx⟩

end Alike

end Clustering

open Clustering

/-- A pass that has been cut between two of its requests is repaired by the next one.  However far it
came, a pass over the stores that it left behind completes, and leaves the defects that the pass would
have left without the cut, but for their branches and the ids that were given out: the open defects
group the builds alike, and in the defects that are not superseded each build has the same issues. -/
theorem Reachable.cluster_after_cut {s s₁ : Stores} (h : Reachable s) {cfg : ClusteringConfig}
    {now since : Timestamp} (hwindow : now.minusDays cfg.lookbackDays = .ok since)
    (hcut : (cluster cfg now).Cut s s₁) :
    ∃ r s' r₂ s₂, (cluster cfg now).exec s = (.ok r, s') ∧
      s₁.builds = s.builds ∧ s₁.issues = s.issues ∧
      (cluster cfg now).exec s₁ = (.ok r₂, s₂) ∧
      (∀ server, partition s₂.defects server = partition s'.defects server ∧
        ∀ build, liveIssues s₂.defects server build = liveIssues s'.defects server build) ∧
      ∃ ρ : Nat → Nat, StrictMono ρ ∧ (∀ id ≤ s.defects.lastId, ρ id = id) ∧ ∀ server,
        (s₂.defects.onServer server).map Defect.unbranched =
          (s'.defects.onServer server).map fun d => (d.rename ρ).unbranched := by
  obtain ⟨hbuilds, hissues, hw, ρ, hfixes, halike⟩ :=
    outcome_after_cut h.sound h.descending hcut
  obtain ⟨s', hexec, hdefects⟩ := exec_cluster_defects h.sound.wellFormed hwindow
  obtain ⟨s₂, hexec₂, hdefects₂⟩ := exec_cluster_defects hw hwindow
  refine ⟨_, s', _, s₂, hexec, hbuilds, hissues, hexec₂, fun server => ?_, ρ, halike.mono, hfixes,
    fun server => ?_⟩
  · rw [hdefects, hdefects₂]
    exact ⟨halike.partition server, halike.liveIssues server⟩
  · rw [hdefects, hdefects₂]
    exact halike.same server

/-- A service on the stores of the bridge whose second update of a defect fails. -/
def bridgingFailing : Service :=
  { Service.make .default bridgeTime .log with
    stores := Operation.runAll bridging .empty
    interventions := [⟨.updateDefect, 1, [], some (.backend "disk full")⟩] }

/-- The members of the second defect have been copied but it is still open, so both hold the second
build.  The next pass closes it, and fills in the branch of the second issue besides. -/
theorem Reachable.cluster_after_cut_bridging :
    ∃ s s₁ r s' r₂ s₂, Reachable s ∧ (cluster .default bridgeTime).Cut s s₁ ∧
      s₁.defects.openDefects.map (fun d => d.memberRefs.map (·.build)) = [[1, 2], [2]] ∧
      (cluster .default bridgeTime).exec s = (.ok r, s') ∧
      (cluster .default bridgeTime).exec s₁ = (.ok r₂, s₂) ∧
      s₂.defects.openDefects.map (fun d => d.memberRefs.map (·.build)) = [[1, 2, 3]] ∧
      s₂.defects.openDefects.map (·.trackedBranch) = [some "master"] ∧
      s'.defects.openDefects.map (·.trackedBranch) = [none] ∧
      partition s₂.defects "apache" = partition s'.defects "apache" ∧
      liveIssues s₂.defects "apache" 2 = liveIssues s'.defects "apache" 2 := by
  have hr := Reachable.empty.runAll bridging
  have hwindow : bridgeTime.minusDays ClusteringConfig.default.lookbackDays =
      .ok ⟨1698790400, 0⟩ := by decide +kernel
  have hfails : bridgingFailing.OnlyFails := by
    intro i hi
    rw [List.mem_singleton.1 hi]
    exact ⟨rfl, by decide⟩
  have hcut := hfails.cut_perform (cluster .default bridgeTime)
  obtain ⟨r, s', r₂, s₂, hexec, -, -, hexec₂, hsame, -⟩ :=
    Reachable.cluster_after_cut hr hwindow hcut
  have hs' : s' = ((cluster .default bridgeTime).exec (Operation.runAll bridging .empty)).2 := by
    rw [hexec]
  have hs₂ : s₂ = ((cluster .default bridgeTime).exec
      (bridgingFailing.perform (cluster .default bridgeTime)).2.stores).2 := by
    rw [hexec₂]
  refine ⟨_, _, r, s', r₂, s₂, hr, hcut, by decide +kernel, hexec, hexec₂, ?_, ?_, ?_,
    (hsame "apache").1, (hsame "apache").2 2⟩
  · rw [hs₂]
    decide +kernel
  · rw [hs₂]
    decide +kernel
  · rw [hs']
    decide +kernel

end Triage
