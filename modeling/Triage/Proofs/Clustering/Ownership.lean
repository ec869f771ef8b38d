import Triage.Proofs.Clustering.Lineage
import Triage.Proofs.Operation

/-!
# Each build and each commit has one owner

Among the defects of a server that no other one took over, no two have a build in common, and no two
open ones a commit.  The invariant is `DefectStore.Sound`; a placement keeps it because every entry
afterwards has an origin (`origin_placed`), and the other operations because they only trim the
store (`DefectStore.Trimmed`).  `Reachable.owners_unique` states it for the records.
-/

namespace Triage

namespace DefectStore

structure Sound (s : DefectStore) : Prop where
  wellFormed : s.WellFormed
  exclusive : s.Exclusive

theorem sound_of_none {s : DefectStore} (h : ∀ id, s.find? id = none) : s.Sound := by
  refine ⟨.of_none h, fun he => ?_, fun he => ?_⟩ <;>
  · have := he.stored
    rw [h] at this
    cases this

/-- For stores with an outcome in them, which comparing the two types would evaluate. -/
theorem Sound.stored {ds : DefectStore} (h : ds.Sound) (s : Stores) :
    ({ s with defects := ds } : Stores).defects.Sound := h

/-! ### Trimming -/

/-- Defects may be gone, and what stays has the same members and is not opened again. -/
structure Trimmed (s t : DefectStore) : Prop where
  lastId : t.lastId = s.lastId
  kept {id : Nat} {d' : Defect} : t.find? id = some d' → ∃ d, s.find? id = some d ∧ d'.id = d.id ∧
    d'.server = d.server ∧ d'.members = d.members ∧ d'.supersededBy = d.supersededBy ∧
    (d'.isOpen = true → d.isOpen = true)

theorem Trimmed.of_find? {s t : DefectStore} (hl : t.lastId = s.lastId)
    (h : ∀ id d, t.find? id = some d → s.find? id = some d) : s.Trimmed t :=
  ⟨hl, fun hd => ⟨_, h _ _ hd, rfl, rfl, rfl, rfl, fun ho => ho⟩⟩

theorem Trimmed.refl (s : DefectStore) : s.Trimmed s := .of_find? rfl fun _ _ h => h

theorem Trimmed.trans {s t u : DefectStore} (h : s.Trimmed t) (h' : t.Trimmed u) : s.Trimmed u := by
  refine ⟨h'.lastId.trans h.lastId, fun hd => ?_⟩
  obtain ⟨e, he, hid, hserver, hm, hsup, hopen⟩ := h'.kept hd
  obtain ⟨d, hd, hid', hserver', hm', hsup', hopen'⟩ := h.kept he
  exact ⟨d, hd, hid.trans hid', hserver.trans hserver', hm.trans hm', hsup.trans hsup',
    fun ho => hopen' (hopen ho)⟩

theorem Trimmed.wellFormed {s t : DefectStore} (h : s.Trimmed t) (hs : s.WellFormed) :
    t.WellFormed := by
  constructor
  · intro id d' hd'
    obtain ⟨d, hd, hid, -⟩ := h.kept hd'
    exact hid.trans (hs.keyed hd)
  · intro id d' hd'
    obtain ⟨d, hd, -⟩ := h.kept hd'
    exact h.lastId ▸ hs.bounded hd
  · intro id d' hd' k m hm
    obtain ⟨d, hd, -, -, hmem, -⟩ := h.kept hd'
    exact hs.members hd k m (hmem ▸ hm)
  · intro id d' hd' hsup
    obtain ⟨d, hd, -, -, -, hsame, hopen⟩ := h.kept hd'
    have hclosed := hs.closed hd (hsame ▸ hsup)
    by_contra ho
    rw [hopen (by simpa using ho)] at hclosed
    cases hclosed

/-! ### Exclusive stores -/

theorem Trimmed.inherited {s t : DefectStore} (h : s.Trimmed t) (hs : s.WellFormed) {d' : Defect}
    {m' : DefectBuild} (he : t.Entry d' m') : s.Inherited id d' m' := by
  obtain ⟨d, hd, hid, hserver, hm, hsup, hopen⟩ := h.kept he.stored
  exact ⟨d, m', hs.entry hd (hsup ▸ he.live) (hm ▸ he.member), hid.symm, hserver, hopen, .refl m'⟩

variable {s t : DefectStore} {into : Nat → Nat} {d d' : Defect} {m m' : DefectBuild}

theorem Exclusive.id_eq_of_build (h : s.Exclusive) (hd : s.Inherited into d m)
    (hd' : s.Inherited into d' m') (hserver : d.server = d'.server) (hbuild : m.build = m'.build) :
    d.id = d'.id := by
  obtain ⟨e, n, he, hid, hes, -, hk⟩ := hd
  obtain ⟨e', n', he', hid', hes', -, hk'⟩ := hd'
  have hsame : e.id = e'.id :=
    h.holder he he' (by rw [← hes, ← hes', hserver]) (by rw [← hk.build, ← hk'.build, hbuild])
  rw [← hid, ← hid', hsame]

theorem Exclusive.id_eq_of_commits (h : s.Exclusive) (hd : s.Inherited into d m)
    (hd' : s.Inherited into d' m') (ho : d.isOpen = true) (ho' : d'.isOpen = true)
    (hserver : d.server = d'.server) (hmeets : m.fingerprint.meets m'.fingerprint = true) :
    d.id = d'.id := by
  obtain ⟨e, n, he, hid, hes, hopen, hk⟩ := hd
  obtain ⟨e', n', he', hid', hes', hopen', hk'⟩ := hd'
  rw [hk.fingerprint, hk'.fingerprint] at hmeets
  have hsame : e.id = e'.id :=
    h.commits he he' (hopen ho) (hopen' ho') (by rw [← hes, ← hes', hserver]) hmeets
  rw [← hid, ← hid', hsame]

theorem Exclusive.of_inherited (h : s.Exclusive)
    (hin : ∀ {d m}, t.Entry d m → s.Inherited into d m) : t.Exclusive where
  holder he he' := h.id_eq_of_build (hin he) (hin he')
  commits he he' := h.id_eq_of_commits (hin he) (hin he')

theorem Trimmed.sound (h : s.Trimmed t) (hs : s.Sound) : t.Sound :=
  ⟨h.wellFormed hs.wellFormed, hs.exclusive.of_inherited fun he => h.inherited hs.wellFormed he⟩

end DefectStore

/-! ### Placements -/

namespace Clustering

open DefectStore

variable {s : DefectStore} {b : BuildSnapshot} {d d' : Defect} {m m' : DefectBuild}

/-- A member from before is not the build that no defect held. -/
theorem build_ne_of_fresh {into : Nat → Nat} {home : Nat}
    (hunheld : ∀ e, s.find? e.id = some e → e.server = b.server → e.hasBuild b.build = false)
    (hd : s.Inherited into d m) (hd' : Fresh b home d' m') (hserver : d.server = d'.server) :
    m.build ≠ m'.build := by
  intro hbuild
  obtain ⟨e, n, he, -, hes, -, hk⟩ := hd
  have hb := hunheld e he.stored (by rw [← hes, hserver, hd'.server])
  have hn : n.build = b.build := by rw [← hk.build, hbuild, hd'.build]
  rw [← hn, he.hasBuild] at hb
  cases hb

/-- An open defect that shares a commit with the build that no defect held goes where it goes. -/
theorem id_eq_of_fresh (hs : s.WellFormed)
    (hunheld : ∀ e, s.find? e.id = some e → e.server = b.server → e.hasBuild b.build = false)
    (hd : s.Inherited (placement b s).into d m) (hd' : Fresh b ((placement b s).home s) d' m')
    (hopen : d.isOpen = true) (hserver : d.server = d'.server)
    (hmeets : m.fingerprint.meets m'.fingerprint = true) : d.id = d'.id := by
  obtain ⟨e, n, he, hid, hes, ho, hk⟩ := hd
  rw [hk.fingerprint, hd'.fingerprint] at hmeets
  rw [← hid, hd'.home]
  exact into_eq_home hs hunheld he.stored (by rw [← hes, hserver, hd'.server]) (ho hopen)
    (he.shares hmeets)

theorem sound_placed (hs : s.Sound) (now : Timestamp) (i : Issue) (b : BuildSnapshot) :
    (placed now i b s).Sound := by
  refine ⟨wellFormed_placed hs.wellFormed now i b, ?_, ?_⟩
  · intro d d' m m' he he' hserver hbuild
    rcases origin_placed hs.wellFormed he with hd | ⟨hunheld, hd⟩ <;>
      rcases origin_placed hs.wellFormed he' with hd' | ⟨hunheld', hd'⟩
    · exact hs.exclusive.id_eq_of_build hd hd' hserver hbuild
    · exact absurd hbuild (build_ne_of_fresh hunheld' hd hd' hserver)
    · exact absurd hbuild.symm (build_ne_of_fresh hunheld hd' hd hserver.symm)
    · exact hd.home.trans hd'.home.symm
  · intro d d' m m' he he' ho ho' hserver hmeets
    rcases origin_placed hs.wellFormed he with hd | ⟨hunheld, hd⟩ <;>
      rcases origin_placed hs.wellFormed he' with hd' | ⟨hunheld', hd'⟩
    · exact hs.exclusive.id_eq_of_commits hd hd' ho ho' hserver hmeets
    · exact id_eq_of_fresh hs.wellFormed hunheld' hd hd' ho hserver hmeets
    · rw [OrderedSet.meets_comm] at hmeets
      exact (id_eq_of_fresh hs.wellFormed hunheld hd' hd ho' hserver.symm hmeets).symm
    · exact hd.home.trans hd'.home.symm

theorem sound_outcome {s : Stores} (hs : s.defects.Sound) (cfg : ClusteringConfig)
    (now : Timestamp) : (outcome cfg now s).2.Sound :=
  outcome_induction hs fun i b _ _ h => sound_placed h now i b

theorem trimmed_resolved (s : DefectStore) (now : Timestamp) (id : Nat) (user : String) :
    s.Trimmed (s.alter id (resolved now user)) := by
  refine ⟨rfl, fun {k d'} hd' => ?_⟩
  rw [find?_alter] at hd'
  split at hd'
  · obtain ⟨d, hd, rfl⟩ := Option.map_eq_some_iff.1 hd'
    refine ⟨d, hd, ?_⟩
    unfold resolved
    cases ho : d.isOpen with
    | true =>
      rw [resolution_of_isOpen ho]
      exact ⟨rfl, rfl, rfl, rfl, fun _ => rfl⟩
    | false =>
      rw [resolution_of_not_isOpen ho]
      exact ⟨rfl, rfl, rfl, rfl, fun h => ho ▸ h⟩
  · exact ⟨d', hd', rfl, rfl, rfl, rfl, fun ho => ho⟩

end Clustering

namespace Cleaning

open DefectStore

theorem trimmed_remarked {s : Stores} (hs : s.defects.WellFormed) :
    s.defects.Trimmed (remarked s) := by
  refine ⟨lastId_remark _ _ _, fun {k d'} hd' => ?_⟩
  rw [find?_remarked hs.isKeyed] at hd'
  obtain ⟨d, hd, rfl⟩ := Option.map_eq_some_iff.1 hd'
  exact ⟨d, hd, rfl, rfl, rfl, rfl, fun ho => ho⟩

theorem trimmed_removeOld (s : DefectStore) (threshold : Timestamp) (budget : Nat) :
    s.Trimmed (s.removeOld threshold budget).2 :=
  .of_find? rfl fun _ _ => OrderedMap.find?_of_removeFirst

theorem trimmed_remove (s : DefectStore) (id : Nat) : s.Trimmed (s.remove id).2 := by
  refine .of_find? rfl fun k d hd => ?_
  rw [find?_remove] at hd
  split at hd
  · cases hd
  · exact hd

theorem trimmed_clean {s : Stores} (hs : s.defects.WellFormed) (cfg : CleanerConfig)
    (now : Timestamp) : s.defects.Trimmed ((clean cfg now).exec s).2.defects := by
  cases he : cfg.enabled with
  | false =>
    rw [exec_clean_of_disabled he]
    exact .refl _
  | true =>
    cases ht : now.minusDays cfg.safeDays with
    | error o =>
      rw [exec_clean_of_error he ht]
      exact .refl _
    | ok threshold =>
      rw [exec_clean_of_ok hs.isKeyed he ht]
      exact (trimmed_remarked hs).trans (trimmed_removeOld _ _ _)

theorem trimmed_discardBroken (s : Stores) (id : Nat) (user : String) :
    s.defects.Trimmed ((discardBroken id user).exec s).2.defects := by
  cases hd : s.defects.find? id with
  | none =>
    rw [exec_discardBroken_of_none hd]
    exact .refl _
  | some d =>
    by_cases hc : d.consistency = .broken
    · rw [exec_discardBroken_of_broken hd hc]
      exact trimmed_remove _ _
    · rw [exec_discardBroken_of_consistent hd hc]
      exact .refl _

end Cleaning

/-! ### Reachable stores -/

/-- All operations but clustering trim the store. -/
theorem Operation.trimmed_run {s : Stores} (hs : s.defects.WellFormed) (o : Operation) :
    (∃ cfg now, o = .cluster cfg now) ∨ s.defects.Trimmed (o.run s).defects := by
  cases o with
  | saveIssue i => exact .inr (.refl _)
  | putBuild b => exact .inr (.refl _)
  | removeBuild r => exact .inr (.refl _)
  | cluster cfg now => exact .inl ⟨cfg, now, rfl⟩
  | resolve now id user =>
    rw [run, Pass.after_eq, Clustering.exec_resolve_snd]
    exact .inr (Clustering.trimmed_resolved s.defects now id user)
  | checkConsistency =>
    rw [run, Pass.after_eq, Cleaning.exec_checkConsistency hs.isKeyed]
    exact .inr (Cleaning.trimmed_remarked hs)
  | clean cfg now =>
    rw [run, Pass.after_eq]
    exact .inr (Cleaning.trimmed_clean hs cfg now)
  | discardBroken id user =>
    rw [run, Pass.after_eq]
    exact .inr (Cleaning.trimmed_discardBroken s id user)

theorem Operation.sound_run {s : Stores} (hs : s.defects.Sound) (o : Operation) :
    (o.run s).defects.Sound := by
  rcases o.trimmed_run hs.wellFormed with ⟨cfg, now, rfl⟩ | htrimmed
  · rw [defects_cluster hs.wellFormed]
    exact Clustering.sound_outcome hs cfg now
  · exact htrimmed.sound hs

theorem Reachable.sound {s : Stores} (h : Reachable s) : s.defects.Sound := by
  induction h with
  | empty => exact DefectStore.sound_of_none fun _ => rfl
  | run o _ ih => exact o.sound_run ih

/-- What holds of empty stores, and is kept where defects are trimmed and where an issue is placed, holds
of all stores that operations can lead to. -/
theorem Reachable.defects_induction {P : DefectStore → Prop} {s : Stores} (h : Reachable s)
    (hempty : P .empty) (htrim : ∀ {s t : DefectStore}, s.Trimmed t → P s → P t)
    (hplaced : ∀ {ds : DefectStore} (now : Timestamp) (i : Issue) (b : BuildSnapshot),
      ds.WellFormed → P ds → P (Clustering.placed now i b ds)) : P s.defects := by
  induction h with
  | empty => exact hempty
  | run o h ih =>
    have hw := h.sound.wellFormed
    rcases o.trimmed_run hw with ⟨cfg, now, rfl⟩ | htrimmed
    · rw [Operation.defects_cluster hw]
      exact Clustering.outcome_induction_of_wellFormed hw ih fun i b ds hds => hplaced now i b hds
    · exact htrim htrimmed ih

/-! ### Owners of builds and commits -/

/-- The stored commits of all members. -/
def Defect.commits (d : Defect) : Set CommitHash :=
  {c | ∃ m ∈ d.members.values, c ∈ m.fingerprint}

namespace DefectStore

variable {s : DefectStore}

theorem WellFormed.nodup_all (h : s.WellFormed) : s.all.Nodup :=
  .of_map (·.id) (h.map_id_all ▸ OrderedMap.nodup_keys _)

theorem mem_holders_iff (h : s.WellFormed) {server : String} {p : Defect → Bool} {build : Nat}
    {d : Defect} : d ∈ (s.onServer server).filter (fun d => p d && d.hasBuild build) ↔
      s.find? d.id = some d ∧ d.server = server ∧ p d = true ∧ d.hasBuild build = true := by
  rw [List.mem_filter, h.mem_onServer, Bool.and_eq_true, and_assoc]

/-- At most one defect of a server has the build, among those that satisfy a condition that no
superseded defect satisfies. -/
theorem Sound.length_holders (h : s.Sound) (server : String) (build : Nat) {p : Defect → Bool}
    (hp : ∀ {d}, s.find? d.id = some d → p d = true → d.supersededBy = none) :
    ((s.onServer server).filter fun d => p d && d.hasBuild build).length ≤ 1 := by
  have hnd : ((s.onServer server).filter fun d => p d && d.hasBuild build).Nodup :=
    (h.wellFormed.nodup_all.filter _).filter _
  rw [← List.toFinset_card_of_nodup hnd, Finset.card_le_one]
  intro d hd d' hd'
  rw [List.mem_toFinset, mem_holders_iff h.wellFormed] at hd hd'
  obtain ⟨hstored, hserver, hpd, hbuild⟩ := hd
  obtain ⟨hstored', hserver', hpd', hbuild'⟩ := hd'
  obtain ⟨m, hm⟩ := Defect.find?_of_hasBuild hbuild
  obtain ⟨m', hm'⟩ := Defect.find?_of_hasBuild hbuild'
  have he := h.wellFormed.entry hstored (hp hstored hpd) hm
  have he' := h.wellFormed.entry hstored' (hp hstored' hpd') hm'
  have hbuilds : m.build = m'.build := by
    rw [h.wellFormed.members hstored _ _ hm, h.wellFormed.members hstored' _ _ hm']
  have hid : d.id = d'.id :=
    h.exclusive.holder he he' (hserver.trans hserver'.symm) hbuilds
  rw [hid, hstored'] at hstored
  exact (Option.some.inj hstored).symm

theorem Sound.disjoint_commits (h : s.Sound) {d d' : Defect} (hd : s.find? d.id = some d)
    (hd' : s.find? d'.id = some d') (hserver : d.server = d'.server) (ho : d.isOpen = true)
    (ho' : d'.isOpen = true) (hne : d ≠ d') : Disjoint d.commits d'.commits := by
  rw [Set.disjoint_left]
  rintro c ⟨m, hm, hc⟩ ⟨m', hm', hc'⟩
  obtain ⟨k, hk⟩ := OrderedMap.mem_values_iff.1 hm
  obtain ⟨k', hk'⟩ := OrderedMap.mem_values_iff.1 hm'
  have he := h.wellFormed.entry hd (h.wellFormed.notSuperseded_of_isOpen hd ho) hk
  have he' := h.wellFormed.entry hd' (h.wellFormed.notSuperseded_of_isOpen hd' ho') hk'
  have hid : d.id = d'.id :=
    h.exclusive.commits he he' ho ho' hserver (OrderedSet.meets_iff.2 ⟨c, hc, hc'⟩)
  rw [hid, hd'] at hd
  exact hne (Option.some.inj hd).symm

end DefectStore

/-- In all stores that operations can lead to, a build has at most one holder on its server that no
other defect took over, and so at most one open one, and the open defects of a server have no commit
in common. -/
theorem Reachable.owners_unique {s : Stores} (h : Reachable s) (server : String) :
    (∀ build, ((s.defects.onServer server).filter fun d =>
        d.supersededBy.isNone && d.hasBuild build).length ≤ 1) ∧
      (∀ build, ((s.defects.onServer server).filter fun d =>
        d.isOpen && d.hasBuild build).length ≤ 1) ∧
      {d | d ∈ s.defects.onServer server ∧ d.isOpen = true}.PairwiseDisjoint Defect.commits := by
  have hs := h.sound
  refine ⟨fun build => ?_, fun build => ?_, ?_⟩
  · exact hs.length_holders server build fun _ hnone => Option.isNone_iff_eq_none.1 hnone
  · exact hs.length_holders server build hs.wellFormed.notSuperseded_of_isOpen
  · rintro d ⟨hd, ho⟩ d' ⟨hd', ho'⟩ hne
    obtain ⟨hstored, hserver⟩ := hs.wellFormed.mem_onServer.1 hd
    obtain ⟨hstored', hserver'⟩ := hs.wellFormed.mem_onServer.1 hd'
    exact hs.disjoint_commits hstored hstored' (hserver.trans hserver'.symm) ho ho' hne

/-- Once a third build has bridged two others, the second is a member of two stored defects, and of
only one that no other took over. -/
theorem Reachable.owners_unique_bridging :
    ∃ s, Reachable s ∧
      ((s.defects.onServer "apache").filter fun d => d.hasBuild 2).length = 2 ∧
      ((s.defects.onServer "apache").filter fun d =>
        d.supersededBy.isNone && d.hasBuild 2).length = 1 ∧
      (∀ build, ((s.defects.onServer "apache").filter fun d =>
        d.supersededBy.isNone && d.hasBuild build).length ≤ 1) ∧
      (∀ build, ((s.defects.onServer "apache").filter fun d =>
        d.isOpen && d.hasBuild build).length ≤ 1) ∧
      {d | d ∈ s.defects.onServer "apache" ∧ d.isOpen = true}.PairwiseDisjoint Defect.commits :=
  have hr := Reachable.empty.runAll (bridging ++ [.cluster .default bridgeTime])
  ⟨_, hr, by decide +kernel, by decide +kernel, Reachable.owners_unique hr "apache"⟩

end Triage
