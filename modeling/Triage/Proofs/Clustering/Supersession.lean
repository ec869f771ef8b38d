import Triage.Proofs.Clustering.Idempotence
import Triage.Proofs.Evolution

/-!
# Nothing is lost in a merge

The defect that takes another one over has the smaller id (`Reachable.descending`).  As long as no
defect is removed, it also stays stored and has all members of the other one (`DefectStore.Chained`), so
the chain from any defect ends, at a defect that no other one took over and that knows whatever the
chain knows (`Accumulated.nothing_lost`).  A superseded defect is never the holder of a build, because
the end of its chain is preferred to it; so what it knows does not grow any more, and the defect that
took it over stays ahead of it.
-/

namespace Triage

open Relation

namespace DefectStore

/-- The first defect has been taken over by the second. -/
def LeadsTo (s : DefectStore) (id target : Nat) : Prop :=
  ∃ d, s.find? id = some d ∧ d.supersededBy = some target

/-- Superseded defects lead to smaller ids. -/
def Descending (s : DefectStore) : Prop :=
  ∀ ⦃id target d⦄, s.find? id = some d → d.supersededBy = some target → target < id

/-- Superseded defects lead to stored ones with smaller ids and with all their members. -/
structure Chained (s : DefectStore) : Prop where
  sound : s.Sound
  descending : s.Descending
  link {id target : Nat} {d : Defect} : s.find? id = some d → d.supersededBy = some target →
    ∃ e, s.find? target = some e ∧ e.server = d.server ∧ d.Within e

/-- The end of the chain from a defect. -/
structure End (s : DefectStore) (id last : Nat) (e : Defect) : Prop where
  stored : s.find? last = some e
  live : e.supersededBy = none
  /-- Whatever is on the chain leads to its end, and has no more members. -/
  covers {c : Nat} : ReflTransGen s.LeadsTo id c → ReflTransGen s.LeadsTo c last ∧
    ∃ x, s.find? c = some x ∧ x.server = e.server ∧ x.Within e

variable {s t : DefectStore} {id : Nat} {d : Defect}

theorem LeadsTo.unique {target target' : Nat} (h : s.LeadsTo id target) (h' : s.LeadsTo id target') :
    target = target' := by
  obtain ⟨d, hd, ht⟩ := h
  obtain ⟨d', hd', ht'⟩ := h'
  cases hd.symm.trans hd'
  exact Option.some.inj (ht.symm.trans ht')

/-- Every chain ends: the ids on it become smaller. -/
theorem Chained.exists_end (h : s.Chained) (hd : s.find? id = some d) :
    ∃ last e, s.End id last e := by
  induction id using Nat.strong_induction_on generalizing d with
  | _ id ih =>
    cases hsup : d.supersededBy with
    | none =>
      refine ⟨id, d, hd, hsup, fun {c} hc => ?_⟩
      have hstop : ∀ target, ¬ s.LeadsTo id target := by
        rintro target ⟨d', hd', ht⟩
        cases hd.symm.trans hd'
        cases hsup.symm.trans ht
      obtain rfl := (Relation.reflTransGen_iff_eq hstop).1 hc
      exact ⟨.refl, d, hd, rfl, .refl d⟩
    | some target =>
      obtain ⟨t, ht, hserver, hwithin⟩ := h.link hd hsup
      obtain ⟨last, e, hend⟩ := ih target (h.descending hd hsup) ht
      have hstep : s.LeadsTo id target := ⟨d, hd, hsup⟩
      obtain ⟨hpath, x, hx, hxserver, hxwithin⟩ := hend.covers .refl
      cases ht.symm.trans hx
      refine ⟨last, e, hend.stored, hend.live, fun {c} hc => ?_⟩
      rcases ReflTransGen.cases_head hc with rfl | ⟨next, hnext, hc⟩
      · exact ⟨.head hstep hpath, d, hd, hserver.symm.trans hxserver, hwithin.trans hxwithin⟩
      · obtain rfl := hstep.unique hnext
        exact hend.covers hc

/-- The end of the chain from a defect has each of its builds. -/
theorem End.hasBuild {last build : Nat} {e : Defect} (h : s.End id last e)
    (hd : s.find? id = some d) (hb : d.hasBuild build = true) :
    e.server = d.server ∧ e.hasBuild build = true := by
  obtain ⟨-, x, hx, hserver, hwithin⟩ := h.covers .refl
  cases hd.symm.trans hx
  exact ⟨hserver.symm, hwithin.hasBuild hb⟩

theorem Trimmed.descending (ht : s.Trimmed t) (h : s.Descending) : t.Descending := by
  intro id target d' hd' hsup
  obtain ⟨d, hd, -, -, -, hsame, -⟩ := ht.kept hd'
  exact h hd (hsame ▸ hsup)

/-- Links stay where defects keep their members and whether they are superseded, and none is gone. -/
theorem Trimmed.chained (ht : s.Trimmed t) (hg : s.Grows t) (h : s.Chained) : t.Chained := by
  refine ⟨ht.sound h.sound, ht.descending h.descending, fun {id target d'} hd' hsup => ?_⟩
  obtain ⟨d, hd, -, hserver, hmembers, hsame, -⟩ := ht.kept hd'
  obtain ⟨e, he, heserver, hwithin⟩ := h.link hd (hsame ▸ hsup)
  obtain ⟨e', he', hevolves⟩ := hg he
  refine ⟨e', he', ?_, ?_⟩
  · rw [hevolves.server, heserver, hserver]
  · exact (Defect.Within.of_members hmembers.symm).trans (hwithin.trans hevolves.members)

end DefectStore

namespace Clustering

open DefectStore

variable {s : DefectStore} {b : BuildSnapshot} {d : Defect} {now : Timestamp} {i : Issue}

/-- A build is never held by a superseded defect. -/
theorem live_of_held (h : s.Chained) (hp : placement b s = .held d) :
    d.supersededBy = none := by
  obtain ⟨hd, hserver, hb, hle⟩ := held_spec h.sound.wellFormed hp
  obtain ⟨last, e, hend⟩ := h.exists_end hd
  obtain ⟨heserver, heb⟩ := hend.hasBuild hd hb
  have he : s.find? e.id = some e := by
    rw [h.sound.wellFormed.keyed hend.stored]
    exact hend.stored
  exact supersededBy_of_rank_le (hle e he (heserver.trans hserver) heb) hend.live

/-- Defects are merged in the order of their ids. -/
theorem sorted_of_joined {target : Nat} {others : List Nat}
    (hp : placement b s = .joined target others) : (target :: others).Pairwise (· < ·) := by
  unfold placement at hp
  cases hh : holder? b.build (s.onServer b.server) with
  | some d =>
    rw [hh] at hp
    cases hp
  | none =>
    rw [hh] at hp
    have hsorted : (related b.fingerprint (s.onServer b.server)).Pairwise (· < ·) :=
      OrderedSet.sorted _
    cases hr : related b.fingerprint (s.onServer b.server) with
    | nil =>
      rw [hr] at hp
      cases hp
    | cons first rest =>
      rw [hr] at hp hsorted
      cases hp
      exact hsorted

/-- The target of a merge is the defect with the smallest id. -/
theorem target_lt_of_joined {target id : Nat} {others : List Nat}
    (hp : placement b s = .joined target others) (hid : id ∈ others) : target < id :=
  (List.pairwise_cons.1 (sorted_of_joined hp)).1 id hid

/-- A placement that is characterised as a merge is that merge. -/
theorem placement_eq_joined {target : Nat} {others : List Nat} (hs : s.WellFormed)
    (h : PlacementSpec b s (.joined target others))
    (hsorted : (target :: others).Pairwise (· < ·)) : placement b s = .joined target others := by
  have hspec := placement_spec hs b
  cases h with
  | joined unheld shares nodup =>
    cases hp : placement b s with
    | held d =>
      obtain ⟨hd, hserver, hb, -⟩ := held_spec hs hp
      rw [unheld d hd hserver] at hb
      cases hb
    | joined target' others' =>
      rw [hp] at hspec
      cases hspec with
      | joined unheld' shares' nodup' =>
        have hsame := (sorted_of_joined hp).eq_of_mem_iff hsorted fun id =>
          (shares' id).trans (shares id).symm
        obtain ⟨rfl, rfl⟩ := List.cons.inj hsame
        rfl
    | started =>
      rw [hp] at hspec
      cases hspec with
      | started unheld' alone =>
        obtain ⟨d, hd, hserver, hopen, hshares⟩ := (shares target).1 List.mem_cons_self
        obtain rfl := hs.keyed hd
        rw [alone d hd hserver hopen] at hshares
        cases hshares

theorem descending_placed (hs : s.WellFormed) (h : s.Descending) (now : Timestamp) (i : Issue)
    (b : BuildSnapshot) : (placed now i b s).Descending := by
  intro id target d' hd' hsup
  rcases becomes_of_find?_placed hs hd' with ⟨d, hd, hb⟩ | ⟨-, -, rfl⟩
  · cases hb with
    | same => exact h hd hsup
    | held => exact h hd ((attached_sameStanding i b d).supersededBy ▸ hsup)
    | target => exact h hd ((joined_sameStanding i b _ d).supersededBy ▸ hsup)
    | takenOver hp hmem hopen =>
      rw [superseded_of_isOpen hopen] at hsup
      cases hsup
      exact hs.keyed hd ▸ target_lt_of_joined hp hmem
  · rw [(firstDefect_sameStanding now i b s).supersededBy] at hsup
    cases hsup

/-- The target of a merge has all members of a defect that it takes over. -/
theorem within_target (hs : s.Sound) {target : Nat} {others : List Nat}
    (hp : placement b s = .joined target others) (now : Timestamp) (i : Issue)
    (hd : s.find? d.id = some d) (hid : d.id ∈ others) :
    ∃ e, (placed now i b s).find? target = some e ∧ e.server = d.server ∧ d.Within e := by
  have hw := hs.wellFormed
  have hspec := placement_spec hw b
  rw [hp] at hspec
  obtain ⟨t, ht, -, hall⟩ := hspec.find?_target now hw
  have hmem : d ∈ t :: takenOver s others :=
    List.mem_cons_of_mem _ (mem_takenOver.2 ⟨d.id, hid, hd⟩)
  have hstand := joined_sameStanding i b (takenOver s others) t
  refine ⟨attached i b (absorbedAll (takenOver s others) t), ?_, ?_, fun k m hm => ?_⟩
  · unfold placed
    rw [hp, hspec.find?_result_joined, if_pos rfl, ht]
    rfl
  · rw [hstand.server, (hall t (by simp)).2.1, (hall d hmem).2.1]
  · have habsorbed := find?_absorbedAll_of_part hw hs.exclusive
      (fun o ho => ⟨(hall o ho).1, (hall o ho).2.1, (hall o ho).2.2.1⟩) hmem hm
    exact (evolves_attached i b _).members habsorbed

theorem chained_placed (h : s.Chained) (now : Timestamp) (i : Issue) (b : BuildSnapshot) :
    (placed now i b s).Chained := by
  have hw := h.sound.wellFormed
  refine ⟨sound_placed h.sound now i b, descending_placed hw h.descending now i b,
    fun {id target d'} hd' hsup => ?_⟩
  -- a link from before stays, because its target grows
  have hstays : ∀ {d}, s.find? id = some d → d.supersededBy = some target →
      ∃ e, (placed now i b s).find? target = some e ∧ e.server = d.server ∧ d.Within e := by
    intro d hd hsup
    obtain ⟨e, he, hserver, hwithin⟩ := h.link hd hsup
    obtain ⟨e', he', hevolves⟩ := grows_placed hw now i b he
    exact ⟨e', he', hevolves.server.trans hserver, hwithin.trans hevolves.members⟩
  rcases becomes_of_find?_placed hw hd' with ⟨d, hd, hb⟩ | ⟨-, -, rfl⟩
  · cases hb with
    | same => exact hstays hd hsup
    | held hp =>
      rw [(attached_sameStanding i b d).supersededBy, live_of_held h hp] at hsup
      cases hsup
    | target _ hopen =>
      rw [(joined_sameStanding i b _ d).supersededBy, hw.notSuperseded_of_isOpen hd hopen] at hsup
      cases hsup
    | takenOver hp hmem hopen =>
      obtain rfl := hw.keyed hd
      have hwithin := within_target h.sound hp now i hd hmem
      rw [superseded_of_isOpen hopen] at hsup ⊢
      cases hsup
      exact hwithin
  · rw [(firstDefect_sameStanding now i b s).supersededBy] at hsup
    cases hsup

theorem chained_outcome {s : Stores} (h : s.defects.Chained) (cfg : ClusteringConfig)
    (now : Timestamp) : (outcome cfg now s).2.Chained :=
  outcome_induction h fun i b _ _ h => chained_placed h now i b

end Clustering

/-- In all stores that operations can lead to, the defect that took another one over has the smaller
id. -/
theorem Reachable.descending {s : Stores} (h : Reachable s) : s.defects.Descending :=
  h.defects_induction (fun _ _ _ hd => by cases hd) (fun htrimmed => htrimmed.descending)
    fun now i b hs => (Clustering.descending_placed hs · now i b)

/-! ### Stores without removals -/

/-- Stores that operations make of empty ones without taking a defect away. -/
inductive Accumulated : Stores → Prop
  | empty : Accumulated .empty
  | run {s : Stores} (o : Operation) (keeps : o.removes = false) (h : Accumulated s) :
    Accumulated (o.run s)

namespace Accumulated

variable {s : Stores}

theorem reachable (h : Accumulated s) : Reachable s := by
  induction h with
  | empty => exact .empty
  | run o _ _ ih => exact .run o ih

theorem runAll (h : Accumulated s) {os : List Operation} (hos : ∀ o ∈ os, o.removes = false) :
    Accumulated (Operation.runAll os s) := by
  induction os generalizing s with
  | nil => exact h
  | cons o os ih => exact ih (.run o (hos o (by simp)) h) fun o' ho' => hos o' (by simp [ho'])

theorem chained (h : Accumulated s) : s.defects.Chained := by
  induction h with
  | empty =>
    have hnone : ∀ id, Stores.empty.defects.find? id = none := fun _ => rfl
    exact ⟨DefectStore.sound_of_none hnone, fun _ _ _ hd => (by cases hd),
      fun hd => (by cases hd)⟩
  | @run s o keeps h ih =>
    have hw := ih.sound.wellFormed
    rcases o.trimmed_run hw with ⟨cfg, now, rfl⟩ | htrimmed
    · rw [Operation.defects_cluster hw]
      exact Clustering.chained_outcome ih cfg now
    · exact htrimmed.chained (o.grows_run hw h.reachable.unsigned keeps) ih

end Accumulated

/-- Where no defect is removed, the superseded ones lead to stored ones of the same server with smaller
ids, and every chain ends at a defect that no other one took over: this one has each member of each
defect on the chain, and whatever issues any of them has of it. -/
theorem Accumulated.nothing_lost {s : Stores} (h : Accumulated s) :
    (∀ id d target, s.defects.find? id = some d → d.supersededBy = some target →
      target < id ∧ ∃ e, s.defects.find? target = some e ∧ e.server = d.server) ∧
    ∀ id d, s.defects.find? id = some d → ∃ last e, s.defects.find? last = some e ∧
      e.supersededBy = none ∧
      ∀ c, ReflTransGen s.defects.LeadsTo id c → ReflTransGen s.defects.LeadsTo c last ∧
        ∃ x, s.defects.find? c = some x ∧ x.server = e.server ∧
          ∀ build m, x.members.find? build = some m →
            ∃ m', e.members.find? build = some m' ∧ m.issues <+: m'.issues ∧
              ∀ type test, m.hasIssue type test = true → m'.hasIssue type test = true := by
  have hchained := h.chained
  constructor
  · intro id d target hd hsup
    obtain ⟨e, he, hserver, -⟩ := hchained.link hd hsup
    exact ⟨hchained.descending hd hsup, e, he, hserver⟩
  · intro id d hd
    obtain ⟨last, e, hend⟩ := hchained.exists_end hd
    refine ⟨last, e, hend.stored, hend.live, fun c hc => ?_⟩
    obtain ⟨hpath, x, hx, hserver, hwithin⟩ := hend.covers hc
    refine ⟨hpath, x, hx, hserver, fun build m hm => ?_⟩
    obtain ⟨m', hm', hextends⟩ := hwithin hm
    exact ⟨m', hm', hextends.issues, fun _ _ hissue => hextends.hasIssue hissue⟩

def thirdChange : Change := ⟨3, ⟨[3]⟩, "dev03", none⟩

/-- Three builds without a common commit, and two more that bridge the last two and then the first
two of them. -/
def bridgingTwice : List Operation :=
  [.putBuild (bridgeBuild 1 [firstChange]), .putBuild (bridgeBuild 2 [secondChange]),
    .putBuild (bridgeBuild 3 [thirdChange]), .putBuild (bridgeBuild 4 [secondChange, thirdChange]),
    .putBuild (bridgeBuild 5 [firstChange, secondChange]), .saveIssue (bridgeIssue 1 "t1" none),
    .saveIssue (bridgeIssue 2 "t2" none), .saveIssue (bridgeIssue 3 "t3" none),
    .saveIssue (bridgeIssue 4 "t4" none), .saveIssue (bridgeIssue 5 "t5" none),
    .cluster .default bridgeTime]

/-- The third defect leads to the second and this one to the first.  The end of the chain has the third
build with its issue. -/
theorem Accumulated.nothing_lost_bridgingTwice :
    ∃ s, Accumulated s ∧ s.defects.LeadsTo 3 2 ∧ s.defects.LeadsTo 2 1 ∧
      ∃ last e m, ReflTransGen s.defects.LeadsTo 3 last ∧ s.defects.find? last = some e ∧
        e.supersededBy = none ∧ e.members.find? 3 = some m ∧
        m.hasIssue .newFailure "t3" = true := by
  have hs : Accumulated (Operation.runAll bridgingTwice .empty) :=
    Accumulated.empty.runAll (by decide)
  have hthird : ((Operation.runAll bridgingTwice .empty).defects.find? 3).any (fun d =>
      d.supersededBy = some 2 && (d.members.find? 3).any fun m => m.hasIssue .newFailure "t3") =
      true := by decide +kernel
  have hsecond : ((Operation.runAll bridgingTwice .empty).defects.find? 2).any (fun d =>
      d.supersededBy = some 1) = true := by decide +kernel
  obtain ⟨d, hd, hd'⟩ := (Option.any_eq_true _ _).1 hthird
  obtain ⟨d₂, hd₂, hsup₂⟩ := (Option.any_eq_true _ _).1 hsecond
  obtain ⟨hsup, hissue⟩ := Bool.and_eq_true_iff.1 hd'
  obtain ⟨m, hm, hissue⟩ := (Option.any_eq_true _ _).1 hissue
  obtain ⟨-, hends⟩ := Accumulated.nothing_lost hs
  obtain ⟨last, e, he, hlive, hcovers⟩ := hends 3 d hd
  obtain ⟨hpath, x, hx, -, hmembers⟩ := hcovers 3 .refl
  cases hd.symm.trans hx
  obtain ⟨m', hm', -, hissues⟩ := hmembers 3 m hm
  exact ⟨_, hs, ⟨d, hd, by simpa using hsup⟩, ⟨d₂, hd₂, by simpa using hsup₂⟩, last, e, m', hpath,
    he, hlive, hm', hissues _ _ hissue⟩

end Triage
