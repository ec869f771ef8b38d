import Triage.Proofs.Clustering.Supersession

/-!
# What the stored defects look like

`DefectStore.Represented` says what every defect record satisfies, whatever has been done to the
stores: it has members, each under its own build id and with issues none of which is there twice, its
id has been given out, and if another defect took it over, no person's name stands on it.  The
invariant behind it is `DefectStore.Intact`: placing an issue keeps it (`intact_placed`), and so do
the operations that only trim the store.  So it holds of all reachable stores, and after any part of a
clustering pass on them (`Reachable.records_represented`).
-/

namespace Triage

/-- At least one issue is attached, and no two of the same type and test. -/
structure DefectBuild.Stocked (m : DefectBuild) : Prop where
  nonempty : m.issues ≠ []
  distinct : m.issues.Pairwise fun i j => ¬ (i.type = j.type ∧ i.test = j.test)

/-- There is a member, and each of them has issues. -/
structure Defect.Populated (d : Defect) : Prop where
  nonempty : ∃ k m, d.members.find? k = some m
  stocked {k : Nat} {m : DefectBuild} : d.members.find? k = some m → m.Stocked

namespace Clustering

open DefectStore Defect

/-! ### Members and their issues -/

theorem hasIssue_iff {m : DefectBuild} {type : IssueType} {test : String} :
    m.hasIssue type test = true ↔ ∃ i ∈ m.issues, i.type = type ∧ i.test = test := by
  unfold DefectBuild.hasIssue
  simp only [List.any_eq_true, Bool.and_eq_true, decide_eq_true_eq]

/-- An issue is added at most once, so attaching makes of distinct issues a stock of distinct ones. -/
theorem stocked_withIssue {m : DefectBuild} (issue : DefectIssue)
    (hm : m.issues.Pairwise fun i j => ¬ (i.type = j.type ∧ i.test = j.test)) :
    (withIssue issue m).Stocked := by
  unfold withIssue
  split
  · rename_i hhas
    obtain ⟨i, hi, -⟩ := hasIssue_iff.1 hhas
    exact ⟨List.ne_nil_of_mem hi, hm⟩
  · rename_i hnot
    refine ⟨List.append_ne_nil_of_right_ne_nil _ (List.cons_ne_nil _ _), ?_⟩
    refine List.pairwise_append.2 ⟨hm, List.pairwise_singleton _ _, fun i hi j hj hsame => ?_⟩
    obtain rfl := List.mem_singleton.1 hj
    exact hnot (hasIssue_iff.2 ⟨i, hi, hsame⟩)

/-- Attaching an issue leaves a member for its build, and every member stocked. -/
theorem populated_attached {d : Defect}
    (hd : ∀ {k m}, d.members.find? k = some m → m.Stocked) (i : Issue) (b : BuildSnapshot) :
    (attached i b d).Populated := by
  refine ⟨⟨b.build, _, by rw [find?_attached, if_pos rfl]⟩, fun {k m} hm => ?_⟩
  rw [find?_attached] at hm
  split at hm
  · cases hm
    refine stocked_withIssue _ ?_
    cases hk : d.members.find? k with
    | none => exact .nil
    | some m => exact (hd hk).distinct
  · exact hd hm

theorem populated_firstDefect (now : Timestamp) (i : Issue) (b : BuildSnapshot) (s : DefectStore) :
    (firstDefect now i b s).Populated :=
  populated_attached (fun hm => by cases hm) i b

/-- A defect that takes others over has members of theirs besides its own. -/
theorem stocked_absorbedAll {os : List Defect} {d : Defect} (hk : ∀ o ∈ os, o.MembersKeyed)
    (hall : ∀ o ∈ d :: os, o.Populated) {k : Nat} {m : DefectBuild}
    (hm : (absorbedAll os d).members.find? k = some m) : m.Stocked := by
  obtain ⟨o, ho, hom⟩ := mem_of_find?_absorbedAll hk hm
  exact (hall o ho).stocked hom

end Clustering

/-! ### Stores -/

namespace DefectStore

/-- What the records of a store look like. -/
structure Represented (s : DefectStore) : Prop where
  ids {id : Nat} {d : Defect} : s.find? id = some d → d.id = id ∧ 1 ≤ id ∧ id ≤ s.lastId
  /-- No defect is stored under the id that is given out next. -/
  fresh : s.find? s.nextId.1 = none
  populated {id : Nat} {d : Defect} : s.find? id = some d → d.Populated
  keyed {id k : Nat} {d : Defect} {m : DefectBuild} : s.find? id = some d →
    d.members.find? k = some m → m.build = k
  superseded {id target : Nat} {d : Defect} : s.find? id = some d →
    d.supersededBy = some target → d.isOpen = false ∧ d.resolvedBy = none ∧ target ≠ id

/-- What operations keep, so that the records stay in order. -/
structure Intact (s : DefectStore) : Prop where
  wellFormed : s.WellFormed
  positive {id : Nat} {d : Defect} : s.find? id = some d → 1 ≤ id
  populated {id : Nat} {d : Defect} : s.find? id = some d → d.Populated
  descending : s.Descending
  unsigned : s.Unsigned
  /-- No person resolved a defect that another one took over. -/
  nameless {id : Nat} {d : Defect} : s.find? id = some d → d.supersededBy.isSome →
    d.resolvedBy = none

variable {s t : DefectStore}

theorem intact_of_none (h : ∀ id, s.find? id = none) : s.Intact where
  wellFormed := .of_none h
  positive {id d} hd := by cases (h id).symm.trans hd
  populated {id d} hd := by cases (h id).symm.trans hd
  descending id _ d hd := by cases (h id).symm.trans hd
  unsigned id d hd := by cases (h id).symm.trans hd
  nameless {id d} hd := by cases (h id).symm.trans hd

theorem Intact.represented (h : s.Intact) : s.Represented where
  ids hd := ⟨h.wellFormed.keyed hd, h.positive hd, h.wellFormed.bounded hd⟩
  fresh := by
    by_contra hne
    obtain ⟨d, hd⟩ := Option.ne_none_iff_exists'.1 hne
    have hle : s.lastId + 1 ≤ s.lastId := h.wellFormed.bounded hd
    omega
  populated := h.populated
  keyed hd hm := h.wellFormed.members hd _ _ hm
  superseded hd hsup := by
    have hsome := Option.isSome_of_mem hsup
    exact ⟨h.wellFormed.closed hd hsome, h.nameless hd hsome, (h.descending hd hsup).ne⟩

/-- Trimming keeps what is said of the members and the ids; of the names it remains to be shown that
closed defects keep them. -/
theorem Trimmed.intact (ht : s.Trimmed t) (hs : s.Intact) (hunsigned : t.Unsigned)
    (hnames : ∀ {id d d'}, s.find? id = some d → t.find? id = some d' → d.isOpen = false →
      d'.resolvedBy = d.resolvedBy) : t.Intact where
  wellFormed := ht.wellFormed hs.wellFormed
  positive hd' := by
    obtain ⟨d, hd, -⟩ := ht.kept hd'
    exact hs.positive hd
  populated hd' := by
    obtain ⟨d, hd, -, -, hmembers, -⟩ := ht.kept hd'
    have hpopulated := hs.populated hd
    exact ⟨hmembers ▸ hpopulated.nonempty, fun hm => hpopulated.stocked (hmembers ▸ hm)⟩
  descending := ht.descending hs.descending
  unsigned := hunsigned
  nameless {id d'} hd' hsup := by
    obtain ⟨d, hd, -, -, -, hsame, -⟩ := ht.kept hd'
    rw [hsame] at hsup
    rw [hnames hd hd' (hs.wellFormed.closed hd hsup), hs.nameless hd hsup]

end DefectStore

/-! ### Placements and passes -/

namespace Clustering

open DefectStore Defect

variable {s : DefectStore} {d d' : Defect} {now : Timestamp} {i : Issue} {b : BuildSnapshot}

theorem Becomes.populated (hs : s.Intact) (hd : s.find? d.id = some d)
    (h : Becomes now i b s d d') : d'.Populated := by
  have hpopulated := hs.populated hd
  cases h with
  | same => exact hpopulated
  | held => exact populated_attached hpopulated.stocked i b
  | @target others _ _ =>
    have hall : ∀ o ∈ d :: Clustering.takenOver s others, o.Populated := by
      intro o ho
      rcases List.mem_cons.1 ho with rfl | ho
      · exact hpopulated
      · obtain ⟨id, -, hid⟩ := mem_takenOver.1 ho
        exact hs.populated hid
    exact populated_attached (stocked_absorbedAll (membersKeyed_takenOver hs.wellFormed) hall) i b
  | takenOver _ _ hopen =>
    rw [superseded_of_isOpen hopen]
    exact ⟨hpopulated.nonempty, hpopulated.stocked⟩

/-- A defect that is taken over was open, and no name stands on open defects. -/
theorem Becomes.nameless (hs : s.Intact) (hd : s.find? d.id = some d)
    (h : Becomes now i b s d d') (hsup : d'.supersededBy.isSome) : d'.resolvedBy = none := by
  cases h with
  | same => exact hs.nameless hd hsup
  | held =>
    have hstand := attached_sameStanding i b d
    rw [hstand.supersededBy] at hsup
    exact hstand.resolvedBy.trans (hs.nameless hd hsup)
  | @target others _ _ =>
    have hstand := joined_sameStanding i b (Clustering.takenOver s others) d
    rw [hstand.supersededBy] at hsup
    exact hstand.resolvedBy.trans (hs.nameless hd hsup)
  | takenOver _ _ hopen =>
    have hnone := hs.unsigned hd hopen
    rw [superseded_of_isOpen hopen]
    exact hnone

theorem intact_placed (hs : s.Intact) (now : Timestamp) (i : Issue) (b : BuildSnapshot) :
    (placed now i b s).Intact where
  wellFormed := wellFormed_placed hs.wellFormed now i b
  positive hd' := by
    rcases becomes_of_find?_placed hs.wellFormed hd' with ⟨d, hd, -⟩ | ⟨-, rfl, -⟩
    · exact hs.positive hd
    · omega
  populated hd' := by
    rcases becomes_of_find?_placed hs.wellFormed hd' with ⟨d, hd, hb⟩ | ⟨-, -, rfl⟩
    · exact hb.populated hs (hs.wellFormed.keyed hd ▸ hd)
    · exact populated_firstDefect now i b s
  descending := descending_placed hs.wellFormed hs.descending now i b
  unsigned := unsigned_placed hs.wellFormed hs.unsigned now i b
  nameless hd' hsup := by
    rcases becomes_of_find?_placed hs.wellFormed hd' with ⟨d, hd, hb⟩ | ⟨-, -, rfl⟩
    · exact hb.nameless hs (hs.wellFormed.keyed hd ▸ hd) hsup
    · exact (firstDefect_sameStanding now i b s).resolvedBy

/-- Any part of a pass keeps the records in order, and every stored defect in its place. -/
theorem intact_clusterAll {s : Stores} (hs : s.defects.Intact) (now : Timestamp)
    (is : List Issue) :
    ((clusterAll now is .empty).exec s).2.defects.Intact ∧
      s.defects.Grows ((clusterAll now is .empty).exec s).2.defects := by
  rw [exec_clusterAll now is .empty s hs.wellFormed]
  exact foldl_passStep_induction
    (P := fun ds => ds.Intact ∧ s.defects.Grows ds)
    (fun i b _ _ h => ⟨intact_placed h.1 now i b,
      h.2.trans (grows_placed h.1.wellFormed now i b)⟩) is ⟨hs, .refl _⟩

end Clustering

/-! ### Reachable stores -/

namespace Operation

open Clustering Cleaning DefectStore

variable {s : Stores}

/-- Only clustering and resolving write names, and resolving only into open defects. -/
theorem resolvedBy_run (hs : s.defects.WellFormed) (o : Operation)
    (ho : ∀ cfg now, o ≠ .cluster cfg now) {id : Nat} {d d' : Defect}
    (hd : s.defects.find? id = some d) (hd' : (o.run s).defects.find? id = some d')
    (hclosed : d.isOpen = false) : d'.resolvedBy = d.resolvedBy := by
  -- where the stored record stays as it is
  have hsame : (o.run s).defects.find? id = s.defects.find? id → d'.resolvedBy = d.resolvedBy := by
    intro h
    rw [h, hd] at hd'
    cases hd'
    rfl
  cases o with
  | saveIssue i => exact hsame rfl
  | putBuild b => exact hsame rfl
  | removeBuild r => exact hsame rfl
  | cluster cfg now => exact absurd rfl (ho cfg now)
  | resolve now k user =>
    refine hsame ?_
    rw [run, Pass.after_eq, exec_resolve_snd, find?_alter, hd]
    split
    · rw [Option.map_some, resolved, resolution_of_not_isOpen hclosed]
    · rfl
  | checkConsistency =>
    rw [run, Pass.after_eq, exec_checkConsistency hs.isKeyed, find?_remarked hs.isKeyed, hd] at hd'
    cases hd'
    rfl
  | clean cfg now =>
    rw [run, Pass.after_eq] at hd'
    rcases find?_clean hs.isKeyed cfg now id with h | h | ⟨h, -⟩
    · exact hsame h
    · rw [h, hd] at hd'
      cases hd'
      rfl
    · cases h.symm.trans hd'
  | discardBroken k user =>
    rcases find?_discardBroken k user hd with h | ⟨h, -⟩
    · exact hsame (h.trans hd.symm)
    · rw [run, Pass.after_eq, h] at hd'
      cases hd'

theorem intact_run (hs : s.defects.Intact) (o : Operation) : (o.run s).defects.Intact := by
  have hw := hs.wellFormed
  by_cases hcluster : ∃ cfg now, o = .cluster cfg now
  · obtain ⟨cfg, now, rfl⟩ := hcluster
    rw [defects_cluster hw]
    exact outcome_induction hs fun i b _ _ h => intact_placed h now i b
  · have htrimmed := (o.trimmed_run hw).resolve_left hcluster
    refine htrimmed.intact hs (o.unsigned_run hw hs.unsigned) fun hd hd' => ?_
    exact o.resolvedBy_run hw (fun cfg now h => hcluster ⟨cfg, now, h⟩) hd hd'

end Operation

theorem Reachable.intact {s : Stores} (h : Reachable s) : s.defects.Intact := by
  induction h with
  | empty => exact DefectStore.intact_of_none fun _ => rfl
  | run o _ ih => exact o.intact_run ih

/-- In all stores that operations can lead to, and after any part of a clustering pass on them, the
records are in order; and the pass leaves every stored defect under its id, so that no new one takes
its place. -/
theorem Reachable.records_represented {s : Stores} (h : Reachable s) :
    s.defects.Represented ∧ ∀ now is,
      ((Clustering.clusterAll now is .empty).exec s).2.defects.Represented ∧
        ∀ id d, s.defects.find? id = some d → ∃ d',
          ((Clustering.clusterAll now is .empty).exec s).2.defects.find? id = some d' ∧
            d.Evolves d' := by
  refine ⟨h.intact.represented, fun now is => ?_⟩
  obtain ⟨hintact, hgrows⟩ := Clustering.intact_clusterAll h.intact now is
  exact ⟨hintact.represented, fun id d hd => hgrows hd⟩

/-- The bridge is found and a person resolves the defect that has taken the other one over. -/
def bridgingResolved : List Operation :=
  bridgingLate ++ [.cluster .default bridgeTime, .resolve bridgeTime 1 "dev01",
    .resolve bridgeTime 2 "dev02"]

/-- The second defect leads to the first, and the attempt to resolve it too has left no name on it. -/
theorem Reachable.records_represented_bridgingResolved :
    ∃ s, Reachable s ∧ s.defects.lastId = 2 ∧ s.defects.find? s.defects.nextId.1 = none ∧
      ∃ d, s.defects.find? 2 = some d ∧ d.supersededBy = some 1 ∧ d.resolvedBy = none ∧
        d.isOpen = false ∧ d.Populated ∧
        (s.defects.find? 1).any (fun e => e.resolvedBy = some "dev01") = true := by
  have hr := Reachable.empty.runAll bridgingResolved
  have hlast : (Operation.runAll bridgingResolved .empty).defects.lastId = 2 := by decide +kernel
  have hsecond : ((Operation.runAll bridgingResolved .empty).defects.find? 2).any
      (fun d => d.supersededBy = some 1) = true := by decide +kernel
  have hfirst : ((Operation.runAll bridgingResolved .empty).defects.find? 1).any
      (fun e => e.resolvedBy = some "dev01") = true := by decide +kernel
  obtain ⟨d, hd, hsup⟩ := (Option.any_eq_true _ _).1 hsecond
  have hsup : d.supersededBy = some 1 := by simpa using hsup
  obtain ⟨hrep, -⟩ := Reachable.records_represented hr
  obtain ⟨hclosed, hnameless, -⟩ := hrep.superseded hd hsup
  exact ⟨_, hr, hlast, hrep.fresh, d, hd, hsup, hnameless, hclosed, hrep.populated hd, hfirst⟩

end Triage
