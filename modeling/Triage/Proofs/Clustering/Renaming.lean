import Triage.Proofs.Clustering.Effect

/-!
# Clustering with other ids and branches

A clustering pass looks at ids only to compare them, and at branches only to fill in a missing one.
So if the defects of a server are the same in two stores up to a renaming of ids that keeps their
order and up to a change of branches (`Defect.recast`), an issue of this server is placed in both
alike (`placement_recast`), and makes of each defect the same again (`effect_recast`).
-/

namespace Triage

/-- The issue with its branch changed. -/
def Issue.rebranch (φ : Option String → Option String) (i : Issue) : Issue :=
  { i with trackedBranch := φ i.trackedBranch }

namespace Defect

/-- The defect with other ids in place of its own and of the one that took it over. -/
def rename (ρ : Nat → Nat) (d : Defect) : Defect :=
  { d with id := ρ d.id, supersededBy := d.supersededBy.map ρ }

/-- The defect without its branch. -/
def unbranched (d : Defect) : Defect := { d with trackedBranch := none }

/-- The defect with other ids and its branch changed. -/
def recast (ρ : Nat → Nat) (φ : Option String → Option String) (d : Defect) : Defect :=
  { d.rename ρ with trackedBranch := φ d.trackedBranch }

section Recast

variable (ρ : Nat → Nat) (φ : Option String → Option String) (d : Defect)

@[simp] theorem recast_id : (d.recast ρ φ).id = ρ d.id := rfl

@[simp] theorem recast_isOpen : (d.recast ρ φ).isOpen = d.isOpen := rfl

@[simp] theorem recast_hasBuild (k : Nat) : (d.recast ρ φ).hasBuild k = d.hasBuild k := rfl

@[simp] theorem recast_supersededBy : (d.recast ρ φ).supersededBy = d.supersededBy.map ρ := rfl

end Recast

variable {ρ : Nat → Nat} {d : Defect}

/-- Only the ids in the record matter. -/
theorem rename_congr {ρ' : Nat → Nat} (hid : ρ d.id = ρ' d.id)
    (hsup : ∀ t, d.supersededBy = some t → ρ t = ρ' t) : d.rename ρ = d.rename ρ' := by
  have htarget : d.supersededBy.map ρ = d.supersededBy.map ρ' := by
    cases h : d.supersededBy with
    | none => rfl
    | some t => simp [hsup t h]
  unfold rename
  rw [hid, htarget]

theorem rename_eq_self (hid : ρ d.id = d.id) (hsup : ∀ t, d.supersededBy = some t → ρ t = t) :
    d.rename ρ = d := by
  have hsame : d.rename (fun id => id) = d := by
    unfold rename
    rw [Option.map_id']
  exact (rename_congr hid hsup).trans hsame

theorem addBuild_recast (ρ : Nat → Nat) (φ : Option String → Option String) (d : Defect)
    (b : DefectBuild) :
    (d.recast ρ φ).addBuild b = ((d.addBuild b).1, (d.addBuild b).2.recast ρ φ) := by
  unfold addBuild
  rw [recast_hasBuild]
  split <;> rfl

theorem attachIssue_recast (ρ : Nat → Nat) (φ : Option String → Option String) (d : Defect)
    (k : Nat) (issue : DefectIssue) :
    (d.recast ρ φ).attachIssue k issue =
      ((d.attachIssue k issue).1, (d.attachIssue k issue).2.recast ρ φ) := by
  have hmembers : (d.recast ρ φ).members = d.members := rfl
  unfold attachIssue
  rw [hmembers]
  cases d.members.find? k with
  | none => rfl
  | some m =>
    simp only
    split <;> rfl

end Defect

namespace Clustering

open Defect DefectStore

/-- A change of branches that can as well be made before a missing branch is filled in. -/
structure BranchMap (φ : Option String → Option String) : Prop where
  none : φ none = none
  or (branch branch' : Option String) : φ (branch.or branch') = (φ branch).or (φ branch')

theorem branchMap_keep : BranchMap fun branch => branch := ⟨rfl, fun _ _ => rfl⟩

theorem branchMap_erase : BranchMap fun _ => none := ⟨rfl, fun _ _ => rfl⟩

variable {ρ : Nat → Nat} {φ : Option String → Option String}

/-! ### Changes of one defect -/

theorem attached_recast (hφ : BranchMap φ) (ρ : Nat → Nat) (i : Issue) (b : BuildSnapshot)
    (d : Defect) :
    attached (i.rebranch φ) b (d.recast ρ φ) = (attached i b d).recast ρ φ := by
  have hissue : defectIssue (i.rebranch φ) = defectIssue i := rfl
  unfold attached attach
  simp only [fillBlame_snd, fillBranch_snd, addBuild_recast, attachIssue_recast, hissue]
  simp only [recast, hφ.or]
  rfl

theorem addMembers_recast (ρ : Nat → Nat) (φ : Option String → Option String)
    (bs : List DefectBuild) (d : Defect) :
    (addMembers bs (d.recast ρ φ)).2 = (addMembers bs d).2.recast ρ φ := by
  induction bs generalizing d with
  | nil => rfl
  | cons b bs ih =>
    rw [addMembers_cons, addMembers_cons, addBuild_recast]
    exact ih _

theorem absorbed_recast (ρ : Nat → Nat) (φ : Option String → Option String) (o d : Defect) :
    absorbed (o.recast ρ φ) (d.recast ρ φ) = (absorbed o d).recast ρ φ := by
  unfold absorbed absorb
  have hmembers : (o.recast ρ φ).members = o.members := rfl
  simp only [fillBlame_snd, hmembers, addMembers_recast]
  rfl

theorem absorbedAll_recast (ρ : Nat → Nat) (φ : Option String → Option String) (os : List Defect)
    (d : Defect) :
    absorbedAll (os.map (recast ρ φ)) (d.recast ρ φ) = (absorbedAll os d).recast ρ φ := by
  unfold absorbedAll
  rw [List.foldl_map]
  exact List.foldl_hom (recast ρ φ) fun d o => absorbed_recast ρ φ o d

theorem superseded_recast (ρ : Nat → Nat) (φ : Option String → Option String) (now : Timestamp)
    (target : Nat) (d : Defect) :
    superseded now (ρ target) (d.recast ρ φ) = (superseded now target d).recast ρ φ := by
  unfold superseded supersede
  rw [recast_isOpen]
  split <;> rfl

/-! ### The choice of a placement -/

theorem isPreferred_recast (hρ : StrictMono ρ) (a b : Defect) :
    isPreferred (a.recast ρ φ) (b.recast ρ φ) = isPreferred a b := by
  unfold isPreferred
  simp [hρ.le_iff_le]

theorem better_recast (hρ : StrictMono ρ) (best : Option Defect) (d : Defect) :
    better (best.map (recast ρ φ)) (d.recast ρ φ) = (better best d).map (recast ρ φ) := by
  cases best with
  | none => rfl
  | some a =>
    simp only [better, Option.map_some, isPreferred_recast hρ]
    split <;> rfl

theorem holder?_recast (hρ : StrictMono ρ) (φ : Option String → Option String) (k : Nat)
    (ds : List Defect) :
    holder? k (ds.map (recast ρ φ)) = (holder? k ds).map (recast ρ φ) := by
  have hfilter : (ds.map (recast ρ φ)).filter (·.hasBuild k) =
      (ds.filter (·.hasBuild k)).map (recast ρ φ) := List.filter_map
  rw [holder?_eq_foldl, holder?_eq_foldl, hfilter, List.foldl_map]
  change List.foldl _ ((none : Option Defect).map (recast ρ φ)) _ = _
  exact List.foldl_hom (Option.map (recast ρ φ)) fun best d => better_recast hρ best d

theorem related_recast (hρ : StrictMono ρ) (φ : Option String → Option String)
    (fingerprint : OrderedSet CommitHash) (ds : List Defect) :
    related fingerprint (ds.map (recast ρ φ)) = (related fingerprint ds).map ρ := by
  have hsorted : ((related fingerprint ds).map ρ).Pairwise (· < ·) :=
    List.pairwise_map.2 ((OrderedSet.sorted _).imp fun h => hρ h)
  have hsorted' : (related fingerprint (ds.map (recast ρ φ))).Pairwise (· < ·) :=
    OrderedSet.sorted _
  refine hsorted'.eq_of_mem_iff hsorted fun id => ?_
  rw [mem_related, List.mem_map]
  constructor
  · rintro ⟨d', hd', hopen, hshares, rfl⟩
    obtain ⟨d, hd, rfl⟩ := List.mem_map.1 hd'
    exact ⟨d.id, mem_related.2 ⟨d, hd, hopen, hshares, rfl⟩, rfl⟩
  · rintro ⟨id, hid, rfl⟩
    obtain ⟨d, hd, hopen, hshares, rfl⟩ := mem_related.1 hid
    exact ⟨d.recast ρ φ, List.mem_map_of_mem hd, hopen, hshares, rfl⟩

def Placement.recast (ρ : Nat → Nat) (φ : Option String → Option String) : Placement → Placement
  | held d => held (d.recast ρ φ)
  | joined target others => joined (ρ target) (others.map ρ)
  | started => started

variable {s t : DefectStore} {b : BuildSnapshot}

theorem placement_recast (hρ : StrictMono ρ)
    (h : t.onServer b.server = (s.onServer b.server).map (Defect.recast ρ φ)) :
    placement b t = (placement b s).recast ρ φ := by
  unfold placement
  rw [h, holder?_recast hρ, related_recast hρ]
  cases holder? b.build (s.onServer b.server) with
  | some d => rfl
  | none => cases related b.fingerprint (s.onServer b.server) <;> rfl

/-! ### What a placement makes of each defect -/

theorem find?_recast (hs : s.WellFormed) (ht : t.WellFormed) {server : String}
    (h : t.onServer server = (s.onServer server).map (Defect.recast ρ φ)) {id : Nat} {d : Defect}
    (hd : s.find? id = some d) (hserver : d.server = server) :
    t.find? (ρ id) = some (d.recast ρ φ) := by
  obtain rfl := hs.keyed hd
  have hmem : d.recast ρ φ ∈ t.onServer server := by
    rw [h]
    exact List.mem_map_of_mem (hs.mem_onServer.2 ⟨hd, hserver⟩)
  exact (ht.mem_onServer.1 hmem).1

theorem takenOver_recast (hs : s.WellFormed) (ht : t.WellFormed)
    (h : t.onServer b.server = (s.onServer b.server).map (Defect.recast ρ φ)) {target : Nat}
    {others : List Nat} (hspec : PlacementSpec b s (.joined target others)) :
    takenOver t (others.map ρ) = (takenOver s others).map (Defect.recast ρ φ) := by
  unfold takenOver
  rw [List.filterMap_map, List.map_filterMap]
  refine List.filterMap_congr fun id hid => ?_
  cases hspec with
  | joined unheld shares nodup =>
    obtain ⟨o, ho, hserver, -⟩ := (shares id).1 (List.mem_cons_of_mem _ hid)
    rw [Function.comp_apply, find?_recast hs ht h ho hserver, ho]
    rfl

theorem effect_recast (hρ : StrictMono ρ) (hφ : BranchMap φ) (hs : s.WellFormed)
    (ht : t.WellFormed)
    (h : t.onServer b.server = (s.onServer b.server).map (Defect.recast ρ φ)) (now : Timestamp)
    (i : Issue) (d : Defect) :
    ((placement b s).recast ρ φ).effect now (i.rebranch φ) b t (d.recast ρ φ) =
      ((placement b s).effect now i b s d).recast ρ φ := by
  have hspec := placement_spec hs b
  generalize placement b s = p at *
  cases p with
  | held e =>
    simp only [Placement.recast, Placement.effect_held, recast_id, hρ.injective.eq_iff]
    split
    · exact attached_recast hφ ρ i b d
    · rfl
  | joined target others =>
    have hmem : ρ d.id ∈ others.map ρ ↔ d.id ∈ others := List.mem_map_of_injective hρ.injective
    simp only [Placement.recast, Placement.effect_joined, recast_id, hρ.injective.eq_iff, hmem]
    split
    · rw [takenOver_recast hs ht h hspec, absorbedAll_recast, attached_recast hφ]
    · split
      · exact superseded_recast ρ φ now target d
      · rfl
  | started => rfl

theorem added_recast (hφ : BranchMap φ) (hnext : ρ (s.lastId + 1) = t.lastId + 1)
    (now : Timestamp) (i : Issue) (b : BuildSnapshot) (p : Placement) :
    (p.recast ρ φ).added now (i.rebranch φ) b t =
      (p.added now i b s).map (Defect.recast ρ φ) := by
  cases p with
  | held d => rfl
  | joined target others => rfl
  | started =>
    have hmake : Defect.make (t.lastId + 1) b.server now =
        (Defect.make (s.lastId + 1) b.server now).recast ρ φ := by
      unfold Defect.recast Defect.rename Defect.make
      simp only [hnext, hφ.none, Option.map_none]
    have hfirst : firstDefect now (i.rebranch φ) b t = (firstDefect now i b s).recast ρ φ := by
      unfold firstDefect
      rw [hmake, attached_recast hφ]
    exact congrArg (fun d => [d]) hfirst

end Clustering

end Triage
