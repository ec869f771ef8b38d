import Triage.Proofs.Clustering.Servers

/-!
# Stores that are alike

Two stores are `Alike` if the defects of each server are the same in both, up to a renaming of ids
that keeps their order and up to branches.  They remain so when an issue is placed in both
(`Alike.place`), and an issue that is settled in one is settled in the other.  Placing a settled
issue once more leaves a store that is like the one before (`alike_placed_of_settled`), so a pass over
settled issues does too.
-/

namespace Triage

namespace DefectStore

/-- The store without branches. -/
def unbranched (s : DefectStore) : DefectStore :=
  { s with defects := s.defects.mapValues Defect.unbranched }

variable {s : DefectStore}

theorem find?_unbranched (s : DefectStore) (id : Nat) :
    s.unbranched.find? id = (s.find? id).map Defect.unbranched :=
  OrderedMap.find?_mapValues Defect.unbranched s.defects id

theorem onServer_unbranched (s : DefectStore) (server : String) :
    s.unbranched.onServer server = (s.onServer server).map Defect.unbranched := by
  have hall : s.unbranched.all = s.all.map Defect.unbranched :=
    OrderedMap.values_mapValues Defect.unbranched s.defects
  unfold onServer
  rw [hall, List.filter_map]
  rfl

theorem WellFormed.unbranched (h : s.WellFormed) : s.unbranched.WellFormed := by
  have hstored : ∀ {id d}, s.unbranched.find? id = some d →
      ∃ e, s.find? id = some e ∧ e.unbranched = d := by
    intro id d hd
    rw [find?_unbranched] at hd
    exact Option.map_eq_some_iff.1 hd
  constructor
  · intro id d hd
    obtain ⟨e, he, rfl⟩ := hstored hd
    exact (h.keyed he :)
  · intro id d hd
    obtain ⟨e, he, rfl⟩ := hstored hd
    exact (h.bounded he :)
  · intro id d hd
    obtain ⟨e, he, rfl⟩ := hstored hd
    exact (h.members he :)
  · intro id d hd
    obtain ⟨e, he, rfl⟩ := hstored hd
    exact (h.closed he :)

end DefectStore

theorem Defect.rename_self : Defect.rename (fun id => id) = fun d => d :=
  funext fun _ => rename_eq_self rfl fun _ _ => rfl

theorem Defect.recast_self_erase :
    Defect.recast (fun id => id) (fun _ => none) = Defect.unbranched :=
  funext fun d => congrArg unbranched (congrFun rename_self d)

namespace Clustering

open DefectStore

variable {now : Timestamp} {i : Issue} {b : BuildSnapshot} {s t u : DefectStore} {ρ : Nat → Nat}

/-- The defects of each server are the same in both stores but for branches, and but for their ids,
which `ρ` takes from the one to the other, those to come included. -/
structure Alike (ρ : Nat → Nat) (s t : DefectStore) : Prop where
  left : s.WellFormed
  right : t.WellFormed
  mono : StrictMono ρ
  next (j : Nat) : ρ (s.lastId + 1 + j) = t.lastId + 1 + j
  same (server : String) : (t.onServer server).map Defect.unbranched =
    (s.onServer server).map fun d => (d.rename ρ).unbranched

theorem Alike.refl (hs : s.WellFormed) : Alike (fun id => id) s s := by
  refine ⟨hs, hs, strictMono_id, fun _ => rfl, fun server => ?_⟩
  rw [Defect.rename_self]

theorem Alike.trans (h : Alike ρ s t) (h' : Alike (fun id => id) t u) : Alike ρ s u := by
  have hlast : t.lastId + 1 + 0 = u.lastId + 1 + 0 := h'.next 0
  refine ⟨h.left, h'.right, h.mono, fun j => ?_, fun server => ?_⟩
  · have hnext := h.next j
    omega
  · have hsame := h'.same server
    rw [Defect.rename_self] at hsame
    exact hsame.trans (h.same server)

/-- Without branches, the second store is a recast of either of them. -/
theorem Alike.recasts (h : Alike ρ s t) (server : String) :
    t.unbranched.onServer server =
        (t.onServer server).map (Defect.recast (fun id => id) fun _ => none) ∧
      t.unbranched.onServer server = (s.onServer server).map (Defect.recast ρ fun _ => none) := by
  rw [onServer_unbranched, Defect.recast_self_erase]
  exact ⟨rfl, h.same server⟩

theorem Alike.placement (h : Alike ρ s t) (b : BuildSnapshot) :
    (placement b t).recast (fun id => id) (fun _ => none) =
      (placement b s).recast ρ fun _ => none := by
  obtain ⟨hright, hleft⟩ := h.recasts b.server
  have hr := placement_recast strictMono_id hright
  exact hr.symm.trans (placement_recast h.mono hleft)

theorem Alike.place (h : Alike ρ s t) (now : Timestamp) (i : Issue) (b : BuildSnapshot) :
    Alike ρ (placed now i b s) (placed now i b t) := by
  have hu := h.right.unbranched
  have hright := wellFormed_placed h.right now i b
  obtain ⟨hr, hl⟩ := h.recasts b.server
  refine ⟨wellFormed_placed h.left now i b, hright, h.mono, fun j => ?_, fun server => ?_⟩
  · -- the ids that are given out do not depend on branches
    have hlast := next_placed (placement_recast strictMono_id hr) (fun _ => rfl) now i j
    exact (next_placed (placement_recast h.mono hl) h.next now i j).trans hlast.symm
  · by_cases hserver : b.server = server
    · subst hserver
      have hid : StrictMono fun id : Nat => id := strictMono_id
      have hplaced := onServer_placed_recast hid branchMap_erase h.right hu rfl hr now i
      rw [Defect.recast_self_erase] at hplaced
      refine hplaced.symm.trans ?_
      exact onServer_placed_recast h.mono branchMap_erase h.left hu (h.next 0) hl now i
    · rw [onServer_placed_of_ne h.left now i hserver, onServer_placed_of_ne h.right now i hserver]
      exact h.same server

/-- An issue that is settled in a store is settled in one that is alike. -/
theorem Alike.settled (h : Alike ρ s t) (hset : Settled i b s) : Settled i b t := by
  obtain ⟨d, hd, hin⟩ := hset
  have hp := h.placement b
  rw [hd] at hp
  cases he : Clustering.placement b t with
  | held e =>
    rw [he] at hp
    have hde := Placement.held.inj hp
    have hmembers : e.members = d.members := congrArg (·.members) hde
    have hblame : e.blame = d.blame := congrArg (·.blame) hde
    refine ⟨e, he, ?_, ?_⟩
    · rw [hmembers]
      exact hin.issue
    · rw [hblame]
      exact hin.blame
  | joined target others =>
    rw [he] at hp
    cases hp
  | started =>
    rw [he] at hp
    cases hp

/-- Placing a settled issue fills in a branch at most. -/
theorem alike_placed_of_settled (hs : s.WellFormed) (hset : Settled i b s) (now : Timestamp) :
    Alike (fun id => id) s (placed now i b s) := by
  obtain ⟨d, hd, hin⟩ := hset
  have hlast : (placed now i b s).lastId = s.lastId := by
    rw [lastId_placed, hd]
    rfl
  refine ⟨hs, wellFormed_placed hs now i b, strictMono_id, fun j => by rw [hlast], fun server => ?_⟩
  rw [Defect.rename_self]
  by_cases hserver : b.server = server
  · subst hserver
    rw [onServer_placed hs, hd, Placement.added_held, List.append_nil, List.map_map]
    refine List.map_congr_left fun e he => ?_
    rw [Function.comp_apply, Placement.effect_held]
    split
    · rename_i hid
      have hstored := (hs.mem_onServer.1 he).1
      rw [hid, (held_spec hs hd).1] at hstored
      cases hstored
      unfold attached
      rw [attach_of_settledIn hin]
      rfl
    · rfl
  · rw [onServer_placed_of_ne hs now i hserver]

/-! ### Passes -/

variable {builds : OrderedMap BuildRef BuildSnapshot} {acc acc' : Report × DefectStore}

theorem Alike.passStep (h : Alike ρ acc.2 acc'.2) (now : Timestamp)
    (builds : OrderedMap BuildRef BuildSnapshot) (i : Issue) :
    Alike ρ (passStep now builds acc i).2 (passStep now builds acc' i).2 := by
  cases hb : builds.find? i.key.ref with
  | none =>
    rw [passStep_of_none hb, passStep_of_none hb]
    exact h
  | some b =>
    rw [passStep_of_some hb, passStep_of_some hb]
    exact h.place now i b

theorem Alike.foldl (now : Timestamp) (builds : OrderedMap BuildRef BuildSnapshot)
    (is : List Issue) (h : Alike ρ acc.2 acc'.2) :
    Alike ρ (is.foldl (Clustering.passStep now builds) acc).2
      (is.foldl (Clustering.passStep now builds) acc').2 := by
  induction is generalizing acc acc' with
  | nil => exact h
  | cons i is ih => exact ih (h.passStep now builds i)

/-- A pass over settled issues; the defects need not be sound for that. -/
theorem alike_foldl_of_settled (now : Timestamp) (is : List Issue) (r : Report)
    (hs : s.WellFormed)
    (hset : ∀ i ∈ is, ∀ b, builds.find? i.key.ref = some b → Settled i b s) :
    Alike (fun id => id) s (is.foldl (passStep now builds) (r, s)).2 := by
  induction is generalizing r s with
  | nil => exact .refl hs
  | cons i is ih =>
    have hstep : Alike (fun id => id) s (passStep now builds (r, s) i).2 := by
      cases hb : builds.find? i.key.ref with
      | none =>
        rw [passStep_of_none hb]
        exact .refl hs
      | some b =>
        rw [passStep_of_some hb]
        exact alike_placed_of_settled hs (hset i List.mem_cons_self b hb) now
    refine hstep.trans (ih _ hstep.right fun j hj b hb => ?_)
    exact hstep.settled (hset j (List.mem_cons_of_mem _ hj) b hb)

end Clustering

end Triage
