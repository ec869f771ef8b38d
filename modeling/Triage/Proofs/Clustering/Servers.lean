import Triage.Proofs.Clustering.Renaming
import Triage.Proofs.Clustering.Supersession

/-!
# Servers do not influence each other

Placing an issue changes the defects of its own server only (`onServer_placed_of_ne`), and changes
them as they alone require (`onServer_placed`); what other servers have an influence on is the next id.
So a pass over all stores and a pass over what belongs to one server run in step: after each issue the
defects of this server are the same up to an ascending renaming of the ids given out so far
(`Mirrors`), which each new defect of another server stretches by one.
-/

namespace Triage

namespace Clustering

open DefectStore

variable {now : Timestamp} {i : Issue} {b : BuildSnapshot} {s t : DefectStore} {server : String}

/-! ### The defects of a server after a placement -/

theorem all_of_find?_map {f : Defect → Defect} (h : ∀ k, t.find? k = (s.find? k).map f) :
    t.all = s.all.map f := by
  have hsame : t.defects = s.defects.mapValues f :=
    OrderedMap.ext_find? fun k => (h k).trans (OrderedMap.find?_mapValues f s.defects k).symm
  unfold all
  rw [hsame, OrderedMap.values_mapValues]

/-- A placement changes each stored defect and may add one, with the greatest id. -/
theorem all_placed (hs : s.WellFormed) (now : Timestamp) (i : Issue) (b : BuildSnapshot) :
    (placed now i b s).all =
      s.all.map ((placement b s).effect now i b s) ++ (placement b s).added now i b s := by
  have hfind := find?_placed hs now i b
  cases hp : placement b s with
  | held h =>
    simp only [hp, Placement.added_held, List.find?_nil, Option.or_none] at hfind
    rw [Placement.added_held, List.append_nil]
    exact all_of_find?_map hfind
  | joined target others =>
    simp only [hp, Placement.added_joined, List.find?_nil, Option.or_none] at hfind
    rw [Placement.added_joined, List.append_nil]
    exact all_of_find?_map hfind
  | started =>
    have hlast : ∀ k ∈ s.defects.keys, k < s.lastId + 1 := by
      intro k hk
      obtain ⟨d, hd⟩ := Option.isSome_iff_exists.1 (OrderedMap.mem_keys_iff.1 hk)
      exact Nat.lt_succ_of_le (hs.bounded hd)
    have hid : (firstDefect now i b s).id = s.lastId + 1 := (firstDefect_sameStanding now i b s).id
    have hkept : Placement.started.effect now i b s = fun d => d :=
      funext (Placement.effect_started now i b s)
    rw [hkept, List.map_id', Placement.added_started]
    unfold placed
    rw [hp, Placement.result, save, hid]
    exact OrderedMap.values_insert_of_lt hlast _

theorem server_effect (p : Placement) (d : Defect) : (p.effect now i b s d).server = d.server := by
  cases p with
  | held h =>
    rw [Placement.effect_held]
    split
    · exact (attached_sameStanding i b d).server
    · rfl
  | joined target others =>
    rw [Placement.effect_joined]
    split
    · exact (joined_sameStanding i b _ d).server
    · split
      · unfold superseded supersede
        split <;> rfl
      · rfl
  | started => rfl

theorem effect_of_server_ne (hs : s.WellFormed) {d : Defect} (hd : s.find? d.id = some d)
    (hserver : d.server ≠ b.server) : (placement b s).effect now i b s d = d := by
  have hspec := placement_spec hs b
  generalize placement b s = p at *
  cases hspec with
  | @held h found server =>
    have hne : d.id ≠ h.id := by
      intro hid
      rw [hid, found] at hd
      cases hd
      exact hserver server
    exact if_neg hne
  | @joined target others unheld shares =>
    have hnot : d.id ∉ target :: others := by
      intro hid
      obtain ⟨o, ho, hoserver, -⟩ := (shares d.id).1 hid
      cases hd.symm.trans ho
      exact hserver hoserver
    obtain ⟨hne, hmem⟩ := not_or.1 (mt List.mem_cons.2 hnot)
    rw [Placement.effect_joined, if_neg hne, if_neg hmem]
  | started => rfl

theorem server_of_mem_added {p : Placement} {d : Defect} (h : d ∈ p.added now i b s) :
    d.server = b.server := by
  cases p with
  | held => cases h
  | joined => cases h
  | started =>
    rw [Placement.added_started, List.mem_singleton] at h
    rw [h]
    exact (firstDefect_sameStanding now i b s).server

theorem filter_map_effect (p : Placement) (ds : List Defect) (server : String) :
    (ds.map (p.effect now i b s)).filter (fun d => d.server = server) =
      (ds.filter fun d => d.server = server).map (p.effect now i b s) := by
  have hserver : ((fun d : Defect => decide (d.server = server)) ∘ p.effect now i b s) =
      fun d => decide (d.server = server) := by
    funext d
    simp [server_effect]
  rw [List.filter_map, hserver]

/-- What a placement makes of the defects of its server. -/
theorem onServer_placed (hs : s.WellFormed) (now : Timestamp) (i : Issue) (b : BuildSnapshot) :
    (placed now i b s).onServer b.server =
      (s.onServer b.server).map ((placement b s).effect now i b s) ++
        (placement b s).added now i b s := by
  have hadded : ((placement b s).added now i b s).filter (fun d => d.server = b.server) =
      (placement b s).added now i b s :=
    List.filter_eq_self.2 fun d hd => by simp [server_of_mem_added hd]
  unfold onServer
  rw [all_placed hs, List.filter_append, filter_map_effect, hadded]

/-- A placement leaves the defects of other servers alone. -/
theorem onServer_placed_of_ne (hs : s.WellFormed) (now : Timestamp) (i : Issue)
    (hserver : b.server ≠ server) : (placed now i b s).onServer server = s.onServer server := by
  have hadded : ((placement b s).added now i b s).filter (fun d => d.server = server) = [] :=
    List.filter_eq_nil_iff.2 fun d hd => by simp [server_of_mem_added hd, hserver]
  have hsame : (s.onServer server).map ((placement b s).effect now i b s) = s.onServer server := by
    refine (List.map_congr_left fun d hd => ?_).trans (List.map_id _)
    obtain ⟨hstored, rfl⟩ := hs.mem_onServer.1 hd
    exact effect_of_server_ne hs hstored hserver.symm
  unfold onServer at *
  rw [all_placed hs, List.filter_append, filter_map_effect, hadded, List.append_nil, hsame]

/-! ### Two stores in step -/

section Recast

variable {ρ : Nat → Nat} {φ : Option String → Option String}

/-- Where an issue is placed alike, the same number of ids is given out. -/
theorem next_placed (hp : placement b t = (placement b s).recast ρ φ)
    (hnext : ∀ j, ρ (s.lastId + 1 + j) = t.lastId + 1 + j) (now : Timestamp) (i : Issue) (j : Nat) :
    ρ ((placed now i b s).lastId + 1 + j) = (placed now i b t).lastId + 1 + j := by
  rw [lastId_placed, lastId_placed, hp]
  cases placement b s with
  | held d => exact hnext j
  | joined target others => exact hnext j
  | started =>
    have hlater := hnext (1 + j)
    rw [← Nat.add_assoc, ← Nat.add_assoc] at hlater
    exact hlater

/-- Defects of a server that are the same but for ids and branches remain so. -/
theorem onServer_placed_recast (hρ : StrictMono ρ) (hφ : BranchMap φ) (hs : s.WellFormed)
    (ht : t.WellFormed) (hnext : ρ (s.lastId + 1) = t.lastId + 1)
    (h : t.onServer b.server = (s.onServer b.server).map (Defect.recast ρ φ)) (now : Timestamp)
    (i : Issue) : (placed now (i.rebranch φ) b t).onServer b.server =
      ((placed now i b s).onServer b.server).map (Defect.recast ρ φ) := by
  have hadded := added_recast hφ hnext now i b (placement b s)
  have heffect := effect_recast hρ hφ hs ht h now i
  rw [onServer_placed hs, onServer_placed ht, placement_recast hρ h, h, hadded, List.map_append,
    List.map_map, List.map_map]
  congr 1
  exact List.map_congr_left fun d _ => heffect d

end Recast

/-! ### Two passes in step -/

/-- The defects of the server are the same in both stores up to an ascending renaming of the ids that
have been given out after `base`; it takes the ids to come in one store to those in the other. -/
structure Mirrors (server : String) (base : Nat) (ρ : Nat → Nat) (s t : DefectStore) : Prop where
  part : s.WellFormed
  descending : s.Descending
  whole : t.WellFormed
  mono : StrictMono ρ
  old : base ≤ s.lastId
  fixes : ∀ id ≤ base, ρ id = id
  next (j : Nat) : ρ (s.lastId + 1 + j) = t.lastId + 1 + j
  same : t.onServer server = (s.onServer server).map (Defect.rename ρ)

variable {base : Nat} {ρ : Nat → Nat}

/-- An issue of the server is placed in both stores alike. -/
theorem Mirrors.place (h : Mirrors b.server base ρ s t) (now : Timestamp) (i : Issue) :
    Mirrors b.server base ρ (placed now i b s) (placed now i b t) := by
  have hsame : t.onServer b.server =
      (s.onServer b.server).map (Defect.recast ρ fun branch => branch) := h.same
  exact ⟨wellFormed_placed h.part now i b, descending_placed h.part h.descending now i b,
    wellFormed_placed h.whole now i b, h.mono, h.old.trans (lastId_le_placed now i b s), h.fixes,
    next_placed (placement_recast h.mono hsame) h.next now i,
    onServer_placed_recast h.mono branchMap_keep h.part h.whole (h.next 0) hsame now i⟩

/-- Skips an id after `n`. -/
def skip (n : Nat) (ρ : Nat → Nat) (id : Nat) : Nat := if id ≤ n then ρ id else ρ id + 1

theorem skip_of_le {n id : Nat} (h : id ≤ n) : skip n ρ id = ρ id := if_pos h

theorem skip_of_lt {n id : Nat} (h : n < id) : skip n ρ id = ρ id + 1 := if_neg (Nat.not_le.2 h)

theorem strictMono_skip (hρ : StrictMono ρ) (n : Nat) : StrictMono (skip n ρ) := by
  intro a b hab
  have hlt := hρ hab
  unfold skip
  split <;> split <;> omega

/-- An issue of another server is placed in one of the stores only. -/
theorem Mirrors.place_other (h : Mirrors server base ρ s t) (hserver : b.server ≠ server)
    (now : Timestamp) (i : Issue) : ∃ ρ', Mirrors server base ρ' s (placed now i b t) := by
  have hw := wellFormed_placed h.whole now i b
  have hsame := onServer_placed_of_ne h.whole now i hserver
  have hlast := lastId_placed now i b t
  cases hp : placement b t with
  | held d =>
    rw [hp] at hlast
    refine ⟨ρ, h.part, h.descending, hw, h.mono, h.old, h.fixes, fun j => ?_, hsame.trans h.same⟩
    rw [hlast]
    exact h.next j
  | joined target others =>
    rw [hp] at hlast
    refine ⟨ρ, h.part, h.descending, hw, h.mono, h.old, h.fixes, fun j => ?_, hsame.trans h.same⟩
    rw [hlast]
    exact h.next j
  | started =>
    rw [hp, Placement.lastId] at hlast
    refine ⟨skip s.lastId ρ, h.part, h.descending, hw, strictMono_skip h.mono _, h.old,
      fun id hid => ?_, fun j => ?_, ?_⟩
    · rw [skip_of_le (hid.trans h.old), h.fixes id hid]
    · rw [skip_of_lt (by omega), h.next j, hlast]
      omega
    · -- the stored ids have been given out, and so have those of the defects that took others over
      refine (hsame.trans h.same).trans (List.map_congr_left fun d hd => ?_)
      obtain ⟨hd, -⟩ := h.part.mem_onServer.1 hd
      have hbound := h.part.bounded hd
      refine Defect.rename_congr (skip_of_le hbound).symm fun target htarget => ?_
      exact (skip_of_le ((h.descending hd htarget).le.trans hbound)).symm

theorem Mirrors.foldl {builds part : OrderedMap BuildRef BuildSnapshot}
    (hkeyed : ∀ r b, builds.find? r = some b → b.ref = r)
    (hpart : ∀ r, r.server = server → part.find? r = builds.find? r) (now : Timestamp)
    (is : List Issue) {acc acc' : Report × DefectStore} (h : Mirrors server base ρ acc.2 acc'.2) :
    ∃ ρ', Mirrors server base ρ'
      ((is.filter fun i => i.key.server = server).foldl (passStep now part) acc).2
      (is.foldl (passStep now builds) acc').2 := by
  induction is generalizing acc acc' ρ with
  | nil => exact ⟨ρ, h⟩
  | cons i is ih =>
    rw [List.foldl_cons]
    by_cases hi : i.key.server = server
    · have hfind := hpart i.key.ref hi
      rw [List.filter_cons_of_pos (by simpa using hi), List.foldl_cons]
      refine ih (?_ : Mirrors server base ρ _ _)
      cases hb : builds.find? i.key.ref with
      | none =>
        rw [passStep_of_none hb, passStep_of_none (hfind.trans hb)]
        exact h
      | some b =>
        have hserver : b.server = server := (congrArg BuildRef.server (hkeyed _ b hb)).trans hi
        rw [passStep_of_some hb, passStep_of_some (hfind.trans hb)]
        subst hserver
        exact h.place now i
    · rw [List.filter_cons_of_neg (by simpa using hi)]
      cases hb : builds.find? i.key.ref with
      | none =>
        rw [passStep_of_none hb]
        exact ih h
      | some b =>
        have hserver : b.server ≠ server := by
          intro hserver
          exact hi ((congrArg BuildRef.server (hkeyed _ b hb)).symm.trans hserver)
        obtain ⟨ρ', h'⟩ := h.place_other hserver now i
        rw [passStep_of_some hb]
        exact ih h'

end Clustering

/-! ### The part of the stores that belongs to a server -/

/-- The stores without the issues, builds and defects of all other servers. -/
def Stores.restrict (s : Stores) (server : String) : Stores :=
  { s with
    builds := s.builds.filter fun _ b => b.server = server
    defects := { s.defects with defects := s.defects.defects.filter fun _ d => d.server = server }
    issues := ⟨s.issues.issues.filter fun _ i => i.key.server = server⟩ }

namespace Stores

variable (s : Stores) (server : String)

theorem trimmed_restrict : s.defects.Trimmed (s.restrict server).defects := by
  refine .of_find? rfl fun id d hd => ?_
  have hfind := (OrderedMap.find?_filter s.defects.defects (fun _ d => d.server = server) id).symm
  exact (Option.filter_eq_some_iff.1 (hfind.trans hd)).1

theorem onServer_restrict :
    (s.restrict server).defects.onServer server = s.defects.onServer server := by
  have hall : (s.restrict server).defects.all = s.defects.onServer server :=
    OrderedMap.values_filter s.defects.defects fun d => d.server = server
  unfold DefectStore.onServer at *
  rw [hall, List.filter_filter]
  simp

variable {s server}

theorem find?_builds_restrict {r : BuildRef} (hr : r.server = server)
    (hkeyed : ∀ r b, s.builds.find? r = some b → b.ref = r) :
    (s.restrict server).builds.find? r = s.builds.find? r := by
  refine (OrderedMap.find?_filter s.builds (fun _ b => b.server = server) r).trans ?_
  cases hb : s.builds.find? r with
  | none => rfl
  | some b =>
    have hserver : b.server = server := (congrArg BuildRef.server (hkeyed r b hb)).trans hr
    simp [hserver]

theorem recent_restrict (cfg : ClusteringConfig) (now : Timestamp) :
    Clustering.recent cfg now (s.restrict server) =
      (Clustering.recent cfg now s).filter fun i => i.key.server = server := by
  have hall : (s.restrict server).issues.all =
      s.issues.all.filter fun i => i.key.server = server :=
    OrderedMap.values_filter s.issues.issues fun i => i.key.server = server
  unfold Clustering.recent
  cases now.minusDays cfg.lookbackDays with
  | error o => rfl
  | ok since =>
    simp only [Clustering.issuesSince, hall, List.filter_filter, Bool.and_comm]

end Stores

/-- Each snapshot is stored under the build that it is of. -/
theorem Reachable.builds_keyed {s : Stores} (h : Reachable s) (r : BuildRef) (b : BuildSnapshot)
    (hb : s.builds.find? r = some b) : b.ref = r := by
  induction h with
  | empty => cases hb
  | @run s o h ih =>
    have hpass : ∀ {α : Type} (p : Pass α), (p.after s).builds.find? r = some b → b.ref = r := by
      intro α p hp
      rw [Pass.after_eq, Pass.builds_exec] at hp
      exact ih hp
    cases o with
    | saveIssue i => exact ih hb
    | putBuild b' =>
      have hfind := (OrderedMap.find?_insert s.builds b'.ref r b').symm.trans hb
      split at hfind
      · cases hfind
        assumption
      · exact ih hfind
    | removeBuild r' =>
      have hfind := (OrderedMap.find?_erase s.builds r' r).symm.trans hb
      split at hfind
      · cases hfind
      · exact ih hfind
    | cluster cfg now => exact hpass _ hb
    | resolve now id user => exact hpass _ hb
    | checkConsistency => exact hpass _ hb
    | clean cfg now => exact hpass _ hb
    | discardBroken id user => exact hpass _ hb

open Clustering DefectStore

/-- A pass in step with one over the part of a server, from stores that operations can lead to. -/
theorem Reachable.mirrors_outcome {s : Stores} (h : Reachable s) (cfg : ClusteringConfig)
    (now : Timestamp) (server : String) : ∃ ρ, Mirrors server s.defects.lastId ρ
      (outcome cfg now (s.restrict server)).2 (outcome cfg now s).2 := by
  have htrimmed := s.trimmed_restrict server
  have hstart : Mirrors server s.defects.lastId (fun id => id) (s.restrict server).defects
      s.defects := by
    refine ⟨htrimmed.wellFormed h.sound.wellFormed, htrimmed.descending h.descending,
      h.sound.wellFormed, strictMono_id, htrimmed.lastId.ge, fun _ _ => rfl, fun j => ?_, ?_⟩
    · rw [htrimmed.lastId]
    · have hsame : Defect.rename (fun id => id) = id :=
        funext fun d => Defect.rename_eq_self rfl fun _ _ => rfl
      rw [s.onServer_restrict server, hsame, List.map_id]
  unfold outcome
  rw [Stores.recent_restrict]
  exact hstart.foldl h.builds_keyed (fun r hr => Stores.find?_builds_restrict hr h.builds_keyed)
    now _

/-- A pass leaves the same defects on a server as a pass without what belongs to other servers, up to an
ascending renaming of the ids that it gives out.  The defects of a server without a recent issue
stay as they are. -/
theorem Reachable.cluster_onServer {s : Stores} (h : Reachable s) (cfg : ClusteringConfig)
    (now : Timestamp) (server : String) :
    (∃ ρ : Nat → Nat, StrictMono ρ ∧ (∀ id ≤ s.defects.lastId, ρ id = id) ∧
      ((Operation.cluster cfg now).run s).defects.onServer server =
        (((Operation.cluster cfg now).run (s.restrict server)).defects.onServer server).map
          (Defect.rename ρ)) ∧
    ((∀ i ∈ recent cfg now s, i.key.server ≠ server) →
      ((Operation.cluster cfg now).run s).defects.onServer server =
        s.defects.onServer server) := by
  have hw := h.sound.wellFormed
  have hpart := (s.trimmed_restrict server).wellFormed hw
  obtain ⟨ρ, hmirrors⟩ := h.mirrors_outcome cfg now server
  rw [Operation.defects_cluster hw, Operation.defects_cluster hpart]
  refine ⟨⟨ρ, hmirrors.mono, hmirrors.fixes, hmirrors.same⟩, fun hnone => ?_⟩
  have hrecent : recent cfg now (s.restrict server) = [] := by
    rw [Stores.recent_restrict]
    exact List.filter_eq_nil_iff.2 fun i hi => by simpa using hnone i hi
  have hidle : (outcome cfg now (s.restrict server)).2 = (s.restrict server).defects := by
    unfold outcome
    rw [hrecent]
    rfl
  rw [hmirrors.same, hidle, s.onServer_restrict server]
  refine (List.map_congr_left fun d hd => ?_).trans (List.map_id _)
  obtain ⟨hd, -⟩ := hw.mem_onServer.1 hd
  have hbound := hw.bounded hd
  refine Defect.rename_eq_self (hmirrors.fixes _ hbound) fun target htarget => ?_
  exact hmirrors.fixes _ ((h.descending hd htarget).le.trans hbound)

/-- A build of another server, with a commit that two builds of the bridge have as well, and an issue
that comes before theirs. -/
def twoServers : List Operation :=
  .putBuild ⟨"ant", 1, none, none, [], [firstChange], .empty⟩ ::
    .saveIssue (Issue.make ⟨"ant", 1, "t1"⟩ .newFailure bridgeTime) :: bridging

/-- The defects of the bridge get the ids 2 and 3, and 1 and 2 where the other server has been left
out, and the smaller one takes the other one over. -/
theorem Reachable.cluster_onServer_twoServers :
    ∃ s, Reachable s ∧ ∃ (after part : List Defect) (ρ : Nat → Nat), StrictMono ρ ∧
      after = ((Operation.cluster .default bridgeTime).run s).defects.onServer "apache" ∧
      part = ((Operation.cluster .default bridgeTime).run
        (s.restrict "apache")).defects.onServer "apache" ∧
      after.map (fun d => (d.id, d.supersededBy)) = [(2, none), (3, some 2)] ∧
      part.map (fun d => (d.id, d.supersededBy)) = [(1, none), (2, some 1)] ∧
      after = part.map (Defect.rename ρ) := by
  have hr := Reachable.empty.runAll twoServers
  obtain ⟨⟨ρ, hmono, -, hsame⟩, -⟩ := hr.cluster_onServer .default bridgeTime "apache"
  exact ⟨_, hr, _, _, ρ, hmono, rfl, rfl, by decide +kernel, by decide +kernel, hsame⟩

end Triage
