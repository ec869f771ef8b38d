import Triage.Proofs.Clustering.Merge

/-!
# What a clustering pass does to the stores

An issue whose build is known is placed in one of three ways (`Placement`): its build has a holder,
the build joins the open defects that share a commit with it, or it starts a defect.
`exec_clusterIssue` says that a pass does just that with one issue, and `exec_cluster` that a pass
is the placement of one recent issue after the other; nothing but the defects changes, and a pass
fails only where its window cannot be computed.
-/

namespace Triage.Clustering

open DefectStore

theorem faithful_attach (i : Issue) (b : BuildSnapshot) : Faithful (attach i b) :=
  fun _ => attached_eq_of_unchanged

theorem exec_attachTo {s : Stores} {id : Nat} {d : Defect} (h : s.defects.find? id = some d)
    (i : Issue) (b : BuildSnapshot) (r : Report) :
    (attachTo id i b r).exec s =
      (.ok (if (attach i b d).1 then { r with updated := r.updated + 1 } else r),
        { s with defects := s.defects.alter id (attached i b) }) := by
  unfold attachTo Pass.exec
  rw [Pass.runWith_bind_of_ok _ (Pass.exec_update (faithful_attach i b) h)]
  cases (attach i b d).1 with
  | true => simp [Pass.runWith_map, Stores.handler]
  | false => simp

/-! ### Placements -/

/-- Where an issue of a known build goes. -/
inductive Placement where
  /-- To the holder of the build. -/
  | held (holder : Defect)
  /-- With its build to an open defect, which first takes over the other ones. -/
  | joined (target : Nat) (others : List Nat)
  /-- To a new defect. -/
  | started

def placement (b : BuildSnapshot) (s : DefectStore) : Placement :=
  match holder? b.build (s.onServer b.server) with
  | some d => .held d
  | none =>
    match related b.fingerprint (s.onServer b.server) with
    | [] => .started
    | target :: others => .joined target others

/-- The new defect for an issue and its build. -/
def firstDefect (now : Timestamp) (i : Issue) (b : BuildSnapshot) (s : DefectStore) : Defect :=
  attached i b (Defect.make (s.lastId + 1) b.server now)

/-- The defects once an issue has been placed. -/
def Placement.result (now : Timestamp) (i : Issue) (b : BuildSnapshot) (s : DefectStore) :
    Placement → DefectStore
  | held d => s.alter d.id (attached i b)
  | joined target others => (merged now target others s).alter target (attached i b)
  | started => s.nextId.2.save (firstDefect now i b s)

/-- The counts once an issue has been placed. -/
def Placement.count (i : Issue) (b : BuildSnapshot) (r : Report) : Placement → Report
  | held d => if (attach i b d).1 then { r with updated := r.updated + 1 } else r
  | joined _ others =>
    { r with superseded := r.superseded + others.length, updated := r.updated + 1 }
  | started => { r with created := r.created + 1 }

theorem Placement.count_held (i : Issue) (b : BuildSnapshot) (r : Report) (d : Defect) :
    (held d).count i b r = if (attach i b d).1 then { r with updated := r.updated + 1 } else r := rfl

def placed (now : Timestamp) (i : Issue) (b : BuildSnapshot) (s : DefectStore) : DefectStore :=
  (placement b s).result now i b s

/-- What the choice of a placement rests on. -/
inductive PlacementSpec (b : BuildSnapshot) (s : DefectStore) : Placement → Prop
  | held {d : Defect} (found : s.find? d.id = some d) (server : d.server = b.server)
      (build : d.hasBuild b.build = true)
      (least : ∀ d', s.find? d'.id = some d' → d'.server = b.server → d'.hasBuild b.build = true →
        rank d ≤ rank d') : PlacementSpec b s (.held d)
  | joined {target : Nat} {others : List Nat}
      (unheld : ∀ d, s.find? d.id = some d → d.server = b.server → d.hasBuild b.build = false)
      (shares : ∀ id, id ∈ target :: others ↔ ∃ d, s.find? id = some d ∧ d.server = b.server ∧
        d.isOpen = true ∧ d.sharesFingerprint b.fingerprint = true)
      (nodup : (target :: others).Nodup) : PlacementSpec b s (.joined target others)
  | started
      (unheld : ∀ d, s.find? d.id = some d → d.server = b.server → d.hasBuild b.build = false)
      (alone : ∀ d, s.find? d.id = some d → d.server = b.server → d.isOpen = true →
        d.sharesFingerprint b.fingerprint = false) : PlacementSpec b s .started

theorem placement_spec {s : DefectStore} (hs : s.WellFormed) (b : BuildSnapshot) :
    PlacementSpec b s (placement b s) := by
  unfold placement
  cases hh : holder? b.build (s.onServer b.server) with
  | some d =>
    obtain ⟨hd, hb, hle⟩ := holder?_eq_some hh
    obtain ⟨hd, hserver⟩ := hs.mem_onServer.1 hd
    exact .held hd hserver hb fun d' h' hserver' => hle d' (hs.mem_onServer.2 ⟨h', hserver'⟩)
  | none =>
    have hnone : ∀ d, s.find? d.id = some d → d.server = b.server → d.hasBuild b.build = false :=
      fun d hd hserver => holder?_eq_none_iff.1 hh d (hs.mem_onServer.2 ⟨hd, hserver⟩)
    cases hr : related b.fingerprint (s.onServer b.server) with
    | nil =>
      refine .started hnone fun d hd hserver hopen => ?_
      by_contra hshare
      have : d.id ∈ related b.fingerprint (s.onServer b.server) :=
        mem_related.2 ⟨d, hs.mem_onServer.2 ⟨hd, hserver⟩, hopen, by simpa using hshare, rfl⟩
      rw [hr] at this
      cases this
    | cons target others =>
      refine .joined hnone (fun id => ?_) (hr ▸ nodup_related _ _)
      rw [← hr, mem_related]
      constructor
      · rintro ⟨d, hd, hopen, hshare, rfl⟩
        obtain ⟨hd, hserver⟩ := hs.mem_onServer.1 hd
        exact ⟨d, hd, hserver, hopen, hshare⟩
      · rintro ⟨d, hd, hserver, hopen, hshare⟩
        obtain rfl := hs.keyed hd
        exact ⟨d, hs.mem_onServer.2 ⟨hd, hserver⟩, hopen, hshare, rfl⟩

/-! ### The merge before a build joins -/

section Joined

variable {s : DefectStore} {b : BuildSnapshot} {target : Nat} {others : List Nat}

theorem PlacementSpec.mergeable (h : PlacementSpec b s (.joined target others)) :
    Mergeable s target others := by
  cases h with
  | joined unheld shares nodup =>
    obtain ⟨t, ht, -⟩ := (shares target).1 (by simp)
    refine ⟨⟨t, ht⟩, fun id hid => ?_, nodup⟩
    obtain ⟨o, ho, -, hopen, -⟩ := (shares id).1 (by simp [hid])
    exact ⟨o, ho, hopen⟩

/-- The defects that a merge takes over. -/
def takenOver (s : DefectStore) (others : List Nat) : List Defect := others.filterMap s.find?

theorem mem_takenOver {o : Defect} : o ∈ takenOver s others ↔ ∃ id ∈ others, s.find? id = some o :=
  List.mem_filterMap

theorem takenOver_append (s : DefectStore) (ids ids' : List Nat) :
    takenOver s (ids ++ ids') = takenOver s ids ++ takenOver s ids' :=
  List.filterMap_append

theorem membersKeyed_takenOver (hs : s.WellFormed) : ∀ o ∈ takenOver s others, o.MembersKeyed := by
  intro o ho
  obtain ⟨id, -, hid⟩ := mem_takenOver.1 ho
  exact hs.members hid

/-- The target after the merge, its origin, and that each part of it shares a commit with the build. -/
theorem PlacementSpec.find?_target (now : Timestamp) (hs : s.WellFormed)
    (h : PlacementSpec b s (.joined target others)) :
    ∃ t, s.find? target = some t ∧
      (merged now target others s).find? target = some (absorbedAll (takenOver s others) t) ∧
      ∀ o ∈ t :: takenOver s others, s.find? o.id = some o ∧ o.server = b.server ∧
        o.isOpen = true ∧ o.sharesFingerprint b.fingerprint = true ∧ o.hasBuild b.build = false := by
  have hm := h.mergeable
  obtain ⟨t, ht⟩ := hm.stored
  refine ⟨t, ht, ?_, ?_⟩
  · rw [find?_merged now target others s hm.nodup, if_pos rfl, ht]
    rfl
  · cases h with
    | joined unheld shares nodup =>
      have hall : ∀ {id o}, id ∈ target :: others → s.find? id = some o →
          s.find? o.id = some o ∧ o.server = b.server ∧ o.isOpen = true ∧
            o.sharesFingerprint b.fingerprint = true ∧ o.hasBuild b.build = false := by
        intro id o hid ho
        obtain ⟨o', ho', hserver, hopen, hshare⟩ := (shares id).1 hid
        rw [ho] at ho'
        cases ho'
        have hoid : s.find? o.id = some o := by rw [hs.keyed ho]; exact ho
        exact ⟨hoid, hserver, hopen, hshare, unheld o hoid hserver⟩
      intro o ho
      rcases List.mem_cons.1 ho with rfl | ho
      · exact hall (by simp) ht
      · obtain ⟨id, hid, ho⟩ := mem_takenOver.1 ho
        exact hall (by simp [hid]) ho

theorem PlacementSpec.hasBuild_target (hs : s.WellFormed) {t : Defect}
    (hall : ∀ o ∈ t :: takenOver s others, o.hasBuild b.build = false) :
    (absorbedAll (takenOver s others) t).hasBuild b.build = false := by
  by_contra hb
  obtain ⟨m, hm⟩ := Defect.find?_of_hasBuild (by simpa using hb)
  obtain ⟨o, ho, hom⟩ := mem_of_find?_absorbedAll (membersKeyed_takenOver hs) hm
  have hob := hall o ho
  rw [Defect.hasBuild_of_find? hom] at hob
  cases hob

end Joined

theorem attach_fst_of_not_hasBuild {i : Issue} {b : BuildSnapshot} {d : Defect}
    (h : d.hasBuild b.build = false) : (attach i b d).1 = true := by
  have hadd : d.addBuild (.ofSnapshot b) =
      (true, { d with members := d.members.insert b.build (.ofSnapshot b) }) := by
    unfold Defect.addBuild
    rw [if_neg (by simpa [DefectBuild.ofSnapshot] using h)]
    rfl
  unfold attach
  rw [hadd]
  rfl

/-! ### Passes -/

theorem exec_create (now : Timestamp) (i : Issue) (b : BuildSnapshot) (r : Report) (s : Stores) :
    (create now i b r).exec s =
      (.ok { r with created := r.created + 1 },
        { s with defects := s.defects.nextId.2.save (firstDefect now i b s.defects) }) := by
  have hnext : (Pass.ask .nextDefectId).exec s =
      (.ok (s.defects.lastId + 1), { s with defects := s.defects.nextId.2 }) :=
    Pass.runWith_ask_of_ok _ (c := .nextDefectId) rfl
  have hsave : ∀ (d : Defect) (s : Stores), (Pass.ask (.saveDefect d)).exec s =
      (.ok (), { s with defects := s.defects.save d }) :=
    fun d s => Pass.runWith_ask_of_ok _ (c := .saveDefect d) rfl
  unfold create Pass.exec
  rw [Pass.runWith_bind_of_ok _ hnext, Pass.runWith_bind_of_ok _ (hsave _ _)]
  simp [Pass.runWith_map, Stores.handler, firstDefect]

theorem exec_merge {s : Stores} {target : Nat} {others : List Nat}
    (h : Mergeable s.defects target others) (now : Timestamp) (r : Report) :
    (merge now target others r).exec s =
      (.ok { r with superseded := r.superseded + others.length },
        { s with defects := merged now target others s.defects }) := by
  unfold merge Pass.exec
  rw [Pass.runWith_bind_of_ok _ (exec_mergeAll now target others s r h)]
  simp [Pass.runWith_map, Stores.handler]

/-- Attaching to the target after the merge always adds the build. -/
theorem exec_attachTo_merged {s : Stores} (hs : s.defects.WellFormed) {b : BuildSnapshot}
    {target : Nat} {others : List Nat} (h : PlacementSpec b s.defects (.joined target others))
    (now : Timestamp) (i : Issue) (r : Report) :
    (attachTo target i b r).exec { s with defects := merged now target others s.defects } =
      (.ok { r with updated := r.updated + 1 },
        { s with defects := (merged now target others s.defects).alter target (attached i b) }) := by
  obtain ⟨t, -, ht, hparts⟩ := h.find?_target now hs
  have hb : (absorbedAll (takenOver s.defects others) t).hasBuild b.build = false :=
    PlacementSpec.hasBuild_target hs fun o ho => (hparts o ho).2.2.2.2
  rw [exec_attachTo ht, if_pos (attach_fst_of_not_hasBuild hb)]

/-- An issue whose build has a holder goes there. -/
theorem exec_clusterIssue_of_holder {s : Stores} {b : BuildSnapshot} {d : Defect}
    (hd : holder? b.build (s.defects.onServer b.server) = some d)
    (hfind : s.defects.find? d.id = some d) (now : Timestamp) (i : Issue) (r : Report) :
    (clusterIssue now i b r).exec s =
      (.ok ((Placement.held d).count i b r),
        { s with defects := s.defects.alter d.id (attached i b) }) := by
  have hall : (Pass.ask .allDefects).exec s = (.ok s.defects.all, s) :=
    Pass.runWith_ask_of_ok _ (c := .allDefects) rfl
  have hserver : (s.defects.all.filter fun d => d.server = b.server) =
      s.defects.onServer b.server := rfl
  unfold clusterIssue Pass.exec
  rw [Pass.runWith_bind_of_ok _ hall]
  simp only [hserver, hd]
  exact exec_attachTo hfind i b r

/-- A pass places one issue. -/
theorem exec_clusterIssue {s : Stores} (hs : s.defects.WellFormed) (now : Timestamp) (i : Issue)
    (b : BuildSnapshot) (r : Report) :
    (clusterIssue now i b r).exec s =
      (.ok ((placement b s.defects).count i b r),
        { s with defects := placed now i b s.defects }) := by
  have hall : (Pass.ask .allDefects).exec s = (.ok s.defects.all, s) :=
    Pass.runWith_ask_of_ok _ (c := .allDefects) rfl
  have hspec := placement_spec hs b
  have hserver : (s.defects.all.filter fun d => d.server = b.server) =
      s.defects.onServer b.server := rfl
  unfold placed placement at *
  cases hh : holder? b.build (s.defects.onServer b.server) with
  | some d =>
    rw [hh] at hspec
    cases hspec with
    | held found => exact exec_clusterIssue_of_holder hh found now i r
  | none =>
    unfold clusterIssue Pass.exec
    rw [Pass.runWith_bind_of_ok _ hall]
    simp only [hserver, hh]
    rw [hh] at hspec
    cases hr : related b.fingerprint (s.defects.onServer b.server) with
    | nil => exact exec_create now i b r s
    | cons target others =>
      rw [hr] at hspec
      have hattach := fun r => exec_attachTo_merged hs hspec now i r
      cases others with
      | nil => exact hattach r
      | cons other others =>
        exact (Pass.runWith_bind_of_ok _ (exec_merge hspec.mergeable now r)).trans (hattach _)

theorem firstDefect_sameStanding (now : Timestamp) (i : Issue) (b : BuildSnapshot)
    (s : DefectStore) :
    Defect.SameStanding (Defect.make (s.lastId + 1) b.server now) (firstDefect now i b s) :=
  attached_sameStanding i b _

/-- The first defect of a build has just the build as a member. -/
theorem find?_firstDefect (now : Timestamp) (i : Issue) (b : BuildSnapshot) (s : DefectStore)
    (k : Nat) : (firstDefect now i b s).members.find? k =
      if k = b.build then some (Defect.withIssue (defectIssue i) (.ofSnapshot b)) else none := by
  unfold firstDefect
  rw [find?_attached]
  rfl

theorem wellFormed_placed {s : DefectStore} (hs : s.WellFormed) (now : Timestamp) (i : Issue)
    (b : BuildSnapshot) : (placed now i b s).WellFormed := by
  unfold placed
  cases placement b s with
  | held d =>
    exact hs.alter_of_sameStanding (attached_sameStanding i b)
      fun d hd => membersKeyed_attached (hs.members hd) i b
  | joined target others =>
    have hm := wellFormed_merged hs now target others
    exact hm.alter_of_sameStanding (attached_sameStanding i b)
      fun d hd => membersKeyed_attached (hm.members hd) i b
  | started =>
    have hstand := firstDefect_sameStanding now i b s
    refine hs.save_next hstand.id ?_ hstand.supersededBy
    exact membersKeyed_attached (fun k m hm => by cases hm) i b

/-- The part of a pass that one recent issue makes up. -/
def passStep (now : Timestamp) (builds : OrderedMap BuildRef BuildSnapshot)
    (acc : Report × DefectStore) (i : Issue) : Report × DefectStore :=
  let r := { acc.1 with checked := acc.1.checked + 1 }
  match builds.find? i.key.ref with
  | none => ({ r with skipped := r.skipped + 1 }, acc.2)
  | some b => ((placement b acc.2).count i b r, placed now i b acc.2)

section PassStep

variable {now : Timestamp} {builds : OrderedMap BuildRef BuildSnapshot} {i : Issue}
  {b : BuildSnapshot}

theorem passStep_of_some (hb : builds.find? i.key.ref = some b) (acc : Report × DefectStore) :
    passStep now builds acc i =
      ((placement b acc.2).count i b { acc.1 with checked := acc.1.checked + 1 },
        placed now i b acc.2) := by
  unfold passStep
  rw [hb]

theorem passStep_of_none (hb : builds.find? i.key.ref = none) (acc : Report × DefectStore) :
    passStep now builds acc i =
      ({ acc.1 with checked := acc.1.checked + 1, skipped := acc.1.skipped + 1 }, acc.2) := by
  unfold passStep
  rw [hb]

end PassStep

theorem wellFormed_passStep {acc : Report × DefectStore} (h : acc.2.WellFormed) (now : Timestamp)
    (builds : OrderedMap BuildRef BuildSnapshot) (i : Issue) :
    (passStep now builds acc i).2.WellFormed := by
  cases hb : builds.find? i.key.ref with
  | none =>
    rw [passStep_of_none hb]
    exact h
  | some b =>
    rw [passStep_of_some hb]
    exact wellFormed_placed h now i b

/-- The counts have no influence on the defects. -/
theorem foldl_passStep_congr (now : Timestamp) (builds : OrderedMap BuildRef BuildSnapshot)
    (is : List Issue) {acc acc' : Report × DefectStore} (h : acc'.2 = acc.2) :
    (is.foldl (passStep now builds) acc').2 = (is.foldl (passStep now builds) acc).2 := by
  induction is generalizing acc acc' with
  | nil => exact h
  | cons i is ih =>
    refine ih ?_
    unfold passStep
    cases builds.find? i.key.ref with
    | none => exact h
    | some b => exact congrArg (placed now i b) h

/-- What placements keep, passes keep. -/
theorem foldl_passStep_induction {P : DefectStore → Prop} {now : Timestamp}
    {builds : OrderedMap BuildRef BuildSnapshot}
    (hstep : ∀ i b ds, builds.find? i.key.ref = some b → P ds → P (placed now i b ds))
    (is : List Issue) {acc : Report × DefectStore} (h : P acc.2) :
    P (is.foldl (passStep now builds) acc).2 := by
  induction is generalizing acc with
  | nil => exact h
  | cons i is ih =>
    refine ih ?_
    cases hb : builds.find? i.key.ref with
    | none =>
      rw [passStep_of_none hb]
      exact h
    | some b =>
      rw [passStep_of_some hb]
      exact hstep i b acc.2 hb h

theorem exec_clusterAll (now : Timestamp) :
    ∀ (is : List Issue) (r : Report) (s : Stores), s.defects.WellFormed →
      (clusterAll now is r).exec s =
        (.ok (is.foldl (passStep now s.builds) (r, s.defects)).1,
          { s with defects := (is.foldl (passStep now s.builds) (r, s.defects)).2 })
  | [], r, s, _ => rfl
  | i :: is, r, s, hs => by
    have hbuild : (Pass.ask (.build i.key.ref)).exec s = (.ok (s.builds.find? i.key.ref), s) :=
      Pass.runWith_ask_of_ok _ (c := .build i.key.ref) rfl
    have hstep : (passStep now s.builds (r, s.defects) i).2.WellFormed :=
      wellFormed_passStep hs now s.builds i
    have ih := exec_clusterAll now is (passStep now s.builds (r, s.defects) i).1
      { s with defects := (passStep now s.builds (r, s.defects) i).2 } hstep
    unfold clusterAll Pass.exec
    rw [Pass.runWith_bind_of_ok _ hbuild, List.foldl_cons]
    cases hb : s.builds.find? i.key.ref with
    | none =>
      rw [passStep_of_none hb] at ih ⊢
      rw [Pass.runWith_bind, Pass.runWith_log]
      exact ih
    | some b =>
      rw [passStep_of_some hb] at ih ⊢
      exact (Pass.runWith_bind_of_ok _ (exec_clusterIssue hs now i b _)).trans ih

/-! ### The window of a pass

The beginning of the window stays a variable here: evaluating `Timestamp.minusDays` in a proof makes
Lean count to the bounds of the calendar. -/

def issuesSince (s : Stores) : Except Timestamp.Overflow Timestamp → List Issue
  | .ok since => s.issues.all.filter fun i => since ≤ i.detectedAt
  | .error _ => []

/-- The issues that a pass looks at: those detected within the lookback, if it can be computed. -/
def recent (cfg : ClusteringConfig) (now : Timestamp) (s : Stores) : List Issue :=
  issuesSince s (now.minusDays cfg.lookbackDays)

theorem recent_of_ok {cfg : ClusteringConfig} {now since : Timestamp}
    (h : now.minusDays cfg.lookbackDays = .ok since) (s : Stores) :
    recent cfg now s = s.issues.all.filter fun i => since ≤ i.detectedAt :=
  congrArg (issuesSince s) h

theorem recent_of_error {cfg : ClusteringConfig} {now : Timestamp} {o : Timestamp.Overflow}
    (h : now.minusDays cfg.lookbackDays = .error o) (s : Stores) : recent cfg now s = [] :=
  congrArg (issuesSince s) h

/-- The report of a pass and the defects that it leaves. -/
def outcome (cfg : ClusteringConfig) (now : Timestamp) (s : Stores) : Report × DefectStore :=
  (recent cfg now s).foldl (passStep now s.builds) (.empty, s.defects)

/-- A pass with the beginning of its window given. -/
def passSince (now : Timestamp) (t : Except Timestamp.Overflow Timestamp) : Pass Report := do
  let since ← Pass.ofTime t
  let issues ← Pass.ask .allIssues
  clusterAll now (issues.filter fun i => since ≤ i.detectedAt) .empty

theorem cluster_eq_passSince (cfg : ClusteringConfig) (now : Timestamp) :
    cluster cfg now = passSince now (now.minusDays cfg.lookbackDays) := rfl

theorem exec_passSince_ok (now since : Timestamp) (s : Stores) :
    (passSince now (.ok since)).exec s =
      (clusterAll now (issuesSince s (.ok since)) .empty).exec s := by
  have hissues : (Pass.ask .allIssues).exec s = (.ok s.issues.all, s) :=
    Pass.runWith_ask_of_ok _ (c := .allIssues) rfl
  unfold passSince Pass.exec
  rw [Pass.runWith_bind, Pass.runWith_ofTime]
  exact Pass.runWith_bind_of_ok _ hissues

theorem exec_cluster_eq_clusterAll {cfg : ClusteringConfig} {now since : Timestamp}
    (h : now.minusDays cfg.lookbackDays = .ok since) (s : Stores) :
    (cluster cfg now).exec s = (clusterAll now (recent cfg now s) .empty).exec s := by
  unfold recent
  rw [cluster_eq_passSince, h]
  exact exec_passSince_ok now since s

/-- A pass places the recent issues one after the other. -/
theorem exec_cluster_of_ok {s : Stores} (hs : s.defects.WellFormed) {cfg : ClusteringConfig}
    {now since : Timestamp} (h : now.minusDays cfg.lookbackDays = .ok since) :
    (cluster cfg now).exec s =
      (.ok (outcome cfg now s).1, { s with defects := (outcome cfg now s).2 }) := by
  rw [exec_cluster_eq_clusterAll h]
  exact exec_clusterAll now _ _ s hs

theorem exec_cluster_of_error {cfg : ClusteringConfig} {now : Timestamp} {o : Timestamp.Overflow}
    (h : now.minusDays cfg.lookbackDays = .error o) (s : Stores) :
    (cluster cfg now).exec s = (.error (.crash o), s) := by
  rw [cluster_eq_passSince, h]
  rfl

/-- The stores after a pass, whether or not its window can be computed. -/
theorem exec_cluster_snd {s : Stores} (hs : s.defects.WellFormed) (cfg : ClusteringConfig)
    (now : Timestamp) :
    ((cluster cfg now).exec s).2 = { s with defects := (outcome cfg now s).2 } := by
  cases h : now.minusDays cfg.lookbackDays with
  | ok since => rw [exec_cluster_of_ok hs h]
  | error o =>
    rw [exec_cluster_of_error h]
    unfold outcome
    rw [recent_of_error h]
    rfl

/-- What holds of the defects before a pass and is kept by each placement holds after it. -/
theorem outcome_induction {P : DefectStore → Prop} {cfg : ClusteringConfig} {now : Timestamp}
    {s : Stores} (h : P s.defects)
    (hstep : ∀ i b ds, s.builds.find? i.key.ref = some b → P ds → P (placed now i b ds)) :
    P (outcome cfg now s).2 :=
  foldl_passStep_induction hstep _ h

/-- The same for a step that relies on well-formed defects. -/
theorem outcome_induction_of_wellFormed {P : DefectStore → Prop} {cfg : ClusteringConfig}
    {now : Timestamp} {s : Stores} (hs : s.defects.WellFormed) (h : P s.defects)
    (hstep : ∀ i b ds, ds.WellFormed → P ds → P (placed now i b ds)) :
    P (outcome cfg now s).2 := by
  have hboth : (outcome cfg now s).2.WellFormed ∧ P (outcome cfg now s).2 :=
    outcome_induction (P := fun ds => ds.WellFormed ∧ P ds) ⟨hs, h⟩ fun i b ds _ h =>
      ⟨wellFormed_placed h.1 now i b, hstep i b ds h.1 h.2⟩
  exact hboth.2

end Triage.Clustering
