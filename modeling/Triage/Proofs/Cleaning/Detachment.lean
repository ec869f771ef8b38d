import Triage.Proofs.Cleaning.Effect
import Triage.Proofs.Clustering.Report

/-!
# Recent issues after a removal run

A run removes no issue that a clustering pass at the same time would look at (`recent_clean`), but it
may remove the defects that such an issue is attached to, since a defect counts as old from its
resolution on, whatever it has taken in since.  Where this happens the next pass starts a new defect
(`attached_after_clean_absorbed`), and where it does not the next pass creates and takes over nothing
(`attached_after_clean`).
-/

namespace Triage

open Clustering DefectStore

/-- Each issue that a pass would look at and whose build is known is attached to a stored defect with the
property. -/
def Stores.AttachesRecent (cfg : ClusteringConfig) (now : Timestamp) (s : Stores)
    (p : Defect → Prop) : Prop :=
  ∀ i ∈ recent cfg now s, ∀ b, s.builds.find? i.key.ref = some b →
    ∃ id d, s.defects.find? id = some d ∧ i.AttachedTo b d ∧ p d

/-! ### Passes over attached issues -/

namespace DefectStore

/-- Some defect has the build. -/
def Holds (s : DefectStore) (b : BuildSnapshot) : Prop :=
  ∃ d, s.find? d.id = some d ∧ d.server = b.server ∧ d.hasBuild b.build = true

/-- The same defects, each of which keeps its standing and its members. -/
structure Refreshed (s t : DefectStore) : Prop where
  kept {id : Nat} {d : Defect} : s.find? id = some d → ∃ d', t.find? id = some d' ∧ Grown d d'
  origin {id : Nat} {d' : Defect} : t.find? id = some d' → ∃ d, s.find? id = some d

namespace Refreshed

variable {s t u : DefectStore} {b : BuildSnapshot}

theorem refl (s : DefectStore) : Refreshed s s := ⟨fun {_ d} hd => ⟨d, hd, .refl d⟩, fun h => ⟨_, h⟩⟩

theorem trans (h : Refreshed s t) (h' : Refreshed t u) : Refreshed s u := by
  refine ⟨fun hd => ?_, fun hd'' => ?_⟩
  · obtain ⟨d', hd', hg⟩ := h.kept hd
    obtain ⟨d'', hd'', hg'⟩ := h'.kept hd'
    exact ⟨d'', hd'', hg.trans hg'⟩
  · obtain ⟨d', hd'⟩ := h'.origin hd''
    exact h.origin hd'

theorem attach (s : DefectStore) (id : Nat) (i : Issue) (b : BuildSnapshot) :
    Refreshed s (s.alter id (attached i b)) := by
  refine ⟨fun {k d} hd => ?_, fun {k d'} hd' => ?_⟩
  · rw [find?_alter, hd]
    split
    · exact ⟨_, rfl, grown_attached i b d⟩
    · exact ⟨d, rfl, .refl d⟩
  · rw [find?_alter] at hd'
    split at hd'
    · obtain ⟨d, hd, -⟩ := Option.map_eq_some_iff.1 hd'
      exact ⟨d, hd⟩
    · exact ⟨d', hd'⟩

theorem keyed (h : Refreshed s t) (hs : s.Keyed) : t.Keyed := by
  intro id d' hd'
  obtain ⟨d, hd⟩ := h.origin hd'
  obtain ⟨e, he, hg⟩ := h.kept hd
  cases hd'.symm.trans he
  exact hg.standing.id.trans (hs hd)

theorem holds (h : Refreshed s t) (hb : s.Holds b) : t.Holds b := by
  obtain ⟨d, hd, hserver, hbuild⟩ := hb
  obtain ⟨d', hd', hg⟩ := h.kept hd
  refine ⟨d', ?_, hg.standing.server.trans hserver, hg.hasBuild hbuild⟩
  rw [hg.standing.id]
  exact hd'

theorem ids_eq (h : Refreshed s t) : t.ids = s.ids := by
  ext id
  rw [mem_ids, mem_ids]
  constructor
  · rintro ⟨d', hd'⟩
    exact h.origin hd'
  · rintro ⟨d, hd⟩
    obtain ⟨d', hd', -⟩ := h.kept hd
    exact ⟨d', hd'⟩

end Refreshed

end DefectStore

namespace Clustering

theorem Placement.created_count_held (i : Issue) (b : BuildSnapshot) (r : Report) (d : Defect) :
    ((held d).count i b r).created = r.created ∧
      ((held d).count i b r).superseded = r.superseded := by
  rw [count_held]
  split <;> exact ⟨rfl, rfl⟩

/-- The issue of a build that some defect has goes to one of these. -/
theorem exec_clusterIssue_of_holds {s : Stores} (hs : s.defects.Keyed) {b : BuildSnapshot}
    (hb : s.defects.Holds b) (now : Timestamp) (i : Issue) (r : Report) :
    ∃ r' ds, (clusterIssue now i b r).exec s = (.ok r', { s with defects := ds }) ∧
      r'.created = r.created ∧ r'.superseded = r.superseded ∧ s.defects.Refreshed ds := by
  obtain ⟨e, he, hserver, hbuild⟩ := hb
  cases hh : holder? b.build (s.defects.onServer b.server) with
  | none =>
    have hnot := holder?_eq_none_iff.1 hh e (hs.mem_onServer.2 ⟨he, hserver⟩)
    rw [hbuild] at hnot
    cases hnot
  | some d =>
    obtain ⟨hd, -⟩ := hs.mem_onServer.1 (holder?_eq_some hh).1
    obtain ⟨hcreated, hsuperseded⟩ := Placement.created_count_held i b r d
    exact ⟨_, _, exec_clusterIssue_of_holder hh hd now i r, hcreated, hsuperseded,
      .attach s.defects d.id i b⟩

theorem exec_clusterAll_of_holds (now : Timestamp) (is : List Issue) (r : Report) {s : Stores}
    (hs : s.defects.Keyed)
    (hb : ∀ i ∈ is, ∀ b, s.builds.find? i.key.ref = some b → s.defects.Holds b) :
    ∃ r' ds, (clusterAll now is r).exec s = (.ok r', { s with defects := ds }) ∧
      r'.created = r.created ∧ r'.superseded = r.superseded ∧ s.defects.Refreshed ds := by
  induction is generalizing r s with
  | nil => exact ⟨r, s.defects, rfl, rfl, rfl, .refl _⟩
  | cons i is ih =>
    have hask : (Pass.ask (.build i.key.ref)).exec s = (.ok (s.builds.find? i.key.ref), s) :=
      Pass.runWith_ask_of_ok _ (c := .build i.key.ref) rfl
    have hrest : ∀ j ∈ is, ∀ b, s.builds.find? j.key.ref = some b → s.defects.Holds b :=
      fun j hj => hb j (List.mem_cons_of_mem _ hj)
    unfold clusterAll Pass.exec
    rw [Pass.runWith_bind_of_ok _ hask]
    cases hbuild : s.builds.find? i.key.ref with
    | none =>
      obtain ⟨r', ds, hexec, hcreated, hsuperseded, hds⟩ :=
        ih { r with checked := r.checked + 1, skipped := r.skipped + 1 } hs hrest
      refine ⟨r', ds, ?_, hcreated, hsuperseded, hds⟩
      rw [Pass.runWith_bind, Pass.runWith_log]
      exact hexec
    | some b =>
      obtain ⟨r₁, ds₁, hexec₁, hcreated₁, hsuperseded₁, hds₁⟩ := exec_clusterIssue_of_holds hs
        (hb i List.mem_cons_self b hbuild) now i { r with checked := r.checked + 1 }
      obtain ⟨r', ds, hexec, hcreated, hsuperseded, hds⟩ :=
        ih r₁ (s := { s with defects := ds₁ }) (hds₁.keyed hs)
          fun j hj b hb => hds₁.holds (hrest j hj b hb)
      exact ⟨r', ds, (Pass.runWith_bind_of_ok _ hexec₁).trans hexec, hcreated.trans hcreated₁,
        hsuperseded.trans hsuperseded₁, hds₁.trans hds⟩

/-- A pass over issues that are all attached creates no defect and takes none over. -/
theorem exec_cluster_of_attachesRecent {s : Stores} (hs : s.defects.Keyed) {cfg : ClusteringConfig}
    {now since : Timestamp} (hwindow : now.minusDays cfg.lookbackDays = .ok since)
    (h : s.AttachesRecent cfg now fun _ => True) :
    ∃ r ds, (cluster cfg now).exec s = (.ok r, { s with defects := ds }) ∧
      r.created = 0 ∧ r.superseded = 0 ∧ s.defects.Refreshed ds := by
  rw [exec_cluster_eq_clusterAll hwindow]
  refine exec_clusterAll_of_holds now _ .empty hs fun i hi b hb => ?_
  obtain ⟨id, d, hd, ⟨hserver, m, hm, -⟩, -⟩ := h i hi b hb
  obtain rfl := hs hd
  exact ⟨d, hd, hserver, Defect.hasBuild_of_find? hm⟩

end Clustering

/-! ### What a run leaves -/

namespace Cleaning

variable {s : Stores} {i : Issue} {b : BuildSnapshot} {d : Defect} {id : Nat}
  {cleaner : CleanerConfig} {now : Timestamp}

/-- A run with a threshold before the window of a pass takes nothing out of the window. -/
theorem filter_remainingIssues (hs : s.defects.Keyed) {threshold since : Timestamp}
    (h : threshold ≤ since) (budget : Nat) :
    (remainingIssues threshold budget s).all.filter (fun i => since ≤ i.detectedAt) =
      s.issues.all.filter fun i => since ≤ i.detectedAt := by
  have hsame : (remainingIssues threshold budget s).issues.filter (fun _ i => since ≤ i.detectedAt) =
      s.issues.issues.filter fun _ i => since ≤ i.detectedAt := by
    refine OrderedMap.ext_find? fun k => ?_
    have hfind := find?_remainingIssues hs threshold budget k
    rw [OrderedMap.find?_filter, OrderedMap.find?_filter]
    change ((remainingIssues threshold budget s).find? k).filter _ = (s.issues.find? k).filter _
    rw [hfind]
    split
    · rename_i hk
      obtain ⟨⟨k', i⟩, htaken, rfl⟩ := List.mem_map.1 hk
      obtain ⟨hmem, hstale⟩ := List.mem_filter.1 (List.mem_of_mem_take htaken)
      have hi : s.issues.find? k' = some i := OrderedMap.mem_entries_iff.1 hmem
      -- what was removed is older than the window
      have hold : i.detectedAt < threshold := by
        unfold isStale at hstale
        exact of_decide_eq_true (Bool.and_eq_true_iff.1 hstale).1
      have hout : ¬ since ≤ i.detectedAt := by
        rw [Timestamp.le_iff] at h ⊢
        rw [Timestamp.lt_def] at hold
        omega
      rw [hi]
      simp [Option.filter, hout]
    · rfl
  have hvalues := congrArg OrderedMap.values hsame
  rwa [OrderedMap.values_filter, OrderedMap.values_filter] at hvalues

theorem recent_clean (hs : s.defects.Keyed) {cfg : ClusteringConfig}
    (hle : cfg.lookbackDays ≤ cleaner.safeDays) (now : Timestamp) :
    recent cfg now ((clean cleaner now).exec s).2 = recent cfg now s := by
  cases he : cleaner.enabled with
  | false => rw [exec_clean_of_disabled he]
  | true =>
    cases ht : now.minusDays cleaner.safeDays with
    | error o => rw [exec_clean_of_error he ht]
    | ok threshold =>
      rw [exec_clean_of_ok hs he ht]
      cases hsince : now.minusDays cfg.lookbackDays with
      | error o => rw [recent_of_error hsince, recent_of_error hsince]
      | ok since =>
        rw [recent_of_ok hsince, recent_of_ok hsince]
        exact filter_remainingIssues hs (Timestamp.minusDays_anti hle hsince ht) cleaner.budget

/-- An issue stays attached to a defect unless this is gone for its age. -/
theorem attachedTo_clean (hs : s.defects.Keyed) (cleaner : CleanerConfig) (now : Timestamp)
    (hd : s.defects.find? id = some d) (ha : i.AttachedTo b d) :
    (∃ d', ((clean cleaner now).exec s).2.defects.find? id = some d' ∧ i.AttachedTo b d' ∧
        (IsExpired cleaner now ((clean cleaner now).exec s).2 d' → IsExpired cleaner now s d)) ∨
      (((clean cleaner now).exec s).2.defects.find? id = none ∧ IsExpired cleaner now s d) := by
  have hbuilds := Pass.builds_exec (clean cleaner now) s
  have hexpired : ∀ d', d'.resolvedAt = d.resolvedAt → d'.memberRefs = d.memberRefs →
      IsExpired cleaner now ((clean cleaner now).exec s).2 d' → IsExpired cleaner now s d := by
    rintro d' hresolved hrefs ⟨he, threshold, ht, hover⟩
    refine ⟨he, threshold, ht, ?_⟩
    unfold isOverdue lacksMember at hover ⊢
    rwa [hbuilds, hresolved, hrefs] at hover
  rcases find?_clean hs cleaner now id with h | h | ⟨h, d', hd', hexp⟩
  · exact .inl ⟨d, h.trans hd, ha, hexpired d rfl rfl⟩
  · rw [hd] at h
    exact .inl ⟨marked s.builds d, h, ha, hexpired _ rfl rfl⟩
  · cases hd.symm.trans hd'
    exact .inr ⟨h, hexp⟩

/-! ### Main result -/

/-- A run takes nothing out of the window of a pass, and an issue loses a defect only if the run removes
this for its age.  Recent issues that are all attached to defects which are not old enough are so after
the run.  Whenever they all are attached after it, the next pass creates and takes over no defect, and no
defect is opened again or closed. -/
theorem attached_after_clean (hs : s.defects.Keyed) {cfg : ClusteringConfig}
    (hle : cfg.lookbackDays ≤ cleaner.safeDays) {s' : Stores}
    (hclean : ((clean cleaner now).exec s).2 = s') :
    recent cfg now s' = recent cfg now s ∧
    (∀ (i : Issue) b id d, s.defects.find? id = some d → i.AttachedTo b d →
      (∃ d', s'.defects.find? id = some d' ∧ i.AttachedTo b d') ∨
        (s'.defects.find? id = none ∧ IsExpired cleaner now s d)) ∧
    (s.AttachesRecent cfg now (fun d => ¬ IsExpired cleaner now s d) →
      s'.AttachesRecent cfg now fun d => ¬ IsExpired cleaner now s' d) ∧
    (s'.AttachesRecent cfg now (fun _ => True) →
      ∀ since, now.minusDays cfg.lookbackDays = .ok since →
        ∃ r s'', (cluster cfg now).exec s' = (.ok r, s'') ∧ r.created = 0 ∧ r.superseded = 0 ∧
          s''.defects.ids = s'.defects.ids ∧
          ∀ id d d', s'.defects.find? id = some d → s''.defects.find? id = some d' →
            Defect.SameStanding d d') := by
  subst hclean
  refine ⟨recent_clean hs hle now, fun i b id d hd ha => ?_, fun h i hi b hb => ?_,
    fun h since hwindow => ?_⟩
  · rcases attachedTo_clean hs cleaner now hd ha with ⟨d', hd', ha', -⟩ | hgone
    · exact .inl ⟨d', hd', ha'⟩
    · exact .inr hgone
  · rw [recent_clean hs hle] at hi
    rw [Pass.builds_exec] at hb
    obtain ⟨id, d, hd, ha, hyoung⟩ := h i hi b hb
    rcases attachedTo_clean hs cleaner now hd ha with ⟨d', hd', ha', hexp⟩ | ⟨-, hexp⟩
    · exact ⟨id, d', hd', ha', fun hold => hyoung (hexp hold)⟩
    · exact absurd hexp hyoung
  · obtain ⟨r, ds, hexec, hcreated, hsuperseded, hds⟩ :=
      exec_cluster_of_attachesRecent (keyed_clean hs cleaner now) hwindow h
    refine ⟨r, _, hexec, hcreated, hsuperseded, hds.ids_eq, fun id d d' hd hd' => ?_⟩
    obtain ⟨e, he, hg⟩ := hds.kept hd
    have hsame : e = d' := Option.some.inj (he.symm.trans hd')
    exact hsame ▸ hg.standing

/-! ### A defect that was resolved long ago -/

theorem attachesRecent_of_singleton {cfg : ClusteringConfig} (hrecent : recent cfg now s = [i])
    (hb : s.builds.find? i.key.ref = some b) {p : Defect → Prop} (hd : s.defects.find? id = some d)
    (ha : i.AttachedTo b d) (hp : p d) : s.AttachesRecent cfg now p := by
  intro j hj c hc
  rw [hrecent, List.mem_singleton] at hj
  subst hj
  cases hb.symm.trans hc
  exact ⟨id, d, hd, ha, hp⟩

/-- A build whose defect has been resolved. -/
def resolvedBuild : List Operation :=
  [.putBuild (bridgeBuild 1 [firstChange]), .saveIssue (bridgeIssue 1 "t1" none),
    .cluster .default bridgeTime, .resolve bridgeTime 1 "dev01"]

/-- Two hundred days after the defect was resolved. -/
def lateTime : Timestamp := .ofMillis 1717280000000

def lateIssue : Issue := .make ⟨"apache", 1, "t2"⟩ .newFailure lateTime

/-- The same, and the resolved defect has taken in an issue that was detected late. -/
def lateAbsorption : List Operation :=
  resolvedBuild ++ [.saveIssue lateIssue, .cluster .default lateTime]

/-- Right after the resolution the defect stays and keeps its issue. -/
theorem attached_after_clean_resolved :
    ∃ s s', Reachable s ∧ ((clean .default bridgeTime).exec s).2 = s' ∧
      recent .default bridgeTime s' = [bridgeIssue 1 "t1" none] ∧
      s'.AttachesRecent .default bridgeTime (fun _ => True) ∧
      ∃ r s'', (cluster .default bridgeTime).exec s' = (.ok r, s'') ∧ r.created = 0 ∧
        s''.defects.ids = s'.defects.ids := by
  have hr := Reachable.empty.runAll resolvedBuild
  have hwindow : bridgeTime.minusDays ClusteringConfig.default.lookbackDays =
      .ok ⟨1698790400, 0⟩ := by decide +kernel
  have hthreshold : bridgeTime.minusDays CleanerConfig.default.safeDays =
      .ok ⟨1684448000, 0⟩ := by decide +kernel
  have hrecent : recent .default bridgeTime (Operation.runAll resolvedBuild .empty) =
      [bridgeIssue 1 "t1" none] := by decide +kernel
  have hfirst : ((Operation.runAll resolvedBuild .empty).defects.find? 1).any (fun d =>
      d.server = "apache" && (d.members.find? 1).any (fun m => m.hasIssue .newFailure "t1") &&
        !isOverdue (Operation.runAll resolvedBuild .empty).builds ⟨1684448000, 0⟩ d) = true := by
    decide +kernel
  obtain ⟨d, hd, hd'⟩ := (Option.any_eq_true _ _).1 hfirst
  obtain ⟨hd', hyoung⟩ := Bool.and_eq_true_iff.1 hd'
  obtain ⟨hserver, hissue⟩ := Bool.and_eq_true_iff.1 hd'
  obtain ⟨m, hm, hissue⟩ := (Option.any_eq_true _ _).1 hissue
  have hbefore : (Operation.runAll resolvedBuild .empty).AttachesRecent .default bridgeTime fun d =>
      ¬ IsExpired .default bridgeTime (Operation.runAll resolvedBuild .empty) d := by
    refine attachesRecent_of_singleton (b := bridgeBuild 1 [firstChange]) hrecent (by decide +kernel)
      hd ⟨of_decide_eq_true hserver, m, hm, hissue⟩ ?_
    rintro ⟨-, threshold, ht, hover⟩
    cases hthreshold.symm.trans ht
    rw [hover] at hyoung
    cases hyoung
  have hle : ClusteringConfig.default.lookbackDays ≤ CleanerConfig.default.safeDays := by decide
  have hclean : ((clean .default bridgeTime).exec (Operation.runAll resolvedBuild .empty)).2 =
      ((clean .default bridgeTime).exec (Operation.runAll resolvedBuild .empty)).2 := rfl
  obtain ⟨hsame, -, hkept, hpass⟩ :=
    attached_after_clean hr.sound.wellFormed.isKeyed hle hclean
  have hafter := hkept hbefore
  have hall : ((clean .default bridgeTime).exec
      (Operation.runAll resolvedBuild .empty)).2.AttachesRecent .default bridgeTime fun _ => True := by
    intro i hi b hb
    obtain ⟨id, d, hd, ha, -⟩ := hafter i hi b hb
    exact ⟨id, d, hd, ha, trivial⟩
  obtain ⟨r, s'', hexec, hcreated, -, hids, -⟩ := hpass hall _ hwindow
  exact ⟨_, _, hr, rfl, hsame.trans hrecent, hall, r, s'', hexec, hcreated, hids⟩

/-- Long after the resolution the defect goes with the late issue, and the next pass starts a defect
for it. -/
theorem attached_after_clean_absorbed :
    ∃ s s', s = Operation.runAll lateAbsorption .empty ∧ Reachable s ∧
      ((clean .default lateTime).exec s).2 = s' ∧
      ClusteringConfig.default.lookbackDays ≤ CleanerConfig.default.safeDays ∧
      s.AttachesRecent .default lateTime (fun _ => True) ∧
      ¬ s'.AttachesRecent .default lateTime (fun _ => True) ∧
      ((cluster .default lateTime).exec s').1.toOption.map (·.created) = some 1 ∧
      ((cluster .default lateTime).exec s').2.defects.openDefects.map (·.id) = [2] := by
  have hr := Reachable.empty.runAll lateAbsorption
  have hrecent : recent .default lateTime (Operation.runAll lateAbsorption .empty) =
      [lateIssue] := by decide +kernel
  have hfirst : ((Operation.runAll lateAbsorption .empty).defects.find? 1).any (fun d =>
      d.server = "apache" && (d.members.find? 1).any fun m => m.hasIssue .newFailure "t2") = true := by
    decide +kernel
  have hgone : ((clean .default lateTime).exec
      (Operation.runAll lateAbsorption .empty)).2.defects.all = [] := by decide +kernel
  have hleft : recent .default lateTime ((clean .default lateTime).exec
      (Operation.runAll lateAbsorption .empty)).2 = [lateIssue] := by decide +kernel
  obtain ⟨d, hd, hd'⟩ := (Option.any_eq_true _ _).1 hfirst
  obtain ⟨hserver, hissue⟩ := Bool.and_eq_true_iff.1 hd'
  obtain ⟨m, hm, hissue⟩ := (Option.any_eq_true _ _).1 hissue
  refine ⟨_, _, rfl, hr, rfl, by decide, ?_, fun hafter => ?_, by decide +kernel, by decide +kernel⟩
  · exact attachesRecent_of_singleton (b := bridgeBuild 1 [firstChange]) hrecent (by decide +kernel)
      hd ⟨of_decide_eq_true hserver, m, hm, hissue⟩ trivial
  · obtain ⟨id, d, hd, -⟩ := hafter lateIssue (by rw [hleft]; exact List.mem_singleton_self _)
      (bridgeBuild 1 [firstChange]) (by decide +kernel)
    have hmem := mem_all_iff.2 ⟨id, hd⟩
    rw [hgone] at hmem
    cases hmem

end Cleaning

end Triage
