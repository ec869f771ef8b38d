import Triage.Proofs.Cleaning.Effect
import Triage.Proofs.Clustering.Ownership

/-!
# Defect records only grow

`Defect.Evolves` is the order in which a record moves: it keeps its members with what was known of
them, and whatever was set stays as it is.  `Clustering.Becomes` lists all that placing an issue can
make of a stored defect, and each of these goes forward in that order, as do the other operations
(`Reachable.defects_evolve`).  A person's name stands on no open defect (`DefectStore.Unsigned`), so
resolving overwrites none.
-/

namespace Triage

/-- The same build with further issues at the end of its list. -/
structure DefectBuild.Extends (m m' : DefectBuild) : Prop where
  build : m'.build = m.build
  branch : m'.branch = m.branch
  startAt : m'.startAt = m.startAt
  fingerprint : m'.fingerprint = m.fingerprint
  issues : m.issues <+: m'.issues

namespace DefectBuild

theorem Extends.refl (m : DefectBuild) : Extends m m := ⟨rfl, rfl, rfl, rfl, List.prefix_rfl⟩

theorem Extends.trans {m m' m'' : DefectBuild} (h : m.Extends m') (h' : m'.Extends m'') :
    m.Extends m'' :=
  ⟨h'.build.trans h.build, h'.branch.trans h.branch, h'.startAt.trans h.startAt,
    h'.fingerprint.trans h.fingerprint, h.issues.trans h'.issues⟩

theorem extends_withIssue (issue : DefectIssue) (m : DefectBuild) :
    Extends m (Defect.withIssue issue m) := by
  unfold Defect.withIssue
  split
  · exact .refl m
  · exact ⟨rfl, rfl, rfl, rfl, List.prefix_append _ _⟩

theorem Extends.hasIssue {m m' : DefectBuild} (h : m.Extends m') {t : IssueType} {n : String}
    (hi : m.hasIssue t n = true) : m'.hasIssue t n = true := by
  unfold DefectBuild.hasIssue at *
  obtain ⟨i, hmem, hsame⟩ := List.any_eq_true.1 hi
  exact List.any_eq_true.2 ⟨i, h.issues.subset hmem, hsame⟩

end DefectBuild

/-- Every member of the first defect is one of the second, which may know more issues of it. -/
def Defect.Within (d d' : Defect) : Prop :=
  ∀ ⦃k m⦄, d.members.find? k = some m → ∃ m', d'.members.find? k = some m' ∧ m.Extends m'

/-- What a record may become: its members stay and grow, and what has been set stays. -/
structure Defect.Evolves (d d' : Defect) : Prop where
  id : d'.id = d.id
  server : d'.server = d.server
  createdAt : d'.createdAt = d.createdAt
  members : d.Within d'
  branch {branch : String} : d.trackedBranch = some branch → d'.trackedBranch = some branch
  blame : d.blame ≠ [] → d'.blame = d.blame
  resolvedAt {t : Timestamp} : d.resolvedAt = some t → d'.resolvedAt = some t
  resolvedBy {user : String} : d.resolvedBy = some user → d'.resolvedBy = some user
  supersededBy {target : Nat} : d.supersededBy = some target → d'.supersededBy = some target

namespace Defect

theorem Within.of_members {d d' : Defect} (h : d'.members = d.members) : Within d d' :=
  fun _ m hm => ⟨m, h ▸ hm, .refl m⟩

theorem Within.refl (d : Defect) : Within d d := .of_members rfl

theorem Within.trans {d d' d'' : Defect} (h : Within d d') (h' : Within d' d'') :
    Within d d'' := by
  intro k m hm
  obtain ⟨m', hm', he⟩ := h hm
  obtain ⟨m'', hm'', he'⟩ := h' hm'
  exact ⟨m'', hm'', he.trans he'⟩

theorem Within.hasBuild {d d' : Defect} (h : Within d d') {k : Nat} (hk : d.hasBuild k = true) :
    d'.hasBuild k = true := by
  obtain ⟨m, hm⟩ := find?_of_hasBuild hk
  obtain ⟨m', hm', -⟩ := h hm
  exact hasBuild_of_find? hm'

theorem Evolves.refl (d : Defect) : Evolves d d :=
  ⟨rfl, rfl, rfl, .refl d, fun h => h, fun _ => rfl, fun h => h, fun h => h, fun h => h⟩

theorem Evolves.trans {d d' d'' : Defect} (h : Evolves d d') (h' : Evolves d' d'') :
    Evolves d d'' where
  id := h'.id.trans h.id
  server := h'.server.trans h.server
  createdAt := h'.createdAt.trans h.createdAt
  members := h.members.trans h'.members
  branch hb := h'.branch (h.branch hb)
  blame hb := by rw [h'.blame (by rwa [h.blame hb]), h.blame hb]
  resolvedAt ht := h'.resolvedAt (h.resolvedAt ht)
  resolvedBy hu := h'.resolvedBy (h.resolvedBy hu)
  supersededBy ht := h'.supersededBy (h.supersededBy ht)

theorem Evolves.closed {d d' : Defect} (h : Evolves d d') (hc : d.isOpen = false) :
    d'.isOpen = false := by
  unfold isOpen at *
  obtain ⟨t, ht⟩ := Option.isSome_iff_exists.1 (by simpa using hc)
  rw [h.resolvedAt ht]
  rfl

/-- A defect with the same standing evolves if its members, branch and blame list do. -/
theorem SameStanding.evolves {d d' : Defect} (h : SameStanding d d') (hm : d.Within d')
    (hbranch : ∀ {branch}, d.trackedBranch = some branch → d'.trackedBranch = some branch)
    (hblame : d.blame ≠ [] → d'.blame = d.blame) : Evolves d d' :=
  ⟨h.id, h.server, h.createdAt, hm, hbranch, hblame, fun ht => h.resolvedAt.trans ht,
    fun hu => h.resolvedBy.trans hu, fun ht => h.supersededBy.trans ht⟩

end Defect

/-! ### Changes of one defect -/

namespace Clustering

open DefectStore Defect

variable {now : Timestamp} {i : Issue} {b : BuildSnapshot} {d : Defect}

theorem evolves_attached (i : Issue) (b : BuildSnapshot) (d : Defect) :
    Evolves d (attached i b d) := by
  refine (attached_sameStanding i b d).evolves (fun k m hm => ?_) (fun hb => ?_) fun hb => ?_
  · rw [find?_attached, hm]
    split
    · exact ⟨_, rfl, DefectBuild.extends_withIssue _ m⟩
    · exact ⟨m, rfl, .refl m⟩
  · rw [trackedBranch_attached, hb]
    rfl
  · rw [blame_attached, if_neg hb]

theorem evolves_absorbed {o : Defect} (ho : o.MembersKeyed) (d : Defect) :
    Evolves d (absorbed o d) := by
  refine (absorbed_sameStanding o d).evolves (fun k m hm => ?_) (fun hb => ?_) fun hb => ?_
  · refine ⟨m, ?_, .refl m⟩
    rw [find?_absorbed ho, hm]
    rfl
  · rw [trackedBranch_absorbed, hb]
  · rw [blame_absorbed, if_neg hb]

theorem evolves_absorbedAll {os : List Defect} (hk : ∀ o ∈ os, o.MembersKeyed) (d : Defect) :
    Evolves d (absorbedAll os d) := by
  induction os generalizing d with
  | nil => exact .refl d
  | cons o os ih =>
    exact (evolves_absorbed (hk o (by simp)) d).trans (ih (fun o ho => hk o (by simp [ho])) _)

theorem evolves_superseded (target : Nat) (ho : d.isOpen = true) (hs : d.supersededBy = none) :
    Evolves d (superseded now target d) := by
  rw [superseded_of_isOpen ho]
  refine ⟨rfl, rfl, rfl, .of_members rfl, fun hb => hb, fun _ => rfl, fun ht => ?_,
    fun hu => hu, fun ht => ?_⟩
  · rw [isOpen, ht] at ho
    cases ho
  · rw [hs] at ht
    cases ht

theorem evolves_resolved (user : String) (hs : d.isOpen = true → d.resolvedBy = none) :
    Evolves d (resolved now user d) := by
  unfold resolved
  cases ho : d.isOpen with
  | false =>
    rw [resolution_of_not_isOpen ho]
    exact .refl d
  | true =>
    rw [resolution_of_isOpen ho]
    refine ⟨rfl, rfl, rfl, .of_members rfl, fun hb => hb, fun _ => rfl,
      fun ht => ?_, fun hu => ?_, fun ht => ht⟩
    · rw [isOpen, ht] at ho
      cases ho
    · rw [hs ho] at hu
      cases hu

variable {s : DefectStore}

theorem Becomes.evolves (hs : s.WellFormed) {d' : Defect} (hd : s.find? d.id = some d)
    (h : Becomes now i b s d d') : Evolves d d' := by
  cases h with
  | same => exact .refl d
  | held => exact evolves_attached i b d
  | target => exact (evolves_absorbedAll (membersKeyed_takenOver hs) d).trans (evolves_attached i b _)
  | takenOver _ _ hopen => exact evolves_superseded _ hopen (hs.notSuperseded_of_isOpen hd hopen)

end Clustering

/-! ### Stores -/

namespace DefectStore

/-- Every stored defect is still there and has evolved. -/
def Grows (s t : DefectStore) : Prop :=
  ∀ ⦃id d⦄, s.find? id = some d → ∃ d', t.find? id = some d' ∧ d.Evolves d'

theorem Grows.refl (s : DefectStore) : s.Grows s := fun _ d hd => ⟨d, hd, .refl d⟩

theorem Grows.trans {s t u : DefectStore} (h : s.Grows t) (h' : t.Grows u) : s.Grows u := by
  intro id d hd
  obtain ⟨d', hd', he⟩ := h hd
  obtain ⟨d'', hd'', he'⟩ := h' hd'
  exact ⟨d'', hd'', he.trans he'⟩

theorem grows_alter {s : DefectStore} {id : Nat} {f : Defect → Defect}
    (hf : ∀ d, s.find? id = some d → d.Evolves (f d)) : s.Grows (s.alter id f) := by
  intro k d hd
  rw [find?_alter, hd]
  split
  · rename_i hk
    exact ⟨f d, rfl, hf d (hk ▸ hd)⟩
  · exact ⟨d, rfl, .refl d⟩

/-- No open defect bears the name of a person who resolved it. -/
def Unsigned (s : DefectStore) : Prop :=
  ∀ ⦃id d⦄, s.find? id = some d → d.isOpen = true → d.resolvedBy = none

theorem Unsigned.of_origin {s t : DefectStore} (h : s.Unsigned)
    (ht : ∀ {id d'}, t.find? id = some d' → d'.isOpen = true → d'.resolvedBy = none ∨
      ∃ d, s.find? id = some d ∧ d.isOpen = true ∧ d'.resolvedBy = d.resolvedBy) : t.Unsigned := by
  intro id d' hd' ho
  rcases ht hd' ho with hnone | ⟨d, hd, hopen, hsame⟩
  · exact hnone
  · rw [hsame]
    exact h hd hopen

end DefectStore

namespace Clustering

open DefectStore Defect

variable {s : DefectStore}

theorem grows_placed (hs : s.WellFormed) (now : Timestamp) (i : Issue) (b : BuildSnapshot) :
    s.Grows (placed now i b s) := by
  intro id d hd
  obtain ⟨d', hd', hb⟩ := exists_becomes hs now i b hd
  exact ⟨d', hd', hb.evolves hs (hs.keyed hd ▸ hd)⟩

theorem grows_outcome {s : Stores} (hs : s.defects.WellFormed) (cfg : ClusteringConfig)
    (now : Timestamp) : s.defects.Grows (outcome cfg now s).2 :=
  outcome_induction_of_wellFormed hs (.refl _) fun i b _ ht h => h.trans (grows_placed ht now i b)

theorem Becomes.resolvedBy {now : Timestamp} {i : Issue} {b : BuildSnapshot} {d d' : Defect}
    (h : Becomes now i b s d d') (ho : d'.isOpen = true) :
    d.isOpen = true ∧ d'.resolvedBy = d.resolvedBy := by
  cases h with
  | same => exact ⟨ho, rfl⟩
  | held =>
    have hstand := attached_sameStanding i b d
    exact ⟨hstand.isOpen ▸ ho, hstand.resolvedBy⟩
  | @target others _ hopen =>
    exact ⟨hopen, (joined_sameStanding i b (Clustering.takenOver s others) d).resolvedBy⟩
  | takenOver _ _ hopen =>
    rw [superseded_of_isOpen hopen] at ho
    cases ho

theorem unsigned_placed (hs : s.WellFormed) (hu : s.Unsigned) (now : Timestamp) (i : Issue)
    (b : BuildSnapshot) : (placed now i b s).Unsigned := by
  refine hu.of_origin fun hd' ho => ?_
  rcases becomes_of_find?_placed hs hd' with ⟨d, hd, hb⟩ | ⟨-, -, rfl⟩
  · exact .inr ⟨d, hd, hb.resolvedBy ho⟩
  · exact .inl (firstDefect_sameStanding now i b s).resolvedBy

theorem unsigned_outcome {s : Stores} (hs : s.defects.WellFormed) (hu : s.defects.Unsigned)
    (cfg : ClusteringConfig) (now : Timestamp) : (outcome cfg now s).2.Unsigned :=
  outcome_induction_of_wellFormed hs hu fun i b _ ht h => unsigned_placed ht h now i b

theorem unsigned_resolved (hu : s.Unsigned) (now : Timestamp) (id : Nat) (user : String) :
    (s.alter id (resolved now user)).Unsigned := by
  refine hu.of_origin fun {k d'} hd' ho => ?_
  rw [find?_alter] at hd'
  split at hd'
  · obtain ⟨d, hd, rfl⟩ := Option.map_eq_some_iff.1 hd'
    unfold resolved at ho ⊢
    cases hopen : d.isOpen with
    | true =>
      rw [resolution_of_isOpen hopen] at ho
      cases ho
    | false =>
      rw [resolution_of_not_isOpen hopen, hopen] at ho
      cases ho
  · exact .inr ⟨d', hd', ho, rfl⟩

end Clustering

namespace Cleaning

open DefectStore Defect

variable {s : Stores} {d : Defect} {id : Nat}

theorem evolves_marked (builds : OrderedMap BuildRef BuildSnapshot) (d : Defect) :
    Evolves d (marked builds d) :=
  ⟨rfl, rfl, rfl, .of_members rfl, fun h => h, fun _ => rfl, fun h => h, fun h => h,
    fun h => h⟩

theorem unsigned_remarked (hs : s.defects.Keyed) (hu : s.defects.Unsigned) :
    (remarked s).Unsigned := by
  refine hu.of_origin fun hd' ho => ?_
  rw [find?_remarked hs] at hd'
  obtain ⟨d, hd, rfl⟩ := Option.map_eq_some_iff.1 hd'
  exact .inr ⟨d, hd, ho, rfl⟩

theorem unsigned_clean (hs : s.defects.WellFormed) (hu : s.defects.Unsigned) (cfg : CleanerConfig)
    (now : Timestamp) : ((clean cfg now).exec s).2.defects.Unsigned := by
  refine hu.of_origin fun {k d'} hd' ho => ?_
  obtain ⟨d, hd, -⟩ := (trimmed_clean hs cfg now).kept hd'
  rcases find?_clean hs.isKeyed cfg now k with h | h | ⟨h, -⟩
  · rw [hd', hd] at h
    cases h
    exact .inr ⟨_, hd, ho, rfl⟩
  · rw [hd', hd] at h
    cases h
    exact .inr ⟨d, hd, ho, rfl⟩
  · rw [hd'] at h
    cases h

/-- What discarding makes of a stored defect. -/
theorem find?_discardBroken (k : Nat) (user : String) (hd : s.defects.find? id = some d) :
    ((discardBroken k user).exec s).2.defects.find? id = some d ∨
      (((discardBroken k user).exec s).2.defects.find? id = none ∧ k = id ∧
        d.consistency = .broken) := by
  cases hk : s.defects.find? k with
  | none =>
    rw [exec_discardBroken_of_none hk]
    exact .inl hd
  | some e =>
    by_cases hc : e.consistency = .broken
    · rw [exec_discardBroken_of_broken hk hc]
      have hfind := find?_remove s.defects k id
      split at hfind
      · rename_i hid
        rw [hid, hd] at hk
        cases hk
        exact .inr ⟨hfind, hid, hc⟩
      · exact .inl (hfind.trans hd)
    · rw [exec_discardBroken_of_consistent hk hc]
      exact .inl hd

theorem unsigned_discardBroken (hu : s.defects.Unsigned) (k : Nat) (user : String) :
    ((discardBroken k user).exec s).2.defects.Unsigned := by
  refine hu.of_origin fun {id d'} hd' ho => ?_
  obtain ⟨d, hd, -⟩ := (trimmed_discardBroken s k user).kept hd'
  rcases find?_discardBroken k user hd with h | ⟨h, -⟩
  · rw [hd'] at h
    cases h
    exact .inr ⟨d', hd, ho, rfl⟩
  · rw [hd'] at h
    cases h

end Cleaning

/-! ### Ids -/

namespace DefectStore

/-- The id has been given out, and its defect is gone. -/
structure Spent (s : DefectStore) (id : Nat) : Prop where
  le : id ≤ s.lastId
  gone : s.find? id = none

theorem Trimmed.spent {s t : DefectStore} {id : Nat} (h : s.Trimmed t) (hid : s.Spent id) :
    t.Spent id := by
  refine ⟨h.lastId.symm ▸ hid.le, ?_⟩
  by_contra hne
  obtain ⟨d', hd'⟩ := Option.ne_none_iff_exists'.1 hne
  obtain ⟨d, hd, -⟩ := h.kept hd'
  rw [hid.gone] at hd
  cases hd

end DefectStore

namespace Clustering

open DefectStore

variable {s : DefectStore} {id : Nat}

theorem lastId_le_placed (now : Timestamp) (i : Issue) (b : BuildSnapshot) (s : DefectStore) :
    s.lastId ≤ (placed now i b s).lastId := by
  rw [lastId_placed]
  cases placement b s with
  | held d => exact le_rfl
  | joined target others => exact le_rfl
  | started => exact Nat.le_succ _

theorem lastId_le_outcome (cfg : ClusteringConfig) (now : Timestamp) (s : Stores) :
    s.defects.lastId ≤ (outcome cfg now s).2.lastId :=
  outcome_induction (P := fun t => s.defects.lastId ≤ t.lastId) le_rfl
    fun i b t _ h => h.trans (lastId_le_placed now i b t)

/-- No new defect gets an id that had been given out. -/
theorem spent_placed (hs : s.WellFormed) (hid : s.Spent id) (now : Timestamp) (i : Issue)
    (b : BuildSnapshot) : (placed now i b s).Spent id := by
  refine ⟨hid.le.trans (lastId_le_placed now i b s), ?_⟩
  by_contra hne
  obtain ⟨d', hd'⟩ := Option.ne_none_iff_exists'.1 hne
  rcases becomes_of_find?_placed hs hd' with ⟨d, hd, -⟩ | ⟨-, hnext, -⟩
  · rw [hid.gone] at hd
    cases hd
  · exact absurd hid.le (by omega)

theorem spent_outcome {s : Stores} (hs : s.defects.WellFormed) (hid : s.defects.Spent id)
    (cfg : ClusteringConfig) (now : Timestamp) : (outcome cfg now s).2.Spent id :=
  outcome_induction_of_wellFormed hs hid fun i b _ ht h => spent_placed ht h now i b

end Clustering

/-! ### Operations -/

namespace Operation

open Clustering Cleaning DefectStore

variable {s : Stores}

theorem unsigned_run (hs : s.defects.WellFormed) (hu : s.defects.Unsigned) (o : Operation) :
    (o.run s).defects.Unsigned := by
  cases o with
  | saveIssue i => exact hu
  | putBuild b => exact hu
  | removeBuild r => exact hu
  | cluster cfg now =>
    rw [defects_cluster hs]
    exact unsigned_outcome hs hu cfg now
  | resolve now id user =>
    rw [run, Pass.after_eq, exec_resolve_snd]
    exact unsigned_resolved hu now id user
  | checkConsistency =>
    rw [run, Pass.after_eq, exec_checkConsistency hs.isKeyed]
    exact unsigned_remarked hs.isKeyed hu
  | clean cfg now =>
    rw [run, Pass.after_eq]
    exact unsigned_clean hs hu cfg now
  | discardBroken id user =>
    rw [run, Pass.after_eq]
    exact unsigned_discardBroken hu id user

/-- The operations after which a defect may be gone. -/
def removes : Operation → Bool
  | clean _ _ | discardBroken _ _ => true
  | _ => false

theorem grows_run (hs : s.defects.WellFormed) (hu : s.defects.Unsigned) {o : Operation}
    (ho : o.removes = false) : s.defects.Grows (o.run s).defects := by
  cases o with
  | saveIssue i => exact .refl _
  | putBuild b => exact .refl _
  | removeBuild r => exact .refl _
  | cluster cfg now =>
    rw [defects_cluster hs]
    exact grows_outcome hs cfg now
  | resolve now id user =>
    rw [run, Pass.after_eq, exec_resolve_snd]
    exact grows_alter fun d hd => evolves_resolved user (hu hd)
  | checkConsistency =>
    rw [run, Pass.after_eq, exec_checkConsistency hs.isKeyed]
    intro id d hd
    exact ⟨_, by rw [find?_remarked hs.isKeyed, hd]; rfl, evolves_marked s.builds d⟩
  | clean cfg now => cases ho
  | discardBroken id user => cases ho

/-- What an operation makes of a stored defect. -/
theorem fate_run (hs : s.defects.WellFormed) (hu : s.defects.Unsigned) (o : Operation) {id : Nat}
    {d : Defect} (hd : s.defects.find? id = some d) :
    (∃ d', (o.run s).defects.find? id = some d' ∧ d.Evolves d') ∨
      ((o.run s).defects.find? id = none ∧
        ((∃ cfg now, o = .clean cfg now ∧ d.isOpen = false ∧ lacksMember s.builds d = false) ∨
          ∃ user, o = .discardBroken id user ∧ d.consistency = .broken)) := by
  cases hr : o.removes with
  | false => exact .inl (o.grows_run hs hu hr hd)
  | true =>
    cases o with
    | clean cfg now =>
      rcases find?_clean hs.isKeyed cfg now id with he | he | ⟨he, d', hd', hexpired⟩
      · exact .inl ⟨d, he.trans hd, .refl d⟩
      · rw [hd] at he
        exact .inl ⟨_, he, evolves_marked s.builds d⟩
      · cases hd.symm.trans hd'
        obtain ⟨hclosed, hlacks⟩ := hexpired.notOpen
        exact .inr ⟨he, .inl ⟨cfg, now, rfl, hclosed, hlacks⟩⟩
    | discardBroken k user =>
      rcases find?_discardBroken k user hd with he | ⟨he, rfl, hbroken⟩
      · exact .inl ⟨d, he, .refl d⟩
      · exact .inr ⟨he, .inr ⟨user, rfl, hbroken⟩⟩
    | saveIssue => cases hr
    | putBuild => cases hr
    | removeBuild => cases hr
    | cluster => cases hr
    | resolve => cases hr
    | checkConsistency => cases hr

theorem lastId_le_run (hs : s.defects.WellFormed) (o : Operation) :
    s.defects.lastId ≤ (o.run s).defects.lastId := by
  rcases o.trimmed_run hs with ⟨cfg, now, rfl⟩ | htrimmed
  · rw [defects_cluster hs]
    exact lastId_le_outcome cfg now s
  · exact htrimmed.lastId.ge

theorem spent_run (hs : s.defects.WellFormed) {id : Nat} (hid : s.defects.Spent id)
    (o : Operation) : (o.run s).defects.Spent id := by
  rcases o.trimmed_run hs with ⟨cfg, now, rfl⟩ | htrimmed
  · rw [defects_cluster hs]
    exact spent_outcome hs hid cfg now
  · exact htrimmed.spent hid

theorem spent_runAll {s : Stores} (hr : Reachable s) {id : Nat} (hid : s.defects.Spent id)
    (os : List Operation) : (runAll os s).defects.Spent id := by
  induction os generalizing s with
  | nil => exact hid
  | cons o os ih => exact ih (.run o hr) (o.spent_run hr.sound.wellFormed hid)

end Operation

theorem Reachable.unsigned {s : Stores} (h : Reachable s) : s.defects.Unsigned := by
  induction h with
  | empty => exact fun _ _ hd => by cases hd
  | run o hr ih => exact o.unsigned_run hr.sound.wellFormed ih

/-- Whatever is done to the stores, a defect that stays evolves, and a closed one stays closed.  A
defect is gone only after a removal run, if it was closed and its builds were known, or once it has
been discarded as broken. -/
theorem Reachable.defects_evolve {s : Stores} (h : Reachable s) (o : Operation) {id : Nat}
    {d : Defect} (hd : s.defects.find? id = some d) :
    (∀ d', (o.run s).defects.find? id = some d' → d.Evolves d' ∧
      (d.isOpen = false ∨ d.supersededBy.isSome → d'.isOpen = false)) ∧
    ((o.run s).defects.find? id = none →
      (∃ cfg now, o = .clean cfg now ∧ d.isOpen = false ∧
        Cleaning.lacksMember s.builds d = false) ∨
      ∃ user, o = .discardBroken id user ∧ d.consistency = .broken) := by
  have hw := h.sound.wellFormed
  have hclosed : d.isOpen = false ∨ d.supersededBy.isSome → d.isOpen = false :=
    fun hc => hc.elim (fun ho => ho) (hw.closed hd)
  rcases o.fate_run hw h.unsigned hd with ⟨e, he, hevolves⟩ | ⟨he, hwhy⟩
  · refine ⟨fun d' hd' => ?_, fun hnone => ?_⟩
    · cases he.symm.trans hd'
      exact ⟨hevolves, fun hc => hevolves.closed (hclosed hc)⟩
    · cases he.symm.trans hnone
  · refine ⟨fun d' hd' => ?_, fun _ => hwhy⟩
    cases he.symm.trans hd'

/-- A defect that is found under the same id after any number of operations is the same one, and has
evolved: no id is given out twice. -/
theorem Reachable.evolves_runAll {s : Stores} (h : Reachable s) {id : Nat} {d d' : Defect}
    (hd : s.defects.find? id = some d) (os : List Operation)
    (hd' : (Operation.runAll os s).defects.find? id = some d') : d.Evolves d' := by
  induction os generalizing s d with
  | nil =>
    cases hd.symm.trans hd'
    exact .refl _
  | cons o os ih =>
    have hw := h.sound.wellFormed
    rcases o.fate_run hw h.unsigned hd with ⟨e, he, hevolves⟩ | ⟨hgone, -⟩
    · exact hevolves.trans (ih (.run o h) he hd')
    · have hspent : (o.run s).defects.Spent id := ⟨(hw.bounded hd).trans (o.lastId_le_run hw), hgone⟩
      cases (Operation.spent_runAll (.run o h) hspent os).gone.symm.trans hd'

/-- The bridge becomes known once each of the two builds has a defect. -/
def bridgingLate : List Operation :=
  bridging.take 5 ++ .cluster .default bridgeTime :: bridging.drop 5

/-- The pass that then bridges the two builds takes the second defect over. -/
theorem Reachable.defects_evolve_bridging :
    ∃ s, Reachable s ∧ ∃ d d', s.defects.find? 2 = some d ∧ d.isOpen = true ∧
      ((Operation.cluster .default bridgeTime).run s).defects.find? 2 = some d' ∧
      d'.supersededBy = some 1 ∧ d.Evolves d' := by
  have hr := Reachable.empty.runAll bridgingLate
  have hbefore : ((Operation.runAll bridgingLate .empty).defects.find? 2).any
      (fun d => d.isOpen) = true := by decide +kernel
  have hafter : (((Operation.cluster .default bridgeTime).run
      (Operation.runAll bridgingLate .empty)).defects.find? 2).any
      (fun d => d.supersededBy = some 1) = true := by decide +kernel
  obtain ⟨d, hd, ho⟩ := (Option.any_eq_true _ _).1 hbefore
  obtain ⟨d', hd', hsup⟩ := (Option.any_eq_true _ _).1 hafter
  exact ⟨_, hr, d, d', hd, ho, hd', by simpa using hsup,
    ((hr.defects_evolve (.cluster .default bridgeTime) hd).1 d' hd').1⟩

end Triage
