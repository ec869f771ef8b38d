import Triage.Proofs.Clustering.Effect

/-!
# Where members come from

An `Entry` is a member of a stored defect that no other one took over.  Placing an issue moves the
entries of each defect into the defect that `Placement.into` names and may add one for the build of
the issue, in the defect `Placement.home`: every entry afterwards is one of these (`origin_placed`),
and no entry is lost as long as no build has two holders (`fate_placed`).
-/

namespace Triage

/-- The same build with the same commits, and maybe with more issues. -/
structure DefectBuild.Kept (m m' : DefectBuild) : Prop where
  build : m'.build = m.build
  fingerprint : m'.fingerprint = m.fingerprint
  issues : ∀ t n, m.hasIssue t n = true → m'.hasIssue t n = true

theorem DefectBuild.Kept.refl (m : DefectBuild) : Kept m m := ⟨rfl, rfl, fun _ _ h => h⟩

theorem DefectBuild.Kept.trans {m m' m'' : DefectBuild} (h : m.Kept m') (h' : m'.Kept m'') :
    m.Kept m'' :=
  ⟨h'.build.trans h.build, h'.fingerprint.trans h.fingerprint,
    fun t n hi => h'.issues t n (h.issues t n hi)⟩

theorem DefectBuild.kept_withIssue (issue : DefectIssue) (m : DefectBuild) :
    Kept m (Defect.withIssue issue m) :=
  ⟨Defect.withIssue_build issue m, Defect.withIssue_fingerprint issue m,
    fun _ _ h => Defect.hasIssue_withIssue h⟩

/-- A member of a stored defect that no other one took over. -/
structure DefectStore.Entry (s : DefectStore) (d : Defect) (m : DefectBuild) : Prop where
  stored : s.find? d.id = some d
  live : d.supersededBy = none
  member : d.members.find? m.build = some m

theorem DefectStore.Entry.hasBuild {s : DefectStore} {d : Defect} {m : DefectBuild}
    (h : s.Entry d m) : d.hasBuild m.build = true :=
  Defect.hasBuild_of_find? h.member

theorem DefectStore.WellFormed.entry {s : DefectStore} (hs : s.WellFormed) {id k : Nat} {d : Defect}
    {m : DefectBuild} (hd : s.find? id = some d) (hl : d.supersededBy = none)
    (hm : d.members.find? k = some m) : s.Entry d m := by
  obtain rfl := hs.keyed hd
  obtain rfl := hs.members hd _ _ hm
  exact ⟨hd, hl, hm⟩

theorem DefectStore.Entry.shares {s : DefectStore} {d : Defect} {m : DefectBuild} (h : s.Entry d m)
    {fingerprint : OrderedSet CommitHash} (hm : m.fingerprint.meets fingerprint = true) :
    d.sharesFingerprint fingerprint = true :=
  Defect.sharesFingerprint_iff.2 ⟨_, m, h.member, hm⟩

/-- No build has two holders, and no commit is in two open defects, among the defects of one server
that no other one took over. -/
structure DefectStore.Exclusive (s : DefectStore) : Prop where
  holder {d d' : Defect} {m m' : DefectBuild} : s.Entry d m → s.Entry d' m' →
    d.server = d'.server → m.build = m'.build → d.id = d'.id
  commits {d d' : Defect} {m m' : DefectBuild} : s.Entry d m → s.Entry d' m' →
    d.isOpen = true → d'.isOpen = true → d.server = d'.server →
    m.fingerprint.meets m'.fingerprint = true → d.id = d'.id

/-- Of the defects of a server that no other one took over, at most one has a build. -/
theorem DefectStore.Exclusive.eq_of_hasBuild {s : DefectStore} (hx : s.Exclusive)
    (hs : s.WellFormed) {k : Nat} {d e : Defect} (hd : s.find? d.id = some d)
    (hdlive : d.supersededBy = none) (hdk : d.hasBuild k = true) (he : s.find? e.id = some e)
    (helive : e.supersededBy = none) (hek : e.hasBuild k = true) (hserver : d.server = e.server) :
    d = e := by
  obtain ⟨m, hm⟩ := Defect.find?_of_hasBuild hdk
  obtain ⟨n, hn⟩ := Defect.find?_of_hasBuild hek
  have hid := hx.holder (hs.entry hd hdlive hm) (hs.entry he helive hn) hserver
    ((hs.members hd _ _ hm).trans (hs.members he _ _ hn).symm)
  rw [hid, he] at hd
  exact (Option.some.inj hd).symm

/-- The member was a member before, of a defect whose members have gone where `into` says. -/
def DefectStore.Inherited (s : DefectStore) (into : Nat → Nat) (d' : Defect) (m' : DefectBuild) :
    Prop :=
  ∃ d m, s.Entry d m ∧ into d.id = d'.id ∧ d'.server = d.server ∧
    (d'.isOpen = true → d.isOpen = true) ∧ m.Kept m'

namespace Clustering

open DefectStore DefectBuild

variable {i : Issue} {b : BuildSnapshot} {d : Defect} {k : Nat}

theorem kept_attached {m : DefectBuild} (h : d.members.find? k = some m) (i : Issue)
    (b : BuildSnapshot) : ∃ m', (attached i b d).members.find? k = some m' ∧ m.Kept m' := by
  rw [find?_attached]
  split
  · exact ⟨_, rfl, by rw [h]; exact kept_withIssue _ m⟩
  · exact ⟨m, h, .refl m⟩

/-- A member after attaching was one before or is the build that was attached. -/
theorem mem_attached {m' : DefectBuild} (h : (attached i b d).members.find? k = some m') :
    (∃ m, d.members.find? k = some m ∧ m.Kept m') ∨
      (k = b.build ∧ m' = Defect.withIssue (defectIssue i) (.ofSnapshot b)) := by
  rw [find?_attached] at h
  split at h
  · rename_i hk
    cases h
    cases hm : d.members.find? k with
    | none => exact .inr ⟨hk, rfl⟩
    | some m => exact .inl ⟨m, rfl, kept_withIssue _ m⟩
  · exact .inl ⟨m', h, .refl m'⟩

/-! ### Where members go -/

/-- The defect that takes the members of the one with the given id. -/
def Placement.into : Placement → Nat → Nat
  | joined target others, id => if id ∈ others then target else id
  | _, id => id

theorem Placement.into_joined (target : Nat) (others : List Nat) (id : Nat) :
    (joined target others).into id = if id ∈ others then target else id := rfl

/-- The defect that the build is placed in. -/
def Placement.home (s : DefectStore) : Placement → Nat
  | held d => d.id
  | joined target _ => target
  | started => s.lastId + 1

/-! ### The origin of an entry -/

section Origin

variable {now : Timestamp} {s : DefectStore} {d' : Defect} {m' : DefectBuild}

/-- The entry of a build that no defect held before it was placed. -/
structure Fresh (b : BuildSnapshot) (home : Nat) (d' : Defect) (m' : DefectBuild) : Prop where
  home : d'.id = home
  server : d'.server = b.server
  build : m'.build = b.build
  fingerprint : m'.fingerprint = b.fingerprint

theorem fresh_withIssue {home : Nat} (hid : d'.id = home) (hserver : d'.server = b.server)
    (hm : m' = Defect.withIssue (defectIssue i) (.ofSnapshot b)) : Fresh b home d' m' := by
  subst hm
  exact ⟨hid, hserver, Defect.withIssue_build _ _, Defect.withIssue_fingerprint _ _⟩

theorem origin_held (hs : s.WellFormed) (h : PlacementSpec b s (.held d))
    (he : ((Placement.held d).result now i b s).Entry d' m') : s.Inherited id d' m' := by
  obtain ⟨hd', hlive, hm'⟩ := he
  rw [find?_result_held] at hd'
  split at hd'
  · rename_i hid
    obtain ⟨e, hd, rfl⟩ := Option.map_eq_some_iff.1 hd'
    have hstand := attached_sameStanding i b e
    have hmember : ∃ m, e.members.find? m'.build = some m ∧ m.Kept m' := by
      rcases mem_attached hm' with hm | ⟨hb, rfl⟩
      · exact hm
      · -- the holder has the build, so its entry is not replaced
        cases h with
        | held found server build least =>
          rw [← hid, found] at hd
          cases hd
          obtain ⟨m, hm⟩ := Defect.find?_of_hasBuild build
          rw [hb] at hm' ⊢
          rw [find?_attached, if_pos rfl, hm] at hm'
          exact ⟨m, hm, Option.some.inj hm' ▸ kept_withIssue _ m⟩
    obtain ⟨m, hm, hk⟩ := hmember
    refine ⟨e, m, hs.entry hd (hstand.supersededBy ▸ hlive) hm, ?_, hstand.server, ?_, hk⟩
    · exact hstand.id.symm
    · exact fun ho => hstand.isOpen ▸ ho
  · exact ⟨d', m', ⟨hd', hlive, hm'⟩, rfl, rfl, fun ho => ho, .refl m'⟩

theorem origin_started
    (he : ((Placement.started).result now i b s).Entry d' m') :
    s.Inherited id d' m' ∨ Fresh b (s.lastId + 1) d' m' := by
  obtain ⟨hd', hlive, hm'⟩ := he
  rw [find?_result_started] at hd'
  split at hd'
  · rename_i hid
    cases hd'
    have hstand := firstDefect_sameStanding now i b s
    rw [find?_firstDefect] at hm'
    split at hm'
    · exact .inr (fresh_withIssue hstand.id hstand.server (Option.some.inj hm').symm)
    · cases hm'
  · exact .inl ⟨d', m', ⟨hd', hlive, hm'⟩, rfl, rfl, fun ho => ho, .refl m'⟩

theorem origin_joined (hs : s.WellFormed) {target : Nat} {others : List Nat}
    (h : PlacementSpec b s (.joined target others))
    (he : ((Placement.joined target others).result now i b s).Entry d' m') :
    s.Inherited (Placement.joined target others).into d' m' ∨ Fresh b target d' m' := by
  obtain ⟨hd', hlive, hm'⟩ := he
  rw [h.find?_result_joined] at hd'
  split at hd'
  · rename_i hid
    obtain ⟨t, ht, rfl⟩ := Option.map_eq_some_iff.1 hd'
    have hstand := joined_sameStanding i b (takenOver s others) t
    obtain ⟨t', ht', -, hall⟩ := h.find?_target now hs
    rw [hid] at ht
    rw [ht] at ht'
    cases ht'
    have htserver := (hall t (by simp)).2.1
    rcases mem_attached hm' with ⟨m, hm, hk⟩ | ⟨-, rfl⟩
    · -- the member was absorbed, or belongs to the target itself
      obtain ⟨o, ho, hom⟩ := mem_of_find?_absorbedAll (membersKeyed_takenOver hs) hm
      obtain ⟨hstored, hserver, hopen, -, -⟩ := hall o ho
      refine .inl ⟨o, m, hs.entry hstored (hs.notSuperseded_of_isOpen hstored hopen) hom, ?_,
        hstand.server.trans (htserver.trans hserver.symm), fun _ => hopen, hk⟩
      rw [Placement.into_joined]
      rcases List.mem_cons.1 ho with rfl | ho
      · rw [← hstand.id, hid, ite_self]
      · obtain ⟨j, hj, hoj⟩ := mem_takenOver.1 ho
        rw [hs.keyed hoj, if_pos hj]
        exact hid.symm
    · exact .inr (fresh_withIssue hid (hstand.server.trans htserver) rfl)
  · split at hd'
    · -- a defect that was taken over has no entries any more
      rename_i hmem
      obtain ⟨o, ho, rfl⟩ := Option.map_eq_some_iff.1 hd'
      obtain ⟨o', ho', hopen⟩ := h.mergeable.others _ hmem
      rw [ho] at ho'
      cases ho'
      rw [superseded_of_isOpen hopen] at hlive
      cases hlive
    · rename_i hne hmem
      refine .inl ⟨d', m', ⟨hd', hlive, hm'⟩, ?_, rfl, fun ho => ho, .refl m'⟩
      rw [Placement.into_joined, if_neg hmem]

/-- Every entry after a placement was one before, in a defect whose members have gone there, or is
that of the build. -/
theorem origin_placed (hs : s.WellFormed) (he : (placed now i b s).Entry d' m') :
    s.Inherited (placement b s).into d' m' ∨
      ((∀ e, s.find? e.id = some e → e.server = b.server → e.hasBuild b.build = false) ∧
        Fresh b ((placement b s).home s) d' m') := by
  have hspec := placement_spec hs b
  unfold placed at he
  generalize placement b s = p at *
  cases hspec with
  | held found server build least => exact .inl (origin_held hs (.held found server build least) he)
  | joined unheld shares nodup =>
    exact (origin_joined hs (.joined unheld shares nodup) he).imp_right fun h => ⟨unheld, h⟩
  | started unheld alone =>
    exact (origin_started he).imp_right fun h => ⟨unheld, h⟩

/-- The open defects that share a commit with a build that has no holder go where the build goes. -/
theorem into_eq_home (hs : s.WellFormed)
    (hunheld : ∀ e, s.find? e.id = some e → e.server = b.server → e.hasBuild b.build = false)
    (hd : s.find? d.id = some d) (hserver : d.server = b.server) (hopen : d.isOpen = true)
    (hshare : d.sharesFingerprint b.fingerprint = true) :
    (placement b s).into d.id = (placement b s).home s := by
  have hspec := placement_spec hs b
  generalize placement b s = p at *
  cases hspec with
  | held found server build least =>
    rw [hunheld _ found server] at build
    cases build
  | joined unheld shares nodup =>
    rename_i target others
    have hid : d.id ∈ target :: others := (shares d.id).2 ⟨d, hd, hserver, hopen, hshare⟩
    unfold Placement.into Placement.home
    rcases List.mem_cons.1 hid with hid | hid
    · simp only [hid, ite_self]
    · simp only [hid, if_true]
  | started unheld alone =>
    rw [alone d hd hserver hopen] at hshare
    cases hshare

/-- Only open defects that share a commit with a build that has no holder go where it goes. -/
theorem shares_of_into_eq_home (hs : s.WellFormed)
    (hunheld : ∀ e, s.find? e.id = some e → e.server = b.server → e.hasBuild b.build = false)
    (hd : s.find? d.id = some d) (hinto : (placement b s).into d.id = (placement b s).home s) :
    d.server = b.server ∧ d.sharesFingerprint b.fingerprint = true := by
  have hspec := placement_spec hs b
  generalize placement b s = p at *
  cases hspec with
  | held found server build least =>
    rw [hunheld _ found server] at build
    cases build
  | @joined target others unheld shares nodup =>
    have hid : d.id ∈ target :: others := by
      rw [Placement.into_joined] at hinto
      split at hinto
      · exact List.mem_cons_of_mem _ ‹_›
      · exact List.mem_cons.2 (.inl hinto)
    obtain ⟨d', hd', hserver, -, hshare⟩ := (shares d.id).1 hid
    rw [hd] at hd'
    cases hd'
    exact ⟨hserver, hshare⟩
  | started unheld alone =>
    have hbound := hs.bounded hd
    have : d.id = s.lastId + 1 := hinto
    omega

/-- Different defects come together only where a build goes that has no holder. -/
theorem eq_or_home_of_into_eq (hs : s.WellFormed) (b : BuildSnapshot) {j k : Nat}
    (h : (placement b s).into j = (placement b s).into k) :
    j = k ∨ ((placement b s).into j = (placement b s).home s ∧
      ∀ e, s.find? e.id = some e → e.server = b.server → e.hasBuild b.build = false) := by
  have hspec := placement_spec hs b
  generalize placement b s = p at *
  cases hspec with
  | held => exact .inl h
  | started => exact .inl h
  | @joined target others unheld shares nodup =>
    rw [Placement.into_joined, Placement.into_joined] at *
    by_cases hj : j ∈ others
    · exact .inr ⟨if_pos hj, unheld⟩
    · by_cases hk : k ∈ others
      · exact .inr ⟨h.trans (if_pos hk), unheld⟩
      · rw [if_neg hj, if_neg hk] at h
        exact .inl h

end Origin

/-! ### What becomes of an entry -/

section Fate

variable {s : DefectStore} {m : DefectBuild}

/-- What a defect becomes when it takes part in a placement: it keeps its standing and its members,
and a blame list or a branch if it has one. -/
structure Grown (d d' : Defect) : Prop where
  standing : Defect.SameStanding d d'
  members {k : Nat} {m : DefectBuild} : d.members.find? k = some m →
    ∃ m', d'.members.find? k = some m' ∧ m.Kept m'
  blame : d.blame ≠ [] → d'.blame ≠ []
  branch : d.trackedBranch.isSome → d'.trackedBranch.isSome

theorem Grown.refl (d : Defect) : Grown d d :=
  ⟨.refl d, fun {_ m} hm => ⟨m, hm, .refl m⟩, fun h => h, fun h => h⟩

theorem Grown.hasBuild {d d' : Defect} (h : Grown d d') {k : Nat} (hk : d.hasBuild k = true) :
    d'.hasBuild k = true := by
  obtain ⟨m, hm⟩ := Defect.find?_of_hasBuild hk
  obtain ⟨m', hm', -⟩ := h.members hm
  exact Defect.hasBuild_of_find? hm'

theorem grown_attached (i : Issue) (b : BuildSnapshot) (d : Defect) : Grown d (attached i b d) := by
  refine ⟨attached_sameStanding i b d, fun hm => kept_attached hm i b, fun h => ?_, fun h => ?_⟩
  · rw [blame_attached, if_neg h]
    exact h
  · rw [trackedBranch_attached, Option.isSome_or, h]
    rfl

theorem grown_absorbedAll {os : List Defect} (hk : ∀ o ∈ os, o.MembersKeyed) (d : Defect) :
    Grown d (absorbedAll os d) :=
  ⟨absorbedAll_sameStanding os d, fun {_ m} hm => ⟨m, find?_absorbedAll_of_find? hk hm, .refl m⟩,
    fun h => blame_absorbedAll_ne_nil (o := d) (by simp) h,
    fun h => by rwa [trackedBranch_absorbedAll]⟩

theorem Grown.trans {d d' d'' : Defect} (h : Grown d d') (h' : Grown d' d'') : Grown d d'' := by
  refine ⟨h.standing.trans h'.standing, fun hm => ?_, fun hb => h'.blame (h.blame hb),
    fun hb => h'.branch (h.branch hb)⟩
  obtain ⟨m', hm', hk⟩ := h.members hm
  obtain ⟨m'', hm'', hk'⟩ := h'.members hm'
  exact ⟨m'', hm'', hk.trans hk'⟩

/-- A defect that is not taken over grows where it is. -/
theorem grown_placed (hs : s.WellFormed) (now : Timestamp) (i : Issue) {id : Nat}
    (hd : s.find? id = some d) (hinto : (placement b s).into id = id) :
    ∃ d', (placed now i b s).find? id = some d' ∧ Grown d d' := by
  obtain rfl := hs.keyed hd
  obtain ⟨d', hd', hb⟩ := exists_becomes hs now i b hd
  refine ⟨d', hd', ?_⟩
  cases hb with
  | same => exact .refl d
  | held => exact grown_attached i b d
  | target => exact (grown_absorbedAll (membersKeyed_takenOver hs) d).trans (grown_attached i b _)
  | takenOver hp hmem =>
    have hspec := placement_spec hs b
    rw [hp] at hspec hinto
    rw [Placement.into_joined, if_pos hmem] at hinto
    exact absurd (hinto ▸ hmem) (List.nodup_cons.1 hspec.mergeable.nodup).1

/-- Where a build is placed, its issue is attached to it. -/
theorem home_placed (hs : s.WellFormed) (now : Timestamp) (i : Issue) (b : BuildSnapshot) :
    ∃ e, (placed now i b s).find? ((placement b s).home s) = some (attached i b e) ∧
      e.server = b.server ∧ (placement b s = .held e ∨ e.isOpen = true) := by
  have hspec := placement_spec hs b
  unfold placed
  generalize placement b s = p at *
  cases hspec with
  | @held d found server build least =>
    refine ⟨d, ?_, server, .inl rfl⟩
    rw [find?_result_held, Placement.home, if_pos rfl, found]
    rfl
  | @joined target others unheld shares nodup =>
    have hspec : PlacementSpec b s (.joined target others) := .joined unheld shares nodup
    obtain ⟨t, ht, -, hall⟩ := hspec.find?_target now hs
    obtain ⟨-, hserver, hopen, -⟩ := hall t (by simp)
    have hstand := absorbedAll_sameStanding (takenOver s others) t
    refine ⟨absorbedAll (takenOver s others) t, ?_, hstand.server.trans hserver,
      .inr (hstand.isOpen.trans hopen)⟩
    rw [hspec.find?_result_joined, Placement.home, if_pos rfl, ht]
    rfl
  | started unheld alone =>
    refine ⟨Defect.make (s.lastId + 1) b.server now, ?_, rfl, .inr rfl⟩
    rw [find?_result_started, Placement.home, if_pos rfl]
    rfl

/-- A merge of defects that share no build keeps the entries of each of them as they are. -/
theorem find?_absorbedAll_of_part (hs : s.WellFormed) (hx : s.Exclusive) {os : List Defect}
    {t : Defect} {server : String}
    (hparts : ∀ o ∈ t :: os, s.find? o.id = some o ∧ o.server = server ∧ o.isOpen = true)
    (hd : d ∈ t :: os) {k : Nat} (hm : d.members.find? k = some m) :
    (absorbedAll os t).members.find? k = some m := by
  obtain ⟨hdstored, hdserver, hdopen⟩ := hparts d hd
  have hdlive := hs.notSuperseded_of_isOpen hdstored hdopen
  -- no other part of the merge has the build
  have huniq : ∀ o ∈ t :: os, o.hasBuild k = true → o.members.find? k = some m := by
    intro o ho hb
    obtain ⟨hstored, hserver, hopen⟩ := hparts o ho
    have hsame := hx.eq_of_hasBuild hs hstored (hs.notSuperseded_of_isOpen hstored hopen) hb
      hdstored hdlive (Defect.hasBuild_of_find? hm) (hserver.trans hdserver.symm)
    rw [hsame]
    exact hm
  have hkeyed : ∀ o ∈ os, o.MembersKeyed := fun o ho =>
    hs.members (hparts o (List.mem_cons_of_mem _ ho)).1
  exact find?_absorbedAll_of_mem hkeyed hd hm huniq

/-- An entry of a defect that is taken over goes to the defect that takes it over. -/
theorem fate_takenOver (hs : s.WellFormed) (hx : s.Exclusive) {target : Nat} {others : List Nat}
    (h : PlacementSpec b s (.joined target others)) (now : Timestamp) (i : Issue)
    (he : s.Entry d m) (hid : d.id ∈ others) :
    ∃ d' m', ((Placement.joined target others).result now i b s).find? target = some d' ∧
      d'.supersededBy = none ∧ d'.server = d.server ∧ d'.members.find? m.build = some m' ∧
      m.Kept m' ∧ (d.blame ≠ [] → d'.blame ≠ []) := by
  obtain ⟨t, ht, -, hall⟩ := h.find?_target now hs
  have hd : d ∈ t :: takenOver s others :=
    List.mem_cons_of_mem _ (mem_takenOver.2 ⟨d.id, hid, he.stored⟩)
  have hm := find?_absorbedAll_of_part hs hx
    (fun o ho => ⟨(hall o ho).1, (hall o ho).2.1, (hall o ho).2.2.1⟩) hd he.member
  have hgrown := grown_attached i b (absorbedAll (takenOver s others) t)
  obtain ⟨m', hm', hk⟩ := hgrown.members hm
  obtain ⟨hstored, hserver, hopen, -, -⟩ := hall t (by simp)
  have hstand := (absorbedAll_sameStanding (takenOver s others) t).trans hgrown.standing
  refine ⟨attached i b (absorbedAll (takenOver s others) t), m', ?_, ?_, ?_, hm', hk, fun hb => ?_⟩
  · rw [h.find?_result_joined, if_pos rfl, ht]
    rfl
  · rw [hstand.supersededBy]
    exact hs.notSuperseded_of_isOpen hstored hopen
  · rw [hstand.server, hserver, (hall d hd).2.1]
  · exact hgrown.blame (blame_absorbedAll_ne_nil hd hb)

/-- No entry is lost. -/
theorem fate_placed (hs : s.WellFormed) (hx : s.Exclusive) (now : Timestamp) (i : Issue)
    (he : s.Entry d m) : ∃ d' m', (placed now i b s).Entry d' m' ∧
      d'.id = (placement b s).into d.id ∧ d'.server = d.server ∧ m.Kept m' ∧
      (d.blame ≠ [] → d'.blame ≠ []) ∧ ((placement b s).into d.id = d.id → Grown d d') := by
  have hw := wellFormed_placed hs now i b
  by_cases hinto : (placement b s).into d.id = d.id
  · obtain ⟨d', hd', hg⟩ := grown_placed hs now i he.stored hinto
    obtain ⟨m', hm', hk⟩ := hg.members he.member
    refine ⟨d', m', hw.entry hd' (hg.standing.supersededBy.trans he.live) hm', ?_,
      hg.standing.server, hk, hg.blame, fun _ => hg⟩
    rw [hinto]
    exact hg.standing.id
  · have hspec := placement_spec hs b
    unfold placed at *
    generalize placement b s = p at *
    cases hspec with
    | @joined target others unheld shares nodup =>
      have hid : d.id ∈ others := by
        by_contra hid
        rw [Placement.into_joined, if_neg hid] at hinto
        exact hinto rfl
      obtain ⟨d', m', hd', hlive, hserver, hm', hk, hb⟩ :=
        fate_takenOver hs hx (.joined unheld shares nodup) now i he hid
      refine ⟨d', m', hw.entry hd' hlive hm', ?_, hserver, hk, hb, fun h => absurd h hinto⟩
      rw [Placement.into_joined, if_pos hid, hw.keyed hd']
    | held => exact absurd rfl hinto
    | started => exact absurd rfl hinto

/-- A stored defect after a placement was there before, is the one that the build was placed in, or
was taken over. -/
theorem stored_placed (hs : s.WellFormed) {now : Timestamp} {id : Nat} {d' : Defect}
    (h : (placed now i b s).find? id = some d') :
    s.find? id = some d' ∨
      (∃ e, d' = attached i b e ∧ e.server = b.server ∧
        ((s.find? id = some e ∧ e.hasBuild b.build = true) ∨ e.isOpen = true) ∧
        ∀ k, e.hasBuild k = true →
          ∃ o, s.find? o.id = some o ∧ o.server = b.server ∧ o.hasBuild k = true) ∨
      ∃ d target, s.find? id = some d ∧ d.isOpen = true ∧ d' = superseded now target d := by
  have hspec := placement_spec hs b
  rcases becomes_of_find?_placed hs h with ⟨d, hd, hb⟩ | ⟨-, -, rfl⟩
  · cases hb with
    | same => exact .inl hd
    | held hp =>
      rw [hp] at hspec
      cases hspec with
      | held found server build =>
        exact .inr (.inl ⟨d, rfl, server, .inl ⟨hd, build⟩, fun k hk => ⟨d, found, server, hk⟩⟩)
    | @target others hp hopen =>
      rw [hp] at hspec
      obtain ⟨t, ht, -, hall⟩ := hspec.find?_target now hs
      rw [hs.keyed hd] at ht
      cases hd.symm.trans ht
      have hserver := (hall d (by simp)).2.1
      have hstand := absorbedAll_sameStanding (takenOver s others) d
      refine .inr (.inl ⟨_, rfl, hstand.server.trans hserver, .inr (hstand.isOpen.trans hopen),
        fun k hk => ?_⟩)
      obtain ⟨m, hm⟩ := Defect.find?_of_hasBuild hk
      obtain ⟨o, ho, hom⟩ := mem_of_find?_absorbedAll (membersKeyed_takenOver hs) hm
      obtain ⟨hstored, hserver, -⟩ := hall o ho
      exact ⟨o, hstored, hserver, Defect.hasBuild_of_find? hom⟩
    | takenOver _ _ hopen => exact .inr (.inr ⟨d, _, hd, hopen, rfl⟩)
  · refine .inr (.inl ⟨_, rfl, rfl, .inr rfl, fun k hk => ?_⟩)
    rw [Defect.hasBuild_eq_isSome] at hk
    cases hk

end Fate

end Clustering

end Triage
