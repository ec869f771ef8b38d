import Triage.Proofs.Clustering.Ownership

/-!
# Clustering computes connected components

As long as snapshots are only added and no defect is closed by anyone, the open defects of a server
are the connected components of the graph that joins two builds with a commit in common, over the
builds that passes have come across (`Growth.partition_eq_components`).  The invariant is
`Components`: each clustered build has an entry in an open defect, and the builds of one defect are
linked by commits.  Placing a build keeps it because the defects that come together all share a
commit with the build.
-/

namespace Triage

/-- The member builds of a defect. -/
def Defect.builds (d : Defect) : Set Nat := {k | d.hasBuild k = true}

namespace Clustering

open DefectStore

/-! ### Links between builds -/

/-- Builds of one server with a commit in common. -/
def Adjacent (builds : OrderedMap BuildRef BuildSnapshot) (r r' : BuildRef) : Prop :=
  r.server = r'.server ∧ ∃ b b', builds.find? r = some b ∧ builds.find? r' = some b' ∧
    b.fingerprint.meets b'.fingerprint = true

/-- A chain of commits leads from one build to the other, over builds in `V`. -/
def Linked (builds : OrderedMap BuildRef BuildSnapshot) (V : Set BuildRef) :
    BuildRef → BuildRef → Prop :=
  Relation.ReflTransGen fun r r' => r ∈ V ∧ r' ∈ V ∧ Adjacent builds r r'

variable {builds builds' : OrderedMap BuildRef BuildSnapshot} {V V' : Set BuildRef}
  {r r' : BuildRef} {s : DefectStore} {d d' : Defect} {m m' : DefectBuild} {b : BuildSnapshot}

theorem Adjacent.symm (h : Adjacent builds r r') : Adjacent builds r' r := by
  obtain ⟨hserver, b, b', hb, hb', hmeets⟩ := h
  exact ⟨hserver.symm, b', b, hb', hb, by rwa [OrderedSet.meets_comm]⟩

theorem Adjacent.mono (hbuilds : ∀ r b, builds.find? r = some b → builds'.find? r = some b)
    (h : Adjacent builds r r') : Adjacent builds' r r' := by
  obtain ⟨hserver, b, b', hb, hb', hmeets⟩ := h
  exact ⟨hserver, b, b', hbuilds r b hb, hbuilds r' b' hb', hmeets⟩

theorem Linked.symm (h : Linked builds V r r') : Linked builds V r' r := by
  have : Std.Symm fun r r' => r ∈ V ∧ r' ∈ V ∧ Adjacent builds r r' :=
    ⟨fun _ _ ⟨hr, hr', ha⟩ => ⟨hr', hr, ha.symm⟩⟩
  exact Relation.ReflTransGen.stdSymm.symm _ _ h

theorem Linked.mono (hbuilds : ∀ r b, builds.find? r = some b → builds'.find? r = some b)
    (hV : V ⊆ V') (h : Linked builds V r r') : Linked builds' V' r r' :=
  Relation.ReflTransGen.mono (fun _ _ ⟨hr, hr', ha⟩ => ⟨hV hr, hV hr', ha.mono hbuilds⟩) _ _ h

/-! ### The invariant -/

/-- The open defects split the builds in `V` by the links between them. -/
structure Components (builds : OrderedMap BuildRef BuildSnapshot) (V : Set BuildRef)
    (s : DefectStore) : Prop where
  sound : s.Sound
  keyed {r : BuildRef} {b : BuildSnapshot} : builds.find? r = some b → b.ref = r
  populated {d : Defect} : s.find? d.id = some d → d.supersededBy = none →
    d.isOpen = true ∧ ∃ k, d.hasBuild k = true
  clustered {d : Defect} {k : Nat} : s.find? d.id = some d → d.hasBuild k = true → ⟨d.server, k⟩ ∈ V
  snapshot {d : Defect} {m : DefectBuild} : s.Entry d m →
    ∃ b, builds.find? ⟨d.server, m.build⟩ = some b ∧ m.fingerprint = b.fingerprint
  covered {r : BuildRef} : r ∈ V → ∃ d m, s.Entry d m ∧ d.server = r.server ∧ m.build = r.build
  linked {d : Defect} {m m' : DefectBuild} : s.Entry d m → s.Entry d m' →
    Linked builds V ⟨d.server, m.build⟩ ⟨d.server, m'.build⟩

theorem Components.of_none (h : ∀ id, s.find? id = none)
    (hkeyed : ∀ r b, builds.find? r = some b → b.ref = r) : Components builds ∅ s where
  sound := sound_of_none h
  keyed := hkeyed _ _
  populated hd := by rw [h] at hd; cases hd
  clustered hd := by rw [h] at hd; cases hd
  snapshot he := by have hd := he.stored; rw [h] at hd; cases hd
  covered hr := by cases hr
  linked he := by have hd := he.stored; rw [h] at hd; cases hd

/-- Further snapshots change nothing. -/
theorem Components.more_builds (h : Components builds V s)
    (hbuilds : ∀ r b, builds.find? r = some b → builds'.find? r = some b)
    (hkeyed : ∀ r b, builds'.find? r = some b → b.ref = r) : Components builds' V s where
  sound := h.sound
  keyed := hkeyed _ _
  populated := h.populated
  clustered := h.clustered
  snapshot he := by
    obtain ⟨b, hb, hf⟩ := h.snapshot he
    exact ⟨b, hbuilds _ _ hb, hf⟩
  covered := h.covered
  linked he he' := (h.linked he he').mono hbuilds le_rfl

/-! ### Placing a build -/

section Placed

variable (h : Components builds V s) (hb : builds.find? b.ref = some b)

include h in
theorem Components.unheld_of_not_mem (hV : b.ref ∉ V) {p : Placement}
    (hp : PlacementSpec b s p) : ∀ e, p ≠ .held e := by
  rintro e rfl
  cases hp with
  | held found server build least =>
    have := h.clustered found build
    rw [server] at this
    exact hV this

include h hb in
/-- A member of a defect that goes where the build goes is linked to it. -/
theorem Components.linked_home
    (hunheld : ∀ e, s.find? e.id = some e → e.server = b.server → e.hasBuild b.build = false)
    (he : s.Entry d m) (hinto : (placement b s).into d.id = (placement b s).home s) :
    Linked builds (insert b.ref V) ⟨d.server, m.build⟩ b.ref := by
  obtain ⟨hserver, hshare⟩ := shares_of_into_eq_home h.sound.wellFormed hunheld he.stored hinto
  obtain ⟨k, n, hn, hmeets⟩ := Defect.sharesFingerprint_iff.1 hshare
  have hen : s.Entry d n := h.sound.wellFormed.entry he.stored he.live hn
  have hlink := (h.linked he hen).mono (fun _ _ h => h) (Set.subset_insert b.ref V)
  obtain ⟨bn, hbn, hfn⟩ := h.snapshot hen
  refine hlink.tail ⟨.inr (h.clustered hen.stored hen.hasBuild), .inl rfl, hserver, bn, b, hbn, hb, ?_⟩
  rwa [← hfn]

include h in
theorem Components.snapshot_of_inherited {into : Nat → Nat} (hd : s.Inherited into d' m') :
    ∃ b, builds.find? ⟨d'.server, m'.build⟩ = some b ∧ m'.fingerprint = b.fingerprint := by
  obtain ⟨d, m, he, -, hserver, -, hk⟩ := hd
  obtain ⟨b, hb, hf⟩ := h.snapshot he
  rw [hserver, hk.build, hk.fingerprint]
  exact ⟨b, hb, hf⟩

include h hb in
theorem Components.linked_fresh
    (hunheld : ∀ e, s.find? e.id = some e → e.server = b.server → e.hasBuild b.build = false)
    (hd : s.Inherited (placement b s).into d' m) (hd' : Fresh b ((placement b s).home s) d' m') :
    Linked builds (insert b.ref V) ⟨d'.server, m.build⟩ ⟨d'.server, m'.build⟩ := by
  obtain ⟨d, n, he, hinto, hserver, -, hk⟩ := hd
  have hlink := h.linked_home hb hunheld he (hinto.trans hd'.home)
  rw [← hserver, ← hk.build] at hlink
  have href : (⟨d'.server, m'.build⟩ : BuildRef) = b.ref := by
    rw [hd'.server, hd'.build]
    rfl
  rw [href]
  exact hlink

include h hb in
theorem Components.linked_inherited (hd : s.Inherited (placement b s).into d' m)
    (hd' : s.Inherited (placement b s).into d' m') :
    Linked builds (insert b.ref V) ⟨d'.server, m.build⟩ ⟨d'.server, m'.build⟩ := by
  obtain ⟨e, n, he, hinto, hserver, -, hk⟩ := hd
  obtain ⟨e', n', he', hinto', hserver', -, hk'⟩ := hd'
  rcases eq_or_home_of_into_eq h.sound.wellFormed b (hinto.trans hinto'.symm) with
    hid | ⟨hhome, hunheld⟩
  · -- the defect was one before
    have hstored := he'.stored
    rw [← hid, he.stored] at hstored
    cases hstored
    rw [hk.build, hk'.build, hserver]
    exact (h.linked he he').mono (fun _ _ h => h) (Set.subset_insert b.ref V)
  · -- the build bridges the two
    have hlink := h.linked_home hb hunheld he hhome
    have hlink' := h.linked_home hb hunheld he' (hinto'.trans (hinto.symm.trans hhome))
    rw [← hserver, ← hk.build] at hlink
    rw [← hserver', ← hk'.build] at hlink'
    exact hlink.trans hlink'.symm

include h in
/-- A defect that no other one took over is still open and has a member. -/
theorem Components.populated_placed (now : Timestamp) (i : Issue)
    (hd' : (placed now i b s).find? d'.id = some d') (hlive : d'.supersededBy = none) :
    d'.isOpen = true ∧ ∃ k, d'.hasBuild k = true := by
  rcases stored_placed h.sound.wellFormed hd' with hd | ⟨e, rfl, -, he, -⟩ | ⟨o, target, -, ho, rfl⟩
  · exact h.populated hd hlive
  · have hstand := attached_sameStanding i b e
    rw [hstand.id] at he
    have hopen : e.isOpen = true := by
      rcases he with ⟨he, -⟩ | he
      · exact (h.populated he (hstand.supersededBy ▸ hlive)).1
      · exact he
    refine ⟨hstand.isOpen.trans hopen, b.build, ?_⟩
    rw [Defect.hasBuild_eq_isSome, find?_attached, if_pos rfl]
    rfl
  · rw [superseded_of_isOpen ho] at hlive
    cases hlive

include h in
theorem Components.clustered_placed (now : Timestamp) (i : Issue) {k : Nat}
    (hd' : (placed now i b s).find? d'.id = some d') (hk : d'.hasBuild k = true) :
    ⟨d'.server, k⟩ ∈ insert b.ref V := by
  rcases stored_placed h.sound.wellFormed hd' with hd | ⟨e, rfl, hserver, -, hmem⟩ |
    ⟨o, target, hd, ho, rfl⟩
  · exact .inr (h.clustered hd hk)
  · rw [(attached_sameStanding i b e).server, hserver]
    obtain ⟨m', hm'⟩ := Defect.find?_of_hasBuild hk
    rcases mem_attached hm' with ⟨m, hm, -⟩ | ⟨rfl, -⟩
    · obtain ⟨o, ho, hserver, hok⟩ := hmem k (Defect.hasBuild_of_find? hm)
      exact .inr (hserver ▸ h.clustered ho hok)
    · exact .inl rfl
  · rw [superseded_of_isOpen ho] at hd hk ⊢
    have hstored : s.find? o.id = some o := hd
    have hin := h.clustered hstored hk
    exact .inr hin

include h in
/-- The build that is placed has an entry as well. -/
theorem Components.covered_placed (now : Timestamp) (i : Issue) (hr : r ∈ insert b.ref V) :
    ∃ d' m', (placed now i b s).Entry d' m' ∧ d'.server = r.server ∧ m'.build = r.build := by
  have hw := h.sound.wellFormed
  have hw' := wellFormed_placed hw now i b
  by_cases hV : r ∈ V
  · obtain ⟨d, m, he, hserver, hbuild⟩ := h.covered hV
    obtain ⟨d', m', he', -, hserver', hk, -, -⟩ := fate_placed hw h.sound.exclusive now i he
    exact ⟨d', m', he', hserver'.trans hserver, hk.build.trans hbuild⟩
  · obtain rfl : r = b.ref := hr.resolve_right hV
    obtain ⟨e, he, hserver, hheld | hopen⟩ := home_placed hw now i b
    · exact absurd hheld (h.unheld_of_not_mem hV (placement_spec hw b) e)
    · have hstand := attached_sameStanding i b e
      have hm := find?_attached i b e b.build
      rw [if_pos rfl] at hm
      have hlive := hw'.notSuperseded_of_isOpen he (hstand.isOpen.trans hopen)
      have hentry := hw'.entry he hlive hm
      exact ⟨_, _, hentry, hstand.server.trans hserver, hw'.members he _ _ hm⟩

include h hb in
theorem Components.linked_placed (now : Timestamp) (i : Issue)
    (he : (placed now i b s).Entry d' m) (he' : (placed now i b s).Entry d' m') :
    Linked builds (insert b.ref V) ⟨d'.server, m.build⟩ ⟨d'.server, m'.build⟩ := by
  have hw := h.sound.wellFormed
  rcases origin_placed hw he with hd | ⟨hunheld, hd⟩ <;>
    rcases origin_placed hw he' with hd' | ⟨hunheld', hd'⟩
  · exact h.linked_inherited hb hd hd'
  · exact h.linked_fresh hb hunheld' hd hd'
  · exact (h.linked_fresh hb hunheld hd' hd).symm
  · rw [hd.build, hd'.build]
    exact .refl

include h hb in
theorem Components.placed (now : Timestamp) (i : Issue) :
    Components builds (insert b.ref V) (placed now i b s) where
  sound := sound_placed h.sound now i b
  keyed := h.keyed
  populated := h.populated_placed now i
  clustered := h.clustered_placed now i
  snapshot he := by
    rcases origin_placed h.sound.wellFormed he with hd | ⟨-, hd⟩
    · exact h.snapshot_of_inherited hd
    · rw [hd.server, hd.build, hd.fingerprint]
      exact ⟨b, hb, rfl⟩
  covered := h.covered_placed now i
  linked := h.linked_placed hb now i

end Placed

/-! ### Passes -/

/-- The builds with a snapshot among those that issues are about. -/
def known (builds : OrderedMap BuildRef BuildSnapshot) (is : List Issue) : Set BuildRef :=
  {r | (∃ i ∈ is, i.key.ref = r) ∧ (builds.find? r).isSome}

theorem known_cons_of_none {i : Issue} (h : builds.find? i.key.ref = none) (is : List Issue) :
    known builds (i :: is) = known builds is := by
  ext r
  constructor
  · rintro ⟨⟨j, hj, rfl⟩, hr⟩
    rcases List.mem_cons.1 hj with rfl | hj
    · rw [h] at hr
      cases hr
    · exact ⟨⟨j, hj, rfl⟩, hr⟩
  · rintro ⟨⟨j, hj, rfl⟩, hr⟩
    exact ⟨⟨j, List.mem_cons_of_mem _ hj, rfl⟩, hr⟩

theorem known_cons_of_some {i : Issue} (h : builds.find? i.key.ref = some b) (is : List Issue) :
    known builds (i :: is) = insert i.key.ref (known builds is) := by
  ext r
  constructor
  · rintro ⟨⟨j, hj, rfl⟩, hr⟩
    rcases List.mem_cons.1 hj with rfl | hj
    · exact .inl rfl
    · exact .inr ⟨⟨j, hj, rfl⟩, hr⟩
  · rintro (rfl | ⟨⟨j, hj, rfl⟩, hr⟩)
    · exact ⟨⟨i, List.mem_cons_self, rfl⟩, by rw [h]; rfl⟩
    · exact ⟨⟨j, List.mem_cons_of_mem _ hj, rfl⟩, hr⟩

theorem Components.foldl (now : Timestamp) :
    ∀ (is : List Issue) (acc : Report × DefectStore) (V : Set BuildRef),
      Components builds V acc.2 →
        Components builds (V ∪ known builds is) (is.foldl (passStep now builds) acc).2
  | [], acc, V, h => by
    have hnone : known builds [] = ∅ := by
      ext r
      simp [known]
    rw [hnone, Set.union_empty]
    exact h
  | i :: is, acc, V, h => by
    rw [List.foldl_cons]
    have hstep := Components.foldl now is (passStep now builds acc i)
    unfold passStep at hstep ⊢
    cases hb : builds.find? i.key.ref with
    | none =>
      rw [known_cons_of_none hb]
      simp only [hb] at hstep
      exact hstep V h
    | some b =>
      rw [known_cons_of_some hb, Set.union_insert, ← Set.insert_union]
      simp only [hb] at hstep
      have href : b.ref = i.key.ref := h.keyed hb
      exact hstep _ (href ▸ h.placed (by rwa [href]) now i)

/-- A run that starts without defects, in which snapshots are only added and no defect is closed by
anyone.  The builds in `V` are those that had an issue within the lookback and a snapshot at some
pass. -/
inductive Growth : Stores → Set BuildRef → Prop
  | start {s : Stores} (hdefects : s.defects.all = [])
      (hbuilds : ∀ r b, s.builds.find? r = some b → b.ref = r) : Growth s ∅
  | saveIssue {s : Stores} {V : Set BuildRef} (i : Issue) (h : Growth s V) :
      Growth ((Operation.saveIssue i).run s) V
  | putBuild {s : Stores} {V : Set BuildRef} (b : BuildSnapshot)
      (hnew : s.builds.find? b.ref = none) (h : Growth s V) :
      Growth ((Operation.putBuild b).run s) V
  | cluster {s : Stores} {V : Set BuildRef} (cfg : ClusteringConfig) (now : Timestamp)
      (h : Growth s V) :
      Growth ((Operation.cluster cfg now).run s) (V ∪ known s.builds (recent cfg now s))

/-- For stores with an outcome in them, which comparing the two types would evaluate. -/
theorem Components.stored {s : Stores} {ds : DefectStore} (h : Components s.builds V ds) :
    Components ({ s with defects := ds } : Stores).builds V
      ({ s with defects := ds } : Stores).defects := h

theorem Growth.components {s : Stores} (h : Growth s V) : Components s.builds V s.defects := by
  induction h with
  | @start s hdefects hbuilds =>
    refine .of_none (fun id => ?_) hbuilds
    cases hd : s.defects.find? id with
    | none => rfl
    | some d =>
      have hmem : d ∈ s.defects.all := mem_all_iff.2 ⟨id, hd⟩
      rw [hdefects] at hmem
      cases hmem
  | saveIssue i _ ih => exact ih
  | @putBuild s V b hnew _ ih =>
    have hfind : ∀ r, (s.builds.insert b.ref b).find? r =
        if b.ref = r then some b else s.builds.find? r :=
      fun r => OrderedMap.find?_insert s.builds b.ref r b
    refine ih.more_builds (fun r b' hb' => ?_) fun r b' hb' => ?_
    · have hne : b.ref ≠ r := by
        rintro rfl
        rw [hnew] at hb'
        cases hb'
      exact (hfind r).trans ((if_neg hne).trans hb')
    · have hb'' := (hfind r).symm.trans hb'
      split at hb''
      · cases hb''
        assumption
      · exact ih.keyed hb''
  | @cluster s V cfg now _ ih =>
    rw [Operation.run, Pass.after_eq, exec_cluster_snd ih.sound.wellFormed]
    exact Components.stored (ih.foldl now (recent cfg now s) (.empty, s.defects) V)

/-! ### The graph of common commits -/

/-- The builds of a server in `V`, joined where they have a commit in common. -/
def commitGraph (builds : OrderedMap BuildRef BuildSnapshot) (V : Set BuildRef) (server : String) :
    SimpleGraph {k : Nat // (⟨server, k⟩ : BuildRef) ∈ V} where
  Adj x y := x ≠ y ∧ Adjacent builds ⟨server, x⟩ ⟨server, y⟩
  symm := ⟨fun _ _ ⟨hne, ha⟩ => ⟨hne.symm, ha.symm⟩⟩
  loopless := ⟨fun _ ⟨hne, _⟩ => hne rfl⟩

theorem reachable_iff_linked {server : String} {x y : {k : Nat // (⟨server, k⟩ : BuildRef) ∈ V}} :
    (commitGraph builds V server).Reachable x y ↔ Linked builds V ⟨server, x⟩ ⟨server, y⟩ := by
  constructor
  · intro h
    rw [SimpleGraph.reachable_iff_reflTransGen] at h
    induction h with
    | refl => exact .refl
    | @tail v w _ hadj ih => exact ih.tail ⟨v.2, w.2, hadj.2⟩
  · intro h
    have go : ∀ r, Linked builds V ⟨server, x⟩ r → ∀ z : {k : Nat // (⟨server, k⟩ : BuildRef) ∈ V},
        r = ⟨server, z⟩ → (commitGraph builds V server).Reachable x z := by
      intro r hr
      induction hr with
      | refl =>
        intro z hz
        have hxz : x = z := Subtype.ext (congrArg BuildRef.build hz)
        rw [hxz]
      | @tail q r _ hstep ih =>
        intro z hz
        obtain ⟨hq, -, hadj⟩ := hstep
        subst hz
        obtain ⟨qserver, k⟩ := q
        obtain rfl : qserver = server := hadj.1
        have hreach := ih ⟨k, hq⟩ rfl
        by_cases hk : (⟨k, hq⟩ : {k : Nat // (⟨qserver, k⟩ : BuildRef) ∈ V}) = z
        · rw [← hk]
          exact hreach
        · have hadj' : (commitGraph builds V qserver).Adj ⟨k, hq⟩ z := ⟨hk, hadj⟩
          exact hreach.trans hadj'.reachable
    exact go _ h y rfl

theorem commitGraph_congr {server : String} (h : ∀ r ∈ V, builds'.find? r = builds.find? r) :
    commitGraph builds' V server = commitGraph builds V server := by
  ext x y
  unfold commitGraph Adjacent
  simp only [h _ x.2, h _ y.2]

/-! ### Defects and components -/

/-- Linked builds are in the same defect. -/
theorem Components.id_eq_of_linked (h : Components builds V s) (hlink : Linked builds V r r')
    (he : s.Entry d m) (hr : r = ⟨d.server, m.build⟩) :
    ∀ {d' m'}, s.Entry d' m' → r' = ⟨d'.server, m'.build⟩ → d.id = d'.id := by
  induction hlink with
  | refl =>
    intro d' m' he' hr'
    rw [hr] at hr'
    exact h.sound.exclusive.holder he he' (congrArg BuildRef.server hr')
      (congrArg BuildRef.build hr')
  | @tail q q' _ hstep ih =>
    rintro d' m' he' rfl
    obtain ⟨hq, -, hserver, b, b', hb, hb', hmeets⟩ := hstep
    obtain ⟨o, n, ho, hos, hon⟩ := h.covered hq
    have href : q = ⟨o.server, n.build⟩ := by rw [hos, hon]
    obtain ⟨bo, hbo, hfo⟩ := h.snapshot ho
    obtain ⟨bd, hbd, hfd⟩ := h.snapshot he'
    rw [← href, hb] at hbo
    rw [hb'] at hbd
    cases hbo
    cases hbd
    have hopen := (h.populated ho.stored ho.live).1
    have hopen' := (h.populated he'.stored he'.live).1
    rw [ih ho href]
    exact h.sound.exclusive.commits ho he' hopen hopen' (hos.trans hserver)
      (by rw [hfo, hfd]; exact hmeets)

/-- The member builds of each open defect of a server. -/
def partition (s : DefectStore) (server : String) : Set (Set Nat) :=
  {B | ∃ d ∈ s.onServer server, d.isOpen = true ∧ B = d.builds}

/-- The member builds of an open defect are a component. -/
theorem Components.builds_eq_supp (h : Components builds V s) {server : String}
    (hd : s.find? d.id = some d) (hlive : d.supersededBy = none) (hserver : d.server = server)
    (x : {k : Nat // (⟨server, k⟩ : BuildRef) ∈ V}) (hx : d.hasBuild x = true) :
    d.builds = Subtype.val '' ((commitGraph builds V server).connectedComponentMk x).supp := by
  have hw := h.sound.wellFormed
  subst hserver
  obtain ⟨mx, hmx⟩ := Defect.find?_of_hasBuild hx
  have hex := hw.entry hd hlive hmx
  have hbx := hw.members hd _ _ hmx
  ext k
  constructor
  · intro hk
    obtain ⟨m, hm⟩ := Defect.find?_of_hasBuild hk
    have he := hw.entry hd hlive hm
    have hlink := h.linked he hex
    rw [hw.members hd _ _ hm, hbx] at hlink
    exact ⟨⟨k, h.clustered hd hk⟩,
      SimpleGraph.ConnectedComponent.sound (reachable_iff_linked.2 hlink), rfl⟩
  · rintro ⟨y, hy, rfl⟩
    have hlink := reachable_iff_linked.1 (SimpleGraph.ConnectedComponent.exact hy)
    obtain ⟨d', m', he', hserver', hbuild'⟩ := h.covered y.2
    have hid : d'.id = d.id :=
      h.id_eq_of_linked hlink he' (by rw [hserver', hbuild']) hex (by rw [hbx])
    have hstored := he'.stored
    rw [hid, hd] at hstored
    cases hstored
    have hk := he'.hasBuild
    rw [hbuild'] at hk
    exact hk

theorem Components.partition_eq (h : Components builds V s) (server : String) :
    partition s server =
      {B | ∃ C : (commitGraph builds V server).ConnectedComponent, B = Subtype.val '' C.supp} := by
  have hw := h.sound.wellFormed
  ext B
  constructor
  · rintro ⟨d, hd, hopen, rfl⟩
    obtain ⟨hstored, rfl⟩ := hw.mem_onServer.1 hd
    have hlive := hw.notSuperseded_of_isOpen hstored hopen
    obtain ⟨k, hk⟩ := (h.populated hstored hlive).2
    exact ⟨_, h.builds_eq_supp hstored hlive rfl ⟨k, h.clustered hstored hk⟩ hk⟩
  · rintro ⟨C, rfl⟩
    induction C using SimpleGraph.ConnectedComponent.ind with
    | _ x =>
      obtain ⟨d, m, he, hserver, hbuild⟩ := h.covered x.2
      have hx := he.hasBuild
      rw [hbuild] at hx
      exact ⟨d, hw.mem_onServer.2 ⟨he.stored, hserver⟩, (h.populated he.stored he.live).1,
        (h.builds_eq_supp he.stored he.live hserver x hx).symm⟩

/-- No two open defects have the same member builds. -/
theorem Components.injOn_builds (h : Components builds V s) (server : String) :
    Set.InjOn Defect.builds {d | d ∈ s.onServer server ∧ d.isOpen = true} := by
  have hw := h.sound.wellFormed
  rintro d ⟨hd, hopen⟩ d' ⟨hd', hopen'⟩ heq
  obtain ⟨hstored, hserver⟩ := hw.mem_onServer.1 hd
  obtain ⟨hstored', hserver'⟩ := hw.mem_onServer.1 hd'
  have hlive := hw.notSuperseded_of_isOpen hstored hopen
  obtain ⟨k, hk⟩ := (h.populated hstored hlive).2
  have hk' : k ∈ d'.builds := heq ▸ hk
  exact h.sound.exclusive.eq_of_hasBuild hw hstored hlive hk hstored'
    (hw.notSuperseded_of_isOpen hstored' hopen') hk' (hserver.trans hserver'.symm)

/-- Clustering computes connected components: the open defects of a server are, one for one, the
components of the graph of common commits over the builds that passes have come across.  So it makes
no difference to them in which order issues arrived and how they were split over passes. -/
theorem Growth.partition_eq_components {s : Stores} (h : Growth s V) (server : String) :
    partition s.defects server =
        {B | ∃ C : (commitGraph s.builds V server).ConnectedComponent, B = Subtype.val '' C.supp} ∧
      Set.InjOn Defect.builds {d | d ∈ s.defects.onServer server ∧ d.isOpen = true} ∧
      ∀ s', Growth s' V → (∀ r ∈ V, s'.builds.find? r = s.builds.find? r) →
        partition s'.defects server = partition s.defects server := by
  refine ⟨h.components.partition_eq server, h.components.injOn_builds server, fun s' h' hsame => ?_⟩
  rw [h'.components.partition_eq, h.components.partition_eq, commitGraph_congr hsame]

/-- After the first pass there are two components, and a third build makes them one. -/
theorem Growth.partition_eq_components_bridging :
    ∃ s V, Growth s V ∧ s.defects.openDefects.map (fun d => d.memberRefs.map (·.build)) = [[1, 2, 3]] ∧
      partition s.defects "apache" =
        {B | ∃ C : (commitGraph s.builds V "apache").ConnectedComponent,
          B = Subtype.val '' C.supp} ∧
      Set.InjOn Defect.builds {d | d ∈ s.defects.onServer "apache" ∧ d.isOpen = true} ∧
      ∀ s', Growth s' V → (∀ r ∈ V, s'.builds.find? r = s.builds.find? r) →
        partition s'.defects "apache" = partition s.defects "apache" :=
  have hstart : Growth .empty ∅ := .start rfl fun _ _ h => by cases h
  have hfirst := (((hstart.putBuild (bridgeBuild 1 [firstChange]) rfl).putBuild
    (bridgeBuild 2 [secondChange]) rfl).saveIssue (bridgeIssue 1 "t1" none)).saveIssue
      (bridgeIssue 2 "t2" none)
  have hsecond := (hfirst.cluster .default bridgeTime).putBuild
    (bridgeBuild 3 [firstChange, secondChange]) (by decide +kernel)
  have hlast := (hsecond.saveIssue (bridgeIssue 3 "t3" none)).cluster .default bridgeTime
  ⟨_, _, hlast, by decide +kernel, Growth.partition_eq_components hlast "apache"⟩

end Clustering

end Triage
