import Triage.Proofs.Clustering.Ownership
import Triage.Proofs.Time

/-!
# Repeating a pass

What a pass writes for an issue is `Settled` from then on: the holder of its build has the issue and
a blame list, wherever the build has gone since.  The branch is not, because a defect that takes
others over does not take their branches.  So a second pass can do nothing but fill in branches, and
changes nothing exactly if no branch is missing (`Reachable.second_pass`).
-/

namespace Triage

namespace Clustering

open DefectStore

variable {s : DefectStore} {b b' : BuildSnapshot} {d e : Defect} {i i' : Issue}

/-! ### Holders -/

theorem supersededBy_of_rank_le {d d' : Defect} (h : rank d ≤ rank d')
    (hlive : d'.supersededBy = none) : d.supersededBy = none := by
  unfold rank at h
  rw [Prod.Lex.toLex_le_toLex, hlive] at h
  by_contra hd
  rw [← ne_eq, ← Option.isSome_iff_ne_none] at hd
  simp only [hd, Option.isSome_none, Bool.true_eq_false, false_and, or_false] at h
  exact absurd h (by decide)

theorem rank_le_of_superseded {d d' : Defect} (h : d.supersededBy = none)
    (h' : d'.supersededBy.isSome) : rank d ≤ rank d' := by
  unfold rank
  rw [Prod.Lex.toLex_le_toLex]
  simp [h, h']

/-- Among open defects the smaller id is preferred. -/
theorem rank_le_of_isOpen {d d' : Defect} (h : d.supersededBy = none)
    (h' : d'.supersededBy = none) (hopen : d.isOpen = true) (hopen' : d'.isOpen = true)
    (hid : d.id ≤ d'.id) : rank d ≤ rank d' := by
  unfold rank
  rw [Prod.Lex.toLex_le_toLex, Prod.Lex.toLex_le_toLex]
  simp [h, h', hopen, hopen', hid]

/-- Among superseded defects the smaller id is preferred. -/
theorem rank_le_iff_of_superseded (hs : s.WellFormed) {d d' : Defect} (hd : s.find? d.id = some d)
    (hd' : s.find? d'.id = some d') (h : d.supersededBy.isSome) (h' : d'.supersededBy.isSome) :
    rank d ≤ rank d' ↔ d.id ≤ d'.id := by
  unfold rank
  rw [Prod.Lex.toLex_le_toLex, Prod.Lex.toLex_le_toLex, h, h', hs.closed hd h, hs.closed hd' h']
  simp

theorem placement_eq_held_iff : placement b s = .held d ↔
    holder? b.build (s.onServer b.server) = some d := by
  unfold placement
  cases holder? b.build (s.onServer b.server) with
  | none => cases related b.fingerprint (s.onServer b.server) <;> simp
  | some e => simp

/-- A build that some defect has is held. -/
theorem exists_held (hs : s.WellFormed) (hd : s.find? d.id = some d) (hserver : d.server = b.server)
    (hb : d.hasBuild b.build = true) : ∃ e, placement b s = .held e := by
  have hspec := placement_spec hs b
  generalize placement b s = p at *
  cases hspec with
  | @held e => exact ⟨e, rfl⟩
  | joined unheld =>
    rw [unheld d hd hserver] at hb
    cases hb
  | started unheld =>
    rw [unheld d hd hserver] at hb
    cases hb

theorem held_spec (hs : s.WellFormed) (h : placement b s = .held d) :
    s.find? d.id = some d ∧ d.server = b.server ∧ d.hasBuild b.build = true ∧
      ∀ e, s.find? e.id = some e → e.server = b.server → e.hasBuild b.build = true →
        rank d ≤ rank e := by
  have hspec := placement_spec hs b
  rw [h] at hspec
  cases hspec with
  | held found server build least => exact ⟨found, server, build, least⟩

theorem held_of_least (hs : s.WellFormed) (hd : s.find? d.id = some d) (hserver : d.server = b.server)
    (hb : d.hasBuild b.build = true)
    (hle : ∀ e, s.find? e.id = some e → e.server = b.server → e.hasBuild b.build = true →
      rank d ≤ rank e) : placement b s = .held d := by
  refine placement_eq_held_iff.2 (holder?_of_least (hs.mem_onServer.2 ⟨hd, hserver⟩) hb ?_ ?_)
  · intro e he hid
    have hstored := (hs.mem_onServer.1 he).1
    rw [hid, hd] at hstored
    exact (Option.some.inj hstored).symm
  · intro e he heb
    obtain ⟨hstored, heserver⟩ := hs.mem_onServer.1 he
    exact hle e hstored heserver heb

/-- A defect that no other one took over holds its members. -/
theorem held_of_entry (hs : s.Sound) {m : DefectBuild} (he : s.Entry d m)
    (hserver : d.server = b.server) (hbuild : m.build = b.build) : placement b s = .held d := by
  have hb : d.hasBuild b.build = true := hbuild ▸ he.hasBuild
  obtain ⟨e, he'⟩ := exists_held hs.wellFormed he.stored hserver hb
  obtain ⟨hstored, hserver', hb', hle⟩ := held_spec hs.wellFormed he'
  have hlive := supersededBy_of_rank_le (hle d he.stored hserver hb) he.live
  have hsame := hs.exclusive.eq_of_hasBuild hs.wellFormed hstored hlive hb' he.stored he.live hb
    (hserver'.trans hserver.symm)
  rw [← hsame]
  exact he'

/-! ### Holders after a placement -/

/-- What the new holder of a build keeps of the old one. -/
structure Passed (b : BuildSnapshot) (d d' : Defect) : Prop where
  member {m : DefectBuild} : d.members.find? b.build = some m →
    ∃ m', d'.members.find? b.build = some m' ∧ m.Kept m'
  blame : d.blame ≠ [] → d'.blame ≠ []

theorem Grown.passed {d d' : Defect} (h : Grown d d') (b : BuildSnapshot) : Passed b d d' :=
  ⟨h.members, h.blame⟩

/-- Only superseded defects have the build. -/
def Orphaned (s : DefectStore) (b : BuildSnapshot) : Prop :=
  ∀ e, s.find? e.id = some e → e.server = b.server → e.hasBuild b.build = true →
    e.supersededBy.isSome

theorem orphaned_of_held (hs : s.WellFormed) (h : placement b s = .held d)
    (hsup : d.supersededBy.isSome) : Orphaned s b := by
  intro e he hserver hb
  by_contra hlive
  rw [Option.not_isSome_iff_eq_none] at hlive
  rw [supersededBy_of_rank_le ((held_spec hs h).2.2.2 e he hserver hb) hlive] at hsup
  cases hsup

/-- No build is placed with a new defect while a superseded one has it. -/
theorem orphaned_placed (hs : s.WellFormed) (ho : Orphaned s b') (h : placement b' s = .held d)
    (now : Timestamp) (i : Issue) (b : BuildSnapshot) : Orphaned (placed now i b s) b' := by
  obtain ⟨hd, hserver, hb, -⟩ := held_spec hs h
  intro e he heserver heb
  by_contra hlive
  rw [Option.not_isSome_iff_eq_none] at hlive
  obtain ⟨m, hm⟩ := Defect.find?_of_hasBuild heb
  have hw' := wellFormed_placed hs now i b
  have hbuild := hw'.members he _ _ hm
  rcases origin_placed hs (hw'.entry he hlive hm) with ⟨o, n, ho', -, hos, -, hk⟩ | ⟨hunheld, hf⟩
  · have hob : o.hasBuild b'.build = true := by
      rw [← hbuild, hk.build]
      exact ho'.hasBuild
    have hsup := ho o ho'.stored (hos.symm.trans heserver) hob
    rw [ho'.live] at hsup
    cases hsup
  · have hdb := hunheld d hd (by rw [hserver, ← heserver, hf.server])
    rw [← hf.build, hbuild, hb] at hdb
    cases hdb

/-- A superseded defect with a build that only superseded ones have had it before. -/
theorem Orphaned.before (hs : s.WellFormed) (ho : Orphaned s b') {now : Timestamp}
    (he : (placed now i b s).find? e.id = some e) (hserver : e.server = b'.server)
    (hb : e.hasBuild b'.build = true) (hsup : e.supersededBy.isSome) :
    ∃ o, s.find? o.id = some o ∧ o.id = e.id ∧ o.server = b'.server ∧
      o.hasBuild b'.build = true := by
  have hw' := wellFormed_placed hs now i b
  rcases stored_placed hs he with hes | ⟨o, rfl, -, hos, -⟩ | ⟨o, t, hos, hopen, rfl⟩
  · exact ⟨e, hes, rfl, hserver, hb⟩
  · have hstand := attached_sameStanding i b o
    rcases hos with ⟨hos, hob⟩ | hopen
    · refine ⟨o, hstand.id ▸ hos, hstand.id.symm, hstand.server.symm.trans hserver, ?_⟩
      obtain ⟨m', hm'⟩ := Defect.find?_of_hasBuild hb
      rcases mem_attached hm' with ⟨m, hm, -⟩ | ⟨hbb, -⟩
      · exact Defect.hasBuild_of_find? hm
      · rw [hbb]
        exact hob
    · have hclosed := hw'.closed he hsup
      rw [hstand.isOpen, hopen] at hclosed
      cases hclosed
  · -- an open defect that is taken over would have had the build
    rw [superseded_of_isOpen hopen] at hos hserver hb
    have hstored : s.find? o.id = some o := hos
    have hlive := ho o hstored hserver hb
    rw [hs.notSuperseded_of_isOpen hstored hopen] at hlive
    cases hlive

/-- A superseded defect is not taken over. -/
theorem into_of_superseded (hs : s.WellFormed) (b : BuildSnapshot) (hd : s.find? d.id = some d)
    (hsup : d.supersededBy.isSome) : (placement b s).into d.id = d.id := by
  have hspec := placement_spec hs b
  generalize placement b s = p at *
  cases hspec with
  | held => rfl
  | started => rfl
  | @joined target others unheld shares nodup =>
    have hid : d.id ∉ others := by
      intro hid
      obtain ⟨o, ho, -, hopen, -⟩ := (shares d.id).1 (List.mem_cons_of_mem _ hid)
      rw [hd] at ho
      cases ho
      rw [hs.closed hd hsup] at hopen
      cases hopen
    rw [Placement.into_joined, if_neg hid]

/-- A build that only superseded defects have stays with the same one. -/
theorem held_placed_of_superseded (hs : s.WellFormed) (now : Timestamp) (i : Issue)
    (b : BuildSnapshot) (h : placement b' s = .held d) (hsup : d.supersededBy.isSome) :
    ∃ d', placement b' (placed now i b s) = .held d' ∧ d'.id = d.id ∧ Grown d d' := by
  have hw' := wellFormed_placed hs now i b
  have ho := orphaned_of_held hs h hsup
  obtain ⟨hd, hserver, hb, hle⟩ := held_spec hs h
  obtain ⟨d', hd', hg⟩ := grown_placed hs now i hd (into_of_superseded hs b hd hsup)
  have hid : d'.id = d.id := hg.standing.id
  rw [← hid] at hd'
  have hserver' : d'.server = b'.server := hg.standing.server.trans hserver
  have hb' : d'.hasBuild b'.build = true := hg.hasBuild hb
  obtain ⟨e, he⟩ := exists_held hw' hd' hserver' hb'
  obtain ⟨hes, heserver, heb, hele⟩ := held_spec hw' he
  have hesup := orphaned_placed hs ho h now i b e hes heserver heb
  have hsup' : d'.supersededBy.isSome := hg.standing.supersededBy ▸ hsup
  obtain ⟨o, hos, hoid, hoserver, hob⟩ := ho.before hs hes heserver heb hesup
  have hde : d.id ≤ o.id :=
    (rank_le_iff_of_superseded hs hd hos hsup (ho o hos hoserver hob)).1 (hle o hos hoserver hob)
  have hed : e.id ≤ d'.id :=
    (rank_le_iff_of_superseded hw' hes hd' hesup hsup').1 (hele d' hd' hserver' hb')
  have heq : e.id = d'.id := le_antisymm hed (by rw [hid, ← hoid]; exact hde)
  rw [heq, hd'] at hes
  cases hes
  exact ⟨d', he, hid, hg⟩

/-- The new holder of a build is the defect that the members of the old one have gone to. -/
theorem held_placed (hs : s.Sound) (now : Timestamp) (i : Issue) (b : BuildSnapshot)
    (h : placement b' s = .held d) :
    ∃ d', placement b' (placed now i b s) = .held d' ∧ d'.id = (placement b s).into d.id ∧
      Passed b' d d' ∧ ((placement b s).into d.id = d.id → Grown d d') := by
  have hw := hs.wellFormed
  obtain ⟨hd, hserver, hb, -⟩ := held_spec hw h
  cases hsup : d.supersededBy with
  | some t =>
    have hsome : d.supersededBy.isSome := by rw [hsup]; rfl
    obtain ⟨d', hd', hid, hg⟩ := held_placed_of_superseded hw now i b h hsome
    refine ⟨d', hd', ?_, hg.passed b', fun _ => hg⟩
    rw [into_of_superseded hw b hd hsome]
    exact hid
  | none =>
    obtain ⟨m, hm⟩ := Defect.find?_of_hasBuild hb
    have he := hw.entry hd hsup hm
    have hbuild := hw.members hd _ _ hm
    obtain ⟨d', m', he', hid, hserver', hk, hblame, hg⟩ := fate_placed hw hs.exclusive now i he
    refine ⟨d', ?_, hid, ⟨fun {n} hn => ?_, hblame⟩, hg⟩
    · exact held_of_entry (sound_placed hs now i b) he' (hserver'.trans hserver)
        (hk.build.trans hbuild)
    · rw [hm] at hn
      cases hn
      have hm' := he'.member
      rw [hk.build, hbuild] at hm'
      exact ⟨m', hm', hk⟩

/-! ### Settled issues -/

/-- For an issue of the build, nothing but the branch is left to write. -/
structure SettledIn (i : Issue) (b : BuildSnapshot) (d : Defect) : Prop where
  issue : ∃ m, d.members.find? b.build = some m ∧ m.hasIssue i.type i.key.name = true
  blame : d.blame ≠ [] ∨ b.blameCandidates = []

def Settled (i : Issue) (b : BuildSnapshot) (s : DefectStore) : Prop :=
  ∃ d, placement b s = .held d ∧ SettledIn i b d

theorem SettledIn.passed {d d' : Defect} (h : SettledIn i b d) (hp : Passed b d d') :
    SettledIn i b d' := by
  obtain ⟨m, hm, hi⟩ := h.issue
  obtain ⟨m', hm', hk⟩ := hp.member hm
  exact ⟨⟨m', hm', hk.issues _ _ hi⟩, h.blame.imp_left hp.blame⟩

theorem settledIn_attached (i : Issue) (b : BuildSnapshot) (d : Defect) :
    SettledIn i b (attached i b d) := by
  refine ⟨⟨_, (find?_attached i b d b.build).trans (if_pos rfl), ?_⟩, ?_⟩
  · exact Defect.hasIssue_withIssue_self (defectIssue i) _
  · rw [blame_attached]
    by_cases hd : d.blame = []
    · rw [if_pos hd]
      exact (eq_or_ne b.blameCandidates []).symm
    · rw [if_neg hd]
      exact .inl hd

/-- The defect that a build is placed in holds it. -/
theorem placement_placed_self (hs : s.Sound) (now : Timestamp) (i : Issue) (b : BuildSnapshot) :
    ∃ e, placement b (placed now i b s) = .held (attached i b e) := by
  have hw' := wellFormed_placed hs.wellFormed now i b
  obtain ⟨e, he, hserver, hheld | hopen⟩ := home_placed hs.wellFormed now i b
  · obtain ⟨d', hd', hid, -⟩ := held_placed hs now i b hheld
    have hstored := (held_spec hw' hd').1
    rw [hheld] at hid he
    have hsame : d'.id = e.id := hid
    have hhome : (placed now i b s).find? e.id = some (attached i b e) := he
    rw [hsame, hhome] at hstored
    exact ⟨e, by rw [hd', Option.some.inj hstored]⟩
  · have hstand := attached_sameStanding i b e
    have hm := (find?_attached i b e b.build).trans (if_pos rfl)
    have hlive := hw'.notSuperseded_of_isOpen he (hstand.isOpen.trans hopen)
    exact ⟨e, held_of_entry (sound_placed hs now i b) (hw'.entry he hlive hm)
      (hstand.server.trans hserver) (hw'.members he _ _ hm)⟩

theorem settled_placed_self (hs : s.Sound) (now : Timestamp) (i : Issue) (b : BuildSnapshot) :
    Settled i b (placed now i b s) := by
  obtain ⟨e, he⟩ := placement_placed_self hs now i b
  exact ⟨_, he, settledIn_attached i b e⟩

theorem Settled.place (h : Settled i' b' s) (hs : s.Sound) (now : Timestamp) (i : Issue)
    (b : BuildSnapshot) : Settled i' b' (placed now i b s) := by
  obtain ⟨d, hd, hset⟩ := h
  obtain ⟨d', hd', -, hp, -⟩ := held_placed hs now i b hd
  exact ⟨d', hd', hset.passed hp⟩

/-- Attaching a settled issue once more fills in the branch at most. -/
theorem attach_of_settledIn (h : SettledIn i b d) :
    attach i b d = (d.trackedBranch.isNone && i.trackedBranch.isSome,
      { d with trackedBranch := d.trackedBranch.or i.trackedBranch }) := by
  obtain ⟨⟨m, hm, hi⟩, hblame⟩ := h
  have hadd : d.addBuild (.ofSnapshot b) = (false, d) :=
    Defect.addBuild_of_hasBuild (Defect.hasBuild_of_find? hm)
  have hattach : d.attachIssue b.build (defectIssue i) = (false, d) :=
    Defect.attachIssue_of_hasIssue hm hi
  have hflag : (d.blame.isEmpty && !b.blameCandidates.isEmpty) = false := by
    rcases hblame with h | h <;> simp [h]
  have hsame : (if d.blame = [] then b.blameCandidates else d.blame) = d.blame := by
    rcases hblame with h | h
    · rw [if_neg h]
    · by_cases hd : d.blame = [] <;> simp [hd, h]
  unfold attach
  simp only [hadd, hattach, fillBranch_fst, fillBranch_snd, fillBlame_fst, fillBlame_snd]
  rw [hflag, hsame]
  simp

/-! ### The first pass -/

section Pass

variable {now : Timestamp} {builds : OrderedMap BuildRef BuildSnapshot}
  {acc : Report × DefectStore}

theorem sound_passStep (hs : acc.2.Sound) (now : Timestamp)
    (builds : OrderedMap BuildRef BuildSnapshot) (i : Issue) :
    (passStep now builds acc i).2.Sound := by
  unfold passStep
  cases builds.find? i.key.ref with
  | none => exact hs
  | some b => exact sound_placed hs now i b

theorem Settled.passStep (h : Settled i' b' acc.2) (hs : acc.2.Sound) (now : Timestamp)
    (builds : OrderedMap BuildRef BuildSnapshot) (i : Issue) :
    Settled i' b' (passStep now builds acc i).2 := by
  unfold Clustering.passStep
  cases builds.find? i.key.ref with
  | none => exact h
  | some b => exact h.place hs now i b

/-- What the step for an issue brings about and the other steps keep holds after the pass. -/
theorem foldl_of_mem {P : Report × DefectStore → Prop}
    (hself : ∀ acc, acc.2.Sound → P (passStep now builds acc i))
    (hkeep : ∀ acc j, acc.2.Sound → P acc → P (passStep now builds acc j)) :
    ∀ (is : List Issue) (acc : Report × DefectStore), acc.2.Sound → (i ∈ is ∨ P acc) →
      P (is.foldl (passStep now builds) acc)
  | [], _, _, h => h.resolve_left List.not_mem_nil
  | j :: is, acc, hs, h => by
    refine foldl_of_mem hself hkeep is _ (sound_passStep hs now builds j) ?_
    rcases h with h | h
    · rcases List.mem_cons.1 h with rfl | h
      · exact .inr (hself acc hs)
      · exact .inl h
    · exact .inr (hkeep acc j hs h)

theorem settled_foldl (hb : builds.find? i.key.ref = some b) (is : List Issue) (hi : i ∈ is)
    (hs : acc.2.Sound) : Settled i b (is.foldl (passStep now builds) acc).2 := by
  refine foldl_of_mem (P := fun acc => Settled i b acc.2) ?_ ?_ is acc hs (.inl hi)
  · intro acc hs
    rw [passStep_of_some hb]
    exact settled_placed_self hs now i b
  · intro acc j hs h
    exact h.passStep hs now builds j

/-- The issue has no branch or its build is held by a defect with a branch. -/
def Branched (i : Issue) (b : BuildSnapshot) (s : DefectStore) : Prop :=
  ∃ d, placement b s = .held d ∧ (i.trackedBranch.isSome → d.trackedBranch.isSome)

theorem branched_placed_self (hs : s.Sound) (now : Timestamp) (i : Issue) (b : BuildSnapshot) :
    Branched i b (placed now i b s) := by
  obtain ⟨e, he⟩ := placement_placed_self hs now i b
  refine ⟨_, he, fun hi => ?_⟩
  rw [trackedBranch_attached, Option.isSome_or, hi, Bool.or_true]

/-- A placement that takes no defect over counts none. -/
theorem into_of_count {r : Report} (p : Placement)
    (h : (p.count i b r).superseded = r.superseded) (id : Nat) : p.into id = id := by
  cases p with
  | held => rfl
  | started => rfl
  | joined target others =>
    have hlen : r.superseded + others.length = r.superseded := h
    have hnil : others = [] := List.length_eq_zero_iff.1 (by omega)
    rw [Placement.into_joined, hnil, if_neg List.not_mem_nil]

theorem superseded_le_count (p : Placement) (i : Issue) (b : BuildSnapshot) (r : Report) :
    r.superseded ≤ (p.count i b r).superseded := by
  cases p with
  | held d => cases hf : (attach i b d).1 <;> simp [Placement.count_held, hf]
  | joined target others => exact Nat.le_add_right _ _
  | started => exact le_rfl

theorem Branched.place (h : Branched i' b' s) (hs : s.Sound)
    (hinto : ∀ id, (placement b s).into id = id) (now : Timestamp) (i : Issue) :
    Branched i' b' (placed now i b s) := by
  obtain ⟨d, hd, hbranch⟩ := h
  obtain ⟨d', hd', -, -, hg⟩ := held_placed hs now i b hd
  exact ⟨d', hd', fun hi => (hg (hinto d.id)).branch (hbranch hi)⟩

/-- Branches stay filled in as long as no defect is taken over. -/
theorem branched_foldl (hb : builds.find? i.key.ref = some b) (is : List Issue) (hi : i ∈ is)
    (hs : acc.2.Sound) (h : (is.foldl (passStep now builds) acc).1.superseded = 0) :
    Branched i b (is.foldl (passStep now builds) acc).2 := by
  refine foldl_of_mem (P := fun acc => acc.1.superseded = 0 → Branched i b acc.2) ?_ ?_ is acc hs
    (.inl hi) h
  · intro acc hs _
    rw [passStep_of_some hb]
    exact branched_placed_self hs now i b
  · intro acc j hs hkeep
    unfold passStep
    cases builds.find? j.key.ref with
    | none => exact hkeep
    | some c =>
      intro hzero
      have hle := superseded_le_count (placement c acc.2) j c
        { acc.1 with checked := acc.1.checked + 1 }
      have hacc : acc.1.superseded = 0 := Nat.le_zero.1 (hle.trans (le_of_eq hzero))
      exact (hkeep hacc).place hs (into_of_count _ (hzero.trans hacc.symm)) now j

end Pass

/-! ### The second pass -/

/-- From one state of a pass to another, branches are filled in and nothing else happens. -/
structure FillsBranches (acc acc' : Report × DefectStore) : Prop where
  created : acc'.1.created = acc.1.created
  superseded : acc'.1.superseded = acc.1.superseded
  updated : acc.1.updated ≤ acc'.1.updated
  lastId : acc'.2.lastId = acc.2.lastId
  branches (id : Nat) : ∃ branch, acc'.2.find? id =
    (acc.2.find? id).map fun d => { d with trackedBranch := d.trackedBranch.or branch }

/-- The issues that have a branch have gone to defects that have one. -/
def BranchesFilled (builds : OrderedMap BuildRef BuildSnapshot) (is : List Issue)
    (s : DefectStore) : Prop :=
  ∀ i ∈ is, ∀ b, builds.find? i.key.ref = some b → i.trackedBranch.isSome = true →
    ∀ d, holder? b.build (s.onServer b.server) = some d → d.trackedBranch.isSome = true

section Second

variable {now : Timestamp} {builds : OrderedMap BuildRef BuildSnapshot}
  {acc acc' acc'' : Report × DefectStore}

theorem FillsBranches.of_eq (hc : acc'.1.created = acc.1.created)
    (hs : acc'.1.superseded = acc.1.superseded) (hu : acc'.1.updated = acc.1.updated)
    (hd : acc'.2 = acc.2) : FillsBranches acc acc' := by
  refine ⟨hc, hs, hu.ge, by rw [hd], fun id => ⟨none, ?_⟩⟩
  rw [hd]
  cases acc.2.find? id <;> simp

theorem FillsBranches.trans (h : FillsBranches acc acc') (h' : FillsBranches acc' acc'') :
    FillsBranches acc acc'' := by
  refine ⟨h'.created.trans h.created, h'.superseded.trans h.superseded, h.updated.trans h'.updated,
    h'.lastId.trans h.lastId, fun id => ?_⟩
  obtain ⟨branch, hb⟩ := h.branches id
  obtain ⟨branch', hb'⟩ := h'.branches id
  refine ⟨branch.or branch', ?_⟩
  rw [hb', hb]
  cases acc.2.find? id <;> simp [Option.or_assoc]

/-- The step for a settled issue fills in the branch of the holder, if it is missing. -/
theorem passStep_of_settledIn (hs : acc.2.WellFormed) (hb : builds.find? i.key.ref = some b)
    (hd : placement b acc.2 = .held d) (hset : SettledIn i b d) :
    passStep now builds acc i =
      (if d.trackedBranch.isNone && i.trackedBranch.isSome then
          { acc.1 with checked := acc.1.checked + 1, updated := acc.1.updated + 1 }
        else { acc.1 with checked := acc.1.checked + 1 },
        acc.2.alter d.id fun d => { d with trackedBranch := d.trackedBranch.or i.trackedBranch }) := by
  have hstore : placed now i b acc.2 =
      acc.2.alter d.id fun d => { d with trackedBranch := d.trackedBranch.or i.trackedBranch } := by
    unfold placed
    rw [hd]
    refine alter_congr fun e he => ?_
    rw [(held_spec hs hd).1] at he
    cases he
    unfold attached
    rw [attach_of_settledIn hset]
  rw [passStep_of_some hb, hd, hstore, Placement.count_held, attach_of_settledIn hset]

theorem fillsBranches_passStep (hs : acc.2.WellFormed)
    (hset : ∀ b, builds.find? i.key.ref = some b → Settled i b acc.2) :
    FillsBranches acc (passStep now builds acc i) := by
  cases hb : builds.find? i.key.ref with
  | none =>
    rw [passStep_of_none hb]
    exact .of_eq rfl rfl rfl rfl
  | some b =>
    obtain ⟨d, hd, hin⟩ := hset b hb
    rw [passStep_of_settledIn hs hb hd hin]
    refine ⟨?_, ?_, ?_, rfl, fun id => ?_⟩
    · split <;> rfl
    · split <;> rfl
    · split
      · exact Nat.le_succ _
      · exact le_rfl
    · by_cases hid : d.id = id
      · exact ⟨i.trackedBranch, by rw [find?_alter, if_pos hid]⟩
      · refine ⟨none, ?_⟩
        rw [find?_alter, if_neg hid]
        cases acc.2.find? id <;> simp

/-- The step for a settled issue whose branch is not missing. -/
theorem passStep_of_filled (hs : acc.2.WellFormed) (hb : builds.find? i.key.ref = some b)
    (hset : Settled i b acc.2)
    (hfilled : i.trackedBranch.isSome = true → ∀ d, placement b acc.2 = .held d →
      d.trackedBranch.isSome = true) :
    passStep now builds acc i = ({ acc.1 with checked := acc.1.checked + 1 }, acc.2) := by
  obtain ⟨d, hd, hin⟩ := hset
  have hflag : (d.trackedBranch.isNone && i.trackedBranch.isSome) = false := by
    cases hi : i.trackedBranch.isSome with
    | false => exact Bool.and_false _
    | true => simp [Option.isNone_eq_false_iff.2 (hfilled hi d hd)]
  rw [passStep_of_settledIn hs hb hd hin, hflag, alter_eq_self]
  · rfl
  · intro e he
    rw [(held_spec hs hd).1] at he
    cases he
    have hor : d.trackedBranch.or i.trackedBranch = d.trackedBranch := by
      cases hbranch : d.trackedBranch with
      | some branch => rfl
      | none =>
        rw [hbranch] at hflag
        cases hi : i.trackedBranch with
        | none => rfl
        | some branch => simp [hi] at hflag
    rw [hor]

/-- The step for a settled issue whose branch is missing. -/
theorem updated_passStep_of_missing (hs : acc.2.WellFormed)
    (hb : builds.find? i.key.ref = some b) (hset : Settled i b acc.2)
    (hi : i.trackedBranch.isSome = true) (hd : placement b acc.2 = .held d)
    (hmissing : d.trackedBranch = none) :
    (passStep now builds acc i).1.updated = acc.1.updated + 1 := by
  obtain ⟨e, he, hin⟩ := hset
  rw [hd] at he
  cases he
  rw [passStep_of_settledIn hs hb hd hin, hmissing, hi]
  rfl

theorem branchesFilled_cons (is : List Issue) (s : DefectStore) :
    BranchesFilled builds (i :: is) s ↔
      (∀ b, builds.find? i.key.ref = some b → i.trackedBranch.isSome = true →
        ∀ d, placement b s = .held d → d.trackedBranch.isSome = true) ∧
      BranchesFilled builds is s := by
  unfold BranchesFilled
  rw [List.forall_mem_cons]
  simp only [placement_eq_held_iff]

/-- A pass over settled issues fills in branches, and does nothing exactly if none is missing. -/
theorem foldl_settled (now : Timestamp) :
    ∀ (is : List Issue) (acc : Report × DefectStore), acc.2.Sound →
      (∀ i ∈ is, ∀ b, builds.find? i.key.ref = some b → Settled i b acc.2) →
      FillsBranches acc (is.foldl (passStep now builds) acc) ∧
        ((is.foldl (passStep now builds) acc).2 = acc.2 ∧
            (is.foldl (passStep now builds) acc).1.updated = acc.1.updated ↔
          BranchesFilled builds is acc.2)
  | [], acc, _, _ =>
    ⟨.of_eq rfl rfl rfl rfl, fun _ _ hi => absurd hi List.not_mem_nil, fun _ => ⟨rfl, rfl⟩⟩
  | i :: is, acc, hs, hset => by
    have hw := hs.wellFormed
    have hi := hset i List.mem_cons_self
    have hstep : FillsBranches acc (passStep now builds acc i) := fillsBranches_passStep hw hi
    have hrest : ∀ j ∈ is, ∀ b, builds.find? j.key.ref = some b →
        Settled j b (passStep now builds acc i).2 := fun j hj b hb =>
      (hset j (List.mem_cons_of_mem _ hj) b hb).passStep hs now builds i
    obtain ⟨hfills, hiff⟩ := foldl_settled now is _ (sound_passStep hs now builds i) hrest
    rw [List.foldl_cons, branchesFilled_cons]
    refine ⟨hstep.trans hfills, ?_⟩
    by_cases hfilled : ∀ b, builds.find? i.key.ref = some b → i.trackedBranch.isSome = true →
        ∀ d, placement b acc.2 = .held d → d.trackedBranch.isSome = true
    · -- the step does nothing
      have hsame : (passStep now builds acc i).2 = acc.2 ∧
          (passStep now builds acc i).1.updated = acc.1.updated := by
        cases hb : builds.find? i.key.ref with
        | none =>
          rw [passStep_of_none hb]
          exact ⟨rfl, rfl⟩
        | some b =>
          rw [passStep_of_filled hw hb (hi b hb) (hfilled b hb)]
          exact ⟨rfl, rfl⟩
      rw [hsame.1, hsame.2] at hiff
      rw [hiff]
      exact ⟨fun h => ⟨hfilled, h⟩, fun h => h.2⟩
    · -- the step counts an update, which no later one takes back
      refine ⟨fun h => ?_, fun h => absurd h.1 hfilled⟩
      push Not at hfilled
      obtain ⟨b, hb, hbranch, d, hd, hmissing⟩ := hfilled
      have hone : (passStep now builds acc i).1.updated = acc.1.updated + 1 :=
        updated_passStep_of_missing hw hb (hi b hb) hbranch hd (by simpa using hmissing)
      have hle := hfills.updated
      omega

end Second

/-! ### Windows -/

theorem recent_congr {s s' : Stores} (h : s'.issues = s.issues) (cfg : ClusteringConfig)
    (now : Timestamp) : recent cfg now s' = recent cfg now s := by
  unfold recent
  generalize now.minusDays cfg.lookbackDays = t
  cases t with
  | ok since => exact congrArg (fun is => is.all.filter fun i => since ≤ i.detectedAt) h
  | error o => rfl

/-- A later pass looks at no issue that an earlier one did not look at. -/
theorem mem_recent_of_later {cfg : ClusteringConfig} {now now' since since' : Timestamp}
    {s : Stores} (h : now ≤ now') (hs : now.minusDays cfg.lookbackDays = .ok since)
    (hs' : now'.minusDays cfg.lookbackDays = .ok since') {i : Issue}
    (hi : i ∈ recent cfg now' s) : i ∈ recent cfg now s := by
  rw [recent_of_ok hs'] at hi
  rw [recent_of_ok hs]
  obtain ⟨hmem, hsince'⟩ := List.mem_filter.1 hi
  have hle := Timestamp.minusDays_le h hs hs'
  have hsince : since ≤ i.detectedAt := by
    have h' := Timestamp.le_iff.1 (of_decide_eq_true hsince')
    rw [Timestamp.le_iff] at hle ⊢
    omega
  exact List.mem_filter.2 ⟨hmem, decide_eq_true hsince⟩

/-! ### Main result -/

theorem withDefects_fields {s s' : Stores} {ds : DefectStore} (h : { s with defects := ds } = s') :
    s'.defects = ds ∧ s'.builds = s.builds ∧ s'.issues = s.issues := by
  subst h
  exact ⟨rfl, rfl, rfl⟩

theorem withDefects_eq_self {s : Stores} {ds : DefectStore} :
    { s with defects := ds } = s ↔ ds = s.defects := by
  cases s
  simp

/-- What a pass that gives a report has done. -/
theorem outcome_of_exec {s s' : Stores} (hs : s.defects.WellFormed) {cfg : ClusteringConfig}
    {now : Timestamp} {r : Report} (h : (cluster cfg now).exec s = (.ok r, s')) :
    (∃ since, now.minusDays cfg.lookbackDays = .ok since) ∧ (outcome cfg now s).1 = r ∧
      s'.defects = (outcome cfg now s).2 ∧ s'.builds = s.builds ∧ s'.issues = s.issues := by
  cases hsince : now.minusDays cfg.lookbackDays with
  | error o =>
    rw [exec_cluster_of_error hsince] at h
    cases h
  | ok since =>
    rw [exec_cluster_of_ok hs hsince] at h
    obtain ⟨hr, hs'⟩ := Prod.mk.inj h
    exact ⟨⟨since, rfl⟩, Except.ok.inj hr, withDefects_fields hs'⟩

/-- The outcome of a pass that fills in branches, in terms of the stores. -/
theorem fillsBranches_exec {s : Stores} {x : Except Failure Report × Stores}
    {a : Report × DefectStore} {P : Prop} (hx : x = (.ok a.1, { s with defects := a.2 }))
    (hfills : FillsBranches (.empty, s.defects) a)
    (hiff : a.2 = s.defects ∧ a.1.updated = 0 ↔ P) :
    ∃ r s', x = (.ok r, s') ∧ r.created = 0 ∧ r.superseded = 0 ∧
      (∀ id, ∃ branch, s'.defects.find? id =
        (s.defects.find? id).map fun d => { d with trackedBranch := d.trackedBranch.or branch }) ∧
      (s' = s ∧ r.updated = 0 ↔ P) := by
  refine ⟨a.1, _, hx, hfills.created, hfills.superseded, hfills.branches, ?_⟩
  rw [withDefects_eq_self]
  exact hiff

/-- A pass over settled issues. -/
theorem exec_cluster_of_settled {s : Stores} (hs : s.defects.Sound) {cfg : ClusteringConfig}
    {now since : Timestamp} (hwindow : now.minusDays cfg.lookbackDays = .ok since)
    (hset : ∀ i ∈ recent cfg now s, ∀ b, s.builds.find? i.key.ref = some b →
      Settled i b s.defects) :
    ∃ r s', (cluster cfg now).exec s = (.ok r, s') ∧ r.created = 0 ∧ r.superseded = 0 ∧
      (∀ id, ∃ branch, s'.defects.find? id =
        (s.defects.find? id).map fun d => { d with trackedBranch := d.trackedBranch.or branch }) ∧
      (s' = s ∧ r.updated = 0 ↔ BranchesFilled s.builds (recent cfg now s) s.defects) := by
  obtain ⟨hfills, hiff⟩ := foldl_settled now (recent cfg now s) (.empty, s.defects) hs hset
  exact fillsBranches_exec (exec_cluster_of_ok hs.wellFormed hwindow) hfills hiff

end Clustering

open Clustering

/-- A pass that finds the issues and snapshots of an earlier one creates and takes over no defect and
writes nothing but missing branches.  It writes nothing at all exactly if every recent issue with a
branch has gone to a defect with a branch, which is so unless the earlier pass took defects over. -/
theorem Reachable.second_pass {s s₁ : Stores} (hr : Reachable s) {cfg : ClusteringConfig}
    {now now' since' : Timestamp} {r : Report} (hfirst : (cluster cfg now).exec s = (.ok r, s₁))
    (hlater : now ≤ now') (hwindow : now'.minusDays cfg.lookbackDays = .ok since') :
    ∃ r' s₂, (cluster cfg now').exec s₁ = (.ok r', s₂) ∧
      r'.created = 0 ∧ r'.superseded = 0 ∧
      (∀ id, ∃ branch, s₂.defects.find? id =
        (s₁.defects.find? id).map fun d => { d with trackedBranch := d.trackedBranch.or branch }) ∧
      (s₂ = s₁ ∧ r'.updated = 0 ↔
        BranchesFilled s₁.builds (recent cfg now' s₁) s₁.defects) ∧
      (r.superseded = 0 → BranchesFilled s₁.builds (recent cfg now' s₁) s₁.defects) := by
  have hs := hr.sound
  obtain ⟨⟨since, hsince⟩, hreport, hdefects, hbuilds, hissues⟩ := outcome_of_exec hs.wellFormed hfirst
  have hs₁ : s₁.defects.Sound := hdefects ▸ sound_outcome hs cfg now
  have hwindows : ∀ i ∈ recent cfg now' s₁, i ∈ recent cfg now s := by
    intro i hi
    rw [recent_congr hissues] at hi
    exact mem_recent_of_later hlater hsince hwindow hi
  have hset : ∀ i ∈ recent cfg now' s₁, ∀ b, s₁.builds.find? i.key.ref = some b →
      Settled i b s₁.defects := by
    intro i hi b hb
    rw [hbuilds] at hb
    rw [hdefects]
    exact settled_foldl hb _ (hwindows i hi) hs
  obtain ⟨r', s₂, hexec, hcreated, hsuperseded, hbranches, hiff⟩ :=
    exec_cluster_of_settled hs₁ hwindow hset
  refine ⟨r', s₂, hexec, hcreated, hsuperseded, hbranches, hiff, fun hzero i hi b hb hbranch d hd => ?_⟩
  rw [← hreport] at hzero
  rw [hbuilds] at hb
  have hbranched : Branched i b (outcome cfg now s).2 := branched_foldl hb _ (hwindows i hi) hs hzero
  rw [← hdefects] at hbranched
  obtain ⟨e, he, hfilled⟩ := hbranched
  rw [placement_eq_held_iff, hd] at he
  cases he
  exact hfilled hbranch

/-- With one build there is nothing to take over. -/
theorem Reachable.second_pass_alone :
    ∃ s s₁ r r' s₂, Reachable s ∧ (cluster .default bridgeTime).exec s = (.ok r, s₁) ∧
      r.created = 1 ∧ (cluster .default bridgeTime).exec s₁ = (.ok r', s₂) ∧ s₂ = s₁ ∧
      r'.updated = 0 := by
  have hr := Reachable.empty.runAll
    [.putBuild (bridgeBuild 1 [firstChange]), .saveIssue (bridgeIssue 1 "t1" (some "master"))]
  have hwindow : bridgeTime.minusDays ClusteringConfig.default.lookbackDays =
      .ok ⟨1698790400, 0⟩ := by decide +kernel
  have hfirst := exec_cluster_of_ok hr.sound.wellFormed hwindow
  obtain ⟨r', s₂, hexec, -, -, -, hiff, hzero⟩ :=
    Reachable.second_pass hr hfirst (by decide) hwindow
  have hsame := hiff.2 (hzero (by decide +kernel))
  exact ⟨_, _, _, r', s₂, hr, hfirst, by decide +kernel, hexec, hsame⟩

/-- A pass is not idempotent: once a third build has bridged two others, a second pass finds that
the branch of the second issue is missing from the defect that took its build over. -/
theorem Reachable.second_pass_bridging :
    ¬ ∀ (s s₁ s₂ : Stores) (cfg : ClusteringConfig) (now now' : Timestamp) (r r' : Report),
      Reachable s → (cluster cfg now).exec s = (.ok r, s₁) → now ≤ now' →
        (cluster cfg now').exec s₁ = (.ok r', s₂) →
          s₂.defects = s₁.defects ∧ r'.created = 0 ∧ r'.updated = 0 ∧ r'.superseded = 0 := by
  intro h
  have hr := Reachable.empty.runAll bridging
  have hwindow : bridgeTime.minusDays ClusteringConfig.default.lookbackDays =
      .ok ⟨1698790400, 0⟩ := by decide +kernel
  have hfirst := exec_cluster_of_ok hr.sound.wellFormed hwindow
  have hsound :=
    (sound_outcome hr.sound .default bridgeTime).stored (Operation.runAll bridging .empty)
  have hsecond := exec_cluster_of_ok hsound.wellFormed hwindow
  have hzero := (h _ _ _ _ _ _ _ _ hr hfirst (by decide) hsecond).2.2.1
  exact absurd hzero (by decide +kernel)

end Triage
