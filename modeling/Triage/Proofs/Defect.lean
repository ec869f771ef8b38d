import Triage.Clustering
import Triage.Proofs.Ordered

/-!
# What clustering does to one defect

`attach`, `absorb` and `supersede` are described by what they do to the look-ups of the members and
to the other fields, and each of them leaves a defect as it is when it reports no change.
-/

namespace Triage

open Clustering

/-- Everything but the members, the branch and the blame list is the same. -/
structure Defect.SameStanding (d d' : Defect) : Prop where
  id : d'.id = d.id
  server : d'.server = d.server
  createdAt : d'.createdAt = d.createdAt
  resolvedAt : d'.resolvedAt = d.resolvedAt
  resolvedBy : d'.resolvedBy = d.resolvedBy
  supersededBy : d'.supersededBy = d.supersededBy
  consistency : d'.consistency = d.consistency

namespace Defect

theorem SameStanding.refl (d : Defect) : SameStanding d d := ⟨rfl, rfl, rfl, rfl, rfl, rfl, rfl⟩

theorem SameStanding.trans {d d' d'' : Defect} (h : SameStanding d d') (h' : SameStanding d' d'') :
    SameStanding d d'' :=
  ⟨h'.id.trans h.id, h'.server.trans h.server, h'.createdAt.trans h.createdAt,
    h'.resolvedAt.trans h.resolvedAt, h'.resolvedBy.trans h.resolvedBy,
    h'.supersededBy.trans h.supersededBy, h'.consistency.trans h.consistency⟩

theorem SameStanding.isOpen {d d' : Defect} (h : SameStanding d d') : d'.isOpen = d.isOpen := by
  unfold Defect.isOpen
  rw [h.resolvedAt]

theorem hasBuild_eq_isSome (d : Defect) (k : Nat) : d.hasBuild k = (d.members.find? k).isSome :=
  OrderedMap.contains_eq_isSome d.members k

theorem hasBuild_of_find? {d : Defect} {k : Nat} {m : DefectBuild} (h : d.members.find? k = some m) :
    d.hasBuild k = true := by
  rw [hasBuild_eq_isSome, h]
  rfl

theorem find?_of_hasBuild {d : Defect} {k : Nat} (h : d.hasBuild k = true) :
    ∃ m, d.members.find? k = some m :=
  Option.isSome_iff_exists.1 (by rwa [hasBuild_eq_isSome] at h)

/-! ### Adding a build -/

theorem addBuild_snd (d : Defect) (b : DefectBuild) :
    (d.addBuild b).2 = { d with members := (d.addBuild b).2.members } := by
  unfold addBuild
  split <;> rfl

theorem find?_addBuild (d : Defect) (b : DefectBuild) (k : Nat) :
    (d.addBuild b).2.members.find? k =
      (d.members.find? k).or (if k = b.build then some b else none) := by
  unfold addBuild
  split
  · rename_i h
    obtain ⟨m, hm⟩ := find?_of_hasBuild h
    by_cases hk : k = b.build
    · simp [hk, hm]
    · simp [hk]
  · rename_i h
    rw [hasBuild_eq_isSome, Option.not_isSome_iff_eq_none] at h
    simp only [OrderedMap.find?_insert]
    by_cases hk : k = b.build
    · simp [hk, h]
    · simp [hk, Ne.symm hk]

theorem addBuild_eq_of_unchanged {d : Defect} {b : DefectBuild} (h : (d.addBuild b).1 = false) :
    (d.addBuild b).2 = d := by
  unfold addBuild at h ⊢
  split at h <;> simp_all

theorem addBuild_of_hasBuild {d : Defect} {b : DefectBuild} (h : d.hasBuild b.build = true) :
    d.addBuild b = (false, d) := by
  unfold addBuild
  rw [if_pos h]

/-! ### Attaching an issue -/

/-- A member with an issue added, unless it has one of the type and test already. -/
def withIssue (issue : DefectIssue) (m : DefectBuild) : DefectBuild :=
  if m.hasIssue issue.type issue.test then m else { m with issues := m.issues ++ [issue] }

@[simp] theorem withIssue_build (issue : DefectIssue) (m : DefectBuild) :
    (withIssue issue m).build = m.build := by
  unfold withIssue
  split <;> rfl

@[simp] theorem withIssue_fingerprint (issue : DefectIssue) (m : DefectBuild) :
    (withIssue issue m).fingerprint = m.fingerprint := by
  unfold withIssue
  split <;> rfl

theorem hasIssue_withIssue_self (issue : DefectIssue) (m : DefectBuild) :
    (withIssue issue m).hasIssue issue.type issue.test = true := by
  unfold withIssue
  split
  · assumption
  · simp [DefectBuild.hasIssue]

theorem hasIssue_withIssue {issue : DefectIssue} {m : DefectBuild} {t : IssueType} {n : String}
    (h : m.hasIssue t n = true) : (withIssue issue m).hasIssue t n = true := by
  unfold withIssue
  split
  · exact h
  · unfold DefectBuild.hasIssue at h ⊢
    rw [List.any_append, h]
    rfl

theorem attachIssue_snd (d : Defect) (k : Nat) (issue : DefectIssue) :
    (d.attachIssue k issue).2 = { d with members := (d.attachIssue k issue).2.members } := by
  unfold attachIssue
  split
  · rfl
  · split <;> rfl

theorem find?_attachIssue (d : Defect) (build : Nat) (issue : DefectIssue) (k : Nat) :
    (d.attachIssue build issue).2.members.find? k =
      if k = build then (d.members.find? k).map (withIssue issue) else d.members.find? k := by
  unfold attachIssue
  cases hm : d.members.find? build with
  | none =>
    by_cases hk : k = build
    · simp [hk, hm]
    · simp [hk]
  | some m =>
    simp only
    split
    · rename_i hi
      by_cases hk : k = build
      · simp [hk, hm, withIssue, hi]
      · simp [hk]
    · rename_i hi
      simp only [OrderedMap.find?_modify]
      by_cases hk : k = build
      · simp [hk, hm, withIssue, hi]
      · simp [hk, Ne.symm hk]

theorem attachIssue_eq_of_unchanged {d : Defect} {k : Nat} {issue : DefectIssue}
    (h : (d.attachIssue k issue).1 = false) : (d.attachIssue k issue).2 = d := by
  unfold attachIssue at h ⊢
  cases hm : d.members.find? k with
  | none => rfl
  | some m =>
    rw [hm] at h
    simp only at h ⊢
    split <;> simp_all

theorem attachIssue_of_hasIssue {d : Defect} {k : Nat} {issue : DefectIssue} {m : DefectBuild}
    (hm : d.members.find? k = some m) (h : m.hasIssue issue.type issue.test = true) :
    d.attachIssue k issue = (false, d) := by
  unfold attachIssue
  rw [hm]
  simp [h]

end Defect

namespace Clustering

open Defect

/-! ### Branch and blame list -/

theorem fillBranch_snd (branch : Option String) (d : Defect) :
    (fillBranch branch d).2 = { d with trackedBranch := d.trackedBranch.or branch } := by
  unfold fillBranch setBranchIfNone
  cases d with
  | mk _ _ b => cases b <;> cases branch <;> rfl

theorem fillBranch_fst (branch : Option String) (d : Defect) :
    (fillBranch branch d).1 = (d.trackedBranch.isNone && branch.isSome) := by
  unfold fillBranch
  split <;> simp_all

theorem fillBlame_snd (candidates : List BlameCandidate) (d : Defect) :
    (fillBlame candidates d).2 = { d with blame := if d.blame = [] then candidates else d.blame } := by
  unfold fillBlame
  cases d with
  | mk _ _ _ _ blame => cases blame <;> cases candidates <;> rfl

theorem fillBlame_fst (candidates : List BlameCandidate) (d : Defect) :
    (fillBlame candidates d).1 = (d.blame.isEmpty && !candidates.isEmpty) := by
  unfold fillBlame
  split <;> simp_all

/-! ### Attaching an issue with its build -/

/-- A defect with an issue and its build added. -/
abbrev attached (i : Issue) (b : BuildSnapshot) (d : Defect) : Defect := (attach i b d).2

theorem attached_eq (i : Issue) (b : BuildSnapshot) (d : Defect) :
    attached i b d = { d with
      members := (attached i b d).members
      trackedBranch := d.trackedBranch.or i.trackedBranch
      blame := if d.blame = [] then b.blameCandidates else d.blame } := by
  unfold attached attach
  simp only [fillBlame_snd, fillBranch_snd]
  rw [attachIssue_snd, addBuild_snd]

theorem attached_sameStanding (i : Issue) (b : BuildSnapshot) (d : Defect) :
    SameStanding d (attached i b d) := by
  rw [attached_eq]
  exact ⟨rfl, rfl, rfl, rfl, rfl, rfl, rfl⟩

theorem trackedBranch_attached (i : Issue) (b : BuildSnapshot) (d : Defect) :
    (attached i b d).trackedBranch = d.trackedBranch.or i.trackedBranch := by
  rw [attached_eq]

theorem blame_attached (i : Issue) (b : BuildSnapshot) (d : Defect) :
    (attached i b d).blame = if d.blame = [] then b.blameCandidates else d.blame := by
  rw [attached_eq]

/-- The build is a member afterwards, with its old entry if it had one, and has the issue. -/
theorem find?_attached (i : Issue) (b : BuildSnapshot) (d : Defect) (k : Nat) :
    (attached i b d).members.find? k =
      if k = b.build then
        some (withIssue (defectIssue i) ((d.members.find? k).getD (.ofSnapshot b)))
      else d.members.find? k := by
  unfold attached attach
  simp only [fillBlame_snd, fillBranch_snd, find?_attachIssue, find?_addBuild,
    DefectBuild.ofSnapshot]
  by_cases hk : k = b.build
  · cases d.members.find? k <;> simp [hk]
  · simp [hk]

theorem attached_eq_of_unchanged {i : Issue} {b : BuildSnapshot} {d : Defect}
    (h : (attach i b d).1 = false) : attached i b d = d := by
  unfold attach at h
  simp only [Bool.or_eq_false_iff, fillBlame_fst, fillBranch_fst, fillBranch_snd] at h
  obtain ⟨⟨⟨h1, h2⟩, h3⟩, h4⟩ := h
  unfold attached attach
  simp only [fillBlame_snd, fillBranch_snd]
  rw [addBuild_eq_of_unchanged h1] at h2 h3 h4 ⊢
  rw [attachIssue_eq_of_unchanged h2] at h3 h4 ⊢
  have hbranch : d.trackedBranch.or i.trackedBranch = d.trackedBranch := by
    cases hd : d.trackedBranch <;> simp_all
  have hblame : (if d.blame = [] then b.blameCandidates else d.blame) = d.blame := by
    cases hd : d.blame <;> simp_all
  rw [hbranch, hblame]

/-! ### Absorbing another defect -/

/-- A defect with the members and the blame list of another one added. -/
abbrev absorbed (other d : Defect) : Defect := (absorb other d).2

theorem addMembers_cons (b : DefectBuild) (bs : List DefectBuild) (d : Defect) :
    addMembers (b :: bs) d =
      ((d.addBuild b).1 || (addMembers bs (d.addBuild b).2).1, (addMembers bs (d.addBuild b).2).2) := by
  have go : ∀ (bs : List DefectBuild) (c : Bool) (d : Defect),
      bs.foldl (fun (p : Bool × Defect) b => (p.1 || (p.2.addBuild b).1, (p.2.addBuild b).2)) (c, d) =
        (c || (addMembers bs d).1, (addMembers bs d).2) := by
    intro bs
    induction bs with
    | nil => intro c d; simp [addMembers]
    | cons b bs ih =>
      intro c d
      simp only [addMembers, List.foldl_cons]
      rw [ih, ih]
      simp [Bool.or_assoc]
  simp only [addMembers, List.foldl_cons]
  rw [go]
  simp [addMembers]

theorem addMembers_snd (bs : List DefectBuild) (d : Defect) :
    (addMembers bs d).2 = { d with members := (addMembers bs d).2.members } := by
  induction bs generalizing d with
  | nil => rfl
  | cons b bs ih =>
    rw [addMembers_cons]
    simp only
    rw [ih, addBuild_snd]

theorem find?_addMembers (bs : List DefectBuild) (d : Defect) (k : Nat) :
    (addMembers bs d).2.members.find? k =
      (d.members.find? k).or (bs.find? fun b => b.build = k) := by
  induction bs generalizing d with
  | nil => simp [addMembers]
  | cons b bs ih =>
    rw [addMembers_cons]
    simp only [ih, find?_addBuild, Option.or_assoc, List.find?_cons]
    by_cases hk : b.build = k
    · simp [hk]
    · simp [hk, Ne.symm hk]

theorem addMembers_eq_of_unchanged {bs : List DefectBuild} {d : Defect}
    (h : (addMembers bs d).1 = false) : (addMembers bs d).2 = d := by
  induction bs generalizing d with
  | nil => rfl
  | cons b bs ih =>
    rw [addMembers_cons] at h ⊢
    simp only [Bool.or_eq_false_iff] at h ⊢
    rw [addBuild_eq_of_unchanged h.1] at h ⊢
    exact ih h.2

end Clustering

/-- Each member is stored under its own build id. -/
def Defect.MembersKeyed (d : Defect) : Prop := ∀ k m, d.members.find? k = some m → m.build = k

theorem Defect.MembersKeyed.find?_values {d : Defect} (h : d.MembersKeyed) (k : Nat) :
    (d.members.values.find? fun m => m.build = k) = d.members.find? k := by
  cases hm : d.members.find? k with
  | none =>
    refine List.find?_eq_none.2 fun m hmem => ?_
    obtain ⟨k', hk'⟩ := OrderedMap.mem_values_iff.1 hmem
    have hb := h k' m hk'
    rintro hk
    rw [hb, decide_eq_true_iff] at hk
    rw [hk, hm] at hk'
    cases hk'
  | some m =>
    have hmem : m ∈ d.members.values := OrderedMap.mem_values_iff.2 ⟨k, hm⟩
    cases hf : d.members.values.find? fun m => decide (m.build = k) with
    | none => exact absurd (List.find?_eq_none.1 hf m hmem) (by simp [h k m hm])
    | some m' =>
      obtain ⟨k', hk'⟩ := OrderedMap.mem_values_iff.1 (List.mem_of_find?_eq_some hf)
      have hb : m'.build = k := by simpa using List.find?_some hf
      rw [← h k' m' hk', hb, hm] at hk'
      exact hk'.symm

namespace Clustering

open Defect

theorem absorbed_eq (other d : Defect) :
    absorbed other d = { d with
      members := (absorbed other d).members
      blame := if d.blame = [] then other.blame else d.blame } := by
  unfold absorbed absorb
  simp only [fillBlame_snd]
  rw [addMembers_snd]

theorem absorbed_sameStanding (other d : Defect) : SameStanding d (absorbed other d) := by
  rw [absorbed_eq]
  exact ⟨rfl, rfl, rfl, rfl, rfl, rfl, rfl⟩

theorem blame_absorbed (other d : Defect) :
    (absorbed other d).blame = if d.blame = [] then other.blame else d.blame := by
  rw [absorbed_eq]

theorem trackedBranch_absorbed (other d : Defect) :
    (absorbed other d).trackedBranch = d.trackedBranch := by
  rw [absorbed_eq]

theorem find?_absorbed {other : Defect} (h : other.MembersKeyed) (d : Defect) (k : Nat) :
    (absorbed other d).members.find? k = (d.members.find? k).or (other.members.find? k) := by
  unfold absorbed absorb
  simp only [fillBlame_snd, find?_addMembers, h.find?_values]

theorem absorbed_eq_of_unchanged {other d : Defect} (h : (absorb other d).1 = false) :
    absorbed other d = d := by
  unfold absorb at h
  simp only [Bool.or_eq_false_iff, fillBlame_fst] at h
  unfold absorbed absorb
  simp only [fillBlame_snd]
  rw [addMembers_eq_of_unchanged h.1] at h ⊢
  have hblame : (if d.blame = [] then other.blame else d.blame) = d.blame := by
    cases hd : d.blame <;> simp_all
  rw [hblame]

/-- Nothing is left to add for the second time. -/
theorem absorbed_absorbed {other : Defect} (h : other.MembersKeyed) (d : Defect) :
    absorbed other (absorbed other d) = absorbed other d := by
  have hmembers : (absorbed other (absorbed other d)).members = (absorbed other d).members := by
    refine OrderedMap.ext_find? fun k => ?_
    rw [find?_absorbed h, find?_absorbed h, Option.or_assoc, Option.or_self]
  have hblame : (absorbed other (absorbed other d)).blame = (absorbed other d).blame := by
    rw [blame_absorbed, blame_absorbed]
    split <;> simp_all
  rw [absorbed_eq, hmembers, ← blame_absorbed, hblame]

/-! ### Being superseded -/

/-- A defect that another one took over, if it was still open. -/
abbrev superseded (now : Timestamp) (target : Nat) (d : Defect) : Defect := (supersede now target d).2

theorem superseded_of_isOpen {now : Timestamp} {target : Nat} {d : Defect} (h : d.isOpen = true) :
    superseded now target d = { d with resolvedAt := some now, supersededBy := some target } := by
  unfold superseded supersede
  rw [if_pos h]

theorem superseded_eq_of_unchanged {now : Timestamp} {target : Nat} {d : Defect}
    (h : (supersede now target d).1 = false) : superseded now target d = d := by
  unfold superseded supersede at *
  split at h <;> simp_all

end Clustering

end Triage
