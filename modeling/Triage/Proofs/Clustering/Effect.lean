import Triage.Proofs.Clustering.Placement

/-!
# What a placement does to the defects

Placing an issue makes of each stored defect what `Placement.effect` says, and may add one defect
(`find?_placed`).  `Becomes` lists the cases: a defect stays as it is, gets the issue as the holder of
its build, takes other ones over, or is taken over.
-/

namespace Triage.Clustering

open DefectStore

variable {b : BuildSnapshot} {s : DefectStore} {d : Defect}

/-! ### The last id -/

/-- The last id that has been given out once an issue is placed. -/
def Placement.lastId (s : DefectStore) : Placement → Nat
  | started => s.lastId + 1
  | _ => s.lastId

theorem lastId_merged (now : Timestamp) (target : Nat) (ids : List Nat) (s : DefectStore) :
    (merged now target ids s).lastId = s.lastId := by
  induction ids generalizing s with
  | nil => rfl
  | cons id ids ih =>
    refine (ih (takeOver now target s id)).trans ?_
    unfold takeOver
    split <;> rfl

theorem lastId_placed (now : Timestamp) (i : Issue) (b : BuildSnapshot) (s : DefectStore) :
    (placed now i b s).lastId = (placement b s).lastId s := by
  unfold placed
  cases placement b s with
  | held d => rfl
  | joined target others => exact lastId_merged now target others s
  | started => rfl

/-! ### Look-ups -/

theorem find?_result_held (now : Timestamp) (i : Issue) (b : BuildSnapshot) (s : DefectStore)
    (d : Defect) (k : Nat) : ((Placement.held d).result now i b s).find? k =
      if d.id = k then (s.find? k).map (attached i b) else s.find? k :=
  find?_alter s d.id k _

theorem PlacementSpec.find?_result_joined {target : Nat} {others : List Nat}
    (h : PlacementSpec b s (.joined target others)) (now : Timestamp) (i : Issue) (k : Nat) :
    ((Placement.joined target others).result now i b s).find? k =
      if k = target then
        (s.find? k).map fun t => attached i b (absorbedAll (takenOver s others) t)
      else if k ∈ others then (s.find? k).map (superseded now target)
      else s.find? k := by
  have hm := find?_merged now target others s h.mergeable.nodup k
  unfold Placement.result
  rw [find?_alter, hm]
  by_cases hk : k = target
  · subst hk
    rw [if_pos rfl, if_pos rfl, if_pos rfl, Option.map_map]
    rfl
  · rw [if_neg (Ne.symm hk), if_neg hk, if_neg hk]

theorem find?_result_started (now : Timestamp) (i : Issue) (b : BuildSnapshot) (s : DefectStore)
    (k : Nat) : (Placement.started.result now i b s).find? k =
      if s.lastId + 1 = k then some (firstDefect now i b s) else s.find? k := by
  have hid : (firstDefect now i b s).id = s.lastId + 1 := (firstDefect_sameStanding now i b s).id
  unfold Placement.result
  rw [find?_save, hid]
  rfl

/-! ### Each defect -/

/-- What a stored defect becomes. -/
def Placement.effect (now : Timestamp) (i : Issue) (b : BuildSnapshot) (s : DefectStore) :
    Placement → Defect → Defect
  | held h, d => if d.id = h.id then attached i b d else d
  | joined target others, d =>
    if d.id = target then attached i b (absorbedAll (takenOver s others) d)
    else if d.id ∈ others then superseded now target d else d
  | started, d => d

/-- The defects that come in addition. -/
def Placement.added (now : Timestamp) (i : Issue) (b : BuildSnapshot) (s : DefectStore) :
    Placement → List Defect
  | started => [firstDefect now i b s]
  | _ => []

section Effect

variable (now : Timestamp) (i : Issue) (b : BuildSnapshot) (s : DefectStore) (d : Defect)

theorem Placement.effect_held (h : Defect) :
    (held h).effect now i b s d = if d.id = h.id then attached i b d else d := rfl

theorem Placement.effect_joined (target : Nat) (others : List Nat) :
    (joined target others).effect now i b s d =
      if d.id = target then attached i b (absorbedAll (takenOver s others) d)
      else if d.id ∈ others then superseded now target d else d := rfl

@[simp] theorem Placement.effect_started : started.effect now i b s d = d := rfl

@[simp] theorem Placement.added_held (h : Defect) : (held h).added now i b s = [] := rfl

@[simp] theorem Placement.added_joined (target : Nat) (others : List Nat) :
    (joined target others).added now i b s = [] := rfl

@[simp] theorem Placement.added_started :
    started.added now i b s = [firstDefect now i b s] := rfl

end Effect

theorem find?_placed (hs : s.WellFormed) (now : Timestamp) (i : Issue) (b : BuildSnapshot)
    (k : Nat) : (placed now i b s).find? k =
      ((s.find? k).map ((placement b s).effect now i b s)).or
        (((placement b s).added now i b s).find? fun d => d.id = k) := by
  have hspec := placement_spec hs b
  unfold placed
  cases hp : placement b s with
  | held h =>
    rw [find?_result_held, Placement.added_held, List.find?_nil, Option.or_none]
    cases hd : s.find? k with
    | none => simp
    | some d =>
      obtain rfl := hs.keyed hd
      rw [Option.map_some, Option.map_some, Placement.effect_held]
      simp only [eq_comm]
      split <;> rfl
  | joined target others =>
    rw [hp] at hspec
    rw [hspec.find?_result_joined, Placement.added_joined, List.find?_nil, Option.or_none]
    cases hd : s.find? k with
    | none => simp
    | some d =>
      obtain rfl := hs.keyed hd
      rw [Option.map_some, Option.map_some, Option.map_some, Placement.effect_joined]
      split
      · rfl
      · split <;> rfl
  | started =>
    have hid : (firstDefect now i b s).id = s.lastId + 1 := (firstDefect_sameStanding now i b s).id
    rw [find?_result_started, Placement.added_started, List.find?_singleton, hid]
    by_cases hk : s.lastId + 1 = k
    · have hnone : s.find? k = none := by
        by_contra hne
        obtain ⟨d, hd⟩ := Option.ne_none_iff_exists'.1 hne
        have := hs.bounded hd
        omega
      simp [hk, hnone]
    · cases s.find? k <;> simp [hk]

/-- What placing an issue makes of a stored defect. -/
inductive Becomes (now : Timestamp) (i : Issue) (b : BuildSnapshot) (s : DefectStore) :
    Defect → Defect → Prop
  | same (d : Defect) : Becomes now i b s d d
  /-- The holder of the build gets the issue. -/
  | held {d : Defect} (placement : placement b s = .held d) : Becomes now i b s d (attached i b d)
  /-- An open defect takes the other ones over and gets the build. -/
  | target {d : Defect} {others : List Nat} (placement : placement b s = .joined d.id others)
      (isOpen : d.isOpen = true) :
      Becomes now i b s d (attached i b (absorbedAll (takenOver s others) d))
  /-- An open defect is taken over. -/
  | takenOver {d : Defect} {target : Nat} {others : List Nat}
      (placement : placement b s = .joined target others) (mem : d.id ∈ others)
      (isOpen : d.isOpen = true) : Becomes now i b s d (superseded now target d)

theorem becomes_effect (hs : s.WellFormed) (now : Timestamp) (i : Issue) (b : BuildSnapshot)
    (hd : s.find? d.id = some d) :
    Becomes now i b s d ((placement b s).effect now i b s d) := by
  have hspec := placement_spec hs b
  cases hp : placement b s with
  | held h =>
    rw [hp] at hspec
    rw [Placement.effect_held]
    split
    · rename_i hid
      cases hspec with
      | held found =>
        rw [← hid, hd] at found
        cases found
        exact .held hp
    · exact .same d
  | joined target others =>
    rw [hp] at hspec
    rw [Placement.effect_joined]
    split
    · rename_i hid
      subst hid
      obtain ⟨t, ht, -, hall⟩ := hspec.find?_target now hs
      cases hd.symm.trans ht
      exact .target hp (hall d (by simp)).2.2.1
    · split
      · rename_i hmem
        obtain ⟨o, ho, hopen⟩ := hspec.mergeable.others _ hmem
        cases hd.symm.trans ho
        exact .takenOver hp hmem hopen
      · exact .same d
  | started => exact .same d

theorem exists_becomes (hs : s.WellFormed) (now : Timestamp) (i : Issue) (b : BuildSnapshot)
    {id : Nat} (hd : s.find? id = some d) :
    ∃ d', (placed now i b s).find? id = some d' ∧ Becomes now i b s d d' := by
  obtain rfl := hs.keyed hd
  refine ⟨_, ?_, becomes_effect hs now i b hd⟩
  rw [find?_placed hs, hd]
  rfl

/-- A stored defect after a placement was stored before or is the one that the build has started. -/
theorem becomes_of_find?_placed (hs : s.WellFormed) {now : Timestamp} {id : Nat} {d' : Defect}
    (hd' : (placed now i b s).find? id = some d') :
    (∃ d, s.find? id = some d ∧ Becomes now i b s d d') ∨
      (placement b s = .started ∧ id = s.lastId + 1 ∧ d' = firstDefect now i b s) := by
  rw [find?_placed hs, Option.or_eq_some_iff] at hd'
  rcases hd' with hd' | ⟨-, hd'⟩
  · obtain ⟨d, hd, rfl⟩ := Option.map_eq_some_iff.1 hd'
    obtain rfl := hs.keyed hd
    exact .inl ⟨d, hd, becomes_effect hs now i b hd⟩
  · have hmem := List.mem_of_find?_eq_some hd'
    have hid : d'.id = id := by simpa using List.find?_some hd'
    cases hp : placement b s with
    | held h =>
      rw [hp] at hmem
      cases hmem
    | joined target others =>
      rw [hp] at hmem
      cases hmem
    | started =>
      rw [hp, Placement.added_started, List.mem_singleton] at hmem
      subst hmem
      exact .inr ⟨rfl, hid.symm.trans (firstDefect_sameStanding now i b s).id, rfl⟩

end Triage.Clustering
