import Triage.Proofs.Clustering.Placement
import Triage.Proofs.Interruption

/-!
# What a cut pass leaves behind

A pass that is cut has placed some of the recent issues, and may be halfway through the next one
(`Halfway`): the id of a new defect has been given out but the defect is not saved, or some of the
defects that are to be merged have been, and the members of one more have been copied but it is not
closed yet.  `cut_cluster` says that nothing else can be left.
-/

namespace Triage.Clustering

open DefectStore

variable {now : Timestamp} {i : Issue} {b : BuildSnapshot} {β : Type} {s s' : Stores}
  {f : Report → Pass β}

/-- Some defects have been taken over by `target`, and the members of one more have been copied. -/
def halfMerged (now : Timestamp) (target : Nat) (closed : List Nat) (copied : Option Nat)
    (s : DefectStore) : DefectStore :=
  (merged now target closed s).alter target
    (absorbedAll (takenOver (merged now target closed s) copied.toList))

theorem halfMerged_none (now : Timestamp) (target : Nat) (closed : List Nat) (s : DefectStore) :
    halfMerged now target closed none s = merged now target closed s :=
  alter_eq_self fun _ _ => rfl

theorem halfMerged_some {target id : Nat} {s : DefectStore} {o : Defect} (ho : s.find? id = some o) :
    halfMerged now target [] (some id) s = s.alter target (absorbed o) := by
  have htaken : takenOver s [id] = [o] := by simp [takenOver, ho]
  change s.alter target (absorbedAll (takenOver s [id])) = s.alter target (absorbedAll [o])
  rw [htaken]

/-- The defects while an issue is being placed. -/
inductive Halfway (now : Timestamp) (b : BuildSnapshot) (s : DefectStore) : DefectStore → Prop
  | before : Halfway now b s s
  | allocated (start : placement b s = .started) : Halfway now b s s.nextId.2
  | merging {target : Nat} {closed rest : List Nat} {copied : Option Nat}
      (join : placement b s = .joined target (closed ++ copied.toList ++ rest)) :
      Halfway now b s (halfMerged now target closed copied s)

/-- The defects while a list of issues is being placed: between two of them or halfway through one. -/
inductive Paused (now : Timestamp) (builds : OrderedMap BuildRef BuildSnapshot) (is : List Issue)
    (acc : Report × DefectStore) : DefectStore → Prop
  | between {pre post : List Issue} (split : is = pre ++ post) :
      Paused now builds is acc (pre.foldl (passStep now builds) acc).2
  | within {pre post : List Issue} {i : Issue} {b : BuildSnapshot} {x : DefectStore}
      (split : is = pre ++ i :: post) (known : builds.find? i.key.ref = some b)
      (halfway : Halfway now b (pre.foldl (passStep now builds) acc).2 x) :
      Paused now builds is acc x

theorem wellFormed_halfMerged {s : DefectStore} (hs : s.WellFormed) (now : Timestamp) (target : Nat)
    (closed : List Nat) (copied : Option Nat) :
    (halfMerged now target closed copied s).WellFormed := by
  have hm := wellFormed_merged hs now target closed
  exact hm.alter_of_sameStanding (absorbedAll_sameStanding _) fun d hd =>
    membersKeyed_absorbedAll (membersKeyed_takenOver hm) (hm.members hd)

theorem Halfway.wellFormed {s x : DefectStore} (h : Halfway now b s x) (hs : s.WellFormed) :
    x.WellFormed := by
  cases h with
  | before => exact hs
  | allocated => exact hs.nextId
  | merging => exact wellFormed_halfMerged hs now _ _ _

theorem Paused.wellFormed {builds : OrderedMap BuildRef BuildSnapshot} {is : List Issue}
    {acc : Report × DefectStore} {x : DefectStore} (h : Paused now builds is acc x)
    (hs : acc.2.WellFormed) : x.WellFormed := by
  have hfirst : ∀ pre : List Issue, (pre.foldl (passStep now builds) acc).2.WellFormed :=
    fun pre => foldl_passStep_induction (P := DefectStore.WellFormed)
      (fun i b _ _ h => wellFormed_placed h now i b) pre hs
  cases h with
  | between => exact hfirst _
  | within split known halfway => exact halfway.wellFormed (hfirst _)

theorem Paused.cons {builds : OrderedMap BuildRef BuildSnapshot} {is : List Issue}
    {acc : Report × DefectStore} {x : DefectStore}
    (h : Paused now builds is (passStep now builds acc i) x) :
    Paused now builds (i :: is) acc x := by
  cases h with
  | @between pre post split =>
    have hsplit : i :: is = (i :: pre) ++ post := congrArg (i :: ·) split
    exact .between hsplit
  | @within pre post j b x split known halfway =>
    have hsplit : i :: is = (i :: pre) ++ j :: post := congrArg (i :: ·) split
    exact .within hsplit known halfway

theorem Paused.congr {builds : OrderedMap BuildRef BuildSnapshot} {is : List Issue}
    {acc acc' : Report × DefectStore} {x : DefectStore} (h : Paused now builds is acc x)
    (hacc : acc.2 = acc'.2) : Paused now builds is acc' x := by
  cases h with
  | between split =>
    rw [foldl_passStep_congr now builds _ hacc]
    exact .between split
  | within split known halfway =>
    rw [foldl_passStep_congr now builds _ hacc] at halfway
    exact .within split known halfway

/-! ### One issue -/

theorem cut_attachTo_bind {id : Nat} {d : Defect} {r : Report}
    (hd : s.defects.find? id = some d) (h : (attachTo id i b r >>= f).Cut s s') :
    s' = s ∨ ∃ r', (f r').Cut { s with defects := s.defects.alter id (attached i b) } s' := by
  unfold attachTo at h
  rw [bind_assoc, Pass.cut_ask_bind (Stores.answer_update (faithful_attach i b) hd)] at h
  refine h.imp_right fun h => ?_
  cases hflag : (attach i b d).1 with
  | true =>
    rw [hflag, if_pos rfl, bind_assoc, Pass.cut_log_bind, pure_bind] at h
    exact ⟨_, h⟩
  | false =>
    rw [hflag, if_neg Bool.false_ne_true, pure_bind] at h
    exact ⟨_, h⟩

theorem cut_create_bind {r : Report} (h : (create now i b r >>= f).Cut s s') :
    s' = s ∨ s' = { s with defects := s.defects.nextId.2 } ∨
      ∃ r', (f r').Cut
        { s with defects := s.defects.nextId.2.save (firstDefect now i b s.defects) } s' := by
  have hnext : s.answer .nextDefectId =
      (.ok (s.defects.lastId + 1), { s with defects := s.defects.nextId.2 }) := rfl
  unfold create at h
  rw [bind_assoc, Pass.cut_ask_bind hnext] at h
  refine h.imp_right fun h => ?_
  rw [bind_assoc, Pass.cut_ask_bind (c := .saveDefect _) rfl] at h
  refine h.imp_right fun h => ?_
  rw [bind_assoc, Pass.cut_log_bind, pure_bind] at h
  exact ⟨_, h⟩

theorem cut_mergeAll_bind (now : Timestamp) (target : Nat) :
    ∀ (ids : List Nat) (s : Stores) (r : Report), Mergeable s.defects target ids →
      (mergeAll now target ids r >>= f).Cut s s' →
        (∃ closed copied rest, ids = closed ++ copied.toList ++ rest ∧
          s' = { s with defects := halfMerged now target closed copied s.defects }) ∨
        ∃ r', (f r').Cut { s with defects := merged now target ids s.defects } s'
  | [], s, r, _, h => .inr ⟨r, h⟩
  | id :: ids, s, r, hm, h => by
    obtain ⟨t, ht⟩ := hm.stored
    obtain ⟨o, ho, hopen⟩ := hm.others id (by simp)
    have hne : target ≠ id := fun he => (List.nodup_cons.1 hm.nodup).1 (by simp [he])
    have hload : s.answer (.loadDefect id) = (.ok (some o), s) := by
      simp only [Stores.answer, ho]
    have hsup : (s.defects.alter target (absorbed o)).find? id = some o := by
      rw [find?_alter_of_ne hne, ho]
    have hbefore : s = { s with defects := halfMerged now target [] none s.defects } := by
      rw [halfMerged_none]
      rfl
    unfold mergeAll at h
    rw [bind_assoc, Pass.cut_ask_bind hload] at h
    rcases h with rfl | h
    · exact .inl ⟨[], none, id :: ids, rfl, hbefore⟩
    simp only [hopen, if_true, bind_assoc] at h
    rw [Pass.cut_ask_bind (Stores.answer_update (faithful_absorb o) ht)] at h
    rcases h with rfl | h
    · exact .inl ⟨[], none, id :: ids, rfl, hbefore⟩
    rw [Pass.cut_ask_bind (Stores.answer_update (faithful_supersede now target) hsup)] at h
    rcases h with rfl | h
    · refine .inl ⟨[], some id, ids, rfl, ?_⟩
      rw [halfMerged_some ho]
    · have hstore : (s.defects.alter target (absorbed o)).alter id (superseded now target) =
          takeOver now target s.defects id := (takeOver_of_find? ho).symm
      have hrest : (mergeAll now target ids { r with superseded := r.superseded + 1 } >>= f).Cut
          { s with defects := takeOver now target s.defects id } s' := by
        rw [← hstore]
        exact h
      rcases cut_mergeAll_bind now target ids _ _ hm.tail hrest with
        ⟨closed, copied, rest, hids, hs'⟩ | hdone
      · exact .inl ⟨id :: closed, copied, rest, by rw [hids]; rfl, hs'⟩
      · exact .inr hdone

theorem cut_merge_bind {target : Nat} {ids : List Nat} {r : Report}
    (hm : Mergeable s.defects target ids) (h : (merge now target ids r >>= f).Cut s s') :
    (∃ closed copied rest, ids = closed ++ copied.toList ++ rest ∧
        s' = { s with defects := halfMerged now target closed copied s.defects }) ∨
      ∃ r', (f r').Cut { s with defects := merged now target ids s.defects } s' := by
  unfold merge at h
  rw [bind_assoc] at h
  refine (cut_mergeAll_bind now target ids s r hm h).imp_right fun h => ?_
  obtain ⟨r', h⟩ := h
  rw [bind_assoc, Pass.cut_log_bind, pure_bind] at h
  exact ⟨r', h⟩

/-- Placing an issue is cut halfway or after it. -/
theorem cut_clusterIssue_bind {r : Report} (hs : s.defects.WellFormed)
    (h : (clusterIssue now i b r >>= f).Cut s s') :
    (∃ x, Halfway now b s.defects x ∧ s' = { s with defects := x }) ∨
      ∃ r', (f r').Cut { s with defects := placed now i b s.defects } s' := by
  have hall : s.answer .allDefects = (.ok s.defects.all, s) := rfl
  have hserver : (s.defects.all.filter fun d => d.server = b.server) =
      s.defects.onServer b.server := rfl
  have hspec := placement_spec hs b
  unfold clusterIssue at h
  rw [bind_assoc, Pass.cut_ask_bind hall] at h
  rcases h with rfl | h
  · exact .inl ⟨_, .before, rfl⟩
  rw [hserver] at h
  unfold placed
  cases hh : holder? b.build (s.defects.onServer b.server) with
  | some d =>
    have hp : placement b s.defects = .held d := by
      unfold placement
      rw [hh]
    rw [hp] at hspec ⊢
    simp only [hh] at h
    cases hspec with
    | held found =>
      refine (cut_attachTo_bind found h).imp_left fun hs' => ⟨_, .before, hs'⟩
  | none =>
    simp only [hh] at h
    cases hr : related b.fingerprint (s.defects.onServer b.server) with
    | nil =>
      have hp : placement b s.defects = .started := by
        unfold placement
        rw [hh, hr]
      rw [hp]
      simp only [hr] at h
      rcases cut_create_bind h with hs' | hs' | h
      · exact .inl ⟨_, .before, hs'⟩
      · exact .inl ⟨_, .allocated hp, hs'⟩
      · exact .inr h
    | cons target others =>
      have hp : placement b s.defects = .joined target others := by
        unfold placement
        rw [hh, hr]
      rw [hp] at hspec ⊢
      have hmerge := hspec.mergeable
      -- what is left when the merge is over and the issue not yet attached
      have hmerged : ∀ r, (attachTo target i b r >>= f).Cut
          { s with defects := merged now target others s.defects } s' →
          (∃ x, Halfway now b s.defects x ∧ s' = { s with defects := x }) ∨ ∃ r', (f r').Cut
            { s with defects := (Placement.joined target others).result now i b s.defects } s' := by
        intro r h
        obtain ⟨t, -, ht, -⟩ := hspec.find?_target now hs
        refine (cut_attachTo_bind ht h).imp_left fun hs' => ⟨_, ?_, hs'⟩
        have hp' : placement b s.defects =
            .joined target (others ++ (none : Option Nat).toList ++ []) := by
          simpa using hp
        rw [← halfMerged_none]
        exact .merging hp'
      cases others with
      | nil =>
        simp only [hr] at h
        exact hmerged r h
      | cons other others =>
        simp only [hr, bind_assoc] at h
        rcases cut_merge_bind hmerge h with ⟨closed, copied, rest, hothers, hs'⟩ | ⟨r', h⟩
        · exact .inl ⟨_, .merging (hothers ▸ hp), hs'⟩
        · exact hmerged r' h

/-! ### A whole pass -/

theorem cut_clusterAll (now : Timestamp) :
    ∀ (is : List Issue) (r : Report) (s : Stores), s.defects.WellFormed →
      (clusterAll now is r).Cut s s' → ∃ x, Paused now s.builds is (r, s.defects) x ∧
        s' = { s with defects := x }
  | [], r, s, _, h => ⟨_, .between (List.nil_append _).symm, Pass.cut_pure.1 h⟩
  | i :: is, r, s, hs, h => by
    have hbuild : s.answer (.build i.key.ref) = (.ok (s.builds.find? i.key.ref), s) := rfl
    have hstep : (passStep now s.builds (r, s.defects) i).2.WellFormed :=
      wellFormed_passStep hs now s.builds i
    have ih := fun r' => cut_clusterAll now is r'
      { s with defects := (passStep now s.builds (r, s.defects) i).2 } hstep
    unfold clusterAll at h
    rw [Pass.cut_ask_bind hbuild] at h
    rcases h with rfl | h
    · exact ⟨_, .between (List.nil_append _).symm, rfl⟩
    cases hb : s.builds.find? i.key.ref with
    | none =>
      rw [passStep_of_none hb] at ih
      simp only [hb] at h
      rw [Pass.cut_log_bind] at h
      obtain ⟨x, hx, hs'⟩ := ih _ h
      refine ⟨x, .cons ?_, hs'⟩
      rw [passStep_of_none hb]
      exact hx
    | some b =>
      rw [passStep_of_some hb] at ih
      simp only [hb] at h
      rcases cut_clusterIssue_bind hs h with ⟨x, hx, hs'⟩ | ⟨r', h⟩
      · exact ⟨x, .within (List.nil_append _).symm hb hx, hs'⟩
      · obtain ⟨x, hx, hs'⟩ := ih _ h
        refine ⟨x, .cons ?_, hs'⟩
        rw [passStep_of_some hb]
        exact hx.congr rfl

/-- What a cut pass leaves. -/
theorem cut_cluster {cfg : ClusteringConfig} (hs : s.defects.WellFormed)
    (h : (cluster cfg now).Cut s s') :
    ∃ x, Paused now s.builds (recent cfg now s) (.empty, s.defects) x ∧
      s' = { s with defects := x } := by
  rw [cluster_eq_passSince] at h
  unfold recent passSince at *
  cases ht : now.minusDays cfg.lookbackDays with
  | error o =>
    rw [ht] at h
    exact ⟨_, .between (List.nil_append _).symm, Pass.cut_ofTime_bind_of_error h⟩
  | ok since =>
    rw [ht] at h
    have hissues : s.answer .allIssues = (.ok s.issues.all, s) := rfl
    have hwindow : (Pass.ofTime (.ok since) : Pass Timestamp) = pure since := rfl
    rw [hwindow, pure_bind, Pass.cut_ask_bind hissues] at h
    rcases h with rfl | h
    · exact ⟨_, .between (List.nil_append _).symm, rfl⟩
    · exact cut_clusterAll now _ _ _ hs h

end Triage.Clustering
