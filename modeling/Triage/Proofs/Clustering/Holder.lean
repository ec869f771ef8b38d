import Triage.Proofs.Store

/-!
# The defect that an issue goes to

Among the defects that hold a build, `holder?` picks the one of least `rank`
(`holder?_eq_some`, `holder?_of_least`).  A build without a holder goes to the open defects in
`related`, which are those that share a commit with it.
-/

namespace Triage.Clustering

/-- Holders in the order of preference: superseded ones last, then resolved ones, then by id. -/
def rank (d : Defect) : Bool ×ₗ Bool ×ₗ Nat := toLex (d.supersededBy.isSome, toLex (!d.isOpen, d.id))

theorem isPreferred_iff (a b : Defect) : isPreferred a b = true ↔ rank a ≤ rank b := by
  unfold isPreferred rank
  rw [Prod.Lex.toLex_le_toLex, Prod.Lex.toLex_le_toLex]
  cases a.supersededBy.isSome <;> cases b.supersededBy.isSome <;> cases a.isOpen <;>
    cases b.isOpen <;> simp

/-- The step of the search for a holder. -/
def better (best : Option Defect) (d : Defect) : Option Defect :=
  match best with
  | some a => if isPreferred a d then some a else some d
  | none => some d

theorem foldl_better (ds : List Defect) (a : Defect) :
    ∃ x, ds.foldl better (some a) = some x ∧ x ∈ a :: ds ∧ ∀ y ∈ a :: ds, rank x ≤ rank y := by
  induction ds generalizing a with
  | nil => exact ⟨a, rfl, by simp, by simp⟩
  | cons d ds ih =>
    by_cases hp : isPreferred a d = true
    · obtain ⟨x, hx, hmem, hle⟩ := ih a
      refine ⟨x, by simp only [List.foldl_cons, better, hp, if_true, hx], ?_, ?_⟩
      · rcases List.mem_cons.1 hmem with rfl | h <;> simp [*]
      · intro y hy
        rcases List.mem_cons.1 hy with rfl | hy
        · exact hle _ (by simp)
        · rcases List.mem_cons.1 hy with rfl | hy
          · exact (hle a (by simp)).trans ((isPreferred_iff _ _).1 hp)
          · exact hle y (by simp [hy])
    · obtain ⟨x, hx, hmem, hle⟩ := ih d
      have hda : rank d ≤ rank a := le_of_not_ge fun h => hp ((isPreferred_iff _ _).2 h)
      refine ⟨x, by simp only [List.foldl_cons, better, hp]; exact hx, ?_, ?_⟩
      · exact List.mem_cons_of_mem _ hmem
      · intro y hy
        rcases List.mem_cons.1 hy with rfl | hy
        · exact (hle d (by simp)).trans hda
        · exact hle y hy

theorem holder?_eq_foldl (k : Nat) (ds : List Defect) :
    holder? k ds = (ds.filter (·.hasBuild k)).foldl better none := rfl

theorem holder?_eq_none_iff {k : Nat} {ds : List Defect} :
    holder? k ds = none ↔ ∀ d ∈ ds, d.hasBuild k = false := by
  rw [holder?_eq_foldl]
  cases hl : ds.filter (·.hasBuild k) with
  | nil => simpa using List.filter_eq_nil_iff.1 hl
  | cons a l =>
    obtain ⟨x, hx, -⟩ := foldl_better l a
    have ha : a ∈ ds.filter (·.hasBuild k) := by simp [hl]
    obtain ⟨hmem, hb⟩ := List.mem_filter.1 ha
    constructor
    · intro h
      change l.foldl better (some a) = none at h
      rw [hx] at h
      cases h
    · intro h
      rw [h a hmem] at hb
      cases hb

/-- The holder is a defect with the build, and none of those is preferred to it. -/
theorem holder?_eq_some {k : Nat} {ds : List Defect} {d : Defect} (h : holder? k ds = some d) :
    d ∈ ds ∧ d.hasBuild k = true ∧ ∀ d' ∈ ds, d'.hasBuild k = true → rank d ≤ rank d' := by
  rw [holder?_eq_foldl] at h
  cases hl : ds.filter (·.hasBuild k) with
  | nil => rw [hl] at h; cases h
  | cons a l =>
    obtain ⟨x, hx, hmem, hle⟩ := foldl_better l a
    rw [hl] at h
    change l.foldl better (some a) = some d at h
    rw [hx] at h
    cases h
    rw [← hl] at hmem hle
    obtain ⟨hd, hb⟩ := List.mem_filter.1 hmem
    exact ⟨hd, hb, fun d' hd' hb' => hle d' (List.mem_filter.2 ⟨hd', hb'⟩)⟩

theorem id_eq_of_rank_eq {a b : Defect} (h : rank a = rank b) : a.id = b.id := by
  unfold rank at h
  simp only [EmbeddingLike.apply_eq_iff_eq, Prod.mk.injEq] at h
  exact h.2.2

theorem holder?_of_least {k : Nat} {ds : List Defect} {d : Defect} (hd : d ∈ ds)
    (hb : d.hasBuild k = true) (hids : ∀ d' ∈ ds, d'.id = d.id → d' = d)
    (hle : ∀ d' ∈ ds, d'.hasBuild k = true → rank d ≤ rank d') : holder? k ds = some d := by
  cases hx : holder? k ds with
  | none =>
    rw [holder?_eq_none_iff.1 hx d hd] at hb
    cases hb
  | some x =>
    obtain ⟨hxd, hxb, hxle⟩ := holder?_eq_some hx
    have hr : rank x = rank d := le_antisymm (hxle d hd hb) (hle x hxd hxb)
    rw [hids x hxd (id_eq_of_rank_eq hr)]

theorem mem_related {fingerprint : OrderedSet CommitHash} {ds : List Defect} {id : Nat} :
    id ∈ related fingerprint ds ↔
      ∃ d ∈ ds, d.isOpen = true ∧ d.sharesFingerprint fingerprint = true ∧ d.id = id := by
  unfold related
  rw [← OrderedSet.mem_def, OrderedSet.mem_ofList]
  simp [and_assoc]

theorem nodup_related (fingerprint : OrderedSet CommitHash) (ds : List Defect) :
    (related fingerprint ds).Nodup :=
  OrderedSet.nodup_toList _

end Triage.Clustering

namespace Triage

/-- The defects of one server. -/
def DefectStore.onServer (s : DefectStore) (server : String) : List Defect :=
  s.all.filter fun d => d.server = server

theorem DefectStore.Keyed.mem_onServer {s : DefectStore} (h : s.Keyed) {server : String}
    {d : Defect} : d ∈ s.onServer server ↔ s.find? d.id = some d ∧ d.server = server := by
  unfold onServer
  rw [List.mem_filter, decide_eq_true_iff]
  exact and_congr_left fun _ => ⟨h.find?_of_mem_all, fun hd => mem_all_iff.2 ⟨_, hd⟩⟩

theorem DefectStore.WellFormed.mem_onServer {s : DefectStore} (h : s.WellFormed) {server : String}
    {d : Defect} : d ∈ s.onServer server ↔ s.find? d.id = some d ∧ d.server = server :=
  h.isKeyed.mem_onServer

theorem Defect.sharesFingerprint_iff {d : Defect} {fingerprint : OrderedSet CommitHash} :
    d.sharesFingerprint fingerprint = true ↔
      ∃ k m, d.members.find? k = some m ∧ m.fingerprint.meets fingerprint = true := by
  unfold sharesFingerprint
  rw [List.any_eq_true]
  constructor
  · rintro ⟨m, hm, hs⟩
    obtain ⟨k, hk⟩ := OrderedMap.mem_values_iff.1 hm
    exact ⟨k, m, hk, hs⟩
  · rintro ⟨k, m, hk, hs⟩
    exact ⟨m, OrderedMap.mem_values_iff.2 ⟨k, hk⟩, hs⟩

end Triage
