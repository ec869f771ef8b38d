import Triage.Cleaning
import Triage.Proofs.Store

/-!
# What a removal run does to the stores

`exec_checkConsistency` says that a check sets the mark of every defect by whether all its members
can be looked up and changes nothing else; `exec_clean_of_ok` gives the stores after a whole run.
-/

namespace Triage.Cleaning

open DefectStore

/-! ### Marks -/

variable (builds : OrderedMap BuildRef BuildSnapshot)

/-- The mark that a defect should have. -/
def wanted (d : Defect) : Consistency :=
  if (d.memberRefs.find? fun r => (builds.find? r).isNone).isSome then .broken else .consistent

def marked (d : Defect) : Defect := { d with consistency := wanted builds d }

/-- The counts of marks set and taken away, after one more defect. -/
def tally (counts : Nat × Nat) (d : Defect) : Nat × Nat :=
  if d.consistency = wanted builds d then counts
  else match wanted builds d with
    | .broken => (counts.1 + 1, counts.2)
    | .consistent => (counts.1, counts.2 + 1)

theorem marked_of_eq {d : Defect} (h : d.consistency = wanted builds d) : marked builds d = d := by
  unfold marked
  rw [← h]

theorem faithful_setConsistency (c : Consistency) : Faithful (setConsistency c) := by
  intro d h
  unfold setConsistency at h ⊢
  split at h
  · rename_i hc
    rw [if_pos hc]
  · cases h

theorem exec_firstUnresolvable (rs : List BuildRef) (s : Stores) :
    (firstUnresolvable rs).exec s = (.ok (rs.find? fun r => (s.builds.find? r).isNone), s) := by
  induction rs with
  | nil => rfl
  | cons r rs ih =>
    have hask : (Pass.ask (.build r)).exec s = (.ok (s.builds.find? r), s) :=
      Pass.runWith_ask_of_ok _ (c := .build r) rfl
    unfold firstUnresolvable Pass.exec
    rw [Pass.runWith_bind_of_ok _ hask]
    cases hb : s.builds.find? r with
    | none => simp [hb]
    | some b =>
      rw [List.find?_cons]
      simp only [hb, Option.isNone_some]
      exact ih

theorem exec_checkDefect {s : Stores} {d : Defect} (h : s.defects.find? d.id = some d)
    (counts : Nat × Nat) :
    (checkDefect counts d).exec s =
      (.ok (tally s.builds counts d),
        { s with defects := s.defects.alter d.id (marked s.builds) }) := by
  have hfirst := exec_firstUnresolvable d.memberRefs s
  unfold checkDefect Pass.exec
  rw [Pass.runWith_bind_of_ok _ hfirst]
  by_cases hc : d.consistency = wanted s.builds d
  · have hsame : s.defects.alter d.id (marked s.builds) = s.defects :=
      alter_eq_self fun d' hd' => by
        rw [h] at hd'
        cases hd'
        exact marked_of_eq _ hc
    have hc' := hc
    unfold wanted at hc'
    rw [hsame, if_pos hc', tally, if_pos hc]
    rfl
  · have hupdate := Pass.exec_update (faithful_setConsistency (wanted s.builds d)) h
    have hflag : (setConsistency (wanted s.builds d) d).1 = true := by
      unfold setConsistency
      rw [if_neg hc]
    have hstore : (s.defects.alter d.id fun d' => (setConsistency (wanted s.builds d) d').2) =
        s.defects.alter d.id (marked s.builds) :=
      alter_congr fun d' hd' => by
        rw [h] at hd'
        cases hd'
        simp [setConsistency, hc, marked]
    rw [hflag, hstore] at hupdate
    have hc' := hc
    unfold wanted at hc' hupdate
    rw [if_neg hc', tally, if_neg hc]
    refine (Pass.runWith_bind_of_ok _ hupdate).trans ?_
    unfold wanted
    cases d.memberRefs.find? fun r => (s.builds.find? r).isNone <;> rfl

/-- The defects with the marks of the given ones brought up to date. -/
def remark (ds : List Defect) (s : DefectStore) : DefectStore :=
  ds.foldl (fun s d => s.alter d.id (marked builds)) s

@[simp] theorem lastId_remark (ds : List Defect) (s : DefectStore) :
    (remark builds ds s).lastId = s.lastId := by
  induction ds generalizing s with
  | nil => rfl
  | cons d ds ih => exact ih _

theorem find?_remark {ds : List Defect} (hnd : (ds.map (·.id)).Nodup) (s : DefectStore) (k : Nat) :
    (remark builds ds s).find? k =
      if k ∈ ds.map (·.id) then (s.find? k).map (marked builds) else s.find? k := by
  induction ds generalizing s with
  | nil => simp [remark]
  | cons d ds ih =>
    obtain ⟨hd, hnd'⟩ := List.nodup_cons.1 hnd
    change (remark builds ds (s.alter d.id (marked builds))).find? k = _
    rw [ih hnd', find?_alter]
    by_cases hk : d.id = k
    · subst hk
      rw [if_neg hd]
      simp
    · simp [hk, Ne.symm hk]

theorem exec_foldlM_checkDefect :
    ∀ (ds : List Defect) (counts : Nat × Nat) (s : Stores),
      (∀ d ∈ ds, s.defects.find? d.id = some d) → (ds.map (·.id)).Nodup →
      Pass.exec (ds.foldlM checkDefect counts) s =
        (.ok (ds.foldl (tally s.builds) counts),
          { s with defects := remark s.builds ds s.defects })
  | [], _, _, _, _ => rfl
  | d :: ds, counts, s, hfind, hnd => by
    obtain ⟨hd, hnd'⟩ := List.nodup_cons.1 hnd
    have hstep := exec_checkDefect (hfind d (by simp)) counts
    have hrest : ∀ d' ∈ ds, (s.defects.alter d.id (marked s.builds)).find? d'.id = some d' := by
      intro d' hd'
      rw [find?_alter_of_ne, hfind d' (by simp [hd'])]
      intro he
      exact hd (List.mem_map.2 ⟨d', hd', he.symm⟩)
    rw [List.foldlM_cons]
    exact (Pass.runWith_bind_of_ok _ hstep).trans
      (exec_foldlM_checkDefect ds _ { s with defects := s.defects.alter d.id (marked s.builds) }
        hrest hnd')

/-- The defects with all marks brought up to date. -/
def remarked (s : Stores) : DefectStore := remark s.builds s.defects.all s.defects

theorem find?_remarked {s : Stores} (hs : s.defects.Keyed) (k : Nat) :
    (remarked s).find? k = (s.defects.find? k).map (marked s.builds) := by
  unfold remarked
  rw [find?_remark _ (hs.map_id_all ▸ OrderedMap.nodup_keys _), hs.map_id_all]
  split
  · rfl
  · rename_i hk
    rw [OrderedMap.mem_keys_iff, Option.not_isSome_iff_eq_none] at hk
    change s.defects.find? k = none at hk
    rw [hk]
    rfl

theorem exec_checkConsistency {s : Stores} (hs : s.defects.Keyed) :
    checkConsistency.exec s =
      (.ok (s.defects.all.foldl (tally s.builds) (0, 0)), { s with defects := remarked s }) := by
  have hall : (Pass.ask .allDefects).exec s = (.ok s.defects.all, s) :=
    Pass.runWith_ask_of_ok _ (c := .allDefects) rfl
  have hloop := exec_foldlM_checkDefect s.defects.all (0, 0) s
    (fun d hd => hs.find?_of_mem_all hd) (hs.map_id_all ▸ OrderedMap.nodup_keys _)
  unfold checkConsistency Pass.exec
  rw [Pass.runWith_bind_of_ok _ hall, Pass.runWith_bind_of_ok _ hloop]
  rfl

/-! ### Whole runs -/

/-- The defects that a run leaves. -/
def remaining (threshold : Timestamp) (budget : Nat) (s : Stores) : DefectStore :=
  ((remarked s).removeOld threshold budget).2

/-- The issues that a run leaves. -/
def remainingIssues (threshold : Timestamp) (budget : Nat) (s : Stores) : IssueStore :=
  (s.issues.removeOld threshold budget
    (buildsOf (remaining threshold budget s).openDefects)).2

/-- A run with its threshold given. -/
def runBefore (cfg : CleanerConfig) (t : Except Timestamp.Overflow Timestamp) : Pass Report := do
  let threshold ← Pass.ofTime t
  Pass.log (.removingOldRecords cfg.budget)
  let (flagged, restored) ← checkConsistency
  let defects : Nat ← Pass.ask (.removeOldDefects threshold cfg.budget)
  Pass.log (.oldDefectsRemoved defects)
  let kept := buildsOf (← Pass.ask .openDefects)
  let issues : Nat ← Pass.ask (.removeOldIssues threshold cfg.budget kept)
  Pass.log (.oldIssuesRemoved issues)
  Pass.log (.cleanFinished flagged restored defects issues)
  return ⟨flagged, restored, defects, issues⟩

theorem clean_eq_runBefore {cfg : CleanerConfig} (h : cfg.enabled = true) (now : Timestamp) :
    clean cfg now = runBefore cfg (now.minusDays cfg.safeDays) := by
  unfold clean
  rw [h]
  rfl

theorem exec_clean_of_disabled {cfg : CleanerConfig} (h : cfg.enabled = false) (now : Timestamp)
    (s : Stores) : (clean cfg now).exec s = (.ok .empty, s) := by
  unfold clean
  rw [h]
  rfl

theorem exec_clean_of_error {cfg : CleanerConfig} (h : cfg.enabled = true) {now : Timestamp}
    {o : Timestamp.Overflow} (ht : now.minusDays cfg.safeDays = .error o) (s : Stores) :
    (clean cfg now).exec s = (.error (.crash o), s) := by
  rw [clean_eq_runBefore h, ht]
  rfl

theorem exec_clean_of_ok {s : Stores} (hs : s.defects.Keyed) {cfg : CleanerConfig}
    (h : cfg.enabled = true) {now threshold : Timestamp}
    (ht : now.minusDays cfg.safeDays = .ok threshold) :
    (clean cfg now).exec s =
      (.ok ⟨(s.defects.all.foldl (tally s.builds) (0, 0)).1,
          (s.defects.all.foldl (tally s.builds) (0, 0)).2,
          ((remarked s).removeOld threshold cfg.budget).1,
          (s.issues.removeOld threshold cfg.budget
            (buildsOf (remaining threshold cfg.budget s).openDefects)).1⟩,
        { s with
          defects := remaining threshold cfg.budget s
          issues := remainingIssues threshold cfg.budget s }) := by
  rw [clean_eq_runBefore h, ht]
  have hcheck := exec_checkConsistency hs
  have hremove : ∀ s : Stores, (Pass.ask (.removeOldDefects threshold cfg.budget)).exec s =
      (.ok (s.defects.removeOld threshold cfg.budget).1,
        { s with defects := (s.defects.removeOld threshold cfg.budget).2 }) :=
    fun s => Pass.runWith_ask_of_ok _ (c := .removeOldDefects threshold cfg.budget) rfl
  have hopen : ∀ s : Stores, (Pass.ask .openDefects).exec s = (.ok s.defects.openDefects, s) :=
    fun s => Pass.runWith_ask_of_ok _ (c := .openDefects) rfl
  have hissues : ∀ (kept : OrderedSet BuildRef) (s : Stores),
      (Pass.ask (.removeOldIssues threshold cfg.budget kept)).exec s =
        (.ok (s.issues.removeOld threshold cfg.budget kept).1,
          { s with issues := (s.issues.removeOld threshold cfg.budget kept).2 }) :=
    fun kept s => Pass.runWith_ask_of_ok _ (c := .removeOldIssues threshold cfg.budget kept) rfl
  have hlog : ∀ (r : LogRecord) (s : Stores), (Pass.log r).exec s = (.ok (), s) :=
    fun _ _ => rfl
  generalize s.defects.all.foldl (tally s.builds) (0, 0) = counts at hcheck ⊢
  obtain ⟨flagged, restored⟩ := counts
  unfold runBefore Pass.exec
  rw [Pass.runWith_bind, Pass.runWith_ofTime]
  simp only
  rw [Pass.runWith_bind_of_ok _ (hlog _ _), Pass.runWith_bind_of_ok _ hcheck]
  simp only
  rw [Pass.runWith_bind_of_ok _ (hremove _), Pass.runWith_bind_of_ok _ (hlog _ _),
    Pass.runWith_bind_of_ok _ (hopen _), Pass.runWith_bind_of_ok _ (hissues _ _)]
  rfl

end Triage.Cleaning
