import Triage.Proofs.Cleaning
import Triage.Proofs.Clustering.Placement

/-!
# Histories of the stores

An `Operation` is something that is done to the stores as a whole: a record is put in or taken away,
or a pass runs from its beginning to its end.  `Reachable` stores are those that operations, in any
order and number, make of empty ones.
-/

namespace Triage

/-! ### Resolving and discarding -/

namespace Clustering

open DefectStore

theorem faithful_resolution (now : Timestamp) (user : String) : Faithful (resolution now user) := by
  intro d h
  unfold resolution at h ⊢
  split at h
  · cases h
  · rfl

theorem resolution_of_isOpen {now : Timestamp} {user : String} {d : Defect}
    (h : d.isOpen = true) :
    resolution now user d = (true, { d with resolvedAt := some now, resolvedBy := some user }) := by
  unfold resolution Defect.resolve
  rw [if_pos h]

theorem resolution_of_not_isOpen {now : Timestamp} {user : String} {d : Defect}
    (h : d.isOpen = false) : resolution now user d = (false, d) := by
  unfold resolution Defect.resolve
  rw [if_neg (by simp [h])]

/-- A defect once it has been resolved by a user, unless it was closed before. -/
abbrev resolved (now : Timestamp) (user : String) (d : Defect) : Defect := (resolution now user d).2

theorem exec_loadDefect (id : Nat) (s : Stores) :
    (Pass.ask (.loadDefect id)).exec s = (.ok (s.defects.find? id), s) :=
  Pass.runWith_ask_of_ok _ (c := .loadDefect id) rfl

theorem exec_resolve_of_none {s : Stores} {id : Nat} (h : s.defects.find? id = none)
    (now : Timestamp) (user : String) :
    (resolve now id user).exec s = (.error (.error (.defectNotFound id)), s) := by
  unfold resolve Pass.exec
  rw [Pass.runWith_bind_of_ok _ (exec_loadDefect id s), h]
  exact Pass.runWith_fail _ _ _

theorem exec_resolve_of_not_isOpen {s : Stores} {id : Nat} {d : Defect}
    (h : s.defects.find? id = some d) (ho : d.isOpen = false) (now : Timestamp) (user : String) :
    (resolve now id user).exec s = (.error (.error (.alreadyResolved id)), s) := by
  unfold resolve Pass.exec
  rw [Pass.runWith_bind_of_ok _ (exec_loadDefect id s), h]
  simp only [ho]
  rfl

theorem exec_resolve_of_isOpen {s : Stores} {id : Nat} {d : Defect}
    (h : s.defects.find? id = some d) (ho : d.isOpen = true) (now : Timestamp) (user : String) :
    (resolve now id user).exec s =
      (.ok (), { s with defects := s.defects.alter id (resolved now user) }) := by
  have hupdate := Pass.exec_update (faithful_resolution now user) h
  rw [resolution_of_isOpen ho] at hupdate
  unfold resolve Pass.exec
  rw [Pass.runWith_bind_of_ok _ (exec_loadDefect id s), h]
  simp only [ho]
  exact (Pass.runWith_bind_of_ok _ hupdate)

/-- The stores after an attempt to resolve a defect, successful or not. -/
theorem exec_resolve_snd (s : Stores) (now : Timestamp) (id : Nat) (user : String) :
    ((resolve now id user).exec s).2 =
      { s with defects := s.defects.alter id (resolved now user) } := by
  cases h : s.defects.find? id with
  | none =>
    rw [exec_resolve_of_none h, alter_eq_self]
    intro d hd
    rw [h] at hd
    cases hd
  | some d =>
    cases ho : d.isOpen with
    | true => rw [exec_resolve_of_isOpen h ho]
    | false =>
      rw [exec_resolve_of_not_isOpen h ho, alter_eq_self]
      intro d' hd'
      rw [h] at hd'
      cases hd'
      unfold resolved
      rw [resolution_of_not_isOpen ho]

end Clustering

namespace Cleaning

theorem exec_discardBroken_of_none {s : Stores} {id : Nat} (h : s.defects.find? id = none)
    (user : String) :
    (discardBroken id user).exec s = (.error (.error (.defectNotFound id)), s) := by
  unfold discardBroken Pass.exec
  rw [Pass.runWith_bind_of_ok _ (Clustering.exec_loadDefect id s), h]
  exact Pass.runWith_fail _ _ _

theorem exec_discardBroken_of_consistent {s : Stores} {id : Nat} {d : Defect}
    (h : s.defects.find? id = some d) (hc : d.consistency ≠ .broken) (user : String) :
    (discardBroken id user).exec s = (.error (.error (.notBroken id)), s) := by
  unfold discardBroken Pass.exec
  rw [Pass.runWith_bind_of_ok _ (Clustering.exec_loadDefect id s), h]
  simp only [if_pos hc]
  rfl

theorem exec_discardBroken_of_broken {s : Stores} {id : Nat} {d : Defect}
    (h : s.defects.find? id = some d) (hc : d.consistency = .broken) (user : String) :
    (discardBroken id user).exec s =
      (.ok (), { s with defects := (s.defects.remove id).2 }) := by
  have hremove : (Pass.ask (.removeDefect id)).exec s =
      (.ok (s.defects.remove id).1, { s with defects := (s.defects.remove id).2 }) :=
    Pass.runWith_ask_of_ok _ (c := .removeDefect id) rfl
  unfold discardBroken Pass.exec
  rw [Pass.runWith_bind_of_ok _ (Clustering.exec_loadDefect id s), h]
  simp only [hc, ne_eq, not_true_eq_false, if_false]
  exact (Pass.runWith_bind_of_ok _ hremove)

end Cleaning

/-! ### Operations -/

/-- The stores after a pass, whether it succeeds or not. -/
def Pass.after {α : Type} (p : Pass α) (s : Stores) : Stores := (p.exec s).2

theorem Pass.after_eq {α : Type} (p : Pass α) (s : Stores) : p.after s = (p.exec s).2 := rfl

/-- Something that is done to the stores from its beginning to its end. -/
inductive Operation where
  | saveIssue (i : Issue)
  /-- Adds the snapshot of a build or replaces the one that is there. -/
  | putBuild (b : BuildSnapshot)
  | removeBuild (r : BuildRef)
  | cluster (cfg : ClusteringConfig) (now : Timestamp)
  | resolve (now : Timestamp) (id : Nat) (user : String)
  | checkConsistency
  | clean (cfg : CleanerConfig) (now : Timestamp)
  | discardBroken (id : Nat) (user : String)

/-- The stores after an operation. -/
def Operation.run : Operation → Stores → Stores
  | saveIssue i, s => { s with issues := s.issues.save i }
  | putBuild b, s => s.putBuild b
  | removeBuild r, s => s.removeBuild r
  | cluster cfg now, s => (Clustering.cluster cfg now).after s
  | resolve now id user, s => (Clustering.resolve now id user).after s
  | checkConsistency, s => Cleaning.checkConsistency.after s
  | clean cfg now, s => (Cleaning.clean cfg now).after s
  | discardBroken id user, s => (Cleaning.discardBroken id user).after s

/-- For stores with an outcome in them: by comparing the two sides Lean would run the pass. -/
theorem Stores.defects_update (s : Stores) (ds : DefectStore) :
    ({ s with defects := ds } : Stores).defects = ds := rfl

theorem Clustering.exec_cluster_defects {s : Stores} (hs : s.defects.WellFormed)
    {cfg : ClusteringConfig} {now since : Timestamp}
    (h : now.minusDays cfg.lookbackDays = .ok since) :
    ∃ s', (cluster cfg now).exec s = (.ok (outcome cfg now s).1, s') ∧
      s'.defects = (outcome cfg now s).2 :=
  ⟨_, exec_cluster_of_ok hs h, Stores.defects_update s _⟩

theorem Operation.defects_cluster {s : Stores} (hs : s.defects.WellFormed) (cfg : ClusteringConfig)
    (now : Timestamp) :
    ((cluster cfg now).run s).defects = (Clustering.outcome cfg now s).2 := by
  rw [run, Pass.after_eq, Clustering.exec_cluster_snd hs, Stores.defects_update]

/-- The stores after one operation after the other. -/
def Operation.runAll (os : List Operation) (s : Stores) : Stores := os.foldl (fun s o => o.run s) s

/-- Stores that operations make of empty ones. -/
inductive Reachable : Stores → Prop
  | empty : Reachable .empty
  | run {s : Stores} (o : Operation) (h : Reachable s) : Reachable (o.run s)

theorem Reachable.runAll {s : Stores} (h : Reachable s) (os : List Operation) :
    Reachable (Operation.runAll os s) := by
  induction os generalizing s with
  | nil => exact h
  | cons o os ih => exact ih (.run o h)

/-! ### A build that bridges two others -/

def bridgeTime : Timestamp := .ofMillis 1700000000000

def bridgeBuild (n : Nat) (changes : List Change) : BuildSnapshot :=
  ⟨"apache", n, none, none, [], changes, .empty⟩

def bridgeIssue (n : Nat) (name : String) (branch : Option String) : Issue :=
  { Issue.make ⟨"apache", n, name⟩ .newFailure bridgeTime with trackedBranch := branch }

def firstChange : Change := ⟨1, ⟨[1]⟩, "dev01", none⟩

def secondChange : Change := ⟨2, ⟨[2]⟩, "dev02", none⟩

/-- Two builds without a common commit, and a third one that shares a commit with each of them.  Of
their issues only the second has a branch. -/
def bridging : List Operation :=
  [.putBuild (bridgeBuild 1 [firstChange]), .putBuild (bridgeBuild 2 [secondChange]),
    .putBuild (bridgeBuild 3 [firstChange, secondChange]), .saveIssue (bridgeIssue 1 "t1" none),
    .saveIssue (bridgeIssue 2 "t2" (some "master")), .saveIssue (bridgeIssue 3 "t3" none)]

end Triage
