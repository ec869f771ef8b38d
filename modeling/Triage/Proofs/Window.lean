import Triage.Proofs.Notification.Delivery
import Triage.Proofs.Operation
import Triage.Proofs.Time

/-!
# Windows of time

Each pass looks back over a window that its settings give, and computing the start of the window is
the only step at which it can break off.  `Config.validate` asks for windows that are not empty and
sets no upper bound, so a pass breaks off exactly when its window reaches back before the first year
that a timestamp can have (`Config.crashes_iff`).
-/

namespace Triage

namespace Work

variable {α β σ : Type} {P : α → Prop} {Q : β → Prop}

/-- Whatever its steps give, the work yields a value that satisfies `P`. -/
def Yields (P : α → Prop) : Work α → Prop
  | done a => P a
  | call _ next => ∀ r, (next r).Yields P
  | send _ next => ∀ r, (next r).Yields P
  | log _ next => next.Yields P

theorem Yields.run {w : Work α} (hw : w.Yields P) (h : Handler σ) (s : σ) : P (w.run h s).1 := by
  induction w generalizing s with
  | done a => exact hw
  | call c next ih => exact ih _ (hw _) _
  | send m next ih => exact ih _ (hw _) _
  | log r next ih => exact ih hw _

theorem Yields.bind {w : Work α} {f : α → Work β} (hw : w.Yields P) (hf : ∀ a, P a → (f a).Yields Q) :
    (w.bind f).Yields Q := by
  induction w with
  | done a => exact hf a hw
  | call c next ih => exact fun r => ih r (hw r)
  | send m next ih => exact fun r => ih r (hw r)
  | log r next ih => exact ih hw

end Work

namespace Pass

variable {α β σ : Type}

/-- The pass breaks off, because its window cannot be computed. -/
def Crashes (p : Pass α) (h : Work.Handler σ) (s : σ) : Prop :=
  ∃ o, (p.runWith h s).1 = .error (.crash o)

/-- Whatever its steps give, the pass does not break off. -/
def CrashFree (p : Pass α) : Prop := p.run.Yields fun r => ∀ o, r ≠ .error (.crash o)

theorem CrashFree.not_crashes {p : Pass α} (hp : p.CrashFree) (h : Work.Handler σ) (s : σ) :
    ¬ p.Crashes h s := fun ⟨o, ho⟩ => Work.Yields.run hp h s o ho

theorem crashFree_pure (a : α) : (pure a : Pass α).CrashFree := fun _ ho => by cases ho

theorem crashFree_ask (c : Call) : (ask c).CrashFree := by
  intro answer
  cases answer <;> exact fun _ ho => by cases ho

theorem crashFree_send (m : Message) : (send m).CrashFree := fun _ _ ho => by cases ho

theorem crashFree_log (r : LogRecord) : (log r).CrashFree := fun _ ho => by cases ho

theorem CrashFree.bind {p : Pass α} {f : α → Pass β} (hp : p.CrashFree)
    (hf : ∀ a, (f a).CrashFree) : (p >>= f).CrashFree := by
  refine Work.Yields.bind (f := ExceptT.bindCont f) hp fun r hr => ?_
  cases r with
  | ok a => exact hf a
  | error e =>
    intro o ho
    cases ho
    exact hr o rfl

theorem CrashFree.ite {p q : Pass α} {c : Prop} [Decidable c] (hp : p.CrashFree)
    (hq : q.CrashFree) : (if c then p else q).CrashFree := by
  split
  · exact hp
  · exact hq

theorem CrashFree.foldlM {step : β → α → Pass β} (hstep : ∀ b a, (step b a).CrashFree)
    (as : List α) (b : β) : (as.foldlM step b).CrashFree := by
  induction as generalizing b with
  | nil => exact crashFree_pure b
  | cons a as ih => exact (hstep b a).bind ih

/-- A pass that does not break off once it has its window breaks off exactly without one. -/
theorem crashes_ofTime_iff (t : Except Timestamp.Overflow Timestamp) {f : Timestamp → Pass α}
    (hf : ∀ u, (f u).CrashFree) (h : Work.Handler σ) (s : σ) :
    (ofTime t >>= f).Crashes h s ↔ ∃ o, t = .error o := by
  constructor
  · rintro ⟨o, ho⟩
    cases t with
    | ok u =>
      have hrun : (ofTime (.ok u) >>= f).runWith h s = (f u).runWith h s :=
        runWith_bind_of_ok h (runWith_pure h u s)
      rw [hrun] at ho
      exact absurd ⟨o, ho⟩ ((hf u).not_crashes h s)
    | error o => exact ⟨o, rfl⟩
  · rintro ⟨o, rfl⟩
    exact ⟨o, rfl⟩

end Pass

open Pass

/-! ### The passes, given their windows -/

namespace Clustering

theorem crashFree_mergeAll (now : Timestamp) (target : Nat) (ids : List Nat) (r : Report) :
    (mergeAll now target ids r).CrashFree := by
  induction ids generalizing r with
  | nil => exact crashFree_pure r
  | cons id ids ih =>
    unfold mergeAll
    refine (crashFree_ask (.loadDefect id)).bind fun other => ?_
    split
    · exact ih r
    · exact ((crashFree_ask _).bind fun _ => (crashFree_ask _).bind fun _ => ih _).ite (ih r)

theorem crashFree_attachTo (id : Nat) (i : Issue) (b : BuildSnapshot) (r : Report) :
    (attachTo id i b r).CrashFree := by
  unfold attachTo
  exact (crashFree_ask (.updateDefect id (attach i b))).bind fun _ =>
    ((crashFree_log _).bind fun _ => crashFree_pure _).ite (crashFree_pure _)

theorem crashFree_clusterIssue (now : Timestamp) (i : Issue) (b : BuildSnapshot) (r : Report) :
    (clusterIssue now i b r).CrashFree := by
  unfold clusterIssue
  refine (crashFree_ask .allDefects).bind fun ds => ?_
  dsimp only
  split
  · exact crashFree_attachTo _ i b r
  · split
    · exact (crashFree_ask .nextDefectId).bind fun id => (crashFree_ask _).bind fun _ =>
        (crashFree_log _).bind fun _ => crashFree_pure _
    · exact crashFree_attachTo _ i b r
    · exact ((crashFree_mergeAll now _ _ r).bind fun _ =>
        (crashFree_log _).bind fun _ => crashFree_pure _).bind fun r => crashFree_attachTo _ i b r

theorem crashFree_clusterAll (now : Timestamp) (is : List Issue) (r : Report) :
    (clusterAll now is r).CrashFree := by
  induction is generalizing r with
  | nil => exact crashFree_pure r
  | cons i is ih =>
    unfold clusterAll
    refine (crashFree_ask (.build i.key.ref)).bind fun b => ?_
    split
    · exact (crashFree_log _).bind fun _ => ih _
    · exact (crashFree_clusterIssue now i _ _).bind fun _ => ih _

theorem crashes_cluster_iff (cfg : ClusteringConfig) (now : Timestamp) {σ : Type}
    (h : Work.Handler σ) (s : σ) :
    (cluster cfg now).Crashes h s ↔ ∃ o, now.minusDays cfg.lookbackDays = .error o :=
  crashes_ofTime_iff _ (fun _ => (crashFree_ask .allIssues).bind fun _ =>
    crashFree_clusterAll now _ _) h s

end Clustering

namespace Cleaning

theorem crashFree_firstUnresolvable (rs : List BuildRef) : (firstUnresolvable rs).CrashFree := by
  induction rs with
  | nil => exact crashFree_pure none
  | cons r rs ih =>
    unfold firstUnresolvable
    refine (crashFree_ask (.build r)).bind fun b => ?_
    split
    · exact crashFree_pure _
    · exact ih

theorem crashFree_checkDefect (counts : Nat × Nat) (d : Defect) :
    (checkDefect counts d).CrashFree := by
  unfold checkDefect
  refine (crashFree_firstUnresolvable _).bind fun unresolvable => (crashFree_pure _).ite ?_
  refine (crashFree_ask _).bind fun changed => .ite ?_ (crashFree_pure _)
  cases unresolvable <;> exact (crashFree_log _).bind fun _ => crashFree_pure _

theorem crashFree_checkConsistency : checkConsistency.CrashFree :=
  (crashFree_ask .allDefects).bind fun ds =>
    (CrashFree.foldlM crashFree_checkDefect ds (0, 0)).bind fun _ =>
      (crashFree_log _).bind fun _ => crashFree_pure _

theorem crashes_clean_iff (cfg : CleanerConfig) (now : Timestamp) {σ : Type}
    (h : Work.Handler σ) (s : σ) :
    (clean cfg now).Crashes h s ↔
      cfg.enabled = true ∧ ∃ o, now.minusDays cfg.safeDays = .error o := by
  cases he : cfg.enabled with
  | false =>
    have hfree : (clean cfg now).CrashFree := by
      unfold clean
      rw [he]
      exact (crashFree_log _).bind fun _ => crashFree_pure _
    exact ⟨fun hcrash => absurd hcrash (hfree.not_crashes h s), fun hcrash => by cases hcrash.1⟩
  | true =>
    rw [clean_eq_runBefore he, and_iff_right rfl]
    exact crashes_ofTime_iff _ (fun _ => (crashFree_log _).bind fun _ =>
      crashFree_checkConsistency.bind fun _ => (crashFree_ask _).bind fun _ =>
      (crashFree_log _).bind fun _ => (crashFree_ask .openDefects).bind fun _ =>
      (crashFree_ask _).bind fun _ => (crashFree_log _).bind fun _ =>
      (crashFree_log _).bind fun _ => crashFree_pure _) h s

end Cleaning

namespace Notification

theorem crashFree_offer (maxRetries : Nat) (i : Issue) (acc : Queue × SubscriberStat)
    (s : Subscriber) : (offer maxRetries i acc s).CrashFree := by
  unfold offer
  refine (crashFree_pure _).ite ((crashFree_pure _).ite ((crashFree_pure _).ite ?_))
  exact (crashFree_ask _).bind fun _ =>
    ((crashFree_log _).bind fun _ => crashFree_pure _).ite (crashFree_pure _)

theorem crashFree_offerAll (cfg : NotificationConfig) (q : Queue) (i : Issue) :
    (offerAll cfg q i).CrashFree :=
  (CrashFree.foldlM (crashFree_offer cfg.maxRetries i) cfg.subscribers _).bind fun _ =>
    (crashFree_ask _).bind fun _ => crashFree_pure _

theorem crashFree_recordFailures (maxRetries : Nat) (address reason : String) (is : List Issue) :
    (recordFailures maxRetries address reason is).CrashFree := by
  induction is with
  | nil => exact crashFree_pure ()
  | cons i is ih => exact (crashFree_ask _).bind fun _ => ih

theorem crashFree_deliver (maxRetries : Nat) (r : Report) (n : Notification) :
    (deliver maxRetries r n).CrashFree := by
  unfold deliver
  refine (crashFree_send n.message).bind fun answer => ?_
  split
  · exact (crashFree_log _).bind fun _ => crashFree_pure _
  · exact (crashFree_log _).bind fun _ => (crashFree_recordFailures _ _ _ _).bind fun _ =>
      crashFree_pure _

theorem crashes_sendNew_iff (cfg : NotificationConfig) (now : Timestamp) {σ : Type}
    (h : Work.Handler σ) (s : σ) :
    (sendNew cfg now).Crashes h s ↔ ∃ o, now.minusMinutes cfg.recentMinutes = .error o :=
  crashes_ofTime_iff _ (fun _ => (crashFree_ask .allIssues).bind fun _ =>
    (CrashFree.foldlM (crashFree_offerAll cfg) _ _).bind fun _ =>
      CrashFree.foldlM (crashFree_deliver cfg.maxRetries) _ _) h s

end Notification

/-! ### Validated settings -/

namespace Config

theorem fault?_eq_none {c : Config} (h : c.validate = .ok c) : c.fault? = none := by
  unfold validate at h
  cases hf : c.fault? with
  | none => rfl
  | some fault =>
    rw [hf] at h
    cases h

/-- The windows of validated settings are not empty. -/
theorem windows_pos {c : Config} (h : c.validate = .ok c) :
    0 < c.clustering.lookbackDays ∧ 0 < c.cleaner.safeDays ∧ 0 < c.notifications.recentMinutes := by
  have hnone := fault?_eq_none h
  unfold fault? at hnone
  split_ifs at hnone with _ _ _ hlookback hsafe hrecent
  exact ⟨by omega, by omega, by omega⟩

/-- With validated settings and whatever the stores and the transport answer, a pass breaks off exactly
when its window reaches back before the first second that a timestamp can have. -/
theorem crashes_iff {c : Config} (hc : c.validate = .ok c) {now : Timestamp} (hnow : now.IsClockTime)
    {σ : Type} (h : Work.Handler σ) (s : σ) :
    ((Clustering.cluster c.clustering now).Crashes h s ↔
      now.second - c.clustering.lookbackDays * 86400 < Timestamp.firstSecond) ∧
    ((Cleaning.clean c.cleaner now).Crashes h s ↔
      c.cleaner.enabled = true ∧ now.second - c.cleaner.safeDays * 86400 < Timestamp.firstSecond) ∧
    ((Notification.sendNew c.notifications now).Crashes h s ↔
      now.second - c.notifications.recentMinutes * 60 < Timestamp.firstSecond) := by
  obtain ⟨hlookback, hsafe, hrecent⟩ := windows_pos hc
  refine ⟨?_, ?_, ?_⟩
  · rw [Clustering.crashes_cluster_iff, Timestamp.exists_minusDays_error_iff hnow hlookback]
  · rw [Cleaning.crashes_clean_iff, Timestamp.exists_minusDays_error_iff hnow hsafe]
  · rw [Notification.crashes_sendNew_iff, Timestamp.exists_minusMinutes_error_iff hnow hrecent]

/-- Settings that are meant to keep every record. -/
def keepsAll : Config :=
  { Config.default with cleaner := { CleanerConfig.default with safeDays := 100000000 } }

/-- The removal run breaks off instead of keeping everything; the other two passes do their work. -/
theorem crashes_iff_keepsAll :
    keepsAll.validate = .ok keepsAll ∧ bridgeTime.IsClockTime ∧
    ¬ (Clustering.cluster keepsAll.clustering bridgeTime).Crashes
      (Stores.handler fun _ => .ok ()) .empty ∧
    (Cleaning.clean keepsAll.cleaner bridgeTime).Crashes (Stores.handler fun _ => .ok ()) .empty ∧
    ¬ (Notification.sendNew keepsAll.notifications bridgeTime).Crashes
      (Stores.handler fun _ => .ok ()) .empty := by
  have hvalid : keepsAll.validate = .ok keepsAll := by decide
  have hnow : bridgeTime.IsClockTime := by unfold Timestamp.IsClockTime; decide
  obtain ⟨hcluster, hclean, hsend⟩ :=
    crashes_iff hvalid hnow (Stores.handler fun _ => .ok ()) Stores.empty
  rw [hcluster, hclean, hsend]
  exact ⟨hvalid, hnow, by decide, by decide, by decide⟩

/-- Windows as long as the settings can give them. -/
def longest : Config :=
  { Config.default with
    clustering := { ClusteringConfig.default with lookbackDays := 9223372036854775807 }
    cleaner := { CleanerConfig.default with safeDays := 9223372036854775807 }
    notifications := { NotificationConfig.default with recentMinutes := 9223372036854775807 } }

/-- Windows of this length pass the check of the settings, and no pass gets beyond computing them. -/
theorem crashes_longest :
    longest.validate = .ok longest ∧ bridgeTime.IsClockTime ∧
    ((Clustering.cluster longest.clustering bridgeTime).exec .empty).1 =
      .error (.crash .daysTooMany) ∧
    ((Cleaning.clean longest.cleaner bridgeTime).exec .empty).1 = .error (.crash .daysTooMany) ∧
    ((Notification.sendNew longest.notifications bridgeTime).exec .empty).1 =
      .error (.crash .minutesTooMany) := by
  have hvalid : longest.validate = .ok longest := by decide
  have hnow : bridgeTime.IsClockTime := by unfold Timestamp.IsClockTime; decide
  exact ⟨hvalid, hnow, rfl, rfl, rfl⟩

end Config

end Triage
