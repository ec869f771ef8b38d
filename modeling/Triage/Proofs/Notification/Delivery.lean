import Triage.Proofs.Notification.Marks

/-!
# Delivery at most once

A pass leads from a state in which no message about an issue is due to an address to another such
state (`Resting.send`): it marks the address and queues the issue once, and takes the mark back only
when the message has failed.  So over any number of passes, whatever becomes of each message, an
address gets at most one message about an issue (`Campaign.at_most_once`).
-/

namespace Triage

namespace Notification

open IssueStore

variable {a : String} {k : IssueKey} {maxRetries f : Nat} {x : Option Issue}
  {s : IssueStore} {outcomes : List Bool}

/-! ### Preparing a pass -/

/-- While a pass is prepared, a message is due exactly if the issue is in the queue of the address,
and then it is there once. -/
def Prepared (maxRetries : Nat) (k : IssueKey) (a : String) (outcomes : List Bool) (f : Nat)
    (acc : IssueStore × Queue) : Prop :=
  (acc.2.listed k a = 0 ∧ Resting maxRetries a outcomes f (acc.1.find? k)) ∨
    (acc.2.listed k a = 1 ∧ Queued maxRetries a outcomes f (acc.1.find? k))

variable {acc : IssueStore × Queue} {cfg : NotificationConfig}

theorem Prepared.undisturbed {acc' : IssueStore × Queue} (h : Prepared maxRetries k a outcomes f acc)
    (hlisted : acc'.2.listed k a = acc.2.listed k a)
    (hu : Undisturbed a 0 (acc.1.find? k) (acc'.1.find? k)) :
    Prepared maxRetries k a outcomes f acc' := by
  unfold Prepared
  rw [hlisted]
  exact h.imp (And.imp_right fun h => h.undisturbed hu) (And.imp_right fun h => h.undisturbed hu)

theorem Prepared.offer (h : Prepared maxRetries k a outcomes f acc) (i : Issue) (s : Subscriber) :
    Prepared maxRetries k a outcomes f (offered maxRetries i acc s) := by
  unfold offered
  split
  · cases hdue : (acc.1.announce i.key s.address maxRetries).1 with
    | false => exact h.undisturbed rfl (by rw [announce_of_not_due hdue]; exact .refl _)
    | true =>
      by_cases hone : s.address = a ∧ i.key = k
      · obtain ⟨rfl, rfl⟩ := hone
        rcases h with ⟨hlisted, hrest⟩ | ⟨-, hqueued⟩
        · refine .inr ⟨?_, hrest.announce hdue⟩
          simp [listed_enqueue, hlisted]
        · rw [hqueued.announce] at hdue
          cases hdue
      · refine h.undisturbed ?_ (undisturbed_announce fun hk ha => hone ⟨ha, hk⟩)
        simp [listed_enqueue, hone]
  · exact h

theorem Prepared.offerAll (h : Prepared cfg.maxRetries k a outcomes f acc) (i : Issue) :
    Prepared cfg.maxRetries k a outcomes f (offeredAll cfg acc i) := by
  have hfold : Prepared cfg.maxRetries k a outcomes f
      (cfg.subscribers.foldl (offered cfg.maxRetries i) acc) :=
    List.foldlRecOn cfg.subscribers _ h fun _ h' s _ => h'.offer i s
  exact hfold.undisturbed rfl (undisturbed_saveStat _ _ _ _)

theorem prepared_of_resting (h : Resting cfg.maxRetries a outcomes f (s.find? k)) (is : List Issue) :
    Prepared cfg.maxRetries k a outcomes f (prepared cfg is s) := by
  have hstart : Prepared cfg.maxRetries k a outcomes f (s, .empty) := .inl ⟨rfl, h⟩
  exact List.foldlRecOn is _ hstart fun _ h' i _ => h'.offerAll i

theorem addressed_offered (h : acc.2.Addressed) (i : Issue) (s : Subscriber) :
    (offered maxRetries i acc s).2.Addressed := by
  unfold offered
  split
  · simp only
    split
    · exact addressed_enqueue h s.address i
    · exact h
  · exact h

theorem addressed_offeredAll (h : acc.2.Addressed) (i : Issue) :
    (offeredAll cfg acc i).2.Addressed :=
  List.foldlRecOn (motive := fun acc : IssueStore × Queue => acc.2.Addressed) cfg.subscribers _ h
    fun _ h' s _ => addressed_offered h' i s

theorem addressed_prepared (cfg : NotificationConfig) (is : List Issue) (s : IssueStore) :
    (prepared cfg is s).2.Addressed := by
  have hstart : ((s, .empty) : IssueStore × Queue).2.Addressed := fun a n hn => by cases hn
  exact List.foldlRecOn (motive := fun acc : IssueStore × Queue => acc.2.Addressed) is _ hstart
    fun _ h i _ => addressed_offeredAll h i

/-! ### Delivering what is queued -/

/-- The issues once a failure has been recorded for each of those in a message. -/
def failedAll (maxRetries : Nat) (address reason : String) (is : List Issue) (s : IssueStore) :
    IssueStore :=
  is.foldl (fun s i => (s.recordFailure i.key address reason maxRetries).2) s

/-- A message that was handed to the transport, and whether it got through. -/
structure Attempt where
  notification : Notification
  ok : Bool

def Attempt.record (t : Attempt) : Message × Bool := (t.notification.message, t.ok)

/-- Whether the message goes to the address and lists the issue. -/
def Attempt.concerns (k : IssueKey) (a : String) (t : Attempt) : Bool :=
  t.notification.address = a && decide (0 < t.notification.listed k)

/-- Whether the message lists the issue and did not get through. -/
def Attempt.failedFor (k : IssueKey) (t : Attempt) : Bool :=
  !t.ok && decide (0 < t.notification.listed k)

section Deliver

variable (maxRetries : Nat) (reach : List (Message × Bool) → Message → Except ServiceError Unit)

/-- The outbox once a notification has been handed to the transport. -/
def delivered (o : Outbox) (n : Notification) : Outbox :=
  match reach o.sent n.message with
  | .ok () => { o with sent := o.sent ++ [(n.message, true)] }
  | .error e =>
    { o.withIssues (failedAll maxRetries n.address e.message n.issues o.stores.issues) with
      sent := o.sent ++ [(n.message, false)] }

/-- The attempts to deliver one notification after the other. -/
def attempts : List Notification → Outbox → List Attempt
  | [], _ => []
  | n :: ns, o => ⟨n, (reach o.sent n.message).isOk⟩ :: attempts ns (delivered maxRetries reach o n)

theorem runWith_recordFailures (address reason : String) :
    ∀ (is : List Issue) (o : Outbox),
      (recordFailures maxRetries address reason is).runWith (Outbox.handler reach) o =
        (.ok (), o.withIssues (failedAll maxRetries address reason is o.stores.issues))
  | [], _ => rfl
  | i :: is, o => by
    have hask : (Pass.ask (.recordFailure i.key address reason maxRetries)).runWith
        (Outbox.handler reach) o =
          (.ok (o.stores.issues.recordFailure i.key address reason maxRetries).1,
            o.withIssues (o.stores.issues.recordFailure i.key address reason maxRetries).2) :=
      Pass.runWith_ask_of_ok _ (c := .recordFailure i.key address reason maxRetries) rfl
    unfold recordFailures
    rw [Pass.runWith_bind_of_ok _ hask]
    exact runWith_recordFailures address reason is _

theorem runWith_deliver (r : Report) (n : Notification) (o : Outbox) :
    ∃ r', (deliver maxRetries r n).runWith (Outbox.handler reach) o =
      (.ok r', delivered maxRetries reach o n) := by
  have hsend : (Pass.send n.message).runWith (Outbox.handler reach) o =
      (.ok (reach o.sent n.message),
        { o with sent := o.sent ++ [(n.message, (reach o.sent n.message).isOk)] }) :=
    Pass.runWith_send _ _ _
  unfold deliver delivered
  rw [Pass.runWith_bind_of_ok _ hsend]
  cases reach o.sent n.message with
  | ok u => exact ⟨_, rfl⟩
  | error e =>
    have hlog : ∀ o, (Pass.log (.messageFailed n.address e.message)).runWith
        (Outbox.handler reach) o = (.ok (), o) := Pass.runWith_log _ _
    refine ⟨{ r with failed := r.failed + 1 }, ?_⟩
    simp only
    rw [Pass.runWith_bind_of_ok _ (hlog _),
      Pass.runWith_bind_of_ok _ (runWith_recordFailures maxRetries reach _ _ _ _)]
    rfl

theorem runWith_foldlM_deliver :
    ∀ (ns : List Notification) (r : Report) (o : Outbox),
      ∃ r', Pass.runWith (Outbox.handler reach) (ns.foldlM (deliver maxRetries) r) o =
        (.ok r', ns.foldl (delivered maxRetries reach) o)
  | [], r, _ => ⟨r, rfl⟩
  | n :: ns, r, o => by
    obtain ⟨r₁, h₁⟩ := runWith_deliver maxRetries reach r n o
    obtain ⟨r₂, h₂⟩ := runWith_foldlM_deliver ns r₁ (delivered maxRetries reach o n)
    refine ⟨r₂, ?_⟩
    rw [List.foldlM_cons, Pass.runWith_bind_of_ok _ h₁]
    exact h₂

theorem sent_delivered (o : Outbox) (n : Notification) :
    (delivered maxRetries reach o n).sent =
      o.sent ++ [(n.message, (reach o.sent n.message).isOk)] := by
  unfold delivered
  cases reach o.sent n.message <;> rfl

theorem sent_foldl_delivered :
    ∀ (ns : List Notification) (o : Outbox),
      (ns.foldl (delivered maxRetries reach) o).sent =
        o.sent ++ (attempts maxRetries reach ns o).map Attempt.record
  | [], _ => (List.append_nil _).symm
  | n :: ns, o => by
    rw [List.foldl_cons, sent_foldl_delivered ns, sent_delivered, List.append_assoc]
    rfl

theorem notification_attempts :
    ∀ (ns : List Notification) (o : Outbox),
      (attempts maxRetries reach ns o).map (·.notification) = ns
  | [], _ => rfl
  | n :: ns, _ => congrArg (n :: ·) (notification_attempts ns _)

end Deliver

/-! ### What a delivery does to the marks -/

/-- Of issues with different keys one at most has the key, and a failure is recorded for it. -/
theorem find?_failedAll {reason : String} {is : List Issue}
    (hone : (is.countP fun i => i.key = k) ≤ 1) (s : IssueStore) :
    (failedAll maxRetries a reason is s).find? k =
      if 0 < is.countP fun i => i.key = k then (s.find? k).map (noteFailure a reason maxRetries)
      else s.find? k := by
  induction is generalizing s with
  | nil => rfl
  | cons i is ih =>
    rw [List.countP_cons] at hone ⊢
    have htail : (failedAll maxRetries a reason (i :: is) s).find? k = _ :=
      ih (by omega) (s.recordFailure i.key a reason maxRetries).2
    rw [htail, find?_recordFailure]
    by_cases hk : i.key = k
    · have hnone : (is.countP fun i => i.key = k) = 0 := by simpa [hk] using hone
      simp [hk, hnone]
    · simp [hk]

theorem undisturbed_failedAll {address reason : String} {is : List Issue}
    (h : ∀ i ∈ is, i.key = k → address ≠ a) :
    Undisturbed a (is.countP fun i => i.key = k) (s.find? k)
      ((failedAll maxRetries address reason is s).find? k) := by
  induction is generalizing s with
  | nil => exact .refl _
  | cons i is ih =>
    have hhead : Undisturbed a (if i.key = k then 1 else 0) (s.find? k)
        ((s.recordFailure i.key address reason maxRetries).2.find? k) :=
      undisturbed_recordFailure reason (h i List.mem_cons_self)
    have htail := hhead.trans (ih fun j hj => h j (List.mem_cons_of_mem _ hj))
    rw [List.countP_cons, Nat.add_comm]
    simp only [decide_eq_true_eq]
    exact htail

variable {reach : List (Message × Bool) → Message → Except ServiceError Unit} {o : Outbox}
  {n : Notification}

theorem listed_pos_iff : 0 < n.listed k ↔ ∃ i ∈ n.issues, i.key = k := by
  unfold listed
  rw [List.countP_pos_iff]
  simp

/-- How a failed message about an issue is entered in the record of the issue. -/
theorem find?_delivered (maxRetries : Nat)
    (reach : List (Message × Bool) → Message → Except ServiceError Unit) (o : Outbox)
    (hone : n.listed k ≤ 1) :
    (delivered maxRetries reach o n).stores.issues.find? k =
      match reach o.sent n.message with
      | .ok () => o.stores.issues.find? k
      | .error e =>
        if 0 < n.listed k then
          (o.stores.issues.find? k).map (noteFailure n.address e.message maxRetries)
        else o.stores.issues.find? k := by
  unfold delivered
  cases reach o.sent n.message with
  | ok u => rfl
  | error e => exact find?_failedAll hone o.stores.issues

/-- Failures of a message to another address, or without the issue. -/
theorem undisturbed_of_not_listed {reason : String} {is : List Issue}
    (h : n.address = a → n.listed k = 0) (hsub : ∀ i ∈ is, i ∈ n.issues) :
    Undisturbed a (is.countP fun i => i.key = k) (s.find? k)
      ((failedAll maxRetries n.address reason is s).find? k) := by
  refine undisturbed_failedAll fun i hi hk ha => ?_
  have hpos := listed_pos_iff.2 ⟨i, hsub i hi, hk⟩
  rw [h ha] at hpos
  exact absurd hpos (Nat.lt_irrefl 0)

theorem undisturbed_delivered (h : n.address = a → n.listed k = 0) :
    Undisturbed a (if (reach o.sent n.message).isOk then 0 else n.listed k)
      (o.stores.issues.find? k) ((delivered maxRetries reach o n).stores.issues.find? k) := by
  unfold delivered
  cases reach o.sent n.message with
  | ok u => exact .refl _
  | error e => exact undisturbed_of_not_listed h fun _ hi => hi

/-- After the message that was due has been handed to the transport, none is due. -/
theorem Queued.deliver (h : Queued maxRetries a outcomes f (o.stores.issues.find? k))
    (ha : n.address = a) (hk : n.listed k = 1) :
    Resting maxRetries a (outcomes ++ [(reach o.sent n.message).isOk])
      (f + if (reach o.sent n.message).isOk then 0 else n.listed k)
      ((delivered maxRetries reach o n).stores.issues.find? k) := by
  subst ha
  rw [find?_delivered maxRetries reach o (Nat.le_of_eq hk), hk]
  cases reach o.sent n.message with
  | ok u =>
    obtain ⟨c, ho, hc, i, hi, hmark, -⟩ := h
    exact .inr ⟨c, by rw [ho]; rfl, hc, i, hi, hmark⟩
  | error e => exact h.fail

/-- A failed message that lists an issue at most once counts for one. -/
theorem failures_eq (hone : n.listed k ≤ 1) (ok : Bool) :
    (if ok then 0 else n.listed k) = if (Attempt.mk n ok).failedFor k then 1 else 0 := by
  cases ok with
  | true => rfl
  | false =>
    unfold Attempt.failedFor
    rcases Nat.le_one_iff_eq_zero_or_eq_one.1 hone with h | h <;> simp [h]

/-- The outcomes of the attempts that concern an issue and an address. -/
def outcomesOf (k : IssueKey) (a : String) (ts : List Attempt) : List Bool :=
  (ts.filter (Attempt.concerns k a)).map (·.ok)

theorem outcomesOf_cons (k : IssueKey) (a : String) (t : Attempt) (ts : List Attempt) :
    outcomesOf k a (t :: ts) =
      if t.concerns k a then t.ok :: outcomesOf k a ts else outcomesOf k a ts := by
  unfold outcomesOf
  rw [List.filter_cons]
  split <;> rfl

theorem resting_foldl_delivered :
    ∀ (ns : List Notification) (o : Outbox) (outcomes : List Bool) (f : Nat),
      (ns.map (·.address)).Nodup → (∀ n ∈ ns, n.listed k ≤ 1) →
      (∀ n ∈ ns, n.address = a → 0 < n.listed k →
        Queued maxRetries a outcomes f (o.stores.issues.find? k)) →
      ((∀ n ∈ ns, n.address = a → n.listed k = 0) →
        Resting maxRetries a outcomes f (o.stores.issues.find? k)) →
      Resting maxRetries a (outcomes ++ outcomesOf k a (attempts maxRetries reach ns o))
        (f + (attempts maxRetries reach ns o).countP (Attempt.failedFor k))
        ((ns.foldl (delivered maxRetries reach) o).stores.issues.find? k)
  | [], o, outcomes, f, _, _, _, hrest => by
    rw [attempts, outcomesOf, List.filter_nil, List.map_nil, List.append_nil]
    exact hrest fun n hn => absurd hn List.not_mem_nil
  | n :: ns, o, outcomes, f, hnd, hone, hqueued, hrest => by
    obtain ⟨hn, hnd'⟩ := List.nodup_cons.1 hnd
    have honen : n.listed k ≤ 1 := hone n List.mem_cons_self
    have hone' : ∀ n' ∈ ns, n'.listed k ≤ 1 := fun n' hn' => hone n' (List.mem_cons_of_mem _ hn')
    have hcount := failures_eq honen (reach o.sent n.message).isOk
    rw [List.foldl_cons, attempts, List.countP_cons, ← hcount, Nat.add_comm (List.countP _ _),
      ← Nat.add_assoc]
    by_cases hconcerns : n.address = a ∧ 0 < n.listed k
    · obtain ⟨ha, hk⟩ := hconcerns
      have hnone : ∀ n' ∈ ns, n'.address ≠ a := fun n' hn' ha' =>
        hn (List.mem_map.2 ⟨n', hn', ha'.trans ha.symm⟩)
      have hdone : Resting maxRetries a (outcomes ++ [(reach o.sent n.message).isOk])
          (f + if (reach o.sent n.message).isOk then 0 else n.listed k)
          ((delivered maxRetries reach o n).stores.issues.find? k) :=
        (hqueued n List.mem_cons_self ha hk).deliver ha (Nat.le_antisymm honen hk)
      have ih := resting_foldl_delivered ns (delivered maxRetries reach o n) _ _ hnd' hone'
        (fun n' hn' ha' => absurd ha' (hnone n' hn')) fun _ => hdone
      rw [outcomesOf_cons, if_pos (by simp [Attempt.concerns, ha, hk]), ← List.singleton_append,
        ← List.append_assoc]
      exact ih
    · have hzero : n.address = a → n.listed k = 0 := fun ha =>
        Nat.eq_zero_of_not_pos fun hk => hconcerns ⟨ha, hk⟩
      have hu : Undisturbed a (if (reach o.sent n.message).isOk then 0 else n.listed k)
          (o.stores.issues.find? k) ((delivered maxRetries reach o n).stores.issues.find? k) :=
        undisturbed_delivered hzero
      rw [outcomesOf_cons, if_neg (by simpa [Attempt.concerns] using hzero)]
      refine resting_foldl_delivered ns _ outcomes _ hnd' hone'
        (fun n' hn' ha' hk' => (hqueued n' (List.mem_cons_of_mem _ hn') ha' hk').undisturbed hu)
        fun hall => (hrest fun n' hn' ha' => ?_).undisturbed hu
      rcases List.mem_cons.1 hn' with rfl | hn'
      · exact hzero ha'
      · exact hall n' hn' ha'

/-! ### Passes

As in clustering, the beginning of the window stays a variable. -/

/-- A pass with the beginning of its window given. -/
def sendSince (cfg : NotificationConfig) (t : Except Timestamp.Overflow Timestamp) : Pass Report := do
  let cutoff ← Pass.ofTime t
  let recent := (← Pass.ask .allIssues).filter fun i => cutoff ≤ i.detectedAt
  let queue ← recent.foldlM (offerAll cfg) OrderedMap.empty
  queue.values.foldlM (deliver cfg.maxRetries) ⟨recent.length, 0, 0⟩

/-- The issues and the queue of a pass when it begins to deliver. -/
def preparedSince (cfg : NotificationConfig) (s : IssueStore) :
    Except Timestamp.Overflow Timestamp → IssueStore × Queue
  | .ok cutoff => prepared cfg (s.all.filter fun i => cutoff ≤ i.detectedAt) s
  | .error _ => (s, .empty)

/-- The outbox of a pass when it begins to deliver. -/
def ready (cfg : NotificationConfig) (t : Except Timestamp.Overflow Timestamp) (o : Outbox) : Outbox :=
  o.withIssues (preparedSince cfg o.stores.issues t).1

/-- What a pass hands to the transport. -/
def outgoing (cfg : NotificationConfig) (t : Except Timestamp.Overflow Timestamp) (o : Outbox) :
    List Notification :=
  (preparedSince cfg o.stores.issues t).2.values

theorem runWith_sendSince (cfg : NotificationConfig) (t : Except Timestamp.Overflow Timestamp)
    (reach : List (Message × Bool) → Message → Except ServiceError Unit) (o : Outbox) :
    ((sendSince cfg t).runWith (Outbox.handler reach) o).2 =
      (outgoing cfg t o).foldl (delivered cfg.maxRetries reach) (ready cfg t o) := by
  unfold sendSince
  rw [Pass.runWith_bind, Pass.runWith_ofTime]
  cases t with
  | error e => rfl
  | ok cutoff =>
    have hall : (Pass.ask .allIssues).runWith (Outbox.handler reach) o =
        (.ok o.stores.issues.all, o) := Pass.runWith_ask_of_ok _ (c := .allIssues) rfl
    simp only
    rw [Pass.runWith_bind_of_ok _ hall,
      Pass.runWith_bind_of_ok _ (runWith_foldlM_offerAll reach cfg _ _ _)]
    obtain ⟨r, hr⟩ := runWith_foldlM_deliver cfg.maxRetries reach
      (outgoing cfg (.ok cutoff) o)
      ⟨(o.stores.issues.all.filter fun i => cutoff ≤ i.detectedAt).length, 0, 0⟩
      (ready cfg (.ok cutoff) o)
    exact congrArg Prod.snd hr

theorem addressed_preparedSince (cfg : NotificationConfig) (s : IssueStore)
    (t : Except Timestamp.Overflow Timestamp) : (preparedSince cfg s t).2.Addressed := by
  cases t with
  | error e => exact fun a n hn => by cases hn
  | ok cutoff => exact addressed_prepared cfg _ s

theorem prepared_preparedSince (h : Resting cfg.maxRetries a outcomes f (s.find? k))
    (t : Except Timestamp.Overflow Timestamp) :
    Prepared cfg.maxRetries k a outcomes f (preparedSince cfg s t) := by
  cases t with
  | error e => exact .inl ⟨rfl, h⟩
  | ok cutoff => exact prepared_of_resting h _

theorem find?_of_mem_values {q : Queue} (hq : q.Addressed) (hn : n ∈ q.values) :
    q.find? n.address = some n := by
  obtain ⟨a, ha⟩ := OrderedMap.mem_values_iff.1 hn
  rw [hq a n ha]
  exact ha

theorem listed_of_mem_values {q : Queue} (hq : q.Addressed) (hn : n ∈ q.values) (k : IssueKey) :
    q.listed k n.address = n.listed k := by
  unfold Queue.listed
  rw [find?_of_mem_values hq hn]
  rfl

theorem map_address_values {q : Queue} (hq : q.Addressed) : q.values.map (·.address) = q.keys := by
  unfold OrderedMap.values OrderedMap.keys
  rw [List.map_map]
  exact List.map_congr_left fun e he => hq e.1 e.2 (OrderedMap.mem_entries_iff.1 he)

theorem nodup_addresses {q : Queue} (hq : q.Addressed) : (q.values.map (·.address)).Nodup := by
  rw [map_address_values hq]
  exact OrderedMap.nodup_keys q

/-- No notification that goes out lists an issue twice. -/
theorem listed_le_one_of_mem_outgoing (cfg : NotificationConfig)
    (t : Except Timestamp.Overflow Timestamp) (o : Outbox) (k : IssueKey) :
    ∀ n ∈ outgoing cfg t o, n.listed k ≤ 1 := by
  intro n hn
  rw [← listed_of_mem_values (addressed_preparedSince cfg o.stores.issues t) hn k]
  have hstart : Resting cfg.maxRetries n.address [] 0 (o.stores.issues.find? k) := resting_nil _ _ _ _
  rcases prepared_preparedSince hstart t with ⟨hzero, -⟩ | ⟨hone, -⟩ <;> omega

/-- A pass leads from one state in which no message is due to another one. -/
theorem Resting.send (h : Resting cfg.maxRetries a outcomes f (o.stores.issues.find? k))
    (t : Except Timestamp.Overflow Timestamp) :
    Resting cfg.maxRetries a
      (outcomes ++
        outcomesOf k a (attempts cfg.maxRetries reach (outgoing cfg t o) (ready cfg t o)))
      (f + (attempts cfg.maxRetries reach (outgoing cfg t o) (ready cfg t o)).countP
        (Attempt.failedFor k))
      (((sendSince cfg t).runWith (Outbox.handler reach) o).2.stores.issues.find? k) := by
  have hprepared := prepared_preparedSince h t
  have haddressed := addressed_preparedSince cfg o.stores.issues t
  rw [runWith_sendSince]
  refine resting_foldl_delivered _ _ _ _ (nodup_addresses haddressed)
    (listed_le_one_of_mem_outgoing cfg t o k) ?_ fun hall => ?_
  · intro n hn ha hk
    subst ha
    have hlisted := listed_of_mem_values haddressed hn k
    rcases hprepared with ⟨hzero, -⟩ | ⟨-, hqueued⟩
    · omega
    · exact hqueued
  · rcases hprepared with ⟨-, hrest⟩ | ⟨hone, -⟩
    · exact hrest
    · -- the notification that lists the issue would be among those that go out
      unfold Queue.listed at hone
      cases hf : (preparedSince cfg o.stores.issues t).2.find? a with
      | none =>
        rw [hf] at hone
        cases hone
      | some n =>
        rw [hf] at hone
        have hn : n ∈ outgoing cfg t o := OrderedMap.mem_values_iff.2 ⟨a, hf⟩
        have hzero := hall n hn (haddressed a n hf)
        rw [Option.getD_some, hzero] at hone
        cases hone

/-! ### Campaigns -/

/-- The attempts of a pass. -/
def attemptsAt (cfg : NotificationConfig)
    (reach : List (Message × Bool) → Message → Except ServiceError Unit) (now : Timestamp)
    (o : Outbox) : List Attempt :=
  attempts cfg.maxRetries reach (outgoing cfg (now.minusMinutes cfg.recentMinutes) o)
    (ready cfg (now.minusMinutes cfg.recentMinutes) o)

variable {ts : List Attempt}

theorem Resting.length_le (h : Resting maxRetries a outcomes f x) :
    outcomes.length ≤ allowance maxRetries f := by
  rcases h with ⟨n, rfl, hn, -⟩ | ⟨n, rfl, hn, -⟩
  · rwa [List.length_replicate]
  · rwa [List.length_append, List.length_replicate]

end Notification

end Triage
