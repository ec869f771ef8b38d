import Triage.Proofs.Notification.Due

/-!
# The effect of a pass

A pass sends one message to each address that something is due to, with all that is due to it, and
records what became of the messages (`sendNew_effect`).  The failures of the messages about one issue
are recorded in the order of the addresses; the counter of the issue goes up with each of them, and
the mark of an address goes only while the counter is below its limit (`Recorded`).
-/

namespace Triage

namespace Notification

open IssueStore

variable {a a' : String} {k : IssueKey} {maxRetries : Nat} {cfg : NotificationConfig}
  {i i' x y : Issue} {s : IssueStore} {is : List Issue}
  {t : Except Timestamp.Overflow Timestamp} {o : Outbox} {n : Notification}
  {reach : List (Message × Bool) → Message → Except ServiceError Unit}

/-! ### Failures on record -/

theorem Attempt.concerns_iff {u : Attempt} :
    u.concerns k a = true ↔ u.notification.address = a ∧ 0 < u.notification.listed k := by
  simp [Attempt.concerns]

/-- What becomes of the record `x` of an issue when the messages `ts` have gone out, after those that
were sent before: each failure raises the counter, is noted, and takes the mark of its address away if
the counter was below its limit. -/
structure Recorded (maxRetries : Nat)
    (reach : List (Message × Bool) → Message → Except ServiceError Unit)
    (before : List (Message × Bool)) (k : IssueKey) (ts : List Attempt) (x y : Issue) : Prop where
  rest : y = { x with notified := y.notified, failed := y.failed, retries := y.retries }
  retries : y.retries = x.retries + UInt32.ofNat (ts.countP (Attempt.failedFor k))
  other : ∀ a, (∀ u ∈ ts, u.failedFor k = true → u.notification.address ≠ a) →
    (a ∈ y.notified ↔ a ∈ x.notified) ∧ y.failed.find? a = x.failed.find? a
  failed : ∀ pre u post, ts = pre ++ u :: post → u.failedFor k = true →
    (u.notification.address ∈ y.notified ↔ u.notification.address ∈ x.notified ∧
      maxRetries ≤ (x.retries + UInt32.ofNat (pre.countP (Attempt.failedFor k))).toNat) ∧
    ∃ e, reach (before ++ pre.map Attempt.record) u.notification.message = .error e ∧
      y.failed.find? u.notification.address = some e.message

theorem Recorded.nil (before : List (Message × Bool)) (x : Issue) :
    Recorded maxRetries reach before k [] x x where
  rest := rfl
  retries := (UInt32.add_zero _).symm
  other _ _ := ⟨.rfl, rfl⟩
  failed pre u post h := by simp at h

variable {before : List (Message × Bool)} {u : Attempt} {ts : List Attempt}

/-- A message that gets through, or does not list the issue, leaves the record alone. -/
theorem Recorded.cons_of_not_failed (h : Recorded maxRetries reach (before ++ [u.record]) k ts x y)
    (hu : u.failedFor k = false) : Recorded maxRetries reach before k (u :: ts) x y where
  rest := h.rest
  retries := by rw [h.retries, List.countP_cons_of_neg (by simp [hu])]
  other a ha := h.other a fun v hv => ha v (List.mem_cons_of_mem _ hv)
  failed pre v post hsplit hv := by
    cases pre with
    | nil =>
      cases hsplit
      rw [hu] at hv
      cases hv
    | cons w pre =>
      obtain ⟨rfl, rfl⟩ := List.cons.inj hsplit
      obtain ⟨hmark, hreason⟩ := h.failed pre v post rfl hv
      refine ⟨?_, by simpa using hreason⟩
      rw [hmark, List.countP_cons_of_neg (by simp [hu])]

/-- The counter of a record once a failure and `c` more of them have been entered. -/
theorem retries_noteFailure_add {address reason : String} (c : Nat) :
    (noteFailure address reason maxRetries x).retries + UInt32.ofNat c =
      x.retries + UInt32.ofNat (c + 1) := by
  change x.retries + 1 + _ = _
  rw [Nat.add_comm, UInt32.ofNat_add, UInt32.add_assoc]
  rfl

/-- A message that fails is entered, and no later one goes to the same address. -/
theorem Recorded.cons_of_failed {e : ServiceError}
    (h : Recorded maxRetries reach (before ++ [u.record]) k ts
      (noteFailure u.notification.address e.message maxRetries x) y)
    (hu : u.failedFor k = true) (he : reach before u.notification.message = .error e)
    (hlater : ∀ v ∈ ts, v.notification.address ≠ u.notification.address) :
    Recorded maxRetries reach before k (u :: ts) x y where
  rest := h.rest
  retries := by
    rw [h.retries, List.countP_cons_of_pos hu, retries_noteFailure_add]
  other a ha := by
    have hne : a ≠ u.notification.address := (ha u List.mem_cons_self hu).symm
    obtain ⟨hn, hf⟩ := h.other a fun v hv => ha v (List.mem_cons_of_mem _ hv)
    rw [mem_notified_noteFailure] at hn
    rw [find?_failed_noteFailure, if_neg hne.symm] at hf
    exact ⟨hn.trans (and_iff_left fun heq => absurd heq hne), hf⟩
  failed pre v post hsplit hv := by
    cases pre with
    | nil =>
      cases hsplit
      obtain ⟨hn, hf⟩ := h.other u.notification.address fun v hv _ => hlater v hv
      rw [mem_notified_noteFailure] at hn
      rw [find?_failed_noteFailure, if_pos rfl] at hf
      refine ⟨?_, e, by simpa using he, hf⟩
      rw [hn]
      simp
    | cons w pre =>
      obtain ⟨rfl, rfl⟩ := List.cons.inj hsplit
      have hne : v.notification.address ≠ u.notification.address := hlater v (by simp)
      obtain ⟨hmark, hreason⟩ := h.failed pre v post rfl hv
      refine ⟨?_, by simpa using hreason⟩
      rw [hmark, mem_notified_noteFailure, and_iff_left fun heq => absurd heq hne,
        List.countP_cons_of_pos hu, retries_noteFailure_add]

/-- Delivering one notification after the other enters their failures. -/
theorem recorded_foldl_delivered {ns : List Notification}
    (hone : ∀ n ∈ ns, n.listed k ≤ 1) (hnd : (ns.map (·.address)).Nodup)
    (hx : o.stores.issues.find? k = some x) :
    ∃ y, (ns.foldl (delivered maxRetries reach) o).stores.issues.find? k = some y ∧
      Recorded maxRetries reach o.sent k (attempts maxRetries reach ns o) x y := by
  induction ns generalizing o x with
  | nil => exact ⟨x, hx, .nil _ _⟩
  | cons n ns ih =>
    obtain ⟨hn, hnd'⟩ := List.nodup_cons.1 hnd
    have hone' : ∀ n ∈ ns, n.listed k ≤ 1 := fun n' hn' => hone n' (List.mem_cons_of_mem _ hn')
    have hstep := find?_delivered maxRetries reach o (hone n List.mem_cons_self)
    have hsent : (delivered maxRetries reach o n).sent =
        o.sent ++ [Attempt.record ⟨n, (reach o.sent n.message).isOk⟩] :=
      sent_delivered maxRetries reach o n
    rw [List.foldl_cons, attempts]
    rw [hx] at hstep
    cases hr : reach o.sent n.message with
    | ok u =>
      rw [hr] at hstep hsent
      obtain ⟨y, hy, hrec⟩ := ih hone' hnd' hstep
      rw [hsent] at hrec
      exact ⟨y, hy, hrec.cons_of_not_failed rfl⟩
    | error e =>
      rw [hr] at hstep hsent
      by_cases hlisted : 0 < n.listed k
      · simp only [if_pos hlisted, Option.map_some] at hstep
        obtain ⟨y, hy, hrec⟩ := ih hone' hnd' hstep
        rw [hsent] at hrec
        have hfailed : Attempt.failedFor k ⟨n, (Except.error e : Except ServiceError Unit).isOk⟩ =
            true := by
          simpa [Attempt.failedFor, Except.isOk, Except.toBool] using hlisted
        refine ⟨y, hy, hrec.cons_of_failed hfailed hr fun v hv heq => hn ?_⟩
        have hv' : v.notification ∈ ns := by
          rw [← notification_attempts maxRetries reach ns (delivered maxRetries reach o n)]
          exact List.mem_map_of_mem hv
        exact List.mem_map.2 ⟨v.notification, hv', heq⟩
      · simp only [if_neg hlisted] at hstep
        obtain ⟨y, hy, hrec⟩ := ih hone' hnd' hstep
        rw [hsent] at hrec
        exact ⟨y, hy, hrec.cons_of_not_failed (by simp [Attempt.failedFor, hlisted])⟩

/-- Nothing is entered where no record is. -/
theorem find?_foldl_delivered_none {ns : List Notification}
    (hone : ∀ n ∈ ns, n.listed k ≤ 1) (hx : o.stores.issues.find? k = none) :
    (ns.foldl (delivered maxRetries reach) o).stores.issues.find? k = none := by
  refine List.foldlRecOn (motive := fun o : Outbox => o.stores.issues.find? k = none) ns _ hx
    fun o ho n hn => ?_
  rw [find?_delivered maxRetries reach o (hone n hn), ho]
  cases reach o.sent n.message <;> simp

theorem stores_foldl_delivered (ns : List Notification) (o : Outbox) :
    (ns.foldl (delivered maxRetries reach) o).stores =
      { o.stores with issues := (ns.foldl (delivered maxRetries reach) o).stores.issues } := by
  refine List.foldlRecOn (motive := fun o' : Outbox => o'.stores =
    { o.stores with issues := o'.stores.issues }) ns _ rfl fun o' ho' n _ => ?_
  unfold delivered
  cases reach o'.sent n.message with
  | ok u => exact ho'
  | error e =>
    simp only [Outbox.withIssues]
    rw [ho']

/-- What became of a message is what the transport says after all that were sent before it. -/
theorem ok_of_attempts_eq {ns : List Notification} {pre post : List Attempt}
    (h : attempts maxRetries reach ns o = pre ++ u :: post) :
    u.ok = (reach (o.sent ++ pre.map Attempt.record) u.notification.message).isOk := by
  induction ns generalizing o pre with
  | nil => simp [attempts] at h
  | cons n ns ih =>
    rw [attempts] at h
    cases pre with
    | nil =>
      obtain ⟨rfl, -⟩ := List.cons.inj h
      simp
    | cons v pre =>
      obtain ⟨rfl, htail⟩ := List.cons.inj h
      rw [ih htail, sent_delivered]
      simp [Attempt.record]

/-! ### Before the first message -/

/-- How many of the subscribers pass each filter in turn. -/
def statOf (ss : List Subscriber) (i : Issue) : SubscriberStat where
  serverAllowed := ss.countP fun s => s.followsServer i.key.server
  subscribed := ss.countP fun s =>
    s.followsServer i.key.server && s.followsBranch i.trackedBranch
  tagsFilterPassed := ss.countP fun s =>
    s.followsServer i.key.server && s.followsBranch i.trackedBranch && s.followsTags i.tags

theorem foldl_counted (i : Issue) (ss : List Subscriber) (stat : SubscriberStat) :
    ss.foldl (counted i) stat =
      ⟨stat.serverAllowed + (statOf ss i).serverAllowed,
        stat.subscribed + (statOf ss i).subscribed,
        stat.tagsFilterPassed + (statOf ss i).tagsFilterPassed⟩ := by
  induction ss generalizing stat with
  | nil => rfl
  | cons s ss ih =>
    rw [List.foldl_cons, ih]
    unfold counted statOf
    simp only [List.countP_cons]
    cases s.followsServer i.key.server <;> cases s.followsBranch i.trackedBranch <;>
      cases s.followsTags i.tags <;> simp <;> omega

theorem announced_eq (cfg : NotificationConfig) (i : Issue) : announced cfg i =
    { i with
      notified := (announced cfg i).notified
      failed := (announced cfg i).failed
      stat := statOf cfg.subscribers i } := by
  have hrest := (toldOf_foldl cfg.maxRetries i i cfg.subscribers).rest
  have hstat := foldl_counted i cfg.subscribers ⟨0, 0, 0⟩
  unfold announced
  rw [hstat]
  conv_lhs => rw [hrest]
  simp

theorem mem_notified_announced :
    a ∈ (announced cfg i).notified ↔ a ∈ i.notified ∨ isDue cfg a i = true :=
  (toldOf_foldl cfg.maxRetries i i cfg.subscribers).notified a

theorem find?_failed_announced : (announced cfg i).failed.find? a =
    if isDue cfg a i then none else i.failed.find? a :=
  (toldOf_foldl cfg.maxRetries i i cfg.subscribers).failed a

theorem readied_eq (cfg : NotificationConfig) (t : Except Timestamp.Overflow Timestamp) (i : Issue) :
    readied cfg t i =
      { i with
        notified := (readied cfg t i).notified
        failed := (readied cfg t i).failed
        stat := if inWindow t i then statOf cfg.subscribers i else i.stat } := by
  unfold readied
  cases inWindow t i with
  | true => exact announced_eq cfg i
  | false => rfl

theorem mem_notified_readied :
    a ∈ (readied cfg t i).notified ↔ a ∈ i.notified ∨ Due cfg t a i := by
  rw [due_iff]
  unfold readied
  cases inWindow t i with
  | true => simp [mem_notified_announced]
  | false => simp

theorem find?_failed_readied_of_due (h : Due cfg t a i) :
    (readied cfg t i).failed.find? a = none := by
  obtain ⟨hin, hdue⟩ := due_iff.1 h
  rw [readied, if_pos hin, find?_failed_announced, if_pos hdue]

theorem find?_failed_readied_of_not_due (h : ¬ Due cfg t a i) :
    (readied cfg t i).failed.find? a = i.failed.find? a := by
  unfold readied
  split
  · rename_i hin
    have hdue : ¬ isDue cfg a i = true := fun hdue => h (due_iff.2 ⟨hin, hdue⟩)
    rw [find?_failed_announced, if_neg hdue]
  · rfl

/-! ### A whole pass -/

/-- The attempts of a pass whose window begins at `t`. -/
def attemptsSince (cfg : NotificationConfig)
    (reach : List (Message × Bool) → Message → Except ServiceError Unit)
    (t : Except Timestamp.Overflow Timestamp) (o : Outbox) : List Attempt :=
  attempts cfg.maxRetries reach (outgoing cfg t o) (ready cfg t o)

theorem notification_mem_outgoing (hu : u ∈ attemptsSince cfg reach t o) :
    u.notification ∈ outgoing cfg t o := by
  rw [← notification_attempts cfg.maxRetries reach (outgoing cfg t o) (ready cfg t o)]
  exact List.mem_map_of_mem hu

/-- A message lists what is due to its address, and something is. -/
theorem notification_eq_compose (hs : o.stores.issues.Keyed)
    (hu : u ∈ attemptsSince cfg reach t o) :
    dueIssues cfg t o.stores.issues u.notification.address ≠ [] ∧
      u.notification =
        compose u.notification.address (dueIssues cfg t o.stores.issues u.notification.address) := by
  obtain ⟨a, hne, hn⟩ := (mem_outgoing hs).1 (notification_mem_outgoing hu)
  have ha : u.notification.address = a := by rw [hn, address_compose]
  rw [ha]
  exact ⟨hne, hn⟩

theorem issues_perm_dueIssues (hs : o.stores.issues.Keyed)
    (hu : u ∈ attemptsSince cfg reach t o) :
    u.notification.issues.Perm (dueIssues cfg t o.stores.issues u.notification.address) := by
  have hperm := issues_compose_perm u.notification.address
    (dueIssues cfg t o.stores.issues u.notification.address)
  rwa [← (notification_eq_compose hs hu).2] at hperm

theorem mem_issues_iff (hs : o.stores.issues.Keyed) (hu : u ∈ attemptsSince cfg reach t o) :
    i ∈ u.notification.issues ↔
      i ∈ o.stores.issues.all ∧ Due cfg t u.notification.address i := by
  rw [(issues_perm_dueIssues hs hu).mem_iff, mem_dueIssues]

/-- Of the stored issues a message lists the one with a key exactly if that issue is due. -/
theorem listed_pos_iff_due (hs : o.stores.issues.Keyed) (hi : i ∈ o.stores.issues.all)
    (hu : u ∈ attemptsSince cfg reach t o) :
    0 < u.notification.listed i.key ↔ Due cfg t u.notification.address i := by
  rw [listed_pos_iff]
  constructor
  · rintro ⟨j, hj, hkey⟩
    obtain ⟨hall, hdue⟩ := (mem_issues_iff hs hu).1 hj
    have hstored := hs.find?_of_mem_all hall
    rw [hkey, hs.find?_of_mem_all hi] at hstored
    cases hstored
    exact hdue
  · exact fun hdue => ⟨i, (mem_issues_iff hs hu).2 ⟨hi, hdue⟩, rfl⟩

theorem failedFor_iff (hs : o.stores.issues.Keyed) (hi : i ∈ o.stores.issues.all)
    (hu : u ∈ attemptsSince cfg reach t o) :
    u.failedFor i.key = true ↔ u.ok = false ∧ Due cfg t u.notification.address i := by
  rw [← listed_pos_iff_due hs hi hu]
  simp [Attempt.failedFor]

theorem addresses_attemptsSince (cfg : NotificationConfig)
    (reach : List (Message × Bool) → Message → Except ServiceError Unit)
    (t : Except Timestamp.Overflow Timestamp) (o : Outbox) :
    ((attemptsSince cfg reach t o).map (·.notification.address)).Pairwise (· < ·) := by
  have h := addresses_outgoing cfg t o
  rw [← notification_attempts cfg.maxRetries reach (outgoing cfg t o) (ready cfg t o),
    List.map_map] at h
  exact h

/-- No two messages of a pass go to one address. -/
theorem eq_of_address_eq {v : Attempt} (hu : u ∈ attemptsSince cfg reach t o)
    (hv : v ∈ attemptsSince cfg reach t o)
    (h : u.notification.address = v.notification.address) : u = v := by
  have hnodup := (addresses_attemptsSince cfg reach t o).imp fun hlt => OrderedKey.ne_of_lt hlt
  exact List.inj_on_of_nodup_map hnodup hu hv h

theorem recorded_sendSince (cfg : NotificationConfig)
    (reach : List (Message × Bool) → Message → Except ServiceError Unit)
    (t : Except Timestamp.Overflow Timestamp) (hs : o.stores.issues.Keyed)
    (hi : i ∈ o.stores.issues.all) :
    ∃ i', ((sendSince cfg t).runWith (Outbox.handler reach) o).2.stores.issues.find? i.key =
        some i' ∧
      Recorded cfg.maxRetries reach o.sent i.key (attemptsSince cfg reach t o)
        (readied cfg t i) i' := by
  have hready : (ready cfg t o).stores.issues.find? i.key = some (readied cfg t i) := by
    rw [find?_ready cfg t hs, hs.find?_of_mem_all hi, Option.map_some]
  have hnodup : ((outgoing cfg t o).map (·.address)).Nodup :=
    nodup_addresses (addressed_preparedSince cfg o.stores.issues t)
  rw [runWith_sendSince]
  exact recorded_foldl_delivered (listed_le_one_of_mem_outgoing cfg t o i.key) hnodup hready

/-- What a pass makes of the record `i` of an issue, given the messages that were sent before it and
its own ones. -/
structure Handled (cfg : NotificationConfig)
    (reach : List (Message × Bool) → Message → Except ServiceError Unit)
    (t : Except Timestamp.Overflow Timestamp) (before : List (Message × Bool)) (ts : List Attempt)
    (i i' : Issue) : Prop where
  rest : i' = { i with
    notified := i'.notified, failed := i'.failed, retries := i'.retries, stat := i'.stat }
  stat : i'.stat = if inWindow t i then statOf cfg.subscribers i else i.stat
  /-- One more for each address that the issue was due to and that was not reached; the sum is one of
  words. -/
  retries : i'.retries = i.retries + UInt32.ofNat (ts.countP (Attempt.failedFor i.key))
  spared : ∀ a, ¬ Due cfg t a i →
    (a ∈ i'.notified ↔ a ∈ i.notified) ∧ i'.failed.find? a = i.failed.find? a
  reached : ∀ u ∈ ts, Due cfg t u.notification.address i → u.ok = true →
    u.notification.address ∈ i'.notified ∧ i'.failed.find? u.notification.address = none
  /-- The mark is gone exactly if the counter was below its limit when the failure was recorded. -/
  failed : ∀ pre u post, ts = pre ++ u :: post → Due cfg t u.notification.address i → u.ok = false →
    (u.notification.address ∉ i'.notified ↔
      (i.retries + UInt32.ofNat (pre.countP (Attempt.failedFor i.key))).toNat <
        cfg.maxRetries) ∧
    ∃ e, reach (before ++ pre.map Attempt.record) u.notification.message = .error e ∧
      i'.failed.find? u.notification.address = some e.message

theorem handled_sendSince (hs : o.stores.issues.Keyed) (hi : i ∈ o.stores.issues.all) :
    ∃ i', ((sendSince cfg t).runWith (Outbox.handler reach) o).2.stores.issues.find? i.key =
        some i' ∧
      Handled cfg reach t o.sent (attemptsSince cfg reach t o) i i' := by
  obtain ⟨i', hi', hrec⟩ := recorded_sendSince cfg reach t hs hi
  have hx := readied_eq cfg t i
  have hretries : (readied cfg t i).retries = i.retries := by rw [hx]
  have hrest := hrec.rest
  refine ⟨i', hi', ⟨?_, ?_, ?_, fun a ha => ?_, fun u hu hdue hok => ?_,
    fun pre u post hsplit hdue hok => ?_⟩⟩
  · rw [hrest, hx]
  · rw [hrest, hx]
  · rw [hrec.retries, hretries]
  · obtain ⟨hn, hf⟩ := hrec.other a fun u hu hfailed haddress =>
      ha (haddress ▸ ((failedFor_iff hs hi hu).1 hfailed).2)
    rw [hn, hf, mem_notified_readied, find?_failed_readied_of_not_due ha]
    exact ⟨or_iff_left ha, rfl⟩
  · obtain ⟨hn, hf⟩ := hrec.other u.notification.address fun v hv hfailed haddress => by
      rw [eq_of_address_eq hv hu haddress, failedFor_iff hs hi hu, hok] at hfailed
      exact absurd hfailed.1 (by decide)
    rw [hn, hf, mem_notified_readied, find?_failed_readied_of_due hdue]
    exact ⟨.inr hdue, rfl⟩
  · have hu : u ∈ attemptsSince cfg reach t o := by simp [hsplit]
    obtain ⟨hn, hreason⟩ :=
      hrec.failed pre u post hsplit ((failedFor_iff hs hi hu).2 ⟨hok, hdue⟩)
    refine ⟨?_, hreason⟩
    rw [hn, mem_notified_readied, hretries, and_iff_right (.inr hdue)]
    exact Nat.not_le

/-- What a pass makes of an outbox whose window begins at `t`, given its attempts to send. -/
structure Effect (cfg : NotificationConfig)
    (reach : List (Message × Bool) → Message → Except ServiceError Unit)
    (t : Except Timestamp.Overflow Timestamp) (o : Outbox) (ts : List Attempt) (o' : Outbox) :
    Prop where
  sent : o'.sent = o.sent ++ ts.map Attempt.record
  ascending : (ts.map (·.notification.address)).Pairwise (· < ·)
  addressed : ∀ a, (∃ u ∈ ts, u.notification.address = a) ↔
    ∃ i ∈ o.stores.issues.all, Due cfg t a i
  listed : ∀ u ∈ ts, u.notification.issues.Nodup ∧
    ∀ i, i ∈ u.notification.issues ↔ i ∈ o.stores.issues.all ∧ Due cfg t u.notification.address i
  outcome : ∀ pre u post, ts = pre ++ u :: post →
    u.ok = (reach (o.sent ++ pre.map Attempt.record) u.notification.message).isOk
  records : ∀ k i, o.stores.issues.find? k = some i →
    ∃ i', o'.stores.issues.find? k = some i' ∧ Handled cfg reach t o.sent ts i i'
  absent : ∀ k, o.stores.issues.find? k = none → o'.stores.issues.find? k = none
  stores : o'.stores = { o.stores with issues := o'.stores.issues }

theorem effect_sendSince (hs : o.stores.issues.Keyed) :
    Effect cfg reach t o (attemptsSince cfg reach t o)
      ((sendSince cfg t).runWith (Outbox.handler reach) o).2 where
  sent := by
    rw [runWith_sendSince, sent_foldl_delivered]
    rfl
  ascending := addresses_attemptsSince cfg reach t o
  addressed a := by
    constructor
    · rintro ⟨u, hu, rfl⟩
      obtain ⟨i, hi⟩ := List.exists_mem_of_ne_nil _ (notification_eq_compose hs hu).1
      exact ⟨i, mem_dueIssues.1 hi⟩
    · rintro ⟨i, hi, hdue⟩
      have hmem : compose a (dueIssues cfg t o.stores.issues a) ∈ outgoing cfg t o :=
        (mem_outgoing hs).2 ⟨a, List.ne_nil_of_mem (mem_dueIssues.2 ⟨hi, hdue⟩), rfl⟩
      rw [← notification_attempts cfg.maxRetries reach (outgoing cfg t o) (ready cfg t o)] at hmem
      obtain ⟨u, hu, heq⟩ := List.mem_map.1 hmem
      exact ⟨u, hu, by rw [heq, address_compose]⟩
  listed u hu :=
    ⟨(issues_perm_dueIssues hs hu).nodup_iff.2 (nodup_dueIssues hs), fun i => mem_issues_iff hs hu⟩
  outcome pre u post h := by
    have hattempts : attempts cfg.maxRetries reach (outgoing cfg t o) (ready cfg t o) =
        pre ++ u :: post := h
    have hok := ok_of_attempts_eq hattempts
    exact hok
  records k i hi := by
    obtain rfl := hs k i hi
    exact handled_sendSince hs (mem_all_iff.2 ⟨_, hi⟩)
  absent k hk := by
    have hready : (ready cfg t o).stores.issues.find? k = none := by
      rw [find?_ready cfg t hs, hk, Option.map_none]
    rw [runWith_sendSince]
    exact find?_foldl_delivered_none (listed_le_one_of_mem_outgoing cfg t o k) hready
  stores := by
    rw [runWith_sendSince]
    exact stores_foldl_delivered (outgoing cfg t o) (ready cfg t o)

/-- A pass attempts to tell an address of a stored issue exactly if that is due. -/
theorem concerns_iff_due (hs : o.stores.issues.Keyed) (hi : o.stores.issues.find? k = some i) :
    (∃ u ∈ attemptsSince cfg reach t o, u.concerns k a = true) ↔ Due cfg t a i := by
  obtain rfl := hs k i hi
  have hall : i ∈ o.stores.issues.all := mem_all_iff.2 ⟨_, hi⟩
  have heffect : Effect cfg reach t o (attemptsSince cfg reach t o) _ := effect_sendSince hs
  constructor
  · rintro ⟨u, hu, hconcerns⟩
    obtain ⟨rfl, hlisted⟩ := Attempt.concerns_iff.1 hconcerns
    exact (listed_pos_iff_due hs hall hu).1 hlisted
  · intro hdue
    obtain ⟨u, hu, rfl⟩ := (heffect.addressed a).2 ⟨i, hall, hdue⟩
    exact ⟨u, hu, Attempt.concerns_iff.2 ⟨rfl, (listed_pos_iff_due hs hall hu).2 hdue⟩⟩

/-! ### The order of the subscribers -/

section Order

variable {ss : List Subscriber} (h : ss.Perm cfg.subscribers)

include h

end Order

end Notification

end Triage
