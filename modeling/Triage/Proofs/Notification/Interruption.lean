import Triage.Proofs.Interruption
import Triage.Proofs.Notification.Effect

/-!
# Passes that are cut before all messages have gone out

A pass marks the addresses that something is due to before it sends the first message.  So a pass
that is cut (`Halted`) may leave addresses marked that no message went to, and no later pass sends
them one; an address that it had not come to gets its message from the next pass
(`attempted_after_cut`).
-/

namespace Triage.Notification

open IssueStore

variable {a : String} {k : IssueKey} {maxRetries : Nat} {cfg : NotificationConfig}
  {i x : Issue} {is : List Issue} {t : Except Timestamp.Overflow Timestamp} {now : Timestamp}
  {o o' : Outbox} {n : Notification} {ts : List Attempt}
  {reach : List (Message × Bool) → Message → Except ServiceError Unit}

/-! ### What a cut pass leaves behind -/

/-- The outbox once a notification has been handed to the transport and a failure has been recorded
for some of its issues. -/
def halfDelivered (maxRetries : Nat)
    (reach : List (Message × Bool) → Message → Except ServiceError Unit) (o : Outbox)
    (n : Notification) (is : List Issue) : Outbox :=
  match reach o.sent n.message with
  | .ok () => { o with sent := o.sent ++ [(n.message, true)] }
  | .error e =>
    { o.withIssues (failedAll maxRetries n.address e.message is o.stores.issues) with
      sent := o.sent ++ [(n.message, false)] }

/-- The outbox that a cut pass leaves behind, and the messages that it had handed to the transport:
it was offering an issue to one subscriber after the other, or between two messages, or recording
that a message had failed. -/
inductive Halted (cfg : NotificationConfig)
    (reach : List (Message × Bool) → Message → Except ServiceError Unit)
    (t : Except Timestamp.Overflow Timestamp) (o : Outbox) : List Attempt → Outbox → Prop
  | outset : Halted cfg reach t o [] o
  | offering {pre post : List Issue} {i : Issue} {ss rest : List Subscriber} {cutoff : Timestamp}
      (window : t = .ok cutoff)
      (split : (o.stores.issues.all.filter fun i => cutoff ≤ i.detectedAt) = pre ++ i :: post)
      (subscribers : cfg.subscribers = ss ++ rest) :
      Halted cfg reach t o [] (o.withIssues
        (ss.foldl (offered cfg.maxRetries i) (prepared cfg pre o.stores.issues)).1)
  | delivering {pre post : List Notification} (split : outgoing cfg t o = pre ++ post) :
      Halted cfg reach t o (attempts cfg.maxRetries reach pre (ready cfg t o))
        (pre.foldl (delivered cfg.maxRetries reach) (ready cfg t o))
  | recording {pre post : List Notification} {n : Notification} {is rest : List Issue}
      (split : outgoing cfg t o = pre ++ n :: post) (issues : n.issues = is ++ rest) :
      Halted cfg reach t o (attempts cfg.maxRetries reach (pre ++ [n]) (ready cfg t o))
        (halfDelivered cfg.maxRetries reach
          (pre.foldl (delivered cfg.maxRetries reach) (ready cfg t o)) n is)

section Cut

variable {β : Type}

theorem cut_offer_bind {q : Queue} {stat : SubscriberStat} {s : Subscriber}
    {f : Queue × SubscriberStat → Pass β}
    (h : (offer maxRetries i (q, stat) s >>= f).CutWith (Outbox.handler reach) o o') :
    o' = o ∨ (f ((offered maxRetries i (o.stores.issues, q) s).2, counted i stat s)).CutWith
      (Outbox.handler reach) (o.withIssues (offered maxRetries i (o.stores.issues, q) s).1) o' := by
  unfold offer at h
  unfold offered counted wanted
  cases hserver : s.followsServer i.key.server with
  | false =>
    rw [hserver] at h
    exact .inr h
  | true =>
    cases hbranch : s.followsBranch i.trackedBranch with
    | false =>
      rw [hserver, hbranch] at h
      exact .inr h
    | true =>
      cases htags : s.followsTags i.tags with
      | false =>
        rw [hserver, hbranch, htags] at h
        exact .inr h
      | true =>
        have hask : (Outbox.handler reach).answer (.announce i.key s.address maxRetries) o =
            (.ok (o.stores.issues.announce i.key s.address maxRetries).1,
              o.withIssues (o.stores.issues.announce i.key s.address maxRetries).2) := rfl
        simp only [hserver, hbranch, htags, Bool.not_true, Bool.false_eq_true, if_false,
          bind_assoc] at h
        rw [Pass.cutWith_ask_bind hask] at h
        refine h.imp_right fun h => ?_
        simp only [Bool.not_true, Bool.false_eq_true, if_false, Bool.and_self, if_true]
        cases hflag : (o.stores.issues.announce i.key s.address maxRetries).1 with
        | false =>
          rw [hflag] at h
          exact h
        | true =>
          rw [hflag, if_pos rfl, bind_assoc] at h
          exact (Pass.cutWith_log_bind rfl).1 h

theorem cut_foldlM_offer_bind {f : Queue × SubscriberStat → Pass β} :
    ∀ (ss : List Subscriber) (q : Queue) (stat : SubscriberStat) (o : Outbox),
      Pass.CutWith (Outbox.handler reach) (ss.foldlM (offer maxRetries i) (q, stat) >>= f) o o' →
      (∃ pre post, ss = pre ++ post ∧
        o' = o.withIssues (pre.foldl (offered maxRetries i) (o.stores.issues, q)).1) ∨
      (f ((ss.foldl (offered maxRetries i) (o.stores.issues, q)).2,
        ss.foldl (counted i) stat)).CutWith (Outbox.handler reach)
          (o.withIssues (ss.foldl (offered maxRetries i) (o.stores.issues, q)).1) o'
  | [], _, _, _, h => .inr h
  | s :: ss, q, stat, o, h => by
    rw [List.foldlM_cons, bind_assoc] at h
    rcases cut_offer_bind h with rfl | h
    · exact .inl ⟨[], s :: ss, rfl, rfl⟩
    · refine (cut_foldlM_offer_bind ss _ _ _ h).imp_left ?_
      rintro ⟨pre, post, hsplit, ho⟩
      exact ⟨s :: pre, post, congrArg (s :: ·) hsplit, ho⟩

theorem cut_offerAll_bind {q : Queue} {f : Queue → Pass β}
    (h : (offerAll cfg q i >>= f).CutWith (Outbox.handler reach) o o') :
    (∃ ss rest, cfg.subscribers = ss ++ rest ∧
      o' = o.withIssues (ss.foldl (offered cfg.maxRetries i) (o.stores.issues, q)).1) ∨
    (f (offeredAll cfg (o.stores.issues, q) i).2).CutWith (Outbox.handler reach)
      (o.withIssues (offeredAll cfg (o.stores.issues, q) i).1) o' := by
  have hsave : ∀ (stat : SubscriberStat) (o : Outbox),
      (Outbox.handler reach).answer (.saveStat i.key stat) o =
        (.ok (), o.withIssues (o.stores.issues.saveStat i.key stat)) := fun _ _ => rfl
  unfold offerAll at h
  rw [bind_assoc] at h
  rcases cut_foldlM_offer_bind cfg.subscribers q _ o h with h | h
  · exact .inl h
  · simp only [bind_assoc] at h
    rcases (Pass.cutWith_ask_bind (hsave _ _)).1 h with h | h
    · exact .inl ⟨cfg.subscribers, [], (List.append_nil _).symm, h⟩
    · exact .inr h

theorem cut_foldlM_offerAll_bind {f : Queue → Pass β} :
    ∀ (is : List Issue) (q : Queue) (o : Outbox),
      Pass.CutWith (Outbox.handler reach) (is.foldlM (offerAll cfg) q >>= f) o o' →
      (∃ pre i post ss rest, is = pre ++ i :: post ∧ cfg.subscribers = ss ++ rest ∧
        o' = o.withIssues (ss.foldl (offered cfg.maxRetries i)
          (pre.foldl (offeredAll cfg) (o.stores.issues, q))).1) ∨
      (f (is.foldl (offeredAll cfg) (o.stores.issues, q)).2).CutWith (Outbox.handler reach)
        (o.withIssues (is.foldl (offeredAll cfg) (o.stores.issues, q)).1) o'
  | [], _, _, h => .inr h
  | i :: is, q, o, h => by
    rw [List.foldlM_cons, bind_assoc] at h
    rcases cut_offerAll_bind h with ⟨ss, rest, hsubscribers, ho⟩ | h
    · exact .inl ⟨[], i, is, ss, rest, rfl, hsubscribers, ho⟩
    · refine (cut_foldlM_offerAll_bind is _ _ h).imp_left ?_
      rintro ⟨pre, j, post, ss, rest, hsplit, hsubscribers, ho⟩
      exact ⟨i :: pre, j, post, ss, rest, congrArg (i :: ·) hsplit, hsubscribers, ho⟩

theorem cut_recordFailures_bind {address reason : String} {f : Unit → Pass β} :
    ∀ (is : List Issue) (o : Outbox),
      Pass.CutWith (Outbox.handler reach) (recordFailures maxRetries address reason is >>= f) o o' →
      (∃ pre rest, is = pre ++ rest ∧
        o' = o.withIssues (failedAll maxRetries address reason pre o.stores.issues)) ∨
      (f ()).CutWith (Outbox.handler reach)
        (o.withIssues (failedAll maxRetries address reason is o.stores.issues)) o'
  | [], _, h => .inr h
  | i :: is, o, h => by
    have hask : (Outbox.handler reach).answer (.recordFailure i.key address reason maxRetries) o =
        (.ok (o.stores.issues.recordFailure i.key address reason maxRetries).1,
          o.withIssues (o.stores.issues.recordFailure i.key address reason maxRetries).2) := rfl
    unfold recordFailures at h
    rw [bind_assoc] at h
    rcases (Pass.cutWith_ask_bind hask).1 h with h | h
    · exact .inl ⟨[], i :: is, rfl, h⟩
    · refine (cut_recordFailures_bind is _ h).imp_left ?_
      rintro ⟨pre, rest, hsplit, ho⟩
      exact ⟨i :: pre, rest, congrArg (i :: ·) hsplit, ho⟩

theorem cut_deliver_bind {r : Report} {f : Report → Pass β}
    (h : (deliver maxRetries r n >>= f).CutWith (Outbox.handler reach) o o') :
    o' = o ∨ (∃ is rest, n.issues = is ++ rest ∧ o' = halfDelivered maxRetries reach o n is) ∨
      ∃ r', (f r').CutWith (Outbox.handler reach) (delivered maxRetries reach o n) o' := by
  have hsend : (Outbox.handler reach).deliver n.message o =
      (reach o.sent n.message,
        { o with sent := o.sent ++ [(n.message, (reach o.sent n.message).isOk)] }) := rfl
  unfold deliver at h
  rw [bind_assoc] at h
  refine (Pass.cutWith_send_bind.1 h).imp_right fun h => ?_
  rw [hsend] at h
  unfold halfDelivered delivered
  cases hreach : reach o.sent n.message with
  | ok u =>
    rw [hreach] at h
    simp only [bind_assoc] at h
    exact .inr ⟨_, (Pass.cutWith_log_bind rfl).1 h⟩
  | error e =>
    rw [hreach] at h
    simp only [bind_assoc] at h
    exact (cut_recordFailures_bind n.issues _ ((Pass.cutWith_log_bind rfl).1 h)).imp id
      fun h => ⟨_, h⟩

theorem cut_foldlM_deliver :
    ∀ (ns : List Notification) (r : Report) (o : Outbox),
      Pass.CutWith (Outbox.handler reach) (ns.foldlM (deliver maxRetries) r) o o' →
      (∃ pre post, ns = pre ++ post ∧ o' = pre.foldl (delivered maxRetries reach) o) ∨
      ∃ pre n post is rest, ns = pre ++ n :: post ∧ n.issues = is ++ rest ∧
        o' = halfDelivered maxRetries reach (pre.foldl (delivered maxRetries reach) o) n is
  | [], _, _, h => .inl ⟨[], [], rfl, Pass.cutWith_pure.1 h⟩
  | n :: ns, r, o, h => by
    rw [List.foldlM_cons] at h
    rcases cut_deliver_bind h with ho | ⟨is, rest, hissues, ho⟩ | ⟨r', h⟩
    · exact .inl ⟨[], n :: ns, rfl, ho⟩
    · exact .inr ⟨[], n, ns, is, rest, rfl, hissues, ho⟩
    · rcases cut_foldlM_deliver ns r' _ h with
        ⟨pre, post, hsplit, ho⟩ | ⟨pre, m, post, is, rest, hsplit, hissues, ho⟩
      · exact .inl ⟨n :: pre, post, congrArg (n :: ·) hsplit, ho⟩
      · exact .inr ⟨n :: pre, m, post, is, rest, congrArg (n :: ·) hsplit, hissues, ho⟩

end Cut

/-- A pass can be cut nowhere else. -/
theorem halted_of_cut (h : (sendSince cfg t).CutWith (Outbox.handler reach) o o') :
    ∃ ts, Halted cfg reach t o ts o' := by
  unfold sendSince at h
  cases t with
  | error e =>
    rw [Pass.cutWith_ofTime_bind_of_error h]
    exact ⟨[], .outset⟩
  | ok cutoff =>
    have hall : (Outbox.handler reach).answer .allIssues o = (.ok o.stores.issues.all, o) := rfl
    rcases (Pass.cutWith_ask_bind hall).1 h with rfl | h
    · exact ⟨[], .outset⟩
    · rcases cut_foldlM_offerAll_bind _ _ _ h with
        ⟨pre, i, post, ss, rest, hsplit, hsubscribers, rfl⟩ | h
      · exact ⟨[], .offering rfl hsplit hsubscribers⟩
      · rcases cut_foldlM_deliver (outgoing cfg (.ok cutoff) o) _ (ready cfg (.ok cutoff) o) h with
          ⟨pre, post, hsplit, rfl⟩ | ⟨pre, n, post, is, rest, hsplit, hissues, rfl⟩
        · exact ⟨_, .delivering hsplit⟩
        · exact ⟨_, .recording hsplit hissues⟩

/-! ### The messages that were handed over -/

theorem attempts_append (maxRetries : Nat)
    (reach : List (Message × Bool) → Message → Except ServiceError Unit) :
    ∀ (ns ms : List Notification) (o : Outbox), attempts maxRetries reach (ns ++ ms) o =
      attempts maxRetries reach ns o ++
        attempts maxRetries reach ms (ns.foldl (delivered maxRetries reach) o)
  | [], _, _ => rfl
  | _ :: ns, ms, _ => congrArg (_ :: ·) (attempts_append maxRetries reach ns ms _)

theorem sent_halfDelivered (o : Outbox) (n : Notification) (is : List Issue) :
    (halfDelivered maxRetries reach o n is).sent = (delivered maxRetries reach o n).sent := by
  unfold halfDelivered delivered
  cases reach o.sent n.message <;> rfl

/-- A cut pass has handed over the first messages of the whole one, and no others. -/
theorem Halted.sent (h : Halted cfg reach t o ts o') :
    ts <+: attemptsSince cfg reach t o ∧ o'.sent = o.sent ++ ts.map Attempt.record := by
  unfold attemptsSince
  cases h with
  | outset => exact ⟨List.nil_prefix, (List.append_nil _).symm⟩
  | offering => exact ⟨List.nil_prefix, (List.append_nil _).symm⟩
  | @delivering pre post split =>
    rw [split, attempts_append, sent_foldl_delivered]
    exact ⟨List.prefix_append _ _, rfl⟩
  | @recording pre post n is rest split issues =>
    have hsplit : outgoing cfg t o = (pre ++ [n]) ++ post := by
      rw [split, List.append_assoc]
      rfl
    rw [hsplit, attempts_append cfg.maxRetries reach (pre ++ [n]) post]
    refine ⟨List.prefix_append _ _, ?_⟩
    have hfold : delivered cfg.maxRetries reach
        (pre.foldl (delivered cfg.maxRetries reach) (ready cfg t o)) n =
          (pre ++ [n]).foldl (delivered cfg.maxRetries reach) (ready cfg t o) := by
      rw [List.foldl_append]
      rfl
    rw [sent_halfDelivered, hfold, sent_foldl_delivered]
    rfl

/-! ### The marks that were made -/

/-- The record `x` of an issue while it is being offered: no address but those that have been told
is treated in another way than by the record `i` that the pass began with. -/
structure Pending (a : String) (i x : Issue) : Prop where
  content : x = { i with notified := x.notified, failed := x.failed, stat := x.stat }
  untold : a ∉ x.notified → x.failed.contains a = i.failed.contains a

theorem Pending.refl (a : String) (i : Issue) : Pending a i i := ⟨rfl, fun _ => rfl⟩

theorem Pending.told (h : Pending a i x) (a' : String) : Pending a i (told a' x) where
  content := by
    rw [h.content]
    rfl
  untold hnot := by
    obtain ⟨hne, hx⟩ := not_or.1 (mt OrderedSet.mem_insert.2 hnot)
    rw [← h.untold hx]
    simp [Notification.told, OrderedMap.contains_eq_isSome, OrderedMap.find?_erase, Ne.symm hne]

theorem Pending.saveStat (h : Pending a i x) (stat : SubscriberStat) :
    Pending a i { x with stat } where
  content := by rw [h.content]
  untold := h.untold

/-- What is due to an address that has not been told is still due to it. -/
theorem Pending.due_iff (h : Pending a i x) (hdue : Due cfg t a i) :
    Due cfg t a x ↔ a ∉ x.notified := by
  refine ⟨Due.unmarked, fun hnot => ?_⟩
  have hfailed := h.untold hnot
  obtain ⟨hrecent, hfollowed, -, hretriable⟩ := hdue
  rw [h.content] at hnot hfailed ⊢
  exact ⟨hrecent, hfollowed, hnot, by rwa [hfailed]⟩

/-- Some record of the issue is stored that is as it was for the address, unless it has been told. -/
def Kept (k : IssueKey) (a : String) (i : Issue) (s : IssueStore) : Prop :=
  ∃ x, s.find? k = some x ∧ Pending a i x

variable {s : IssueStore}

theorem Kept.announce (h : Kept k a i s) (k' : IssueKey) (a' : String) (maxRetries : Nat) :
    Kept k a i (s.announce k' a' maxRetries).2 := by
  obtain ⟨x, hx, hpending⟩ := h
  unfold Kept
  rw [find?_announce, hx]
  split
  · refine ⟨_, rfl, ?_⟩
    simp only
    split
    · exact hpending.told a'
    · exact hpending
  · exact ⟨x, rfl, hpending⟩

theorem Kept.saveStat (h : Kept k a i s) (k' : IssueKey) (stat : SubscriberStat) :
    Kept k a i (s.saveStat k' stat) := by
  obtain ⟨x, hx, hpending⟩ := h
  unfold Kept
  rw [find?_saveStat, hx]
  split
  · exact ⟨_, rfl, hpending.saveStat stat⟩
  · exact ⟨x, rfl, hpending⟩

theorem Kept.foldl_offered {acc : IssueStore × Queue} (h : Kept k a i acc.1) (maxRetries : Nat)
    (j : Issue) (ss : List Subscriber) :
    Kept k a i (ss.foldl (offered maxRetries j) acc).1 := by
  refine List.foldlRecOn (motive := fun acc : IssueStore × Queue => Kept k a i acc.1) ss _ h
    fun acc h s _ => ?_
  unfold offered
  split
  · exact h.announce j.key s.address maxRetries
  · exact h

theorem Kept.prepared (h : Kept k a i s) (cfg : NotificationConfig) (is : List Issue) :
    Kept k a i (prepared cfg is s).1 :=
  List.foldlRecOn (motive := fun acc : IssueStore × Queue => Kept k a i acc.1) is _ h
    fun _ h j _ => (h.foldl_offered cfg.maxRetries j cfg.subscribers).saveStat j.key _

theorem undisturbed_foldl_delivered (maxRetries : Nat)
    (reach : List (Message × Bool) → Message → Except ServiceError Unit) (o : Outbox)
    {ns : List Notification} (h : ∀ n ∈ ns, n.address = a → n.listed k = 0) :
    ∃ d, Undisturbed a d (o.stores.issues.find? k)
      ((ns.foldl (delivered maxRetries reach) o).stores.issues.find? k) :=
  List.foldlRecOn (motive := fun o' : Outbox =>
    ∃ d, Undisturbed a d (o.stores.issues.find? k) (o'.stores.issues.find? k)) ns _ ⟨0, .refl _⟩
    fun _ ⟨_, h'⟩ n hn => ⟨_, h'.trans (undisturbed_delivered (h n hn))⟩

theorem undisturbed_halfDelivered (h : n.address = a → n.listed k = 0)
    (hsub : ∀ i ∈ is, i ∈ n.issues) :
    ∃ d, Undisturbed a d (o.stores.issues.find? k)
      ((halfDelivered maxRetries reach o n is).stores.issues.find? k) := by
  unfold halfDelivered
  cases reach o.sent n.message with
  | ok u => exact ⟨0, .refl _⟩
  | error e => exact ⟨_, undisturbed_of_not_listed h hsub⟩

theorem listed_eq_zero {ns : List Notification}
    (h : ∀ u ∈ attempts maxRetries reach ns o, u.concerns k a = false) (hn : n ∈ ns)
    (ha : n.address = a) : n.listed k = 0 := by
  rw [← notification_attempts maxRetries reach ns o] at hn
  obtain ⟨u, hu, rfl⟩ := List.mem_map.1 hn
  simpa [Attempt.concerns, ha] using h u hu

/-- Of the pairs that a cut pass has not come to send, exactly those are still due of which the
address has not been marked. -/
theorem Halted.due_iff (h : Halted cfg reach t o ts o') (hs : o.stores.issues.Keyed)
    (hi : o.stores.issues.find? k = some i) (hdue : Due cfg t a i)
    (hnot : ∀ u ∈ ts, u.concerns k a = false) :
    ∃ i', o'.stores.issues.find? k = some i' ∧ (Due cfg t a i' ↔ a ∉ i'.notified) := by
  have hkept : Kept k a i o.stores.issues := ⟨i, hi, .refl a i⟩
  -- once the pass has begun to send, the address is marked
  have hready : (ready cfg t o).stores.issues.find? k = some (readied cfg t i) := by
    rw [find?_ready cfg t hs, hi, Option.map_some]
  have hmarked : ∀ {d : Nat} {x : Option Issue}, Undisturbed a d (some (readied cfg t i)) x →
      ∃ i', x = some i' ∧ (Due cfg t a i' ↔ a ∉ i'.notified) := by
    intro d x hx
    obtain ⟨i', hi', hmark, -⟩ := hx _ rfl
    have hnotified := hmark.2 (mem_notified_readied.2 (.inr hdue))
    exact ⟨i', hi', iff_of_false (fun hdue' => hdue'.unmarked hnotified) (not_not.2 hnotified)⟩
  cases h with
  | outset => exact ⟨i, hi, (Pending.refl a i).due_iff hdue⟩
  | @offering pre post j ss rest cutoff window split subscribers =>
    obtain ⟨x, hx, hpending⟩ := (hkept.prepared cfg pre).foldl_offered cfg.maxRetries j ss
    exact ⟨x, hx, hpending.due_iff hdue⟩
  | @delivering pre post split =>
    obtain ⟨d, hu⟩ := undisturbed_foldl_delivered cfg.maxRetries reach (ready cfg t o)
      fun n hn ha => listed_eq_zero hnot hn ha
    rw [hready] at hu
    exact hmarked hu
  | @recording pre post n is rest split issues =>
    have hzero : ∀ m ∈ pre ++ [n], m.address = a → m.listed k = 0 :=
      fun m hm ha => listed_eq_zero hnot hm ha
    obtain ⟨d, hu⟩ := undisturbed_foldl_delivered cfg.maxRetries reach (ready cfg t o)
      fun m hm => hzero m (List.mem_append_left _ hm)
    have hsub : ∀ j ∈ is, j ∈ n.issues := fun j hj => issues ▸ List.mem_append_left _ hj
    obtain ⟨d', hu'⟩ := undisturbed_halfDelivered (hzero n (by simp)) hsub
    rw [hready] at hu
    exact hmarked (hu.trans hu')

/-! ### The next pass -/

theorem keyed_of_cut {α : Type} {p : Pass α} (h : p.CutWith (Outbox.handler reach) o o')
    (hs : o.stores.issues.Keyed) : o'.stores.issues.Keyed := by
  obtain ⟨r, hends⟩ := h
  exact hends.preserves (I := fun o : Outbox => o.stores.issues.Keyed)
    (fun c _ hs => hs.answer c) (fun _ _ hs => hs) (fun _ _ hs => hs) hs

/-- What the next pass makes good of a cut one: the cut pass has handed over the first messages of the
whole one, and of the pairs of an issue and an address that it has not come to, the next pass attempts
exactly those of which the cut one has not marked the address. -/
theorem attempted_after_cut (cfg : NotificationConfig)
    (reach reach' : List (Message × Bool) → Message → Except ServiceError Unit) (now : Timestamp)
    (o o' : Outbox) (hs : o.stores.issues.Keyed)
    (hcut : (sendNew cfg now).CutWith (Outbox.handler reach) o o') :
    ∃ ts, ts <+: attemptsAt cfg reach now o ∧ o'.sent = o.sent ++ ts.map Attempt.record ∧
      ∀ k a, (∃ u ∈ attemptsAt cfg reach now o, u.concerns k a = true) →
        (∀ u ∈ ts, u.concerns k a = false) →
        ∃ i', o'.stores.issues.find? k = some i' ∧
          ((∃ u ∈ attemptsAt cfg reach' now o', u.concerns k a = true) ↔ a ∉ i'.notified) := by
  obtain ⟨ts, hhalted⟩ := halted_of_cut (t := now.minusMinutes cfg.recentMinutes) hcut
  refine ⟨ts, hhalted.sent.1, hhalted.sent.2, fun k a ⟨u, hu, hconcerns⟩ hnot => ?_⟩
  obtain ⟨i, hissue, hkey⟩ := listed_pos_iff.1 (Attempt.concerns_iff.1 hconcerns).2
  have hi : o.stores.issues.find? k = some i := by
    rw [← hkey]
    exact hs.find?_of_mem_all ((mem_issues_iff hs hu).1 hissue).1
  have hdue := (concerns_iff_due hs hi).1 ⟨u, hu, hconcerns⟩
  obtain ⟨i', hi', hiff⟩ := hhalted.due_iff hs hi hdue hnot
  exact ⟨i', hi', (concerns_iff_due (keyed_of_cut hcut hs) hi').trans hiff⟩

/-! ### A pass that is cut after its first mark -/

/-- Every subscriber follows everything. -/
def openList : NotificationConfig := ⟨2, 120, 0, [⟨"dev", [], [], []⟩, ⟨"ops", [], [], []⟩]⟩

def oneIssue : IssueKey := ⟨"apache", 1, "suite"⟩

def unannounced : Outbox :=
  ⟨{ Stores.empty with issues := IssueStore.empty.save (.make oneIssue .newFailure default) }, []⟩

/-- One of two addresses has been marked. -/
def halfAnnounced : Outbox :=
  unannounced.withIssues (unannounced.stores.issues.announce oneIssue "dev" 2).2

def delivers : List (Message × Bool) → Message → Except ServiceError Unit := fun _ _ => .ok ()

theorem keyed_unannounced : unannounced.stores.issues.Keyed := keyed_empty.save _

theorem cut_halfAnnounced :
    (sendNew openList default).CutWith (Outbox.handler delivers) unannounced halfAnnounced :=
  ⟨none, .answered (.answered (.stopped _ _))⟩

/-- The first address has been marked for nothing, and the next pass sends to the other one only. -/
theorem attempted_after_cut_second :
    unannounced.stores.issues.Keyed ∧
    (sendNew openList default).CutWith (Outbox.handler delivers) unannounced halfAnnounced ∧
    (attemptsAt openList delivers default halfAnnounced).map (·.notification.address) = ["ops"] ∧
    ∃ ts, ts <+: attemptsAt openList delivers default unannounced ∧
      halfAnnounced.sent = unannounced.sent ++ ts.map Attempt.record ∧
      ∀ k a, (∃ u ∈ attemptsAt openList delivers default unannounced, u.concerns k a = true) →
        (∀ u ∈ ts, u.concerns k a = false) →
        ∃ i', halfAnnounced.stores.issues.find? k = some i' ∧
          ((∃ u ∈ attemptsAt openList delivers default halfAnnounced, u.concerns k a = true) ↔
            a ∉ i'.notified) :=
  ⟨keyed_unannounced, cut_halfAnnounced, by decide +kernel,
    attempted_after_cut openList delivers delivers default unannounced halfAnnounced
      keyed_unannounced cut_halfAnnounced⟩

/-- A pass that is cut may lose a message: nothing has been handed over, the whole pass would have sent
to an address, and the next one does not. -/
theorem message_lost_after_cut :
    ∃ o', (sendNew openList default).CutWith (Outbox.handler delivers) unannounced o' ∧
      o'.sent = unannounced.sent ∧
      (∃ u ∈ attemptsAt openList delivers default unannounced, u.concerns oneIssue "dev" = true) ∧
      ¬ ∃ u ∈ attemptsAt openList delivers default o', u.concerns oneIssue "dev" = true := by
  refine ⟨halfAnnounced, cut_halfAnnounced, rfl, ?_, ?_⟩
  · exact List.any_eq_true.1 (by decide +kernel)
  · exact mt List.any_eq_true.2 (by decide +kernel)

end Triage.Notification
