import Triage.Proofs.Notification.Effect

/-!
# One address and the failures of others

The record of an issue has one counter of failed messages for all addresses.  So a failure at another
address may use up the retries that are left for an address that has failed as well
(`isolated_shared_counter`).  That is the only way in which the messages to an address depend on what
becomes of the messages to others: they are the same in two runs in which the counters agree on when
the retries are used up, and stay within their words (`isolated`).
-/

namespace Triage.Notification

open IssueStore

variable {a : String} {k : IssueKey} {maxRetries : Nat} {cfg : NotificationConfig}
  {i j x y x' y' : Issue} {is : List Issue} {s s' : IssueStore}
  {t : Except Timestamp.Overflow Timestamp} {o o' : Outbox} {n : Notification}
  {ts us : List Attempt} {reach reach' : List (Message × Bool) → Message → Except ServiceError Unit}

/-! ### What a message shows -/

/-- An issue without the account of its messages. -/
def plain (i : Issue) : Issue :=
  { i with notified := .empty, failed := .empty, retries := 0, stat := ⟨0, 0, 0⟩ }

/-- A notification that lists its issues without the account of their messages. -/
def bare (n : Notification) : Notification :=
  { n with byBuild := n.byBuild.mapValues (List.map plain) }

theorem bare_add (n : Notification) (i : Issue) : bare (n.add i) = (bare n).add (plain i) := by
  refine congrArg (Notification.mk n.address) (OrderedMap.ext_find? fun b => ?_)
  have hold : ∀ b, ((bare n).byBuild.find? b) = (n.byBuild.find? b).map (List.map plain) :=
    fun b => OrderedMap.find?_mapValues _ _ b
  rw [OrderedMap.find?_mapValues]
  unfold add
  simp only
  rw [OrderedMap.find?_insert, OrderedMap.find?_insert, hold, hold]
  by_cases hb : i.key.build = b
  · rw [if_pos hb, if_pos (show (plain i).key.build = b from hb), Option.map_some, List.map_append]
    congr 2
    change _ = ((n.byBuild.find? i.key.build).map (List.map plain)).getD []
    cases n.byBuild.find? i.key.build <;> rfl
  · rw [if_neg hb, if_neg (show ¬(plain i).key.build = b from hb)]

theorem bare_compose (a : String) (is : List Issue) :
    bare (compose a is) = compose a (is.map plain) := by
  induction is using List.reverseRecOn with
  | nil => rfl
  | append_singleton is i ih =>
    rw [compose_concat, bare_add, ih, List.map_append, List.map_singleton, compose_concat]

theorem issueLines_plain (is : List Issue) : issueLines (is.map plain) = issueLines is := by
  induction is using issueLines.induct with
  | case1 => rfl
  | case2 i => rfl
  | case3 i is hne ih =>
    obtain ⟨j, is, rfl⟩ := List.exists_cons_of_ne_nil hne
    rw [issueLines, ← ih]
    · rfl
    · simp

/-- The text of a message does not show the account of the messages. -/
theorem message_bare (n : Notification) : (bare n).message = n.message := by
  have hkeys : (bare n).byBuild.keys = n.byBuild.keys := by
    unfold bare OrderedMap.keys OrderedMap.mapValues
    rw [List.map_map]
    rfl
  have hissues : (bare n).issues = n.issues.map plain := by
    unfold issues bare
    rw [OrderedMap.values_mapValues, List.map_flatten]
  have hbody : (bare n).body = n.body := by
    unfold body bare OrderedMap.mapValues
    rw [List.map_map]
    refine congrArg String.join (List.map_congr_left fun e _ => ?_)
    simp only [Function.comp_apply, sectionText, issueLines_plain]
  have hsubject : (bare n).subject = n.subject := by
    unfold subject
    rw [hkeys, hissues, List.length_map]
  unfold message
  rw [hbody, hsubject]
  rfl

/-! ### The messages to one address -/

/-- The messages to the address, in the order in which they are handed to the transport. -/
def messagesTo (a : String) (ts : List Attempt) : List Message :=
  (ts.filter fun u => u.notification.address = a).map (·.notification.message)

theorem filter_address_eq {ns : List Notification} (h : (ns.map (·.address)).Nodup) (hn : n ∈ ns) :
    (ns.filter fun m => m.address = n.address) = [n] := by
  induction ns with
  | nil => cases hn
  | cons m ns ih =>
    obtain ⟨hm, hnodup⟩ := List.nodup_cons.1 h
    rcases List.mem_cons.1 hn with rfl | hn
    · have hrest : (ns.filter fun m => m.address = n.address) = [] := by
        refine List.filter_eq_nil_iff.2 fun m hmem => ?_
        simp only [decide_eq_true_eq]
        exact fun heq => hm (List.mem_map.2 ⟨m, hmem, heq⟩)
      rw [List.filter_cons_of_pos (by simp), hrest]
    · have hne : ¬ m.address = n.address := fun heq => hm (List.mem_map.2 ⟨n, hn, heq.symm⟩)
      rw [List.filter_cons_of_neg (by simpa using hne), ih hnodup hn]

/-- A pass hands over one message to the address, with all that is due to it, if anything is. -/
theorem messagesTo_attemptsSince (hs : o.stores.issues.Keyed) :
    messagesTo a (attemptsSince cfg reach t o) =
      ((notice? a (dueIssues cfg t o.stores.issues a)).map message).toList := by
  have hfilter : messagesTo a (attemptsSince cfg reach t o) =
      ((outgoing cfg t o).filter fun n => n.address = a).map message := by
    rw [← notification_attempts cfg.maxRetries reach (outgoing cfg t o) (ready cfg t o),
      List.filter_map, List.map_map]
    rfl
  have hnodup : ((outgoing cfg t o).map (·.address)).Nodup :=
    nodup_addresses (addressed_preparedSince cfg o.stores.issues t)
  rw [hfilter, notice?]
  cases hdue : dueIssues cfg t o.stores.issues a with
  | nil =>
    have hnone : ((outgoing cfg t o).filter fun n => n.address = a) = [] := by
      refine List.filter_eq_nil_iff.2 fun n hn => ?_
      obtain ⟨a', hne, rfl⟩ := (mem_outgoing hs).1 hn
      simp only [address_compose, decide_eq_true_eq]
      rintro rfl
      exact hne hdue
    rw [hnone]
    rfl
  | cons i is =>
    have hmem : compose a (i :: is) ∈ outgoing cfg t o :=
      (mem_outgoing hs).2 ⟨a, by rw [hdue]; exact List.cons_ne_nil i is, by rw [hdue]⟩
    have hone := filter_address_eq hnodup hmem
    rw [address_compose] at hone
    rw [hone]
    rfl

/-- The message depends on the account of the messages only through what is due. -/
theorem message_notice?_plain (a : String) (is : List Issue) :
    (notice? a (is.map plain)).map message = (notice? a is).map message := by
  unfold notice?
  rw [List.isEmpty_map]
  cases is.isEmpty with
  | true => rfl
  | false =>
    simp only [Bool.false_eq_true, if_false, Option.map_some]
    rw [← bare_compose, message_bare]

/-! ### Two records of an issue -/

/-- Two records of an issue that are the same for the address.  After a failure the address may be
marked in one of them only, but then its retries are used up there. -/
structure Alike (maxRetries : Nat) (a : String) (x y : Issue) : Prop where
  plain : plain x = plain y
  failed : x.failed.contains a = y.failed.contains a
  marks : (a ∈ x.notified ↔ a ∈ y.notified) ∨
    (x.failed.contains a = true ∧ (a ∈ x.notified → maxRetries ≤ x.retries.toNat) ∧
      (a ∈ y.notified → maxRetries ≤ y.retries.toNat))

theorem Alike.refl (maxRetries : Nat) (a : String) (x : Issue) : Alike maxRetries a x x :=
  ⟨rfl, rfl, .inl .rfl⟩

theorem Alike.symm (h : Alike maxRetries a x y) : Alike maxRetries a y x where
  plain := h.plain.symm
  failed := h.failed.symm
  marks := h.marks.imp Iff.symm fun ⟨hf, hx, hy⟩ => ⟨h.failed ▸ hf, hy, hx⟩

theorem Alike.inWindow_eq (h : Alike maxRetries a x y)
    (t : Except Timestamp.Overflow Timestamp) : inWindow t x = inWindow t y := by
  have hplain := congrArg (inWindow t) h.plain
  exact hplain

theorem Alike.isFollowed_eq (h : Alike maxRetries a x y) (ss : List Subscriber) :
    isFollowed ss a x = isFollowed ss a y := by
  have hplain := congrArg (isFollowed ss a) h.plain
  exact hplain

/-- Unless the address is marked in both records, the retries after a failure are used up in both or in
neither. -/
def SameLimit (maxRetries : Nat) (a : String) (x y : Issue) : Prop :=
  a ∉ x.notified ∨ a ∉ y.notified → x.failed.contains a = true → y.failed.contains a = true →
    (maxRetries ≤ x.retries.toNat ↔ maxRetries ≤ y.retries.toNat)

instance : Decidable (SameLimit maxRetries a x y) :=
  inferInstanceAs (Decidable (_ → _ → _ → (_ ↔ _)))

theorem SameLimit.symm (h : SameLimit maxRetries a x y) : SameLimit maxRetries a y x :=
  fun hmarks hy hx => (h hmarks.symm hx hy).symm

theorem Alike.isOwed (h : Alike maxRetries a x y) (hl : SameLimit maxRetries a x y)
    (hx : isOwed maxRetries a x = true) : isOwed maxRetries a y = true := by
  obtain ⟨hunmarked, hretriable⟩ := isOwed_iff.1 hx
  have hlimit : y.failed.contains a = true → ¬ maxRetries ≤ y.retries.toNat := fun hy hle =>
    have hfailed := h.failed.trans hy
    hretriable ⟨(hl (.inl hunmarked) hfailed hy).2 hle, hfailed⟩
  refine isOwed_iff.2 ⟨fun hmarked => ?_, fun ⟨hle, hy⟩ => hlimit hy hle⟩
  rcases h.marks with hsame | ⟨hfailed, -, hy⟩
  · exact hunmarked (hsame.2 hmarked)
  · exact hlimit (h.failed ▸ hfailed) (hy hmarked)

/-- For an issue that may be due at all, that the retries agree is enough. -/
theorem Alike.due_iff (h : Alike cfg.maxRetries a x y)
    (hl : inWindow t x = true → isFollowed cfg.subscribers a x = true →
      SameLimit cfg.maxRetries a x y) : Due cfg t a x ↔ Due cfg t a y := by
  rw [Notification.due_iff, Notification.due_iff, ← h.inWindow_eq]
  unfold isDue
  rw [← h.isFollowed_eq, Bool.and_eq_true, Bool.and_eq_true]
  refine and_congr_right fun hin => and_congr_right fun hfollowed => ?_
  exact ⟨h.isOwed (hl hin hfollowed), h.symm.isOwed (hl hin hfollowed).symm⟩

/-- What becomes of the messages to the address is the same in both passes. -/
def AgreeOn (a : String) (ts us : List Attempt) : Prop :=
  ∀ u ∈ ts, ∀ v ∈ us, u.notification.address = a → v.notification.address = a → u.ok = v.ok

instance : Decidable (AgreeOn a ts us) :=
  inferInstanceAs (Decidable (∀ u ∈ ts, ∀ v ∈ us, _ → _ → _))

/-- The counter of the issue stays within its word when the messages have gone out. -/
def CounterFits (ts : List Attempt) (i : Issue) : Prop :=
  i.retries.toNat + ts.countP (Attempt.failedFor i.key) < UInt32.size

instance : Decidable (CounterFits ts i) := inferInstanceAs (Decidable (_ < _))

section Handled

variable {before before' : List (Message × Bool)}

theorem Handled.plain (h : Handled cfg reach t before ts x x') : plain x' = plain x := by
  rw [h.rest]
  rfl

theorem CounterFits.toNat_add {c : Nat} (h : CounterFits ts x)
    (hc : c ≤ ts.countP (Attempt.failedFor x.key)) :
    (x.retries + UInt32.ofNat c).toNat = x.retries.toNat + c := by
  have hlt : x.retries.toNat + c < UInt32.size := Nat.lt_of_le_of_lt (Nat.add_le_add_left hc _) h
  rw [UInt32.toNat_add, UInt32.toNat_ofNat_of_lt' (by omega)]
  exact Nat.mod_eq_of_lt hlt

theorem Handled.toNat_retries (h : Handled cfg reach t before ts x x') (hfits : CounterFits ts x) :
    x'.retries.toNat = x.retries.toNat + ts.countP (Attempt.failedFor x.key) := by
  rw [h.retries, hfits.toNat_add (Nat.le_refl _)]

/-- After a failure the address is marked only if the retries are used up. -/
theorem Handled.of_failed {u : Attempt} (h : Handled cfg reach t before ts x x')
    (hfits : CounterFits ts x) (hu : u ∈ ts) (hdue : Due cfg t u.notification.address x)
    (hok : u.ok = false) :
    x'.failed.contains u.notification.address = true ∧
      (u.notification.address ∈ x'.notified → cfg.maxRetries ≤ x'.retries.toNat) := by
  obtain ⟨pre, post, hsplit⟩ := List.append_of_mem hu
  obtain ⟨hmark, e, -, hreason⟩ := h.failed pre u post hsplit hdue hok
  refine ⟨by rw [OrderedMap.contains_eq_isSome, hreason]; rfl, fun hmarked => ?_⟩
  have hpre : pre.countP (Attempt.failedFor x.key) ≤ ts.countP (Attempt.failedFor x.key) := by
    rw [hsplit, List.countP_append]
    exact Nat.le_add_right _ _
  have hcounted := Nat.le_of_not_lt fun hlt => hmark.2 hlt hmarked
  rw [hfits.toNat_add hpre] at hcounted
  rw [h.toNat_retries hfits]
  omega

/-- Two passes in which the address is treated in the same way leave records that are the same for
it, if no counter comes round or if the address has no failure on record and gets no further one. -/
theorem Alike.handled (h : Alike cfg.maxRetries a x y) (hdues : Due cfg t a x ↔ Due cfg t a y)
    (hx : Handled cfg reach t before ts x x') (hy : Handled cfg reach' t before' us y y')
    (hts : Due cfg t a x → ∃ u ∈ ts, u.notification.address = a)
    (hus : Due cfg t a y → ∃ v ∈ us, v.notification.address = a) (hagree : AgreeOn a ts us)
    (hfits : (CounterFits ts x ∧ CounterFits us y) ∨
      (x.failed.contains a = false ∧ ∀ u ∈ ts, u.notification.address = a → u.ok = true)) :
    Alike cfg.maxRetries a x' y' := by
  have hplain : Notification.plain x' = Notification.plain y' :=
    hx.plain.trans (h.plain.trans hy.plain.symm)
  by_cases hdue : Due cfg t a x
  · have hdue' := hdues.1 hdue
    obtain ⟨u, hu, rfl⟩ := hts hdue
    obtain ⟨v, hv, hva⟩ := hus hdue'
    have hok := hagree u hu v hv rfl hva
    rw [← hva] at hdue'
    cases huok : u.ok with
    | true =>
      obtain ⟨hxmark, hxfailed⟩ := hx.reached u hu hdue huok
      obtain ⟨hymark, hyfailed⟩ := hy.reached v hv hdue' (hok ▸ huok)
      rw [hva] at hymark hyfailed
      exact ⟨hplain, OrderedMap.contains_congr (hxfailed.trans hyfailed.symm),
        .inl (iff_of_true hxmark hymark)⟩
    | false =>
      have hreached : ¬ (∀ u' ∈ ts, u'.notification.address = u.notification.address →
          u'.ok = true) := fun hall => by simp [hall u hu rfl] at huok
      obtain ⟨hxfits, hyfits⟩ := hfits.resolve_right fun hclean => hreached hclean.2
      obtain ⟨hxfailed, hxmark⟩ := hx.of_failed hxfits hu hdue huok
      obtain ⟨hyfailed, hymark⟩ := hy.of_failed hyfits hv hdue' (hok ▸ huok)
      rw [hva] at hyfailed hymark
      exact ⟨hplain, hxfailed.trans hyfailed.symm, .inr ⟨hxfailed, hxmark, hymark⟩⟩
  · obtain ⟨hxmark, hxfailed⟩ := hx.spared a hdue
    obtain ⟨hymark, hyfailed⟩ := hy.spared a (mt hdues.2 hdue)
    have hxc := OrderedMap.contains_congr hxfailed
    have hyc := OrderedMap.contains_congr hyfailed
    refine ⟨hplain, hxc.trans (h.failed.trans hyc.symm), ?_⟩
    rw [hxc, hxmark, hymark]
    refine h.marks.imp_right fun ⟨hf, hx', hy'⟩ => ?_
    obtain ⟨hxfits, hyfits⟩ := hfits.resolve_right fun hclean => by simp [hf] at hclean
    rw [hx.toNat_retries hxfits, hy.toNat_retries hyfits]
    exact ⟨hf, fun hm => (hx' hm).trans (Nat.le_add_right _ _),
      fun hm => (hy' hm).trans (Nat.le_add_right _ _)⟩

end Handled

/-! ### Two runs -/

/-- Two stores whose records are the same for the address. -/
def AlikeStores (maxRetries : Nat) (a : String) (s s' : IssueStore) : Prop :=
  ∀ k, (s.find? k = none ∧ s'.find? k = none) ∨
    ∃ x y, s.find? k = some x ∧ s'.find? k = some y ∧ Alike maxRetries a x y

/-- For each issue of the window that the address follows, the retries after a failure are used up in
both stores or in neither. -/
def SameLimits (cfg : NotificationConfig) (t : Except Timestamp.Overflow Timestamp) (a : String)
    (s s' : IssueStore) : Prop :=
  ∀ x ∈ s.all, ∀ y ∈ s'.all, x.key = y.key → inWindow t x = true →
    isFollowed cfg.subscribers a x = true → SameLimit cfg.maxRetries a x y

instance : Decidable (SameLimits cfg t a s s') :=
  inferInstanceAs (Decidable (∀ x ∈ s.all, ∀ y ∈ s'.all,
    _ → _ → _ → SameLimit cfg.maxRetries a x y))

theorem AlikeStores.refl (maxRetries : Nat) (a : String) (s : IssueStore) :
    AlikeStores maxRetries a s s := by
  intro k
  cases hk : s.find? k with
  | none => exact .inl ⟨rfl, rfl⟩
  | some x => exact .inr ⟨x, x, rfl, rfl, .refl maxRetries a x⟩

theorem keyed_sendSince (hs : o.stores.issues.Keyed) :
    ((sendSince cfg t).runWith (Outbox.handler reach) o).2.stores.issues.Keyed := by
  intro k i' hi'
  have heffect : Effect cfg reach t o _ _ := effect_sendSince hs
  cases hk : o.stores.issues.find? k with
  | none =>
    rw [heffect.absent k hk] at hi'
    cases hi'
  | some i =>
    obtain ⟨j, hj, hhandled⟩ := heffect.records k i hk
    rw [hj] at hi'
    cases hi'
    rw [hhandled.rest]
    exact hs k i hk

/-- What is due to the address looks the same in both stores. -/
theorem map_plain_dueIssues (hs : s.Keyed) (hs' : s'.Keyed)
    (h : AlikeStores cfg.maxRetries a s s') (hl : SameLimits cfg t a s s') :
    (dueIssues cfg t s a).map plain = (dueIssues cfg t s' a).map plain := by
  have hview : ∀ s : IssueStore, (dueIssues cfg t s a).map plain =
      ((s.issues.filter fun _ i => inWindow t i && isDue cfg a i).mapValues plain).values := by
    intro s
    rw [OrderedMap.values_mapValues, OrderedMap.values_filter]
    rfl
  rw [hview, hview]
  refine congrArg OrderedMap.values (OrderedMap.ext_find? fun k => ?_)
  rw [OrderedMap.find?_mapValues, OrderedMap.find?_mapValues, OrderedMap.find?_filter,
    OrderedMap.find?_filter]
  change ((s.find? k).filter _).map plain = ((s'.find? k).filter _).map plain
  rcases h k with ⟨hx, hy⟩ | ⟨x, y, hx, hy, halike⟩
  · rw [hx, hy]
  · have hlimit := hl x (mem_all_iff.2 ⟨k, hx⟩) y (mem_all_iff.2 ⟨k, hy⟩)
      ((hs k x hx).trans (hs' k y hy).symm)
    have hdue : (inWindow t x && isDue cfg a x) = (inWindow t y && isDue cfg a y) := by
      rw [Bool.eq_iff_iff, Bool.and_eq_true, Bool.and_eq_true, ← due_iff, ← due_iff]
      exact halike.due_iff hlimit
    rw [hx, hy, Option.filter_some, Option.filter_some, hdue]
    cases inWindow t y && isDue cfg a y with
    | true => exact congrArg some halike.plain
    | false => rfl

/-- Every message to the address gets through. -/
def AllReach (a : String) (ts : List Attempt) : Prop :=
  ∀ u ∈ ts, u.notification.address = a → u.ok = true

/-- No failure of the address is on record. -/
def Clean (a : String) (s : IssueStore) : Prop := ∀ i ∈ s.all, i.failed.contains a = false

instance : Decidable (AllReach a ts) := inferInstanceAs (Decidable (∀ u ∈ ts, _ → _))

instance : Decidable (Clean a s) :=
  inferInstanceAs (Decidable (∀ i ∈ s.all, i.failed.contains a = false))

/-- One pass of both runs: the address gets the same messages, and the stores stay alike. -/
theorem AlikeStores.send (hs : o.stores.issues.Keyed) (hs' : o'.stores.issues.Keyed)
    (h : AlikeStores cfg.maxRetries a o.stores.issues o'.stores.issues)
    (hl : SameLimits cfg t a o.stores.issues o'.stores.issues)
    (hagree : AgreeOn a (attemptsSince cfg reach t o) (attemptsSince cfg reach' t o'))
    (hfits : ((∀ x ∈ o.stores.issues.all, CounterFits (attemptsSince cfg reach t o) x) ∧
        ∀ y ∈ o'.stores.issues.all, CounterFits (attemptsSince cfg reach' t o') y) ∨
      (Clean a o.stores.issues ∧ AllReach a (attemptsSince cfg reach t o))) :
    messagesTo a (attemptsSince cfg reach t o) = messagesTo a (attemptsSince cfg reach' t o') ∧
      AlikeStores cfg.maxRetries a
        ((sendSince cfg t).runWith (Outbox.handler reach) o).2.stores.issues
        ((sendSince cfg t).runWith (Outbox.handler reach') o').2.stores.issues := by
  constructor
  · rw [messagesTo_attemptsSince hs, messagesTo_attemptsSince hs', ← message_notice?_plain,
      map_plain_dueIssues hs hs' h hl, message_notice?_plain]
  · intro k
    have heffect : Effect cfg reach t o (attemptsSince cfg reach t o) _ := effect_sendSince hs
    have heffect' : Effect cfg reach' t o' (attemptsSince cfg reach' t o') _ := effect_sendSince hs'
    rcases h k with ⟨hx, hy⟩ | ⟨x, y, hx, hy, halike⟩
    · exact .inl ⟨heffect.absent k hx, heffect'.absent k hy⟩
    · obtain ⟨x', hx', hhandled⟩ := heffect.records k x hx
      obtain ⟨y', hy', hhandled'⟩ := heffect'.records k y hy
      have hxall : x ∈ o.stores.issues.all := mem_all_iff.2 ⟨k, hx⟩
      have hyall : y ∈ o'.stores.issues.all := mem_all_iff.2 ⟨k, hy⟩
      have hlimit := hl x hxall y hyall ((hs k x hx).trans (hs' k y hy).symm)
      exact .inr ⟨x', y', hx', hy', halike.handled (halike.due_iff hlimit) hhandled hhandled'
        (fun hdue => (heffect.addressed a).2 ⟨x, hxall, hdue⟩)
        (fun hdue => (heffect'.addressed a).2 ⟨y, hyall, hdue⟩) hagree
        (hfits.imp (fun h => ⟨h.1 x hxall, h.2 y hyall⟩) fun h => ⟨h.1 x hxall, h.2⟩)⟩

/-- A pass: its time, the outbox that it begins with, and its attempts. -/
structure Round where
  time : Timestamp
  before : Outbox
  attempts : List Attempt

/-- Passes at the given times, one after the other. -/
def rounds (cfg : NotificationConfig)
    (reach : List (Message × Bool) → Message → Except ServiceError Unit) :
    List Timestamp → Outbox → List Round
  | [], _ => []
  | now :: nows, o => ⟨now, o, attemptsAt cfg reach now o⟩ ::
      rounds cfg reach nows ((sendNew cfg now).runWith (Outbox.handler reach) o).2

/-- The messages to the address, pass by pass. -/
def mail (a : String) (ps : List Round) : List (List Message) :=
  ps.map fun p => messagesTo a p.attempts

/-- What becomes of the messages to the address is the same in both runs. -/
def Agree (a : String) (ps qs : List Round) : Prop :=
  ∀ p ∈ ps.zip qs, AgreeOn a p.1.attempts p.2.attempts

/-- Whenever a pass begins, the retries of the address agree in both runs. -/
def LimitsAgree (cfg : NotificationConfig) (a : String) (ps qs : List Round) : Prop :=
  ∀ p ∈ ps.zip qs, SameLimits cfg (p.1.time.minusMinutes cfg.recentMinutes) a
    p.1.before.stores.issues p.2.before.stores.issues

/-- All messages to the address get through. -/
def Reached (a : String) (ps : List Round) : Prop := ∀ p ∈ ps, AllReach a p.attempts

/-- In no pass the counter of an issue comes to the end of its word. -/
def CountersFit (ps : List Round) : Prop :=
  ∀ p ∈ ps, ∀ i ∈ p.before.stores.issues.all, CounterFits p.attempts i

section Decidable

variable {ps qs : List Round}

instance : Decidable (Agree a ps qs) :=
  inferInstanceAs (Decidable (∀ p ∈ ps.zip qs, AgreeOn a p.1.attempts p.2.attempts))

instance : Decidable (LimitsAgree cfg a ps qs) :=
  inferInstanceAs (Decidable (∀ p ∈ ps.zip qs, SameLimits cfg _ a _ _))

instance : Decidable (Reached a ps) :=
  inferInstanceAs (Decidable (∀ p ∈ ps, AllReach a p.attempts))

instance : Decidable (CountersFit ps) :=
  inferInstanceAs (Decidable (∀ p ∈ ps, ∀ i ∈ p.before.stores.issues.all, CounterFits p.attempts i))

end Decidable

theorem mail_rounds_eq (nows : List Timestamp) (hs : o.stores.issues.Keyed)
    (hs' : o'.stores.issues.Keyed)
    (h : AlikeStores cfg.maxRetries a o.stores.issues o'.stores.issues)
    (hagree : Agree a (rounds cfg reach nows o) (rounds cfg reach' nows o'))
    (hl : LimitsAgree cfg a (rounds cfg reach nows o) (rounds cfg reach' nows o'))
    (hfits : (CountersFit (rounds cfg reach nows o) ∧ CountersFit (rounds cfg reach' nows o')) ∨
      ∀ p ∈ rounds cfg reach nows o, Clean a p.before.stores.issues ∧ AllReach a p.attempts) :
    mail a (rounds cfg reach nows o) = mail a (rounds cfg reach' nows o') := by
  induction nows generalizing o o' with
  | nil => rfl
  | cons now nows ih =>
    unfold rounds Agree at hagree
    unfold rounds LimitsAgree at hl
    unfold rounds CountersFit at hfits
    unfold rounds
    rw [List.zip_cons_cons] at hagree hl
    obtain ⟨hsame, hnext⟩ := h.send hs hs' (hl _ List.mem_cons_self)
      (hagree _ List.mem_cons_self)
      (hfits.imp (fun h => ⟨h.1 _ List.mem_cons_self, h.2 _ List.mem_cons_self⟩)
        fun h => h _ List.mem_cons_self)
    have hrest := ih (keyed_sendSince hs) (keyed_sendSince hs') hnext
      (fun p hp => hagree p (List.mem_cons_of_mem _ hp))
      (fun p hp => hl p (List.mem_cons_of_mem _ hp))
      (hfits.imp (fun h => ⟨fun p hp => h.1 p (List.mem_cons_of_mem _ hp),
          fun p hp => h.2 p (List.mem_cons_of_mem _ hp)⟩)
        fun h p hp => h p (List.mem_cons_of_mem _ hp))
    exact congrArg₂ List.cons hsame hrest

/-! ### An address that can be reached -/

theorem Clean.send (h : Clean a o.stores.issues) (hs : o.stores.issues.Keyed)
    (hreached : AllReach a (attemptsSince cfg reach t o)) :
    Clean a ((sendSince cfg t).runWith (Outbox.handler reach) o).2.stores.issues := by
  have heffect : Effect cfg reach t o (attemptsSince cfg reach t o) _ := effect_sendSince hs
  intro i' hi'
  obtain ⟨k, hk⟩ := mem_all_iff.1 hi'
  cases hi : o.stores.issues.find? k with
  | none =>
    rw [heffect.absent k hi] at hk
    cases hk
  | some i =>
    have hall : i ∈ o.stores.issues.all := mem_all_iff.2 ⟨k, hi⟩
    obtain ⟨j, hj, hhandled⟩ := heffect.records k i hi
    rw [hj] at hk
    cases hk
    by_cases hdue : Due cfg t a i
    · obtain ⟨u, hu, rfl⟩ := (heffect.addressed a).2 ⟨i, hall, hdue⟩
      rw [OrderedMap.contains_eq_isSome, (hhandled.reached u hu hdue (hreached u hu rfl)).2]
      rfl
    · rw [OrderedMap.contains_congr (hhandled.spared a hdue).2]
      exact h i hall

theorem clean_rounds {nows : List Timestamp} (hs : o.stores.issues.Keyed)
    (h : Clean a o.stores.issues) (hreached : Reached a (rounds cfg reach nows o)) :
    ∀ p ∈ rounds cfg reach nows o, Clean a p.before.stores.issues := by
  induction nows generalizing o with
  | nil => exact fun p hp => absurd hp List.not_mem_nil
  | cons now nows ih =>
    unfold rounds Reached at hreached
    unfold rounds
    intro p hp
    rcases List.mem_cons.1 hp with rfl | hp
    · exact h
    · exact ih (keyed_sendSince hs) (h.send hs (hreached _ List.mem_cons_self))
        (fun q hq => hreached q (List.mem_cons_of_mem _ hq)) p hp

/-- Where no failure is on record, it does not matter how many retries are left. -/
theorem Clean.sameLimits (h : Clean a s) : SameLimits cfg t a s s' := by
  intro x hx y _ _ _ _ _ hfailed
  rw [h x hx] at hfailed
  cases hfailed

/-- Isolation up to the counter of failed messages.  In two runs in which the messages to an address
meet with the same outcome and no counter comes to the end of its word, the address gets the same
messages, pass by pass, if whenever a pass begins the retries that are left for issues with a failure
of the address on record are used up in both runs or in neither.  In particular an address that all
messages reach gets the same messages whatever becomes of those to others, and whatever the counters
do. -/
theorem isolated (cfg : NotificationConfig)
    (reach reach' : List (Message × Bool) → Message → Except ServiceError Unit)
    (nows : List Timestamp) (o : Outbox) (a : String) (hs : o.stores.issues.Keyed)
    (hagree : Agree a (rounds cfg reach nows o) (rounds cfg reach' nows o)) :
    (CountersFit (rounds cfg reach nows o) → CountersFit (rounds cfg reach' nows o) →
      LimitsAgree cfg a (rounds cfg reach nows o) (rounds cfg reach' nows o) →
      mail a (rounds cfg reach nows o) = mail a (rounds cfg reach' nows o)) ∧
    (Clean a o.stores.issues → Reached a (rounds cfg reach nows o) →
      mail a (rounds cfg reach nows o) = mail a (rounds cfg reach' nows o)) := by
  have halike := AlikeStores.refl cfg.maxRetries a o.stores.issues
  constructor
  · intro hfits hfits' hl
    exact mail_rounds_eq nows hs hs halike hagree hl (.inl ⟨hfits, hfits'⟩)
  · intro hclean hreached
    have hcleans := clean_rounds hs hclean hreached
    refine mail_rounds_eq nows hs hs halike hagree (fun p hp => ?_)
      (.inr fun p hp => ⟨hcleans p hp, hreached p hp⟩)
    exact (hcleans p.1 (List.of_mem_zip hp).1).sameLimits

/-! ### A mailbox that is down -/

/-- Three subscribers follow everything. -/
def threeMailboxes (maxRetries : Nat) : NotificationConfig :=
  ⟨maxRetries, 120, 0, [⟨"dev", [], [], []⟩, ⟨"ops", [], [], []⟩, ⟨"qa", [], [], []⟩]⟩

/-- No message gets through to the given addresses. -/
def allBut (down : List String) : List (Message × Bool) → Message → Except ServiceError Unit :=
  fun _ m => if m.address ∈ down then .error (.notification m.address "down") else .ok ()

def freshIssue : Outbox :=
  ⟨{ Stores.empty with
    issues := IssueStore.empty.save (.make ⟨"apache", 1, "suite"⟩ .newFailure default) }, []⟩

/-- Two passes while some mailboxes are down. -/
def twoRounds (maxRetries : Nat) (down : List String) : List Round :=
  rounds (threeMailboxes maxRetries) (allBut down) [default, default] freshIssue

/-- With retries for both, an address that is down is tried again whether or not another one is down
as well, and a third address is not affected. -/
theorem isolated_both :
    freshIssue.stores.issues.Keyed ∧ Clean "qa" freshIssue.stores.issues ∧
    Agree "dev" (twoRounds 5 ["dev"]) (twoRounds 5 ["dev", "ops"]) ∧
    Agree "qa" (twoRounds 5 ["dev"]) (twoRounds 5 ["dev", "ops"]) ∧
    CountersFit (twoRounds 5 ["dev"]) ∧ CountersFit (twoRounds 5 ["dev", "ops"]) ∧
    LimitsAgree (threeMailboxes 5) "dev" (twoRounds 5 ["dev"]) (twoRounds 5 ["dev", "ops"]) ∧
    Reached "qa" (twoRounds 5 ["dev"]) ∧
    (mail "dev" (twoRounds 5 ["dev"])).map (·.length) = [1, 1] ∧
    (mail "ops" (twoRounds 5 ["dev"])).map (·.length) = [1, 0] ∧
    (mail "ops" (twoRounds 5 ["dev", "ops"])).map (·.length) = [1, 1] ∧
    mail "dev" (twoRounds 5 ["dev"]) = mail "dev" (twoRounds 5 ["dev", "ops"]) ∧
    mail "qa" (twoRounds 5 ["dev"]) = mail "qa" (twoRounds 5 ["dev", "ops"]) := by
  have hs : freshIssue.stores.issues.Keyed := keyed_empty.save _
  have hclean : Clean "qa" freshIssue.stores.issues := by decide +kernel
  have hdev : Agree "dev" (twoRounds 5 ["dev"]) (twoRounds 5 ["dev", "ops"]) := by decide +kernel
  have hqa : Agree "qa" (twoRounds 5 ["dev"]) (twoRounds 5 ["dev", "ops"]) := by decide +kernel
  have hfits : CountersFit (twoRounds 5 ["dev"]) := by decide +kernel
  have hfits' : CountersFit (twoRounds 5 ["dev", "ops"]) := by decide +kernel
  have hl : LimitsAgree (threeMailboxes 5) "dev" (twoRounds 5 ["dev"])
      (twoRounds 5 ["dev", "ops"]) := by
    decide +kernel
  have hreached : Reached "qa" (twoRounds 5 ["dev"]) := by decide +kernel
  exact ⟨hs, hclean, hdev, hqa, hfits, hfits', hl, hreached, by decide +kernel,
    by decide +kernel, by decide +kernel,
    (isolated _ _ _ _ _ "dev" hs hdev).1 hfits hfits' hl,
    (isolated _ _ _ _ _ "qa" hs hqa).2 hclean hreached⟩

/-- Another address that is down as well uses up the last retry for the first one, which then gets one
message less. -/
theorem isolated_shared_counter :
    Agree "dev" (twoRounds 2 ["dev"]) (twoRounds 2 ["dev", "ops"]) ∧
    mail "dev" (twoRounds 2 ["dev"]) ≠ mail "dev" (twoRounds 2 ["dev", "ops"]) := by
  refine ⟨by decide +kernel, fun heq => ?_⟩
  have hcounts := congrArg (List.map List.length) heq
  revert hcounts
  decide +kernel

end Triage.Notification
