import Triage.Proofs.Notification.Delivery

/-!
# Whom an issue is due to

A message about an issue is due to an address if some subscriber there wants it and the record of the
issue allows for a message (`isDue`).  While a pass is prepared this depends on no other issue and no
other address: so the queue of an address holds the issues that were due to it when the pass began
(`find?_queue`), and each record within the window has been told of all addresses that it is due to
(`find?_records`).
-/

namespace Triage

/-- Each issue is stored under its own key. -/
def IssueStore.Keyed (s : IssueStore) : Prop := ∀ k i, s.find? k = some i → i.key = k

theorem IssueStore.keyed_iff {s : IssueStore} : s.Keyed ↔ ∀ e ∈ s.issues.entries, e.2.key = e.1 :=
  ⟨fun h e he => h e.1 e.2 (OrderedMap.mem_entries_iff.1 he),
    fun h k i hi => h (k, i) (OrderedMap.mem_entries_iff.2 hi)⟩

theorem IssueStore.Keyed.modify {s : IssueStore} (h : s.Keyed) (k : IssueKey) {f : Issue → Issue}
    (hf : ∀ i, (f i).key = i.key) : IssueStore.Keyed ⟨s.issues.modify k f⟩ := by
  intro k' i hi
  have hfind : (s.issues.modify k f).find? k' = some i := hi
  rw [OrderedMap.find?_modify] at hfind
  split at hfind
  · obtain ⟨j, hj, rfl⟩ := Option.map_eq_some_iff.1 hfind
    exact (hf j).trans (h k' j hj)
  · exact h k' i hfind

theorem IssueStore.Keyed.announce {s : IssueStore} (h : s.Keyed) (k : IssueKey) (a : String)
    (maxRetries : Nat) : (s.announce k a maxRetries).2.Keyed := by
  unfold IssueStore.announce
  split
  · exact h
  · split
    · exact h
    · exact h.modify k fun _ => rfl

theorem IssueStore.Keyed.recordFailure {s : IssueStore} (h : s.Keyed) (k : IssueKey)
    (a reason : String) (maxRetries : Nat) : (s.recordFailure k a reason maxRetries).2.Keyed := by
  unfold IssueStore.recordFailure
  split
  · exact h
  · exact h.modify k fun _ => rfl

theorem IssueStore.Keyed.save {s : IssueStore} (h : s.Keyed) (i : Issue) : (s.save i).Keyed := by
  intro k j hj
  have hfind : (s.issues.insert i.key i).find? k = some j := hj
  rw [OrderedMap.find?_insert] at hfind
  split at hfind
  · rename_i hk
    cases hfind
    exact hk
  · exact h k j hfind

theorem IssueStore.keyed_empty : IssueStore.empty.Keyed := fun k i hi => by cases hi

/-- Whatever is asked of the stores, each issue stays under its own key. -/
theorem IssueStore.Keyed.answer {s : Stores} (h : s.issues.Keyed) (c : Call) :
    (s.answer c).2.issues.Keyed := by
  cases c with
  | saveIssue i => exact h.save i
  | removeOldIssues threshold budget kept =>
    exact fun k i hi => h k i (OrderedMap.find?_of_removeFirst hi)
  | announce k a maxRetries => exact h.announce k a maxRetries
  | recordFailure k a reason maxRetries => exact h.recordFailure k a reason maxRetries
  | saveStat k stat => exact h.modify k fun _ => rfl
  | updateDefect id change =>
    simp only [Stores.answer]
    cases s.defects.update id change <;> exact h
  | _ => exact h

theorem IssueStore.mem_all_iff {s : IssueStore} {i : Issue} : i ∈ s.all ↔ ∃ k, s.find? k = some i :=
  OrderedMap.mem_values_iff

theorem IssueStore.ext_find? {s t : IssueStore} (h : ∀ k, s.find? k = t.find? k) : s = t :=
  congrArg IssueStore.mk (OrderedMap.ext_find? h)

theorem IssueStore.Keyed.map_key_all {s : IssueStore} (h : s.Keyed) :
    s.all.map (·.key) = s.issues.keys := by
  unfold IssueStore.all OrderedMap.values OrderedMap.keys
  rw [List.map_map]
  exact List.map_congr_left fun e he => keyed_iff.1 h e he

theorem IssueStore.Keyed.nodup_keys_all {s : IssueStore} (h : s.Keyed) :
    (s.all.map (·.key)).Nodup := by
  rw [h.map_key_all]
  exact OrderedMap.nodup_keys s.issues

theorem IssueStore.Keyed.find?_of_mem_all {s : IssueStore} (h : s.Keyed) {i : Issue}
    (hi : i ∈ s.all) : s.find? i.key = some i := by
  obtain ⟨k, hk⟩ := mem_all_iff.1 hi
  rw [h k i hk]
  exact hk

namespace Notification

open IssueStore

variable {a a' : String} {k : IssueKey} {maxRetries : Nat} {cfg : NotificationConfig}
  {i x : Issue} {s : IssueStore} {acc : IssueStore × Queue} {is : List Issue}
  {t : Except Timestamp.Overflow Timestamp} {o : Outbox}

/-! ### One record -/

/-- The address has not been told of the issue, and there are retries left or no message to it has
failed. -/
def isOwed (maxRetries : Nat) (a : String) (i : Issue) : Bool :=
  !isExhausted i a maxRetries && !i.notified.contains a

/-- Some subscriber with the address wants the issue. -/
def isFollowed (ss : List Subscriber) (a : String) (i : Issue) : Bool :=
  ss.any fun s => s.address = a && wanted s i

/-- A message about the issue is due to the address. -/
def isDue (cfg : NotificationConfig) (a : String) (i : Issue) : Bool :=
  isFollowed cfg.subscribers a i && isOwed cfg.maxRetries a i

theorem isOwed_iff : isOwed maxRetries a i = true ↔
    a ∉ i.notified ∧ ¬(maxRetries ≤ i.retries.toNat ∧ i.failed.contains a = true) := by
  unfold isOwed isExhausted OrderedSet.contains
  simp only [Bool.and_eq_true, Bool.not_eq_true', ← Bool.not_eq_true, decide_eq_true_eq]
  exact and_comm

theorem isFollowed_iff {ss : List Subscriber} :
    isFollowed ss a i = true ↔ ∃ s ∈ ss, s.address = a ∧ s.followsServer i.key.server = true ∧
      s.followsBranch i.trackedBranch = true ∧ s.followsTags i.tags = true := by
  simp [isFollowed, wanted, and_assoc]

/-- Whether an issue was detected within the window of a pass, given its beginning.  A window that
cannot be computed holds nothing. -/
def inWindow (t : Except Timestamp.Overflow Timestamp) (i : Issue) : Bool :=
  match t with
  | .ok cutoff => cutoff ≤ i.detectedAt
  | .error _ => false

theorem inWindow_iff :
    inWindow t i = true ↔ ∃ cutoff, t = .ok cutoff ∧ cutoff ≤ i.detectedAt := by
  cases t <;> simp [inWindow]

/-- A pass whose window begins at `t` sends the issue to the address. -/
structure Due (cfg : NotificationConfig) (t : Except Timestamp.Overflow Timestamp) (a : String)
    (i : Issue) : Prop where
  recent : ∃ cutoff, t = .ok cutoff ∧ cutoff ≤ i.detectedAt
  followed : ∃ s ∈ cfg.subscribers, s.address = a ∧ s.followsServer i.key.server = true ∧
    s.followsBranch i.trackedBranch = true ∧ s.followsTags i.tags = true
  unmarked : a ∉ i.notified
  retriable : ¬(cfg.maxRetries ≤ i.retries.toNat ∧ i.failed.contains a = true)

theorem due_iff : Due cfg t a i ↔ inWindow t i = true ∧ isDue cfg a i = true := by
  unfold isDue
  rw [Bool.and_eq_true, inWindow_iff, isFollowed_iff, isOwed_iff]
  exact ⟨fun ⟨hr, hf, hn, he⟩ => ⟨hr, hf, hn, he⟩, fun ⟨hr, hf, hn, he⟩ => ⟨hr, hf, hn, he⟩⟩

/-- The record of an issue once an address has been told of it. -/
def told (a : String) (i : Issue) : Issue :=
  { i with notified := i.notified.insert a, failed := i.failed.erase a }

@[simp] theorem isOwed_told_self : isOwed maxRetries a (told a i) = false := by
  simp [isOwed, told, OrderedSet.contains, OrderedSet.mem_insert]

theorem isOwed_told_of_ne (h : a' ≠ a) : isOwed maxRetries a (told a' i) = isOwed maxRetries a i := by
  have hn : a ∈ (told a' i).notified ↔ a ∈ i.notified :=
    OrderedSet.mem_insert.trans (or_iff_right h.symm)
  have hf : (told a' i).failed.contains a = i.failed.contains a := by
    simp [told, OrderedMap.contains_eq_isSome, OrderedMap.find?_erase, h]
  rw [Bool.eq_iff_iff, isOwed_iff, isOwed_iff, hn, hf]
  rfl

/-- The stored record of an issue once the issue has been offered to a subscriber. -/
def offeredTo (maxRetries : Nat) (i x : Issue) (s : Subscriber) : Issue :=
  if wanted s i && isOwed maxRetries s.address x then told s.address x else x

/-- Of two records of an issue the second one has been told of the addresses with the property, and
is the same otherwise. -/
structure ToldOf (due : String → Bool) (x x' : Issue) : Prop where
  notified : ∀ a, a ∈ x'.notified ↔ a ∈ x.notified ∨ due a = true
  failed : ∀ a, x'.failed.find? a = if due a then none else x.failed.find? a
  rest : x' = { x with notified := x'.notified, failed := x'.failed }

theorem isOwed_offeredTo (s : Subscriber) :
    isOwed maxRetries a (offeredTo maxRetries i x s) =
      (isOwed maxRetries a x && !(s.address = a && wanted s i)) := by
  unfold offeredTo
  by_cases ha : s.address = a
  · subst ha
    cases wanted s i <;> cases ho : isOwed maxRetries s.address x <;> simp [ho]
  · split
    · simp [isOwed_told_of_ne ha, ha]
    · simp [ha]

theorem toldOf_foldl (maxRetries : Nat) (i x : Issue) (ss : List Subscriber) :
    ToldOf (fun a => isFollowed ss a i && isOwed maxRetries a x) x
      (ss.foldl (offeredTo maxRetries i) x) := by
  induction ss generalizing x with
  | nil => exact ⟨by simp [isFollowed], by simp [isFollowed], rfl⟩
  | cons s ss ih =>
    obtain ⟨notified, failed, rest⟩ := ih (offeredTo maxRetries i x s)
    have followed : ∀ a, isFollowed (s :: ss) a i =
        ((s.address = a && wanted s i) || isFollowed ss a i) := fun a => List.any_cons
    rw [List.foldl_cons]
    by_cases hdue : (wanted s i && isOwed maxRetries s.address x) = true
    · have hx : offeredTo maxRetries i x s = told s.address x := if_pos hdue
      obtain ⟨hwanted, howed⟩ := Bool.and_eq_true_iff.1 hdue
      refine ⟨fun a => ?_, fun a => ?_, ?_⟩
      · rw [notified, isOwed_offeredTo, hx, followed]
        by_cases ha : s.address = a
        · subst ha
          simp [told, OrderedSet.mem_insert, hwanted, howed]
        · have hn : a ≠ s.address := fun h => ha h.symm
          simp [told, OrderedSet.mem_insert, ha, hn]
      · rw [failed, isOwed_offeredTo, hx, followed]
        by_cases ha : s.address = a
        · subst ha
          simp [told, OrderedMap.find?_erase, hwanted, howed]
        · simp [told, OrderedMap.find?_erase, ha]
      · rw [rest, hx]
        rfl
    · have hx : offeredTo maxRetries i x s = x := if_neg hdue
      have hsame : ∀ a, (isFollowed ss a i && isOwed maxRetries a (offeredTo maxRetries i x s)) =
          (isFollowed (s :: ss) a i && isOwed maxRetries a x) := by
        intro a
        rw [isOwed_offeredTo, followed]
        by_cases ha : s.address = a
        · subst ha
          revert hdue
          cases wanted s i <;> cases isOwed maxRetries s.address x <;> simp
        · simp [ha]
      refine ⟨fun a => ?_, fun a => ?_, ?_⟩
      · rw [notified, hsame, hx]
      · rw [failed, hsame, hx]
      · rw [rest, hx]

/-! ### One issue -/

theorem find?_announce (s : IssueStore) (k k' : IssueKey) (a : String) (maxRetries : Nat) :
    (s.announce k a maxRetries).2.find? k' =
      if k = k' then (s.find? k').map fun x => if isOwed maxRetries a x then told a x else x
      else s.find? k' := by
  unfold announce
  cases hk : s.find? k with
  | none =>
    by_cases h : k = k'
    · subst h
      rw [if_pos rfl, hk]
      rfl
    · rw [if_neg h]
  | some x =>
    have howed : isOwed maxRetries a x =
        !(isExhausted x a maxRetries || x.notified.contains a) := by
      rw [Bool.not_or]
      rfl
    by_cases hdue : (isExhausted x a maxRetries || x.notified.contains a) = true
    · simp only [hdue, if_true]
      by_cases h : k = k'
      · subst h
        simp [hk, howed, hdue]
      · rw [if_neg h]
    · rw [Bool.not_eq_true] at hdue
      simp only [hdue, Bool.false_eq_true, if_false]
      refine (OrderedMap.find?_modify s.issues k k' (told a)).trans ?_
      by_cases h : k = k'
      · subst h
        rw [if_pos rfl, if_pos rfl]
        change (s.find? k).map _ = (s.find? k).map _
        rw [hk, Option.map_some, Option.map_some, howed, hdue]
        rfl
      · rw [if_neg h, if_neg h]
        rfl

theorem announce_fst (hx : s.find? k = some x) :
    (s.announce k a maxRetries).1 = isOwed maxRetries a x := by
  unfold announce isOwed
  rw [hx]
  simp only
  cases isExhausted x a maxRetries <;> cases x.notified.contains a <;> rfl

theorem find?_offered (maxRetries : Nat) (hx : acc.1.find? i.key = some x) (s : Subscriber)
    (k : IssueKey) :
    (offered maxRetries i acc s).1.find? k =
      if i.key = k then some (offeredTo maxRetries i x s) else acc.1.find? k := by
  unfold offered offeredTo
  cases hwanted : wanted s i with
  | false =>
    by_cases hk : i.key = k
    · subst hk
      simp [hx]
    · simp [hk]
  | true =>
    simp only [if_true, Bool.true_and]
    rw [find?_announce]
    by_cases hk : i.key = k
    · subst hk
      simp [hx]
    · simp [hk]

theorem find?_offered_queue (hx : acc.1.find? i.key = some x) (s : Subscriber) (a : String) :
    (offered maxRetries i acc s).2.find? a =
      if (s.address = a && wanted s i && isOwed maxRetries a x) = true then
        some (((acc.2.find? a).getD (.empty a)).add i)
      else acc.2.find? a := by
  unfold offered
  cases hwanted : wanted s i with
  | false => simp
  | true =>
    simp only [if_true, announce_fst hx]
    by_cases ha : s.address = a
    · subst ha
      cases isOwed maxRetries s.address x <;> simp [find?_enqueue]
    · split <;> simp [find?_enqueue, ha]

theorem find?_foldl_offered (ss : List Subscriber) (hx : acc.1.find? i.key = some x)
    (k : IssueKey) : (ss.foldl (offered maxRetries i) acc).1.find? k =
      if i.key = k then some (ss.foldl (offeredTo maxRetries i) x) else acc.1.find? k := by
  induction ss generalizing acc x with
  | nil =>
    by_cases hk : i.key = k
    · subst hk
      simp [hx]
    · simp [hk]
  | cons s ss ih =>
    have hx' := find?_offered maxRetries hx s i.key
    rw [if_pos rfl] at hx'
    rw [List.foldl_cons, ih hx', List.foldl_cons, find?_offered maxRetries hx]
    split <;> rfl

/-- Of several subscribers with one address the first that wants the issue gets it queued, and none
after it does. -/
theorem find?_foldl_offered_queue (ss : List Subscriber) (hx : acc.1.find? i.key = some x)
    (a : String) : (ss.foldl (offered maxRetries i) acc).2.find? a =
      if (isFollowed ss a i && isOwed maxRetries a x) = true then
        some (((acc.2.find? a).getD (.empty a)).add i)
      else acc.2.find? a := by
  induction ss generalizing acc x with
  | nil => simp [isFollowed]
  | cons s ss ih =>
    have hx' := find?_offered maxRetries hx s i.key
    rw [if_pos rfl] at hx'
    have followed : isFollowed (s :: ss) a i =
        ((s.address = a && wanted s i) || isFollowed ss a i) := List.any_cons
    rw [List.foldl_cons, ih hx', find?_offered_queue hx, isOwed_offeredTo, followed]
    cases (decide (s.address = a) && wanted s i) <;> cases isFollowed ss a i <;>
      cases isOwed maxRetries a x <;> simp

/-- The record of an issue once the issue has been offered to all subscribers. -/
def announced (cfg : NotificationConfig) (i : Issue) : Issue :=
  { cfg.subscribers.foldl (offeredTo cfg.maxRetries i) i with
    stat := cfg.subscribers.foldl (counted i) ⟨0, 0, 0⟩ }

theorem find?_offeredAll (hi : acc.1.find? i.key = some i) (k : IssueKey) :
    (offeredAll cfg acc i).1.find? k =
      if i.key = k then some (announced cfg i) else acc.1.find? k := by
  unfold offeredAll announced
  simp only
  rw [find?_saveStat, find?_foldl_offered _ hi]
  split <;> rfl

theorem find?_offeredAll_queue (cfg : NotificationConfig)
    (hi : acc.1.find? i.key = some i) (a : String) :
    (offeredAll cfg acc i).2.find? a =
      if isDue cfg a i then some (((acc.2.find? a).getD (.empty a)).add i) else acc.2.find? a :=
  find?_foldl_offered_queue cfg.subscribers hi a

/-! ### All issues -/

/-- The notification that lists the given issues. -/
def compose (a : String) (is : List Issue) : Notification := is.foldl add (.empty a)

/-- The notification for an address, if there is anything to tell. -/
def notice? (a : String) (is : List Issue) : Option Notification :=
  if is.isEmpty then none else some (compose a is)

theorem compose_concat (a : String) (is : List Issue) (i : Issue) :
    compose a (is ++ [i]) = (compose a is).add i := by
  unfold compose
  rw [List.foldl_append]
  rfl

@[simp] theorem address_compose (a : String) (is : List Issue) : (compose a is).address = a := by
  induction is using List.reverseRecOn with
  | nil => rfl
  | append_singleton is i ih =>
    rw [compose_concat]
    exact ih

theorem issues_compose_perm (a : String) (is : List Issue) : (compose a is).issues.Perm is := by
  induction is using List.reverseRecOn with
  | nil => exact .refl _
  | append_singleton is i ih =>
    rw [compose_concat]
    exact (issues_add_perm _ i).trans ((ih.cons i).trans (List.perm_append_singleton i is).symm)

theorem getD_notice? (a : String) (is : List Issue) :
    (notice? a is).getD (.empty a) = compose a is := by
  cases is <;> rfl

theorem notice?_concat (a : String) (is : List Issue) (i : Issue) :
    notice? a (is ++ [i]) = some ((compose a is).add i) := by
  rw [← compose_concat]
  unfold notice?
  simp

/-- The issues are stored as they are listed, and no two of them under one key. -/
structure Listing (is : List Issue) (s : IssueStore) : Prop where
  stored : ∀ i ∈ is, s.find? i.key = some i
  nodup : (is.map (·.key)).Nodup

theorem Listing.tail (h : Listing (i :: is) acc.1) : Listing is (offeredAll cfg acc i).1 := by
  obtain ⟨hnot, hnodup⟩ := List.nodup_cons.1 h.nodup
  refine ⟨fun j hj => ?_, hnodup⟩
  have hne : i.key ≠ j.key := fun he => hnot (List.mem_map.2 ⟨j, hj, he.symm⟩)
  rw [find?_offeredAll (h.stored i List.mem_cons_self), if_neg hne]
  exact h.stored j (List.mem_cons_of_mem _ hj)

theorem find?_foldl_offeredAll (cfg : NotificationConfig) {acc : IssueStore × Queue}
    (h : Listing is acc.1) (k : IssueKey) :
    (is.foldl (offeredAll cfg) acc).1.find? k =
      match is.find? (·.key = k) with
      | some i => some (announced cfg i)
      | none => acc.1.find? k := by
  induction is generalizing acc with
  | nil => rfl
  | cons i is ih =>
    have hi := h.stored i List.mem_cons_self
    rw [List.foldl_cons, ih h.tail, List.find?_cons]
    by_cases hk : i.key = k
    · -- no other issue has the key
      have hnone : is.find? (·.key = k) = none := by
        refine List.find?_eq_none.2 fun j hj => ?_
        have hnot := (List.nodup_cons.1 h.nodup).1
        simp only [decide_eq_true_eq]
        exact fun he => hnot (List.mem_map.2 ⟨j, hj, he.trans hk.symm⟩)
      rw [hnone]
      simp [find?_offeredAll hi, hk]
    · simp only [hk, decide_false]
      cases is.find? (·.key = k) with
      | some j => rfl
      | none =>
        change (offeredAll cfg acc i).1.find? k = acc.1.find? k
        rw [find?_offeredAll hi, if_neg hk]

theorem find?_foldl_offeredAll_queue (cfg : NotificationConfig) {l : List Issue}
    (h : Listing is acc.1) (a : String) (hq : acc.2.find? a = notice? a l) :
    (is.foldl (offeredAll cfg) acc).2.find? a = notice? a (l ++ is.filter (isDue cfg a)) := by
  induction is generalizing acc l with
  | nil => simp [hq]
  | cons i is ih =>
    have hnext := find?_offeredAll_queue cfg (h.stored i List.mem_cons_self) a
    rw [hq, getD_notice?] at hnext
    rw [List.foldl_cons]
    cases hdue : isDue cfg a i with
    | true =>
      rw [hdue, if_pos rfl, ← notice?_concat] at hnext
      rw [ih h.tail hnext, List.filter_cons_of_pos hdue, List.append_assoc]
      rfl
    | false =>
      rw [hdue, if_neg Bool.false_ne_true] at hnext
      rw [ih h.tail hnext, List.filter_cons_of_neg (by simp [hdue])]

/-! ### A pass -/

/-- The issues that a pass sends to an address. -/
def dueIssues (cfg : NotificationConfig) (t : Except Timestamp.Overflow Timestamp) (s : IssueStore)
    (a : String) : List Issue :=
  s.all.filter fun i => inWindow t i && isDue cfg a i

theorem mem_dueIssues : i ∈ dueIssues cfg t s a ↔ i ∈ s.all ∧ Due cfg t a i := by
  simp [dueIssues, due_iff]

theorem listing_filter_all (hs : s.Keyed) (p : Issue → Bool) : Listing (s.all.filter p) s where
  stored _ hi := hs.find?_of_mem_all (List.mem_of_mem_filter hi)
  nodup := hs.nodup_keys_all.sublist (List.filter_sublist.map _)

theorem nodup_dueIssues (hs : s.Keyed) : (dueIssues cfg t s a).Nodup :=
  (listing_filter_all hs _).nodup.of_map _

/-- The record of an issue when a pass begins to deliver. -/
def readied (cfg : NotificationConfig) (t : Except Timestamp.Overflow Timestamp) (i : Issue) : Issue :=
  if inWindow t i then announced cfg i else i

theorem find?_records (cfg : NotificationConfig) (t : Except Timestamp.Overflow Timestamp)
    (hs : s.Keyed) (k : IssueKey) :
    (preparedSince cfg s t).1.find? k = (s.find? k).map (readied cfg t) := by
  cases t with
  | error e =>
    have hsame : readied cfg (.error e) = id := rfl
    rw [hsame, Option.map_id]
    rfl
  | ok cutoff =>
    have hlist : Listing (s.all.filter fun i => cutoff ≤ i.detectedAt)
        ((s, .empty) : IssueStore × Queue).1 := listing_filter_all hs _
    refine (find?_foldl_offeredAll cfg hlist k).trans ?_
    cases hk : s.find? k with
    | none =>
      have hnone : (s.all.filter fun i => cutoff ≤ i.detectedAt).find? (·.key = k) = none := by
        refine List.find?_eq_none.2 fun i hi => ?_
        have hstored := hs.find?_of_mem_all (List.mem_of_mem_filter hi)
        simp only [decide_eq_true_eq]
        rintro rfl
        rw [hk] at hstored
        cases hstored
      rw [hnone]
      rfl
    | some i =>
      have hkey := hs k i hk
      have hall : i ∈ s.all := mem_all_iff.2 ⟨k, hk⟩
      -- the first issue with the key is the one that is stored there
      have hunique : ∀ j ∈ s.all, j.key = k → j = i := by
        rintro j hj rfl
        exact Option.some.inj ((hs.find?_of_mem_all hj).symm.trans hk)
      cases hf : (s.all.filter fun i => cutoff ≤ i.detectedAt).find? (·.key = k) with
      | none =>
        have hout : ¬ cutoff ≤ i.detectedAt := by
          intro hin
          have := List.find?_eq_none.1 hf i (List.mem_filter.2 ⟨hall, decide_eq_true hin⟩)
          exact this (decide_eq_true hkey)
        simp [readied, inWindow, hout]
      | some j =>
        obtain ⟨hj, hin⟩ := List.mem_filter.1 (List.mem_of_find?_eq_some hf)
        have hjk : j.key = k := by simpa using List.find?_some hf
        cases hunique j hj hjk
        have hin' : inWindow (.ok cutoff) i = true := hin
        simp [readied, hin']

theorem find?_ready (cfg : NotificationConfig) (t : Except Timestamp.Overflow Timestamp)
    (hs : o.stores.issues.Keyed) (k : IssueKey) :
    (ready cfg t o).stores.issues.find? k = (o.stores.issues.find? k).map (readied cfg t) :=
  find?_records cfg t hs k

/-- The queue of a pass when it begins to deliver. -/
theorem find?_queue (hs : s.Keyed) (a : String) :
    (preparedSince cfg s t).2.find? a = notice? a (dueIssues cfg t s a) := by
  cases t with
  | error e =>
    have hnone : dueIssues cfg (.error e) s a = [] := by simp [dueIssues, inWindow]
    rw [hnone]
    rfl
  | ok cutoff =>
    have hlist : Listing (s.all.filter fun i => cutoff ≤ i.detectedAt)
        ((s, .empty) : IssueStore × Queue).1 := listing_filter_all hs _
    have hstart : ((s, .empty) : IssueStore × Queue).2.find? a = notice? a [] := rfl
    refine (find?_foldl_offeredAll_queue cfg hlist a hstart).trans ?_
    rw [List.nil_append, List.filter_filter]
    unfold dueIssues
    congr 2
    funext i
    exact Bool.and_comm _ _

/-- What goes out is one notification for each address that something is due to, with all of it. -/
theorem mem_outgoing (hs : o.stores.issues.Keyed) {n : Notification} :
    n ∈ outgoing cfg t o ↔ ∃ a, dueIssues cfg t o.stores.issues a ≠ [] ∧
      n = compose a (dueIssues cfg t o.stores.issues a) := by
  unfold outgoing
  rw [OrderedMap.mem_values_iff]
  refine exists_congr fun a => ?_
  rw [find?_queue hs, notice?]
  cases dueIssues cfg t o.stores.issues a <;> simp [eq_comm]

theorem addresses_outgoing (cfg : NotificationConfig) (t : Except Timestamp.Overflow Timestamp)
    (o : Outbox) : ((outgoing cfg t o).map (·.address)).Pairwise (· < ·) := by
  unfold outgoing
  rw [map_address_values (addressed_preparedSince cfg o.stores.issues t)]
  exact List.pairwise_map.2 (preparedSince cfg o.stores.issues t).2.sorted

end Notification

end Triage
