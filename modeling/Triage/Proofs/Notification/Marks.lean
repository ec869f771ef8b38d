import Triage.Proofs.Notification.Queue

/-!
# The marks of an issue record

An issue record keeps what decides whether a further message about the issue may go to an address:
whether the address has been told, whether it could not be reached, and how many deliveries have
failed.  `Resting` ties these marks to the outcomes of the messages so far, and `Queued` while a
message is due.  Requests about other issues and addresses leave both as they are, but for the counter
of failures (`Undisturbed`).

The counter is a word that wraps round, so failures enough bring back retries that were used up.
`leeway` counts how often it stands below its limit, and `allowance` bounds this.
-/

namespace Triage

/-! ### Requests to the issue store -/

namespace IssueStore

variable {s : IssueStore} {k k' : IssueKey} {a : String} {maxRetries : Nat}

theorem announce_of_not_due (h : (s.announce k a maxRetries).1 = false) :
    (s.announce k a maxRetries).2 = s := by
  unfold announce at h ⊢
  cases hk : s.find? k with
  | none => rfl
  | some i =>
    rw [hk] at h
    simp only at h ⊢
    split
    · rfl
    · rename_i hdue
      rw [if_neg hdue] at h
      cases h

/-- A message is due only if the address is not marked and there are retries left, or no message has
failed; then the address is marked. -/
theorem announce_of_due (h : (s.announce k a maxRetries).1 = true) :
    ∃ i, s.find? k = some i ∧ isExhausted i a maxRetries = false ∧ a ∉ i.notified ∧
      ∀ k', (s.announce k a maxRetries).2.find? k' =
        if k = k' then
          some { i with notified := i.notified.insert a, failed := i.failed.erase a }
        else s.find? k' := by
  unfold announce at h ⊢
  cases hk : s.find? k with
  | none =>
    rw [hk] at h
    cases h
  | some i =>
    rw [hk] at h
    simp only at h ⊢
    split at h
    · cases h
    · rename_i hdue
      simp only [Bool.or_eq_true, not_or, Bool.not_eq_true] at hdue
      refine ⟨i, rfl, hdue.1, fun ha => ?_, fun k' => ?_⟩
      · have : i.notified.contains a = true := decide_eq_true ha
        rw [hdue.2] at this
        cases this
      · simp only [hdue, Bool.or_self, Bool.false_eq_true, if_false]
        refine (OrderedMap.find?_modify s.issues k k' _).trans ?_
        split
        · rename_i hkk
          subst hkk
          change (s.find? k).map _ = _
          rw [hk]
          rfl
        · rfl

/-- A failure is on record from then on. -/
theorem contains_failed_noteFailure (a reason : String) (maxRetries : Nat) (i : Issue) :
    (noteFailure a reason maxRetries i).failed.contains a = true := by
  unfold noteFailure
  rw [OrderedMap.contains_eq_isSome, OrderedMap.find?_insert_self]
  rfl

/-- A failure takes the mark of its address away if the counter is below its limit, and no other one. -/
theorem mem_notified_noteFailure {a' reason : String} {i : Issue} :
    a' ∈ (noteFailure a reason maxRetries i).notified ↔
      a' ∈ i.notified ∧ (a' = a → maxRetries ≤ i.retries.toNat) := by
  unfold noteFailure
  simp only
  split
  · rename_i hlt
    rw [OrderedSet.mem_erase]
    refine and_congr_right fun _ => ⟨fun hne ha => absurd ha hne, fun h ha => ?_⟩
    exact absurd (h ha) (Nat.not_le_of_lt hlt)
  · rename_i hle
    exact (and_iff_left fun _ => Nat.le_of_not_lt hle).symm

theorem find?_failed_noteFailure {a' reason : String} {i : Issue} :
    (noteFailure a reason maxRetries i).failed.find? a' =
      if a = a' then some reason else i.failed.find? a' :=
  OrderedMap.find?_insert i.failed a a' reason

theorem find?_recordFailure (s : IssueStore) (k k' : IssueKey) (a reason : String)
    (maxRetries : Nat) : (s.recordFailure k a reason maxRetries).2.find? k' =
      if k = k' then (s.find? k').map (noteFailure a reason maxRetries) else s.find? k' := by
  unfold recordFailure
  cases hk : s.find? k with
  | none =>
    by_cases hkk : k = k'
    · subst hkk
      rw [if_pos rfl, hk]
      rfl
    · rw [if_neg hkk]
  | some i => exact OrderedMap.find?_modify s.issues k k' _

theorem find?_saveStat (s : IssueStore) (k k' : IssueKey) (stat : SubscriberStat) :
    (s.saveStat k stat).find? k' =
      if k = k' then (s.find? k').map fun i => { i with stat } else s.find? k' :=
  OrderedMap.find?_modify s.issues k k' _

end IssueStore

namespace Notification

open IssueStore

/-! ### Retries left -/

/-- How often the counter stands below its limit while it goes up from `r` by `f`. -/
def leeway (maxRetries : Nat) (r : UInt32) (f : Nat) : Nat :=
  Nat.count (fun j => (r + UInt32.ofNat j).toNat < maxRetries) f

/-- How many messages about an issue may go to an address when `f` messages about it have failed: as
many as there are retries, or one if there are none, each time that the counter has come round. -/
def allowance (maxRetries f : Nat) : Nat := max 1 maxRetries * (f / UInt32.size + 1)

section Retries

variable {maxRetries f g : Nat} {r : UInt32}

theorem leeway_mono (h : f ≤ g) : leeway maxRetries r f ≤ leeway maxRetries r g :=
  Nat.count_monotone _ h

theorem leeway_succ (h : (r + UInt32.ofNat f).toNat < maxRetries) :
    leeway maxRetries r (f + 1) = leeway maxRetries r f + 1 := by
  unfold leeway
  rw [Nat.count_succ, if_pos h]

theorem leeway_add (maxRetries : Nat) (r : UInt32) (f g : Nat) : leeway maxRetries r (f + g) =
    leeway maxRetries r f + leeway maxRetries (r + UInt32.ofNat f) g := by
  unfold leeway
  rw [Nat.count_add]
  simp only [UInt32.ofNat_add, UInt32.add_assoc]

/-- On its way round the counter comes to each value once. -/
theorem leeway_size_le (maxRetries : Nat) (r : UInt32) :
    leeway maxRetries r UInt32.size ≤ maxRetries := by
  unfold leeway
  rw [Nat.count_eq_card_filter_range]
  have hcard := Finset.card_le_card_of_injOn
    (s := (Finset.range UInt32.size).filter fun j => (r + UInt32.ofNat j).toNat < maxRetries)
    (t := Finset.range maxRetries) (fun j => (r + UInt32.ofNat j).toNat)
    (fun j hj => Finset.mem_range.2 (Finset.mem_filter.1 hj).2) ?_
  · rwa [Finset.card_range] at hcard
  · intro j hj j' hj' heq
    have hlt := Finset.mem_range.1 (Finset.mem_filter.1 hj).1
    have hlt' := Finset.mem_range.1 (Finset.mem_filter.1 hj').1
    have hword := (UInt32.add_right_inj r).1 (UInt32.toNat_inj.1 heq)
    have hnat := congrArg UInt32.toNat hword
    rwa [UInt32.toNat_ofNat_of_lt' hlt, UInt32.toNat_ofNat_of_lt' hlt'] at hnat

theorem leeway_rounds_le (maxRetries : Nat) (r : UInt32) (n : Nat) :
    leeway maxRetries r (UInt32.size * n) ≤ maxRetries * n := by
  induction n with
  | zero => exact Nat.le_of_eq (Nat.count_zero _)
  | succ n ih =>
    rw [Nat.mul_succ, Nat.mul_succ, leeway_add]
    exact Nat.add_le_add ih (leeway_size_le maxRetries _)

theorem allowance_mono (h : f ≤ g) : allowance maxRetries f ≤ allowance maxRetries g :=
  Nat.mul_le_mul_left _ (Nat.succ_le_succ (Nat.div_le_div_right h))

theorem one_le_allowance (maxRetries f : Nat) : 1 ≤ allowance maxRetries f :=
  Nat.mul_pos (Nat.lt_of_lt_of_le Nat.one_pos (Nat.le_max_left 1 maxRetries)) (Nat.succ_pos _)

theorem leeway_succ_le_allowance (maxRetries : Nat) (r : UInt32) (f : Nat) :
    leeway maxRetries r (f + 1) ≤ allowance maxRetries f := by
  have hround : f + 1 ≤ UInt32.size * (f / UInt32.size + 1) :=
    Nat.lt_mul_div_succ f (by decide)
  calc leeway maxRetries r (f + 1)
    _ ≤ leeway maxRetries r (UInt32.size * (f / UInt32.size + 1)) := leeway_mono hround
    _ ≤ maxRetries * (f / UInt32.size + 1) := leeway_rounds_le maxRetries r _
    _ ≤ allowance maxRetries f := Nat.mul_le_mul_right _ (Nat.le_max_right 1 maxRetries)

end Retries

/-! ### What does not concern an address -/

/-- The marks of the address are the same, and the counter has gone up by `d`. -/
def Undisturbed (a : String) (d : Nat) (x y : Option Issue) : Prop :=
  ∀ i, x = some i → ∃ i', y = some i' ∧ (a ∈ i'.notified ↔ a ∈ i.notified) ∧
    i'.failed.contains a = i.failed.contains a ∧ i'.retries = i.retries + UInt32.ofNat d

variable {a a' : String} {k k' : IssueKey} {maxRetries d d' f : Nat} {x y z : Option Issue}
  {s : IssueStore} {outcomes : List Bool}

theorem Undisturbed.of_kept (h : ∀ i, x = some i → y = some i) : Undisturbed a 0 x y :=
  fun i hi => ⟨i, h i hi, .rfl, rfl, (UInt32.add_zero _).symm⟩

theorem Undisturbed.refl (x : Option Issue) : Undisturbed a 0 x x := .of_kept fun _ h => h

theorem Undisturbed.trans (h : Undisturbed a d x y) (h' : Undisturbed a d' y z) :
    Undisturbed a (d + d') x z := by
  intro i hi
  obtain ⟨i', hi', hn, hf, hr⟩ := h i hi
  obtain ⟨i'', hi'', hn', hf', hr'⟩ := h' i' hi'
  refine ⟨i'', hi'', hn'.trans hn, hf'.trans hf, ?_⟩
  rw [hr', hr, UInt32.ofNat_add, UInt32.add_assoc]

theorem undisturbed_saveStat (s : IssueStore) (k k' : IssueKey) (stat : SubscriberStat) :
    Undisturbed a 0 (s.find? k) ((s.saveStat k' stat).find? k) := by
  intro i hi
  rw [find?_saveStat, hi]
  split
  · exact ⟨_, rfl, .rfl, rfl, (UInt32.add_zero _).symm⟩
  · exact ⟨i, rfl, .rfl, rfl, (UInt32.add_zero _).symm⟩

/-- An offer of another issue or to another address. -/
theorem undisturbed_announce (h : k' = k → a' ≠ a) :
    Undisturbed a 0 (s.find? k) ((s.announce k' a' maxRetries).2.find? k) := by
  cases hdue : (s.announce k' a' maxRetries).1 with
  | false =>
    rw [announce_of_not_due hdue]
    exact .refl _
  | true =>
    obtain ⟨i, hi, -, -, hfind⟩ := announce_of_due hdue
    rw [hfind]
    split
    · rename_i hk
      have ha := h hk
      subst hk
      intro j hj
      rw [hi] at hj
      cases hj
      refine ⟨_, rfl, ?_, ?_, (UInt32.add_zero _).symm⟩
      · rw [OrderedSet.mem_insert]
        exact or_iff_right ha.symm
      · rw [OrderedMap.contains_eq_isSome, OrderedMap.contains_eq_isSome, OrderedMap.find?_erase,
          if_neg ha]
    · exact .refl _

/-- A failure that concerns another issue or another address. -/
theorem undisturbed_recordFailure (reason : String) (h : k' = k → a' ≠ a) :
    Undisturbed a (if k' = k then 1 else 0) (s.find? k)
      ((s.recordFailure k' a' reason maxRetries).2.find? k) := by
  rw [find?_recordFailure]
  split
  · rename_i hk
    have ha := h hk
    intro i hi
    rw [hi]
    refine ⟨_, rfl, ?_, ?_, rfl⟩
    · rw [mem_notified_noteFailure]
      exact and_iff_left fun heq => absurd heq.symm ha
    · rw [OrderedMap.contains_eq_isSome, OrderedMap.contains_eq_isSome, find?_failed_noteFailure,
        if_neg ha]
  · exact .refl _

/-! ### The outcomes so far -/

/-- The outcomes of the messages about an issue to an address while none is due and `f` messages about
the issue have failed: all to the address have failed as well, or the last one and only that one got
through.  If all have failed, either the address is marked for good or each of them has used up a
moment in which the counter stood below its limit. -/
def Resting (maxRetries : Nat) (a : String) (outcomes : List Bool) (f : Nat) (x : Option Issue) :
    Prop :=
  (∃ n, outcomes = List.replicate n false ∧ n ≤ allowance maxRetries f ∧
    (0 < n → ∃ i, x = some i ∧ i.failed.contains a = true ∧
      (a ∈ i.notified ∨ ∃ r, i.retries = r + UInt32.ofNat f ∧ n ≤ leeway maxRetries r f))) ∨
  ∃ n, outcomes = List.replicate n false ++ [true] ∧ n + 1 ≤ allowance maxRetries f ∧
    ∃ i, x = some i ∧ a ∈ i.notified

/-- The outcomes of the messages about an issue to an address while another one is due. -/
def Queued (maxRetries : Nat) (a : String) (outcomes : List Bool) (f : Nat) (x : Option Issue) :
    Prop :=
  ∃ n, outcomes = List.replicate n false ∧ n + 1 ≤ allowance maxRetries f ∧
    ∃ i, x = some i ∧ a ∈ i.notified ∧
      (n = 0 ∨ ∃ r, i.retries = r + UInt32.ofNat f ∧ n + 1 ≤ leeway maxRetries r (f + 1))

theorem resting_nil (maxRetries : Nat) (a : String) (f : Nat) (x : Option Issue) :
    Resting maxRetries a [] f x :=
  .inl ⟨0, rfl, Nat.zero_le _, fun h => absurd h (Nat.lt_irrefl 0)⟩

theorem Resting.undisturbed (h : Resting maxRetries a outcomes f x) (hxy : Undisturbed a d x y) :
    Resting maxRetries a outcomes (f + d) y := by
  have hallowance : allowance maxRetries f ≤ allowance maxRetries (f + d) :=
    allowance_mono (Nat.le_add_right f d)
  rcases h with ⟨n, ho, hn, hfail⟩ | ⟨n, ho, hn, i, hi, ha⟩
  · refine .inl ⟨n, ho, hn.trans hallowance, fun hpos => ?_⟩
    obtain ⟨i, hi, hf, hleft⟩ := hfail hpos
    obtain ⟨i', hi', hmark, hf', hr'⟩ := hxy i hi
    refine ⟨i', hi', hf'.trans hf, hleft.imp hmark.2 ?_⟩
    rintro ⟨r, hr, hle⟩
    refine ⟨r, ?_, hle.trans (leeway_mono (Nat.le_add_right f d))⟩
    rw [hr', hr, UInt32.ofNat_add, UInt32.add_assoc]
  · obtain ⟨i', hi', hmark, -, -⟩ := hxy i hi
    exact .inr ⟨n, ho, hn.trans hallowance, i', hi', hmark.2 ha⟩

theorem Queued.undisturbed (h : Queued maxRetries a outcomes f x) (hxy : Undisturbed a d x y) :
    Queued maxRetries a outcomes (f + d) y := by
  obtain ⟨n, ho, hn, i, hi, ha, hleft⟩ := h
  obtain ⟨i', hi', hmark, -, hr'⟩ := hxy i hi
  refine ⟨n, ho, hn.trans (allowance_mono (Nat.le_add_right f d)), i', hi', hmark.2 ha,
    hleft.imp_right ?_⟩
  rintro ⟨r, hr, hle⟩
  refine ⟨r, ?_, hle.trans (leeway_mono (by omega))⟩
  rw [hr', hr, UInt32.ofNat_add, UInt32.add_assoc]

/-- A message is due only while all have failed and there are retries left. -/
theorem Resting.announce (h : Resting maxRetries a outcomes f (s.find? k))
    (hdue : (s.announce k a maxRetries).1 = true) :
    Queued maxRetries a outcomes f ((s.announce k a maxRetries).2.find? k) := by
  obtain ⟨i, hi, hexhausted, hmark, hfind⟩ := announce_of_due hdue
  rw [hfind, if_pos rfl]
  have hmarked : a ∈ i.notified.insert a := OrderedSet.mem_insert.2 (.inl rfl)
  rcases h with ⟨n, ho, -, hfail⟩ | ⟨n, -, -, j, hj, ha⟩
  · cases n with
    | zero => exact ⟨0, ho, one_le_allowance maxRetries f, _, rfl, hmarked, .inl rfl⟩
    | succ n =>
      obtain ⟨j, hj, hf, hleft⟩ := hfail (Nat.succ_pos n)
      rw [hi] at hj
      cases hj
      obtain ⟨r, hr, hle⟩ := hleft.resolve_left hmark
      have hopen : (r + UInt32.ofNat f).toNat < maxRetries := by
        unfold isExhausted at hexhausted
        rw [hf, Bool.and_true, decide_eq_false_iff_not] at hexhausted
        rw [← hr]
        exact Nat.lt_of_not_le hexhausted
      have hnext : n + 1 + 1 ≤ leeway maxRetries r (f + 1) := by
        rw [leeway_succ hopen]
        exact Nat.succ_le_succ hle
      exact ⟨n + 1, ho, hnext.trans (leeway_succ_le_allowance maxRetries r f), _, rfl, hmarked,
        .inr ⟨r, hr, hnext⟩⟩
  · rw [hi] at hj
    cases hj
    exact absurd ha hmark

theorem Queued.announce (h : Queued maxRetries a outcomes f (s.find? k)) :
    (s.announce k a maxRetries).1 = false := by
  cases hdue : (s.announce k a maxRetries).1 with
  | false => rfl
  | true =>
    obtain ⟨i, hi, -, hmark, -⟩ := announce_of_due hdue
    obtain ⟨n, -, -, j, hj, ha, -⟩ := h
    rw [hi] at hj
    cases hj
    exact absurd ha hmark

/-- When the message has failed, either there were retries left or the address keeps its mark. -/
theorem Queued.fail {reason : String} (h : Queued maxRetries a outcomes f x) :
    Resting maxRetries a (outcomes ++ [false]) (f + 1)
      (x.map (noteFailure a reason maxRetries)) := by
  obtain ⟨n, ho, hn, i, hi, ha, hleft⟩ := h
  refine .inl ⟨n + 1, ?_, hn.trans (allowance_mono (Nat.le_succ f)), fun _ =>
    ⟨noteFailure a reason maxRetries i, by rw [hi]; rfl,
      contains_failed_noteFailure a reason maxRetries i, ?_⟩⟩
  · rw [ho, List.replicate_succ']
  · have hcounted {r : UInt32} (hr : i.retries = r + UInt32.ofNat f) :
        (noteFailure a reason maxRetries i).retries = r + UInt32.ofNat (f + 1) := by
      change i.retries + 1 = _
      rw [hr, UInt32.ofNat_add, ← UInt32.add_assoc]
      rfl
    rcases hleft with rfl | ⟨r, hr, hle⟩
    · by_cases hopen : i.retries.toNat < maxRetries
      · have hr : i.retries = i.retries - UInt32.ofNat f + UInt32.ofNat f :=
          (UInt32.sub_add_cancel _ _).symm
        refine .inr ⟨_, hcounted hr, ?_⟩
        rw [leeway_succ (by rwa [← hr])]
        exact Nat.succ_le_succ (Nat.zero_le _)
      · exact .inl (mem_notified_noteFailure.2 ⟨ha, fun _ => Nat.le_of_not_lt hopen⟩)
    · exact .inr ⟨r, hcounted hr, hle⟩

end Notification

end Triage
