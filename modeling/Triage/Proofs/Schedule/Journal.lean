import Mathlib.Data.List.Nodup
import Triage.Proofs.Schedule.Registry
import Triage.Schedule.Journal

/-!
# What a journal says

A journal is a list of events, first things first.  `Leads h r` ties it to the registry that it
comes to when the operations of the registry are applied event by event.  From it `Agrees` reads
every field of every task off the journal, so that what a visit takes depends on the events before
it alone.
-/

namespace Triage

variable {κ : Type}

namespace Event

/-- The visit that an event belongs to. -/
def visit? : Event κ → Option Visit
  | requested _ _ _ => none
  | visited v _ _ => some v
  | ended v _ => some v

/-- The task that an event befalls. -/
def name : Event κ → String
  | requested name _ _ => name
  | visited v _ _ => v.name
  | ended v _ => v.name

/-- Nothing that was pending under the name is pending after the event. -/
def Supersedes (name : String) : Event κ → Prop
  | requested n _ _ => n = name
  | visited v _ taken => v.name = name ∧ taken.isSome = true
  | ended _ _ => False

/-- A run of the named task is over. -/
def Ends (name : String) : Event κ → Prop
  | ended v _ => v.name = name
  | _ => False

end Event

namespace Journal

/-- The event is at position `i`, and none after it has the property. -/
def IsLatest (h : List (Event κ)) (p : Event κ → Prop) (i : Nat) (e : Event κ) : Prop :=
  h[i]? = some e ∧ ∀ m x, i < m → h[m]? = some x → ¬ p x

/-- The request at position `i` has been neither replaced nor taken. -/
def Standing (h : List (Event κ)) (i : Nat) (name : String) (command : κ) : Prop :=
  ∃ quietMs, IsLatest h (Event.Supersedes name) i (.requested name command quietMs)

/-- The visit took a command whose run is not over. -/
def Open (h : List (Event κ)) (v : Visit) : Prop :=
  (∃ time command, .visited v time (some command) ∈ h) ∧ ∀ time, .ended v time ∉ h

/-- A run of the named task is in progress. -/
def InProgress (h : List (Event κ)) (name : String) : Prop := ∃ v, v.name = name ∧ Open h v

/-- The last run of the named task that is over ended at the given time. -/
def LastEnd (h : List (Event κ)) (name : String) (time : Nat) : Prop :=
  ∃ i v, v.name = name ∧ IsLatest h (Event.Ends name) i (.ended v time)

/-- Some quiet period that was ever requested under the name has gone by since the last run.  A run
that ends when the clock has come to its last value counts as none. -/
def Quiet (h : List (Event κ)) (name : String) (now : Nat) : Prop :=
  ∀ time, LastEnd h name time → time = Task.clockEnd ∨
    ∃ command quietMs, .requested name command quietMs ∈ h ∧ quietMs ≤ now - time

/-- A sweep that comes now executes what is pending under the name. -/
def Due (h : List (Event κ)) (name : String) (now : Nat) : Prop :=
  ¬ InProgress h name ∧ Quiet h name now

/-- No event belongs to the visit. -/
def Fresh (h : List (Event κ)) (v : Visit) : Prop := ∀ e ∈ h, e.visit? ≠ some v

/-- What the next event does to the registry.  A visit is a new one, and what ends is a run that is
in progress. -/
inductive Step (h : List (Event κ)) (r : Registry κ) : Event κ → Registry κ → Prop
  | requested (name : String) (command : κ) (quietMs : Nat) :
      Step h r (.requested name command quietMs) (r.request name command quietMs)
  | missed {v : Visit} {time : Nat} (fresh : Fresh h v) (claim : r.claim? v.name time = none) :
      Step h r (.visited v time none) r
  | taken {v : Visit} {time : Nat} {command : κ} {r' : Registry κ} (fresh : Fresh h v)
      (claim : r.claim? v.name time = some (command, r')) :
      Step h r (.visited v time (some command)) r'
  | ended {v : Visit} (inside : Open h v) (time : Nat) :
      Step h r (.ended v time) (r.finish v.name time)

/-- The events, one after the other, lead from no tasks to the registry. -/
inductive Leads : List (Event κ) → Registry κ → Prop
  | nil : Leads [] .empty
  | step {h : List (Event κ)} {r r' : Registry κ} {e : Event κ} :
      Leads h r → Step h r e r' → Leads (h ++ [e]) r'

/-! ### One more event -/

section

variable {h : List (Event κ)} {p : Event κ → Prop} {e x : Event κ} {i : Nat} {v w : Visit}
  {name : String} {command : κ} {time : Nat}

theorem getElem?_concat :
    (h ++ [e])[i]? = some x ↔ h[i]? = some x ∨ (i = h.length ∧ e = x) := by
  rcases Nat.lt_trichotomy i h.length with hi | rfl | hi
  · simp [List.getElem?_append_left hi, Nat.ne_of_lt hi]
  · simp
  · have h₁ : (h ++ [e])[i]? = none := List.getElem?_eq_none (by simp; omega)
    have h₂ : h[i]? = none := List.getElem?_eq_none (by omega)
    have h₃ : i ≠ h.length := by omega
    simp [h₁, h₂, h₃]

theorem lt_length (hx : h[i]? = some x) : i < h.length :=
  (List.getElem?_eq_some_iff.mp hx).1

theorem isLatest_concat :
    IsLatest (h ++ [e]) p i x ↔ (IsLatest h p i x ∧ ¬ p e) ∨ (i = h.length ∧ e = x) := by
  constructor
  · rintro ⟨hi, last⟩
    rcases getElem?_concat.mp hi with hi | new
    · have hlt : i < h.length := lt_length hi
      refine .inl ⟨⟨hi, fun m y hm hy => ?_⟩, ?_⟩
      · exact last m y hm (getElem?_concat.mpr (.inl hy))
      · exact last h.length e hlt (getElem?_concat.mpr (.inr ⟨rfl, rfl⟩))
    · exact .inr new
  · rintro (⟨⟨hi, last⟩, he⟩ | ⟨rfl, rfl⟩)
    · refine ⟨getElem?_concat.mpr (.inl hi), fun m y hm hy => ?_⟩
      rcases getElem?_concat.mp hy with hy | ⟨-, rfl⟩
      · exact last m y hm hy
      · exact he
    · refine ⟨getElem?_concat.mpr (.inr ⟨rfl, rfl⟩), fun m y hm hy => ?_⟩
      have hlt : m < (h ++ [e]).length := lt_length hy
      simp only [List.length_append, List.length_singleton] at hlt
      omega

theorem IsLatest.unique {i' : Nat} {x' : Event κ} (hx : IsLatest h p i x) (hx' : IsLatest h p i' x')
    (hp : p x) (hp' : p x') : i = i' ∧ x = x' := by
  obtain ⟨hi, last⟩ := hx
  obtain ⟨hi', last'⟩ := hx'
  rcases Nat.lt_trichotomy i i' with hlt | rfl | hlt
  · exact absurd hp' (last i' x' hlt hi')
  · rw [hi, Option.some.injEq] at hi'
    exact ⟨rfl, hi'⟩
  · exact absurd hp (last' i x hlt hi)

theorem standing_concat :
    Standing (h ++ [e]) i name command ↔
      (Standing h i name command ∧ ¬ e.Supersedes name) ∨
        (i = h.length ∧ ∃ quietMs, e = .requested name command quietMs) := by
  simp only [Standing, isLatest_concat, exists_or, exists_and_right, exists_and_left]

theorem lastEnd_concat :
    LastEnd (h ++ [e]) name time ↔
      (LastEnd h name time ∧ ¬ e.Ends name) ∨ ∃ w : Visit, w.name = name ∧ e = .ended w time := by
  simp only [LastEnd, isLatest_concat]
  constructor
  · rintro ⟨i, v, hv, ⟨latest, he⟩ | ⟨-, he⟩⟩
    · exact .inl ⟨⟨i, v, hv, latest⟩, he⟩
    · exact .inr ⟨v, hv, he⟩
  · rintro (⟨⟨i, v, hv, latest⟩, he⟩ | ⟨v, hv, he⟩)
    · exact ⟨i, v, hv, .inl ⟨latest, he⟩⟩
    · exact ⟨h.length, v, hv, .inr ⟨rfl, he⟩⟩

theorem lastEnd_concat_of_not_ends (he : ¬ e.Ends name) :
    LastEnd (h ++ [e]) name time ↔ LastEnd h name time := by
  have other : ∀ w : Visit, w.name = name → e ≠ .ended w time := by
    rintro w hw rfl
    exact he hw
  rw [lastEnd_concat]
  constructor
  · rintro (⟨hl, -⟩ | ⟨w, hw, rfl⟩)
    · exact hl
    · exact absurd rfl (other w hw)
  · exact fun hl => .inl ⟨hl, he⟩

theorem lastEnd_ended {t : Nat} : LastEnd (h ++ [.ended w t]) w.name time ↔ time = t := by
  rw [lastEnd_concat]
  constructor
  · rintro (⟨-, he⟩ | ⟨w', -, he⟩)
    · exact absurd rfl he
    · cases he
      rfl
  · rintro rfl
    exact .inr ⟨w, rfl, rfl⟩

theorem LastEnd.unique {t t' : Nat} (ht : LastEnd h name t) (ht' : LastEnd h name t') :
    t = t' := by
  obtain ⟨i, v, hv, latest⟩ := ht
  obtain ⟨i', v', hv', latest'⟩ := ht'
  have same := (latest.unique latest' hv hv').2
  simp only [Event.ended.injEq] at same
  exact same.2

/-- Only events of a visit open it or close it. -/
theorem open_concat_of_ne (he : e.visit? ≠ some v) : Open (h ++ [e]) v ↔ Open h v := by
  have h₁ : ∀ time command, Event.visited v time (some command) ≠ e := by
    rintro time command rfl
    exact he rfl
  have h₂ : ∀ time, Event.ended v time ≠ e := by
    rintro time rfl
    exact he rfl
  simp [Open, h₁, h₂]

theorem open_requested {quietMs : Nat} :
    Open (h ++ [.requested name command quietMs]) v ↔ Open h v :=
  open_concat_of_ne (by simp [Event.visit?])

theorem open_missed : Open (h ++ [.visited w time none]) v ↔ Open h v := by
  simp [Open]

theorem open_taken (fresh : Fresh h w) :
    Open (h ++ [.visited w time (some command)]) v ↔ Open h v ∨ v = w := by
  by_cases hv : v = w
  · subst hv
    have notEnded : ∀ t, Event.ended v t ∉ h := fun t ht => fresh _ ht rfl
    simp only [or_true, iff_true]
    exact ⟨⟨time, command, by simp⟩, by simpa using notEnded⟩
  · have hw : (Event.visited w time (some command)).visit? ≠ some v :=
      fun hw => hv (Option.some.inj hw).symm
    simp [open_concat_of_ne hw, hv]

theorem open_ended : Open (h ++ [.ended w time]) v ↔ Open h v ∧ v ≠ w := by
  by_cases hv : v = w
  · subst hv
    simp only [ne_eq, not_true_eq_false, and_false, iff_false]
    rintro ⟨-, notEnded⟩
    exact notEnded time (by simp)
  · have hw : (Event.ended w time : Event κ).visit? ≠ some v :=
      fun hw => hv (Option.some.inj hw).symm
    simp [open_concat_of_ne hw, hv]

theorem Open.not_fresh (ho : Open h v) : ¬ Fresh h v := by
  obtain ⟨⟨time, command, hm⟩, -⟩ := ho
  exact fun fresh => fresh _ hm rfl

theorem inProgress_concat_of_ne (he : e.name ≠ name) :
    InProgress (h ++ [e]) name ↔ InProgress h name := by
  have other : ∀ v : Visit, v.name = name → e.visit? ≠ some v := by
    intro v hv hev
    apply he
    cases e with
    | requested n c q => simp [Event.visit?] at hev
    | visited w t taken =>
      simp only [Event.visit?, Option.some.injEq] at hev
      rw [Event.name, hev, hv]
    | ended w t =>
      simp only [Event.visit?, Option.some.injEq] at hev
      rw [Event.name, hev, hv]
  constructor
  · rintro ⟨v, hv, ho⟩
    exact ⟨v, hv, (open_concat_of_ne (other v hv)).mp ho⟩
  · rintro ⟨v, hv, ho⟩
    exact ⟨v, hv, (open_concat_of_ne (other v hv)).mpr ho⟩

end

/-! ### One task of the registry that a journal leads to -/

/-- Every field of the task is what the journal says of its name. -/
structure Describes (h : List (Event κ)) (name : String) (t : Task κ) : Prop where
  running : t.status = .running ↔ InProgress h name
  pending : ∀ command, t.pending = some command ↔ ∃ i, Standing h i name command
  hasPending : t.hasPending = t.pending.isSome
  quietMs : ∀ ms, t.quietMs ≤ ms ↔
    ∃ command quietMs, .requested name command quietMs ∈ h ∧ quietMs ≤ ms
  lastFinish : ∀ time, t.lastFinish = some time ↔ LastEnd h name time ∧ time ≠ Task.clockEnd

/-- Nothing has been requested under the name. -/
structure Untouched (h : List (Event κ)) (name : String) : Prop where
  idle : ¬ InProgress h name
  nothing : ∀ i command, ¬ Standing h i name command
  unrequested : ∀ command quietMs, .requested name command quietMs ∉ h
  unended : ∀ time, ¬ LastEnd h name time

section

variable {h : List (Event κ)} {e : Event κ} {t : Task κ} {v : Visit} {name : String} {command : κ}
  {quietMs time : Nat}

/-- What does not befall a task says nothing of it. -/
theorem says_nothing (he : e.name ≠ name) :
    ¬ e.Supersedes name ∧ ¬ e.Ends name ∧ ∀ command quietMs, e ≠ .requested name command quietMs := by
  cases e with
  | requested n c q =>
    refine ⟨he, id, fun c q hq => he ?_⟩
    simp only [Event.requested.injEq] at hq
    exact hq.1
  | visited v t taken => exact ⟨fun hs => he hs.1, id, by simp⟩
  | ended v t => exact ⟨id, he, by simp⟩

namespace Describes

theorem other (hd : Describes h name t) (he : e.name ≠ name) : Describes (h ++ [e]) name t := by
  obtain ⟨notSupersedes, notEnds, notRequest⟩ := says_nothing he
  have notMem : ∀ command quietMs, Event.requested name command quietMs ≠ e :=
    fun c q hq => notRequest c q hq.symm
  constructor
  case running => rw [inProgress_concat_of_ne he, hd.running]
  case pending => simp [standing_concat, notSupersedes, notRequest, hd.pending]
  case hasPending => exact hd.hasPending
  case quietMs => simp [hd.quietMs, notMem]
  case lastFinish => simp [lastEnd_concat_of_not_ends notEnds, hd.lastFinish]

/-- A request replaces what is pending, and can only shorten the quiet period. -/
theorem requested (hd : Describes h name t) :
    Describes (h ++ [.requested name command quietMs]) name (t.request command quietMs) := by
  constructor
  case running =>
    simp only [Task.status_request, hd.running, InProgress, open_requested]
  case pending =>
    intro c
    simp [standing_concat, Event.Supersedes, Task.request]
  case hasPending => rfl
  case quietMs =>
    intro ms
    have shorter : min t.quietMs quietMs ≤ ms ↔ t.quietMs ≤ ms ∨ quietMs ≤ ms := by omega
    simp only [Task.request, shorter, hd.quietMs, List.mem_append, List.mem_singleton,
      Event.requested.injEq, true_and]
    constructor
    · rintro (⟨c, q, hq, hle⟩ | hle)
      · exact ⟨c, q, .inl hq, hle⟩
      · exact ⟨command, quietMs, .inr ⟨rfl, rfl⟩, hle⟩
    · rintro ⟨c, q, hq | ⟨rfl, rfl⟩, hle⟩
      · exact .inl ⟨c, q, hq, hle⟩
      · exact .inr hle
  case lastFinish =>
    intro time
    rw [lastEnd_concat_of_not_ends id]
    exact hd.lastFinish time

/-- The first request makes the task. -/
theorem made (hu : Untouched h name) :
    Describes (h ++ [.requested name command quietMs]) name
      ((Task.make name quietMs).request command quietMs) := by
  constructor
  case running =>
    have idle := hu.idle
    simp only [InProgress] at idle
    simp [Task.make, InProgress, open_requested, idle]
  case pending =>
    intro c
    simp [standing_concat, Event.Supersedes, Task.request]
  case hasPending => rfl
  case quietMs => simp [Task.request, Task.make, hu.unrequested]
  case lastFinish =>
    simp [Task.request, Task.make, lastEnd_concat_of_not_ends (e := .requested _ _ _) id, hu.unended]

theorem missed (hd : Describes h name t) : Describes (h ++ [.visited v time none]) name t := by
  constructor
  case running => simp only [hd.running, InProgress, open_missed]
  case pending => simp [standing_concat, Event.Supersedes, hd.pending]
  case hasPending => exact hd.hasPending
  case quietMs => simp [hd.quietMs]
  case lastFinish => simp [lastEnd_concat_of_not_ends (e := .visited _ _ _) id, hd.lastFinish]

theorem taken (hd : Describes h v.name t) (fresh : Fresh h v) :
    Describes (h ++ [.visited v time (some command)]) v.name t.claimed := by
  constructor
  case running =>
    have running : InProgress (h ++ [.visited v time (some command)]) v.name :=
      ⟨v, rfl, (open_taken fresh).mpr (.inr rfl)⟩
    simp [Task.claimed, running]
  case pending => simp [standing_concat, Event.Supersedes, Task.claimed]
  case hasPending => rfl
  case quietMs => simpa [Task.claimed] using hd.quietMs
  case lastFinish =>
    simpa [Task.claimed, lastEnd_concat_of_not_ends (e := .visited _ _ _) id] using hd.lastFinish

/-- The end of a run that was the only one of its name. -/
theorem ended (hd : Describes h v.name t)
    (only : ∀ w, Open h w → w.name = v.name → w = v) (time : Nat) :
    Describes (h ++ [.ended v time]) v.name (t.finish time) := by
  constructor
  case running =>
    have idle : ¬ InProgress (h ++ [Event.ended v time]) v.name := by
      rintro ⟨w, hw, how⟩
      obtain ⟨how, hne⟩ := open_ended.mp how
      exact hne (only w how hw)
    simp [Task.finish, idle]
  case pending =>
    simpa [standing_concat, Event.Supersedes, Task.finish, Task.recordFinish, Task.complete]
      using hd.pending
  case hasPending => exact hd.hasPending
  case quietMs => simpa [Task.finish, Task.recordFinish, Task.complete] using hd.quietMs
  case lastFinish =>
    intro f
    rw [lastEnd_ended]
    simp only [Task.finish, Task.recordFinish, Task.complete]
    by_cases ht : time = Task.clockEnd
    · simp [ht]
    · simp only [ht, if_false, Option.some.injEq]
      constructor
      · rintro rfl
        exact ⟨rfl, ht⟩
      · rintro ⟨rfl, -⟩
        rfl

end Describes

namespace Untouched

theorem nil : Untouched ([] : List (Event κ)) name where
  idle := by simp [InProgress, Open]
  nothing := by simp [Standing, IsLatest]
  unrequested := by simp
  unended := by simp [LastEnd, IsLatest]

theorem other (hu : Untouched h name) (he : e.name ≠ name) : Untouched (h ++ [e]) name := by
  obtain ⟨notSupersedes, notEnds, notRequest⟩ := says_nothing he
  have notMem : ∀ command quietMs, Event.requested name command quietMs ≠ e :=
    fun c q hq => notRequest c q hq.symm
  constructor
  case idle => rw [inProgress_concat_of_ne he]; exact hu.idle
  case nothing => simp [standing_concat, notSupersedes, notRequest, hu.nothing]
  case unrequested => simp [hu.unrequested, notMem]
  case unended => simp [lastEnd_concat_of_not_ends notEnds, hu.unended]

theorem missed (hu : Untouched h name) : Untouched (h ++ [.visited v time none]) name where
  idle := by
    have idle := hu.idle
    simp only [InProgress, open_missed] at idle ⊢
    exact idle
  nothing := by simp [standing_concat, Event.Supersedes, hu.nothing]
  unrequested := by simp [hu.unrequested]
  unended := by simp [lastEnd_concat_of_not_ends (e := .visited _ _ _) id, hu.unended]

end Untouched

end

/-! ### The registry that a journal leads to -/

/-- Every task is what the journal says, and runs of one name do not overlap. -/
structure Agrees (h : List (Event κ)) (r : Registry κ) : Prop where
  names : r.names.Nodup
  exclusive : ∀ v w, Open h v → Open h w → v.name = w.name → v = w
  found : ∀ name t, r.find? name = some t → Describes h name t
  absent : ∀ name, r.find? name = none → Untouched h name

namespace Agrees

variable {h : List (Event κ)} {r r' : Registry κ} {v : Visit} {name : String} {command : κ}
  {time : Nat}

theorem nil : Agrees ([] : List (Event κ)) .empty where
  names := by simp
  exclusive v w hv := by simp [Open] at hv
  found name t ht := by simp at ht
  absent _ _ := .nil

/-- Without a task of its name no run is in progress. -/
theorem find?_of_open (ha : Agrees h r) (ho : Open h v) : ∃ t, r.find? v.name = some t := by
  cases hf : r.find? v.name with
  | none => exact absurd ⟨v, rfl, ho⟩ (ha.absent v.name hf).idle
  | some t => exact ⟨t, rfl⟩

theorem requested (ha : Agrees h r) (name : String) (command : κ) (quietMs : Nat) :
    Agrees (h ++ [.requested name command quietMs]) (r.request name command quietMs) := by
  constructor
  case names => exact Registry.nodup_names_request ha.names name command quietMs
  case exclusive =>
    intro v w hv hw
    exact ha.exclusive v w (open_requested.mp hv) (open_requested.mp hw)
  case found =>
    intro other t ht
    rw [Registry.find?_request] at ht
    by_cases ho : other = name
    · subst ho
      rw [if_pos rfl, Option.some.injEq] at ht
      subst ht
      cases hf : r.find? other with
      | none => exact .made (ha.absent other hf)
      | some t => exact (ha.found other t hf).requested
    · rw [if_neg ho] at ht
      exact (ha.found other t ht).other (fun he => ho he.symm)
  case absent =>
    intro other hf
    rw [Registry.find?_request] at hf
    by_cases ho : other = name
    · simp [ho] at hf
    · rw [if_neg ho] at hf
      exact (ha.absent other hf).other (fun he => ho he.symm)

/-- A visit that takes nothing says nothing of any task. -/
theorem missed (ha : Agrees h r) : Agrees (h ++ [.visited v time none]) r where
  names := ha.names
  exclusive v w hv hw := ha.exclusive v w (open_missed.mp hv) (open_missed.mp hw)
  found name t ht := (ha.found name t ht).missed
  absent name hf := (ha.absent name hf).missed

theorem taken (ha : Agrees h r) (fresh : Fresh h v)
    (hc : r.claim? v.name time = some (command, r')) :
    Agrees (h ++ [.visited v time (some command)]) r' := by
  obtain ⟨t, hf, eligible, -, find?, names⟩ := Registry.find?_of_claim? hc
  have described := ha.found v.name t hf
  have idle : ¬ InProgress h v.name := by
    rw [← described.running]
    exact (Task.isEligible_iff.mp eligible).1
  constructor
  case names => rw [names]; exact ha.names
  case exclusive =>
    -- the visit is the only one of its name
    intro w w' hw hw' hn
    rcases (open_taken fresh).mp hw with old | rfl <;>
      rcases (open_taken fresh).mp hw' with old' | rfl
    · exact ha.exclusive w w' old old' hn
    · exact absurd ⟨w, hn, old⟩ idle
    · exact absurd ⟨w', hn.symm, old'⟩ idle
    · rfl
  case found =>
    intro name u hu
    rw [find?] at hu
    by_cases hn : name = v.name
    · subst hn
      rw [if_pos rfl, Option.some.injEq] at hu
      subst hu
      exact described.taken fresh
    · rw [if_neg hn] at hu
      exact (ha.found name u hu).other (fun he => hn he.symm)
  case absent =>
    intro name hn
    rw [find?] at hn
    by_cases he : name = v.name
    · simp [he] at hn
    · rw [if_neg he] at hn
      exact (ha.absent name hn).other (fun h => he h.symm)

theorem ended (ha : Agrees h r) (ho : Open h v) (time : Nat) :
    Agrees (h ++ [.ended v time]) (r.finish v.name time) := by
  constructor
  case names => simpa using ha.names
  case exclusive =>
    intro w w' hw hw'
    exact ha.exclusive w w' (open_ended.mp hw).1 (open_ended.mp hw').1
  case found =>
    intro name u hu
    rw [Registry.find?_finish] at hu
    by_cases hn : name = v.name
    · subst hn
      rw [if_pos rfl] at hu
      obtain ⟨t, hf, rfl⟩ := Option.map_eq_some_iff.mp hu
      exact (ha.found v.name t hf).ended (fun w how hw => ha.exclusive w v how ho hw) time
    · rw [if_neg hn] at hu
      exact (ha.found name u hu).other (fun he => hn he.symm)
  case absent =>
    intro name hn
    rw [Registry.find?_finish] at hn
    by_cases he : name = v.name
    · subst he
      rw [if_pos rfl, Option.map_eq_none_iff] at hn
      obtain ⟨t, hf⟩ := ha.find?_of_open ho
      simp [hn] at hf
    · rw [if_neg he] at hn
      exact (ha.absent name hn).other (fun h => he h.symm)

/-- What stands is what is pending. -/
theorem pending_iff (ha : Agrees h r) :
    (∃ t, r.find? name = some t ∧ t.pending = some command) ↔ ∃ i, Standing h i name command := by
  cases hf : r.find? name with
  | none =>
    have := (ha.absent name hf).nothing
    simp [this]
  | some t => simp [(ha.found name t hf).pending]

end Agrees

/-! ### Every journal -/

section

variable {h : List (Event κ)} {r : Registry κ} {j : Nat} {v : Visit} {name : String} {command : κ}
  {time : Nat} {taken : Option κ}

/-- A task with a pending command is eligible just when no run is in progress and it is quiet. -/
theorem Describes.isEligible_iff {t : Task κ} (hd : Describes h name t)
    (hp : t.pending = some command) (time : Nat) :
    t.isEligible time = true ↔ Due h name time := by
  have quiet : t.isQuiet time = true ↔ Quiet h name time := by
    unfold Task.isQuiet Quiet
    cases hl : t.lastFinish with
    | none =>
      simp only [true_iff]
      intro f hf
      by_contra hne
      rw [not_or] at hne
      have := (hd.lastFinish f).mpr ⟨hf, hne.1⟩
      simp [hl] at this
    | some last =>
      obtain ⟨isLast, notEnd⟩ := (hd.lastFinish last).mp hl
      simp only [decide_eq_true_eq, hd.quietMs]
      constructor
      · intro hq f hf
        rw [hf.unique isLast]
        exact .inr hq
      · intro hq
        exact (hq last isLast).resolve_left notEnd
  rw [Task.isEligible_iff, Due, quiet, ← hd.running, hd.hasPending]
  simp [hp]

theorem Leads.agrees (hl : Leads h r) : Agrees h r := by
  induction hl with
  | nil => exact .nil
  | step _ hs ih =>
    cases hs with
    | requested name command quietMs => exact ih.requested name command quietMs
    | missed => exact ih.missed
    | taken fresh claim => exact ih.taken fresh claim
    | ended inside time => exact ih.ended inside time

/-- A visit is new, and takes what the registry gives that the events before it lead to. -/
theorem Leads.visit (hl : Leads h r) (hj : h[j]? = some (.visited v time taken)) :
    ∃ r', Leads (h.take j) r' ∧ Fresh (h.take j) v ∧
      taken = (r'.claim? v.name time).map (·.1) := by
  induction hl with
  | nil => simp at hj
  | step hl hs ih =>
    rcases getElem?_concat.mp hj with hj | ⟨rfl, rfl⟩
    · rw [List.take_append_of_le_length (Nat.le_of_lt (lt_length hj))]
      exact ih hj
    · rw [List.take_left]
      cases hs with
      | missed fresh claim => exact ⟨_, hl, fresh, by simp [claim]⟩
      | taken fresh claim => exact ⟨_, hl, fresh, by simp [claim]⟩

end

end Journal

end Triage
