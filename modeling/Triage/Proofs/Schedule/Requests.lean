import Triage.Proofs.Schedule.Journal

/-!
# The fate of requests

Requests are told apart by their positions in the journal.  `Executes h i j` says that the command
taken at position `j` is the one that was requested at position `i`, the last request of that name
before.  What a visit takes is what stands, so that each take has its request and no two takes have
the same.
-/

namespace Triage

namespace Journal

variable {κ : Type}

/-- At position `i` a run of the command is requested under the name. -/
def Requests (h : List (Event κ)) (i : Nat) (name : String) (command : κ) : Prop :=
  ∃ quietMs, h[i]? = some (.requested name command quietMs)

/-- At position `j` the visit takes the command. -/
def Takes (h : List (Event κ)) (j : Nat) (v : Visit) (command : κ) : Prop :=
  ∃ time, h[j]? = some (.visited v time (some command))

/-- The last request of the name before position `j` is at position `i`. -/
def LastRequest (h : List (Event κ)) (j : Nat) (name : String) (i : Nat) (command : κ) : Prop :=
  i < j ∧ Requests h i name command ∧ ∀ m c, i < m → m < j → ¬ Requests h m name c

/-- The command that is taken at position `j` was requested at position `i`. -/
def Executes (h : List (Event κ)) (i j : Nat) : Prop :=
  ∃ v command, Takes h j v command ∧ LastRequest h j v.name i command

section

variable {h : List (Event κ)} {r : Registry κ} {i i' j j' : Nat} {v : Visit} {name : String}
  {command command' : κ} {time : Nat} {taken : Option κ}

theorem standing_take :
    Standing (h.take j) i name command ↔
      i < j ∧ Requests h i name command ∧
        ∀ m e, i < m → m < j → h[m]? = some e → ¬ e.Supersedes name := by
  simp only [Standing, IsLatest, Requests, List.getElem?_take]
  constructor
  · rintro ⟨quietMs, hi, last⟩
    by_cases hij : i < j
    · rw [if_pos hij] at hi
      exact ⟨hij, ⟨quietMs, hi⟩, fun m e hm hmj he => last m e hm (by rw [if_pos hmj, he])⟩
    · simp [hij] at hi
  · rintro ⟨hij, ⟨quietMs, hi⟩, last⟩
    refine ⟨quietMs, by rw [if_pos hij, hi], fun m e hm he => ?_⟩
    by_cases hmj : m < j
    · rw [if_pos hmj] at he
      exact last m e hm hmj he
    · simp [hmj] at he

theorem Standing.lastRequest (hs : Standing (h.take j) i name command) :
    LastRequest h j name i command := by
  obtain ⟨hij, request, last⟩ := standing_take.mp hs
  refine ⟨hij, request, fun m c hm hmj ⟨quietMs, hr⟩ => ?_⟩
  exact last m _ hm hmj hr rfl

theorem LastRequest.unique (hi : LastRequest h j name i command)
    (hi' : LastRequest h j name i' command') : i = i' ∧ command = command' := by
  obtain ⟨hij, request, last⟩ := hi
  obtain ⟨hij', request', last'⟩ := hi'
  rcases Nat.lt_trichotomy i i' with hlt | rfl | hlt
  · exact absurd request' (last i' command' hlt hij')
  · obtain ⟨quietMs, hr⟩ := request
    obtain ⟨quietMs', hr'⟩ := request'
    rw [hr] at hr'
    cases hr'
    exact ⟨rfl, rfl⟩
  · exact absurd request (last' i command hlt hij)

/-- What is taken is what stands. -/
theorem Leads.standing_of_takes (hl : Leads h r) (ht : Takes h j v command) :
    ∃ i, Standing (h.take j) i v.name command := by
  obtain ⟨time, hj⟩ := ht
  obtain ⟨r', hl', -, claim⟩ := hl.visit hj
  obtain ⟨⟨c, r''⟩, hc, rfl⟩ := Option.map_eq_some_iff.mp claim.symm
  obtain ⟨t, hf, -, pending, -⟩ := Registry.find?_of_claim? hc
  exact hl'.agrees.pending_iff.mp ⟨t, hf, pending⟩

/-- A command that is taken is the one that was requested last. -/
theorem Leads.exists_lastRequest (hl : Leads h r) (ht : Takes h j v command) :
    ∃ i, LastRequest h j v.name i command := by
  obtain ⟨i, hs⟩ := hl.standing_of_takes ht
  exact ⟨i, hs.lastRequest⟩

/-- Between a request and the take that executes it nothing else is taken under its name. -/
theorem Leads.not_takes_between (hl : Leads h r) (he : Executes h i j) {m : Nat} {w : Visit}
    (ht : Takes h j v command) (hm : i < m) (hmj : m < j) (hn : w.name = v.name) :
    ¬ Takes h m w command' := by
  obtain ⟨v', c, ht', hlast⟩ := he
  obtain ⟨i₀, hs⟩ := hl.standing_of_takes ht'
  obtain ⟨rfl, -⟩ := hlast.unique hs.lastRequest
  have hv : v' = v := by
    obtain ⟨time, hj⟩ := ht
    obtain ⟨time', hj'⟩ := ht'
    rw [hj] at hj'
    cases hj'
    rfl
  subst hv
  rintro ⟨time, hw⟩
  exact (standing_take.mp hs).2.2 m _ hm hmj hw ⟨hn, rfl⟩

/-- A request is executed at most once. -/
theorem Leads.executes_once (hl : Leads h r) (he : Executes h i j) (he' : Executes h i j') :
    j = j' := by
  -- of two takes that execute one request the earlier one would come between it and the later one
  have earlier : ∀ {a b : Nat}, Executes h i a → Executes h i b → ¬ a < b := by
    intro a b ha hb hab
    obtain ⟨v, c, ht, hia, ⟨quietMs, hr⟩, -⟩ := ha
    obtain ⟨w, d, hu, -, ⟨quietMs', hr'⟩, -⟩ := id hb
    rw [hr] at hr'
    have hn : v.name = w.name := by
      simp only [Option.some.injEq, Event.requested.injEq] at hr'
      exact hr'.1
    exact hl.not_takes_between hb hu hia hab hn ht
  have h₁ := earlier he he'
  have h₂ := earlier he' he
  omega

/-- A command that is replaced before it is taken is never executed. -/
theorem not_executes_of_replaced (hi : Requests h i name command)
    (hi' : Requests h i' name command') (hlt : i < i')
    (untaken : ∀ m v c, i < m → m < i' → v.name = name → ¬ Takes h m v c) :
    ¬ Executes h i j := by
  rintro ⟨v, c, ht, hij, ⟨quietMs, hr⟩, last⟩
  have hn : name = v.name := by
    obtain ⟨quietMs', hr'⟩ := hi
    rw [hr'] at hr
    simp only [Option.some.injEq, Event.requested.injEq] at hr
    exact hr.1
  subst hn
  rcases Nat.lt_trichotomy i' j with hj | rfl | hj
  · exact last i' command' hlt hj hi'
  · obtain ⟨_, hr'⟩ := hi'
    obtain ⟨_, ht'⟩ := ht
    rw [hr'] at ht'
    simp at ht'
  · exact untaken j v c hij hj rfl ht

/-- A sweep comes to a task once. -/
theorem Leads.visit_once {time' : Nat} {taken' : Option κ} (hl : Leads h r)
    (hj : h[j]? = some (.visited v time taken)) (hj' : h[j']? = some (.visited v time' taken')) :
    j = j' := by
  have earlier : ∀ {a b t t' : Nat} {u u' : Option κ}, h[a]? = some (.visited v t u) →
      h[b]? = some (.visited v t' u') → ¬ a < b := by
    intro a b t t' u u' ha hb hab
    obtain ⟨-, -, fresh, -⟩ := hl.visit hb
    have hm : Event.visited v t u ∈ h.take b :=
      List.mem_of_getElem? (by rw [List.getElem?_take, if_pos hab, ha])
    exact fresh _ hm rfl
  have h₁ := earlier hj hj'
  have h₂ := earlier hj' hj
  omega

/-- A request that stands is what is pending, and a look at the task sees that something is. -/
theorem Leads.pending_of_standing (hl : Leads h r) (hs : Standing h i name command) :
    ∃ t, r.find? name = some t ∧ t.pending = some command ∧ t.hasPending = true := by
  obtain ⟨t, hf, pending⟩ := hl.agrees.pending_iff.mpr ⟨i, hs⟩
  have flag := (hl.agrees.found name t hf).hasPending
  exact ⟨t, hf, pending, by rw [flag, pending, Option.isSome_some]⟩

/-- A visit takes the command that stands if it is due, and otherwise nothing. -/
theorem Leads.visit_of_standing (hl : Leads h r) (hj : h[j]? = some (.visited v time taken))
    (hs : Standing (h.take j) i v.name command) :
    (Due (h.take j) v.name time → taken = some command) ∧
      (¬ Due (h.take j) v.name time → taken = none) := by
  obtain ⟨r', hl', -, rfl⟩ := hl.visit hj
  obtain ⟨t, hf, pending, -⟩ := hl'.pending_of_standing hs
  have eligible := (hl'.agrees.found v.name t hf).isEligible_iff pending time
  cases hc : r'.claim? v.name time with
  | none =>
    have := Registry.isEligible_of_claim?_eq_none hc hf pending
    simp [← eligible, this]
  | some x =>
    obtain ⟨c, r''⟩ := x
    obtain ⟨t', hf', eligible', pending', -⟩ := Registry.find?_of_claim? hc
    rw [hf, Option.some.injEq] at hf'
    subst hf'
    rw [pending, Option.some.injEq] at pending'
    subst pending'
    simp [← eligible, eligible']

end

end Journal

end Triage
