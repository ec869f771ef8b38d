import Triage.Proofs.Schedule.Journal

/-!
# Sweeps under way

Several sweeps are under way at a time, each at its own place in the list of tasks that it found
when it began.  `Sound` ties them to the journal: the runs in progress are those of the sweeps, and
a sweep has not come yet to the tasks that lie before it.
-/

namespace Triage

/-- A sweep under way: the task whose command it runs, and the tasks that it comes to later. -/
structure Session where
  sweep : Nat
  current : Option String
  rest : List String

/-- The visit whose run the sweep is in. -/
def Session.visit? (σ : Session) : Option Visit := σ.current.map fun name => ⟨σ.sweep, name⟩

namespace Journal

variable {κ : Type}

/-- The journal leads to the registry, `nextSweep` sweeps have begun, and the sessions are those of
them that are under way. -/
structure Sound (h : List (Event κ)) (r : Registry κ) (nextSweep : Nat)
    (sessions : List Session) : Prop where
  leads : Leads h r
  distinct : (sessions.map (·.sweep)).Nodup
  begun : ∀ σ ∈ sessions, σ.sweep < nextSweep
  past : ∀ e ∈ h, ∀ v, e.visit? = some v → v.sweep < nextSweep
  nodup : ∀ σ ∈ sessions, σ.rest.Nodup
  ahead : ∀ σ ∈ sessions, ∀ name ∈ σ.rest, Fresh h ⟨σ.sweep, name⟩
  inside : ∀ v, Open h v ↔ ∃ σ ∈ sessions, σ.visit? = some v

theorem fresh_concat {h : List (Event κ)} {e : Event κ} {v : Visit} :
    Fresh (h ++ [e]) v ↔ Fresh h v ∧ e.visit? ≠ some v := by
  simp [Fresh, or_imp, forall_and]

namespace Sound

variable {h : List (Event κ)} {r r' : Registry κ} {n k : Nat} {name : String} {rest : List String}
  {σ σ' : Session} {others sessions sessions' : List Session} {command : κ} {time : Nat}

theorem nil : Sound ([] : List (Event κ)) .empty 0 [] where
  leads := .nil
  distinct := by simp
  begun := by simp
  past := by simp
  nodup := by simp
  ahead := by simp
  inside := by simp [Open]

/-- The order of the sessions does not matter. -/
theorem perm (hs : Sound h r n sessions) (hp : sessions.Perm sessions') :
    Sound h r n sessions' where
  leads := hs.leads
  distinct := (hp.map (·.sweep)).nodup_iff.mp hs.distinct
  begun σ hσ := hs.begun σ (hp.mem_iff.mpr hσ)
  past := hs.past
  nodup σ hσ := hs.nodup σ (hp.mem_iff.mpr hσ)
  ahead σ hσ := hs.ahead σ (hp.mem_iff.mpr hσ)
  inside v := by
    simp only [hs.inside, hp.mem_iff]

/-! ### Steps of everybody -/

theorem requested (hs : Sound h r n sessions) (name : String) (command : κ) (quietMs : Nat) :
    Sound (h ++ [.requested name command quietMs]) (r.request name command quietMs) n
      sessions where
  leads := hs.leads.step (.requested name command quietMs)
  distinct := hs.distinct
  begun := hs.begun
  past e he v hv := by
    rcases List.mem_append.mp he with he | he
    · exact hs.past e he v hv
    · rw [List.mem_singleton.mp he] at hv
      simp [Event.visit?] at hv
  nodup := hs.nodup
  ahead σ hσ name hn := fresh_concat.mpr ⟨hs.ahead σ hσ name hn, by simp [Event.visit?]⟩
  inside v := open_requested.trans (hs.inside v)

/-- A sweep begins with all tasks before it, in whatever order. -/
theorem begin (hs : Sound h r n sessions) {order : List String} (ho : order.Perm r.names) :
    Sound h r (n + 1) (⟨n, none, order⟩ :: sessions) where
  leads := hs.leads
  distinct := by
    simp only [List.map_cons, List.nodup_cons]
    refine ⟨fun hm => ?_, hs.distinct⟩
    obtain ⟨σ, hσ, hn⟩ := List.mem_map.mp hm
    exact absurd hn (Nat.ne_of_lt (hs.begun σ hσ))
  begun σ hσ := by
    rcases List.mem_cons.mp hσ with rfl | hσ
    · exact Nat.lt_succ_self n
    · exact Nat.lt_succ_of_lt (hs.begun σ hσ)
  past e he v hv := Nat.lt_succ_of_lt (hs.past e he v hv)
  nodup σ hσ := by
    rcases List.mem_cons.mp hσ with rfl | hσ
    · exact ho.nodup_iff.mpr hs.leads.agrees.names
    · exact hs.nodup σ hσ
  ahead σ hσ name hn := by
    rcases List.mem_cons.mp hσ with rfl | hσ
    · -- no event belongs to a sweep that has not begun
      intro e he hv
      exact absurd (hs.past e he _ hv) (Nat.lt_irrefl n)
    · exact hs.ahead σ hσ name hn
  inside v := by simp [hs.inside, Session.visit?]

/-- A sweep that is in no run goes away. -/
theorem leave (hs : Sound h r n (⟨k, none, rest⟩ :: sessions)) : Sound h r n sessions where
  leads := hs.leads
  distinct := (List.nodup_cons.mp hs.distinct).2
  begun σ hσ := hs.begun σ (List.mem_cons_of_mem _ hσ)
  past := hs.past
  nodup σ hσ := hs.nodup σ (List.mem_cons_of_mem _ hσ)
  ahead σ hσ := hs.ahead σ (List.mem_cons_of_mem _ hσ)
  inside v := by simp [hs.inside, Session.visit?]

/-! ### Steps of one sweep -/

/-- The first session goes on with an event of its own, at a task that it does not come to again. -/
theorem goOn (hs : Sound h r n (σ :: others)) {e : Event κ} {v : Visit}
    (leads : Leads (h ++ [e]) r') (he : e.visit? = some v) (hv : v.sweep = σ.sweep)
    (sweep : σ'.sweep = σ.sweep) (sublist : σ'.rest.Sublist σ.rest) (hn : v.name ∉ σ'.rest)
    (inside : ∀ w, Open (h ++ [e]) w ↔ ∃ τ ∈ σ' :: others, τ.visit? = some w) :
    Sound (h ++ [e]) r' n (σ' :: others) where
  leads := leads
  distinct := by
    have := hs.distinct
    simpa only [List.map_cons, sweep] using this
  begun τ hτ := by
    rcases List.mem_cons.mp hτ with rfl | hτ
    · rw [sweep]
      exact hs.begun σ List.mem_cons_self
    · exact hs.begun τ (List.mem_cons_of_mem _ hτ)
  past e' he' w hw := by
    rcases List.mem_append.mp he' with he' | he'
    · exact hs.past e' he' w hw
    · rw [List.mem_singleton.mp he', he, Option.some.injEq] at hw
      rw [← hw, hv]
      exact hs.begun σ List.mem_cons_self
  nodup τ hτ := by
    rcases List.mem_cons.mp hτ with rfl | hτ
    · exact (hs.nodup σ List.mem_cons_self).sublist sublist
    · exact hs.nodup τ (List.mem_cons_of_mem _ hτ)
  ahead τ hτ name hname := by
    rw [fresh_concat, he]
    rcases List.mem_cons.mp hτ with rfl | hτ
    · refine ⟨?_, fun hvn => hn ?_⟩
      · rw [sweep]
        exact hs.ahead σ List.mem_cons_self name (sublist.subset hname)
      · simp only [Option.some.injEq] at hvn
        rw [hvn]
        exact hname
    · refine ⟨hs.ahead τ (List.mem_cons_of_mem _ hτ) name hname, fun hvn => ?_⟩
      -- the event is of another sweep
      simp only [Option.some.injEq] at hvn
      have same : τ.sweep = σ.sweep := by rw [← hv, hvn]
      have notMem := (List.nodup_cons.mp hs.distinct).1
      exact notMem (List.mem_map.mpr ⟨τ, hτ, same⟩)
  inside := inside

theorem missed (hs : Sound h r n (⟨k, none, name :: rest⟩ :: others))
    (hc : r.claim? name time = none) :
    Sound (h ++ [.visited ⟨k, name⟩ time none]) r n (⟨k, none, rest⟩ :: others) := by
  have fresh : Fresh h ⟨k, name⟩ := hs.ahead _ List.mem_cons_self name List.mem_cons_self
  have hn : (name :: rest).Nodup := hs.nodup _ List.mem_cons_self
  have leads := hs.leads.step (.missed fresh hc)
  refine hs.goOn leads rfl rfl rfl (List.sublist_cons_self name rest) (List.nodup_cons.mp hn).1 ?_
  intro w
  rw [open_missed, hs.inside]
  simp [Session.visit?]

theorem taken (hs : Sound h r n (⟨k, none, name :: rest⟩ :: others))
    (hc : r.claim? name time = some (command, r')) :
    Sound (h ++ [.visited ⟨k, name⟩ time (some command)]) r' n
      (⟨k, some name, rest⟩ :: others) := by
  have fresh : Fresh h ⟨k, name⟩ := hs.ahead _ List.mem_cons_self name List.mem_cons_self
  have hn : (name :: rest).Nodup := hs.nodup _ List.mem_cons_self
  have leads := hs.leads.step (.taken fresh hc)
  refine hs.goOn leads rfl rfl rfl (List.sublist_cons_self name rest) (List.nodup_cons.mp hn).1 ?_
  intro w
  rw [open_taken fresh, hs.inside]
  simp [Session.visit?, or_comm, eq_comm]

theorem ended (hs : Sound h r n (⟨k, some name, rest⟩ :: others)) (time : Nat) :
    Sound (h ++ [.ended ⟨k, name⟩ time]) (r.finish name time) n (⟨k, none, rest⟩ :: others) := by
  have ho : Open h ⟨k, name⟩ := (hs.inside _).mpr ⟨_, List.mem_cons_self, rfl⟩
  have notAhead : name ∉ rest := by
    intro hn
    exact ho.not_fresh (hs.ahead _ List.mem_cons_self name hn)
  have leads := hs.leads.step (.ended ho time)
  refine hs.goOn leads rfl rfl rfl (List.Sublist.refl rest) notAhead ?_
  intro w
  rw [open_ended, hs.inside]
  constructor
  · rintro ⟨⟨τ, hτ, hw⟩, hne⟩
    rcases List.mem_cons.mp hτ with rfl | hτ
    · simp only [Session.visit?, Option.map_some, Option.some.injEq] at hw
      exact absurd hw.symm hne
    · exact ⟨τ, List.mem_cons_of_mem _ hτ, hw⟩
  · rintro ⟨τ, hτ, hw⟩
    rcases List.mem_cons.mp hτ with rfl | hτ
    · simp [Session.visit?] at hw
    · refine ⟨⟨τ, List.mem_cons_of_mem _ hτ, hw⟩, ?_⟩
      -- no other session is of the same sweep
      rintro rfl
      obtain ⟨current, -, he⟩ := Option.map_eq_some_iff.mp hw
      have same : τ.sweep = k := congrArg Visit.sweep he
      have notMem := (List.nodup_cons.mp hs.distinct).1
      exact notMem (List.mem_map.mpr ⟨τ, hτ, same⟩)

end Sound

end Journal

end Triage
