import Mathlib.Data.List.Induction
import Triage.Proofs.Schedule.Clock

/-!
# Quiet periods

Once a run of a task is over, the next one waits for the shortest quiet period that was requested
until then, and for nothing else (`Reachable.respects_quiet`).  In a journal that carries the readings
of the clock in their order, the end that a claim compares with is the latest of all earlier ends, so
the wait holds for each of them.
-/

namespace Triage

namespace Journal

variable {κ : Type} {h : List (Event κ)} {r : Registry κ} {e : Event κ} {i j m : Nat}
  {v w : Visit} {name : String} {command : κ} {time f q ms : Nat} {taken : Option κ}

/-! ### The shortest quiet period -/

/-- The quiet period that an event requests under the name. -/
def quietFor? (name : String) : Event κ → Option Nat
  | .requested n _ quietMs => if n = name then some quietMs else none
  | _ => none

/-- The shortest quiet period requested under the name. -/
def shortestQuiet? (h : List (Event κ)) (name : String) : Option Nat :=
  (h.filterMap (quietFor? name)).min?

theorem mem_quietPeriods :
    ms ∈ h.filterMap (quietFor? name) ↔ ∃ command, .requested name command ms ∈ h := by
  rw [List.mem_filterMap]
  constructor
  · rintro ⟨e, he, hq⟩
    cases e with
    | requested n command quietMs =>
      simp only [quietFor?, Option.ite_none_right_eq_some, Option.some.injEq] at hq
      obtain ⟨rfl, rfl⟩ := hq
      exact ⟨command, he⟩
    | visited v time taken => cases hq
    | ended v time => cases hq
  · rintro ⟨command, he⟩
    exact ⟨_, he, by simp [quietFor?]⟩

/-- A request that is no longer than a span of time is one that the shortest of them is not, either. -/
theorem shortestQuiet?_le_iff (hq : shortestQuiet? h name = some q) (ms : Nat) :
    q ≤ ms ↔ ∃ command quietMs, .requested name command quietMs ∈ h ∧ quietMs ≤ ms := by
  obtain ⟨member, least⟩ := List.min?_eq_some_iff.mp hq
  constructor
  · intro hle
    obtain ⟨command, hc⟩ := mem_quietPeriods.mp member
    exact ⟨command, q, hc, hle⟩
  · rintro ⟨command, quietMs, hr, hle⟩
    exact Nat.le_trans (least quietMs (mem_quietPeriods.mpr ⟨command, hr⟩)) hle

theorem exists_shortestQuiet? (hr : .requested name command ms ∈ h) :
    ∃ q, shortestQuiet? h name = some q := by
  unfold shortestQuiet?
  cases hq : (h.filterMap (quietFor? name)).min? with
  | some q => exact ⟨q, rfl⟩
  | none =>
    have member := mem_quietPeriods.mpr ⟨command, hr⟩
    rw [List.min?_eq_none_iff.mp hq] at member
    cases member

/-! ### Readings in their order -/

theorem readings_concat : readings (h ++ [e]) = readings h ++ e.time?.toList := by
  cases he : e.time? <;> simp [readings, he]

theorem mem_readings (he : e ∈ h) (ht : e.time? = some time) : time ∈ readings h :=
  List.mem_filterMap.mpr ⟨e, he, ht⟩

/-- The last end of a run is no earlier than any other one. -/
theorem exists_lastEnd (ho : (readings h).Pairwise (· ≤ ·)) (he : .ended w f ∈ h) :
    ∃ last, LastEnd h w.name last ∧ f ≤ last := by
  induction h using List.reverseRecOn with
  | nil => cases he
  | append_singleton h e ih =>
    rw [readings_concat, List.pairwise_append] at ho
    obtain ⟨ordered, -, before⟩ := ho
    by_cases ends : e.Ends w.name
    · -- the new event is the last end
      cases e with
      | requested n c ms => exact absurd ends id
      | visited u time taken => exact absurd ends id
      | ended u time =>
        have hu : u.name = w.name := ends
        refine ⟨time, hu ▸ lastEnd_ended.mpr rfl, ?_⟩
        rcases List.mem_append.mp he with he | he
        · exact before f (mem_readings he rfl) time (by simp [Event.time?])
        · cases List.mem_singleton.mp he
          exact Nat.le_refl _
    · have earlier : .ended w f ∈ h := by
        rcases List.mem_append.mp he with he | he
        · exact he
        · cases List.mem_singleton.mp he
          exact absurd rfl ends
      obtain ⟨last, hl, hle⟩ := ih ordered earlier
      exact ⟨last, (lastEnd_concat_of_not_ends ends).mpr hl, hle⟩

theorem mem_of_lastEnd (hl : LastEnd h name f) : ∃ w : Visit, w.name = name ∧ .ended w f ∈ h := by
  obtain ⟨i, w, hw, hi, -⟩ := hl
  exact ⟨w, hw, List.mem_of_getElem? hi⟩

theorem take_concat (hj : h[j]? = some e) : h.take (j + 1) = h.take j ++ [e] := by
  rw [List.take_add_one, hj]
  rfl

/-- The readings before an event are in their order and none is later than its own. -/
theorem readings_take (ho : (readings h).Pairwise (· ≤ ·)) (hj : h[j]? = some e)
    (ht : e.time? = some time) :
    (readings (h.take j)).Pairwise (· ≤ ·) ∧ ∀ f ∈ readings (h.take j), f ≤ time := by
  have prefixed : (readings (h.take (j + 1))).Pairwise (· ≤ ·) :=
    ho.sublist ((List.take_sublist (j + 1) h).filterMap _)
  rw [take_concat hj, readings_concat, List.pairwise_append] at prefixed
  obtain ⟨ordered, -, before⟩ := prefixed
  exact ⟨ordered, fun f hf => before f hf time (by simp [ht])⟩

/-! ### What a visit waits for -/

/-- What stands was requested, so there is a shortest quiet period. -/
theorem Standing.exists_shortestQuiet? (hs : Standing h i name command) :
    ∃ q, shortestQuiet? h name = some q := by
  obtain ⟨quietMs, hi, -⟩ := hs
  exact Journal.exists_shortestQuiet? (List.mem_of_getElem? hi)

/-- As long as the clock has not come to its end, the task is quiet just when the shortest quiet period
has gone by since the last run. -/
theorem quiet_iff (hq : shortestQuiet? h name = some q) (hl : LastEnd h name f)
    (hf : f < Task.clockEnd) (hle : f ≤ time) : Quiet h name time ↔ f + q ≤ time := by
  have period := shortestQuiet?_le_iff hq (time - f)
  constructor
  · intro quiet
    have gone := period.mpr ((quiet f hl).resolve_left (Nat.ne_of_lt hf))
    omega
  · intro gone f' hl'
    cases hl'.unique hl
    exact .inr (period.mp (by omega))

/-- A command is taken only when the shortest quiet period has gone by since every earlier run. -/
theorem Leads.waits (hl : Leads h r) (ho : (readings h).Pairwise (· ≤ ·))
    (hclock : ∀ f ∈ readings h, f < Task.clockEnd)
    (hj : h[j]? = some (.visited v time (some command))) (hm : h[m]? = some (.ended w f))
    (hmj : m < j) (hn : w.name = v.name) :
    ∃ q, shortestQuiet? (h.take j) v.name = some q ∧ f + q ≤ time := by
  obtain ⟨ordered, before⟩ := readings_take ho hj rfl
  obtain ⟨i, hs⟩ := hl.standing_of_takes ⟨time, hj⟩
  obtain ⟨q, hq⟩ := hs.exists_shortestQuiet?
  have due : Due (h.take j) v.name time := by
    by_contra hdue
    exact nomatch (hl.visit_of_standing hj hs).2 hdue
  have mem : .ended w f ∈ h.take j :=
    List.mem_of_getElem? (by rw [List.getElem?_take, if_pos hmj, hm])
  obtain ⟨last, hlast, hle⟩ := exists_lastEnd ordered mem
  rw [hn] at hlast
  obtain ⟨u, -, hu⟩ := mem_of_lastEnd hlast
  have reading : last ∈ readings (h.take j) := mem_readings hu rfl
  have early : last < Task.clockEnd :=
    hclock last (((List.take_sublist j h).filterMap _).subset reading)
  have gone := (quiet_iff hq hlast early (before last reading)).mp due.2
  exact ⟨q, hq, by omega⟩

/-- What is pending is taken at once if no run of the task has ever ended and none is in progress. -/
theorem Leads.first_at_once (hl : Leads h r) (hj : h[j]? = some (.visited v time taken))
    (hs : Standing (h.take j) i v.name command) (idle : ¬ InProgress (h.take j) v.name)
    (unended : ∀ f, ¬ LastEnd (h.take j) v.name f) : taken = some command :=
  (hl.visit_of_standing hj hs).1 ⟨idle, fun f hf => absurd hf (unended f)⟩

/-- What is pending is taken as soon as the shortest quiet period has gone by since the last run. -/
theorem Leads.prompt (hl : Leads h r) (hclock : ∀ f ∈ readings h, f < Task.clockEnd)
    (hj : h[j]? = some (.visited v time taken)) (hs : Standing (h.take j) i v.name command)
    (idle : ¬ InProgress (h.take j) v.name) (hf : LastEnd (h.take j) v.name f)
    (hq : shortestQuiet? (h.take j) v.name = some q) (gone : f + q ≤ time) :
    taken = some command := by
  obtain ⟨u, -, hu⟩ := mem_of_lastEnd hf
  have early : f < Task.clockEnd :=
    hclock f (((List.take_sublist j h).filterMap _).subset (mem_readings hu rfl))
  have quiet := (quiet_iff hq hf early (by omega)).mpr gone
  exact (hl.visit_of_standing hj hs).1 ⟨idle, quiet⟩

end Journal

namespace Scheduler

open Journal in
/-- Quiet periods, by the history of a scheduler. -/
structure RespectsQuiet (s : Scheduler) : Prop where
  /-- The clock never goes back. -/
  clock : (readings s.history).Pairwise (· ≤ ·)
  /-- What runs and what is pending in the tasks is what the history says. -/
  tasks : ∀ name t, s.tasks.find? name = some t →
    (t.status = .running ↔ InProgress s.history name) ∧
      ∀ command, t.pending = some command ↔ ∃ i, Standing s.history i name command
  /-- A command is taken only when the shortest quiet period that has been requested under the name
  so far has gone by since the end of each earlier run, however that run ended. -/
  waits : ∀ (m j : Nat) (w v : Visit) (f time : Nat) (command : Command), m < j →
    s.history[m]? = some (.ended w f) → w.name = v.name →
    s.history[j]? = some (.visited v time (some command)) →
    ∃ q, shortestQuiet? (s.history.take j) v.name = some q ∧ f + q ≤ time
  /-- A first run needs no wait. -/
  first : ∀ (i j : Nat) (v : Visit) (time : Nat) (taken : Option Command) (command : Command),
    s.history[j]? = some (.visited v time taken) →
    Standing (s.history.take j) i v.name command → ¬ InProgress (s.history.take j) v.name →
    (∀ f, ¬ LastEnd (s.history.take j) v.name f) → taken = some command
  /-- A visit that finds a pending command and no run in progress takes it as soon as the shortest
  quiet period has gone by since the last run. -/
  prompt : ∀ (i j : Nat) (v : Visit) (f q time : Nat) (taken : Option Command) (command : Command),
    s.history[j]? = some (.visited v time taken) →
    Standing (s.history.take j) i v.name command → ¬ InProgress (s.history.take j) v.name →
    LastEnd (s.history.take j) v.name f →
    shortestQuiet? (s.history.take j) v.name = some q → f + q ≤ time → taken = some command

/-- Quiet periods are respected, and nothing waits any longer, as long as the clock has not come to
its end. -/
theorem Reachable.respects_quiet {config : SchedulerConfig} {chance : Chance} {s : Scheduler}
    (hr : Reachable config chance s) (hclock : s.now < Task.clockEnd) : s.RespectsQuiet := by
  have leads := hr.sound.journal.leads
  have timely := hr.timely
  have readings : ∀ f ∈ Journal.readings s.history, f < Task.clockEnd := by
    intro f hf
    have past : f ≤ min s.now Task.clockEnd := timely.past f hf
    omega
  constructor
  case clock => exact timely.ordered
  case tasks =>
    intro name t ht
    have described := leads.agrees.found name t ht
    exact ⟨described.running, described.pending⟩
  case waits =>
    intro m j w v f time command hmj hm hn hj
    exact leads.waits timely.ordered readings hj hm hmj hn
  case first =>
    intro i j v time taken command hj hs idle unended
    exact leads.first_at_once hj hs idle unended
  case prompt =>
    intro i j v f q time taken command hj hs idle hf hq gone
    exact leads.prompt readings hj hs idle hf hq gone

/-- A task whose command crashes at once is requested again with a shorter quiet period: the sweep at
time 3 comes too early and ends no run, and the one at time 4 does. -/
theorem Reachable.respects_quiet_shortened :
    let crashing : Command := ⟨"crashing", [], false, 0, .crash none⟩
    let operations : List Operation := [.request ⟨"quiet", 10, crashing, false⟩, .sweep,
      .request ⟨"quiet", 4, crashing, false⟩, .advance 3, .sweep, .advance 1, .sweep]
    let s : Scheduler := operations.foldl (fun s op => op.run s) (.make ⟨0, 0, 0⟩ .plain)
    Reachable ⟨0, 0, 0⟩ .plain s ∧ s.now < Task.clockEnd ∧ s.RespectsQuiet ∧
      s.history.map Event.time? = [none, some 0, some 0, none, some 3, some 4, some 4] ∧
      Journal.shortestQuiet? (s.history.take 5) "quiet" = some 4 := by
  intro crashing operations s
  have hr : Reachable ⟨0, 0, 0⟩ .plain s :=
    List.foldlRecOn operations _ .make fun _ hr op _ => hr.step op
  have hclock : s.now < Task.clockEnd := by decide +kernel
  exact ⟨hr, hclock, hr.respects_quiet hclock, by decide +kernel, by decide +kernel⟩

end Scheduler

end Triage
