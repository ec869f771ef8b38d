import Triage.Proofs.Schedule.Runs

/-!
# The clock of a scheduler

The clock never goes back.  No alarm lies behind it, each turn leaves it where it is, and it only
moves to an alarm or to the end of a wait; so the journal carries its readings in their order
(`Reachable.timely`).
-/

namespace Triage

/-- The reading of the clock that an event carries. -/
def Event.time? {κ : Type} : Event κ → Option Nat
  | requested _ _ _ => none
  | visited _ time _ => some time
  | ended _ time => some time

/-- The readings of the clock in a journal, first things first. -/
def Journal.readings {κ : Type} (h : List (Event κ)) : List Nat := h.filterMap Event.time?

theorem Worker.lt_tickAfter {period due : Nat} (hp : 0 < period) (now : Nat) :
    due < tickAfter period due now := by
  have late : (now - due) % period < period := Nat.mod_lt _ hp
  unfold tickAfter
  simp only
  split <;> omega

namespace Scheduler

/-- The clock shows `t` and has never gone back, and no alarm lies behind it. -/
structure Timely (t : Nat) (s : Scheduler) : Prop where
  now : s.now = t
  ordered : (Journal.readings s.history).Pairwise (· ≤ ·)
  past : ∀ r ∈ Journal.readings s.history, r ≤ s.clock
  ahead : ∀ w ∈ s.workers, ∀ a, w.alarm = some a → t ≤ a.time

/-- A worker that lies still goes on at a time that is not past. -/
def Progress.Ahead (t : Nat) : Progress → Prop
  | .over => True
  | .still _ _ time => t ≤ time

namespace Timely

variable {t : Nat} {s s' : Scheduler}

theorem make (config : SchedulerConfig) (chance : Chance) :
    (Scheduler.make config chance).Timely 0 where
  now := rfl
  ordered := List.Pairwise.nil
  past := by simp [Journal.readings, history, Scheduler.make]
  ahead := by simp [Scheduler.make]

/-- What leaves the clock and the journal alone, and sets no alarm, goes unnoticed. -/
theorem of_same (hs : s.Timely t) (now : s'.now = s.now) (journal : s'.journal = s.journal)
    (alarms : ∀ w ∈ s'.workers, ∀ a, w.alarm = some a → ∃ w' ∈ s.workers, w'.alarm = some a) :
    s'.Timely t where
  now := now.trans hs.now
  ordered := by simpa only [history, journal] using hs.ordered
  past := by simpa only [history, journal, clock, now] using hs.past
  ahead w hw a ha := by
    obtain ⟨w', hw', ha'⟩ := alarms w hw a ha
    exact hs.ahead w' hw' a ha'

/-- What leaves the workers alone besides. -/
theorem of_same_workers (hs : s.Timely t) (now : s'.now = s.now)
    (journal : s'.journal = s.journal) (workers : s'.workers = s.workers) : s'.Timely t :=
  hs.of_same now journal fun w hw _ ha => ⟨w, workers ▸ hw, ha⟩

/-! ### Functions that leave the tasks alone -/

theorem record (hs : s.Timely t) (r : LogRecord) : (s.record r).Timely t :=
  hs.of_same_workers rfl rfl rfl

theorem trace (hs : s.Timely t) (run : Execution) (isEnd : Bool) : (s.trace run isEnd).Timely t :=
  hs.of_same_workers rfl rfl rfl

theorem numberSweep (hs : s.Timely t) : s.numberSweep.Timely t := hs.of_same_workers rfl rfl rfl

theorem wake (hs : s.Timely t) (id : Nat) : (s.wake id).Timely t := by
  unfold Scheduler.wake
  split
  · exact hs
  · exact hs.of_same_workers rfl rfl rfl

theorem foldl {α : Type} {f : Scheduler → α → Scheduler} {s : Scheduler}
    (step : ∀ (s : Scheduler) (x : α), s.Timely t → (f s x).Timely t) (hs : s.Timely t)
    (xs : List α) : (xs.foldl f s).Timely t :=
  List.foldlRecOn xs f hs fun s h x _ => step s x h

theorem spawn (hs : s.Timely t) (duty : Duty) : (s.spawn duty).Timely t := by
  refine hs.of_same rfl rfl fun w hw a ha => ?_
  rcases List.mem_append.mp hw with hw | hw
  · exact ⟨w, hw, ha⟩
  · rw [List.mem_singleton.mp hw] at ha
    cases ha

theorem spawnPollers (hs : s.Timely t) (n : Nat) : (Scheduler.spawnPollers n s).Timely t := by
  induction n generalizing s with
  | zero => exact hs
  | succ n ih => exact ih (hs.spawn (.poll s.nextJitter 0))

theorem ensurePollers (hs : s.Timely t) (outside : Bool) : (s.ensurePollers outside).Timely t := by
  unfold Scheduler.ensurePollers
  split
  · exact hs
  · split
    · exact hs.record _
    · have spawned := hs.spawnPollers s.config.pollers
      have started : Timely t
          { Scheduler.spawnPollers s.config.pollers s with hasPollers := true } :=
        spawned.of_same_workers rfl rfl rfl
      exact started.record _

theorem invokeLater (hs : s.Timely t) (command : Command) (delayMs : Nat) (outside : Bool) :
    (s.invokeLater command delayMs outside).Timely t := by
  unfold Scheduler.invokeLater
  split
  · exact hs.record _
  · exact hs.spawn _

theorem stop (hs : s.Timely t) : s.stop.Timely t := by
  have marked : Timely t { s with
      hasPollers := false
      workers := s.workers.map fun w => if w.isStoppable then { w with aborted := true } else w } := by
    refine hs.of_same rfl rfl fun w hw a ha => ?_
    obtain ⟨u, hu, rfl⟩ := List.mem_map.mp hw
    refine ⟨u, hu, ?_⟩
    split at ha <;> exact ha
  exact (marked.foldl (fun _ w h => h.wake w.id) _).record _

theorem removeWorker (hs : s.Timely t) (id : Nat) :
    { s with workers := s.workers.filter (·.id ≠ id) }.Timely t :=
  hs.of_same rfl rfl fun w hw _ ha => ⟨w, List.mem_of_mem_filter hw, ha⟩

/-- A worker that lies down sets an alarm that is not past. -/
theorem layDown {time : Nat} (hs : s.Timely t) (ht : t ≤ time) (id order next : Nat) (duty : Duty)
    (stage : Stage) :
    { s with
      nextAlarm := next
      workers := s.workers.map fun w : Worker =>
        if w.id = id then { w with duty, stage, alarm := some ⟨time, order⟩ } else w }.Timely t where
  now := hs.now
  ordered := hs.ordered
  past := hs.past
  ahead w hw a ha := by
    obtain ⟨u, hu, rfl⟩ := List.mem_map.mp hw
    split at ha
    · cases ha
      exact ht
    · exact hs.ahead u hu a ha

/-! ### Requests and runs -/

/-- An event carries the present reading of the clock, or none. -/
theorem enter (hs : s.Timely t) {e : Event Command}
    (he : e.time? = none ∨ e.time? = some s.clock) (tasks : Registry Command) :
    ({ s with tasks }.enter e).Timely t := by
  have readings : Journal.readings ({ s with tasks }.enter e).history =
      Journal.readings s.history ++ e.time?.toList := by
    cases h : e.time? <;> simp [Journal.readings, history, Scheduler.enter, h]
  have last : ∀ r ∈ e.time?.toList, r = s.clock := by
    rcases he with he | he <;> simp [he]
  refine ⟨hs.now, ?_, fun r hr => ?_, hs.ahead⟩
  · rw [readings, List.pairwise_append]
    refine ⟨hs.ordered, ?_, fun r hr r' hr' => ?_⟩
    · cases e.time? <;> simp
    · rw [last r' hr']
      exact hs.past r hr
  · rw [readings] at hr
    rcases List.mem_append.mp hr with hr | hr
    · exact hs.past r hr
    · exact Nat.le_of_eq (last r hr)

theorem request (hs : s.Timely t) (r : Request) : (s.request r).Timely t := by
  have entered := hs.enter (e := .requested r.name r.command r.quietMs) (.inl rfl)
    (s.tasks.request r.name r.command r.quietMs)
  exact (entered.record _).ensurePollers r.outside

theorem enterStart (hs : s.Timely t) (run : Execution) : (s.enterStart run).Timely t := by
  unfold Scheduler.enterStart
  split
  · exact hs.enter (.inr rfl) s.tasks
  · exact hs

theorem begin (hs : s.Timely t) (run : Execution) : (s.begin run).Timely t := by
  have requested : (run.command.requests.foldl (fun s r => s.request r)
      ((s.enterStart run).trace run false)).Timely t :=
    ((hs.enterStart run).trace run false).foldl (fun _ r h => h.request r) _
  unfold Scheduler.begin
  simp only
  split
  · exact requested.stop
  · exact requested

theorem finish (hs : s.Timely t) (run : Execution) : (s.finish run).Timely t := by
  unfold Scheduler.finish
  split
  · exact hs.enter (.inr rfl) _
  · exact hs

theorem conclude (hs : s.Timely t) (run : Execution) : (s.conclude run).Timely t := by
  unfold Scheduler.conclude
  cases run.command.outcome.fault? with
  | some fault => exact (hs.record _).finish run
  | none => exact ((hs.trace run true).record _).finish run

/-! ### Sweeps -/

theorem visitTask (hs : s.Timely t) (v : Visit) : (s.visitTask v).2.Timely t := by
  unfold Scheduler.visitTask
  cases s.tasks.claim? v.name s.clock with
  | none => exact hs.enter (.inr rfl) s.tasks
  | some x =>
    have claimed : Scheduler.Timely t { s with tasks := x.2 } := hs.of_same_workers rfl rfl rfl
    exact claimed.begin _

theorem visit (hs : s.Timely t) (k : Nat) (names : List String) (n : Nat) :
    (Scheduler.visit k names n s).1.Timely t := by
  induction names generalizing n s with
  | nil => exact hs
  | cons name rest ih =>
    have visited := hs.visitTask ⟨k, name⟩
    unfold Scheduler.visit
    cases hv : s.visitTask ⟨k, name⟩ with
    | mk run? s' =>
      rw [hv] at visited
      cases run? with
      | none => exact ih visited n
      | some run =>
        by_cases hz : run.command.sleepMs = 0
        · simp only [hz, if_true]
          exact ih (visited.conclude run) (n + 1)
        · simp only [hz, if_false]
          exact visited

theorem beginSweep (hs : s.Timely t) : s.beginSweep.1.Timely t := hs.numberSweep.visit _ _ 0

/-! ### The turn of a worker -/

/-- Each tick is later than the one before, so the fuel lasts until one lies ahead. -/
theorem serveTicks (hs : s.Timely t) (jitterMs : Nat) {fuel due : Nat} (hf : t < due + fuel) :
    (Scheduler.serveTicks jitterMs fuel due s).1.Timely t ∧
      (Scheduler.serveTicks jitterMs fuel due s).2.Ahead t := by
  induction fuel generalizing due s with
  | zero => exact ⟨hs, Nat.le_of_lt hf⟩
  | succ fuel ih =>
    unfold Scheduler.serveTicks
    by_cases hd : s.now < due
    · simp only [hd, if_true]
      refine ⟨hs, ?_⟩
      rw [hs.now] at hd
      exact Nat.le_of_lt hd
    · simp only [hd, if_false]
      have swept := hs.beginSweep
      have later : due < Worker.tickAfter (s.period + jitterMs) due s.now :=
        Worker.lt_tickAfter (by unfold period; omega) s.now
      cases hb : s.beginSweep with
      | mk s' p =>
        rw [hb] at swept
        cases p with
        | asleep run rest n =>
          refine ⟨swept, ?_⟩
          rw [← swept.now]
          exact Nat.le_add_right _ _
        | «over» n => exact ih swept (by omega)

theorem poll (hs : s.Timely t) (jitterMs due : Nat) :
    (s.poll jitterMs due).1.Timely t ∧ (s.poll jitterMs due).2.Ahead t := by
  have fuel : t < due + (s.now - due + 1) := by
    rw [hs.now]
    omega
  exact hs.serveTicks jitterMs fuel

theorem afterVisit {p : Scheduler × SweepProgress} (hs : p.1.Timely t) (duty : Duty) :
    (Scheduler.afterVisit duty p).1.Timely t ∧ (Scheduler.afterVisit duty p).2.Ahead t := by
  obtain ⟨s, p⟩ := p
  cases p with
  | asleep run rest n =>
    refine ⟨hs, ?_⟩
    rw [← hs.now]
    exact Nat.le_add_right _ _
  | «over» n =>
    cases duty with
    | poll jitterMs due => exact poll hs jitterMs due
    | sweep runner => exact ⟨hs.of_same_workers rfl rfl rfl, trivial⟩
    | delayed command delayMs => exact ⟨hs, trivial⟩

theorem runDelayed (hs : s.Timely t) (command : Command) :
    (s.runDelayed command).1.Timely t ∧ (s.runDelayed command).2.Ahead t := by
  have begun := hs.begin ⟨none, command, s.now⟩
  unfold Scheduler.runDelayed
  by_cases hz : command.sleepMs = 0
  · simp only [hz, if_true]
    exact ⟨begun.conclude _, trivial⟩
  · simp only [hz, if_false]
    refine ⟨begun, ?_⟩
    rw [← begun.now]
    exact Nat.le_add_right _ _

theorem goOn (hs : s.Timely t) (w : Worker) : (s.goOn w).1.Timely t ∧ (s.goOn w).2.Ahead t := by
  obtain ⟨id, duty, stage, alarm, aborted⟩ := w
  cases stage with
  | asleep run rest n =>
    cases hv : run.visit with
    | some v =>
      simp only [Scheduler.goOn, hv]
      exact afterVisit ((hs.conclude run).visit _ _ _) duty
    | none =>
      simp only [Scheduler.goOn, hv]
      exact afterVisit (p := (_, .over (n + 1))) (hs.conclude run) duty
  | fresh =>
    cases duty with
    | poll jitterMs due => exact hs.poll jitterMs s.now
    | sweep runner => exact hs.beginSweep.afterVisit _
    | delayed command delayMs =>
      unfold Scheduler.goOn
      by_cases hz : delayMs = 0
      · simp only [hz, if_true]
        exact hs.runDelayed command
      · simp only [hz, if_false]
        refine ⟨hs, ?_⟩
        rw [← hs.now]
        exact Nat.le_add_right _ _
  | waiting =>
    cases duty with
    | poll jitterMs due => exact hs.poll jitterMs due
    | sweep runner => exact hs.beginSweep.afterVisit _
    | delayed command delayMs => exact hs.runDelayed command

theorem cancel (hs : s.Timely t) (id : Nat) (stage : Stage) : (s.cancel id stage).Timely t := by
  have removed := hs.removeWorker id
  cases stage with
  | fresh => exact removed
  | waiting => exact removed
  | asleep run rest n => exact removed.finish run

theorem settle {p : Scheduler × Progress} (hs : p.1.Timely t) (hp : p.2.Ahead t) (id : Nat) :
    (Scheduler.settle id p).Timely t := by
  obtain ⟨s, p⟩ := p
  cases p with
  | still duty stage time =>
    by_cases aborted : s.isAborted id = true
    · simp only [Scheduler.settle, aborted, if_true]
      exact cancel hs id stage
    · simp only [Scheduler.settle, aborted]
      exact layDown hs hp id s.nextAlarm _ duty stage
  | «over» => exact removeWorker hs id

theorem resume (hs : s.Timely t) (id : Nat) : (s.resume id).Timely t := by
  unfold Scheduler.resume
  split
  · exact hs
  · split
    · exact hs.cancel id _
    · exact settle (hs.goOn _).1 (hs.goOn _).2 id

/-! ### Time -/

theorem resumeReady (hs : s.Timely t) (fuel : Nat) : (Scheduler.resumeReady fuel s).Timely t := by
  induction fuel generalizing s with
  | zero => exact hs
  | succ fuel ih =>
    unfold Scheduler.resumeReady
    cases s.ready with
    | nil => exact hs
    | cons id rest =>
      have taken : Scheduler.Timely t { s with ready := rest } := hs.of_same_workers rfl rfl rfl
      exact ih (taken.resume id)

theorem settleAll (hs : s.Timely t) : s.settleAll.Timely t := hs.resumeReady s.turns

/-- The clock moves on, and the alarms that it passes are gone. -/
theorem moveTo (hs : s.Timely t) {time : Nat} (ht : t ≤ time) : (s.moveTo time).Timely time := by
  have moved : Timely time { s with
      now := time
      workers := s.workers.map fun w =>
        if w.alarm.any (·.time ≤ time) then { w with alarm := none } else w } := by
    refine ⟨rfl, hs.ordered, fun r hr => ?_, fun w hw a ha => ?_⟩
    · have now := hs.now
      have past : r ≤ min s.now Task.clockEnd := hs.past r hr
      change r ≤ min time Task.clockEnd
      omega
    · obtain ⟨u, hu, rfl⟩ := List.mem_map.mp hw
      split at ha
      · cases ha
      · rename_i passed
        rw [ha] at passed
        simp only [Option.any_some, decide_eq_true_eq] at passed
        omega
  exact moved.foldl (fun _ x h => h.wake x.2) _

theorem le_nextAlarm (hs : s.Timely t) {next : Nat} (hn : s.nextAlarm? = some next) : t ≤ next := by
  unfold Scheduler.nextAlarm? at hn
  obtain ⟨a, ha, rfl⟩ := List.mem_map.mp (List.min?_mem hn)
  obtain ⟨w, hw, hwa⟩ := List.mem_filterMap.mp ha
  exact hs.ahead w hw a hwa

theorem workUntil (hs : s.Timely t) {time : Nat} (ht : t ≤ time) (fuel : Nat) :
    (Scheduler.workUntil time fuel s).Timely time := by
  induction fuel generalizing t s with
  | zero => exact hs.moveTo ht
  | succ fuel ih =>
    have settled := hs.settleAll
    unfold Scheduler.workUntil
    simp only
    split
    · rename_i next hn
      split
      · rename_i hlt
        exact ih (settled.moveTo (settled.le_nextAlarm hn)) (Nat.le_of_lt hlt)
      · exact settled.moveTo ht
    · exact settled.moveTo ht

theorem wait (hs : s.Timely t) (ms : Nat) : (s.wait ms).Timely (t + ms) := by
  unfold Scheduler.wait
  rw [hs.now]
  exact hs.workUntil (Nat.le_add_right t ms) _

theorem advance (hs : s.Timely t) (ms : Nat) : (s.advance ms).Timely (t + ms) :=
  (hs.wait ms).settleAll

theorem visitAndWait (hs : s.Timely t) (k : Nat) (names : List String) (n : Nat) :
    ∃ t', t ≤ t' ∧ (Scheduler.visitAndWait k names n s).2.Timely t' := by
  induction names generalizing t n s with
  | nil => exact ⟨t, Nat.le_refl _, hs⟩
  | cons name rest ih =>
    have visited := hs.visitTask ⟨k, name⟩
    unfold Scheduler.visitAndWait
    cases hv : s.visitTask ⟨k, name⟩ with
    | mk run? s' =>
      rw [hv] at visited
      cases run? with
      | none => exact ih visited n
      | some run =>
        have waited : (if run.command.sleepMs = 0 then s'
            else s'.wait run.command.sleepMs).Timely (t + run.command.sleepMs) := by
          split
          · rename_i hz
            rw [hz]
            exact visited
          · exact visited.wait _
        obtain ⟨t', ht', hs'⟩ := ih (waited.conclude run) (n + 1)
        exact ⟨t', by omega, hs'⟩

/-- Whatever is asked of the scheduler, its clock does not go back. -/
theorem run (hs : s.Timely t) (op : Operation) : ∃ t', t ≤ t' ∧ (op.run s).Timely t' := by
  cases op with
  | request r => exact ⟨t, Nat.le_refl _, hs.request r⟩
  | invokeLater command delayMs outside =>
    exact ⟨t, Nat.le_refl _, hs.invokeLater command delayMs outside⟩
  | sweep => exact hs.numberSweep.visitAndWait _ _ 0
  | spawnSweep runner => exact ⟨t, Nat.le_refl _, hs.spawn _⟩
  | advance ms => exact ⟨t + ms, Nat.le_add_right t ms, hs.advance ms⟩
  | stop => exact ⟨t, Nat.le_refl _, hs.stop⟩
  | takeReports => exact ⟨t, Nat.le_refl _, hs.of_same_workers rfl rfl rfl⟩

end Timely

theorem Reachable.timely {config : SchedulerConfig} {chance : Chance} {s : Scheduler}
    (hr : Reachable config chance s) : s.Timely s.now := by
  have exists_timely : ∃ t, s.Timely t := by
    induction hr with
    | make => exact ⟨0, .make config chance⟩
    | step op _ ih =>
      obtain ⟨t, hs⟩ := ih
      obtain ⟨t', -, hs'⟩ := hs.run op
      exact ⟨t', hs'⟩
  obtain ⟨t, hs⟩ := exists_timely
  have ht := hs.now
  subst ht
  exact hs

end Scheduler

end Triage
