import Triage.Proofs.Schedule.Requests
import Triage.Proofs.Schedule.Workers

/-!
# Last request wins

A run of the scheduler is any sequence of what callers ask of it, with all that workers do in
between, in whatever order sweeps come to the tasks and whatever the jitter of the pollers.  The
journal of every run tells what became of each request.
-/

namespace Triage

/-- The worker lies inside a run of the named task. -/
def Worker.IsRunning (w : Worker) (name : String) : Prop :=
  ∃ run rest n, w.stage = .asleep run rest n ∧ run.task = some name

namespace Scheduler

/-- What a caller asks of a scheduler. -/
inductive Operation where
  | request (r : Request)
  | invokeLater (command : Command) (delayMs : Nat) (outside : Bool)
  | sweep
  | spawnSweep (runner : String)
  | advance (ms : Nat)
  | stop
  | takeReports

def Operation.run : Operation → Scheduler → Scheduler
  | request r, s => s.request r
  | invokeLater command delayMs outside, s => s.invokeLater command delayMs outside
  | sweep, s => s.sweep.2
  | spawnSweep runner, s => s.spawnSweep runner
  | advance ms, s => s.advance ms
  | stop, s => s.stop
  | takeReports, s => s.takeReports

/-- The states that a scheduler comes to, when what is left to chance falls out as given. -/
inductive Reachable (config : SchedulerConfig) (chance : Chance) : Scheduler → Prop
  | make : Reachable config chance (.make config chance)
  | step {s : Scheduler} (op : Operation) :
      Reachable config chance s → Reachable config chance (op.run s)

theorem Sound.run {s : Scheduler} {before : List (Event Command)} (hs : s.Sound before [] none)
    (op : Operation) : (op.run s).Sound before [] none := by
  cases op with
  | request r => exact hs.request r
  | invokeLater command delayMs outside =>
    simp only [Operation.run, invokeLater]
    split
    · exact hs.record _
    · exact hs.spawn _
  | sweep => exact hs.sweep
  | spawnSweep runner => exact hs.spawn _
  | advance ms => exact hs.advance ms
  | stop => exact hs.stop
  | takeReports => exact ⟨hs.begins, hs.journal, hs.roster⟩

theorem Reachable.sound {config : SchedulerConfig} {chance : Chance} {s : Scheduler}
    (hr : Reachable config chance s) : s.Sound [] [] none := by
  induction hr with
  | make => exact .make config chance
  | step op _ ih => exact ih.run op

/-- Between operations the runs in progress are those that workers lie in. -/
theorem Sound.inProgress_iff {s : Scheduler} {before : List (Event Command)}
    (hs : s.Sound before [] none) (name : String) :
    Journal.InProgress s.history name ↔ ∃ w ∈ s.workers, w.IsRunning name := by
  have mem : ∀ σ, σ ∈ sessions none s.workers ↔ ∃ w ∈ s.workers, w.stage.session? = some σ := by
    simp [sessions]
  constructor
  · rintro ⟨v, hn, ho⟩
    obtain ⟨σ, hσ, hv⟩ := (hs.journal.inside v).mp ho
    obtain ⟨w, hw, hσ⟩ := (mem σ).mp hσ
    refine ⟨w, hw, ?_⟩
    cases hst : w.stage with
    | fresh => simp [hst, Stage.session?] at hσ
    | waiting => simp [hst, Stage.session?] at hσ
    | asleep run rest n =>
      rw [hst] at hσ
      obtain ⟨u, hu, rfl⟩ := Option.map_eq_some_iff.mp hσ
      have huv : u = v := by simpa [Session.visit?] using hv
      exact ⟨run, rest, n, hst, by simp [Execution.task, hu, huv, hn]⟩
  · rintro ⟨w, hw, run, rest, n, hst, ht⟩
    obtain ⟨v, hv, hn⟩ := Option.map_eq_some_iff.mp ht
    refine ⟨v, hn, (hs.journal.inside v).mpr ⟨⟨v.sweep, some v.name, rest⟩, ?_, rfl⟩⟩
    exact (mem _).mpr ⟨w, hw, by simp [hst, Stage.session?, hv]⟩

theorem history_spawnPollers (n : Nat) (s : Scheduler) :
    (spawnPollers n s).history = s.history := by
  induction n generalizing s with
  | zero => rfl
  | succ n ih => exact ih _

theorem history_request (s : Scheduler) (r : Request) :
    (s.request r).history = s.history ++ [.requested r.name r.command r.quietMs] := by
  have pollers : ∀ s : Scheduler, (s.ensurePollers r.outside).history = s.history := by
    intro s
    unfold ensurePollers
    split
    · rfl
    · split
      · rfl
      · exact history_spawnPollers _ s
  rw [request, pollers]
  simp [record, enter, history]

open Journal in
/-- What becomes of requests, by the history of a scheduler. -/
structure HonoursRequests (s : Scheduler) : Prop where
  /-- Whatever is asked of the scheduler, the history only grows. -/
  grows : ∀ op : Operation, s.history <+: (op.run s).history
  /-- A request enters the history. -/
  requested : ∀ r : Request,
    (s.request r).history = s.history ++ [.requested r.name r.command r.quietMs]
  /-- A sweep of a caller comes to every task that there is when it begins. -/
  visits : ∀ name ∈ s.tasks.names, ∃ time taken,
    .visited ⟨s.nextSweep, name⟩ time taken ∈ s.sweep.2.history
  /-- A command is executed at most once. -/
  once : ∀ i j j', Executes s.history i j → Executes s.history i j' → j = j'
  /-- The command that is taken is the one that was last requested under the name before. -/
  last : ∀ j v command, Takes s.history j v command →
    ∃ i, LastRequest s.history j v.name i command
  /-- A command that is replaced before it is taken is never executed. -/
  replaced : ∀ i i' name command command', Requests s.history i name command →
    Requests s.history i' name command' → i < i' →
    (∀ m v c, i < m → m < i' → v.name = name → ¬ Takes s.history m v c) →
    ∀ j, ¬ Executes s.history i j
  /-- A sweep comes to a task once, whatever is requested in the meantime. -/
  sweeps : ∀ (j j' : Nat) (v : Visit) (time time' : Nat) (taken taken' : Option Command),
    s.history[j]? = some (.visited v time taken) →
    s.history[j']? = some (.visited v time' taken') → j = j'
  /-- The last request of a name is pending until it is taken, and a look at the task sees it. -/
  pending : ∀ i name command, Standing s.history i name command →
    ∃ t, s.tasks.find? name = some t ∧ t.pending = some command ∧ t.hasPending = true
  /-- It is taken by the first visit that finds no run in progress and the quiet period over. -/
  taken : ∀ (i j : Nat) (v : Visit) (time : Nat) (taken : Option Command) (command : Command),
    s.history[j]? = some (.visited v time taken) →
    Standing (s.history.take j) i v.name command →
    (Due (s.history.take j) v.name time → taken = some command) ∧
      (¬ Due (s.history.take j) v.name time → taken = none)
  /-- However a run ends or is aborted, it is in progress only as long as a worker lies in it. -/
  inProgress : ∀ name, InProgress s.history name ↔ ∃ w ∈ s.workers, w.IsRunning name

/-- Last request wins, nothing is lost and nothing runs twice. -/
theorem Reachable.honours_requests {config : SchedulerConfig} {chance : Chance} {s : Scheduler}
    (hr : Reachable config chance s) : s.HonoursRequests := by
  have sound := hr.sound
  have leads := sound.journal.leads
  constructor
  case grows =>
    intro op
    exact (sound.rebase.run op).begins
  case requested => exact s.history_request
  case visits => exact sound.sweep_visits
  case once =>
    intro i j j' he he'
    exact leads.executes_once he he'
  case last =>
    intro j v command ht
    exact leads.exists_lastRequest ht
  case replaced =>
    intro i i' name command command' hi hi' hlt untaken j
    exact Journal.not_executes_of_replaced hi hi' hlt untaken
  case sweeps =>
    intro j j' v time time' taken taken' hj hj'
    exact leads.visit_once hj hj'
  case pending =>
    intro i name command hs
    exact leads.pending_of_standing hs
  case taken =>
    intro i j v time taken command hj hs
    exact leads.visit_of_standing hj hs
  case inProgress => exact sound.inProgress_iff

/-- The first request is replaced.  The command of the second one requests the task again and
crashes, and the next sweep runs what it requested. -/
theorem Reachable.honours_requests_rerun :
    let second : Command := ⟨"second", [], false, 0, .success⟩
    let first : Command := ⟨"first", [⟨"rerun", 0, second, false⟩], false, 0, .crash none⟩
    ∃ s, Reachable ⟨0, 0, 0⟩ .plain s ∧ s.HonoursRequests ∧
      s.history = [.requested "rerun" second 5000, .requested "rerun" first 0,
        .visited ⟨0, "rerun"⟩ 0 (some first), .requested "rerun" second 0, .ended ⟨0, "rerun"⟩ 0,
        .visited ⟨1, "rerun"⟩ 0 (some second), .ended ⟨1, "rerun"⟩ 0] ∧
      (∀ j, ¬ Journal.Executes s.history 0 j) := by
  intro second first
  have hr : Reachable ⟨0, 0, 0⟩ .plain _ := .make
  have hr := hr.step (.request ⟨"rerun", 5000, second, false⟩)
  have hr := hr.step (.request ⟨"rerun", 0, first, false⟩)
  have hr := hr.step .sweep
  have hr := hr.step .sweep
  have honours := hr.honours_requests
  refine ⟨_, hr, honours, rfl, ?_⟩
  exact honours.replaced 0 1 "rerun" second first ⟨5000, rfl⟩ ⟨0, rfl⟩ (by decide)
    (fun m v c hm hlt => by omega)

end Scheduler

end Triage
