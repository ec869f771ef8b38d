import Triage.Proofs.Schedule.Sessions
import Triage.Scheduler

/-!
# Workers and the journal

Every function of the scheduler keeps the journal sound.  A sweep is under way in a worker that
lies inside a run, in the worker whose turn it is, or in the caller of the scheduler; the sessions
of the latter two are `held`, and those of the other workers are read off their stages.
-/

namespace Triage

/-- The sweep that lies inside a run. -/
def Stage.session? : Stage → Option Session
  | asleep run rest _ => run.visit.map fun v => ⟨v.sweep, some v.name, rest⟩
  | _ => none

namespace Scheduler

def SweepProgress.session? : SweepProgress → Option Session
  | .over _ => none
  | .asleep run rest n => (Stage.asleep run rest n).session?

def Progress.session? : Progress → Option Session
  | .over => none
  | .still _ stage _ => stage.session?

/-- What has happened to the tasks, first things first. -/
def history (s : Scheduler) : List (Event Command) := s.journal.toList

/-- The sweeps that lie in workers other than the one whose turn it is. -/
def sessions (turn : Option Nat) (workers : List Worker) : List Session :=
  (workers.filter fun w => turn ≠ some w.id).filterMap (·.stage.session?)

/-- The workers are told apart by their numbers, and the one whose turn it is is among them. -/
structure Roster (turn : Option Nat) (nextWorker : Nat) (workers : List Worker) : Prop where
  distinct : (workers.map (·.id)).Nodup
  below : ∀ w ∈ workers, w.id < nextWorker
  present : ∀ id, turn = some id → ∃ w ∈ workers, w.id = id

/-- The journal has begun with the given events and is sound, and so are the workers. -/
structure Sound (before : List (Event Command)) (held : List Session) (turn : Option Nat)
    (s : Scheduler) : Prop where
  begins : before <+: s.history
  journal : Journal.Sound s.history s.tasks s.nextSweep (held ++ sessions turn s.workers)
  roster : Roster turn s.nextWorker s.workers

/-! ### The sessions of the workers -/

section

variable {turn : Option Nat} {ws : List Worker} {w : Worker} {n id : Nat}

/-- A change that leaves every worker its number and its stage goes unnoticed. -/
theorem sessions_map {f : Worker → Worker} (hid : ∀ w, (f w).id = w.id)
    (hstage : ∀ w, (f w).stage = w.stage) : sessions turn (ws.map f) = sessions turn ws := by
  simp only [sessions, List.filter_map, List.filterMap_map]
  simp [Function.comp_def, hid, hstage]

theorem Roster.map {f : Worker → Worker} (hr : Roster turn n ws) (hid : ∀ w, (f w).id = w.id) :
    Roster turn n (ws.map f) where
  distinct := by simpa [Function.comp_def, hid] using hr.distinct
  below w hw := by
    obtain ⟨u, hu, rfl⟩ := List.mem_map.mp hw
    rw [hid]
    exact hr.below u hu
  present id h := by
    obtain ⟨u, hu, rfl⟩ := hr.present id h
    exact ⟨f u, List.mem_map_of_mem hu, hid u⟩

theorem sessions_concat (h : w.stage.session? = none) :
    sessions turn (ws ++ [w]) = sessions turn ws := by
  by_cases ht : turn = some w.id
  · simp [sessions, ht]
  · simp [sessions, ht, h]

theorem Roster.spawn {duty : Duty} (hr : Roster turn n ws) :
    Roster turn (n + 1) (ws ++ [⟨n, duty, .fresh, none, false⟩]) where
  distinct := by
    rw [List.map_append, List.nodup_append]
    refine ⟨hr.distinct, List.nodup_singleton n, ?_⟩
    intro a ha b hb
    obtain ⟨w, hw, rfl⟩ := List.mem_map.mp ha
    rw [List.mem_singleton.mp hb]
    exact Nat.ne_of_lt (hr.below w hw)
  below w hw := by
    rcases List.mem_append.mp hw with hw | hw
    · exact Nat.lt_succ_of_lt (hr.below w hw)
    · rw [List.mem_singleton.mp hw]
      exact Nat.lt_succ_self n
  present id h := by
    obtain ⟨w, hw, hid⟩ := hr.present id h
    exact ⟨w, List.mem_append_left _ hw, hid⟩

/-- When a worker has its turn, its session is no longer read off its stage. -/
theorem sessions_turn (hd : (ws.map (·.id)).Nodup) (hw : w ∈ ws) :
    (sessions none ws).Perm (w.stage.session?.toList ++ sessions (some w.id) ws) := by
  induction ws with
  | nil => simp at hw
  | cons u us ih =>
    obtain ⟨notMem, hd⟩ := List.nodup_cons.mp hd
    rcases List.mem_cons.mp hw with rfl | hw
    · have others : ∀ u ∈ us, w.id ≠ u.id := by
        intro u hu he
        exact notMem (List.mem_map.mpr ⟨u, hu, he.symm⟩)
      have all : us.filter (fun u => decide (some w.id ≠ some u.id)) = us := by
        rw [List.filter_eq_self]
        simpa using others
      simp only [sessions, List.filter_cons, all]
      cases hs : w.stage.session? <;> simp [hs]
    · have hne : w.id ≠ u.id := by
        intro he
        exact notMem (List.mem_map.mpr ⟨w, hw, he⟩)
      have := ih hd hw
      simp only [sessions, List.filter_cons] at this ⊢
      cases hs : u.stage.session? with
      | none => simpa [hs, hne] using this
      | some σ =>
        simp only [hs, List.filterMap_cons, ne_eq, reduceCtorEq, not_false_eq_true, decide_true,
          if_true, Option.some.injEq, hne] at this ⊢
        exact (this.cons σ).trans List.perm_middle.symm

/-- What happens to the worker whose turn it is goes unnoticed by the others. -/
theorem sessions_map_turn {f : Worker → Worker} (hid : ∀ w, (f w).id = w.id)
    (hf : ∀ w, w.id ≠ id → f w = w) : sessions (some id) (ws.map f) = sessions (some id) ws := by
  induction ws with
  | nil => rfl
  | cons w ws ih =>
    simp only [sessions] at ih ⊢
    by_cases h : w.id = id
    · simpa [hid, h] using ih
    · have stays : (some id ≠ some w.id) = True := by
        simp only [ne_eq, Option.some.injEq, eq_iff_iff, iff_true]
        exact fun he => h he.symm
      simp only [List.map_cons, hf w h, List.filter_cons, stays, decide_true, if_true,
        List.filterMap_cons, ih]

/-- A worker that has gone has no session. -/
theorem sessions_remove : sessions none (ws.filter (·.id ≠ id)) = sessions (some id) ws := by
  simp [sessions, eq_comm]

end

namespace Sound

variable {s : Scheduler} {before : List (Event Command)} {held : List Session}
  {turn : Option Nat} {k : Nat} {name : String} {rest : List String} {run : Execution} {v : Visit}

theorem make (config : SchedulerConfig) (chance : Chance) :
    (Scheduler.make config chance).Sound [] [] none where
  begins := List.nil_prefix
  journal := .nil
  roster := ⟨List.nodup_nil, by simp [Scheduler.make], by simp⟩

/-- The journal has begun with all that it holds by now. -/
theorem rebase (hs : s.Sound before held turn) : s.Sound s.history held turn :=
  ⟨List.prefix_rfl, hs.journal, hs.roster⟩

/-! ### Functions that leave the tasks alone -/

theorem record (hs : s.Sound before held turn) (r : LogRecord) :
    (s.record r).Sound before held turn :=
  ⟨hs.begins, hs.journal, hs.roster⟩

theorem trace (hs : s.Sound before held turn) (run : Execution) (isEnd : Bool) :
    (s.trace run isEnd).Sound before held turn :=
  ⟨hs.begins, hs.journal, hs.roster⟩

theorem wake (hs : s.Sound before held turn) (id : Nat) : (s.wake id).Sound before held turn := by
  unfold Scheduler.wake
  split
  · exact hs
  · exact ⟨hs.begins, hs.journal, hs.roster⟩

theorem foldl {α : Type} {f : Scheduler → α → Scheduler} {s : Scheduler}
    (step : ∀ (s : Scheduler) (x : α), s.Sound before held turn → (f s x).Sound before held turn)
    (hs : s.Sound before held turn) (xs : List α) : (xs.foldl f s).Sound before held turn := by
  induction xs generalizing s with
  | nil => exact hs
  | cons x xs ih => exact ih (step s x hs)

theorem spawn (hs : s.Sound before held turn) (duty : Duty) :
    (s.spawn duty).Sound before held turn where
  begins := hs.begins
  journal := by
    have : sessions turn (s.spawn duty).workers = sessions turn s.workers := sessions_concat rfl
    rw [this]
    exact hs.journal
  roster := hs.roster.spawn

theorem spawnPollers (hs : s.Sound before held turn) (n : Nat) :
    (Scheduler.spawnPollers n s).Sound before held turn := by
  induction n generalizing s with
  | zero => exact hs
  | succ n ih => exact ih (hs.spawn (.poll s.nextJitter 0))

theorem ensurePollers (hs : s.Sound before held turn) (outside : Bool) :
    (s.ensurePollers outside).Sound before held turn := by
  unfold Scheduler.ensurePollers
  split
  · exact hs
  · split
    · exact hs.record _
    · have spawned := hs.spawnPollers s.config.pollers
      have : Sound before held turn
          { Scheduler.spawnPollers s.config.pollers s with hasPollers := true } :=
        ⟨spawned.begins, spawned.journal, spawned.roster⟩
      exact this.record _

/-- Workers that keep their numbers and their stages keep their sweeps. -/
theorem mapWorkers (hs : s.Sound before held turn) {f : Worker → Worker}
    (hid : ∀ w, (f w).id = w.id) (hstage : ∀ w, (f w).stage = w.stage) :
    { s with workers := s.workers.map f }.Sound before held turn where
  begins := hs.begins
  journal := by
    have := hs.journal
    rw [← sessions_map hid hstage] at this
    exact this
  roster := hs.roster.map hid

theorem stop (hs : s.Sound before held turn) : s.stop.Sound before held turn := by
  have marked := hs.mapWorkers
    (f := fun w => if w.isStoppable then { w with aborted := true } else w)
    (fun w => by by_cases h : w.isStoppable = true <;> simp [h])
    (fun w => by by_cases h : w.isStoppable = true <;> simp [h])
  have marked : Sound before held turn { s with
      hasPollers := false
      workers := s.workers.map fun w => if w.isStoppable then { w with aborted := true } else w } :=
    ⟨marked.begins, marked.journal, marked.roster⟩
  exact (marked.foldl (fun _ w h => h.wake w.id) _).record _

theorem moveTo (hs : s.Sound before held turn) (time : Nat) :
    (s.moveTo time).Sound before held turn := by
  have woken := hs.mapWorkers
    (f := fun w => if w.alarm.any (·.time ≤ time) then { w with alarm := none } else w)
    (fun w => by by_cases h : w.alarm.any (·.time ≤ time) = true <;> simp [h])
    (fun w => by by_cases h : w.alarm.any (·.time ≤ time) = true <;> simp [h])
  have woken : Sound before held turn { s with
      now := time
      workers := s.workers.map fun w =>
        if w.alarm.any (·.time ≤ time) then { w with alarm := none } else w } :=
    ⟨woken.begins, woken.journal, woken.roster⟩
  exact woken.foldl (fun _ x h => h.wake x.2) _

/-! ### Requests and runs -/

/-- The journal and the registry go on together. -/
theorem enter (hs : s.Sound before held turn) {held' : List Session} {tasks : Registry Command}
    {e : Event Command} (journal : Journal.Sound (s.history ++ [e]) tasks s.nextSweep
      (held' ++ sessions turn s.workers)) : ({ s with tasks }.enter e).Sound before held' turn where
  begins := by
    have begins := hs.begins.trans (List.prefix_append s.history [e])
    simpa [Scheduler.enter, history] using begins
  journal := by simpa [Scheduler.enter, history] using journal
  roster := hs.roster

theorem request (hs : s.Sound before held turn) (r : Request) :
    (s.request r).Sound before held turn := by
  have entered := hs.enter (hs.journal.requested r.name r.command r.quietMs)
  exact (entered.record _).ensurePollers r.outside

theorem begin (hs : (s.enterStart run).Sound before held turn) :
    (s.begin run).Sound before held turn := by
  have requested : (run.command.requests.foldl (fun s r => s.request r)
      ((s.enterStart run).trace run false)).Sound before held turn :=
    (hs.trace run false).foldl (fun _ r h => h.request r) _
  unfold Scheduler.begin
  simp only
  split
  · exact requested.stop
  · exact requested

/-- The run of a sweep ends, and the sweep goes on. -/
theorem finish (hs : s.Sound before (⟨v.sweep, some v.name, rest⟩ :: held) turn)
    (hv : run.visit = some v) :
    (s.finish run).Sound before (⟨v.sweep, none, rest⟩ :: held) turn := by
  unfold Scheduler.finish
  rw [hv]
  exact hs.enter (hs.journal.ended s.clock)

/-- The run of a delayed command ends. -/
theorem finish_of_none (hs : s.Sound before held turn) (hv : run.visit = none) :
    (s.finish run).Sound before held turn := by
  unfold Scheduler.finish
  rw [hv]
  exact hs

/-- A sweep that is in no run goes away. -/
theorem leave (hs : s.Sound before (⟨k, none, rest⟩ :: held) turn) : s.Sound before held turn :=
  ⟨hs.begins, hs.journal.leave, hs.roster⟩

theorem conclude (hs : s.Sound before (⟨v.sweep, some v.name, rest⟩ :: held) turn)
    (hv : run.visit = some v) :
    (s.conclude run).Sound before (⟨v.sweep, none, rest⟩ :: held) turn := by
  unfold Scheduler.conclude
  cases run.command.outcome.fault? with
  | some fault => exact (hs.record _).finish hv
  | none => exact ((hs.trace run true).record _).finish hv

theorem conclude_of_none (hs : s.Sound before held turn) (hv : run.visit = none) :
    (s.conclude run).Sound before held turn := by
  unfold Scheduler.conclude
  cases run.command.outcome.fault? with
  | some fault => exact (hs.record _).finish_of_none hv
  | none => exact ((hs.trace run true).record _).finish_of_none hv

/-! ### Sweeps -/

theorem visitTask_miss {s' : Scheduler} (hs : s.Sound before (⟨k, none, name :: rest⟩ :: held) turn)
    (h : s.visitTask ⟨k, name⟩ = (none, s')) : s'.Sound before (⟨k, none, rest⟩ :: held) turn := by
  unfold Scheduler.visitTask at h
  cases hc : s.tasks.claim? name s.clock with
  | some x => simp [hc] at h
  | none =>
    simp only [hc, Prod.mk.injEq, true_and] at h
    subst h
    exact hs.enter (hs.journal.missed hc)

theorem visitTask_take {s' : Scheduler} (hs : s.Sound before (⟨k, none, name :: rest⟩ :: held) turn)
    (h : s.visitTask ⟨k, name⟩ = (some run, s')) :
    run.visit = some ⟨k, name⟩ ∧ s'.Sound before (⟨k, some name, rest⟩ :: held) turn := by
  unfold Scheduler.visitTask at h
  cases hc : s.tasks.claim? name s.clock with
  | none => simp [hc] at h
  | some x =>
    obtain ⟨command, tasks⟩ := x
    simp only [hc, Prod.mk.injEq, Option.some.injEq] at h
    obtain ⟨rfl, rfl⟩ := h
    have entered : Sound before (⟨k, some name, rest⟩ :: held) turn
        ({ s with tasks }.enterStart ⟨some ⟨k, name⟩, command, s.now⟩) :=
      hs.enter (hs.journal.taken hc)
    exact ⟨rfl, entered.begin⟩

theorem visit {names : List String} (hs : s.Sound before (⟨k, none, names⟩ :: held) turn)
    (n : Nat) : (Scheduler.visit k names n s).1.Sound before
      ((Scheduler.visit k names n s).2.session?.toList ++ held) turn := by
  induction names generalizing n s with
  | nil => exact hs.leave
  | cons name rest ih =>
    unfold Scheduler.visit
    cases hv : s.visitTask ⟨k, name⟩ with
    | mk run? s' =>
      cases run? with
      | none => exact ih (hs.visitTask_miss hv) n
      | some run =>
        obtain ⟨hrun, hs'⟩ := hs.visitTask_take hv
        by_cases hz : run.command.sleepMs = 0
        · simp only [hz, if_true]
          exact ih (hs'.conclude hrun) (n + 1)
        · simp only [hz, if_false]
          simpa [SweepProgress.session?, Stage.session?, hrun] using hs'

theorem numberSweep (hs : s.Sound before held turn) :
    s.numberSweep.Sound before (⟨s.nextSweep, none, s.visitOrder⟩ :: held) turn :=
  ⟨hs.begins, hs.journal.begin s.visitOrder_perm, hs.roster⟩

theorem beginSweep (hs : s.Sound before held turn) :
    s.beginSweep.1.Sound before (s.beginSweep.2.session?.toList ++ held) turn :=
  hs.numberSweep.visit 0

/-! ### The turn of a worker -/

theorem serveTicks (hs : s.Sound before held turn) (jitterMs fuel due : Nat) :
    (Scheduler.serveTicks jitterMs fuel due s).1.Sound before
      ((Scheduler.serveTicks jitterMs fuel due s).2.session?.toList ++ held) turn := by
  induction fuel generalizing due s with
  | zero => exact hs
  | succ fuel ih =>
    unfold Scheduler.serveTicks
    by_cases hd : s.now < due
    · simpa [hd, Progress.session?, Stage.session?] using hs
    · simp only [hd, if_false]
      have swept := hs.beginSweep
      cases hb : s.beginSweep with
      | mk s' p =>
        rw [hb] at swept
        cases p with
        | asleep run rest n => exact swept
        | _ => exact ih swept _

theorem afterVisit {duty : Duty} {p : Scheduler × SweepProgress}
    (hs : p.1.Sound before (p.2.session?.toList ++ held) turn) :
    (Scheduler.afterVisit duty p).1.Sound before
      ((Scheduler.afterVisit duty p).2.session?.toList ++ held) turn := by
  obtain ⟨s, p⟩ := p
  cases p with
  | asleep run rest n => exact hs
  | _ =>
    cases duty with
    | poll jitterMs due => exact serveTicks hs jitterMs _ due
    | sweep runner => exact ⟨hs.begins, hs.journal, hs.roster⟩
    | delayed command delayMs => exact hs

theorem runDelayed (hs : s.Sound before held turn) (command : Command) :
    (s.runDelayed command).1.Sound before
      ((s.runDelayed command).2.session?.toList ++ held) turn := by
  have started : (s.enterStart ⟨none, command, s.now⟩).Sound before held turn := hs
  have begun := started.begin
  unfold Scheduler.runDelayed
  by_cases hz : command.sleepMs = 0
  · simp only [hz, if_true]
    exact begun.conclude_of_none rfl
  · simp only [hz, if_false]
    exact begun

theorem goOn {w : Worker} (hs : s.Sound before (w.stage.session?.toList ++ held) turn) :
    (s.goOn w).1.Sound before ((s.goOn w).2.session?.toList ++ held) turn := by
  obtain ⟨id, duty, stage, alarm, aborted⟩ := w
  cases stage with
  | asleep run rest n =>
    cases hv : run.visit with
    | some v =>
      simp only [Stage.session?, hv, Option.map_some] at hs
      simp only [Scheduler.goOn, hv]
      have visited := (conclude (s := s) hs hv).visit (n + 1)
      exact visited.afterVisit
    | none =>
      simp only [Stage.session?, hv, Option.map_none] at hs
      simp only [Scheduler.goOn, hv]
      have concluded := conclude_of_none (s := s) hs hv
      exact afterVisit (p := (_, .over (n + 1))) concluded
  | fresh =>
    cases duty with
    | poll jitterMs due => exact serveTicks hs jitterMs _ s.now
    | sweep runner => exact afterVisit hs.beginSweep
    | delayed command delayMs =>
      unfold Scheduler.goOn
      by_cases hz : delayMs = 0
      · simp only [hz, if_true]
        exact hs.runDelayed command
      · simp only [hz, if_false]
        exact hs
  | waiting =>
    cases duty with
    | poll jitterMs due => exact serveTicks hs jitterMs _ due
    | sweep runner => exact afterVisit hs.beginSweep
    | delayed command delayMs => exact hs.runDelayed command

/-- When its turn comes, a worker takes its session out of its stage. -/
theorem takeTurn {w : Worker} (hs : s.Sound before held none) (hw : w ∈ s.workers) :
    s.Sound before (w.stage.session?.toList ++ held) (some w.id) where
  begins := hs.begins
  journal := by
    have order := (sessions_turn hs.roster.distinct hw).append_left held
    refine hs.journal.perm (order.trans ?_)
    rw [← List.append_assoc]
    exact List.perm_append_comm.append_right _
  roster := ⟨hs.roster.distinct, hs.roster.below, fun id h => ⟨w, hw, Option.some.inj h⟩⟩

/-- A worker that is over leaves its session behind. -/
theorem removeWorker {id : Nat} (hs : s.Sound before held (some id)) :
    { s with workers := s.workers.filter (·.id ≠ id) }.Sound before held none where
  begins := hs.begins
  journal := by
    have := hs.journal
    rw [← sessions_remove] at this
    exact this
  roster :=
    { distinct := hs.roster.distinct.sublist (List.filter_sublist.map _)
      below := fun w hw => hs.roster.below w (List.mem_of_mem_filter hw)
      present := by simp }

theorem cancel {id : Nat} {stage : Stage}
    (hs : s.Sound before (stage.session?.toList ++ held) (some id)) :
    (s.cancel id stage).Sound before held none := by
  have removed := hs.removeWorker
  cases stage with
  | fresh => exact removed
  | waiting => exact removed
  | asleep run rest n =>
    cases hv : run.visit with
    | some v =>
      simp only [Stage.session?, hv, Option.map_some] at removed
      exact (finish removed hv).leave
    | none =>
      simp only [Stage.session?, hv, Option.map_none] at removed
      exact removed.finish_of_none hv

/-- A worker that lies down lays its session down in its stage. -/
theorem layDown {id : Nat} {stage : Stage}
    (hs : s.Sound before (stage.session?.toList ++ held) (some id))
    (duty : Duty) (time order : Nat) :
    { s with workers := s.workers.map fun w : Worker =>
      if w.id = id then { w with duty, stage, alarm := some ⟨time, order⟩ } else w }.Sound before
        held none := by
  let f : Worker → Worker := fun w =>
    if w.id = id then { w with duty, stage, alarm := some ⟨time, order⟩ } else w
  have hid : ∀ w, (f w).id = w.id := fun w => by by_cases h : w.id = id <;> simp [f, h]
  have hf : ∀ w, w.id ≠ id → f w = w := fun w h => by simp [f, h]
  have roster : Roster none s.nextWorker (s.workers.map f) :=
    { hs.roster.map hid with present := by simp }
  refine ⟨hs.begins, ?_, roster⟩
  obtain ⟨w, hw, hwid⟩ := hs.roster.present id rfl
  have hstage : (f w).stage = stage := by simp [f, hwid]
  have laid := sessions_turn roster.distinct (List.mem_map_of_mem hw)
  rw [hstage, hid, hwid, sessions_map_turn hid hf] at laid
  refine hs.journal.perm (List.Perm.trans ?_ (laid.symm.append_left held))
  rw [← List.append_assoc]
  exact List.perm_append_comm.append_right _

theorem settle {id : Nat} {p : Scheduler × Progress}
    (hs : p.1.Sound before (p.2.session?.toList ++ held) (some id)) :
    (Scheduler.settle id p).Sound before held none := by
  obtain ⟨s, p⟩ := p
  cases p with
  | still duty stage time =>
    by_cases aborted : s.isAborted id = true
    · simp only [Scheduler.settle, aborted, if_true]
      exact cancel hs
    · simp only [Scheduler.settle, aborted]
      have laid := layDown hs duty time s.nextAlarm
      exact ⟨laid.begins, laid.journal, laid.roster⟩
  | _ => exact hs.removeWorker

/-- A turn leaves the sweeps of everybody else where they are. -/
theorem resume (hs : s.Sound before held none) (id : Nat) :
    (s.resume id).Sound before held none := by
  unfold Scheduler.resume
  cases hf : s.workers.find? (·.id = id) with
  | none => exact hs
  | some w =>
    have hw : w ∈ s.workers := List.mem_of_find?_eq_some hf
    have hid : w.id = id := by
      have := List.find?_some hf
      simpa using this
    subst hid
    have turn := hs.takeTurn hw
    simp only
    split
    · exact turn.cancel
    · exact turn.goOn.settle

/-! ### The clock -/

theorem resumeReady (hs : s.Sound before held none) (fuel : Nat) :
    (Scheduler.resumeReady fuel s).Sound before held none := by
  induction fuel generalizing s with
  | zero => exact hs
  | succ fuel ih =>
    unfold Scheduler.resumeReady
    cases hr : s.ready with
    | nil => exact hs
    | cons id rest =>
      have : Sound before held none { s with ready := rest } := ⟨hs.begins, hs.journal, hs.roster⟩
      exact ih (this.resume id)

theorem settleAll (hs : s.Sound before held none) : s.settleAll.Sound before held none :=
  hs.resumeReady s.turns

theorem workUntil (hs : s.Sound before held none) (time fuel : Nat) :
    (Scheduler.workUntil time fuel s).Sound before held none := by
  induction fuel generalizing s with
  | zero => exact hs.moveTo time
  | succ fuel ih =>
    have settled := hs.settleAll
    unfold Scheduler.workUntil
    simp only
    split
    · split
      · exact ih (settled.moveTo _)
      · exact settled.moveTo time
    · exact settled.moveTo time

theorem wait (hs : s.Sound before held none) (ms : Nat) : (s.wait ms).Sound before held none :=
  hs.workUntil (s.now + ms) (ms + 1)

theorem advance (hs : s.Sound before held none) (ms : Nat) :
    (s.advance ms).Sound before held none :=
  (hs.wait ms).settleAll

/-! ### The sweep of a caller -/

/-- A sweep that comes to a task leaves its visit in the journal. -/
theorem visitTask_visits {run? : Option Execution} {s' : Scheduler}
    (hs : s.Sound before (⟨k, none, name :: rest⟩ :: held) turn)
    (h : s.visitTask ⟨k, name⟩ = (run?, s')) :
    ∃ time taken, .visited ⟨k, name⟩ time taken ∈ s'.history := by
  unfold Scheduler.visitTask at h
  cases hc : s.tasks.claim? name s.clock with
  | none =>
    simp only [hc, Prod.mk.injEq] at h
    obtain ⟨-, rfl⟩ := h
    exact ⟨s.clock, none, by simp [Scheduler.enter, history]⟩
  | some x =>
    obtain ⟨command, tasks⟩ := x
    simp only [hc, Prod.mk.injEq] at h
    obtain ⟨-, rfl⟩ := h
    have entered : Sound before (⟨k, some name, rest⟩ :: held) turn
        ({ s with tasks }.enterStart ⟨some ⟨k, name⟩, command, s.now⟩) :=
      hs.enter (hs.journal.taken hc)
    -- whatever the command does as it begins comes after the visit
    have kept := entered.rebase.begin.begins
    refine ⟨s.clock, some command, kept.subset ?_⟩
    simp [enterStart, Scheduler.enter, history, clock]

/-- The caller waits while the command sleeps, and the run ends. -/
theorem waitAndConclude (hs : s.Sound before (⟨v.sweep, some v.name, rest⟩ :: held) none)
    (hv : run.visit = some v) :
    ((if run.command.sleepMs = 0 then s else s.wait run.command.sleepMs).conclude run).Sound before
      (⟨v.sweep, none, rest⟩ :: held) none := by
  split
  · exact hs.conclude hv
  · exact (hs.wait _).conclude hv

theorem visitAndWait {names : List String} (hs : s.Sound before (⟨k, none, names⟩ :: held) none)
    (n : Nat) : (Scheduler.visitAndWait k names n s).2.Sound before held none := by
  induction names generalizing n s with
  | nil => exact hs.leave
  | cons name rest ih =>
    unfold Scheduler.visitAndWait
    cases hv : s.visitTask ⟨k, name⟩ with
    | mk run? s' =>
      cases run? with
      | none => exact ih (hs.visitTask_miss hv) n
      | some run =>
        obtain ⟨hrun, hs'⟩ := hs.visitTask_take hv
        exact ih (hs'.waitAndConclude hrun) (n + 1)

theorem visitAndWait_visits {names : List String}
    (hs : s.Sound before (⟨k, none, names⟩ :: held) none) (n : Nat) :
    ∀ name ∈ names, ∃ time taken,
      .visited ⟨k, name⟩ time taken ∈ (Scheduler.visitAndWait k names n s).2.history := by
  induction names generalizing before n s with
  | nil => simp
  | cons name rest ih =>
    intro other ho
    unfold Scheduler.visitAndWait
    cases hv : s.visitTask ⟨k, name⟩ with
    | mk run? s' =>
      obtain ⟨time, taken, seen⟩ := hs.visitTask_visits hv
      cases run? with
      | none =>
        have onward := (hs.visitTask_miss hv).rebase
        rcases List.mem_cons.mp ho with rfl | ho
        · exact ⟨time, taken, (onward.visitAndWait n).begins.subset seen⟩
        · exact ih onward n other ho
      | some run =>
        obtain ⟨hrun, hs'⟩ := hs.visitTask_take hv
        have onward := hs'.rebase.waitAndConclude hrun
        rcases List.mem_cons.mp ho with rfl | ho
        · exact ⟨time, taken, (onward.visitAndWait (n + 1)).begins.subset seen⟩
        · exact ih onward (n + 1) other ho

theorem sweep (hs : s.Sound before held none) : s.sweep.2.Sound before held none :=
  hs.numberSweep.visitAndWait 0

/-- A caller's sweep comes to every task that there was when it began. -/
theorem sweep_visits (hs : s.Sound before held none) :
    ∀ name ∈ s.tasks.names, ∃ time taken,
      .visited ⟨s.nextSweep, name⟩ time taken ∈ s.sweep.2.history :=
  fun name hn => hs.numberSweep.visitAndWait_visits 0 name (s.visitOrder_perm.mem_iff.mpr hn)

end Sound

end Scheduler

end Triage
