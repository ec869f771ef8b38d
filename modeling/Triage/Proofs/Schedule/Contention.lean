import Mathlib.Logic.Function.Basic
import Triage.Proofs.Schedule.Registry

/-!
# Sweeps that contend for one task

Sweeps of several threads meet at a named task.  A sweep looks at the task without its lock, so
what it saw may be out of date when it claims; it hands to the claim a time that it read before;
and it reports the end of a run in two stores, between which anybody may act.  `Step` is one atomic
step of anybody, and a run is any interleaving of such steps.

The invariant counts the sweeps that hold the task, from a claim that succeeded to the second store
of the finish.  The status tells whether there is one: only a claim sets it to running, a claim
succeeds only if it is not running, and only the holder sets it to completed.
-/

namespace Triage

namespace Contention

/-- Where a sweep stands with respect to the task. -/
inductive Position (κ : Type) where
  | away
  /-- Has read the clock and is about to look whether the task is eligible. -/
  | looking (clock : Nat)
  /-- Has seen the task eligible. -/
  | tempted
  /-- Has read the clock again and is about to claim. -/
  | claiming (clock : Nat)
  | running (command : κ)
  /-- Has left the run, at its end or by being aborted, and read the clock for the finish. -/
  | finishing (clock : Nat) (aborted : Bool)
  /-- Has stored the time of the finish and not the status. -/
  | closing (aborted : Bool)
  /-- Makes no more steps. -/
  | gone

/-- The sweep is between a claim that succeeded and the completion of its finish. -/
def Position.Holds {κ : Type} : Position κ → Prop
  | running _ | finishing _ _ | closing _ => True
  | _ => False

/-- One task, and the sweeps that share it. -/
structure State (κ ι : Type) where
  clock : Nat
  task : Task κ
  position : ι → Position κ

section

variable {κ ι : Type} [DecidableEq ι]

def State.put (s : State κ ι) (i : ι) (p : Position κ) : State κ ι :=
  { s with position := Function.update s.position i p }

/-- An atomic step of the clock, of somebody who requests a run, or of a sweep. -/
inductive Step : State κ ι → State κ ι → Prop
  | tick (s : State κ ι) (clock : Nat) (later : s.clock ≤ clock) : Step s { s with clock }
  | request (s : State κ ι) (command : κ) (quietMs : Nat) :
      Step s { s with task := s.task.request command quietMs }
  | approach (s : State κ ι) (i : ι) (at_ : s.position i = .away) :
      Step s (s.put i (.looking s.clock))
  | look (s : State κ ι) (i : ι) (clock : Nat) (at_ : s.position i = .looking clock) :
      Step s (s.put i (if s.task.isEligible clock then .tempted else .away))
  | readClock (s : State κ ι) (i : ι) (at_ : s.position i = .tempted) :
      Step s (s.put i (.claiming s.clock))
  | claim (s : State κ ι) (i : ι) (clock : Nat) (command : κ) (task : Task κ)
      (at_ : s.position i = .claiming clock) (taken : s.task.claim? clock = some (command, task)) :
      Step s ({ s with task }.put i (.running command))
  | miss (s : State κ ι) (i : ι) (clock : Nat) (at_ : s.position i = .claiming clock)
      (missed : s.task.claim? clock = none) : Step s (s.put i .away)
  /-- The command ends, well or badly, or the sweep is aborted inside it. -/
  | leaveRun (s : State κ ι) (i : ι) (command : κ) (aborted : Bool)
      (at_ : s.position i = .running command) : Step s (s.put i (.finishing s.clock aborted))
  | recordFinish (s : State κ ι) (i : ι) (clock : Nat) (aborted : Bool)
      (at_ : s.position i = .finishing clock aborted) :
      Step s ({ s with task := s.task.recordFinish clock }.put i (.closing aborted))
  | complete (s : State κ ι) (i : ι) (aborted : Bool) (at_ : s.position i = .closing aborted) :
      Step s ({ s with task := s.task.complete }.put i (if aborted then .gone else .away))
  /-- The sweep has passed its last task, or is aborted outside of a run. -/
  | depart (s : State κ ι) (i : ι) (at_ : s.position i = .away) : Step s (s.put i .gone)

/-- The states of all interleavings that begin with a new task and every sweep away from it. -/
inductive Reachable : State κ ι → Prop
  | start (name : String) (quietMs clock : Nat) :
      Reachable ⟨clock, .make name quietMs, fun _ => .away⟩
  | step {s s' : State κ ι} : Reachable s → Step s s' → Reachable s'

end

variable {κ ι : Type} {s s' : State κ ι}

def State.Held (s : State κ ι) (i : ι) : Prop := (s.position i).Holds

/-- At most one sweep holds the task, and the status says whether one does. -/
structure Exclusive (s : State κ ι) : Prop where
  unique : ∀ i j, s.Held i → s.Held j → i = j
  status : s.task.status = .running ↔ ∃ i, s.Held i

namespace Exclusive

theorem initial (name : String) (quietMs clock : Nat) :
    Exclusive (⟨clock, .make name quietMs, fun _ => .away⟩ : State κ ι) where
  unique i _ hi := by simp [State.Held, Position.Holds] at hi
  status := by simp [Task.make, State.Held, Position.Holds]

/-- Nobody comes to hold the task or ceases to, and the status stays. -/
theorem of_held_iff (h : Exclusive s) (held : ∀ j, s'.Held j ↔ s.Held j)
    (status : s'.task.status = s.task.status) : Exclusive s' where
  unique i j hi hj := h.unique i j ((held i).mp hi) ((held j).mp hj)
  status := by
    rw [status, h.status]
    exact exists_congr fun j => (held j).symm

/-- A sweep takes the task when nobody holds it. -/
theorem acquire (i : ι) (free : ∀ j, ¬ s.Held j) (held : ∀ j, s'.Held j ↔ s.Held j ∨ j = i)
    (status : s'.task.status = .running) : Exclusive s' where
  unique j k hj hk := by
    have hj : j = i := ((held j).mp hj).resolve_left (free j)
    have hk : k = i := ((held k).mp hk).resolve_left (free k)
    rw [hj, hk]
  status := by
    have hi : s'.Held i := (held i).mpr (.inr rfl)
    simp only [status, true_iff]
    exact ⟨i, hi⟩

/-- The holder gives the task back. -/
theorem release (h : Exclusive s) (i : ι) (holder : s.Held i)
    (held : ∀ j, s'.Held j ↔ s.Held j ∧ j ≠ i) (status : s'.task.status ≠ .running) :
    Exclusive s' := by
  have free : ∀ j, ¬ s'.Held j := by
    intro j hj
    obtain ⟨hj, ne⟩ := (held j).mp hj
    exact ne (h.unique j i hj holder)
  exact ⟨fun j _ hj => absurd hj (free j),
    ⟨fun hs => absurd hs status, fun ⟨j, hj⟩ => absurd hj (free j)⟩⟩

end Exclusive

section

variable [DecidableEq ι]

@[simp]
theorem State.task_put (s : State κ ι) (i : ι) (p : Position κ) : (s.put i p).task = s.task := rfl

theorem State.held_put (s : State κ ι) (i j : ι) (p : Position κ) :
    (s.put i p).Held j ↔ if j = i then p.Holds else s.Held j := by
  unfold Held put
  by_cases h : j = i
  · subst h
    simp
  · simp [h]

/-- A sweep that moves on without taking the task or giving it back holds it as before. -/
theorem State.held_put_of_iff {i : ι} {p : Position κ} (h : p.Holds ↔ s.Held i) (j : ι) :
    (s.put i p).Held j ↔ s.Held j := by
  rw [held_put]
  by_cases hj : j = i
  · simp [hj, h]
  · simp [hj]

namespace Exclusive

theorem step (h : Exclusive s) (hs : Step s s') : Exclusive s' := by
  cases hs with
  | tick clock => exact h.of_held_iff (fun _ => .rfl) rfl
  | request command quietMs => exact h.of_held_iff (fun _ => .rfl) rfl
  | approach i at_ =>
    exact h.of_held_iff (State.held_put_of_iff (by simp [State.Held, at_, Position.Holds])) rfl
  | look i clock at_ =>
    refine h.of_held_iff (State.held_put_of_iff ?_) rfl
    by_cases hl : s.task.isEligible clock = true <;> simp [State.Held, at_, hl, Position.Holds]
  | readClock i at_ =>
    exact h.of_held_iff (State.held_put_of_iff (by simp [State.Held, at_, Position.Holds])) rfl
  | claim i clock command task at_ taken =>
    obtain ⟨eligible, -, rfl⟩ := Task.claim?_eq_some.mp taken
    have free : ∀ j, ¬ s.Held j := by
      intro j hj
      exact (Task.isEligible_iff.mp eligible).1 (h.status.mpr ⟨j, hj⟩)
    refine acquire i free (fun j => ?_) rfl
    rw [State.held_put]
    by_cases hj : j = i
    · simp [hj, Position.Holds]
    · simp [hj, State.Held]
  | miss i clock at_ missed =>
    exact h.of_held_iff (State.held_put_of_iff (by simp [State.Held, at_, Position.Holds])) rfl
  | leaveRun i command aborted at_ =>
    exact h.of_held_iff (State.held_put_of_iff (by simp [State.Held, at_, Position.Holds])) rfl
  | recordFinish i clock aborted at_ =>
    exact h.of_held_iff (State.held_put_of_iff (by simp [State.Held, at_, Position.Holds])) rfl
  | complete i aborted at_ =>
    have holder : s.Held i := by simp [State.Held, at_, Position.Holds]
    refine h.release i holder (fun j => ?_) (by simp)
    rw [State.held_put]
    by_cases hj : j = i
    · cases aborted <;> simp [hj, Position.Holds]
    · simp [hj, State.Held]
  | depart i at_ =>
    exact h.of_held_iff (State.held_put_of_iff (by simp [State.Held, at_, Position.Holds])) rfl

end Exclusive

/-- A named task never overlaps itself: in every interleaving at most one sweep is between a claim
that succeeded and the completion of its finish, and the task is running just then. -/
theorem Reachable.never_overlaps (h : Reachable s) :
    (∀ i j, s.Held i → s.Held j → i = j) ∧
      (s.task.status = .running ↔ ∃ i, s.Held i) := by
  suffices Exclusive s from ⟨this.unique, this.status⟩
  induction h with
  | start name quietMs clock => exact .initial name quietMs clock
  | step _ hs ih => exact ih.step hs

end

/-- Two sweeps see the same task eligible.  One claims it, and the claim of the other misses.  The
state lies between the two stores of the finish, when the next request has come already. -/
theorem Reachable.never_overlaps_between_stores :
    ∃ s : State Nat Bool, Reachable s ∧ s.position true = .closing false ∧
      s.position false = .away ∧ s.task.pending = some 8 ∧ s.task.lastFinish = some 5 ∧
      (∀ i, s.Held i ↔ i = true) ∧ s.task.status = .running := by
  have h : Reachable (κ := Nat) (ι := Bool) _ :=
    .step (.start "clustering" 0 0) (.request _ 7 0)
  have h := h.step (.approach _ true rfl)
  have h := h.step (.approach _ false rfl)
  have h := h.step (.look _ true 0 rfl)
  have h := h.step (.look _ false 0 rfl)
  have h := h.step (.readClock _ true rfl)
  have h := h.step (.readClock _ false rfl)
  have h := h.step (.claim _ true 0 7 _ rfl rfl)
  have h := h.step (.miss _ false 0 rfl rfl)
  have h := h.step (.request _ 8 0)
  have h := h.step (.tick _ 5 (Nat.zero_le 5))
  have h := h.step (.leaveRun _ true 7 false rfl)
  have h := h.step (.recordFinish _ true 5 false rfl)
  obtain ⟨unique, status⟩ := h.never_overlaps
  have running := status.mpr ⟨true, trivial⟩
  refine ⟨_, h, rfl, rfl, rfl, rfl, fun i => ⟨fun hi => unique i true hi trivial, ?_⟩, running⟩
  rintro rfl
  exact trivial

end Contention

end Triage
