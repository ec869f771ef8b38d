import Mathlib.Data.List.Nodup
import Triage.Schedule.Registry

/-!
# Tasks and their registry

What the operations do to one task, and for a registry the look-up of every name after each of
them.  No proof about schedules opens the definitions of the operations.
-/

namespace Triage

/-! ### One task -/

namespace Task

variable {κ : Type} {t t' : Task κ} {command : κ} {now : Nat}

@[simp]
theorem status_request (t : Task κ) (command : κ) (quietMs : Nat) :
    (t.request command quietMs).status = t.status := rfl

@[simp]
theorem status_complete (t : Task κ) : t.complete.status = .completed := rfl

/-- What a claim leaves of a task. -/
def claimed (t : Task κ) : Task κ :=
  { t with status := .running, pending := none, hasPending := false }

/-- A claim that succeeds finds an eligible task and its pending command. -/
theorem claim?_eq_some :
    t.claim? now = some (command, t') ↔
      t.isEligible now = true ∧ t.pending = some command ∧ t' = t.claimed := by
  unfold claim? claimed
  by_cases h : t.isEligible now = true
  · cases hp : t.pending with
    | none => simp [h]
    | some pending => simp [h, eq_comm]
  · simp [h]

theorem isEligible_iff :
    t.isEligible now = true ↔
      t.status ≠ .running ∧ t.hasPending = true ∧ t.isQuiet now = true := by
  simp [isEligible, and_assoc]

theorem claim?_eq_none_iff :
    t.claim? now = none ↔ t.isEligible now = false ∨ t.pending = none := by
  unfold claim?
  by_cases h : t.isEligible now = true
  · simp [h]
  · simp [h]

end Task

/-! ### All tasks -/

namespace Registry

variable {κ : Type} {r r' : Registry κ} {t : Task κ} {name : String} {command : κ} {now : Nat}

@[simp]
theorem find?_empty (name : String) : (empty : Registry κ).find? name = none := rfl

@[simp]
theorem names_empty : (empty : Registry κ).names = [] := rfl

theorem name_of_find? (h : r.find? name = some t) : t.name = name := by
  have := List.find?_some h
  simpa using this

theorem find?_eq_none_iff : r.find? name = none ↔ name ∉ r.names := by
  simp [find?, names]

theorem find?_modify {f : Task κ → Task κ} (hf : ∀ t, t.name = name → (f t).name = name)
    (other : String) :
    (r.modify name f).find? other =
      if other = name then (r.find? name).map f else r.find? other := by
  obtain ⟨ts⟩ := r
  unfold modify find?
  simp only
  induction ts with
  | nil => simp
  | cons t ts ih =>
    by_cases ht : t.name = name
    · have hft : (f t).name = name := hf t ht
      by_cases ho : other = name
      · simp [ht, hft, ho]
      · have hn : ¬ name = other := fun h => ho h.symm
        simp only [List.map_cons, ht, if_true, List.find?_cons, hft, hn, decide_false, ho, if_false]
        simpa [ho] using ih
    · by_cases hto : t.name = other
      · have ho : ¬ other = name := fun h => ht (hto.trans h)
        simp [hto, ho]
      · simp only [List.map_cons, ht, if_false, List.find?_cons, hto, decide_false]
        exact ih

theorem names_modify {f : Task κ → Task κ} (hf : ∀ t, t.name = name → (f t).name = name) :
    (r.modify name f).names = r.names := by
  unfold modify names
  simp only [List.map_map]
  refine List.map_congr_left fun t _ => ?_
  by_cases ht : t.name = name
  · simp [ht, hf t ht]
  · simp [ht]

/-- A request reaches the named task, which is made if there is none, and no other. -/
theorem find?_request (r : Registry κ) (name : String) (command : κ) (quietMs : Nat)
    (other : String) :
    (r.request name command quietMs).find? other =
      if other = name then
        some (((r.find? name).getD (.make name quietMs)).request command quietMs)
      else r.find? other := by
  unfold request
  cases h : r.find? name with
  | some t =>
    have hf : ∀ t : Task κ, t.name = name → (t.request command quietMs).name = name :=
      fun _ ht => ht
    simp only [find?_modify hf, h, Option.map_some, Option.getD_some]
  | none =>
    unfold find? at h ⊢
    simp only [List.find?_append, List.find?_singleton, Option.getD_none]
    by_cases ho : other = name
    · simp [ho, h, Task.request, Task.make]
    · have hn : ¬ name = other := fun h => ho h.symm
      simp [ho, hn, Task.request, Task.make]

theorem names_request (r : Registry κ) (name : String) (command : κ) (quietMs : Nat) :
    (r.request name command quietMs).names =
      if name ∈ r.names then r.names else r.names ++ [name] := by
  unfold request
  cases h : r.find? name with
  | some t =>
    have hn : name ∈ r.names := by
      by_contra hn
      simp [find?_eq_none_iff.mpr hn] at h
    rw [if_pos hn]
    exact names_modify fun _ ht => ht
  | none =>
    rw [if_neg (find?_eq_none_iff.mp h)]
    simp [names, Task.request, Task.make]

theorem nodup_names_request (h : r.names.Nodup) (name : String) (command : κ) (quietMs : Nat) :
    (r.request name command quietMs).names.Nodup := by
  rw [names_request]
  by_cases hn : name ∈ r.names
  · simpa [hn] using h
  · have : r.names.Disjoint [name] := by simpa using hn
    simpa [hn] using h.append (List.nodup_singleton name) this

/-- The end of a run reaches the named task and no other. -/
theorem find?_finish (r : Registry κ) (name : String) (now : Nat) (other : String) :
    (r.finish name now).find? other =
      if other = name then (r.find? name).map (·.finish now) else r.find? other := by
  have hf : ∀ t : Task κ, t.name = name → (t.finish now).name = name := fun _ ht => ht
  exact find?_modify hf other

@[simp]
theorem names_finish (r : Registry κ) (name : String) (now : Nat) :
    (r.finish name now).names = r.names := by
  have hf : ∀ t : Task κ, t.name = name → (t.finish now).name = name := fun _ ht => ht
  exact names_modify hf

/-- A claim that succeeds finds an eligible task and takes what is pending there. -/
theorem find?_of_claim? (h : r.claim? name now = some (command, r')) :
    ∃ t, r.find? name = some t ∧ t.isEligible now = true ∧ t.pending = some command ∧
      (∀ other, r'.find? other = if other = name then some t.claimed else r.find? other) ∧
      r'.names = r.names := by
  unfold claim? at h
  cases ht : r.find? name with
  | none => simp [ht] at h
  | some t =>
    cases hc : t.claim? now with
    | none => simp [ht, hc] at h
    | some taken =>
      obtain ⟨c, t'⟩ := taken
      simp only [ht, Option.bind_some, hc, Option.some.injEq, Prod.mk.injEq] at h
      obtain ⟨rfl, rfl⟩ := h
      obtain ⟨eligible, pending, rfl⟩ := Task.claim?_eq_some.mp hc
      have hn : t.claimed.name = name := name_of_find? (t := t) ht
      have hf : ∀ u : Task κ, u.name = name → t.claimed.name = name := fun _ _ => hn
      refine ⟨t, rfl, eligible, pending, fun other => ?_, names_modify hf⟩
      rw [find?_modify hf, ht, Option.map_some]

/-- A claim of a task with a pending command misses only if the task is not eligible. -/
theorem isEligible_of_claim?_eq_none (h : r.claim? name now = none) (ht : r.find? name = some t)
    (hp : t.pending = some command) : t.isEligible now = false := by
  unfold claim? at h
  cases hc : t.claim? now with
  | some taken => simp [ht, hc] at h
  | none =>
    rcases Task.claim?_eq_none_iff.mp hc with hne | hnone
    · exact hne
    · simp [hp] at hnone

end Registry

end Triage
