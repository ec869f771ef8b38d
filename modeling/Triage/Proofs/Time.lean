import Mathlib
import Triage.Time.Timestamp

/-!
# Order of points in time, and spans

Timestamps are compared by their seconds first.  A time before another exists unless it lies before the
first year that a timestamp can have; for the times that clocks show, the limit on spans is never met
first (`exists_minusDays_error_iff`, `exists_minusMinutes_error_iff`).
-/

namespace Triage.Timestamp

/-! ### Order -/

theorem le_iff {t t' : Timestamp} :
    t ≤ t' ↔ t.second < t'.second ∨ (t.second = t'.second ∧ t.nano ≤ t'.nano) := by
  rw [le_def, lt_def]
  omega

protected theorem le_refl (t : Timestamp) : t ≤ t := by
  rw [le_iff]
  omega

protected theorem le_trans {t t' t'' : Timestamp} (h : t ≤ t') (h' : t' ≤ t'') : t ≤ t'' := by
  rw [le_iff] at *
  omega

protected theorem lt_of_le_of_lt {t t' t'' : Timestamp} (h : t ≤ t') (h' : t' < t'') : t < t'' := by
  rw [le_iff] at h
  rw [lt_def] at *
  omega

/-! ### Spans that can be subtracted -/

theorem minusDays_eq_ok {t t' : Timestamp} {days : Int} (h : t.minusDays days = .ok t') :
    t'.second = t.second - days * 86400 ∧ t'.nano = t.nano := by
  unfold minusDays minusSeconds at h
  split at h
  · simp only at h
    split at h
    · cases h
      exact ⟨rfl, rfl⟩
    · cases h
  · cases h

/-- A later pass has a later window. -/
theorem minusDays_le {now now' since since' : Timestamp} {days : Int} (h : now ≤ now')
    (hs : now.minusDays days = .ok since) (hs' : now'.minusDays days = .ok since') :
    since ≤ since' := by
  rw [le_iff] at h ⊢
  obtain ⟨hsecond, hnano⟩ := minusDays_eq_ok hs
  obtain ⟨hsecond', hnano'⟩ := minusDays_eq_ok hs'
  omega

/-- A longer span leads to an earlier time. -/
theorem minusDays_anti {now since threshold : Timestamp} {days days' : Int}
    (h : days ≤ days') (hs : now.minusDays days = .ok since)
    (ht : now.minusDays days' = .ok threshold) : threshold ≤ since := by
  obtain ⟨hsecond, hnano⟩ := minusDays_eq_ok hs
  obtain ⟨hsecond', hnano'⟩ := minusDays_eq_ok ht
  rw [le_iff]
  omega

/-! ### Spans that cannot -/

/-- A time that a clock can show: in the years 1970 to 9999. -/
def IsClockTime (t : Timestamp) : Prop :=
  0 ≤ t.second ∧ t.second < Date.dayNumber ⟨10000, 1, 1⟩ * 86400

theorem firstSecond_eq : firstSecond = -8334601228800 := by decide

theorem lastSecond_eq : lastSecond = 8210266876799 := by decide

theorem longestSpan_eq : longestSpan = 9223372036854775807 := by decide

theorem IsClockTime.second_lt {t : Timestamp} (h : t.IsClockTime) : t.second < 253402300800 := h.2

theorem exists_minusSeconds_error_iff {t : Timestamp} (ht : t.IsClockTime) {n : Int} (hn : 0 < n) :
    (∃ o, t.minusSeconds n = .error o) ↔ t.second - n < firstSecond := by
  have hlt := ht.second_lt
  have hlast := lastSecond_eq
  unfold minusSeconds
  dsimp only
  split
  · rename_i hin
    exact ⟨fun ⟨o, ho⟩ => (by cases ho), fun hout => by omega⟩
  · rename_i hin
    exact ⟨fun _ => by omega, fun _ => ⟨_, rfl⟩⟩

/-- A span that is too long to be measured reaches back before the first year anyway. -/
theorem before_firstSecond_of_long {t : Timestamp} (ht : t.IsClockTime) {n unit : Int}
    (hlong : (longestSpan : Int) < n * (unit * 1000)) : t.second - n * unit < firstSecond := by
  have hlt := ht.second_lt
  rw [firstSecond_eq]
  rw [longestSpan_eq, ← mul_assoc] at hlong
  push_cast at hlong
  omega

theorem exists_minusDays_error_iff {t : Timestamp} (ht : t.IsClockTime) {days : Int}
    (hdays : 0 < days) :
    (∃ o, t.minusDays days = .error o) ↔ t.second - days * 86400 < firstSecond := by
  unfold minusDays
  split
  · exact exists_minusSeconds_error_iff ht (by omega)
  · rename_i hlong
    exact ⟨fun _ => before_firstSecond_of_long ht (by omega), fun _ => ⟨_, rfl⟩⟩

theorem exists_minusMinutes_error_iff {t : Timestamp} (ht : t.IsClockTime) {minutes : Int}
    (hminutes : 0 < minutes) :
    (∃ o, t.minusMinutes minutes = .error o) ↔ t.second - minutes * 60 < firstSecond := by
  unfold minusMinutes
  split
  · exact exists_minusSeconds_error_iff ht (by omega)
  · rename_i hlong
    exact ⟨fun _ => before_firstSecond_of_long ht (by omega), fun _ => ⟨_, rfl⟩⟩

end Triage.Timestamp
