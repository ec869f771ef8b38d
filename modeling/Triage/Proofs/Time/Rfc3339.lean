import Triage.Proofs.Number.Digits
import Triage.Proofs.Time
import Triage.Proofs.Time.Calendar
import Triage.Time.Rfc3339

/-!
# Timestamps read back from their text

Each reader takes up what is written for its part and leaves the rest alone, whatever the rest is,
so long as it cannot belong to the part.  From these lemmas `parse?_render` puts the whole text
together, for points in time of the years 0 to 9999 outside a leap second.
-/

namespace Triage

/-- A point in time whose text has a year of four digits and no leap second. -/
structure Timestamp.IsPlain (t : Timestamp) : Prop where
  year : 0 ≤ (Date.ofDayNumber (t.second / 86400)).year ∧
    (Date.ofDayNumber (t.second / 86400)).year ≤ 9999
  nano : t.nano < 1000000000

namespace Rfc3339

open Triage.Text
open Triage.Decimal (EndsDigits valueOf)

/-! ### Padded numbers -/

theorem length_padded {width n : Nat} (hw : 0 < width) (h : n < 10 ^ width) :
    (padded width n).length = width := by
  have hle : (Nat.toDigits 10 n).length ≤ width := Decimal.length_digitsOf_le hw h
  rw [padded, paddedDigits, List.length_append, List.length_replicate]
  omega

theorem isDigit_of_mem_padded {width n : Nat} {c : Char} (h : c ∈ padded width n) :
    c.isDigit = true := by
  rcases List.mem_append.1 h with h | h
  · rw [(List.mem_replicate.1 h).2]
    decide
  · exact Decimal.isDigit_of_mem_digitsOf h

theorem valueOf_padded (width n : Nat) : valueOf (padded width n) = n :=
  (Decimal.valueOf_zeros _ _).trans (Decimal.valueOf_digitsOf n)

theorem padded_ne_nil (width n : Nat) : padded width n ≠ [] :=
  List.append_ne_nil_of_right_ne_nil _ (Decimal.digitsOf_ne_nil n)

/-! ### Blanks -/

theorem isBlank_of_isDigit {c : Char} (h : c.isDigit = true) : isBlank c = false := by
  have hrange := Decimal.toNat_of_isDigit h
  simp only [isBlank, Bool.or_eq_false_iff, Bool.and_eq_false_iff, decide_eq_false_iff_not]
  omega

theorem trimStart_cons {c : Char} (h : isBlank c = false) (cs : List Char) :
    trimStart (c :: cs) = c :: cs :=
  List.dropWhile_cons_of_neg (by simp [h])

theorem trimStart_digits {ds : List Char} (hds : ∀ c ∈ ds, c.isDigit = true) (hne : ds ≠ [])
    (rest : List Char) : trimStart (ds ++ rest) = ds ++ rest := by
  cases ds with
  | nil => exact absurd rfl hne
  | cons c ds => exact trimStart_cons (isBlank_of_isDigit (hds c List.mem_cons_self)) _

/-! ### The parts -/

/-- A run of digits is taken up whole if it may be that long, and if it may be no longer or the text
does not go on with a digit. -/
theorem digits?_append {most : Nat} {ds rest : List Char} (hds : ∀ c ∈ ds, c.isDigit = true)
    (hne : ds ≠ []) (hlen : ds.length ≤ most) (hend : ds.length = most ∨ EndsDigits rest) :
    digits? most (ds ++ rest) = some (ds, rest) := by
  have hrest : EndsDigits (rest.take (most - ds.length)) := by
    rcases hend with hfull | hrest
    · rw [hfull, Nat.sub_self]
      exact Decimal.endsDigits_nil
    · intro c hc
      rw [List.head?_take] at hc
      split at hc
      · cases hc
      · exact hrest c hc
  have htaken : ((ds ++ rest).take most).takeWhile Char.isDigit = ds := by
    rw [List.take_append, List.take_of_length_le hlen]
    exact Decimal.takeWhile_isDigit hds hrest
  have hnonempty : ds.isEmpty = false := by simpa using hne
  simp only [digits?, htaken, hnonempty, List.drop_left, Bool.false_eq_true, if_false]

theorem digits?_padded {width most n : Nat} (hw : 0 < width) (h : n < 10 ^ width)
    (hle : width ≤ most) {rest : List Char} (hend : width = most ∨ EndsDigits rest) :
    digits? most (padded width n ++ rest) = some (padded width n, rest) := by
  have hlen := length_padded hw h
  exact digits?_append (fun c => isDigit_of_mem_padded) (padded_ne_nil width n) (hlen.trans_le hle)
    (hend.imp_left hlen.trans)

theorem twoDigits?_padded {n : Nat} (h : n < 100) (rest : List Char) :
    twoDigits? (padded 2 n ++ rest) = some (n, rest) := by
  unfold twoDigits?
  rw [trimStart_digits (fun c => isDigit_of_mem_padded) (padded_ne_nil 2 n),
    digits?_padded (by decide) h (Nat.le_refl 2) (.inl rfl)]
  exact congrArg (fun m => some (m, rest)) (valueOf_padded 2 n)

theorem mark?_cons {c : Char} (h : isBlank c = false) (rest : List Char) :
    mark? c (c :: rest) = some rest := by
  unfold mark?
  rw [trimStart_cons h]
  exact if_pos rfl

theorem year?_padded {n : Nat} (h : n < 10000) (rest : List Char) :
    year? (padded 4 n ++ rest) = some ((n : Int), rest) := by
  have hds : ∀ c ∈ padded 4 n, c.isDigit = true := fun c => isDigit_of_mem_padded
  unfold year?
  rw [trimStart_digits hds (padded_ne_nil 4 n)]
  split
  · rename_i hsign
    exact absurd hsign (Decimal.append_ne_cons hds (padded_ne_nil 4 n) (by decide) _ _)
  · rename_i hsign
    exact absurd hsign (Decimal.append_ne_cons hds (padded_ne_nil 4 n) (by decide) _ _)
  · rw [digits?_padded (by decide) h (Nat.le_refl 4) (.inl rfl)]
    exact congrArg (fun m : Nat => some ((m : Int), rest)) (valueOf_padded 4 n)

/-- A fraction of `width` digits in units of `10^(9 - width)` nanoseconds. -/
theorem fraction?_padded {width n : Nat} (hw : 0 < width) (h : n < 10 ^ width) (hle : width ≤ 9)
    {rest : List Char} (hrest : EndsDigits rest) :
    fraction? ('.' :: padded width n ++ rest) = some (n * 10 ^ (9 - width), rest) := by
  have hscan := digits?_padded hw h hle (.inr hrest)
  have hrest' : rest.dropWhile Char.isDigit = rest :=
    Decimal.dropWhile_isDigit (List.forall_mem_nil _) hrest
  unfold fraction?
  simp only [List.cons_append, hscan, Option.bind_eq_bind, Option.bind_some, length_padded hw h,
    valueOf_padded, hrest']
  rfl

theorem fraction?_fractionText {nano : Nat} (h : nano < 1000000000) :
    fraction? (fractionText nano ++ ['Z']) = some (nano, ['Z']) := by
  have hend : EndsDigits ['Z'] := Decimal.endsDigits_cons (by decide)
  unfold fractionText
  split
  · subst_vars
    rfl
  · split
    · rw [fraction?_padded (by decide) (by omega) (by decide) hend]
      simp
      omega
    · split
      · rw [fraction?_padded (by decide) (by omega) (by decide) hend]
        simp
        omega
      · rw [fraction?_padded (by decide) h (by decide) hend]
        simp

/-! ### The whole text -/

theorem dateTimeSeparator?_cons (rest : List Char) : dateTimeSeparator? ('T' :: rest) = some rest :=
  rfl

theorem parts?_digits {year month day hour minute second nano : Nat} (hyear : year < 10000)
    (hmonth : month < 100) (hday : day < 100) (hhour : hour < 100) (hminute : minute < 100)
    (hsecond : second < 100) (hnano : nano < 1000000000) :
    parts? (padded 4 year ++ '-' :: padded 2 month ++ '-' :: padded 2 day ++
      'T' :: padded 2 hour ++ ':' :: padded 2 minute ++
      ':' :: padded 2 second ++ fractionText nano ++ ['Z']) =
      some ⟨⟨year, month, day⟩, hour, minute, second, nano, 0⟩ := by
  have hdash := mark?_cons (c := '-') (by decide)
  have hcolon := mark?_cons (c := ':') (by decide)
  have hzone : offset? (trimStart ['Z']) = some (0, []) := by decide
  simp only [List.append_assoc, List.cons_append]
  unfold parts?
  refine Option.bind_eq_some_iff.2 ⟨_, year?_padded hyear _, ?_⟩
  refine Option.bind_eq_some_iff.2 ⟨_, hdash _, ?_⟩
  refine Option.bind_eq_some_iff.2 ⟨_, twoDigits?_padded hmonth _, ?_⟩
  refine Option.bind_eq_some_iff.2 ⟨_, hdash _, ?_⟩
  refine Option.bind_eq_some_iff.2 ⟨_, twoDigits?_padded hday _, ?_⟩
  refine Option.bind_eq_some_iff.2 ⟨_, dateTimeSeparator?_cons _, ?_⟩
  refine Option.bind_eq_some_iff.2 ⟨_, twoDigits?_padded hhour _, ?_⟩
  refine Option.bind_eq_some_iff.2 ⟨_, hcolon _, ?_⟩
  refine Option.bind_eq_some_iff.2 ⟨_, twoDigits?_padded hminute _, ?_⟩
  refine Option.bind_eq_some_iff.2 ⟨_, hcolon _, ?_⟩
  refine Option.bind_eq_some_iff.2 ⟨_, twoDigits?_padded hsecond _, ?_⟩
  refine Option.bind_eq_some_iff.2 ⟨_, fraction?_fractionText hnano, ?_⟩
  exact Option.bind_eq_some_iff.2 ⟨_, hzone, rfl⟩

theorem render_of_isPlain {t : Timestamp} (h : t.IsPlain) : render t =
    let date := Date.ofDayNumber (t.second / 86400)
    let secondOfDay := (t.second % 86400).toNat
    padded 4 date.year.toNat ++ '-' :: padded 2 date.month ++ '-' :: padded 2 date.day ++
      'T' :: padded 2 (secondOfDay / 3600) ++ ':' :: padded 2 (secondOfDay / 60 % 60) ++
      ':' :: padded 2 (secondOfDay % 60) ++ fractionText t.nano ++ ['Z'] := by
  have hleap : ¬ 1000000000 ≤ t.nano := Nat.not_le_of_lt h.nano
  unfold render yearText
  simp only [if_neg hleap, if_pos h.year, Nat.add_zero]

/-- The parts that are written for a point in time make it up again. -/
theorem toTimestamp?_parts {t : Timestamp} (h : t.IsPlain) : Parts.toTimestamp?
    ⟨Date.ofDayNumber (t.second / 86400), (t.second % 86400).toNat / 3600,
      (t.second % 86400).toNat / 60 % 60, (t.second % 86400).toNat % 60, t.nano, 0⟩ = some t := by
  have hvalid := Date.isValid_ofDayNumber (t.second / 86400)
  have hnumber := Date.dayNumber_ofDayNumber (t.second / 86400)
  obtain ⟨hyear, hyear'⟩ := h.year
  obtain ⟨hfirst, hlast⟩ := Date.dayNumber_le_of_year hvalid hyear hyear'
  rw [hnumber] at hfirst hlast
  obtain ⟨s, hs⟩ : ∃ s, s = (t.second % 86400).toNat := ⟨_, rfl⟩
  have hminute : s % 60 ≠ 60 := by omega
  have hsecond : t.second / 86400 * 86400 +
      ((s / 3600 * 3600 + s / 60 % 60 * 60 + s % 60 : Nat) : Int) - 0 = t.second := by omega
  have hrange : Timestamp.firstSecond ≤ t.second ∧ t.second ≤ Timestamp.lastSecond := by
    rw [Timestamp.firstSecond_eq, Timestamp.lastSecond_eq]
    omega
  simp only [Parts.toTimestamp?, ← hs, hnumber, if_neg hminute, hsecond, if_pos hrange,
    Nat.add_zero]
  rw [if_pos ⟨hvalid, by omega, by omega, by omega, by omega, by omega, by decide⟩]

theorem parse?_render {t : Timestamp} (h : t.IsPlain) :
    parse? (String.ofList (render t)) = some t := by
  obtain ⟨⟨-, hmonth⟩, -, hday⟩ := Date.le_of_isValid (Date.isValid_ofDayNumber (t.second / 86400))
  obtain ⟨hyear, hyear'⟩ := h.year
  unfold parse?
  rw [String.toList_ofList, render_of_isPlain h, parts?_digits (by omega) (by omega) (by omega)
    (by omega) (by omega) (by omega) h.nano, Int.toNat_of_nonneg hyear]
  exact toTimestamp?_parts h

end Rfc3339

end Triage
