import Mathlib
import Triage.Number.Decimal

/-!
# Runs of digits

The digits of a number are digits, are worth the number and start with a zero only if it is zero.  A
scan takes them up whole in front of anything that does not go on with a digit.
-/

namespace Triage.Decimal

/-! ### The digits of a number -/

theorem digitsOf_ne_nil (n : Nat) : digitsOf n ≠ [] := Nat.toDigits_ne_nil

theorem isDigit_of_mem_digitsOf {n : Nat} {c : Char} (h : c ∈ digitsOf n) : c.isDigit = true :=
  Nat.isDigit_of_mem_toDigits (by decide) (by decide) h

theorem valueOf_digitsOf (n : Nat) : valueOf (digitsOf n) = n :=
  Nat.ofDigitChars_toDigits (by decide) (by decide)

theorem length_digitsOf_le {n w : Nat} (hw : 0 < w) (h : n < 10 ^ w) : (digitsOf n).length ≤ w :=
  (Nat.length_toDigits_le_iff (by decide) hw).2 h

theorem digitsOf_of_lt {n : Nat} (h : n < 10) : digitsOf n = [n.digitChar] :=
  Nat.toDigits_of_lt_base h

theorem digitsOf_of_le {n : Nat} (h : 10 ≤ n) :
    digitsOf n = digitsOf (n / 10) ++ [(n % 10).digitChar] := by
  unfold digitsOf
  rw [Nat.toDigits_eq_if (by decide), if_neg (by omega)]

theorem head?_digitsOf_ne {n : Nat} (h : n ≠ 0) : (digitsOf n).head? ≠ some '0' := by
  induction n using Nat.strongRecOn with
  | ind n ih =>
    by_cases hn : n < 10
    · rw [digitsOf_of_lt hn, List.head?_cons, ne_eq, Option.some_inj]
      interval_cases n <;> simp_all [Nat.digitChar]
    · rw [digitsOf_of_le (by omega), List.head?_append_of_ne_nil _ (digitsOf_ne_nil _)]
      exact ih (n / 10) (by omega) (by omega)

/-- The code points of the digits. -/
theorem toNat_of_isDigit {c : Char} (h : c.isDigit = true) : 48 ≤ c.toNat ∧ c.toNat ≤ 57 := by
  simpa [Char.isDigit, UInt32.le_iff_toNat_le] using h

/-! ### Zeros in front -/

theorem valueOf_zeros (k : Nat) (ds : List Char) :
    valueOf (List.replicate k '0' ++ ds) = valueOf ds := by
  induction k with
  | zero => rfl
  | succ k ih => exact ih

/-! ### Scans -/

/-- What follows a run of digits does not go on with one. -/
def EndsDigits (rest : List Char) : Prop := ∀ c ∈ rest.head?, c.isDigit = false

theorem endsDigits_nil : EndsDigits [] := by
  intro c h
  cases h

theorem endsDigits_cons {c : Char} {rest : List Char} (h : c.isDigit = false) :
    EndsDigits (c :: rest) := by
  intro c' h'
  cases h'
  exact h

theorem append_ne_cons {ds : List Char} (hds : ∀ c ∈ ds, c.isDigit = true) (hne : ds ≠ [])
    {c : Char} (hc : c.isDigit = false) (rest rest' : List Char) : ds ++ rest ≠ c :: rest' := by
  intro h
  cases ds with
  | nil => exact hne rfl
  | cons d ds =>
    rw [List.cons_append, List.cons.injEq] at h
    rw [← h.1, hds d List.mem_cons_self] at hc
    cases hc

theorem takeWhile_isDigit {ds rest : List Char} (hds : ∀ c ∈ ds, c.isDigit = true)
    (hrest : EndsDigits rest) : (ds ++ rest).takeWhile Char.isDigit = ds := by
  rw [List.takeWhile_append_of_pos hds]
  cases rest with
  | nil => exact List.append_nil ds
  | cons c rest => rw [List.takeWhile_cons_of_neg (by simp [hrest c rfl]), List.append_nil]

theorem dropWhile_isDigit {ds rest : List Char} (hds : ∀ c ∈ ds, c.isDigit = true)
    (hrest : EndsDigits rest) : (ds ++ rest).dropWhile Char.isDigit = rest := by
  rw [List.dropWhile_append_of_pos hds]
  cases rest with
  | nil => rfl
  | cons c rest => rw [List.dropWhile_cons_of_neg (by simp [hrest c rfl])]

end Triage.Decimal
