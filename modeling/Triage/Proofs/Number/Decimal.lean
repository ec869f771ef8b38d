import Triage.Proofs.Number.Digits

/-!
# Decimals that can be read

Whole numbers and finite floats are written with digits before the point, none of them superfluous
(`wellFormed_ofInt`, `wellFormed_ofFloat?`).  For a float this comes down to its first digit, which
is not zero: the search for the shortest text starts where the float has one digit, and finer grids
only add to that.
-/

namespace Triage.Decimal

structure WellFormed (d : Decimal) : Prop where
  whole : ∀ c ∈ d.whole, c.isDigit = true
  whole_ne : d.whole ≠ []
  leading : d.whole.head? = some '0' → d.whole = ['0']
  fraction : ∀ c ∈ d.fraction, c.isDigit = true
  exponent : ∀ e ∈ d.exponent, (∀ c ∈ e.2, c.isDigit = true) ∧ e.2 ≠ []

theorem wellFormed_ofInt (n : Int) : (ofInt n).WellFormed where
  whole _ := isDigit_of_mem_digitsOf
  whole_ne := digitsOf_ne_nil _
  leading h := by
    by_cases hn : n.natAbs = 0
    · exact congrArg digitsOf hn
    · exact absurd h (head?_digitsOf_ne hn)
  fraction c h := by cases h
  exponent e h := by cases h

/-! ### Laying digits out -/

theorem isDigit_of_mem_zeros {k : Nat} {c : Char} (h : c ∈ List.replicate k '0') :
    c.isDigit = true := by
  rw [(List.mem_replicate.1 h).2]
  decide

theorem wellFormed_layOut (l : FloatLayout) (negative : Bool) {ds : List Char} (point : Int)
    (hds : ∀ c ∈ ds, c.isDigit = true) (hne : ds ≠ []) (hhead : ds.head? ≠ some '0') :
    (layOut l negative ds point).WellFormed := by
  obtain ⟨c, cs, rfl⟩ := List.exists_cons_of_ne_nil hne
  have hleading : ∀ {rest : List Char}, (c :: rest).head? = some '0' → c :: rest = ['0'] :=
    fun h => absurd h hhead
  have hexponent : ∀ e ∈ (none : Option (Bool × List Char)),
      (∀ c ∈ e.2, c.isDigit = true) ∧ e.2 ≠ [] := fun e h => by cases h
  unfold layOut
  simp only
  split
  · split
    · exact ⟨fun d hd => (List.mem_append.1 hd).elim (hds d) isDigit_of_mem_zeros, by simp,
        hleading, fun d hd => isDigit_of_mem_zeros (k := 1) hd, hexponent⟩
    · obtain ⟨n, hn⟩ : ∃ n, point.toNat = n + 1 := ⟨point.toNat - 1, by omega⟩
      rw [hn]
      exact ⟨fun d hd => hds d (List.mem_of_mem_take hd), by simp, hleading,
        fun d hd => hds d (List.mem_of_mem_drop hd), hexponent⟩
  · split
    · exact ⟨fun d hd => isDigit_of_mem_zeros (k := 1) hd, by simp, fun _ => rfl,
        fun d hd => (List.mem_append.1 hd).elim isDigit_of_mem_zeros (hds d), hexponent⟩
    · refine ⟨fun d hd => hds d (List.mem_of_mem_take hd), by simp, hleading,
        fun d hd => hds d (List.mem_of_mem_drop hd), fun e he => ?_⟩
      cases he
      exact ⟨fun d => isDigit_of_mem_digitsOf, digitsOf_ne_nil _⟩

/-! ### The first digit of a float -/

theorem tenTo_pos (n : Nat) : 0 < tenTo n := Nat.pow_pos (by decide)

theorem twoTo_pos (n : Nat) : 0 < twoTo n := Nat.pow_pos (by decide)

theorem tenTo_le {a b : Nat} (h : a ≤ b) : tenTo a ≤ tenTo b := Nat.pow_le_pow_right (by decide) h

theorem twoTo_le {a b : Nat} (h : a ≤ b) : twoTo a ≤ twoTo b := Nat.pow_le_pow_right (by decide) h

theorem quotient_ne_zero_iff {x : Dyadic} {e : Int} : quotient x e ≠ 0 ↔
    twoTo (-x.q).toNat * tenTo e.toNat ≤ x.m * twoTo x.q.toNat * tenTo (-e).toNat := by
  have hpos : twoTo (-x.q).toNat * tenTo e.toNat ≠ 0 :=
    (Nat.mul_pos (twoTo_pos _) (tenTo_pos _)).ne'
  rw [quotient, Nat.div_ne_zero_iff]
  exact and_iff_right hpos

/-- A finer grid has no fewer points below the float. -/
theorem quotient_ne_zero_of_le {x : Dyadic} {e e' : Int} (hle : e' ≤ e) (h : quotient x e ≠ 0) :
    quotient x e' ≠ 0 := by
  rw [quotient_ne_zero_iff] at *
  calc twoTo (-x.q).toNat * tenTo e'.toNat
      ≤ twoTo (-x.q).toNat * tenTo e.toNat := Nat.mul_le_mul_left _ (tenTo_le (by omega))
    _ ≤ x.m * twoTo x.q.toNat * tenTo (-e).toNat := h
    _ ≤ x.m * twoTo x.q.toNat * tenTo (-e').toNat := Nat.mul_le_mul_left _ (tenTo_le (by omega))

theorem onGrid?_ne_zero {x : Dyadic} {e : Int} {d : Nat} (h : quotient x e ≠ 0)
    (hd : onGrid? x e = some d) : d ≠ 0 := by
  unfold onGrid? at hd
  simp only at hd
  split at hd
  · cases hd
    split
    · exact h
    · exact Nat.succ_ne_zero _
  · cases hd
    exact h
  · cases hd
    exact Nat.succ_ne_zero _
  · cases hd

theorem shortestFrom_ne_zero {x : Dyadic} {e : Int} (h : quotient x e ≠ 0) (digits : Nat) :
    (shortestFrom x e digits).1 ≠ 0 := by
  induction digits generalizing e with
  | zero =>
    unfold shortestFrom
    cases hd : onGrid? x e with
    | none => exact h
    | some d => exact onGrid?_ne_zero h hd
  | succ digits ih =>
    unfold shortestFrom
    split
    · rename_i d hd
      exact onGrid?_ne_zero h hd
    · exact ih (quotient_ne_zero_of_le (by omega) h)

/-- The grid of the first digit before the point. -/
theorem quotient_whole_ne_zero {x : Dyadic} (h : quotient x 0 ≠ 0) :
    quotient x ((digitsOf (quotient x 0)).length - 1 : Int) ≠ 0 := by
  obtain ⟨w, hw⟩ : ∃ w, w = (digitsOf (quotient x 0)).length - 1 := ⟨_, rfl⟩
  have hlen : 0 < (digitsOf (quotient x 0)).length := List.length_pos_iff.2 (digitsOf_ne_nil _)
  have hcast : ((digitsOf (quotient x 0)).length - 1 : Int) = (w : Int) := by omega
  -- a number of w + 1 digits is at least 10^w
  have hpow : tenTo w ≤ quotient x 0 := by
    by_contra hlt
    have hw0 : 0 < w := by
      by_contra hw0
      obtain rfl : w = 0 := by omega
      exact hlt (Nat.pos_of_ne_zero h)
    have := length_digitsOf_le hw0 (Nat.lt_of_not_le hlt)
    omega
  rw [hcast, quotient_ne_zero_iff]
  have hnum := (Nat.le_div_iff_mul_le (Nat.mul_pos (twoTo_pos _) (tenTo_pos _))).1 hpow
  simp only [Int.toNat_zero, Int.neg_zero] at hnum
  have hz : (-(w : Int)).toNat = 0 := by omega
  rw [hz, Int.toNat_natCast]
  calc twoTo (-x.q).toNat * tenTo w = tenTo w * (twoTo (-x.q).toNat * tenTo 0) := by
        rw [show tenTo 0 = 1 from rfl, Nat.mul_one, Nat.mul_comm]
    _ ≤ _ := hnum

theorem twoTo_le_tenTo : twoTo 1074 ≤ tenTo 329 := by decide +kernel

/-- Some grid of up to 329 places has a digit for the least float. -/
theorem quotient_places_ne_zero {x : Dyadic} (hm : x.m ≠ 0) (hq : -1074 ≤ x.q) :
    quotient x (-((List.range 330).findIdx fun k : Nat => quotient x (-(k : Int)) ≠ 0 : Nat)) ≠
      0 := by
  have hlast : quotient x (-(329 : Nat)) ≠ 0 := by
    rw [quotient_ne_zero_iff]
    have hsmall : twoTo (-x.q).toNat ≤ tenTo 329 := (twoTo_le (by omega)).trans twoTo_le_tenTo
    have hlarge : 0 < x.m * twoTo x.q.toNat := Nat.mul_pos (Nat.pos_of_ne_zero hm) (twoTo_pos _)
    calc twoTo (-x.q).toNat * tenTo 0 = twoTo (-x.q).toNat := Nat.mul_one _
      _ ≤ tenTo 329 := hsmall
      _ ≤ x.m * twoTo x.q.toNat * tenTo 329 := Nat.le_mul_of_pos_left _ hlarge
  have hlt : (List.range 330).findIdx (fun k : Nat => decide (quotient x (-(k : Int)) ≠ 0)) <
      (List.range 330).length := List.findIdx_lt_length_of_exists
    ⟨329, List.mem_range.2 (by decide), by simpa using hlast⟩
  have := List.findIdx_getElem (w := hlt)
  rw [List.getElem_range] at this
  simpa using this

theorem shortest_ne_zero {x : Dyadic} (hm : x.m ≠ 0) (hq : -1074 ≤ x.q) : (shortest x).1 ≠ 0 := by
  unfold shortest
  apply shortestFrom_ne_zero
  by_cases h : quotient x 0 = 0
  · rw [if_neg (by simpa using h), sub_sub_cancel_left]
    exact quotient_places_ne_zero hm hq
  · rw [if_pos h]
    exact quotient_whole_ne_zero h

theorem strip_ne_zero {d : Nat} (h : d ≠ 0) (e : Int) (n : Nat) : (strip d e n).1 ≠ 0 := by
  induction n generalizing d e with
  | zero => exact h
  | succ n ih =>
    unfold strip
    split
    · exact ih (by omega) _
    · exact h

/-! ### Floats -/

theorem dyadicOfBits_spec {bits : Nat} (h : bits ≠ 0) (h' : bits < Word.half) :
    (dyadicOfBits bits).m ≠ 0 ∧ -1074 ≤ (dyadicOfBits bits).q := by
  have h52 : twoTo 52 = 4503599627370496 := by decide +kernel
  have h11 : twoTo 11 = 2048 := by decide +kernel
  have hhalf : Word.half = 9223372036854775808 := by decide +kernel
  rw [hhalf] at h'
  unfold dyadicOfBits
  rw [h52, h11]
  simp only
  split
  · simp only
    omega
  · simp only
    omega

theorem wellFormed_zero (negative : Bool) :
    (⟨negative, ['0'], ['0'], none⟩ : Decimal).WellFormed where
  whole _ h := isDigit_of_mem_zeros (k := 1) h
  whole_ne := List.cons_ne_nil _ _
  leading _ := rfl
  fraction _ h := isDigit_of_mem_zeros (k := 1) h
  exponent e h := by cases h

theorem wellFormed_ofFloat? {l : FloatLayout} {x : Float} {d : Decimal}
    (h : ofFloat? l x = some d) : d.WellFormed := by
  have hhalf : 0 < Word.half := by decide
  unfold ofFloat? at h
  simp only at h
  split at h
  · cases h
  · split at h
    · cases h
      exact wellFormed_zero _
    · rename_i hmagnitude
      cases h
      obtain ⟨hm, hq⟩ := dyadicOfBits_spec hmagnitude (Nat.mod_lt _ hhalf)
      exact wellFormed_layOut l _ _ (fun c => isDigit_of_mem_digitsOf) (digitsOf_ne_nil _)
        (head?_digitsOf_ne (strip_ne_zero (shortest_ne_zero hm hq) _ 20))

end Triage.Decimal
