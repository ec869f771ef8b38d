import Mathlib
import Triage.Text.Hex

/-!
# Which texts are hexadecimal

A text of digits, an even number of them, is read as the bytes that are written as the same text in lower
case (`decode_of_digits`).  Any other text has a fault, which is the one that is reported
(`decode_of_concerns`): its length, or else the first byte that is no digit.
-/

namespace Triage.Text.Hex

/-- What stands in a text in place of a byte when its letters are put in lower case. -/
def lowered (b : UInt8) : Char := (Char.ofUInt8 b).toLower

/-! ### Digits -/

theorem digit_of_value? {b : UInt8} {n : Nat} (h : value? b = some n) :
    n < 16 ∧ digit n = lowered b := by
  have hall : ∀ k < 256, ∀ n ∈ value? (UInt8.ofNat k), n < 16 ∧ digit n = lowered (UInt8.ofNat k) := by
    decide +kernel
  have hb := hall b.toNat b.toNat_lt n
  rw [UInt8.ofNat_toNat] at hb
  exact hb h

theorem digit_injOn : ∀ n < 16, ∀ m < 16, digit n = digit m → n = m := by decide

theorem encode_injective : Function.Injective encode := by
  intro bs cs heq
  induction bs generalizing cs with
  | nil =>
    cases cs with
    | nil => rfl
    | cons c cs => cases heq
  | cons b bs ih =>
    cases cs with
    | nil => cases heq
    | cons c cs =>
      obtain ⟨hhi, heq⟩ := List.cons.inj heq
      obtain ⟨hlo, heq⟩ := List.cons.inj heq
      have hb := b.toNat_lt
      have hc := c.toNat_lt
      have hdiv := digit_injOn _ (by omega) _ (by omega) hhi
      have hmod := digit_injOn _ (by omega) _ (by omega) hlo
      have hbyte : b = c := UInt8.toNat_inj.1 (by omega)
      rw [hbyte, ih heq]

/-! ### Digits as characters -/

theorem isSome_value?_iff {b : UInt8} : (value? b).isSome = true ↔
    (48 ≤ b.toNat ∧ b.toNat ≤ 57) ∨ (97 ≤ b.toNat ∧ b.toNat ≤ 102) ∨
      (65 ≤ b.toNat ∧ b.toNat ≤ 70) := by
  simp only [value?, Bool.and_eq_true, decide_eq_true_eq]
  split_ifs <;> simp <;> omega

theorem isHexDigit_iff {c : Char} : c.isHexDigit = true ↔
    (48 ≤ c.toNat ∧ c.toNat ≤ 57) ∨ (97 ≤ c.toNat ∧ c.toNat ≤ 102) ∨
      (65 ≤ c.toNat ∧ c.toNat ≤ 70) := by
  simp [Char.isHexDigit, Char.isDigit, UInt32.le_iff_toNat_le, or_assoc]

theorem toNat_le_of_isHexDigit {c : Char} (h : c.isHexDigit = true) : c.toNat ≤ 127 := by
  have hrange := isHexDigit_iff.1 h
  omega

theorem toNat_toUInt8 {c : Char} (hc : c.toNat ≤ 127) : c.toUInt8.toNat = c.toNat := by
  unfold Char.toUInt8
  rw [UInt32.toNat_toUInt8]
  exact Nat.mod_eq_of_lt (Nat.lt_of_le_of_lt hc (by decide))

theorem utf8EncodeChar_eq_singleton {c : Char} (hc : c.toNat ≤ 127) :
    String.utf8EncodeChar c = [c.toUInt8] :=
  String.utf8EncodeChar_eq_singleton (Char.utf8Size_eq_one_iff.2 (UInt32.le_iff_toNat_le.2 hc))

/-- The bytes of a character are digits if it is one itself; a character of several bytes has a byte that is
none. -/
theorem forall_mem_utf8EncodeChar {c : Char} :
    (∀ b ∈ String.utf8EncodeChar c, (value? b).isSome = true) ↔ c.isHexDigit = true := by
  rw [isHexDigit_iff]
  by_cases hc : c.toNat ≤ 127
  · rw [utf8EncodeChar_eq_singleton hc, List.forall_mem_singleton, isSome_value?_iff,
      toNat_toUInt8 hc]
  · refine ⟨fun hall => ?_, fun h => by omega⟩
    -- the last of several bytes only continues the character, and such bytes start at 128
    have hlast : UInt8.ofNat (c.toNat % 64 + 128) ∈ String.utf8EncodeChar c := by
      have hv : ¬ c.val.toNat ≤ 127 := hc
      unfold String.utf8EncodeChar
      simp only [if_neg hv]
      split_ifs <;> simp
    have hvalue := isSome_value?_iff.1 (hall _ hlast)
    rw [UInt8.toNat_ofNat_of_lt' (by have : UInt8.size = 256 := rfl; omega)] at hvalue
    omega

theorem lowered_toUInt8 {c : Char} (hc : c.toNat ≤ 127) : lowered c.toUInt8 = c.toLower := by
  have hchar : Char.ofUInt8 c.toUInt8 = c := Char.toNat_inj.1 (toNat_toUInt8 hc)
  unfold lowered
  rw [hchar]

theorem flatMap_utf8EncodeChar {cs : List Char} (hcs : ∀ c ∈ cs, c.isHexDigit = true) :
    cs.flatMap String.utf8EncodeChar = cs.map Char.toUInt8 := by
  induction cs with
  | nil => rfl
  | cons c cs ih =>
    rw [List.forall_mem_cons] at hcs
    rw [List.flatMap_cons, utf8EncodeChar_eq_singleton (toNat_le_of_isHexDigit hcs.1), ih hcs.2]
    rfl

/-- What is written are digits in lower case. -/
theorem forall_mem_encode {bs : List UInt8} :
    ∀ c ∈ encode bs, c.isHexDigit = true ∧ c.toLower = c := by
  have hdigit : ∀ n < 16, (digit n).isHexDigit = true ∧ (digit n).toLower = digit n := by decide
  induction bs with
  | nil => exact fun c hc => nomatch hc
  | cons b bs ih =>
    have hb := b.toNat_lt
    rw [encode, List.forall_mem_cons, List.forall_mem_cons]
    exact ⟨hdigit _ (by omega), hdigit _ (by omega), ih⟩

/-! ### Texts of digits -/

/-- A pair of digits is read as one byte, which is written as the pair in lower case. -/
theorem exists_byte_of_digits {hi lo : UInt8} (hhi : (value? hi).isSome = true)
    (hlo : (value? lo).isSome = true) :
    ∃ b, (∀ bs, encode (b :: bs) = lowered hi :: lowered lo :: encode bs) ∧
      ∀ position rest, decodePairs position (hi :: lo :: rest) =
        (decodePairs (position + 2) rest).map (b :: ·) := by
  obtain ⟨h, hh⟩ := Option.isSome_iff_exists.1 hhi
  obtain ⟨l, hl⟩ := Option.isSome_iff_exists.1 hlo
  obtain ⟨hh16, hhigh⟩ := digit_of_value? hh
  obtain ⟨hl16, hlow⟩ := digit_of_value? hl
  have hbyte : (UInt8.ofNat (16 * h + l)).toNat = 16 * h + l :=
    UInt8.toNat_ofNat_of_lt' (by have : UInt8.size = 256 := rfl; omega)
  refine ⟨UInt8.ofNat (16 * h + l), fun bs => ?_, fun position rest => ?_⟩
  · rw [encode, hbyte, show (16 * h + l) / 16 = h by omega, show (16 * h + l) % 16 = l by omega,
      hhigh, hlow]
  · simp only [decodePairs, digitAt, hh, hl]
    cases decodePairs (position + 2) rest <;> rfl

theorem decodePairs_of_digits {bytes : List UInt8} (heven : bytes.length % 2 = 0)
    (hdigits : ∀ b ∈ bytes, (value? b).isSome = true) (position : Nat) :
    ∃ bs, decodePairs position bytes = .ok bs ∧ encode bs = bytes.map lowered := by
  induction position, bytes using decodePairs.induct with
  | case1 position hi lo rest ih =>
    rw [List.forall_mem_cons, List.forall_mem_cons] at hdigits
    obtain ⟨hhi, hlo, hrest⟩ := hdigits
    obtain ⟨b, hwritten, hread⟩ := exists_byte_of_digits hhi hlo
    rw [List.length_cons, List.length_cons] at heven
    obtain ⟨bs, hreadRest, hbs⟩ := ih (by omega) hrest
    refine ⟨b :: bs, ?_, ?_⟩
    · rw [hread, hreadRest]
      rfl
    · rw [hwritten, hbs, List.map_cons, List.map_cons]
  | case2 position => exact ⟨[], rfl, rfl⟩
  | case3 position b => cases heven

theorem decode_of_digits {bytes : List UInt8} (heven : bytes.length % 2 = 0)
    (hdigits : ∀ b ∈ bytes, (value? b).isSome = true) :
    ∃ bs, decode bytes = .ok bs ∧ encode bs = bytes.map lowered := by
  unfold decode
  rw [if_neg (by omega)]
  exact decodePairs_of_digits heven hdigits 0

/-! ### Faults -/

/-- What is wrong with a text: its length if that is odd, or else its first byte that is no digit. -/
inductive Fault.Concerns : Fault → List UInt8 → Prop where
  | oddLength {bytes : List UInt8} (hodd : bytes.length % 2 = 1) : Concerns .oddLength bytes
  | badDigit {good rest : List UInt8} {b : UInt8} (heven : (good ++ b :: rest).length % 2 = 0)
    (hgood : ∀ g ∈ good, (value? g).isSome = true) (hb : value? b = none) :
    Concerns (.badDigit b good.length) (good ++ b :: rest)

theorem decodePairs_of_badDigit {good rest : List UInt8} {b : UInt8}
    (heven : (good ++ b :: rest).length % 2 = 0) (hgood : ∀ g ∈ good, (value? g).isSome = true)
    (hb : value? b = none) (position : Nat) :
    decodePairs position (good ++ b :: rest) = .error (.badDigit b (position + good.length)) := by
  -- two good bytes at a time, as they are read; the bad one is the first or the second of its pair
  induction position, good using decodePairs.induct with
  | case1 position hi lo good ih =>
    rw [List.forall_mem_cons, List.forall_mem_cons] at hgood
    obtain ⟨hhi, hlo, hgood⟩ := hgood
    obtain ⟨byte, -, hread⟩ := exists_byte_of_digits hhi hlo
    rw [List.cons_append, List.cons_append, List.length_cons, List.length_cons] at heven
    rw [List.cons_append, List.cons_append, hread, ih (by omega) hgood, List.length_cons,
      List.length_cons, show position + 2 + good.length = position + (good.length + 1 + 1) by omega]
    rfl
  | case2 position =>
    cases rest with
    | nil => cases heven
    | cons c rest =>
      simp only [List.nil_append, decodePairs, digitAt, hb]
      rfl
  | case3 position g =>
    obtain ⟨n, hn⟩ := Option.isSome_iff_exists.1 (hgood g (List.mem_singleton_self g))
    simp only [List.singleton_append, decodePairs, digitAt, hn, hb]
    rfl

theorem decode_of_concerns {fault : Fault} {bytes : List UInt8} (hf : fault.Concerns bytes) :
    decode bytes = .error fault := by
  unfold decode
  cases hf with
  | oddLength hodd => rw [if_pos hodd]
  | badDigit heven hgood hb =>
    rw [if_neg (by omega), decodePairs_of_badDigit heven hgood hb, Nat.zero_add]

/-- A text has a fault unless it consists of digits, an even number of them. -/
theorem exists_concerns {bytes : List UInt8}
    (h : ¬ (bytes.length % 2 = 0 ∧ ∀ b ∈ bytes, (value? b).isSome = true)) :
    ∃ fault : Fault, fault.Concerns bytes := by
  by_cases heven : bytes.length % 2 = 0
  · cases hfirst : bytes.find? fun b => (value? b).isNone with
    | none =>
      rw [List.find?_eq_none] at hfirst
      exact absurd ⟨heven, fun b hb => by simpa [Option.isSome_iff_ne_none] using hfirst b hb⟩ h
    | some b =>
      obtain ⟨hb, good, rest, rfl, hgood⟩ := List.find?_eq_some_iff_append.1 hfirst
      refine ⟨_, .badDigit heven (fun g hg => ?_) (Option.isNone_iff_eq_none.1 hb)⟩
      simpa [Option.isSome_iff_ne_none] using hgood g hg
  · exact ⟨_, .oddLength (by omega)⟩

end Triage.Text.Hex
