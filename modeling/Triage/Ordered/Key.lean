/-!
# Keys in strict order

`OrderedKey` collects what the sorted containers of this library ask of their keys: a decidable
strict order that is transitive and connects any two different keys.  Natural numbers, strings
(by code point, which is also the order of their UTF-8 bytes) and byte lists have one.
-/

namespace Triage

/-- A type of keys with a decidable strict linear order. -/
class OrderedKey (κ : Type) extends LT κ where
  decLt : DecidableRel (fun a b : κ => a < b)
  decEq : DecidableEq κ
  lt_irrefl (a : κ) : ¬ a < a
  lt_trans {a b c : κ} : a < b → b < c → a < c
  connected {a b : κ} : ¬ a < b → ¬ b < a → a = b

namespace OrderedKey

variable {κ : Type} [OrderedKey κ]

instance (a b : κ) : Decidable (a < b) := OrderedKey.decLt a b

theorem ne_of_lt {a b : κ} (h : a < b) : a ≠ b := by
  rintro rfl
  exact lt_irrefl a h

theorem lt_asymm {a b : κ} (h : a < b) : ¬ b < a := fun h' => lt_irrefl a (lt_trans h h')

/-- The order by one part first and then by another, where the two parts tell any values apart. -/
@[reducible] def lexicographic {α β : Type} [OrderedKey α] [OrderedKey β] [DecidableEq κ]
    (first : κ → α) (second : κ → β)
    (injective : ∀ a b, first a = first b → second a = second b → a = b) : OrderedKey κ where
  lt a b := first a < first b ∨ (first a = first b ∧ second a < second b)
  decLt a b :=
    have := decEq (κ := α)
    inferInstanceAs (Decidable (first a < first b ∨ (first a = first b ∧ second a < second b)))
  decEq := inferInstance
  lt_irrefl a h := by
    rcases h with h | ⟨_, h⟩ <;> exact lt_irrefl _ h
  lt_trans {a b c} h h' := by
    rcases h with h | ⟨e, h⟩ <;> rcases h' with h' | ⟨e', h'⟩
    · exact .inl (lt_trans h h')
    · exact .inl (e' ▸ h)
    · exact .inl (e ▸ h')
    · exact .inr ⟨e.trans e', lt_trans h h'⟩
  connected {a b} h h' := by
    obtain ⟨h₁, h₂⟩ := not_or.1 h
    obtain ⟨h₁', h₂'⟩ := not_or.1 h'
    have e : first a = first b := connected h₁ h₁'
    exact injective a b e (connected (fun h => h₂ ⟨e, h⟩) fun h => h₂' ⟨e.symm, h⟩)

end OrderedKey

instance : OrderedKey Nat where
  decLt := inferInstance
  decEq := inferInstance
  lt_irrefl := Nat.lt_irrefl
  lt_trans := Nat.lt_trans
  connected h h' := Nat.le_antisymm (Nat.le_of_not_lt h') (Nat.le_of_not_lt h)

instance : OrderedKey String where
  decLt := inferInstance
  decEq := inferInstance
  lt_irrefl := String.lt_irrefl
  lt_trans := String.lt_trans
  connected h h' := String.le_antisymm (String.not_lt.1 h') (String.not_lt.1 h)

instance : OrderedKey (List UInt8) where
  decLt := inferInstance
  decEq := inferInstance
  lt_irrefl := List.lt_irrefl
  lt_trans := List.lt_trans
  connected h h' := List.le_antisymm (List.not_lt.1 h') (List.not_lt.1 h)

end Triage
