import Triage.Ordered.Key

/-!
# Sets in order

`OrderedSet κ` is a list of keys in strictly ascending order.  `mem_insert` and `mem_erase` say
what the operations do to membership.
-/

namespace Triage

structure OrderedSet (κ : Type) [OrderedKey κ] where
  toList : List κ
  sorted : toList.Pairwise (· < ·)

namespace OrderedSet

variable {κ : Type} [OrderedKey κ]

local instance : DecidableEq κ := OrderedKey.decEq

@[ext] theorem ext {s t : OrderedSet κ} (h : s.toList = t.toList) : s = t := by
  cases s; cases t; cases h; rfl

instance : DecidableEq (OrderedSet κ) := fun s t =>
  decidable_of_iff (s.toList = t.toList) ⟨ext, fun h => h ▸ rfl⟩

def empty : OrderedSet κ := ⟨[], .nil⟩

instance : Inhabited (OrderedSet κ) := ⟨empty⟩

instance : Membership κ (OrderedSet κ) := ⟨fun s k => k ∈ s.toList⟩

instance (k : κ) (s : OrderedSet κ) : Decidable (k ∈ s) :=
  inferInstanceAs (Decidable (k ∈ s.toList))

theorem mem_def {s : OrderedSet κ} {k : κ} : k ∈ s ↔ k ∈ s.toList := Iff.rfl

def contains (s : OrderedSet κ) (k : κ) : Bool := decide (k ∈ s)

def size (s : OrderedSet κ) : Nat := s.toList.length

def isEmpty (s : OrderedSet κ) : Bool := s.toList.isEmpty

def insertKey (k : κ) : List κ → List κ
  | [] => [k]
  | x :: xs =>
    if k < x then k :: x :: xs
    else if x < k then x :: insertKey k xs
    else x :: xs

theorem mem_insertKey {k a : κ} {xs : List κ} : a ∈ insertKey k xs ↔ a = k ∨ a ∈ xs := by
  induction xs with
  | nil => simp [insertKey]
  | cons x xs ih =>
    unfold insertKey
    split
    · simp
    · split
      · simp [ih, or_left_comm]
      · rename_i h₁ h₂
        have : k = x := OrderedKey.connected h₁ h₂
        simp [this]

theorem pairwise_insertKey {k : κ} {xs : List κ} (h : xs.Pairwise (· < ·)) :
    (insertKey k xs).Pairwise (· < ·) := by
  induction xs with
  | nil => simp [insertKey]
  | cons x xs ih =>
    obtain ⟨hx, hxs⟩ := List.pairwise_cons.1 h
    unfold insertKey
    split
    · rename_i hk
      refine List.pairwise_cons.2 ⟨?_, h⟩
      intro y hy
      rcases List.mem_cons.1 hy with rfl | hy
      · exact hk
      · exact OrderedKey.lt_trans hk (hx y hy)
    · split
      · rename_i hk
        refine List.pairwise_cons.2 ⟨?_, ih hxs⟩
        intro y hy
        rcases mem_insertKey.1 hy with rfl | hy
        · exact hk
        · exact hx y hy
      · exact h

def insert (s : OrderedSet κ) (k : κ) : OrderedSet κ :=
  ⟨insertKey k s.toList, pairwise_insertKey s.sorted⟩

def erase (s : OrderedSet κ) (k : κ) : OrderedSet κ :=
  ⟨s.toList.filter (· ≠ k), s.sorted.filter _⟩

def ofList (ks : List κ) : OrderedSet κ := ks.foldl insert empty

/-- Whether the two sets have an element in common. -/
def meets (s t : OrderedSet κ) : Bool := s.toList.any t.contains

theorem mem_insert {s : OrderedSet κ} {k a : κ} : a ∈ s.insert k ↔ a = k ∨ a ∈ s :=
  mem_insertKey

theorem mem_erase {s : OrderedSet κ} {k a : κ} : a ∈ s.erase k ↔ a ∈ s ∧ a ≠ k := by
  simp [mem_def, erase]

theorem not_mem_empty {a : κ} : ¬ a ∈ (empty : OrderedSet κ) := by
  simp [mem_def, empty]

theorem mem_ofList {ks : List κ} {a : κ} : a ∈ ofList ks ↔ a ∈ ks := by
  have go : ∀ (ks : List κ) (s : OrderedSet κ), a ∈ ks.foldl insert s ↔ a ∈ s ∨ a ∈ ks := by
    intro ks
    induction ks with
    | nil => simp
    | cons k ks ih => intro s; simp [ih, mem_insert, or_assoc, or_left_comm]
  simp [ofList, go, not_mem_empty]

theorem meets_iff {s t : OrderedSet κ} : s.meets t = true ↔ ∃ a, a ∈ s ∧ a ∈ t := by
  simp [meets, contains, mem_def]

end OrderedSet

end Triage
