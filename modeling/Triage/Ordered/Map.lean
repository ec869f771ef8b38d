import Triage.Ordered.Key

/-!
# Maps sorted by key

`OrderedMap κ ν` is a list of entries in strictly ascending order of their keys, so each key
occurs once and two maps with the same entries are equal.  `find?_insert`, `find?_erase` and
`find?_modify` say what each operation does to a look-up.
-/

namespace Triage

structure OrderedMap (κ ν : Type) [OrderedKey κ] where
  entries : List (κ × ν)
  sorted : entries.Pairwise (fun a b => a.1 < b.1)

namespace OrderedMap

variable {κ ν : Type} [OrderedKey κ]

local instance : DecidableEq κ := OrderedKey.decEq

@[ext] theorem ext {m n : OrderedMap κ ν} (h : m.entries = n.entries) : m = n := by
  cases m; cases n; cases h; rfl

instance [DecidableEq ν] : DecidableEq (OrderedMap κ ν) := fun m n =>
  decidable_of_iff (m.entries = n.entries) ⟨ext, fun h => h ▸ rfl⟩

def empty : OrderedMap κ ν := ⟨[], .nil⟩

instance : Inhabited (OrderedMap κ ν) := ⟨empty⟩

def find? (m : OrderedMap κ ν) (k : κ) : Option ν :=
  (m.entries.find? fun e => e.1 = k).map (·.2)

def contains (m : OrderedMap κ ν) (k : κ) : Bool := m.entries.any fun e => e.1 = k

def keys (m : OrderedMap κ ν) : List κ := m.entries.map (·.1)

def values (m : OrderedMap κ ν) : List ν := m.entries.map (·.2)

def size (m : OrderedMap κ ν) : Nat := m.entries.length

def isEmpty (m : OrderedMap κ ν) : Bool := m.entries.isEmpty

/-- The entries with `v` at `k`, in the place that its key has or asks for. -/
def insertEntry (k : κ) (v : ν) : List (κ × ν) → List (κ × ν)
  | [] => [(k, v)]
  | e :: es =>
    if k < e.1 then (k, v) :: e :: es
    else if e.1 < k then e :: insertEntry k v es
    else (k, v) :: es

theorem mem_insertEntry {k : κ} {v : ν} {es : List (κ × ν)} {e : κ × ν}
    (h : e ∈ insertEntry k v es) : e = (k, v) ∨ e ∈ es := by
  induction es with
  | nil => simpa [insertEntry] using h
  | cons x xs ih =>
    unfold insertEntry at h
    split at h
    · simpa using h
    · split at h
      · rcases List.mem_cons.1 h with rfl | h
        · simp
        · rcases ih h with h | h <;> simp [h]
      · rcases List.mem_cons.1 h with rfl | h <;> simp_all

theorem pairwise_insertEntry {k : κ} {v : ν} {es : List (κ × ν)}
    (h : es.Pairwise (fun a b => a.1 < b.1)) :
    (insertEntry k v es).Pairwise (fun a b => a.1 < b.1) := by
  induction es with
  | nil => simp [insertEntry]
  | cons x xs ih =>
    obtain ⟨hx, hxs⟩ := List.pairwise_cons.1 h
    unfold insertEntry
    split
    · rename_i hk
      refine List.pairwise_cons.2 ⟨?_, h⟩
      intro y hy
      rcases List.mem_cons.1 hy with rfl | hy
      · exact hk
      · exact OrderedKey.lt_trans hk (hx y hy)
    · split
      · rename_i hk
        refine List.pairwise_cons.2 ⟨?_, ih hxs⟩
        intro y hy
        rcases mem_insertEntry hy with rfl | hy
        · exact hk
        · exact hx y hy
      · rename_i h₁ h₂
        refine List.pairwise_cons.2 ⟨?_, hxs⟩
        intro y hy
        have : k = x.1 := OrderedKey.connected h₁ h₂
        simpa [this] using hx y hy

/-- Sets the value at `k`, new or not. -/
def insert (m : OrderedMap κ ν) (k : κ) (v : ν) : OrderedMap κ ν :=
  ⟨insertEntry k v m.entries, pairwise_insertEntry m.sorted⟩

def erase (m : OrderedMap κ ν) (k : κ) : OrderedMap κ ν :=
  ⟨m.entries.filter fun e => e.1 ≠ k, m.sorted.filter _⟩

/-- The entries that `p` keeps. -/
def filter (m : OrderedMap κ ν) (p : κ → ν → Bool) : OrderedMap κ ν :=
  ⟨m.entries.filter fun e => p e.1 e.2, m.sorted.filter _⟩

/-- Applies `f` to the value at `k`, if there is one. -/
def modify (m : OrderedMap κ ν) (k : κ) (f : ν → ν) : OrderedMap κ ν :=
  ⟨m.entries.map fun e => if e.1 = k then (e.1, f e.2) else e, by
    refine List.pairwise_map.2 (m.sorted.imp ?_)
    intro a b h
    split <;> split <;> exact h⟩

/-- Drops the first `budget` entries that satisfy `p`. -/
def dropFirst (p : ν → Bool) : Nat → List (κ × ν) → List (κ × ν)
  | 0, es => es
  | _, [] => []
  | n + 1, e :: es => if p e.2 then dropFirst p n es else e :: dropFirst p (n + 1) es

omit [OrderedKey κ] in
theorem dropFirst_sublist (p : ν → Bool) (n : Nat) (es : List (κ × ν)) :
    (dropFirst p n es).Sublist es := by
  induction es generalizing n with
  | nil => cases n <;> exact .refl _
  | cons e es ih =>
    cases n with
    | zero => exact .refl _
    | succ n =>
      unfold dropFirst
      split
      · exact (ih n).cons _
      · exact (ih (n + 1)).cons_cons _

/-- Removes, in the order of their keys, at most `budget` values that satisfy `p`. -/
def removeFirst (m : OrderedMap κ ν) (p : ν → Bool) (budget : Nat) : OrderedMap κ ν :=
  ⟨dropFirst p budget m.entries, m.sorted.sublist (dropFirst_sublist p budget m.entries)⟩

/-- A later value for the same key replaces an earlier one. -/
def ofList (es : List (κ × ν)) : OrderedMap κ ν :=
  es.foldl (fun m e => m.insert e.1 e.2) empty

theorem find?_insertEntry (k k' : κ) (v : ν) {es : List (κ × ν)}
    (h : es.Pairwise (fun a b => a.1 < b.1)) :
    (insertEntry k v es).find? (fun e => e.1 = k') =
      if k = k' then some (k, v) else es.find? (fun e => e.1 = k') := by
  induction es with
  | nil => by_cases hk : k = k' <;> simp [insertEntry, hk]
  | cons x xs ih =>
    obtain ⟨hx, hxs⟩ := List.pairwise_cons.1 h
    unfold insertEntry
    split
    · by_cases hk : k = k' <;> simp [hk]
    · split
      · rename_i hlt
        by_cases hk : k = k'
        · subst hk
          simp [ih hxs, OrderedKey.ne_of_lt hlt]
        · by_cases hx' : x.1 = k' <;> simp [ih hxs, hk, hx']
      · rename_i h₁ h₂
        have hkx : k = x.1 := OrderedKey.connected h₁ h₂
        by_cases hk : k = k'
        · simp [hk]
        · have : x.1 ≠ k' := hkx ▸ hk
          simp [hk, this]

theorem find?_insert (m : OrderedMap κ ν) (k k' : κ) (v : ν) :
    (m.insert k v).find? k' = if k = k' then some v else m.find? k' := by
  unfold find? insert
  rw [find?_insertEntry k k' v m.sorted]
  split <;> rfl

@[simp] theorem find?_insert_self (m : OrderedMap κ ν) (k : κ) (v : ν) :
    (m.insert k v).find? k = some v := by
  simp [find?_insert]

theorem find?_erase (m : OrderedMap κ ν) (k k' : κ) :
    (m.erase k).find? k' = if k = k' then none else m.find? k' := by
  unfold find? erase
  rw [List.find?_filter]
  by_cases hk : k = k'
  · subst hk
    rw [if_pos rfl, List.find?_eq_none.2] <;> simp
  · rw [if_neg hk]
    congr 2
    funext e
    by_cases he : e.1 = k'
    · have : e.1 ≠ k := fun h => hk (h.symm.trans he)
      simp [he, Ne.symm hk]
    · simp [he]

theorem find?_modify (m : OrderedMap κ ν) (k k' : κ) (f : ν → ν) :
    (m.modify k f).find? k' = if k = k' then (m.find? k').map f else m.find? k' := by
  unfold find? modify
  rw [List.find?_map]
  have hp : ((fun e : κ × ν => decide (e.1 = k')) ∘ fun e => if e.1 = k then (e.1, f e.2) else e) =
      fun e => decide (e.1 = k') := by
    funext e
    simp only [Function.comp]
    split <;> rfl
  rw [hp]
  cases hf : m.entries.find? (fun e => decide (e.1 = k')) with
  | none => simp
  | some e =>
    have he : e.1 = k' := by simpa using List.find?_some hf
    by_cases hk : k = k'
    · simp [he, hk]
    · simp [he, hk, Ne.symm hk]

theorem contains_iff_mem_keys {m : OrderedMap κ ν} {k : κ} : m.contains k = true ↔ k ∈ m.keys := by
  simp [contains, keys]

theorem contains_eq_isSome (m : OrderedMap κ ν) (k : κ) : m.contains k = (m.find? k).isSome := by
  rw [Bool.eq_iff_iff]
  simp [contains, find?]

end OrderedMap

end Triage
