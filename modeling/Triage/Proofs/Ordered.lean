import Mathlib
import Triage.Ordered.Map
import Triage.Ordered.Set

/-!
# Look-ups in ordered maps

An ordered map is determined by its look-ups (`ext_find?`), and its entries, keys and values are
those that a look-up finds.  Inserting at a key replaces the one value there (`values_insert_perm`).
-/

namespace Triage.OrderedMap

variable {κ ν : Type} [OrderedKey κ]

local instance : DecidableEq κ := OrderedKey.decEq

theorem key_inj {m : OrderedMap κ ν} {e e' : κ × ν} (h : e ∈ m.entries) (h' : e' ∈ m.entries)
    (hk : e.1 = e'.1) : e = e' := by
  by_contra hne
  rcases List.pairwise_iff_getElem.1 m.sorted, List.getElem_of_mem h, List.getElem_of_mem h' with
    ⟨hs, ⟨i, hi, rfl⟩, ⟨j, hj, rfl⟩⟩
  rcases Nat.lt_trichotomy i j with hij | rfl | hij
  · exact OrderedKey.ne_of_lt (hs i j hi hj hij) hk
  · exact hne rfl
  · exact OrderedKey.ne_of_lt (hs j i hj hi hij) hk.symm

theorem contains_congr {m n : OrderedMap κ ν} {k : κ} (h : m.find? k = n.find? k) :
    m.contains k = n.contains k := by
  rw [contains_eq_isSome, contains_eq_isSome, h]

theorem mem_entries_iff {m : OrderedMap κ ν} {k : κ} {v : ν} :
    (k, v) ∈ m.entries ↔ m.find? k = some v := by
  unfold find?
  constructor
  · intro h
    cases hf : m.entries.find? (fun e => decide (e.1 = k)) with
    | none => exact absurd (List.find?_eq_none.1 hf _ h) (by simp)
    | some e =>
      have hk : e.1 = k := by simpa using List.find?_some hf
      rw [key_inj (List.mem_of_find?_eq_some hf) h hk]
      rfl
  · intro h
    obtain ⟨e, he, rfl⟩ := Option.map_eq_some_iff.1 h
    have hk : e.1 = k := by simpa using List.find?_some he
    exact hk ▸ List.mem_of_find?_eq_some he

theorem mem_values_iff {m : OrderedMap κ ν} {v : ν} : v ∈ m.values ↔ ∃ k, m.find? k = some v := by
  simp [values, ← mem_entries_iff]

theorem mem_keys_iff {m : OrderedMap κ ν} {k : κ} : k ∈ m.keys ↔ (m.find? k).isSome := by
  simp [keys, Option.isSome_iff_exists, ← mem_entries_iff]

theorem nodup_keys (m : OrderedMap κ ν) : m.keys.Nodup :=
  List.pairwise_map.2 (m.sorted.imp fun h => OrderedKey.ne_of_lt h)

/-- Two maps with the same look-ups are equal. -/
theorem ext_find? {m n : OrderedMap κ ν} (h : ∀ k, m.find? k = n.find? k) : m = n := by
  have : Std.Irrefl (fun a b : κ × ν => a.1 < b.1) := ⟨fun a => OrderedKey.lt_irrefl a.1⟩
  have : Std.Antisymm (fun a b : κ × ν => a.1 < b.1) :=
    ⟨fun _ _ hab hba => absurd hba (OrderedKey.lt_asymm hab)⟩
  refine ext (m.sorted.eq_of_mem_iff n.sorted ?_)
  rintro ⟨k, v⟩
  rw [mem_entries_iff, mem_entries_iff, h k]

theorem insertEntry_perm {k : κ} {v : ν} {es : List (κ × ν)}
    (h : es.Pairwise (fun a b => a.1 < b.1)) :
    (insertEntry k v es).Perm ((k, v) :: es.filter fun e => e.1 ≠ k) := by
  induction es with
  | nil => exact .refl _
  | cons x xs ih =>
    obtain ⟨hx, hxs⟩ := List.pairwise_cons.1 h
    unfold insertEntry
    split
    · rename_i hlt
      have hsame : (x :: xs).filter (fun e => e.1 ≠ k) = x :: xs := by
        refine List.filter_eq_self.2 fun e he => ?_
        rcases List.mem_cons.1 he with rfl | he
        · simpa using (OrderedKey.ne_of_lt hlt).symm
        · simpa using (OrderedKey.ne_of_lt (OrderedKey.lt_trans hlt (hx e he))).symm
      rw [hsame]
    · split
      · rename_i hlt
        rw [List.filter_cons_of_pos (by simpa using OrderedKey.ne_of_lt hlt)]
        exact ((ih hxs).cons x).trans (.swap _ _ _)
      · rename_i h₁ h₂
        have hkx : k = x.1 := OrderedKey.connected h₁ h₂
        have hsame : xs.filter (fun e => e.1 ≠ k) = xs :=
          List.filter_eq_self.2 fun e he => by
            simpa [hkx] using (OrderedKey.ne_of_lt (hx e he)).symm
        rw [List.filter_cons_of_neg (by simp [hkx]), hsame]

theorem values_insert_perm (m : OrderedMap κ ν) (k : κ) (v : ν) :
    (m.insert k v).values.Perm (v :: (m.erase k).values) :=
  (insertEntry_perm (k := k) (v := v) m.sorted).map Prod.snd

theorem insert_of_find? {m : OrderedMap κ ν} {k : κ} {v : ν} (h : m.find? k = some v) :
    m.insert k v = m := by
  refine ext_find? fun k' => ?_
  rw [find?_insert]
  split
  · rename_i hk
    rw [← hk, h]
  · rfl

theorem erase_of_find? {m : OrderedMap κ ν} {k : κ} (h : m.find? k = none) : m.erase k = m := by
  refine ext_find? fun k' => ?_
  rw [find?_erase]
  split
  · rename_i hk
    rw [← hk, h]
  · rfl

/-! ### Removal of the first values with a property -/

omit [OrderedKey κ] in
/-- The entries that are dropped are the first ones with the property, as many as the budget allows. -/
theorem mem_dropFirst {p : ν → Bool} {n : Nat} {es : List (κ × ν)} (h : es.Nodup) {e : κ × ν} :
    e ∈ dropFirst p n es ↔ e ∈ es ∧ e ∉ (es.filter fun e => p e.2).take n := by
  induction es generalizing n with
  | nil => cases n <;> simp [dropFirst]
  | cons x xs ih =>
    obtain ⟨hx, hxs⟩ := List.nodup_cons.1 h
    cases n with
    | zero => simp [dropFirst]
    | succ n =>
      by_cases hp : p x.2 = true
      · rw [dropFirst, if_pos hp, ih hxs, List.filter_cons, if_pos hp, List.take_succ_cons]
        constructor
        · rintro ⟨he, hnot⟩
          have hne : e ≠ x := fun heq => hx (heq ▸ he)
          simp [he, hne, hnot]
        · rintro ⟨he, hnot⟩
          obtain ⟨hne, hnot⟩ := not_or.1 (mt List.mem_cons.2 hnot)
          exact ⟨(List.mem_cons.1 he).resolve_left hne, hnot⟩
      · rw [dropFirst, if_neg hp, List.filter_cons, if_neg hp, List.mem_cons, List.mem_cons, ih hxs]
        have hkept : x ∉ (xs.filter fun e => p e.2).take (n + 1) := fun hmem =>
          hx (List.mem_of_mem_filter (List.mem_of_mem_take hmem))
        constructor
        · rintro (rfl | ⟨he, hnot⟩)
          · exact ⟨.inl rfl, hkept⟩
          · exact ⟨.inr he, hnot⟩
        · rintro ⟨rfl | he, hnot⟩
          · exact .inl rfl
          · exact .inr ⟨he, hnot⟩

omit [OrderedKey κ] in
theorem length_dropFirst (p : ν → Bool) (n : Nat) (es : List (κ × ν)) :
    (dropFirst p n es).length + min n (es.countP fun e => p e.2) = es.length := by
  induction es generalizing n with
  | nil => cases n <;> simp [dropFirst]
  | cons x xs ih =>
    cases n with
    | zero => simp [dropFirst]
    | succ n =>
      by_cases hp : p x.2 = true
      · have := ih n
        rw [dropFirst, if_pos hp, List.countP_cons, if_pos hp, List.length_cons]
        omega
      · have := ih (n + 1)
        rw [dropFirst, if_neg hp, List.countP_cons, if_neg hp, List.length_cons, List.length_cons]
        omega

theorem nodup_entries (m : OrderedMap κ ν) : m.entries.Nodup :=
  m.sorted.imp fun h heq => OrderedKey.ne_of_lt h (congrArg Prod.fst heq)

theorem find?_removeFirst (m : OrderedMap κ ν) (p : ν → Bool) (n : Nat) (k : κ) :
    (m.removeFirst p n).find? k =
      if k ∈ ((m.entries.filter fun e => p e.2).take n).map (·.1) then none else m.find? k := by
  have hmem : ∀ v, (m.removeFirst p n).find? k = some v ↔
      m.find? k = some v ∧ (k, v) ∉ (m.entries.filter fun e => p e.2).take n := by
    intro v
    rw [← mem_entries_iff, ← mem_entries_iff]
    exact mem_dropFirst m.nodup_entries
  split
  · rename_i hk
    obtain ⟨⟨k', v'⟩, htaken, rfl⟩ := List.mem_map.1 hk
    refine Option.eq_none_iff_forall_ne_some.2 fun v hv => ?_
    obtain ⟨hfind, hnot⟩ := (hmem v).1 hv
    -- an entry that is dropped is the only one with its key
    have hentry := List.mem_of_mem_filter (List.mem_of_mem_take htaken)
    exact hnot (key_inj (mem_entries_iff.2 hfind) hentry rfl ▸ htaken)
  · rename_i hk
    refine Option.ext fun v => (hmem v).trans ⟨And.left, fun hv => ⟨hv, fun hin => hk ?_⟩⟩
    exact List.mem_map.2 ⟨_, hin, rfl⟩

theorem size_sub_removeFirst (m : OrderedMap κ ν) (p : ν → Bool) (n : Nat) :
    m.size - (m.removeFirst p n).size = min n (m.values.countP p) := by
  have hlength := length_dropFirst p n m.entries
  have hcount : m.values.countP p = m.entries.countP fun e => p e.2 := List.countP_map
  unfold size removeFirst
  simp only
  omega

omit [OrderedKey κ] in
/-- To drop entries in two rounds is to drop them in one. -/
theorem dropFirst_dropFirst (p : ν → Bool) (a b : Nat) (es : List (κ × ν)) :
    dropFirst p b (dropFirst p a es) = dropFirst p (a + b) es := by
  induction es generalizing a with
  | nil => cases a <;> cases b <;> rfl
  | cons x xs ih =>
    cases a with
    | zero => rw [dropFirst, Nat.zero_add]
    | succ a =>
      rw [Nat.succ_add]
      by_cases hp : p x.2 = true
      · rw [dropFirst, if_pos hp, dropFirst, if_pos hp, ih]
      · rw [dropFirst, if_neg hp, dropFirst, if_neg hp]
        cases b with
        | zero => rw [dropFirst, Nat.add_zero]
        | succ b => rw [dropFirst, if_neg hp, ih, Nat.succ_add]

theorem removeFirst_removeFirst (m : OrderedMap κ ν) (p : ν → Bool) (a b : Nat) :
    (m.removeFirst p a).removeFirst p b = m.removeFirst p (a + b) :=
  ext (dropFirst_dropFirst p a b m.entries)

theorem size_removeFirst_le (m : OrderedMap κ ν) (p : ν → Bool) (n : Nat) :
    (m.removeFirst p n).size ≤ m.size :=
  (dropFirst_sublist p n m.entries).length_le

/-! ### A function applied to all values -/

def mapValues {μ : Type} (f : ν → μ) (m : OrderedMap κ ν) : OrderedMap κ μ :=
  ⟨m.entries.map fun e => (e.1, f e.2), List.pairwise_map.2 m.sorted⟩

theorem find?_mapValues {μ : Type} (f : ν → μ) (m : OrderedMap κ ν) (k : κ) :
    (m.mapValues f).find? k = (m.find? k).map f := by
  unfold find? mapValues
  rw [List.find?_map, Option.map_map, Option.map_map]
  rfl

theorem values_mapValues {μ : Type} (f : ν → μ) (m : OrderedMap κ ν) :
    (m.mapValues f).values = m.values.map f := by
  unfold values mapValues
  rw [List.map_map, List.map_map]
  rfl

theorem find?_of_removeFirst {m : OrderedMap κ ν} {p : ν → Bool} {n : Nat} {k : κ} {v : ν}
    (h : (m.removeFirst p n).find? k = some v) : m.find? k = some v :=
  mem_entries_iff.1 ((dropFirst_sublist p n m.entries).subset (mem_entries_iff.2 h))

/-! ### The values with a property -/

theorem find?_filter (m : OrderedMap κ ν) (p : κ → ν → Bool) (k : κ) :
    (m.filter p).find? k = (m.find? k).filter (p k) := by
  refine Option.ext fun v => ?_
  have hmem : (k, v) ∈ (m.filter p).entries ↔ (k, v) ∈ m.entries ∧ p k v = true := List.mem_filter
  rw [← mem_entries_iff, hmem, mem_entries_iff, Option.filter_eq_some_iff]

theorem values_filter (m : OrderedMap κ ν) (p : ν → Bool) :
    (m.filter fun _ v => p v).values = m.values.filter p := by
  unfold values filter
  rw [List.filter_map]
  rfl

/-! ### A key above all others -/

theorem insertEntry_of_lt {k : κ} {v : ν} {es : List (κ × ν)} (h : ∀ e ∈ es, e.1 < k) :
    insertEntry k v es = es ++ [(k, v)] := by
  induction es with
  | nil => rfl
  | cons x xs ih =>
    have hx : x.1 < k := h x (by simp)
    unfold insertEntry
    rw [if_neg (OrderedKey.lt_asymm hx), if_pos hx, ih fun e he => h e (by simp [he])]
    rfl

theorem values_insert_of_lt {m : OrderedMap κ ν} {k : κ} (h : ∀ k' ∈ m.keys, k' < k) (v : ν) :
    (m.insert k v).values = m.values ++ [v] := by
  have hentries : ∀ e ∈ m.entries, e.1 < k := fun e he => h e.1 (List.mem_map_of_mem he)
  change (insertEntry k v m.entries).map (·.2) = m.entries.map (·.2) ++ [v]
  rw [insertEntry_of_lt hentries, List.map_append]
  rfl

theorem entries_ofList {es : List (κ × ν)} (h : es.Pairwise fun a b => a.1 < b.1) :
    (ofList es).entries = es := by
  induction es using List.reverseRecOn with
  | nil => rfl
  | append_singleton es e ih =>
    obtain ⟨hes, -, hlast⟩ := List.pairwise_append.1 h
    have hentries := ih hes
    have habove : ∀ x ∈ (ofList es).entries, x.1 < e.1 := by
      rw [hentries]
      exact fun x hx => hlast x hx e (List.mem_singleton.2 rfl)
    rw [ofList, List.foldl_append, ← ofList]
    exact (insertEntry_of_lt habove).trans (by rw [hentries])

theorem ofList_entries (m : OrderedMap κ ν) : ofList m.entries = m := ext (entries_ofList m.sorted)

end Triage.OrderedMap

namespace Triage.OrderedSet

variable {κ : Type} [OrderedKey κ]

/-- Two sets with the same elements are equal. -/
theorem ext_mem {s t : OrderedSet κ} (h : ∀ k, k ∈ s ↔ k ∈ t) : s = t := by
  have : Std.Irrefl (fun a b : κ => a < b) := ⟨OrderedKey.lt_irrefl⟩
  have : Std.Antisymm (fun a b : κ => a < b) :=
    ⟨fun _ _ hab hba => absurd hba (OrderedKey.lt_asymm hab)⟩
  exact ext (s.sorted.eq_of_mem_iff t.sorted fun k => h k)

theorem ofList_toList (s : OrderedSet κ) : ofList s.toList = s := ext_mem fun _ => mem_ofList

theorem meets_comm (s t : OrderedSet κ) : s.meets t = t.meets s := by
  rw [Bool.eq_iff_iff, meets_iff, meets_iff]
  exact ⟨fun ⟨a, h, h'⟩ => ⟨a, h', h⟩, fun ⟨a, h, h'⟩ => ⟨a, h', h⟩⟩

theorem nodup_toList (s : OrderedSet κ) : s.toList.Nodup :=
  s.sorted.imp fun h => OrderedKey.ne_of_lt h

end Triage.OrderedSet
