import Triage.Proofs.Defect
import Triage.Proofs.Execution

/-!
# Requests to the defect store

`DefectStore.alter` replaces one stored defect by what a function makes of it.  A change that
reports truthfully whether it changed anything has exactly this effect (`update_of_faithful`), so
what an update does to the store does not hang on the report.
-/

namespace Triage

namespace DefectStore

def alter (s : DefectStore) (id : Nat) (f : Defect → Defect) : DefectStore :=
  { s with defects := s.defects.modify id f }

/-- No change is reported only where there is none. -/
def Faithful (change : Defect → Bool × Defect) : Prop :=
  ∀ d, (change d).1 = false → (change d).2 = d

variable {s : DefectStore} {id k : Nat} {d : Defect}

theorem find?_alter (s : DefectStore) (id k : Nat) (f : Defect → Defect) :
    (s.alter id f).find? k = if id = k then (s.find? k).map f else s.find? k :=
  OrderedMap.find?_modify s.defects id k f

theorem find?_alter_self (h : s.find? id = some d) (f : Defect → Defect) :
    (s.alter id f).find? id = some (f d) := by
  rw [find?_alter, if_pos rfl, h]
  rfl

theorem find?_alter_of_ne (h : id ≠ k) (f : Defect → Defect) :
    (s.alter id f).find? k = s.find? k := by
  rw [find?_alter, if_neg h]

theorem find?_save (s : DefectStore) (d : Defect) (k : Nat) :
    (s.save d).find? k = if d.id = k then some d else s.find? k :=
  OrderedMap.find?_insert s.defects d.id k d

theorem find?_remove (s : DefectStore) (id k : Nat) :
    (s.remove id).2.find? k = if id = k then none else s.find? k :=
  OrderedMap.find?_erase s.defects id k

theorem mem_all_iff : d ∈ s.all ↔ ∃ id, s.find? id = some d := OrderedMap.mem_values_iff

/-- Stores with the same look-ups and the same last id are equal. -/
theorem ext_find? {s t : DefectStore} (h : ∀ k, s.find? k = t.find? k) (hl : s.lastId = t.lastId) :
    s = t := by
  cases s; cases t
  cases hl
  congr
  exact OrderedMap.ext_find? h

/-- Only what a function makes of the stored defect matters. -/
theorem alter_congr {f g : Defect → Defect} (h : ∀ d, s.find? id = some d → f d = g d) :
    s.alter id f = s.alter id g := by
  refine ext_find? (fun k => ?_) rfl
  rw [find?_alter, find?_alter]
  split
  · rename_i hk
    subst hk
    cases hd : s.find? id with
    | none => rfl
    | some d => simp [h d hd]
  · rfl

theorem alter_eq_self {f : Defect → Defect} (h : ∀ d, s.find? id = some d → f d = d) :
    s.alter id f = s := by
  rw [alter_congr h]
  refine ext_find? (fun k => ?_) rfl
  rw [find?_alter]
  split <;> simp

theorem alter_alter (s : DefectStore) (id : Nat) (f g : Defect → Defect) :
    (s.alter id f).alter id g = s.alter id fun d => g (f d) := by
  refine ext_find? (fun k => ?_) rfl
  simp only [find?_alter]
  split
  · rw [Option.map_map]
    rfl
  · rfl

theorem update_of_faithful {change : Defect → Bool × Defect} (hc : Faithful change)
    (h : s.find? id = some d) :
    s.update id change = .ok ((change d).1, s.alter id fun d => (change d).2) := by
  unfold update
  rw [h]
  simp only
  split
  · rename_i d' hd'
    rw [hd']
    have : ({ s with defects := s.defects.insert id d' } : DefectStore) =
        s.alter id fun d => (change d).2 := by
      refine ext_find? (fun k => ?_) rfl
      rw [find?_alter]
      change (s.defects.insert id d').find? k = _
      rw [OrderedMap.find?_insert]
      split
      · rename_i hk
        rw [← hk, h, Option.map_some, hd']
      · rfl
    rw [this]
  · rename_i d' hd'
    have hflag : (change d).1 = false := by rw [hd']
    rw [hflag, alter_eq_self]
    intro e he
    rw [h] at he
    cases he
    exact hc d hflag

end DefectStore

theorem Stores.answer_update {s : Stores} {id : Nat} {d : Defect}
    {change : Defect → Bool × Defect} (hc : DefectStore.Faithful change)
    (h : s.defects.find? id = some d) :
    s.answer (.updateDefect id change) =
      (.ok (change d).1, { s with defects := s.defects.alter id fun d => (change d).2 }) := by
  simp only [answer, DefectStore.update_of_faithful hc h, withDefects]

theorem Pass.exec_update {s : Stores} {id : Nat} {d : Defect} {change : Defect → Bool × Defect}
    (hc : DefectStore.Faithful change) (h : s.defects.find? id = some d) :
    (Pass.ask (.updateDefect id change)).exec s =
      (.ok (change d).1, { s with defects := s.defects.alter id fun d => (change d).2 }) :=
  Pass.runWith_ask_of_ok _ (c := .updateDefect id change) (Stores.answer_update hc h)

/-! ## Well-formed defect stores -/

/-- Each defect is stored under its own id, as `save` stores it. -/
def DefectStore.Keyed (s : DefectStore) : Prop := ∀ ⦃id d⦄, s.find? id = some d → d.id = id

namespace DefectStore.Keyed

variable {s : DefectStore}

theorem find?_of_mem_all (h : s.Keyed) {d : Defect} (hd : d ∈ s.all) : s.find? d.id = some d := by
  obtain ⟨id, hid⟩ := mem_all_iff.1 hd
  rw [h hid]
  exact hid

theorem map_id_all (h : s.Keyed) : s.all.map (·.id) = s.defects.keys := by
  unfold all OrderedMap.values OrderedMap.keys
  rw [List.map_map]
  exact List.map_congr_left fun e he => h (OrderedMap.mem_entries_iff.1 he)

end DefectStore.Keyed

/-- Defects are stored under their ids, ids have been given out, members are stored under their build
ids, and a superseded defect is not open. -/
structure DefectStore.WellFormed (s : DefectStore) : Prop where
  keyed {id : Nat} {d : Defect} : s.find? id = some d → d.id = id
  bounded {id : Nat} {d : Defect} : s.find? id = some d → id ≤ s.lastId
  members {id : Nat} {d : Defect} : s.find? id = some d → d.MembersKeyed
  closed {id : Nat} {d : Defect} : s.find? id = some d → d.supersededBy.isSome → d.isOpen = false

namespace DefectStore.WellFormed

variable {s : DefectStore}

/-- A store without defects is well-formed, whatever ids have been given out. -/
theorem of_none (h : ∀ id, s.find? id = none) : s.WellFormed := by
  constructor <;> intro id d hd <;> rw [h id] at hd <;> cases hd

theorem isKeyed (h : s.WellFormed) : s.Keyed := fun _ _ => h.keyed

theorem find?_of_mem_all (h : s.WellFormed) {d : Defect} (hd : d ∈ s.all) :
    s.find? d.id = some d :=
  h.isKeyed.find?_of_mem_all hd

theorem map_id_all (h : s.WellFormed) : s.all.map (·.id) = s.defects.keys := h.isKeyed.map_id_all

theorem notSuperseded_of_isOpen (h : s.WellFormed) {id : Nat} {d : Defect}
    (hd : s.find? id = some d) (ho : d.isOpen = true) : d.supersededBy = none := by
  by_contra hne
  have := h.closed hd (Option.isSome_iff_ne_none.2 hne)
  rw [ho] at this
  cases this

/-- A store each of whose defects comes from a defect of the same id is well-formed when the
record itself is. -/
theorem alter (h : s.WellFormed) {id : Nat} {f : Defect → Defect}
    (hf : ∀ d, s.find? id = some d → (f d).id = d.id ∧ (f d).MembersKeyed ∧
      ((f d).supersededBy.isSome → (f d).isOpen = false)) : (s.alter id f).WellFormed := by
  have key : ∀ {k d'}, (s.alter id f).find? k = some d' →
      ∃ d, s.find? k = some d ∧ (d' = d ∨ (k = id ∧ d' = f d)) := by
    intro k d' hd'
    rw [find?_alter] at hd'
    split at hd'
    · rename_i hk
      obtain ⟨d, hd, rfl⟩ := Option.map_eq_some_iff.1 hd'
      exact ⟨d, hd, .inr ⟨hk.symm, rfl⟩⟩
    · exact ⟨d', hd', .inl rfl⟩
  constructor
  · intro k d' hd'
    obtain ⟨d, hd, rfl | ⟨rfl, rfl⟩⟩ := key hd'
    · exact h.keyed hd
    · exact (hf d hd).1.trans (h.keyed hd)
  · intro k d' hd'
    obtain ⟨d, hd, -⟩ := key hd'
    exact h.bounded hd
  · intro k d' hd'
    obtain ⟨d, hd, rfl | ⟨rfl, rfl⟩⟩ := key hd'
    · exact h.members hd
    · exact (hf d hd).2.1
  · intro k d' hd'
    obtain ⟨d, hd, rfl | ⟨rfl, rfl⟩⟩ := key hd'
    · exact h.closed hd
    · exact (hf d hd).2.2

theorem alter_of_sameStanding (h : s.WellFormed) {id : Nat} {f : Defect → Defect}
    (hf : ∀ d, Defect.SameStanding d (f d))
    (hm : ∀ d, s.find? id = some d → (f d).MembersKeyed) : (s.alter id f).WellFormed := by
  refine h.alter fun d hd => ⟨(hf d).id, hm d hd, fun hsup => ?_⟩
  rw [(hf d).isOpen]
  exact h.closed hd ((hf d).supersededBy ▸ hsup)

theorem nextId (h : s.WellFormed) : s.nextId.2.WellFormed :=
  ⟨h.keyed, fun hd => (h.bounded hd).trans (Nat.le_succ _), h.members, h.closed⟩

/-- A new defect under the next id. -/
theorem save_next (h : s.WellFormed) {d : Defect} (hid : d.id = s.lastId + 1)
    (hm : d.MembersKeyed) (hc : d.supersededBy = none) : (s.nextId.2.save d).WellFormed := by
  have key : ∀ {k d'}, (s.nextId.2.save d).find? k = some d' →
      (k = s.lastId + 1 ∧ d' = d) ∨ s.find? k = some d' := by
    intro k d' hd'
    rw [find?_save] at hd'
    split at hd'
    · rename_i hk
      cases hd'
      exact .inl ⟨hk.symm.trans hid, rfl⟩
    · exact .inr hd'
  constructor
  · intro k d' hd'
    rcases key hd' with ⟨rfl, rfl⟩ | hd'
    · exact hid
    · exact h.keyed hd'
  · intro k d' hd'
    rcases key hd' with ⟨rfl, rfl⟩ | hd'
    · exact le_rfl
    · exact (h.bounded hd').trans (Nat.le_succ _)
  · intro k d' hd'
    rcases key hd' with ⟨rfl, rfl⟩ | hd'
    · exact hm
    · exact h.members hd'
  · intro k d' hd' hsup
    rcases key hd' with ⟨rfl, rfl⟩ | hd'
    · rw [hc] at hsup
      cases hsup
    · exact h.closed hd' hsup

end DefectStore.WellFormed

end Triage
