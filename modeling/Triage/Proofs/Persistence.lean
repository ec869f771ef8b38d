import Triage.Persistence.Defect
import Triage.Persistence.History
import Triage.Proofs.Json
import Triage.Proofs.Ordered
import Triage.Proofs.Time.Rfc3339

/-!
# Stored values read back

`ReadsBack` says of one value that what is written for it is well-formed JSON from which it is read;
its text then gives it back too (`ReadsBack.readText`).  Texts, numbers, points in time, lists, sets,
maps and variants have this property if their parts do, and a record has it if its fields do
(`readsBack_record`).
-/

namespace Triage

open Document

namespace Persistence

variable {α β : Type}

/-- A value is written as well-formed JSON from which it is read back. -/
structure ReadsBack (write : α → Json) (read : Json → Option α) (a : α) : Prop where
  wellFormed : (write a).WellFormed
  read_write : read (write a) = some a

theorem ReadsBack.readText {write : α → Json} {read : Json → Option α} {a : α}
    (h : ReadsBack write read a) : readText read (write a).toText = some a := by
  rw [Persistence.readText, Json.parse?_toText h.wellFormed]
  exact h.read_write

/-- Values that are read back from their texts have different texts if they differ. -/
theorem injOn_toText {write : α → Json} {read : Json → Option α} {S : Set α}
    (h : ∀ a ∈ S, ReadsBack write read a) : Set.InjOn (fun a => (write a).toText) S := by
  intro a ha a' ha' heq
  have hread := (h a ha).readText
  rw [show (write a).toText = (write a').toText from heq, (h a' ha').readText] at hread
  exact (Option.some_inj.1 hread).symm

/-! ### Texts and numbers -/

theorem readsBack_text (s : String) : ReadsBack Json.ofString text? s where
  wellFormed := .text s.toList
  read_write := by
    have hread : text? (Json.ofString s) =
        (Json.unescape? (Json.escape s.toList)).map String.ofList := rfl
    rw [hread, Json.unescape?_escape, Option.map_some, String.ofList_toList]

theorem wellFormed_ofNat (n : Nat) : (Json.ofNat n).WellFormed :=
  .number (Decimal.wellFormed_ofInt n)

theorem integer?_ofNat {n : Nat} (h : n < Word.size) :
    integer? (Json.ofNat n) = some (n : Int) := by
  have hread : integer? (Json.ofNat n) = Json.wholeNumber? (Decimal.ofInt n) := rfl
  have hnegative : decide ((n : Int) < 0) = false := by simp
  rw [hread]
  simp only [Json.wholeNumber?, Decimal.ofInt, hnegative, Int.natAbs_natCast,
    Decimal.valueOf_digitsOf, if_pos h]
  rfl

theorem readsBack_natBelow {bound n : Nat} (h : n < bound) (hbound : bound ≤ Word.size) :
    ReadsBack Json.ofNat (natBelow? bound) n where
  wellFormed := wellFormed_ofNat n
  read_write := by
    have hrange : 0 ≤ (n : Int) ∧ (n : Int) < (bound : Int) := by omega
    rw [natBelow?, integer?_ofNat (h.trans_le hbound)]
    simp only [if_pos hrange, Int.toNat_natCast]

theorem readsBack_word {n : Nat} (h : n < Word.size) : ReadsBack Json.ofNat word? n :=
  readsBack_natBelow h (Nat.le_refl _)

/-- The printed text of a float reads back as the same float. -/
def FloatReadsBack (x : Float) : Prop := readText number? (Json.ofFloat x).toText = some x

theorem wellFormed_ofFloat (x : Float) : (Json.ofFloat x).WellFormed := by
  unfold Json.ofFloat
  split
  · rename_i d hd
    exact .number (Decimal.wellFormed_ofFloat? hd)
  · exact .null

theorem readsBack_float {x : Float} (h : FloatReadsBack x) : ReadsBack Json.ofFloat number? x where
  wellFormed := wellFormed_ofFloat x
  read_write := by
    rwa [FloatReadsBack, readText, Json.parse?_toText (wellFormed_ofFloat x)] at h

theorem readsBack_timestamp {t : Timestamp} (h : t.IsPlain) : ReadsBack timestamp timestamp? t where
  wellFormed := (readsBack_text _).wellFormed
  read_write := by
    rw [timestamp?, timestamp, (readsBack_text _).read_write, Option.bind_some]
    exact Rfc3339.parse?_render h

/-! ### Collections -/

theorem mapM_map_eq_some {write : α → β} {read : β → Option α} {xs : List α}
    (h : ∀ x ∈ xs, read (write x) = some x) : (xs.map write).mapM read = some xs := by
  induction xs with
  | nil => rfl
  | cons x xs ih =>
    rw [List.map_cons, List.mapM_cons, h x List.mem_cons_self,
      ih fun y hy => h y (List.mem_cons_of_mem x hy)]
    rfl

theorem readsBack_list {write : α → Json} {read : Json → Option α} {xs : List α}
    (h : ∀ x ∈ xs, ReadsBack write read x) : ReadsBack (list write) (listOf? read) xs where
  wellFormed := .list fun v hv => by
    obtain ⟨x, hx, rfl⟩ := List.mem_map.1 hv
    exact (h x hx).wellFormed
  read_write := mapM_map_eq_some fun x hx => (h x hx).read_write

theorem readsBack_set {κ : Type} [OrderedKey κ] {write : κ → Json} {read : Json → Option κ}
    {s : OrderedSet κ} (h : ∀ k ∈ s.toList, ReadsBack write read k) :
    ReadsBack (set write) (set? read) s where
  wellFormed := (readsBack_list h).wellFormed
  read_write := by
    rw [set?, set, (readsBack_list h).read_write, Option.map_some, OrderedSet.ofList_toList]

theorem wordKey?_digitsOf {n : Nat} (h : n < Word.size) :
    wordKey? (Decimal.digitsOf n) = some n := by
  have hread := Json.number?_render (Decimal.wellFormed_ofInt n) Json.endsNumber_nil
  have hrender : (Decimal.ofInt n).render = Decimal.digitsOf n := by
    have hnegative : ¬ (n : Int) < 0 := by omega
    simp [Decimal.render, Decimal.ofInt, hnegative]
  rw [List.append_nil, hrender] at hread
  rw [wordKey?, hread]
  exact (readsBack_word h).read_write

theorem readsBack_wordKeyed {write : α → Json} {read : Json → Option α} {m : OrderedMap Nat α}
    (hkeys : ∀ e ∈ m.entries, e.1 < Word.size) (h : ∀ e ∈ m.entries, ReadsBack write read e.2) :
    ReadsBack (wordKeyed write) (wordKeyed? read) m where
  wellFormed := by
    refine .table (fun e he => ?_) fun e he => ?_
    · obtain ⟨x, -, rfl⟩ := List.mem_map.1 he
      exact ⟨_, (Json.escape_digits fun c => Decimal.isDigit_of_mem_digitsOf).symm⟩
    · obtain ⟨x, hx, rfl⟩ := List.mem_map.1 he
      exact (h x hx).wellFormed
  read_write := by
    have hentries : (m.entries.map fun e => (Decimal.digitsOf e.1, write e.2)).mapM
        (fun e => do return (← wordKey? e.1, ← read e.2)) = some m.entries :=
      mapM_map_eq_some fun e he => by
        simp only [wordKey?_digitsOf (hkeys e he), (h e he).read_write]
        rfl
    rw [wordKeyed, wordKeyed?, hentries]
    exact congrArg some (OrderedMap.ofList_entries m)

/-! ### Variants -/

theorem readsBack_variant {all : List α} {name : α → String} {a : α}
    (h : (all.find? fun b => name b = name a) = some a) :
    ReadsBack (fun a => Json.ofString (name a)) (variant? all name) a where
  wellFormed := (readsBack_text _).wellFormed
  read_write := by
    have hname : variantName? (Json.ofString (name a)) = some (name a) :=
      (readsBack_text (name a)).read_write
    rw [variant?, hname]
    exact h

/-! ### Records -/

/-- Reads a value that may be null. -/
def nullable? (read : Json → Option α) (v : Json) : Option (Option α) :=
  if isNull v then some none else (read v).map some

/-- Null stands for no value, which a value must not be written as. -/
theorem readsBack_option {write : α → Json} {read : Json → Option α} {o : Option α}
    (hnull : ∀ a, isNull (write a) = false) (h : ∀ a ∈ o, ReadsBack write read a) :
    ReadsBack (Json.ofOption write) (nullable? read) o := by
  cases o with
  | none => exact ⟨.null, rfl⟩
  | some a =>
    obtain ⟨hwellFormed, hread⟩ := h a rfl
    refine ⟨hwellFormed, ?_⟩
    simp only [nullable?, Json.ofOption, hnull a, hread, Bool.false_eq_true, if_false,
      Option.map_some]

/-- Field names that are all different and need no escapes. -/
def PlainNames (names : List String) : Prop :=
  names.Nodup ∧ ∀ name ∈ names, Json.escape name.toList = name.toList

instance (names : List String) : Decidable (PlainNames names) :=
  inferInstanceAs (Decidable (_ ∧ _))

theorem wellFormed_record {entries : List (String × Json)} {names : List String}
    (hnames : PlainNames names) (hentries : entries.map (·.1) = names)
    (h : ∀ e ∈ entries, e.2.WellFormed) : (Json.record entries).WellFormed := by
  subst hentries
  refine .table (fun e he => ?_) fun e he => ?_
  · obtain ⟨x, hx, rfl⟩ := List.mem_map.1 he
    exact ⟨_, (hnames.2 x.1 (List.mem_map_of_mem hx)).symm⟩
  · obtain ⟨x, hx, rfl⟩ := List.mem_map.1 he
    exact h x hx

theorem table?_record {entries : List (String × Json)} (hnames : PlainNames (entries.map (·.1))) :
    table? (Json.record entries) = some entries := by
  have hread : table? (Json.record entries) = (entries.map fun e => (e.1.toList, e.2)).mapM fun e =>
      (Json.unescape? e.1).map fun k => (String.ofList k, e.2) := rfl
  rw [hread]
  refine mapM_map_eq_some fun e he => ?_
  rw [← hnames.2 e.1 (List.mem_map_of_mem he), Json.unescape?_escape, Option.map_some,
    String.ofList_toList]

/-- All fields of a record are given. -/
theorem fields?_record {entries : List (String × Json)} {names : List String}
    (hnames : PlainNames names) (hentries : entries.map (·.1) = names) :
    fields? names (Json.record entries) = some ⟨entries, true⟩ := by
  subst hentries
  have hgiven : entries.filter (fun e => (entries.map (·.1)).contains e.1) = entries :=
    List.filter_eq_self.2 fun e he => List.contains_iff_mem.2 (List.mem_map_of_mem he)
  simp only [fields?, table?_record hnames, hgiven, if_pos hnames.1]

/-- A record is read back if its fields are. -/
theorem readsBack_record {write : α → Json} {read : Fields Json → Option α} {a : α}
    {entries : List (String × Json)} {names : List String} (hnames : PlainNames names)
    (hwrite : write a = .record entries) (hentries : entries.map (·.1) = names)
    (h : ∀ e ∈ entries, e.2.WellFormed) (hread : read ⟨entries, true⟩ = some a) :
    ReadsBack write (fun v => (fields? names v).bind read) a where
  wellFormed := hwrite ▸ wellFormed_record hnames hentries h
  read_write := by
    rw [hwrite, fields?_record hnames hentries]
    exact hread

section

variable {f : Fields Json} {name : String} {write : α → Json} {read : Json → Option α}

theorem required_eq {a : α} (hfind : f.find? name = some (write a)) (h : ReadsBack write read a) :
    f.required name read = some a := by
  rw [Fields.required, hfind]
  exact h.read_write

theorem optional_eq {o : Option α} (hfind : f.find? name = some (Json.ofOption write o))
    (h : ReadsBack (Json.ofOption write) (nullable? read) o) : f.optional name read = some o := by
  rw [Fields.optional, hfind]
  exact h.read_write

end

end Persistence

end Triage
