import Triage.Json.Reader
import Triage.Proofs.Number.Decimal

/-!
# JSON reads back what it writes

A value whose numbers have the form that JSON asks for and whose texts are escaped is read back from
its text (`parse?_toText`).  Each reader is described on what is written for it in front of any rest
that cannot belong to it: numbers in front of what ends them, texts in front of their closing quote.
-/

namespace Triage.Json

open Triage.Decimal (EndsDigits endsDigits_cons append_ne_cons takeWhile_isDigit dropWhile_isDigit)

/-! ### Numbers -/

/-- What follows a number does not go on with a digit, a point or an exponent. -/
def EndsNumber (rest : List Char) : Prop :=
  ∀ c ∈ rest.head?, c.isDigit = false ∧ c ≠ '.' ∧ c ≠ 'e' ∧ c ≠ 'E'

theorem endsNumber_nil : EndsNumber [] := by
  intro c h
  cases h

theorem endsNumber_cons {c : Char} {rest : List Char}
    (h : c.isDigit = false ∧ c ≠ '.' ∧ c ≠ 'e' ∧ c ≠ 'E') : EndsNumber (c :: rest) := by
  intro c' h'
  cases h'
  exact h

theorem EndsNumber.endsDigits {rest : List Char} (h : EndsNumber rest) : EndsDigits rest :=
  fun c hc => (h c hc).1

theorem digits?_append {ds rest : List Char} (hds : ∀ c ∈ ds, c.isDigit = true) (hne : ds ≠ [])
    (hrest : EndsDigits rest) : digits? (ds ++ rest) = some (ds, rest) := by
  have htaken : (ds ++ rest).takeWhile isDigit = ds := takeWhile_isDigit hds hrest
  have hleft : (ds ++ rest).dropWhile isDigit = rest := dropWhile_isDigit hds hrest
  have hnonempty : ds.isEmpty = false := by simpa using hne
  simp only [digits?, htaken, hleft, hnonempty, Bool.false_eq_true, if_false]

theorem whole?_append {ds rest : List Char} (hds : ∀ c ∈ ds, c.isDigit = true) (hne : ds ≠ [])
    (hleading : ds.head? = some '0' → ds = ['0']) (hrest : EndsDigits rest) :
    whole? (ds ++ rest) = some (ds, rest) := by
  by_cases hzero : ds.head? = some '0'
  · rw [hleading hzero]
    cases rest with
    | nil => rfl
    | cons c rest =>
      have hc : isDigit c = false := hrest c rfl
      simp only [whole?, List.cons_append, List.nil_append, hc, Bool.false_eq_true, if_false]
  · obtain ⟨d, ds, rfl⟩ := List.exists_cons_of_ne_nil hne
    unfold whole?
    split
    · rename_i heq
      rw [List.cons_append, List.cons.injEq] at heq
      exact absurd (congrArg some heq.1) hzero
    · exact digits?_append hds hne hrest

theorem fraction?_append {ds rest : List Char} (hds : ∀ c ∈ ds, c.isDigit = true)
    (hrest : EndsDigits rest) (hpoint : ∀ c ∈ rest.head?, c ≠ '.') :
    fraction? ((if ds.isEmpty then [] else '.' :: ds) ++ rest) = some (ds, rest) := by
  cases ds with
  | nil =>
    unfold fraction?
    split
    · rename_i heq
      exact absurd rfl (hpoint '.' (by simpa using congrArg List.head? heq))
    · rfl
  | cons d ds => exact digits?_append hds (List.cons_ne_nil d ds) hrest

/-- The text of an exponent. -/
def exponentText (e : Option (Bool × List Char)) : List Char :=
  match e with
  | none => []
  | some (minus, ds) => 'e' :: (if minus then ['-'] else []) ++ ds

theorem exponent?_append {e : Option (Bool × List Char)} {rest : List Char}
    (he : ∀ p ∈ e, (∀ c ∈ p.2, c.isDigit = true) ∧ p.2 ≠ []) (hrest : EndsNumber rest) :
    exponent? (exponentText e ++ rest) = some (e, rest) := by
  cases e with
  | none =>
    cases rest with
    | nil => rfl
    | cons c rest =>
      obtain ⟨-, -, hlower, hupper⟩ := hrest c rfl
      exact if_neg (not_or.2 ⟨hlower, hupper⟩)
  | some p =>
    obtain ⟨minus, ds⟩ := p
    obtain ⟨hds, hne⟩ := he _ rfl
    have hscan := digits?_append hds hne hrest.endsDigits
    cases minus with
    | true => simp [exponentText, exponent?, hscan]
    | false =>
      simp only [exponentText, Bool.false_eq_true, if_false, List.cons_append, List.nil_append,
        exponent?, true_or, if_true]
      split
      · rename_i heq
        exact absurd heq (append_ne_cons hds hne (by decide) _ _)
      · rename_i heq
        exact absurd heq (append_ne_cons hds hne (by decide) _ _)
      · rw [hscan]
        rfl

theorem endsDigits_exponentText {e : Option (Bool × List Char)} {rest : List Char}
    (hrest : EndsNumber rest) : EndsDigits (exponentText e ++ rest) ∧
      ∀ c ∈ (exponentText e ++ rest).head?, c ≠ '.' := by
  cases e with
  | none => exact ⟨hrest.endsDigits, fun c hc => (hrest c hc).2.1⟩
  | some p =>
    refine ⟨endsDigits_cons (by decide), fun c hc => ?_⟩
    cases hc
    decide

theorem unsigned?_append {d : Decimal} (h : d.WellFormed) {rest : List Char}
    (hrest : EndsNumber rest) : unsigned? d.negative (d.whole ++ ((if d.fraction.isEmpty then [] else '.' :: d.fraction) ++
      (exponentText d.exponent ++ rest))) = some (d, rest) := by
  obtain ⟨hend, hpoint⟩ := endsDigits_exponentText (e := d.exponent) hrest
  have hend' : EndsDigits ((if d.fraction.isEmpty then [] else '.' :: d.fraction) ++
      (exponentText d.exponent ++ rest)) := by
    split
    · exact hend
    · exact endsDigits_cons (by decide)
  simp only [unsigned?, whole?_append h.whole h.whole_ne h.leading hend',
    fraction?_append h.fraction hend hpoint, exponent?_append h.exponent hrest, Option.bind_eq_bind,
    Option.bind_some]
  rfl

theorem render_append (d : Decimal) (rest : List Char) : d.render ++ rest =
    (if d.negative then ['-'] else []) ++ (d.whole ++
      ((if d.fraction.isEmpty then [] else '.' :: d.fraction) ++
        (exponentText d.exponent ++ rest))) := by
  unfold Decimal.render
  simp only [List.append_assoc]
  rfl

theorem number?_render {d : Decimal} (h : d.WellFormed) {rest : List Char}
    (hrest : EndsNumber rest) : number? (d.render ++ rest) = some (d, rest) := by
  have hunsigned := unsigned?_append h hrest
  rw [render_append]
  cases hsign : d.negative with
  | true =>
    rw [hsign] at hunsigned
    exact hunsigned
  | false =>
    rw [hsign] at hunsigned
    unfold number?
    split
    · rename_i heq
      exact absurd heq (append_ne_cons h.whole h.whole_ne (by decide) _ _)
    · exact hunsigned

/-- The first character of a number. -/
theorem number_render_eq_cons {d : Decimal} (h : d.WellFormed) :
    ∃ c cs, d.render = c :: cs ∧ (c.isDigit = true ∨ c = '-') := by
  obtain ⟨c, cs, hwhole⟩ := List.exists_cons_of_ne_nil h.whole_ne
  have hc : c.isDigit = true := h.whole c (by simp [hwhole])
  have hrender := render_append d []
  rw [List.append_nil, hwhole] at hrender
  cases hsign : d.negative with
  | true =>
    rw [hsign] at hrender
    exact ⟨_, _, hrender, .inr rfl⟩
  | false =>
    rw [hsign] at hrender
    exact ⟨_, _, hrender, .inl hc⟩

theorem startsValue_of_number {c : Char} (h : c.isDigit = true ∨ c = '-') :
    isBlank c = false ∧ c ≠ ']' ∧ c ≠ 'n' ∧ c ≠ 't' ∧ c ≠ 'f' ∧ c ≠ '"' ∧ c ≠ '[' ∧ c ≠ '{' := by
  rcases h with h | rfl
  · refine ⟨?_, ?_, ?_, ?_, ?_, ?_, ?_, ?_⟩
    · simp only [isBlank, Bool.or_eq_false_iff, decide_eq_false_iff_not]
      refine ⟨⟨⟨?_, ?_⟩, ?_⟩, ?_⟩ <;> (rintro rfl; exact absurd h (by decide))
    all_goals rintro rfl; exact absurd h (by decide)
  · decide

/-! ### Texts -/

theorem paddedDigits_of_lt : ∀ n < 32, paddedDigits 16 4 n =
    ['0', '0', Nat.digitChar (n / 16), Nat.digitChar (n % 16)] := by
  decide

theorem hexValue4?_of_lt : ∀ n < 32,
    hexValue4? '0' '0' (Nat.digitChar (n / 16)) (Nat.digitChar (n % 16)) = some n := by
  decide

/-- A character is written as itself, by an escape of one letter, or by its number. -/
theorem escapeChar_cases (c : Char) :
    (escapeChar c = [c] ∧ c ≠ '"' ∧ c ≠ '\\' ∧ ¬ c.toNat < 0x20) ∨
    (∃ e, escapeChar c = ['\\', e] ∧ e ≠ 'u' ∧ simpleEscape? e = some c) ∨
    (c.toNat < 0x20 ∧ escapeChar c =
      ['\\', 'u', '0', '0', Nat.digitChar (c.toNat / 16), Nat.digitChar (c.toNat % 16)]) := by
  unfold escapeChar
  split_ifs with hquote hbackslash _ _ _ _ _ hcontrol
  -- the seven characters that have an escape of one letter
  any_goals
    subst_vars
    exact .inr (.inl ⟨_, rfl, by decide, by decide⟩)
  · exact .inr (.inr ⟨hcontrol, by rw [paddedDigits_of_lt _ hcontrol]⟩)
  · exact .inl ⟨rfl, hquote, hbackslash, hcontrol⟩

theorem unescape?_cons_of_ne {c : Char} (h : c ≠ '\\') (rest : List Char) :
    unescape? (c :: rest) = (unescape? rest).map (c :: ·) := by
  rw [unescape?]
  · cases unescape? rest <;> rfl
  all_goals simp [h]

theorem unescape?_letter {e c : Char} (hu : e ≠ 'u') (hc : simpleEscape? e = some c)
    (rest : List Char) : unescape? ('\\' :: e :: rest) = (unescape? rest).map (c :: ·) := by
  rw [unescape?]
  · rw [hc]
    cases unescape? rest <;> rfl
  all_goals simp [hu]

theorem unescape?_escapeChar (c : Char) (rest : List Char) :
    unescape? (escapeChar c ++ rest) = (unescape? rest).map (c :: ·) := by
  rcases escapeChar_cases c with ⟨hself, -, hbackslash, -⟩ | ⟨e, hletter, hu, hc⟩ | ⟨hlt, hnumber⟩
  · rw [hself]
    exact unescape?_cons_of_ne hbackslash rest
  · rw [hletter]
    exact unescape?_letter hu hc rest
  · have hc : Char.ofNat c.toNat = c := Char.ofNat_toNat c
    have hhigh : ¬ (0xD800 ≤ c.toNat ∧ c.toNat < 0xDC00) := by omega
    have hlow : ¬ (0xDC00 ≤ c.toNat ∧ c.toNat < 0xE000) := by omega
    rw [hnumber]
    simp only [List.cons_append, List.nil_append, unescape?, hexValue4?_of_lt _ hlt,
      Option.bind_eq_bind, Option.bind_some, if_neg hhigh, if_neg hlow, hc]
    cases unescape? rest <;> rfl

/-- Digits need no escapes. -/
theorem escape_digits {ds : List Char} (h : ∀ c ∈ ds, c.isDigit = true) : escape ds = ds := by
  induction ds with
  | nil => rfl
  | cons c ds ih =>
    have hrange := Decimal.toNat_of_isDigit (h c List.mem_cons_self)
    have hne {x : Char} (hx : x.toNat < 48 ∨ 57 < x.toNat) : c ≠ x := by
      rintro rfl
      omega
    have hself : escapeChar c = [c] := by
      unfold escapeChar
      rw [if_neg (hne (by decide)), if_neg (hne (by decide)), if_neg (hne (by decide)),
        if_neg (hne (by decide)), if_neg (hne (by decide)), if_neg (hne (by decide)),
        if_neg (hne (by decide)), if_neg (by omega)]
    rw [escape, List.flatMap_cons, hself, ← escape, ih fun d hd => h d (List.mem_cons_of_mem c hd)]
    rfl

theorem unescape?_escape (cs : List Char) : unescape? (escape cs) = some cs := by
  induction cs with
  | nil => rfl
  | cons c cs ih =>
    rw [escape, List.flatMap_cons, unescape?_escapeChar, ← escape, ih]
    rfl

theorem lexeme?_cons_of_ne {c : Char} (hquote : c ≠ '"') (hbackslash : c ≠ '\\')
    (hlt : ¬ c.toNat < 0x20) (rest : List Char) : lexeme? (c :: rest) = (lexeme? rest).map fun (l, r) => (c :: l, r) := by
  rw [lexeme?]
  · exact if_neg (not_or.2 ⟨hbackslash, hlt⟩)
  all_goals simp [hquote, hbackslash]

theorem lexeme?_letter {e c : Char} (hu : e ≠ 'u') (hc : simpleEscape? e = some c)
    (rest : List Char) : lexeme? ('\\' :: e :: rest) =
      (lexeme? rest).map fun (l, r) => ('\\' :: e :: l, r) := by
  rw [lexeme?]
  · rw [hc]
  all_goals simp [hu]
theorem lexeme?_escapeChar (c : Char) (rest : List Char) :
    lexeme? (escapeChar c ++ rest) = (lexeme? rest).map fun (l, r) => (escapeChar c ++ l, r) := by
  rcases escapeChar_cases c with ⟨hself, hquote, hbackslash, hlt⟩ | ⟨e, hletter, hu, hc⟩ |
    ⟨hlt, hnumber⟩
  · rw [hself]
    exact lexeme?_cons_of_ne hquote hbackslash hlt rest
  · rw [hletter]
    exact lexeme?_letter hu hc rest
  · rw [hnumber]
    simp only [List.cons_append, List.nil_append, lexeme?, hexValue4?_of_lt _ hlt]

theorem lexeme?_escape (cs rest : List Char) :
    lexeme? (escape cs ++ '"' :: rest) = some (escape cs, rest) := by
  induction cs with
  | nil => rfl
  | cons c cs ih =>
    rw [escape, List.flatMap_cons, List.append_assoc, lexeme?_escapeChar, ← escape, ih]
    rfl

/-! ### Values -/

/-- A value that writing makes: its numbers are well-formed and its texts escaped. -/
inductive WellFormed : Json → Prop where
  | null : WellFormed .null
  | bool (b : Bool) : WellFormed (.bool b)
  | number {d : Decimal} (h : d.WellFormed) : WellFormed (.number d)
  | text (cs : List Char) : WellFormed (.text (escape cs))
  | list {items : List Json} (h : ∀ v ∈ items, WellFormed v) : WellFormed (.list items)
  | table {entries : List (List Char × Json)} (hkeys : ∀ e ∈ entries, ∃ cs, e.1 = escape cs)
      (h : ∀ e ∈ entries, WellFormed e.2) : WellFormed (.table entries)

/-- The value is read from the start of its text, whatever comes after it.  The length of the text is
fuel enough, since every value inside it takes at least one character less. -/
def Readable (v : Json) : Prop :=
  ∀ fuel rest, v.render.length ≤ fuel → EndsNumber rest →
    value? fuel (v.render ++ rest) = some (v, rest)

theorem skipBlanks_cons {c : Char} (h : isBlank c = false) (cs : List Char) :
    skipBlanks (c :: cs) = c :: cs :=
  List.dropWhile_cons_of_neg (by simp [h])

theorem commaSeparated_cons (x : List Char) {xs : List (List Char)} (h : xs ≠ []) :
    commaSeparated (x :: xs) = x ++ ',' :: commaSeparated xs := by
  cases xs with
  | nil => exact absurd rfl h
  | cons y ys => rfl

theorem readable_number {d : Decimal} (h : d.WellFormed) : (Json.number d).Readable := by
  intro fuel rest hfuel hrest
  have hread := number?_render h hrest
  obtain ⟨c, cs, hrender, hc⟩ := number_render_eq_cons h
  obtain ⟨hblank, -, hn, ht, hf, hquote, hlist, htable⟩ := startsValue_of_number hc
  have hskip : skipBlanks (d.render ++ rest) = d.render ++ rest := by
    rw [hrender]
    exact skipBlanks_cons hblank _
  have hother {x : Char} {xs : List Char} (heq : d.render ++ rest = x :: xs) : c = x := by
    rw [hrender, List.cons_append, List.cons.injEq] at heq
    exact heq.1
  cases fuel with
  | zero => simp [render, hrender] at hfuel
  | succ fuel =>
    rw [render, value?, hskip]
    -- no other kind of value starts like a number
    split
    · rename_i heq
      exact absurd (hother heq) hn
    · rename_i heq
      exact absurd (hother heq) ht
    · rename_i heq
      exact absurd (hother heq) hf
    · rename_i heq
      exact absurd (hother heq) hquote
    · rename_i heq
      exact absurd (hother heq) hlist
    · rename_i heq
      exact absurd (hother heq) htable
    · rw [hread]
      rfl

theorem WellFormed.render_eq_cons {v : Json} (h : v.WellFormed) :
    ∃ c cs, v.render = c :: cs ∧ isBlank c = false ∧ c ≠ ']' := by
  cases h with
  | null => exact ⟨_, _, rfl, by decide, by decide⟩
  | bool b => cases b <;> exact ⟨_, _, rfl, by decide, by decide⟩
  | number h =>
    obtain ⟨c, cs, hrender, hc⟩ := number_render_eq_cons h
    obtain ⟨hblank, hclose, -⟩ := startsValue_of_number hc
    exact ⟨c, cs, hrender, hblank, hclose⟩
  | text cs => exact ⟨_, _, rfl, by decide, by decide⟩
  | list h => exact ⟨_, _, rfl, by decide, by decide⟩
  | table hkeys h => exact ⟨_, _, rfl, by decide, by decide⟩

/-- The last item, in front of the closing bracket. -/
theorem items?_last {v : Json} (hv : v.Readable) {fuel : Nat} (hfuel : v.render.length ≤ fuel)
    (rest : List Char) : items? (fuel + 1) (v.render ++ ']' :: rest) = some ([v], rest) := by
  rw [items?]
  refine Option.bind_eq_some_iff.2 ⟨_, hv fuel _ hfuel (endsNumber_cons (by decide)), ?_⟩
  simp only [skipBlanks_cons (c := ']') (by decide)]

/-- An item in front of a comma and other items. -/
theorem items?_cons {v : Json} (hv : v.Readable) {fuel : Nat} (hfuel : v.render.length ≤ fuel)
    {tail rest : List Char} {vs : List Json} (htail : items? fuel tail = some (vs, rest)) :
    items? (fuel + 1) (v.render ++ ',' :: tail) = some (v :: vs, rest) := by
  rw [items?]
  refine Option.bind_eq_some_iff.2 ⟨_, hv fuel _ hfuel (endsNumber_cons (by decide)), ?_⟩
  simp only [skipBlanks_cons (c := ',') (by decide), htail, Option.map_some]

theorem items?_render {items : List Json} (h : ∀ v ∈ items, v.Readable) (hne : items ≠ [])
    {fuel : Nat} (hfuel : (commaSeparated (renderItems items)).length < fuel) (rest : List Char) :
    items? fuel (commaSeparated (renderItems items) ++ ']' :: rest) = some (items, rest) := by
  induction items generalizing fuel with
  | nil => exact absurd rfl hne
  | cons v vs ih =>
    have hv := h v List.mem_cons_self
    cases fuel with
    | zero => cases hfuel
    | succ fuel =>
      cases vs with
      | nil =>
        rw [renderItems, renderItems, commaSeparated] at hfuel ⊢
        exact items?_last hv (by omega) rest
      | cons w ws =>
        rw [renderItems, commaSeparated_cons _ (by simp [renderItems])] at hfuel ⊢
        rw [List.length_append, List.length_cons] at hfuel
        have hrest : items? fuel (commaSeparated (renderItems (w :: ws)) ++ ']' :: rest) =
            some (w :: ws, rest) :=
          ih (fun u hu => h u (List.mem_cons_of_mem _ hu)) (List.cons_ne_nil _ _) (by omega)
        rw [List.append_assoc, List.cons_append]
        exact items?_cons hv (by omega) hrest

/-- The last entry, in front of the closing brace. -/
theorem entriesFrom?_last (cs : List Char) {v : Json} (hv : v.Readable) {fuel : Nat}
    (hfuel : v.render.length ≤ fuel) (rest : List Char) :
    entriesFrom? (fuel + 1) ((quote (escape cs) ++ ':' :: v.render) ++ '}' :: rest) =
      some ([(escape cs, v)], rest) := by
  have hread := hv fuel ('}' :: rest) hfuel (endsNumber_cons (by decide))
  simp only [quote, List.cons_append, List.append_assoc, List.nil_append, entriesFrom?,
    skipBlanks_cons (c := '"') (by decide)]
  refine Option.bind_eq_some_iff.2 ⟨_, lexeme?_escape cs _, ?_⟩
  simp only [skipBlanks_cons (c := ':') (by decide)]
  refine Option.bind_eq_some_iff.2 ⟨_, hread, ?_⟩
  simp only [skipBlanks_cons (c := '}') (by decide)]

/-- An entry in front of a comma and other entries. -/
theorem entriesFrom?_cons (cs : List Char) {v : Json} (hv : v.Readable) {fuel : Nat}
    (hfuel : v.render.length ≤ fuel) {tail rest : List Char} {es : List (List Char × Json)}
    (htail : entriesFrom? fuel tail = some (es, rest)) :
    entriesFrom? (fuel + 1) ((quote (escape cs) ++ ':' :: v.render) ++ ',' :: tail) =
      some ((escape cs, v) :: es, rest) := by
  have hread := hv fuel (',' :: tail) hfuel (endsNumber_cons (by decide))
  simp only [quote, List.cons_append, List.append_assoc, List.nil_append, entriesFrom?,
    skipBlanks_cons (c := '"') (by decide)]
  refine Option.bind_eq_some_iff.2 ⟨_, lexeme?_escape cs _, ?_⟩
  simp only [skipBlanks_cons (c := ':') (by decide)]
  refine Option.bind_eq_some_iff.2 ⟨_, hread, ?_⟩
  simp only [skipBlanks_cons (c := ',') (by decide), htail, Option.map_some]

theorem entriesFrom?_render {entries : List (List Char × Json)}
    (hkeys : ∀ e ∈ entries, ∃ cs, e.1 = escape cs) (h : ∀ e ∈ entries, e.2.Readable)
    (hne : entries ≠ []) {fuel : Nat}
    (hfuel : (commaSeparated (renderEntries entries)).length < fuel) (rest : List Char) :
    entriesFrom? fuel (commaSeparated (renderEntries entries) ++ '}' :: rest) =
      some (entries, rest) := by
  induction entries generalizing fuel with
  | nil => exact absurd rfl hne
  | cons e es ih =>
    obtain ⟨k, v⟩ := e
    obtain ⟨cs, rfl⟩ : ∃ cs, k = escape cs := hkeys _ List.mem_cons_self
    have hv : v.Readable := h _ List.mem_cons_self
    cases fuel with
    | zero => cases hfuel
    | succ fuel =>
      cases es with
      | nil =>
        rw [renderEntries, renderEntries, commaSeparated] at hfuel ⊢
        rw [List.length_append, List.length_cons] at hfuel
        exact entriesFrom?_last cs hv (by omega) rest
      | cons e es =>
        rw [renderEntries, commaSeparated_cons _ (by simp [renderEntries])] at hfuel ⊢
        simp only [List.length_append, List.length_cons] at hfuel
        have hrest : entriesFrom? fuel (commaSeparated (renderEntries (e :: es)) ++ '}' :: rest) =
            some (e :: es, rest) :=
          ih (fun f hf => hkeys f (List.mem_cons_of_mem _ hf))
            (fun f hf => h f (List.mem_cons_of_mem _ hf)) (List.cons_ne_nil _ _) (by omega)
        rw [List.append_assoc _ (',' :: _), List.cons_append]
        exact entriesFrom?_cons cs hv (by omega) hrest

theorem commaSeparated_eq_cons {x : List Char} {c : Char} {cs : List Char} (h : x = c :: cs)
    (xs : List (List Char)) : ∃ ds, commaSeparated (x :: xs) = c :: ds := by
  subst h
  cases xs with
  | nil => exact ⟨cs, rfl⟩
  | cons y ys => exact ⟨_, rfl⟩

theorem readable_list {items : List Json} (hwf : ∀ v ∈ items, v.WellFormed)
    (h : ∀ v ∈ items, v.Readable) : (Json.list items).Readable := by
  intro fuel rest hfuel _
  cases fuel with
  | zero => simp [render] at hfuel
  | succ fuel =>
    rw [render, List.length_append, List.length_cons, List.length_singleton] at hfuel
    rw [render, List.cons_append, List.cons_append, List.append_assoc, List.singleton_append,
      value?, skipBlanks_cons (by decide)]
    cases items with
    | nil => rfl
    | cons v vs =>
      obtain ⟨c, cs, hrender, hblank, hclose⟩ := (hwf v List.mem_cons_self).render_eq_cons
      obtain ⟨ds, hds⟩ := commaSeparated_eq_cons hrender (renderItems vs)
      have hread : items? fuel (commaSeparated (renderItems (v :: vs)) ++ ']' :: rest) =
          some (v :: vs, rest) :=
        items?_render h (List.cons_ne_nil v vs) (by omega) rest
      rw [renderItems, hds, List.cons_append] at hread ⊢
      simp only [skipBlanks_cons hblank]
      -- the list is not closed at once, for no value starts with a bracket that closes
      split
      · rename_i heq
        rw [List.cons.injEq] at heq
        exact absurd heq.1 hclose
      · rw [hread]
        rfl

theorem readable_table {entries : List (List Char × Json)}
    (hkeys : ∀ e ∈ entries, ∃ cs, e.1 = escape cs) (h : ∀ e ∈ entries, e.2.Readable) :
    (Json.table entries).Readable := by
  intro fuel rest hfuel _
  cases fuel with
  | zero => simp [render] at hfuel
  | succ fuel =>
    rw [render, List.length_append, List.length_cons, List.length_singleton] at hfuel
    rw [render, List.cons_append, List.cons_append, List.append_assoc, List.singleton_append,
      value?, skipBlanks_cons (by decide)]
    cases entries with
    | nil => rfl
    | cons e es =>
      obtain ⟨ds, hds⟩ := commaSeparated_eq_cons (x := quote e.1 ++ ':' :: render e.2) rfl
        (renderEntries es)
      have hread : entriesFrom? fuel (commaSeparated (renderEntries (e :: es)) ++ '}' :: rest) =
          some (e :: es, rest) :=
        entriesFrom?_render hkeys h (List.cons_ne_nil e es) (by omega) rest
      rw [renderEntries, hds, List.cons_append] at hread ⊢
      simp only [skipBlanks_cons (c := '"') (by decide)]
      split
      · rename_i heq
        rw [List.cons.injEq] at heq
        exact absurd heq.1 (by decide)
      · rw [hread]
        rfl

theorem WellFormed.readable {v : Json} (h : v.WellFormed) : v.Readable := by
  induction h with
  | null =>
    intro fuel rest hfuel _
    cases fuel with
    | zero => cases hfuel
    | succ fuel => rfl
  | bool b =>
    intro fuel rest hfuel _
    cases fuel with
    | zero => cases b <;> cases hfuel
    | succ fuel => cases b <;> rfl
  | number h => exact readable_number h
  | text cs =>
    intro fuel rest hfuel _
    cases fuel with
    | zero => cases hfuel
    | succ fuel =>
      rw [render, quote, List.cons_append, List.cons_append, List.append_assoc,
        List.singleton_append, value?, skipBlanks_cons (by decide)]
      simp only [lexeme?_escape, Option.map_some]
  | list h ih => exact readable_list h ih
  | table hkeys h ih => exact readable_table hkeys ih

theorem parse?_toText {v : Json} (h : v.WellFormed) : parse? v.toText = some v := by
  have hread := h.readable (2 * v.render.length + 2) [] (by omega) endsNumber_nil
  rw [List.append_nil] at hread
  simp only [parse?, toText, String.toList_ofList, hread]
  rfl

end Triage.Json
