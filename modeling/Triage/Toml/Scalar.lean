import Triage.Number.Decimal
import Triage.Text.Hex
import Triage.Time.Calendar
import Triage.Toml

/-!
# Scalar values in TOML

Texts, numbers, dates and times.  Each reader takes a value from the front of the characters and
returns what follows it.
-/

namespace Triage.Toml

def isBlank (c : Char) : Bool := c = ' ' || c = '\t'

def skipBlanks (cs : List Char) : List Char := cs.dropWhile isBlank

/-- Tabs and all characters but controls. -/
def isPlain (c : Char) : Bool := c = '\t' || (0x20 ≤ c.toNat && c.toNat ≠ 0x7f)

def newline? : List Char → Option (List Char)
  | '\n' :: rest => some rest
  | '\r' :: '\n' :: rest => some rest
  | _ => none

/-! ### Texts -/

def simpleEscape? (c : Char) : Option Char :=
  if c = '"' ∨ c = '\\' then some c
  else if c = 'b' then some '\x08'
  else if c = 'f' then some '\x0c'
  else if c = 'n' then some '\n'
  else if c = 'r' then some '\r'
  else if c = 't' then some '\t'
  else none

/-- The character with the code point that the hexadecimal digits spell. -/
def codePoint? (ds : List Char) : Option Char := do
  let n ← ds.foldlM (fun n d => return 16 * n + (← Text.Hex.charValue? d)) 0
  if n.isValidChar then some (Char.ofNat n) else none

/-- Up to two quotes can stand right before the three that close a text. -/
def closing (quote : Char) (cs : List Char) : List Char × List Char :=
  let extra := (cs.takeWhile (· = quote)).take 2
  (extra, cs.drop extra.length)

/-- Whether nothing but blanks stands before the end of the line. -/
def isLineEnd (cs : List Char) : Bool := (newline? (skipBlanks cs)).isSome

def push (c : Char) : Option (List Char × List Char) → Option (List Char × List Char)
  | some (cs, rest) => some (c :: cs, rest)
  | none => none

/-- A text after its opening double quotes; three of them open a text of many lines, in which a
backslash at the end of a line takes away all blanks and newlines up to the next character. -/
def quotedText? (multi skipping : Bool) : List Char → Option (List Char × List Char)
  | [] => none
  | '\\' :: 'u' :: a :: b :: c :: d :: rest =>
    (codePoint? [a, b, c, d]).bind fun x => push x (quotedText? multi false rest)
  | '\\' :: 'U' :: a :: b :: c :: d :: e :: f :: g :: h :: rest =>
    (codePoint? [a, b, c, d, e, f, g, h]).bind fun x => push x (quotedText? multi false rest)
  | '\\' :: c :: rest =>
    if multi && isLineEnd (c :: rest) then quotedText? multi true rest
    else (simpleEscape? c).bind fun x => push x (quotedText? multi false rest)
  | '\r' :: '\n' :: rest =>
    if !multi then none
    else if skipping then quotedText? multi true rest
    else push '\n' (quotedText? multi false rest)
  | '"' :: '"' :: '"' :: rest =>
    if multi then some (closing '"' rest) else some ([], '"' :: '"' :: rest)
  | c :: rest =>
    if c = '"' then if multi then push c (quotedText? multi false rest) else some ([], rest)
    else if skipping && (isBlank c || c = '\n') then quotedText? multi true rest
    else if c ≠ '\\' && isPlain c || multi && c = '\n' then push c (quotedText? multi false rest)
    else none

/-- A text after its opening single quotes, which knows no escapes. -/
def literalText? (multi : Bool) : List Char → Option (List Char × List Char)
  | [] => none
  | '\r' :: '\n' :: rest => if multi then push '\n' (literalText? multi rest) else none
  | '\'' :: '\'' :: '\'' :: rest =>
    if multi then some (closing '\'' rest) else some ([], '\'' :: '\'' :: rest)
  | c :: rest =>
    if c = '\'' then if multi then push c (literalText? multi rest) else some ([], rest)
    else if isPlain c || multi && c = '\n' then push c (literalText? multi rest)
    else none

/-- A newline right after the opening quotes is not part of a text of many lines. -/
def dropNewline (cs : List Char) : List Char := (newline? cs).getD cs

def text? : List Char → Option (List Char × List Char)
  | '"' :: '"' :: '"' :: rest => quotedText? true false (dropNewline rest)
  | '"' :: rest => quotedText? false false rest
  | '\'' :: '\'' :: '\'' :: rest => literalText? true (dropNewline rest)
  | '\'' :: rest => literalText? false rest
  | _ => none

/-! ### Numbers -/

/-- Digits between which single underscores can stand, after the first of them. -/
def moreDigits? (isDigit : Char → Bool) : List Char → Option (List Char × List Char)
  | [] => some ([], [])
  | '_' :: c :: rest => if isDigit c then push c (moreDigits? isDigit rest) else none
  | c :: rest =>
    if isDigit c then push c (moreDigits? isDigit rest)
    else if c = '_' then none
    else some ([], c :: rest)

def digits? (isDigit : Char → Bool) : List Char → Option (List Char × List Char)
  | c :: rest => if isDigit c then push c (moreDigits? isDigit rest) else none
  | [] => none

/-- A whole number does not start with a superfluous zero. -/
def whole? : List Char → Option (List Char × List Char)
  | '0' :: rest => some (['0'], rest)
  | cs => digits? Char.isDigit cs

def sign : List Char → Option Bool × List Char
  | '+' :: rest => (some false, rest)
  | '-' :: rest => (some true, rest)
  | cs => (none, cs)

def exponent? : List Char → Option (Option (Bool × List Char) × List Char)
  | c :: rest =>
    if c = 'e' ∨ c = 'E' then
      let (minus, rest) := sign rest
      (digits? Char.isDigit rest).map fun (ds, r) => (some (minus.getD false, ds), r)
    else some (none, c :: rest)
  | [] => some (none, [])

def fraction? : List Char → Option (List Char × List Char)
  | '.' :: rest => digits? Char.isDigit rest
  | cs => some ([], cs)

def ofInteger? (n : Int) : Option Toml :=
  if Word.isSigned n then some (.integer n) else none

/-- A float that is too large is refused if it is positive; otherwise it is minus infinity. -/
def ofFloat? (x : Float) : Option Toml := if x.isInf && 0.0 < x then none else some (.float x)

def isBelow (base : Nat) (c : Char) : Bool := (Text.Hex.charValue? c).any (· < base)

/-- The digits of a whole number in another base, after the mark of the base. -/
def based? (base : Nat) (cs : List Char) : Option (Toml × List Char) := do
  let (ds, rest) ← digits? (isBelow base) cs
  let n := ds.foldl (fun n d => base * n + (Text.Hex.charValue? d).getD 0) 0
  return (← ofInteger? n, rest)

def decimal? (negative : Bool) (cs : List Char) : Option (Toml × List Char) := do
  let (ds, cs) ← whole? cs
  let (fraction, cs) ← fraction? cs
  let (exponent, cs) ← exponent? cs
  let d : Decimal := ⟨negative, ds, fraction, exponent⟩
  if fraction.isEmpty && exponent.isNone then
    let n : Int := Decimal.valueOf ds
    return (← ofInteger? (if negative then -n else n), cs)
  else return (← ofFloat? d.nearest, cs)

def number? : List Char → Option (Toml × List Char)
  | '0' :: 'x' :: rest => based? 16 rest
  | '0' :: 'o' :: rest => based? 8 rest
  | '0' :: 'b' :: rest => based? 2 rest
  | cs =>
    let (minus, cs) := sign cs
    let negative := minus.getD false
    match cs with
    | 'i' :: 'n' :: 'f' :: rest => some (.float (Decimal.signed negative Decimal.infinity), rest)
    | 'n' :: 'a' :: 'n' :: rest => some (.float (Decimal.signed negative (0.0 / 0.0)), rest)
    | cs => decimal? negative cs

/-! ### Dates and times -/

/-- A number of exactly `width` digits from `low` to `high`. -/
def fixed? (width low high : Nat) (cs : List Char) : Option (Nat × List Char) :=
  let ds := cs.take width
  let n := Decimal.valueOf ds
  if ds.length = width && ds.all Char.isDigit && low ≤ n && n ≤ high then some (n, cs.drop width)
  else none

def mark? (c : Char) : List Char → Option (List Char)
  | x :: rest => if x = c then some rest else none
  | [] => none

def date? (cs : List Char) : Option (List Char) := do
  let (year, cs) ← fixed? 4 0 9999 cs
  let cs ← mark? '-' cs
  let (month, cs) ← fixed? 2 1 12 cs
  let cs ← mark? '-' cs
  let (day, cs) ← fixed? 2 1 31 cs
  if day ≤ Date.daysInMonth year month then some cs else none

/-- The point opens a fraction, which has one digit or more. -/
def timeFraction? : List Char → Option (List Char)
  | '.' :: c :: rest => if c.isDigit then some (rest.dropWhile Char.isDigit) else none
  | '.' :: [] => none
  | cs => some cs

def time? (cs : List Char) : Option (List Char) := do
  let (_, cs) ← fixed? 2 0 23 cs
  let cs ← mark? ':' cs
  let (_, cs) ← fixed? 2 0 59 cs
  let cs ← mark? ':' cs
  let (_, cs) ← fixed? 2 0 60 cs
  timeFraction? cs

def offset? : List Char → Option (List Char)
  | c :: rest =>
    if c = 'Z' ∨ c = 'z' then some rest
    else if c = '+' ∨ c = '-' then do
      let (_, cs) ← fixed? 2 0 23 rest
      let cs ← mark? ':' cs
      let (_, cs) ← fixed? 2 0 59 cs
      return cs
    else some (c :: rest)
  | [] => some []

/-- A date, a time, or a date with a time, which can have an offset. -/
def moment? (cs : List Char) : Option (List Char) :=
  match date? cs with
  | some rest =>
    match rest with
    | c :: timeText =>
      if c = 'T' ∨ c = 't' ∨ c = ' ' then
        match time? timeText with
        | some rest => offset? rest
        | none => some rest
      else some rest
    | [] => some rest
  | none => time? cs

def scalar? : List Char → Option (Toml × List Char)
  | 't' :: 'r' :: 'u' :: 'e' :: rest => some (.bool true, rest)
  | 'f' :: 'a' :: 'l' :: 's' :: 'e' :: rest => some (.bool false, rest)
  | cs =>
    match text? cs with
    | some (s, rest) => some (.text (String.ofList s), rest)
    | none =>
      match moment? cs with
      | some rest => some (.moment, rest)
      | none => number? cs

end Triage.Toml
