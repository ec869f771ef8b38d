import Triage.Document
import Triage.Number.Decimal
import Triage.Text.Hex

/-!
# JSON values

Numbers and texts are kept as they are written, so nothing is lost by reading a document; what they
mean is decided by who asks.  `Json.render` writes a value without blanks.
-/

namespace Triage

inductive Json where
  | null
  | bool (b : Bool)
  | number (d : Decimal)
  /-- A text by what stands between its quotes. -/
  | text (lexeme : List Char)
  | list (items : List Json)
  | table (entries : List (List Char × Json))

namespace Json

/-! ### Texts -/

def escapeChar (c : Char) : List Char :=
  if c = '"' then ['\\', '"']
  else if c = '\\' then ['\\', '\\']
  else if c = '\x08' then ['\\', 'b']
  else if c = '\x0c' then ['\\', 'f']
  else if c = '\n' then ['\\', 'n']
  else if c = '\r' then ['\\', 'r']
  else if c = '\t' then ['\\', 't']
  else if c.toNat < 0x20 then '\\' :: 'u' :: paddedDigits 16 4 c.toNat
  else [c]

def escape (cs : List Char) : List Char := cs.flatMap escapeChar

/-- The number that four hexadecimal digits spell. -/
def hexValue4? (a b c d : Char) : Option Nat := do
  return 4096 * (← Text.Hex.charValue? a) + 256 * (← Text.Hex.charValue? b) +
    16 * (← Text.Hex.charValue? c) + (← Text.Hex.charValue? d)

/-- The character that an escape of one letter stands for. -/
def simpleEscape? (c : Char) : Option Char :=
  if c = '"' ∨ c = '\\' ∨ c = '/' then some c
  else if c = 'b' then some '\x08'
  else if c = 'f' then some '\x0c'
  else if c = 'n' then some '\n'
  else if c = 'r' then some '\r'
  else if c = 't' then some '\t'
  else none

/-- The characters of a text; none if half of a surrogate pair stands alone. -/
def unescape? : List Char → Option (List Char)
  | [] => some []
  | '\\' :: 'u' :: a :: b :: c :: d :: rest => do
    let n ← hexValue4? a b c d
    if 0xD800 ≤ n ∧ n < 0xDC00 then
      match rest with
      | '\\' :: 'u' :: a' :: b' :: c' :: d' :: rest' => do
        let m ← hexValue4? a' b' c' d'
        if 0xDC00 ≤ m ∧ m < 0xE000 then
          let cs ← unescape? rest'
          return Char.ofNat (0x10000 + (n - 0xD800) * 0x400 + (m - 0xDC00)) :: cs
        else none
      | _ => none
    else if 0xDC00 ≤ n ∧ n < 0xE000 then none
    else
      let cs ← unescape? rest
      return Char.ofNat n :: cs
  | '\\' :: c :: rest => do
    let c ← simpleEscape? c
    let cs ← unescape? rest
    return c :: cs
  | c :: rest => do
    let cs ← unescape? rest
    return c :: cs

def ofString (s : String) : Json := .text (escape s.toList)

/-! ### Numbers -/

def ofInt (n : Int) : Json := .number (.ofInt n)

def ofNat (n : Nat) : Json := .number (.ofInt n)

/-- Floats are written positionally from 0.00001 up to 10¹⁶. -/
def floatLayout : Decimal.FloatLayout := ⟨5, 16⟩

/-- A float that is not finite is written as null. -/
def ofFloat (x : Float) : Json :=
  match Decimal.ofFloat? floatLayout x with
  | some d => .number d
  | none => .null

/-- The whole number that is written without point and exponent, if it fits into 64 bits; minus
zero is none. -/
def wholeNumber? (d : Decimal) : Option Int :=
  if d.fraction.isEmpty && d.exponent.isNone then
    let n := Decimal.valueOf d.whole
    if d.negative then
      if n = 0 ∨ Word.half < n then none else some (-(n : Int))
    else if n < Word.size then some n
    else none
  else none

/-- The value of any number, as a float; none if it is too large for one. -/
def floatValue? (d : Decimal) : Option Float :=
  match wholeNumber? d with
  | some n => some (if n < 0 then -(Float.ofNat n.natAbs) else Float.ofNat n.natAbs)
  | none => d.scaled

/-! ### Values -/

def ofOption {α : Type} (write : α → Json) : Option α → Json
  | some a => write a
  | none => .null

/-- A table whose keys need no escapes. -/
def record (entries : List (String × Json)) : Json :=
  .table (entries.map fun e => (e.1.toList, e.2))

def commaSeparated : List (List Char) → List Char
  | [] => []
  | [x] => x
  | x :: xs => x ++ ',' :: commaSeparated xs

def quote (lexeme : List Char) : List Char := '"' :: lexeme ++ ['"']

mutual

def render : Json → List Char
  | .null => ['n', 'u', 'l', 'l']
  | .bool true => ['t', 'r', 'u', 'e']
  | .bool false => ['f', 'a', 'l', 's', 'e']
  | .number d => d.render
  | .text lexeme => quote lexeme
  | .list items => '[' :: commaSeparated (renderItems items) ++ [']']
  | .table entries => '{' :: commaSeparated (renderEntries entries) ++ ['}']

def renderItems : List Json → List (List Char)
  | [] => []
  | v :: vs => render v :: renderItems vs

def renderEntries : List (List Char × Json) → List (List Char)
  | [] => []
  | (k, v) :: es => (quote k ++ ':' :: render v) :: renderEntries es

end

def toText (v : Json) : String := String.ofList v.render

/-- The keys of a table are texts too, so none of them may hold half a surrogate pair. -/
def entries? : Json → Option (List (String × Json))
  | .table entries => entries.mapM fun e => (unescape? e.1).map fun k => (String.ofList k, e.2)
  | _ => none

instance : Document Json where
  isNull v := v matches .null
  bool?
    | .bool b => some b
    | _ => none
  integer?
    | .number d => wholeNumber? d
    | _ => none
  number?
    | .number d => floatValue? d
    | _ => none
  text?
    | .text lexeme => (unescape? lexeme).map String.ofList
    | _ => none
  list?
    | .list items => some items
    | _ => none
  table? := entries?
  allowsSurplus := false

end Json

end Triage
