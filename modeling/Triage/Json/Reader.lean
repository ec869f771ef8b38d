import Triage.Json

/-!
# Reading JSON

`Json.parse?` accepts exactly one value between blanks.  A number may not start with a superfluous
zero, and a text may hold any character but quotes, backslashes and controls, or escapes.
-/

namespace Triage.Json

def isBlank (c : Char) : Bool := c = ' ' || c = '\t' || c = '\n' || c = '\r'

def skipBlanks (cs : List Char) : List Char := cs.dropWhile isBlank

/-- The lexeme of a text, after its opening quote. -/
def lexeme? : List Char → Option (List Char × List Char)
  | [] => none
  | '"' :: rest => some ([], rest)
  | '\\' :: 'u' :: a :: b :: c :: d :: rest =>
    match hexValue4? a b c d with
    | some _ => (lexeme? rest).map fun (l, r) => ('\\' :: 'u' :: a :: b :: c :: d :: l, r)
    | none => none
  | '\\' :: c :: rest =>
    match simpleEscape? c with
    | some _ => (lexeme? rest).map fun (l, r) => ('\\' :: c :: l, r)
    | none => none
  | c :: rest =>
    if c = '\\' ∨ c.toNat < 0x20 then none
    else (lexeme? rest).map fun (l, r) => (c :: l, r)

def isDigit (c : Char) : Bool := c.isDigit

/-- One digit or more. -/
def digits? (cs : List Char) : Option (List Char × List Char) :=
  let ds := cs.takeWhile isDigit
  if ds.isEmpty then none else some (ds, cs.dropWhile isDigit)

/-- The digits before the point: a single zero, or digits that do not start with one. -/
def whole? : List Char → Option (List Char × List Char)
  | '0' :: rest =>
    match rest with
    | c :: _ => if isDigit c then none else some (['0'], rest)
    | [] => some (['0'], [])
  | cs => digits? cs

def fraction? : List Char → Option (List Char × List Char)
  | '.' :: rest => digits? rest
  | cs => some ([], cs)

def exponent? : List Char → Option (Option (Bool × List Char) × List Char)
  | c :: rest =>
    if c = 'e' ∨ c = 'E' then
      match rest with
      | '+' :: rest => (digits? rest).map fun (ds, r) => (some (false, ds), r)
      | '-' :: rest => (digits? rest).map fun (ds, r) => (some (true, ds), r)
      | rest => (digits? rest).map fun (ds, r) => (some (false, ds), r)
    else some (none, c :: rest)
  | [] => some (none, [])

def unsigned? (negative : Bool) (cs : List Char) : Option (Decimal × List Char) := do
  let (whole, cs) ← whole? cs
  let (fraction, cs) ← fraction? cs
  let (exponent, cs) ← exponent? cs
  return (⟨negative, whole, fraction, exponent⟩, cs)

def number? : List Char → Option (Decimal × List Char)
  | '-' :: rest => unsigned? true rest
  | cs => unsigned? false cs

mutual

/-- A value at the start of the text, with at most `fuel` values inside one another. -/
def value? (fuel : Nat) (cs : List Char) : Option (Json × List Char) :=
  match fuel with
  | 0 => none
  | fuel + 1 =>
    match skipBlanks cs with
    | 'n' :: 'u' :: 'l' :: 'l' :: rest => some (.null, rest)
    | 't' :: 'r' :: 'u' :: 'e' :: rest => some (.bool true, rest)
    | 'f' :: 'a' :: 'l' :: 's' :: 'e' :: rest => some (.bool false, rest)
    | '"' :: rest => (lexeme? rest).map fun (l, r) => (.text l, r)
    | '[' :: rest =>
      match skipBlanks rest with
      | ']' :: rest => some (.list [], rest)
      | rest => (items? fuel rest).map fun (vs, r) => (.list vs, r)
    | '{' :: rest =>
      match skipBlanks rest with
      | '}' :: rest => some (.table [], rest)
      | rest => (entriesFrom? fuel rest).map fun (es, r) => (.table es, r)
    | rest => (number? rest).map fun (d, r) => (.number d, r)

/-- The items of a list up to its closing bracket, at least one. -/
def items? (fuel : Nat) (cs : List Char) : Option (List Json × List Char) :=
  match fuel with
  | 0 => none
  | fuel + 1 => do
    let (v, cs) ← value? fuel cs
    match skipBlanks cs with
    | ',' :: rest => (items? fuel rest).map fun (vs, r) => (v :: vs, r)
    | ']' :: rest => some ([v], rest)
    | _ => none

/-- The entries of a table up to its closing brace, at least one. -/
def entriesFrom? (fuel : Nat) (cs : List Char) : Option (List (List Char × Json) × List Char) :=
  match fuel with
  | 0 => none
  | fuel + 1 =>
    match skipBlanks cs with
    | '"' :: rest => do
      let (k, rest) ← lexeme? rest
      match skipBlanks rest with
      | ':' :: rest => do
        let (v, rest) ← value? fuel rest
        match skipBlanks rest with
        | ',' :: rest => (entriesFrom? fuel rest).map fun (es, r) => ((k, v) :: es, r)
        | '}' :: rest => some ([(k, v)], rest)
        | _ => none
      | _ => none
    | _ => none

end

/-- Every step of the reader takes a character, so the length of the text is fuel enough. -/
def parse? (s : String) : Option Json :=
  let cs := s.toList
  match value? (2 * cs.length + 2) cs with
  | some (v, rest) => if (skipBlanks rest).isEmpty then some v else none
  | none => none

end Triage.Json
