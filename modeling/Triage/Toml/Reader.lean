import Triage.Toml.Scalar

/-!
# Reading TOML

`Toml.parse?` reads a whole document.  Values stand in one another, and keys have parts, up to a
fixed number.
-/

namespace Triage.Toml

/-- So many values cannot stand in one another, and a key cannot have so many parts. -/
def depthLimit : Nat := 80

/-! ### Keys -/

def isBareKeyChar (c : Char) : Bool := c.isAlphanum || c = '_' || c = '-'

def keyPart? : List Char → Option (List Char × List Char)
  | '"' :: rest => quotedText? false false rest
  | '\'' :: rest => literalText? false rest
  | cs =>
    let k := cs.takeWhile isBareKeyChar
    if k.isEmpty then none else some (k, cs.dropWhile isBareKeyChar)

/-- The parts of a key with at most `most` parts, between which blanks and a dot stand. -/
def keyParts? : Nat → List Char → Option (List String × List Char)
  | 0, _ => none
  | most + 1, cs => do
    let (k, cs) ← keyPart? (skipBlanks cs)
    match skipBlanks cs with
    | '.' :: rest =>
      let (ks, rest) ← keyParts? most rest
      return (String.ofList k :: ks, rest)
    | rest => return ([String.ofList k], rest)

/-- A key, with its last part on its own. -/
def key? (cs : List Char) : Option (List String × String × List Char) := do
  let (parts, cs) ← keyParts? (depthLimit - 1) cs
  return (parts.dropLast, ← parts.getLast?, cs)

/-! ### Values -/

/-- Blanks, newlines and comments, which may stand between the items of a list. -/
def skipTrivia (inComment : Bool) : List Char → List Char
  | [] => []
  | '\n' :: rest => skipTrivia false rest
  | '\r' :: '\n' :: rest => skipTrivia false rest
  | c :: rest =>
    if isBlank c || c = '#' || inComment && isPlain c then skipTrivia (inComment || c = '#') rest
    else c :: rest

mutual

/-- A value at the front of the characters, in which at most `depth` values stand in one another. -/
def value? (fuel depth : Nat) (cs : List Char) : Option (Toml × List Char) :=
  match fuel with
  | 0 => none
  | fuel + 1 =>
    match cs with
    | '[' :: rest =>
      match depth with
      | 0 => none
      | depth + 1 => (items? fuel depth rest).map fun (vs, r) => (.list vs, r)
    | '{' :: rest =>
      match depth with
      | 0 => none
      | depth + 1 =>
        match skipBlanks rest with
        | '}' :: rest => some (.table .braces [], rest)
        | rest => do
          let (pairs, rest) ← pairs? fuel depth rest
          return (← ofPairs? pairs, rest)
    | cs => scalar? cs

/-- The items of a list up to its closing bracket; the last one may be followed by a comma. -/
def items? (fuel depth : Nat) (cs : List Char) : Option (List Toml × List Char) :=
  match fuel with
  | 0 => none
  | fuel + 1 =>
    match skipTrivia false cs with
    | ']' :: rest => some ([], rest)
    | cs => do
      let (v, cs) ← value? fuel depth cs
      match skipTrivia false cs with
      | ',' :: rest => (items? fuel depth rest).map fun (vs, r) => (v :: vs, r)
      | ']' :: rest => some ([v], rest)
      | _ => none

/-- The pairs of a table up to its closing brace, at least one. -/
def pairs? (fuel depth : Nat) (cs : List Char) :
    Option (List (List String × String × Toml) × List Char) :=
  match fuel with
  | 0 => none
  | fuel + 1 => do
    let (path, key, cs) ← key? cs
    let cs ← mark? '=' cs
    let (v, cs) ← value? fuel depth (skipBlanks cs)
    match skipBlanks cs with
    | ',' :: rest => (pairs? fuel depth rest).map fun (ps, r) => ((path, key, v) :: ps, r)
    | '}' :: rest => some ([(path, key, v)], rest)
    | _ => none

end

/-! ### Documents -/

def skipComment : List Char → List Char
  | '#' :: rest => rest.dropWhile isPlain
  | cs => cs

/-- The end of a line, with a comment before it or not. -/
def lineEnd? (cs : List Char) : Option (List Char) :=
  match skipComment (skipBlanks cs) with
  | [] => some []
  | cs => newline? cs

def header? (cs : List Char) : Option (Line × List Char) := do
  let (path, key, cs) ← key? cs
  let cs ← mark? ']' cs
  return (.header path key, cs)

def listHeader? (cs : List Char) : Option (Line × List Char) := do
  let (path, key, cs) ← key? cs
  let cs ← mark? ']' (← mark? ']' cs)
  return (.listHeader path key, cs)

def pair? (cs : List Char) : Option (Line × List Char) := do
  let (path, key, cs) ← key? cs
  let cs ← mark? '=' cs
  let (v, cs) ← value? (2 * cs.length + 2) (depthLimit - 1) (skipBlanks cs)
  return (.pair path key v, cs)

def line? : List Char → Option (Line × List Char)
  | '[' :: '[' :: rest => listHeader? rest
  | '[' :: rest => header? rest
  | cs => pair? cs

/-- The lines of a document that say something; each of them takes a character at least. -/
def lines? : Nat → List Char → Option (List Line)
  | 0, _ => none
  | fuel + 1, cs =>
    match skipTrivia false cs with
    | [] => some []
    | cs => do
      let (line, cs) ← line? cs
      let cs ← lineEnd? cs
      return line :: (← lines? fuel cs)

def skipByteOrderMark : List Char → List Char
  | '\ufeff' :: rest => rest
  | cs => cs

def parse? (s : String) : Option Toml := do
  let cs := skipByteOrderMark s.toList
  ofLines? (← lines? (cs.length + 1) cs)

end Triage.Toml
