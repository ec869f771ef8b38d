import Triage.Number.Word

/-!
# Parsed documents

What a reader asks of a value in a parsed document, in whatever format the document is written,
and how records are read: from a table by the names of their fields, or from a list by position.
-/

namespace Triage

/-- A format of documents with values of type `δ`. -/
class Document (δ : Type) where
  isNull : δ → Bool
  bool? : δ → Option Bool
  integer? : δ → Option Int
  number? : δ → Option Float
  text? : δ → Option String
  list? : δ → Option (List δ)
  /-- The entries of a table, repeated keys included. -/
  table? : δ → Option (List (String × δ))
  /-- Whether a list may have more elements than the record that is read from it has fields. -/
  allowsSurplus : Bool

namespace Document

variable {δ : Type} [Document δ] {α : Type}

/-- A whole number of at least 0 and less than `bound`. -/
def natBelow? (bound : Nat) (v : δ) : Option Nat :=
  match integer? v with
  | some n => if 0 ≤ n ∧ n < bound then some n.toNat else none
  | none => none

def word? (v : δ) : Option Nat := natBelow? Word.size v

def halfWord? (v : δ) : Option Nat := natBelow? UInt32.size v

/-- A whole number that fits into 64 bits with a sign. -/
def signedWord? (v : δ) : Option Int :=
  match integer? v with
  | some n => if Word.isSigned n then some n else none
  | none => none

def listOf? (read : δ → Option α) (v : δ) : Option (List α) := (list? v).bind (·.mapM read)

def texts? (v : δ) : Option (List String) := listOf? text? v

/-- The fields of a record that were given; `complete` tells that a field which is not among them
may still count as left out on purpose. -/
structure Fields (δ : Type) where
  given : List (String × δ)
  complete : Bool

/-- The fields of a record with the given field names.  A table may have other entries, but none
of these twice; a list has as many elements as there are names, or fewer, unless the format allows
a surplus. -/
def fields? (names : List String) (v : δ) : Option (Fields δ) :=
  match table? v with
  | some entries =>
    let given := entries.filter fun e => names.contains e.1
    if (given.map (·.1)).Nodup then some ⟨given, true⟩ else none
  | none =>
    match list? v with
    | some items =>
      if items.length ≤ names.length || allowsSurplus δ then some ⟨names.zip items, false⟩ else none
    | none => none

namespace Fields

def find? (f : Fields δ) (name : String) : Option δ :=
  (f.given.find? fun e => e.1 = name).map (·.2)

def required (f : Fields δ) (name : String) (read : δ → Option α) : Option α :=
  (f.find? name).bind read

/-- A field that may be null, or missing from a table. -/
def optional (f : Fields δ) (name : String) (read : δ → Option α) : Option (Option α) :=
  match f.find? name with
  | some v => if isNull v then some none else (read v).map some
  | none => if f.complete then some none else none

/-- A field that has the value `default` when it is missing. -/
def withDefault (f : Fields δ) (name : String) (read : δ → Option α) (default : α) : Option α :=
  match f.find? name with
  | some v => read v
  | none => some default

end Fields

end Document

end Triage
