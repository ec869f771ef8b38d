import Triage.Json.Reader
import Triage.Ordered.Map
import Triage.Ordered.Set
import Triage.Time.Rfc3339

/-!
# Stored values

The JSON form of the values that records are made of: names of variants, points in time, sets and
maps.
-/

namespace Triage.Persistence

open Document

/-- The name of a variant, written as a text or as a table with the name as its only key. -/
def variantName? : Json → Option String
  | .table [(k, .null)] => (Json.unescape? k).map String.ofList
  | v => text? v

/-- The variant whose name the value is. -/
def variant? {α : Type} (all : List α) (name : α → String) (v : Json) : Option α :=
  (variantName? v).bind fun s => all.find? fun a => name a = s

def timestamp (t : Timestamp) : Json := .ofString (String.ofList (Rfc3339.render t))

def timestamp? (v : Json) : Option Timestamp := (text? v).bind Rfc3339.parse?

def list {α : Type} (write : α → Json) (xs : List α) : Json := .list (xs.map write)

def set {κ : Type} [OrderedKey κ] (write : κ → Json) (s : OrderedSet κ) : Json :=
  list write s.toList

def set? {κ : Type} [OrderedKey κ] (read : Json → Option κ) (v : Json) : Option (OrderedSet κ) :=
  (listOf? read v).map .ofList

def textMap (m : OrderedMap String String) : Json :=
  .table (m.entries.map fun e => (Json.escape e.1.toList, .ofString e.2))

/-- Of a repeated key the last entry counts. -/
def textMap? (v : Json) : Option (OrderedMap String String) := do
  let entries ← (← table? v).mapM fun e => do return (e.1, ← text? e.2)
  return .ofList entries

/-- A key that is a number is written with its decimal digits. -/
def wordKeyed {α : Type} (write : α → Json) (m : OrderedMap Nat α) : Json :=
  .table (m.entries.map fun e => (Decimal.digitsOf e.1, write e.2))

/-- The number that a key spells without any escape. -/
def wordKey? (lexeme : List Char) : Option Nat :=
  match Json.number? lexeme with
  | some (d, []) => word? (Json.number d)
  | _ => none

def wordKeyed? {α : Type} (read : Json → Option α) : Json → Option (OrderedMap Nat α)
  | .table entries => do
    let entries ← entries.mapM fun e => do return (← wordKey? e.1, ← read e.2)
    return .ofList entries
  | _ => none

/-- The stored text of a value. -/
def readText {α : Type} (read : Json → Option α) (s : String) : Option α :=
  (Json.parse? s).bind read

end Triage.Persistence
