import Triage.Log
import Triage.Number.Decimal

/-!
# Log filters

A filter is a list of directives such as `info` or `place=debug`, with commas between them.  Of the
directives for the places that a record may come from the most exact one decides.
-/

namespace Triage

/-- So many levels, from errors on, does a log with this level in it at least show. -/
def LogLevel.rank : LogLevel → Nat
  | error => 1
  | warn => 2
  | info => 3
  | debug => 4

/-- Shows so many levels of the records whose place begins with the given text; or speaks of spans
of time only, which records by themselves know nothing of. -/
inductive LogDirective where
  | place (start : String) (rank : Nat)
  | span
  deriving DecidableEq, Repr

structure LogFilter where
  directives : List LogDirective
  deriving DecidableEq, Repr

namespace LogFilter

/-- The number of levels that a name, in any case of its letters, or a number stands for. -/
def rank? (s : String) : Option Nat :=
  match s.toLower with
  | "off" => some 0
  | "error" => some 1
  | "warn" => some 2
  | "info" => some 3
  | "debug" => some 4
  | "trace" => some 5
  | digits =>
    let ds := digits.toList
    if ds ≠ [] ∧ ds.all Char.isDigit then
      let n := Decimal.valueOf ds
      if n ≤ 5 then some n else none
    else none

def allRanks : Nat := 5

/-- A level on the right of its mark; all levels if there is nothing. -/
def rankAfterMark? : List Char → Option Nat
  | [] => some allRanks
  | cs => rank? (String.ofList cs)

def isPlaceStart (c : Char) : Bool :=
  c.isAlphanum || c = '-' || c = ':' || c = '_' || 0x80 ≤ c.toNat

def span? (cs : List Char) : Option LogDirective :=
  match cs.dropWhile (· ≠ ']') with
  | [']'] => some .span
  | ']' :: '=' :: rank => (rankAfterMark? rank).map fun _ => .span
  | _ => none

/-- A level, a place, or a place with a level. -/
def directive? (cs : List Char) : Option LogDirective :=
  let place := cs.takeWhile fun c => c ≠ '=' ∧ c ≠ '['
  match cs, cs.dropWhile fun c => c ≠ '=' ∧ c ≠ '[' with
  | [], _ => none
  | c :: _, '[' :: rest => if c = '[' || isPlaceStart c then span? rest else none
  | c :: _, '=' :: rank =>
    if isPlaceStart c then (rankAfterMark? rank).map (.place (String.ofList place)) else none
  | c :: _, _ =>
    if isPlaceStart c then
      match rank? (String.ofList cs) with
      | some rank => some (.place "" rank)
      | none => some (.place (String.ofList cs) allRanks)
    else none

/-- A filter without directives shows errors only. -/
def parse? (s : String) : Option LogFilter := do
  let parts := ((s.split ',').toList.map (·.toString)).filter (· ≠ "")
  let directives ← parts.mapM fun p => directive? p.toList
  return ⟨if directives.isEmpty then [.place "" LogLevel.error.rank] else directives⟩

def ofLevel (level : LogLevel) : LogFilter := ⟨[.place "" level.rank]⟩

/-- The rank of the most exact directive for a place; of equally exact ones the last counts. -/
def rankAt (f : LogFilter) (place : String) : Nat :=
  let fits := f.directives.filterMap fun
    | .place start rank =>
      if start.toList.isPrefixOf place.toList then some (start.length, rank) else none
    | .span => none
  (fits.foldl (fun best d => if best.1 ≤ d.1 then d else best) (0, 0)).2

def shows (f : LogFilter) (place : String) (level : LogLevel) : Bool :=
  level.rank ≤ f.rankAt place

end LogFilter

end Triage
