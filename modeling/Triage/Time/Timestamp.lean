import Triage.Number.Word
import Triage.Time.Calendar

/-!
# Points in time

A `Timestamp` counts whole seconds from the start of 1970 in UTC and nanoseconds within the
second; a leap second is the second before it with a nanosecond part of 10⁹ or more.  Timestamps
lie in the years -262143 to 262142, and `Timestamp.minusDays` and `minusMinutes` say when going
back leaves that range or the span itself is too long to be measured.
-/

namespace Triage

structure Timestamp where
  second : Int
  nano : Nat
  deriving DecidableEq, Repr

namespace Timestamp

instance : LT Timestamp :=
  ⟨fun a b => a.second < b.second ∨ (a.second = b.second ∧ a.nano < b.nano)⟩

instance : LE Timestamp := ⟨fun a b => ¬ b < a⟩

theorem lt_def {a b : Timestamp} :
    a < b ↔ a.second < b.second ∨ (a.second = b.second ∧ a.nano < b.nano) := Iff.rfl

theorem le_def {a b : Timestamp} : a ≤ b ↔ ¬ b < a := Iff.rfl

instance (a b : Timestamp) : Decidable (a < b) := decidable_of_iff _ lt_def.symm

instance (a b : Timestamp) : Decidable (a ≤ b) := decidable_of_iff _ le_def.symm

def ofMillis (ms : Int) : Timestamp := ⟨ms / 1000, (ms % 1000).toNat * 1000000⟩

/-- Whole milliseconds since the start of 1970, rounded down. -/
def toMillis (t : Timestamp) : Int := t.second * 1000 + (t.nano / 1000000 : Nat)

instance : Inhabited Timestamp := ⟨ofMillis 0⟩

/-- The first second of the year -262143. -/
def firstSecond : Int := Date.dayNumber ⟨-262143, 1, 1⟩ * 86400

/-- The last second of the year 262142. -/
def lastSecond : Int := Date.dayNumber ⟨262142, 12, 31⟩ * 86400 + 86399

/-- Why a point in time before another cannot be given. -/
inductive Overflow where
  /-- More days than fit into 63 bits of milliseconds. -/
  | daysTooMany
  /-- More minutes than fit into 63 bits of milliseconds. -/
  | minutesTooMany
  /-- The result lies outside the years that a timestamp can have. -/
  | outOfCalendar
  deriving DecidableEq, Repr

def Overflow.message : Overflow → String
  | .daysTooMany => "TimeDelta::days out of bounds"
  | .minutesTooMany => "TimeDelta::minutes out of bounds"
  | .outOfCalendar => "`DateTime - TimeDelta` overflowed"

/-- The longest measurable span, in milliseconds. -/
def longestSpan : Nat := Word.half - 1

def minusSeconds (t : Timestamp) (s : Int) : Except Overflow Timestamp :=
  let second := t.second - s
  if firstSecond ≤ second ∧ second ≤ lastSecond then .ok { t with second }
  else .error .outOfCalendar

def minusDays (t : Timestamp) (days : Int) : Except Overflow Timestamp :=
  if days.natAbs * 86400000 ≤ longestSpan then t.minusSeconds (days * 86400)
  else .error .daysTooMany

def minusMinutes (t : Timestamp) (minutes : Int) : Except Overflow Timestamp :=
  if minutes.natAbs * 60000 ≤ longestSpan then t.minusSeconds (minutes * 60)
  else .error .minutesTooMany

end Timestamp

end Triage
