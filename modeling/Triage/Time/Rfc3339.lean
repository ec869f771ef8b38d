import Triage.Number.Decimal
import Triage.Text.Blank
import Triage.Time.Timestamp

/-!
# Timestamps as RFC 3339 text

Written in UTC with as many groups of three fraction digits as the value needs (none, one, two or
three).  Reading takes any offset, a blank for the `T`, blanks between the parts and `UTC` for
`Z`; digits of the fraction past the ninth are dropped.
-/

namespace Triage.Rfc3339

open Triage.Text
open Triage.Decimal (digitValue valueOf)

def padded (width n : Nat) : List Char := paddedDigits 10 width n

def yearText (y : Int) : List Char :=
  if 0 ≤ y ∧ y ≤ 9999 then padded 4 y.toNat
  else (if y < 0 then '-' else '+') :: padded 4 y.natAbs

def fractionText (nano : Nat) : List Char :=
  if nano = 0 then []
  else if nano % 1000000 = 0 then '.' :: padded 3 (nano / 1000000)
  else if nano % 1000 = 0 then '.' :: padded 6 (nano / 1000)
  else '.' :: padded 9 nano

def render (t : Timestamp) : List Char :=
  let date := Date.ofDayNumber (t.second / 86400)
  let secondOfDay := (t.second % 86400).toNat
  let isLeap := 1000000000 ≤ t.nano
  let second := secondOfDay % 60 + (if isLeap then 1 else 0)
  let nano := if isLeap then t.nano - 1000000000 else t.nano
  yearText date.year ++ '-' :: padded 2 date.month ++ '-' :: padded 2 date.day ++
    'T' :: padded 2 (secondOfDay / 3600) ++ ':' :: padded 2 (secondOfDay / 60 % 60) ++
    ':' :: padded 2 second ++ fractionText nano ++ ['Z']

/-- At most `most` leading digits of `cs`, at least one, and what follows them. -/
def digits? (most : Nat) (cs : List Char) : Option (List Char × List Char) :=
  let ds := (cs.take most).takeWhile Char.isDigit
  if ds.isEmpty then none else some (ds, cs.drop ds.length)

/-- A number of one or two digits after any blanks. -/
def twoDigits? (cs : List Char) : Option (Nat × List Char) := do
  let (ds, rest) ← digits? 2 (trimStart cs)
  return (valueOf ds, rest)

/-- A year of up to four digits, or of any number of digits after a sign. -/
def year? (cs : List Char) : Option (Int × List Char) :=
  match trimStart cs with
  | '-' :: rest => do
    let (ds, rest) ← digits? rest.length rest
    return (-(valueOf ds : Int), rest)
  | '+' :: rest => do
    let (ds, rest) ← digits? rest.length rest
    return ((valueOf ds : Int), rest)
  | rest => do
    let (ds, rest) ← digits? 4 rest
    return ((valueOf ds : Int), rest)

/-- Skips blanks and then the character `c`. -/
def mark? (c : Char) (cs : List Char) : Option (List Char) :=
  match trimStart cs with
  | x :: rest => if x = c then some rest else none
  | [] => none

def dateTimeSeparator? : List Char → Option (List Char)
  | c :: rest => if c = 't' ∨ c = 'T' ∨ c = ' ' then some rest else none
  | [] => none

/-- Nanoseconds of a fraction, if a point opens one. -/
def fraction? : List Char → Option (Nat × List Char)
  | '.' :: rest => do
    let (ds, rest) ← digits? 9 rest
    return (valueOf ds * Nat.pow 10 (9 - ds.length), rest.dropWhile Char.isDigit)
  | cs => some (0, cs)

def utcMark? : List Char → Option (List Char)
  | u :: t :: c :: rest =>
    if u.toUpper = 'U' ∧ t.toUpper = 'T' ∧ c.toUpper = 'C' then some rest else none
  | _ => none

/-- Hours and minutes of an offset, in seconds. -/
def offsetAmount? : List Char → Option (Nat × List Char)
  | h₁ :: h₂ :: rest =>
    if h₁.isDigit ∧ h₂.isDigit then
      match rest.dropWhile fun c => c = ':' || isBlank c with
      | m₁ :: m₂ :: rest =>
        if m₁.isDigit ∧ m₂.isDigit ∧ digitValue m₁ < 6 then
          some (valueOf [h₁, h₂] * 3600 + valueOf [m₁, m₂] * 60, rest)
        else none
      | _ => none
    else none
  | _ => none

/-- Seconds that local time is ahead of UTC. -/
def offset? (cs : List Char) : Option (Int × List Char) :=
  match utcMark? cs with
  | some rest => some (0, rest)
  | none =>
    match cs with
    | c :: rest =>
      if c = 'Z' ∨ c = 'z' then some (0, rest)
      else if c = '+' then (offsetAmount? rest).map fun (n, r) => ((n : Int), r)
      else if c = '-' ∨ c = '\u2212' then (offsetAmount? rest).map fun (n, r) => (-(n : Int), r)
      else none
    | [] => none

/-- The parts of a timestamp's text, before they are checked against the calendar. -/
structure Parts where
  date : Date
  hour : Nat
  minute : Nat
  second : Nat
  nano : Nat
  offset : Int

def parts? (cs : List Char) : Option Parts := do
  let (year, cs) ← year? cs
  let cs ← mark? '-' cs
  let (month, cs) ← twoDigits? cs
  let cs ← mark? '-' cs
  let (day, cs) ← twoDigits? cs
  let cs ← dateTimeSeparator? cs
  let (hour, cs) ← twoDigits? cs
  let cs ← mark? ':' cs
  let (minute, cs) ← twoDigits? cs
  let cs ← mark? ':' cs
  let (second, cs) ← twoDigits? cs
  let (nano, cs) ← fraction? cs
  let (offset, cs) ← offset? (trimStart cs)
  if (trimStart cs).isEmpty then return ⟨⟨year, month, day⟩, hour, minute, second, nano, offset⟩
  else none

/-- Sixty is a valid second: it names the leap second of its minute. -/
def Parts.toTimestamp? (p : Parts) : Option Timestamp :=
  if p.date.isValid ∧ -262143 ≤ p.date.year ∧ p.date.year ≤ 262142 ∧ p.hour < 24 ∧
      p.minute < 60 ∧ p.second ≤ 60 ∧ p.offset.natAbs < 86400 then
    let isLeap := p.second = 60
    let secondOfDay : Nat := p.hour * 3600 + p.minute * 60 + (if isLeap then 59 else p.second)
    let second := p.date.dayNumber * 86400 + secondOfDay - p.offset
    if Timestamp.firstSecond ≤ second ∧ second ≤ Timestamp.lastSecond then
      some ⟨second, p.nano + (if isLeap then 1000000000 else 0)⟩
    else none
  else none

def parse? (s : String) : Option Timestamp := do (← parts? s.toList).toTimestamp?

end Triage.Rfc3339
