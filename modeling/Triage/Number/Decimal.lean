import Triage.Number.Word

/-!
# Decimal text of numbers

`Decimal` is a number as it is written: sign, digits before and after the point, exponent.
`ofFloat?` writes a finite float with the fewest digits that read back as the same float, and of
these the nearest; `nearest` and `scaled` are two ways to read a float, the first rounded once and
the second fast.
-/

namespace Triage

/-- The digits of `n` to a base, with zeros in front of them up to `width`. -/
def paddedDigits (base width n : Nat) : List Char :=
  let ds := Nat.toDigits base n
  List.replicate (width - ds.length) '0' ++ ds

/-- A written number; an empty fraction means that there is no point. -/
structure Decimal where
  negative : Bool
  whole : List Char
  fraction : List Char
  /-- Sign (true for a minus) and digits. -/
  exponent : Option (Bool × List Char)
  deriving DecidableEq, Repr

namespace Decimal

def digitValue (c : Char) : Nat := c.toNat - 48

def valueOf (ds : List Char) : Nat := ds.foldl (fun n c => 10 * n + digitValue c) 0

def digitsOf (n : Nat) : List Char := Nat.toDigits 10 n

def ofInt (n : Int) : Decimal := ⟨n < 0, digitsOf n.natAbs, [], none⟩

def render (d : Decimal) : List Char :=
  (if d.negative then ['-'] else []) ++ d.whole ++
    (if d.fraction.isEmpty then [] else '.' :: d.fraction) ++
    match d.exponent with
    | none => []
    | some (minus, ds) => 'e' :: (if minus then ['-'] else []) ++ ds

def exponentValue (d : Decimal) : Int :=
  match d.exponent with
  | none => 0
  | some (true, ds) => -(valueOf ds : Int)
  | some (false, ds) => valueOf ds

/-! ### Floats as exact multiples of powers of two -/

def tenTo (n : Nat) : Nat := Nat.pow 10 n

def twoTo (n : Nat) : Nat := Nat.pow 2 n

/-- `m · 2^q`, the value of a finite positive float. -/
structure Dyadic where
  m : Nat
  q : Int

/-- Mantissa and exponent of the bits of a float without its sign. -/
def dyadicOfBits (bits : Nat) : Dyadic :=
  let e : Nat := bits / twoTo 52 % twoTo 11
  let f : Nat := bits % twoTo 52
  if e = 0 then ⟨f, -1074⟩ else ⟨f + twoTo 52, (e : Int) - 1075⟩

/-- Whether `a · 10^i ≤ b · 2^j`. -/
def leScaled (a : Nat) (i : Int) (b : Nat) (j : Int) : Bool :=
  a * tenTo i.toNat * twoTo (-j).toNat ≤ b * twoTo j.toNat * tenTo (-i).toNat

/-- Whether `d · 10^e` reads back as the float: it lies between the midpoints to the two
neighbours, ends included when the mantissa is even. -/
def readsBack (x : Dyadic) (d : Nat) (e : Int) : Bool :=
  let lower := if x.m = twoTo 52 ∧ -1074 < x.q then 4 * x.m - 1 else 4 * x.m - 2
  let upper := 4 * x.m + 2
  let q := x.q - 2
  let aboveLower := if x.m % 2 = 0 then !(leScaled d e lower q) || isEqual d e lower q
    else !(leScaled d e lower q)
  let belowUpper := leScaled d e upper q && (x.m % 2 = 0 || !isEqual d e upper q)
  aboveLower && belowUpper
where
  isEqual (a : Nat) (i : Int) (b : Nat) (j : Int) : Bool :=
    a * tenTo i.toNat * twoTo (-j).toNat = b * twoTo j.toNat * tenTo (-i).toNat

/-- The float over `10^e`, rounded down. -/
def quotient (x : Dyadic) (e : Int) : Nat :=
  x.m * twoTo x.q.toNat * tenTo (-e).toNat / (twoTo (-x.q).toNat * tenTo e.toNat)

/-- Whether `d · 10^e` is nearer to the float than the next multiple of `10^e`; a tie goes to the
even one. -/
def isLowerNearer (x : Dyadic) (d : Nat) (e : Int) : Bool :=
  let num := 2 * (x.m * twoTo x.q.toNat * tenTo (-e).toNat)
  let den := twoTo (-x.q).toNat * tenTo e.toNat
  num < (2 * d + 1) * den || (num = (2 * d + 1) * den && d % 2 = 0)

/-- A multiple of `10^e` next to the float that reads back, if there is one. -/
def onGrid? (x : Dyadic) (e : Int) : Option Nat :=
  let d := quotient x e
  match readsBack x d e, readsBack x (d + 1) e with
  | true, true => some (if isLowerNearer x d e then d else d + 1)
  | true, false => some d
  | false, true => some (d + 1)
  | false, false => none

/-- Tries ever finer grids, the finest of which has `digits` digits more. -/
def shortestFrom (x : Dyadic) (e : Int) : Nat → Nat × Int
  | 0 => ((onGrid? x e).getD (quotient x e), e)
  | digits + 1 =>
    match onGrid? x e with
    | some d => (d, e)
    | none => shortestFrom x (e - 1) digits

/-- Digits `d` and exponent `e` of the shortest `d · 10^e` that reads back. -/
def shortest (x : Dyadic) : Nat × Int :=
  let whole := (digitsOf (quotient x 0)).length
  let top : Int :=
    if quotient x 0 ≠ 0 then whole
    else 1 - ((List.range 330).findIdx fun k : Nat => quotient x (-(k : Int)) ≠ 0 : Nat)
  shortestFrom x (top - 1) 17

/-- Drops zeros at the end, each of which raises the exponent. -/
def strip (d : Nat) (e : Int) : Nat → Nat × Int
  | 0 => (d, e)
  | n + 1 => if d % 10 = 0 then strip (d / 10) (e + 1) n else (d, e)

/-- Where the text of a float turns to an exponent: below `10^-lowest` and from `10^highest` on. -/
structure FloatLayout where
  lowest : Int
  highest : Int

/-- Lays digits `ds` with the point after `point` of them out as a decimal. -/
def layOut (l : FloatLayout) (negative : Bool) (ds : List Char) (point : Int) : Decimal :=
  let n : Int := ds.length
  if 0 < point ∧ point ≤ l.highest then
    if n ≤ point then ⟨negative, ds ++ List.replicate (point - n).toNat '0', ['0'], none⟩
    else ⟨negative, ds.take point.toNat, ds.drop point.toNat, none⟩
  else if -l.lowest < point ∧ point ≤ 0 then
    ⟨negative, ['0'], List.replicate (-point).toNat '0' ++ ds, none⟩
  else
    let e := point - 1
    ⟨negative, ds.take 1, ds.drop 1, some (decide (e < 0), digitsOf e.natAbs)⟩

/-- The shortest text of a finite float. -/
def ofFloat? (l : FloatLayout) (x : Float) : Option Decimal :=
  let bits := x.toBits.toNat
  let negative := decide (Word.half ≤ bits)
  let magnitude := bits % Word.half
  if 2047 * twoTo 52 ≤ magnitude then none
  else if magnitude = 0 then some ⟨negative, ['0'], ['0'], none⟩
  else
    let (d, e) := shortest (dyadicOfBits magnitude)
    let (d, e) := strip d e 20
    let ds := digitsOf d
    some (layOut l negative ds (ds.length + e))

/-! ### Reading floats -/

def signed (negative : Bool) (x : Float) : Float := if negative then -x else x

def infinity : Float := 1.0 / 0.0

/-- The float nearest to the number.  Numbers of more than 310 digits before the point are too
large for one, and 330 zeros after it leave nothing. -/
def nearest (d : Decimal) : Float :=
  let m := valueOf (d.whole ++ d.fraction)
  let e := d.exponentValue - d.fraction.length
  let size := e + (digitsOf m).length
  signed d.negative (
    if m = 0 ∨ size < -330 then 0.0
    else if 310 < size then infinity
    else Float.ofScientific m (decide (e < 0)) e.natAbs)

/-- Digits taken up while they fit into 64 bits, and the digits left over. -/
def takeFitting (m : Nat) : List Char → Nat × List Char
  | [] => (m, [])
  | c :: cs =>
    let m' := 10 * m + digitValue c
    if m' < Word.size then takeFitting m' cs else (m, c :: cs)

def powerOfTen (e : Nat) : Float := Float.ofScientific 1 false e

/-- `x · 10^e` by one multiplication, or by one division for each 308 digits that it has to be
moved down; none when it is too large. -/
def scaleBy (x : Float) (e : Int) : Nat → Option Float
  | 0 => some x
  | n + 1 =>
    if e.natAbs ≤ 308 then
      if 0 ≤ e then
        let y := x * powerOfTen e.toNat
        if y.isInf then none else some y
      else some (x / powerOfTen e.natAbs)
    else if x == 0.0 then some x
    else if 0 ≤ e then none
    else scaleBy (x / powerOfTen 308) (e + 308) n

/-- The float of the first digits that fit into 64 bits, scaled by a power of ten; none when it is
too large.  Right to the last bit for up to 15 digits and a scale of up to 22. -/
def scaled (d : Decimal) : Option Float :=
  let (m, restWhole) := takeFitting 0 d.whole
  let (m', restFraction) := takeFitting m d.fraction
  let taken := d.fraction.length - restFraction.length
  let start : Int := (restWhole.length : Int) - taken
  let limit : Int := UInt32.size / 2 - 1
  let explicit := d.exponentValue
  if limit < explicit.natAbs then
    if m' ≠ 0 ∧ 0 < explicit then none else some (signed d.negative 0.0)
  else
    let e := max (-limit - 1) (min limit (start + explicit))
    (scaleBy (Float.ofNat m') e 4).map (signed d.negative)

end Decimal

end Triage
