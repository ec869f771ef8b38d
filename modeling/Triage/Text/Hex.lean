/-!
# Hexadecimal text of bytes

Two digits a byte, written in lower case and read in either case.
-/

namespace Triage.Text.Hex

def digit (n : Nat) : Char :=
  if n < 10 then Char.ofNat (n + 48) else Char.ofNat (n + 87)

/-- The value of an ASCII byte that is a hexadecimal digit. -/
def value? (b : UInt8) : Option Nat :=
  let n := b.toNat
  if 48 ≤ n && n ≤ 57 then some (n - 48)
  else if 97 ≤ n && n ≤ 102 then some (n - 87)
  else if 65 ≤ n && n ≤ 70 then some (n - 55)
  else none

/-- The value of a character that is a hexadecimal digit. -/
def charValue? (c : Char) : Option Nat :=
  if c.toNat < 0x80 then value? c.val.toUInt8 else none

/-- Why a text is not the hexadecimal form of any bytes. -/
inductive Fault where
  | oddLength
  | badDigit (byte : UInt8) (position : Nat)
  deriving DecidableEq, Repr

def encode : List UInt8 → List Char
  | [] => []
  | b :: bs => digit (b.toNat / 16) :: digit (b.toNat % 16) :: encode bs

def digitAt (b : UInt8) (position : Nat) : Except Fault Nat :=
  match value? b with
  | some n => .ok n
  | none => .error (.badDigit b position)

/-- Reads pairs of digits, the first of which stands at `position`. -/
def decodePairs (position : Nat) : List UInt8 → Except Fault (List UInt8)
  | hi :: lo :: rest => do
    let h ← digitAt hi position
    let l ← digitAt lo (position + 1)
    let bs ← decodePairs (position + 2) rest
    return UInt8.ofNat (16 * h + l) :: bs
  | [] => .ok []
  | [_] => .error .oddLength

/-- An odd number of bytes is refused before any digit is looked at. -/
def decode (bytes : List UInt8) : Except Fault (List UInt8) :=
  if bytes.length % 2 = 1 then .error .oddLength else decodePairs 0 bytes

theorem length_encode (bs : List UInt8) : (encode bs).length = 2 * bs.length := by
  induction bs with
  | nil => rfl
  | cons b bs ih => simp [encode, ih]; omega

end Triage.Text.Hex
