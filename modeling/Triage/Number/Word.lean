/-!
# Words

Whole numbers of 64 bits, with and without a sign.
-/

namespace Triage.Word

/-- The least number that is too large for a word. -/
def size : Nat := UInt64.size

/-- The least number that is too large for a word with a sign. -/
def half : Nat := size / 2

def isSigned (n : Int) : Bool := -(half : Int) ≤ n ∧ n < half

end Triage.Word
