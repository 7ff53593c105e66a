/-!
# Signed words

A word of `bits` bits holds the integers from minus its bound up to, but not including, the bound, which is two to the
power of `bits - 1`. `fits` tells which integers these are, and `wrap` is the word that an integer leaves when its higher
bits are dropped.
-/

namespace CalcImage.Word

/-- The first natural number that is too large for a word of `bits` bits. -/
def bound (bits : Nat) : Nat := Nat.pow 2 (bits - 1)

/-- The integer is held by a word of `bits` bits. -/
def fits (bits : Nat) (n : Int) : Bool := -(bound bits : Int) ≤ n && n < (bound bits : Int)

/-- The word of `bits` bits that is left of an integer. -/
def wrap (bits : Nat) (n : Int) : Int := n.bmod (2 * bound bits)

theorem fits_iff {bits : Nat} {n : Int} :
    fits bits n = true ↔ -(bound bits : Int) ≤ n ∧ n < (bound bits : Int) := by
  simp [fits]

end CalcImage.Word
