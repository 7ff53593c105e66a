import CalcImage.Fault
import CalcImage.Text.Digit

/-!
# Numerals

A number is written in decimal if it has no more digits than a number that is read may have. One computed from numbers
that were read may have more, and then there is no numeral for it.
-/

namespace CalcImage

open CalcImage.Text

/-- The number has few enough digits to be written. -/
def isWritable (n : Int) : Bool := n.natAbs < Nat.pow 10 mostDigits

/-- The numeral of a number. -/
def numeral (n : Int) : Except Fault String :=
  if isWritable n then .ok (ofInt n) else .error .numberWritten

theorem numeral_of_isWritable {n : Int} (h : isWritable n = true) : numeral n = .ok (ofInt n) := if_pos h

theorem pow_ten_mono {d k : Nat} (h : d ≤ k) : Nat.pow 10 d ≤ Nat.pow 10 k := Nat.pow_le_pow_right (by decide) h

/-- A number of fewer digits can be written. -/
theorem isWritable_of_natAbs_lt {n : Int} {d : Nat} (h : n.natAbs < Nat.pow 10 d) (hd : d ≤ mostDigits) :
    isWritable n = true :=
  decide_eq_true (Nat.lt_of_lt_of_le h (pow_ten_mono hd))

end CalcImage
