import CalcImage.Glyph
import CalcImage.Text.Align

/-!
# Operands in text

An operand is shown as a number of at least two digits, as the letter of a stack or status register, or as one of these
taken indirectly. Each family of instructions has ranges of its own. The rules are defined for all integers.
-/

namespace CalcImage.Operand

open CalcImage.Text

/-- The letter of a stack or status register. -/
def letter (value : Int) : String := (Glyph.stackLetter value).toString

/-- An operand that names a register. -/
def register (value : Int) : String :=
  if value < 112 then zeroFilled 2 value
  else if value < 128 then letter value
  else if value < 240 then "IND " ++ zeroFilled 2 (value - 128)
  else "IND " ++ letter value

/-- An operand that names a flag. -/
def flag (value : Int) : String :=
  if value < 128 then zeroFilled 2 value else register value

/-- The target of an indirect branch. -/
def branch (value : Int) : String :=
  if 112 ≤ value ∧ value < 128 then "IND " ++ letter value else register value

/-- An operand that names a local label: a number, a letter, or a register that holds one. -/
def label (value : Int) : String :=
  if value < 100 then zeroFilled 2 value
  else if 102 ≤ value ∧ value < 112 then (Char.ofNat (value - 37).toNat).toString
  else if 112 ≤ value ∧ value < 128 then letter value
  else if 128 ≤ value then register value
  else "INVALID " ++ ofInt value

end CalcImage.Operand
