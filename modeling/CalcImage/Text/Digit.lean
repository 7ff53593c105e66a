import CalcImage.Text.Blank

/-!
# Decimal digits and numbers

Unicode gives each script its ten decimal digits in a row, so the table lists the zeros. `digitValue?` reads a digit of
any script; the ASCII digits come first. A number may have blank characters around it, a sign, and single underscores
between its digits.
-/

namespace CalcImage.Text

/-- The code points of the zeros, one for each row of ten decimal digits. -/
def digitZeros : List Nat := [
  0x0030, 0x0660, 0x06F0, 0x07C0, 0x0966, 0x09E6, 0x0A66, 0x0AE6, 0x0B66, 0x0BE6, 0x0C66, 0x0CE6, 0x0D66,
  0x0DE6, 0x0E50, 0x0ED0, 0x0F20, 0x1040, 0x1090, 0x17E0, 0x1810, 0x1946, 0x19D0, 0x1A80, 0x1A90, 0x1B50,
  0x1BB0, 0x1C40, 0x1C50, 0xA620, 0xA8D0, 0xA900, 0xA9D0, 0xA9F0, 0xAA50, 0xABF0, 0xFF10, 0x104A0, 0x10D30,
  0x11066, 0x110F0, 0x11136, 0x111D0, 0x112F0, 0x11450, 0x114D0, 0x11650, 0x116C0, 0x11730, 0x118E0, 0x11950,
  0x11C50, 0x11D50, 0x11DA0, 0x16A60, 0x16AC0, 0x16B50, 0x1D7CE, 0x1D7D8, 0x1D7E2, 0x1D7EC, 0x1D7F6, 0x1E140,
  0x1E2F0, 0x1E950, 0x1FBF0]

/-- The value of a decimal digit of any script. -/
def digitValue? (c : Char) : Option Nat :=
  (digitZeros.find? fun z => z ≤ c.toNat && c.toNat ≤ z + 9).map (c.toNat - ·)

/-- The decimal digits of every script. -/
def isDecimal (c : Char) : Bool := (digitValue? c).isSome

/-- The ASCII decimal digits. -/
def isAsciiDigit (c : Char) : Bool := '0' ≤ c && c ≤ '9'

/-- Blank characters that may stand around a number; the information separators may not. -/
def isMargin (c : Char) : Bool := isBlank c && !(0x1C ≤ c.toNat && c.toNat ≤ 0x1F)

/-- The values of digits that may have single underscores between them. -/
def digitValues? : List Char → Option (List Nat)
  | [] => none
  | c :: cs =>
    match digitValue? c, cs with
    | none, _ => none
    | some d, [] => some [d]
    | some d, '_' :: cs => (digitValues? cs).map (d :: ·)
    | some d, e :: cs => (digitValues? (e :: cs)).map (d :: ·)

/-- The number of digits that a number may have, where it is read and where it is written. -/
def mostDigits : Nat := 4300

/-- A number without a sign. -/
def natural? (cs : List Char) : Option Nat :=
  match digitValues? cs with
  | none => none
  | some ds => if ds.length ≤ mostDigits then some (ds.foldl (fun n d => 10 * n + d) 0) else none

/-- The number that a text spells. -/
def integer? (s : String) : Option Int :=
  let cs := ((s.toList.dropWhile isMargin).reverse.dropWhile isMargin).reverse
  match cs with
  | '-' :: cs => (natural? cs).map fun n => -(n : Int)
  | '+' :: cs => (natural? cs).map fun n => (n : Int)
  | cs => (natural? cs).map fun n => (n : Int)

/-- Digits, or digits with a point before the last ones, after a minus sign. A line feed may follow. -/
def isNegativeNumber (cs : List Char) : Bool :=
  match cs with
  | '-' :: cs =>
    let cs := if cs.getLast? = some '\n' then cs.dropLast else cs
    let digits (ds : List Char) : Bool := !ds.isEmpty && ds.all isDecimal
    digits cs || match cs.dropWhile isDecimal with
      | '.' :: ds => digits ds
      | _ => false
  | _ => false

end CalcImage.Text
