import CalcImage.Text.Hex
import CalcImage.Text.Printable

/-!
# Quoted text

Text inside a message stands in single quotes, or in double quotes when it holds a single quote and no double one.
The quote in use and the backslash are escaped with a backslash; line feed, carriage return and tab have an escape of
their own, and every other unprintable character is written as its code point with two, four or eight digits.
-/

namespace CalcImage.Text

/-- An escape letter and the code point behind it, with `width` digits. -/
def codeEscape (letter : Char) (width : Nat) (c : Char) : List Char :=
  '\\' :: letter :: Hex.ofNatPadded width c.toNat

/-- One character between quotes `q`. -/
def escaped (q c : Char) : List Char :=
  if c = q || c = '\\' then ['\\', c]
  else if c = '\n' then ['\\', 'n']
  else if c = '\r' then ['\\', 'r']
  else if c = '\t' then ['\\', 't']
  else if isPrintable c then [c]
  else if c.toNat < 0x100 then codeEscape 'x' 2 c
  else if c.toNat < 0x10000 then codeEscape 'u' 4 c
  else codeEscape 'U' 8 c

/-- The quote for a text: the single one unless the text holds it and no double one. -/
def quoteFor (cs : List Char) : Char :=
  if cs.contains '\'' && !cs.contains '"' then '"' else '\''

/-- A text between quotes. -/
def quoted (s : String) : String :=
  let q := quoteFor s.toList
  String.ofList (q :: s.toList.flatMap (escaped q) ++ [q])

end CalcImage.Text
