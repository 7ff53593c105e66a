import CalcImage.Fault
import CalcImage.Word

/-!
# Display glyphs

Every byte has a character on the display. Four bytes have glyphs of their own; every other byte shows the character with
its number. Different bytes show different characters (`ofByte_injective`). The letters of the stack and status registers
are read off the low four bits of an operand.
-/

namespace CalcImage.Glyph

/-- The code points of the four bytes with a glyph of their own. -/
def special : List (Nat × Nat) :=
  [(0x0D, 0x2221), (0x2E, 0x227B), (0x7E, 0x03A3), (0x7F, 0x22A2)]

/-- The code point on the display for a character number. -/
def codePoint (n : Nat) : Nat := (special.lookup n).getD n

/-- The character on the display for a byte. -/
def ofByte (b : UInt8) : Char := Char.ofNat (codePoint b.toNat)

/-- The characters on the display for a row of bytes. -/
def text (bs : List UInt8) : String := String.ofList (bs.map ofByte)

/-- The glyph that marks a text to be appended. -/
def append : Char := '⊢'

/-- The code points on the display for numbers, each of which has to be a code point itself. -/
def codePoints : List Int → Except Fault (List Nat)
  | [] => .ok []
  | n :: ns =>
    if 0 ≤ n ∧ n < 0x110000 then (codePoints ns).map (codePoint n.toNat :: ·)
    else if Word.fits 32 n then .error .codePoint
    else .error .codePointWidth

/-- The letters of the stack and status registers. -/
def stackLetters : List Char :=
  ['T', 'Z', 'Y', 'X', 'L', 'M', 'N', 'O', 'P', 'Q', '⊢', 'a', 'b', 'c', 'd', 'e']

/-- The register letter for the low four bits of an operand. -/
def stackLetter (value : Int) : Char := stackLetters.getD (value % 16).toNat 'T'

/-- The byte whose character on the display has this code point. -/
def byteOf (codePoint : Nat) : UInt8 :=
  UInt8.ofNat (((special.map Prod.swap).lookup codePoint).getD codePoint)

theorem byteOf_ofByte (b : UInt8) : byteOf (ofByte b).toNat = b := by
  have all : ∀ n ∈ List.range 256, byteOf (ofByte (UInt8.ofNat n)).toNat = UInt8.ofNat n := by decide +kernel
  have h := all b.toNat (List.mem_range.2 b.toNat_lt)
  rwa [UInt8.ofNat_toNat] at h

theorem ofByte_injective {a b : UInt8} (h : ofByte a = ofByte b) : a = b := by
  rw [← byteOf_ofByte a, h, byteOf_ofByte]

end CalcImage.Glyph
