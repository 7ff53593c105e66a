import CalcImage.Fault

/-!
# CPU registers

Six registers of the processor are carried beside the memory contents, as hexadecimal text whose letter case is kept.
Five of them have fourteen digits, the flag register has two to fourteen. The type holds no other text.
-/

namespace CalcImage

open CalcImage.Text

/-- Hexadecimal text of `least` to `most` digits. -/
structure HexText (least most : Nat) where
  text : String
  digits : text.toList.all Hex.isDigit = true
  least_le : least ≤ text.toList.length
  le_most : text.toList.length ≤ most
  deriving DecidableEq

/-- The text, when it is made of the right number of hexadecimal digits. -/
def HexText.ofString? (least most : Nat) (s : String) : Option (HexText least most) :=
  if h : s.toList.all Hex.isDigit = true ∧ least ≤ s.toList.length ∧ s.toList.length ≤ most then
    some ⟨s, h.1, h.2.1, h.2.2⟩
  else none

/-- The registers of the processor. -/
structure Cpu where
  a : HexText 14 14
  b : HexText 14 14
  c : HexText 14 14
  m : HexText 14 14
  n : HexText 14 14
  g : HexText 2 14
  deriving DecidableEq

namespace Cpu

/-- Fourteen zeros. -/
def zeroText : HexText 14 14 := ⟨"00000000000000", by decide, by decide, by decide⟩

/-- Two zeros. -/
def zeroFlags : HexText 2 14 := ⟨"00", by decide, by decide, by decide⟩

/-- All registers zero. -/
def zero : Cpu := ⟨zeroText, zeroText, zeroText, zeroText, zeroText, zeroFlags⟩

/-- What may be offered as the contents of a register. -/
inductive Offer where
  | text (s : String)
  | nothing
  | truth (b : Bool)
  | number (n : Int)

/-- How an offer is shown when it is refused. -/
def Offer.shown : Offer → String
  | .text s => quoted s
  | .nothing => "None"
  | .truth true => "True"
  | .truth false => "False"
  | .number n => ofInt n

/-- Accept an offer for the register with this letter. -/
def accept (letter : Char) (least most : Nat) (offer : Offer) : Except Fault (HexText least most) :=
  match offer with
  | .text s =>
    match HexText.ofString? least most s with
    | some t => .ok t
    | none => .error (.cpuText letter offer.shown)
  | _ => .error (.cpuText letter offer.shown)

/-- Six offers, some of which may be missing. -/
structure Offers where
  a : Option Offer
  b : Option Offer
  c : Option Offer
  m : Option Offer
  n : Option Offer
  g : Option Offer

/-- The registers made of the offers, in the order A, B, C, M, N, G; a missing one is zero. -/
def ofOffers (o : Offers) : Except Fault Cpu := do
  let wide (letter : Char) (offer : Option Offer) : Except Fault (HexText 14 14) :=
    match offer with
    | none => .ok zeroText
    | some offer => accept letter 14 14 offer
  let a ← wide 'A' o.a
  let b ← wide 'B' o.b
  let c ← wide 'C' o.c
  let m ← wide 'M' o.m
  let n ← wide 'N' o.n
  let g ← match o.g with
    | none => .ok zeroFlags
    | some offer => accept 'G' 2 14 offer
  return ⟨a, b, c, m, n, g⟩

end Cpu

end CalcImage
