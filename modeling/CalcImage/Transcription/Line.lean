import CalcImage.Memory.Cpu
import CalcImage.Text.Blank
import CalcImage.Text.Digit

/-!
# Lines of a transcription

A line is of the first of these kinds that it fits: it has the registers A, B and C somewhere in it; it has M, N and G
somewhere in it; its words are a register number and the contents of four registers; its one word is the name of a
model; it has no word. Every other line is none.
-/

namespace CalcImage.Transcription

open CalcImage.Text

/-- A line of a transcription. -/
inductive Line where
  | abc (a b c : HexText 14 14)
  | mng (m n : HexText 14 14) (g : HexText 2 14)
  | memory (first : Nat) (registers : List String)
  | model (name : String)
  | blank
  deriving DecidableEq

namespace Line

/-- The text after an expected beginning. -/
def after? : List Char → List Char → Option (List Char)
  | [], cs => some cs
  | _ :: _, [] => none
  | e :: es, c :: cs => if e = c then after? es cs else none

/-- Up to `most` hexadecimal digits, at least `least` of them, and the text after them. -/
def hex? (least most : Nat) (cs : List Char) : Option (HexText least most × List Char) :=
  let ds := (cs.take most).takeWhile Hex.isDigit
  (HexText.ofString? least most (String.ofList ds)).map fun t => (t, cs.drop ds.length)

/-- A tag, and the hexadecimal digits after it. -/
def field? (tag : String) (least most : Nat) (cs : List Char) : Option (HexText least most × List Char) := do
  let cs ← after? tag.toList cs
  hex? least most cs

/-- The registers A, B and C at the head of a text. -/
def abcHere? (cs : List Char) : Option Line := do
  let (a, cs) ← field? "A: " 14 14 cs
  let (b, cs) ← field? "  B: " 14 14 cs
  let (c, _) ← field? "  C: " 14 14 cs
  return .abc a b c

/-- The registers M, N and G at the head of a text. -/
def mngHere? (cs : List Char) : Option Line := do
  let (m, cs) ← field? "M: " 14 14 cs
  let (n, cs) ← field? "  N: " 14 14 cs
  let (g, _) ← field? "  G: " 2 14 cs
  return .mng m n g

/-- The first place of a text where `here?` finds something. -/
def search? (here? : List Char → Option Line) : List Char → Option Line
  | [] => here? []
  | c :: cs => (here? (c :: cs)).or (search? here? cs)

/-- Five words of hexadecimal digits, the first of them of one to three digits. -/
def memory? (ws : List (List Char)) : Option Line :=
  match ws with
  | first :: registers =>
    if registers.length = 4 ∧ ws.all (·.all Hex.isDigit) ∧ first.length ≤ 3 then
      some (.memory (Hex.toNat first) (registers.map String.ofList))
    else none
  | [] => none

/-- One word that is the name of a model: `DM` and two digits. -/
def model? (ws : List (List Char)) : Option Line :=
  match ws with
  | [['D', 'M', x, y]] =>
    if isAsciiDigit x && isAsciiDigit y then some (.model (String.ofList ['D', 'M', x, y])) else none
  | _ => none

/-- A line without a word. -/
def blank? (ws : List (List Char)) : Option Line :=
  if ws.isEmpty then some .blank else none

/-- The kind and contents of a line, of which the line end has been taken off. -/
def ofText? (cs : List Char) : Option Line :=
  let ws := words cs
  (search? abcHere? cs).or <| (search? mngHere? cs).or <| (memory? ws).or <| (model? ws).or (blank? ws)

end Line

end CalcImage.Transcription
