/-!
# UTF-8, block by block

A text is read in blocks of bytes, and a character may begin in one block and end in a later one. Reading stops at the
first byte that cannot continue the text; what a reader then has are the characters that were complete before the block
of that byte. A text that ends inside a character is no UTF-8 text either, but all its complete characters have been
read. A surrogate is no character, but its first two bytes are taken for the beginning of one: it is the byte after them
that is refused, whichever it is.
-/

namespace CalcImage.Text.Utf8

/-- A character that has begun: its bits so far, the tail bytes it still needs, and the bounds of the next one. -/
structure Begun where
  bits : Nat
  owed : Nat
  low : Nat
  high : Nat

/-- What a byte does to the text. -/
inductive Step where
  | refused
  | going (begun : Begun)
  | done (c : Char)

/-- A byte between two characters. -/
def lead (b : Nat) : Step :=
  if b < 0x80 then .done (Char.ofNat b)
  else if 0xC2 ≤ b ∧ b ≤ 0xDF then .going ⟨b - 0xC0, 1, 0x80, 0xBF⟩
  else if b = 0xE0 then .going ⟨0, 2, 0xA0, 0xBF⟩
  else if 0xE1 ≤ b ∧ b ≤ 0xEF then .going ⟨b - 0xE0, 2, 0x80, 0xBF⟩
  else if b = 0xF0 then .going ⟨0, 3, 0x90, 0xBF⟩
  else if b = 0xF4 then .going ⟨4, 3, 0x80, 0x8F⟩
  else if 0xF1 ≤ b ∧ b ≤ 0xF3 then .going ⟨b - 0xF0, 3, 0x80, 0xBF⟩
  else .refused

/-- A character after some of its tail bytes. No byte goes on when the bits are those of a surrogate but its last six. -/
def Begun.after (bits owed : Nat) : Begun :=
  if 0x360 ≤ bits ∧ bits ≤ 0x37F then ⟨bits, owed, 1, 0⟩ else ⟨bits, owed, 0x80, 0xBF⟩

/-- A byte inside a character. -/
def tail (g : Begun) (b : Nat) : Step :=
  if g.low ≤ b ∧ b ≤ g.high then
    let bits := 64 * g.bits + (b - 0x80)
    if g.owed ≤ 1 then .done (Char.ofNat bits) else .going (.after bits (g.owed - 1))
  else .refused

/-- One byte after the character in progress, if there is one. -/
def step : Option Begun → UInt8 → Step
  | none, b => lead b.toNat
  | some g, b => tail g b.toNat

/-- The characters that a block completes and the character that it leaves begun. -/
def decodeBlock : Option Begun → List UInt8 → Option (List Char × Option Begun)
  | g, [] => some ([], g)
  | g, b :: bs =>
    match step g b with
    | .refused => none
    | .going g => decodeBlock (some g) bs
    | .done c => (decodeBlock none bs).map fun r => (c :: r.1, r.2)

/-- What was read of a text, and whether it was the whole of it. -/
structure Reading where
  text : List Char
  whole : Bool

/-- Read blocks until one is refused. -/
def readBlocks : Option Begun → List (List UInt8) → Reading
  | g, [] => ⟨[], g.isNone⟩
  | g, b :: bs =>
    match decodeBlock g b with
    | none => ⟨[], false⟩
    | some (cs, g) =>
      let rest := readBlocks g bs
      ⟨cs ++ rest.text, rest.whole⟩

/-- Cut bytes into blocks of `size + 1`, the last of which may be shorter. -/
def blocks (size : Nat) (bs : List UInt8) : List (List UInt8) :=
  match bs with
  | [] => []
  | b :: bs => (b :: bs.take size) :: blocks size (bs.drop size)
termination_by bs.length
decreasing_by simp only [List.length_drop, List.length_cons]; omega

/-- Bytes in a block of a file. -/
def fileBlock : Nat := 8192

/-- Read a file in blocks. -/
def readFile (bs : List UInt8) : Reading :=
  readBlocks none (blocks (fileBlock - 1) bs)

/-- The text that the bytes spell, when they are UTF-8 from end to end. -/
def decode? (bs : List UInt8) : Option (List Char) :=
  match decodeBlock none bs with
  | some (cs, none) => some cs
  | _ => none

theorem flatten_blocks (size : Nat) (bs : List UInt8) : (blocks size bs).flatten = bs := by
  fun_induction blocks size bs with
  | case1 => rfl
  | case2 b bs ih => simp [ih]

end CalcImage.Text.Utf8
