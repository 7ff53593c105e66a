/-!
# Blank characters and words

A character is blank when Unicode lists it as white space or when it is one of the four information separators
U+001C to U+001F. A text is cut into words at its runs of blank characters; no word is empty and no word holds
a blank character.
-/

namespace CalcImage.Text

/-- Blank characters: Unicode white space and the information separators. -/
def isBlank (c : Char) : Bool :=
  let n := c.toNat
  (0x09 ≤ n && n ≤ 0x0D) || (0x1C ≤ n && n ≤ 0x20) || n == 0x85 || n == 0xA0 || n == 0x1680 ||
    (0x2000 ≤ n && n ≤ 0x200A) || n == 0x2028 || n == 0x2029 || n == 0x202F || n == 0x205F || n == 0x3000

/-- Put a word in front of others unless it is empty. -/
def consWord (w : List Char) (ws : List (List Char)) : List (List Char) :=
  if w.isEmpty then ws else w :: ws

/-- The characters before the first blank one, and the words after it. -/
def cutWord : List Char → List Char × List (List Char)
  | [] => ([], [])
  | c :: cs =>
    let (w, ws) := cutWord cs
    if isBlank c then ([], consWord w ws) else (c :: w, ws)

/-- The words of a text: its maximal runs of characters that are not blank. -/
def words (cs : List Char) : List (List Char) :=
  let (w, ws) := cutWord cs
  consWord w ws

/-- The text without its blank characters. -/
def dropBlanks (cs : List Char) : List Char :=
  cs.filter fun c => !isBlank c

end CalcImage.Text
