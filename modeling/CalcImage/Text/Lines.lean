import CalcImage.Text.Utf8

/-!
# Lines of a file

A line feed, a carriage return, and a carriage return with a line feed after it each end a line; nothing else does. What
stands after the last line end is a line of its own unless it is empty. Of a file that is no UTF-8 text only those lines
are known that were ended before the reading stopped, and a carriage return at the very end of what was read has not
ended one yet, because a line feed might have followed.
-/

namespace CalcImage.Text

/-- The text up to the first line end, and the pieces after it. -/
def pieces : List Char → List Char × List (List Char)
  | [] => ([], [])
  | '\r' :: '\n' :: cs => let (p, ps) := pieces cs; ([], p :: ps)
  | c :: cs =>
    let (p, ps) := pieces cs
    if c = '\n' ∨ c = '\r' then ([], p :: ps) else (c :: p, ps)

/-- The lines that have a line end. -/
def endedLines (cs : List Char) : List (List Char) :=
  let (p, ps) := pieces cs
  (p :: ps).dropLast

/-- All lines, the last one with or without its line end. -/
def lines (cs : List Char) : List (List Char) :=
  let (p, ps) := pieces cs
  let last := (p :: ps).getLast (by simp)
  (p :: ps).dropLast ++ if last.isEmpty then [] else [last]

/-- The text without a carriage return at its end. -/
def dropPendingReturn (cs : List Char) : List Char :=
  if cs.getLast? = some '\r' then cs.dropLast else cs

/-- What is known of a file's lines, and whether the file is a text to its end. -/
structure FileLines where
  lines : List (List Char)
  whole : Bool

/-- The lines of a file given by its bytes. -/
def fileLines (bs : List UInt8) : FileLines :=
  let reading := Utf8.readFile bs
  if reading.whole then ⟨lines reading.text, true⟩
  else ⟨endedLines (dropPendingReturn reading.text), false⟩

/-- The text without the line ends at its end. -/
def dropLineEnd (cs : List Char) : List Char :=
  (cs.reverse.dropWhile fun c => c = '\n' ∨ c = '\r').reverse

end CalcImage.Text
