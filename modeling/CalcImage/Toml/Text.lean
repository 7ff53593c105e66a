import CalcImage.Text.Hex

/-!
# TOML text

Text stands between quotation marks, where a backslash begins an escape, or between apostrophes, where every character
stands for itself. Three marks open a text that may go over several lines; a line end right after them does not belong to
it, and up to two more marks before the closing three do. Control characters are refused, but for the tab and, in texts
of several lines, the line feed.

Reading goes in two passes: a text is cut off at its closing mark, and then its escapes are resolved.
-/

namespace CalcImage.Toml

open CalcImage.Text

/-- Why a document is refused. -/
inductive Refusal where
  | malformed
  /-- A decimal integer has more digits than are read. -/
  | longNumber (digits : Nat)
  /-- Values are nested too deeply. -/
  | deep
  deriving DecidableEq, Repr

/-- What was read, and the characters after it. -/
abbrev Read (α : Type) := Option (α × List Char)

/-- What was read, and the characters after it, or why the document is refused. -/
abbrev Parsed (α : Type) := Except Refusal (α × List Char)

/-- Text that cannot be read is malformed. -/
def orMalformed {α : Type} : Read α → Parsed α
  | some p => .ok p
  | none => .error .malformed

/-- The control characters of ASCII. -/
def isControl (c : Char) : Bool := c.toNat < 0x20 || c.toNat == 0x7F

/-- Space and tab. -/
def isSpace (c : Char) : Bool := c == ' ' || c == '\t'

/-- Space, tab and line feed. -/
def isGap (c : Char) : Bool := isSpace c || c == '\n'

/-- Characters that a text may hold; `block` says that it may go over several lines. -/
def mayHold (block : Bool) (c : Char) : Bool := !isControl c || c == '\t' || (block && c == '\n')

/-- Put a character in front of what was read. -/
def Read.push (c : Char) (r : Read (List Char)) : Read (List Char) := r.map fun p => (c :: p.1, p.2)

/-- The characters up to an apostrophe. -/
def cutLiteral : List Char → Read (List Char)
  | [] => none
  | c :: cs =>
    if c = '\'' then some ([], cs)
    else if mayHold false c then (cutLiteral cs).push c else none

/-- The characters up to three apostrophes. -/
def cutLiteralBlock : List Char → Read (List Char)
  | '\'' :: '\'' :: '\'' :: cs => some ([], cs)
  | [] => none
  | c :: cs => if mayHold true c then (cutLiteralBlock cs).push c else none

/-- The characters up to a quotation mark that no backslash stands before. -/
def cutBasic : List Char → Read (List Char)
  | [] => none
  | '\\' :: c :: cs => ((cutBasic cs).push c).push '\\'
  | c :: cs =>
    if c = '"' then some ([], cs)
    else if mayHold false c then (cutBasic cs).push c else none

/-- The characters up to three quotation marks that no backslash stands before. -/
def cutBasicBlock : List Char → Read (List Char)
  | '"' :: '"' :: '"' :: cs => some ([], cs)
  | [] => none
  | '\\' :: c :: cs => ((cutBasicBlock cs).push c).push '\\'
  | c :: cs => if mayHold true c then (cutBasicBlock cs).push c else none

/-- The character that a letter after a backslash stands for. -/
def escapeOf? (c : Char) : Option Char :=
  [('b', '\x08'), ('t', '\t'), ('n', '\n'), ('f', '\x0c'), ('r', '\r'), ('"', '"'), ('\\', '\\')].lookup c

/-- The character whose code point is written with `count` hexadecimal digits at the head of a text. -/
def codePoint? (count : Nat) (cs : List Char) : Option Char :=
  let ds := cs.take count
  let n := Hex.toNat ds
  if ds.length = count ∧ ds.all Hex.isDigit ∧ n.isValidChar then some (Char.ofNat n) else none

/-- What of a text is being left out: nothing, the rest of a line that a backslash ends, or the gap after that line. -/
inductive Skip where
  | nothing
  | line
  | gap
  deriving DecidableEq

/-- Resolve the escapes of a text that has been cut off. -/
def unescape (block : Bool) (skip : Skip) (cs : List Char) : Option (List Char) :=
  match cs with
  | [] => if skip = .line then none else some []
  | c :: cs =>
    if skip = .line then
      if isSpace c then unescape block .line cs else if c = '\n' then unescape block .gap cs else none
    else if skip = .gap ∧ isGap c then unescape block .gap cs
    else if c ≠ '\\' then (unescape block .nothing cs).map (c :: ·)
    else
      match cs with
      | [] => none
      | e :: cs =>
        if e = 'u' then
          match codePoint? 4 cs with
          | some x => (unescape block .nothing (cs.drop 4)).map (x :: ·)
          | none => none
        else if e = 'U' then
          match codePoint? 8 cs with
          | some x => (unescape block .nothing (cs.drop 8)).map (x :: ·)
          | none => none
        else
          match escapeOf? e with
          | some x => (unescape block .nothing cs).map (x :: ·)
          | none =>
            if block && e == '\n' then unescape block .gap cs
            else if block && isSpace e then unescape block .line cs
            else none
termination_by cs.length
decreasing_by all_goals simp only [List.length_cons, List.length_drop]; omega

/-- Resolve the escapes of what was cut off. -/
def Read.unescaped (block : Bool) (r : Read (List Char)) : Read (List Char) :=
  match r with
  | none => none
  | some (raw, cs) => (unescape block .nothing raw).map fun s => (s, cs)

/-- Up to two closing marks more belong to the text. -/
def Read.withMarks (mark : Char) (r : Read (List Char)) : Read (List Char) :=
  r.map fun p =>
    let extra := (p.2.take 2).takeWhile (· == mark)
    (p.1 ++ extra, p.2.drop extra.length)

/-- The text without a line feed at its head. -/
def dropLineFeed : List Char → List Char
  | '\n' :: cs => cs
  | cs => cs

/-- A text of one line that a mark has opened. -/
def readLine (mark : Char) (cs : List Char) : Read (List Char) :=
  if mark = '"' then Read.unescaped false (cutBasic cs) else cutLiteral cs

/-- A text of several lines that three marks have opened. -/
def readBlock (mark : Char) (cs : List Char) : Read (List Char) :=
  let cs := dropLineFeed cs
  Read.withMarks mark <|
    if mark = '"' then Read.unescaped true (cutBasicBlock cs) else cutLiteralBlock cs

/-- A text that a mark has opened. -/
def readText (mark : Char) (cs : List Char) : Read (List Char) :=
  match cs with
  | c :: d :: rest => if c = mark ∧ d = mark then readBlock mark rest else readLine mark cs
  | _ => readLine mark cs

end CalcImage.Toml
