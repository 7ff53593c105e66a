import CalcImage.Toml.Scalar

/-!
# TOML documents

A document is a sequence of statements, each on its own line: a key with its value, the head of a table, or the head of
an array of tables. A table may be declared once, a value given once, and arrays and tables inside a value are closed for
good. `Marks` remembers which paths are closed: declared tables, tables opened by dotted keys (closed when the next head
begins), and values.

Values may be nested, but not without end: each array and each table inside a value leaves fewer levels for what it holds.
-/

namespace CalcImage.Toml

/-- Paths that statements may not open again. -/
structure Marks where
  /-- Tables that were declared. -/
  declared : List Path
  /-- Tables that dotted keys have opened since the last head. -/
  opened : List Path
  /-- Arrays and tables that are values. -/
  frozen : List Path

namespace Marks

/-- Nothing is closed. -/
def empty : Marks := ⟨[], [], []⟩

/-- The path leads to a declared table. -/
def isDeclared (m : Marks) (p : Path) : Bool := m.declared.contains p

/-- The path leads to a value or into one. -/
def isFrozen (m : Marks) (p : Path) : Bool := m.frozen.any fun q => q.isPrefixOf p

/-- A head begins: what dotted keys have opened counts as declared. -/
def settle (m : Marks) : Marks := { m with declared := m.opened ++ m.declared, opened := [] }

/-- Forget all marks at a path and below it. -/
def forget (m : Marks) (p : Path) : Marks :=
  { m with
    declared := m.declared.filter fun q => !p.isPrefixOf q
    frozen := m.frozen.filter fun q => !p.isPrefixOf q }

end Marks

/-- The text after a comment, if one stands here. -/
def skipComment (cs : List Char) : Option (List Char) :=
  match cs with
  | '#' :: rest =>
    if (rest.takeWhile (· != '\n')).all (mayHold false) then some (rest.dropWhile (· != '\n')) else none
  | _ => some cs

/-- The text after spaces, line ends and comments. -/
def skipGaps : Nat → List Char → Option (List Char)
  | 0, cs => some cs
  | fuel + 1, cs =>
    match cs.dropWhile isGap with
    | '#' :: rest =>
      match skipComment ('#' :: rest) with
      | some cs => skipGaps fuel cs
      | none => none
    | cs => some cs

/-- Characters of a key without quotes. -/
def isBare (c : Char) : Bool := c.isAlphanum || c == '-' || c == '_'

/-- One part of a key. -/
def keyPart? (cs : List Char) : Read String :=
  match cs with
  | [] => none
  | c :: rest =>
    if isBare c then some (String.ofList (cs.takeWhile isBare), cs.dropWhile isBare)
    else if c = '"' ∨ c = '\'' then (readLine c rest).map fun p => (String.ofList p.1, p.2)
    else none

/-- The parts of a key, with dots between them. -/
def key? : Nat → List Char → Read Path
  | 0, _ => none
  | fuel + 1, cs =>
    match keyPart? cs with
    | none => none
    | some (part, cs) =>
      match cs.dropWhile isSpace with
      | '.' :: cs => (key? fuel (cs.dropWhile isSpace)).map fun p => (part :: p.1, p.2)
      | cs => some ([part], cs)

/-- A table inside a value, as far as it has been read. -/
structure Inline where
  table : Table
  frozen : List Path

/-- Add a pair to a table inside a value. -/
def Inline.add (t : Inline) (key : Path) (v : Value) : Option Inline :=
  if t.frozen.any fun q => q.isPrefixOf key then none
  else
    match t.table.update false (Table.add (key.getLastD "") v) key.dropLast with
    | none => none
    | some table =>
      match v with
      | .array _ | .table _ => some ⟨table, key :: t.frozen⟩
      | _ => some ⟨table, t.frozen⟩

/-- Levels of nesting that a document has for its values. -/
def mostLevels : Nat := 989

/-- Levels that a value needs which holds no other ones. -/
def scalarLevels : Nat := 3

/-- Levels that an array needs, and those that it takes from its elements. -/
def arrayLevels : Nat × Nat := (4, 2)

/-- Levels that a table inside a value needs, and those that it takes from its values. -/
def tableLevels : Nat × Nat := (6, 3)

mutual

/-- A value with so many levels left for it. -/
def value : Nat → Nat → List Char → Parsed Value
  | 0, _, _ => .error .malformed
  | fuel + 1, levels, cs =>
    if levels < scalarLevels then .error .deep
    else
      match cs with
      | '"' :: cs => orMalformed ((readText '"' cs).map fun p => (.text (String.ofList p.1), p.2))
      | '\'' :: cs => orMalformed ((readText '\'' cs).map fun p => (.text (String.ofList p.1), p.2))
      | '[' :: cs =>
        if levels < arrayLevels.1 then .error .deep
        else (elements fuel (levels - arrayLevels.2) cs).map fun p => (.array p.1, p.2)
      | '\x7b' :: cs =>
        match cs.dropWhile isSpace with
        | '\x7d' :: cs => .ok (.table [], cs)
        | cs =>
          if levels < tableLevels.1 then .error .deep
          else (pairs fuel (levels - tableLevels.2) ⟨[], []⟩ cs).map fun p => (.table p.1, p.2)
      | cs => scalar cs

/-- The elements of an array up to its closing bracket. -/
def elements : Nat → Nat → List Char → Parsed (List Value)
  | 0, _, _ => .error .malformed
  | fuel + 1, levels, cs =>
    match skipGaps cs.length cs with
    | none => .error .malformed
    | some (']' :: cs) => .ok ([], cs)
    | some cs =>
      match value fuel levels cs with
      | .error r => .error r
      | .ok (v, cs) =>
        match skipGaps cs.length cs with
        | some (']' :: cs) => .ok ([v], cs)
        | some (',' :: cs) => (elements fuel levels cs).map fun p => (v :: p.1, p.2)
        | _ => .error .malformed

/-- The pairs of a table inside a value up to its closing brace. -/
def pairs : Nat → Nat → Inline → List Char → Parsed Table
  | 0, _, _, _ => .error .malformed
  | fuel + 1, levels, t, cs =>
    match key? cs.length cs with
    | some (key, '=' :: cs) =>
      match value fuel levels (cs.dropWhile isSpace) with
      | .error r => .error r
      | .ok (v, cs) =>
        match t.add key v, cs.dropWhile isSpace with
        | some t, '\x7d' :: cs => .ok (t.table, cs)
        | some t, ',' :: cs => pairs fuel levels t (cs.dropWhile isSpace)
        | _, _ => .error .malformed
    | _ => .error .malformed

end

/-- A document as far as it has been read: its table, the table that pairs go into, and the closed paths. -/
structure Draft where
  root : Table
  header : Path
  marks : Marks

/-- The paths that a dotted key opens under a header. -/
def openedBy (header key : Path) : List Path :=
  (List.range (key.length - 1)).map fun k => header ++ key.take (k + 1)

/-- Add a pair. -/
def Draft.addPair (d : Draft) (key : Path) (v : Value) : Option Draft :=
  let opened := openedBy d.header key
  let parent := d.header ++ key.dropLast
  if opened.any d.marks.isDeclared || d.marks.isFrozen parent then none
  else
    match d.root.update true (Table.add (key.getLastD "") v) parent with
    | none => none
    | some root =>
      let frozen := match v with
        | .array _ | .table _ => (d.header ++ key) :: d.marks.frozen
        | _ => d.marks.frozen
      some { d with root, marks := { d.marks with opened := opened ++ d.marks.opened, frozen } }

/-- Declare a table. -/
def Draft.declare (d : Draft) (key : Path) : Option Draft :=
  let marks := d.marks.settle
  if marks.isDeclared key || marks.isFrozen key then none
  else
    (d.root.update true some key).map fun root =>
      ⟨root, key, { marks with declared := key :: marks.declared }⟩

/-- Declare a further table of an array of tables. -/
def Draft.declareElement (d : Draft) (key : Path) : Option Draft :=
  let marks := d.marks.settle
  if marks.isFrozen key then none
  else
    let marks := marks.forget key
    (d.root.update true (Table.append (key.getLastD "")) key.dropLast).map fun root =>
      ⟨root, key, { marks with declared := key :: marks.declared }⟩

/-- A statement and the text after it. -/
def statement (d : Draft) (cs : List Char) : Parsed Draft :=
  match cs with
  | '[' :: '[' :: cs =>
    match key? cs.length (cs.dropWhile isSpace) with
    | some (key, ']' :: ']' :: cs) => orMalformed ((d.declareElement key).map fun d => (d, cs))
    | _ => .error .malformed
  | '[' :: cs =>
    match key? cs.length (cs.dropWhile isSpace) with
    | some (key, ']' :: cs) => orMalformed ((d.declare key).map fun d => (d, cs))
    | _ => .error .malformed
  | '#' :: _ => .ok (d, cs)
  | [] => .ok (d, [])
  | '\n' :: _ => .ok (d, cs)
  | _ =>
    match key? cs.length cs with
    | some (key, '=' :: cs) =>
      match value (cs.length + 1) mostLevels (cs.dropWhile isSpace) with
      | .error r => .error r
      | .ok (v, cs) => orMalformed ((d.addPair key v).map fun d => (d, cs))
    | _ => .error .malformed

/-- Statements up to the end of the text. -/
def statements : Nat → Draft → List Char → Except Refusal Draft
  | 0, _, _ => .error .malformed
  | fuel + 1, d, cs =>
    match statement d (cs.dropWhile isSpace) with
    | .error r => .error r
    | .ok (d, cs) =>
      match skipComment (cs.dropWhile isSpace) with
      | some [] => .ok d
      | some ('\n' :: cs) => statements fuel d cs
      | _ => .error .malformed

/-- The text with a line feed for each carriage return that a line feed follows. -/
def joinReturns : List Char → List Char
  | '\r' :: '\n' :: cs => '\n' :: joinReturns cs
  | [] => []
  | c :: cs => c :: joinReturns cs

/-- The document that a text holds. -/
def parse (text : List Char) : Except Refusal Table :=
  let cs := joinReturns text
  (statements (cs.length + 1) ⟨[], [], Marks.empty⟩ cs).map Draft.root

end CalcImage.Toml
