import CalcImage.Instruction.Marker
import CalcImage.Instruction.Operand
import CalcImage.Xrom

/-!
# Instructions

An instruction is an opcode and its operands. `Instruction.read` takes the instruction at the head of a tape and leaves
the rest of the tape, which is never empty; bytes taken and bytes left are the tape (`eq_append_of_read`). The text of an
instruction depends on its bytes alone.
-/

namespace CalcImage

open CalcImage.Text

/-- An opcode with its operands. -/
structure Instruction where
  opcode : UInt8
  operands : List UInt8
  deriving DecidableEq, Repr

namespace Instruction

/-- The bytes of an instruction. -/
def bytes (i : Instruction) : List UInt8 := i.opcode :: i.operands

/-- The number of bytes of an instruction. -/
def size (i : Instruction) : Nat := i.bytes.length

/-- The bytes of an instruction in hexadecimal. -/
def hex (i : Instruction) : String := String.ofList (Hex.ofBytes i.bytes)

/-- The shape of an instruction. -/
def shape (i : Instruction) : Shape := Shape.ofOpcode i.opcode

/-- The bytes that enter digits. -/
def isDigitByte (b : UInt8) : Bool := 0x10 ≤ b && b ≤ 0x1A

/-- Bytes of text that a byte announces. -/
def textLength (b : UInt8) : Nat := b.toNat - 0xF0

/-- A number of bytes, and then as many as the last of them announces. -/
def takeCounted (count : Nat) (t : Tape) : Except Fault (List UInt8 × Tape) :=
  match Tape.take count t with
  | .error f => .error f
  | .ok (header, t) =>
    match Tape.take (textLength (header.getLastD 0)) t with
    | .error f => .error f
    | .ok (body, t) => .ok (header ++ body, t)

/-- The operands that follow an opcode. -/
def readOperands (opcode : UInt8) (t : Tape) : Except Fault (List UInt8 × Tape) :=
  match (Shape.ofOpcode opcode).layout with
  | .bytes count => Tape.take count t
  | .digits => .ok (t.takeWhile isDigitByte, t.dropWhile isDigitByte)
  | .counted header => takeCounted header t
  | .announced => Tape.take (textLength opcode) t

/-- The instruction at the head of a tape and the tape after it. -/
def read : Tape → Except Fault (Instruction × Tape)
  | [] => .error Tape.ranOut
  | opcode :: t =>
    match readOperands opcode t with
    | .error f => .error f
    | .ok (operands, rest) => (Tape.standing rest).map fun rest => (⟨opcode, operands⟩, rest)

/-- The marker that a global instruction is. -/
def marker (i : Instruction) : Marker where
  opcode := i.opcode
  second := i.operands.headD 0
  third := i.operands.getD 1 0
  body := i.operands.drop 2

/-- The instruction ends a program. -/
def isEnd (i : Instruction) : Bool := i.shape == .global && !i.marker.isLabel

/-- The names of the instructions 0x40 to 0x8F. -/
def names : List String := [
  "+", "-", "*", "/", "X<Y?", "X>Y?", "X≤Y?", "Σ+", "Σ-", "HMS+", "HMS-", "MOD", "%", "%CH", "P->R", "R->P",
  "LN", "X^2", "SQRT", "Y^X", "CHS", "E^X", "LOG", "10^X", "E^X-1", "SIN", "COS", "TAN", "ASIN", "ACOS", "ATAN",
  "->DEC",
  "1/X", "ABS", "FACT", "X#0?", "X>0?", "LN1+X", "X<0?", "X=0?", "INT", "FRC", "D->R", "R->D", "->HMS", "->HR", "RND",
  "->OCT",
  "CLΣ", "X<>Y", "PI", "CLST", "R^", "RDN", "LASTX", "CLX", "X=Y?", "X#Y?", "SIGN", "X≤0?", "MEAN", "SDEV", "AVIEW",
  "CLD",
  "DEG", "RAD", "GRAD", "ENTER^", "STOP", "RTN", "BEEP", "CLA", "ASHF", "PSE", "CLRG", "AOFF", "AON", "OFF", "PROMPT",
  "ADV"]

/-- The name of an instruction without operands. -/
def fixedName (opcode : UInt8) : String :=
  if opcode = 0x1B then "EEX" else if opcode = 0x1C then "NEG" else names.getD (opcode.toNat - 0x40) ""

/-- The names of the instructions 0x90 to 0x9B, whose operand is a register. -/
def registerNames : List String := [
  "RCL", "STO", "ST+", "ST-", "ST*", "ST/", "ISG", "DSE", "VIEW", "ΣREG", "ASTO", "ARCL"]

/-- The name of an instruction whose operand is a register. -/
def registerName (opcode : UInt8) : String :=
  if opcode = 0xCE then "X<>" else registerNames.getD (opcode.toNat - 0x90) ""

/-- The name of an instruction that sets the display or sounds a tone. -/
def displayName (opcode : UInt8) : String :=
  ["FIX", "SCI", "ENG", "TONE"].getD (opcode.toNat - 0x9C) ""

/-- The name of an instruction whose operand is a flag. -/
def flagName (opcode : UInt8) : String :=
  ["SF", "CF", "FS?C", "FC?C", "FS?", "FC?"].getD (opcode.toNat - 0xA8) ""

/-- The name of a branch to a label spelled out after it. -/
def alphaName (opcode : UInt8) : String :=
  ["GTO", "XEQ", "W"].getD (opcode.toNat - 0x1D) ""

/-- The character that a digit byte enters. -/
def digitChar (b : UInt8) : Char :=
  ['0', '1', '2', '3', '4', '5', '6', '7', '8', '9', '.'].getD (b.toNat - 0x10) '0'

/-- A text in quotes; the append glyph at its head becomes a mark in front of them. -/
def quotedText (bs : List UInt8) : String :=
  match bs.map Glyph.ofByte with
  | [] => "\"\""
  | c :: cs =>
    if c = Glyph.append then ">\"" ++ String.ofList cs ++ "\""
    else "\"" ++ String.ofList (c :: cs) ++ "\""

/-- An instruction in text. -/
def text (i : Instruction) : String :=
  let code : Int := i.opcode.toNat
  let operand : Int := (i.operands.headD 0).toNat
  match i.shape with
  | .unknown => "UNKNOWN BYTE: " ++ String.ofList (Hex.ofBytes [i.opcode])
  | .localLabel => "LBL " ++ zeroFilled 2 (code % 16 - 1)
  | .digits => String.ofList (i.bytes.map digitChar)
  | .fixed => fixedName i.opcode
  | .alphaBranch => alphaName i.opcode ++ " \"" ++ Glyph.text i.operands.tail ++ "\""
  | .shortRecall => "RCL " ++ zeroFilled 2 (code % 16)
  | .shortStore => "STO " ++ zeroFilled 2 (code % 16)
  | .register => registerName i.opcode ++ " " ++ Operand.register operand
  | .display => displayName i.opcode ++ " " ++ ofInt operand
  | .xrom => let (module, function) := Xrom.split code operand; Xrom.name module function
  | .flag => flagName i.opcode ++ " " ++ Operand.flag operand
  | .indirectBranch => (if operand < 128 then "GTO " else "XEQ ") ++ Operand.branch operand
  | .spare => if i.opcode = 0xAF then "SPARE" else "SPARE " ++ zeroFilled 2 operand
  | .shortGoto => "GTO " ++ zeroFilled 2 (code - 177)
  | .global => i.marker.text
  | .letterLabel => "LBL " ++ Operand.label operand
  | .longBranch => (if code < 0xE0 then "GTO " else "XEQ ") ++ Operand.label (i.operands.getD 1 0).toNat
  | .text => quotedText i.operands

theorem eq_append_of_takeCounted {count : Nat} {t rest : Tape} {taken : List UInt8}
    (h : takeCounted count t = .ok (taken, rest)) : t = taken ++ rest := by
  unfold takeCounted at h
  split at h
  · cases h
  · rename_i header t' h₁
    split at h
    · cases h
    · rename_i body t'' h₂
      cases h
      rw [(Tape.eq_append_of_take h₁).1, (Tape.eq_append_of_take h₂).1, List.append_assoc]

theorem eq_append_of_readOperands {opcode : UInt8} {t rest : Tape} {operands : List UInt8}
    (h : readOperands opcode t = .ok (operands, rest)) : t = operands ++ rest := by
  unfold readOperands at h
  split at h
  · exact (Tape.eq_append_of_take h).1
  · cases h
    exact List.takeWhile_append_dropWhile.symm
  · exact eq_append_of_takeCounted h
  · exact (Tape.eq_append_of_take h).1

theorem eq_append_of_read {t rest : Tape} {i : Instruction} (h : read t = .ok (i, rest)) :
    t = i.bytes ++ rest ∧ rest ≠ [] := by
  unfold read at h
  split at h
  · cases h
  · rename_i opcode t
    split at h
    · cases h
    · rename_i operands rest' ho
      cases hs : Tape.standing rest' with
      | error f => rw [hs] at h; cases h
      | ok r =>
        rw [hs] at h
        obtain ⟨rfl, hne⟩ := Tape.eq_of_standing hs
        cases h
        exact ⟨by rw [bytes, List.cons_append, ← eq_append_of_readOperands ho], hne⟩

theorem length_lt_of_read {t rest : Tape} {i : Instruction} (h : read t = .ok (i, rest)) :
    rest.length < t.length := by
  obtain ⟨happ, -⟩ := eq_append_of_read h
  rw [happ, bytes, List.cons_append, List.length_cons, List.length_append]
  omega

end Instruction

end CalcImage
