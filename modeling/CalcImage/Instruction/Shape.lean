import CalcImage.Fault
import CalcImage.Word

/-!
# Shapes of instructions

The first byte of an instruction is its opcode, and the opcode alone decides which shape the instruction has: how many
bytes follow and how they are read.
-/

namespace CalcImage

/-- How the operands after an opcode are laid out. -/
inductive Layout where
  /-- So many bytes. -/
  | bytes (count : Nat)
  /-- All the digit bytes that follow. -/
  | digits
  /-- So many bytes, and then as many as the last of them announces. -/
  | counted (header : Nat)
  /-- As many bytes as the opcode announces. -/
  | announced
  deriving DecidableEq, Repr

/-- The shapes of instructions. -/
inductive Shape where
  | unknown
  | localLabel
  | digits
  | fixed
  | alphaBranch
  | shortRecall
  | shortStore
  | register
  | display
  | xrom
  | flag
  | indirectBranch
  | spare
  | shortGoto
  | global
  | letterLabel
  | longBranch
  | text
  deriving DecidableEq, Repr

/-- What holds of every number of a byte holds of every byte. -/
theorem forall_byte {P : UInt8 → Prop} (all : ∀ n ∈ List.range 256, P (UInt8.ofNat n)) (b : UInt8) : P b := by
  have single := all b.toNat (List.mem_range.2 b.toNat_lt)
  rwa [UInt8.ofNat_toNat] at single

namespace Shape

/-- The name of a shape. -/
def name : Shape → String
  | unknown => "unknown"
  | localLabel => "local-label"
  | digits => "digits"
  | fixed => "fixed"
  | alphaBranch => "alpha-branch"
  | shortRecall => "recall"
  | shortStore => "store"
  | register => "register"
  | display => "display"
  | xrom => "xrom"
  | flag => "flag"
  | indirectBranch => "indirect-branch"
  | spare => "spare"
  | shortGoto => "short-gto"
  | global => "global"
  | letterLabel => "letter-label"
  | longBranch => "long-branch"
  | text => "text"

/-- The layout of the operands. -/
def layout : Shape → Layout
  | unknown | localLabel | fixed | shortRecall | shortStore => .bytes 0
  | register | display | xrom | flag | indirectBranch | spare | shortGoto | letterLabel => .bytes 1
  | longBranch => .bytes 2
  | digits => .digits
  | alphaBranch => .counted 1
  | global => .counted 2
  | text => .announced

/-- The shape that an opcode has. -/
def ofOpcode (opcode : UInt8) : Shape :=
  let n := opcode.toNat
  if n = 0x00 then unknown
  else if n ≤ 0x0F then localLabel
  else if n ≤ 0x1A then digits
  else if n ≤ 0x1C then fixed
  else if n ≤ 0x1F then alphaBranch
  else if n ≤ 0x2F then shortRecall
  else if n ≤ 0x3F then shortStore
  else if n ≤ 0x8F then fixed
  else if n ≤ 0x9B then register
  else if n ≤ 0x9F then display
  else if n ≤ 0xA7 then xrom
  else if n ≤ 0xAD then flag
  else if n = 0xAE then indirectBranch
  else if n ≤ 0xB0 then spare
  else if n ≤ 0xBF then shortGoto
  else if n ≤ 0xCD then global
  else if n = 0xCE then register
  else if n = 0xCF then letterLabel
  else if n ≤ 0xEF then longBranch
  else text

/-- The shape for a number in the table of opcodes; negative numbers count from its end. -/
def ofNumber (n : Int) : Except Fault Shape :=
  if -256 ≤ n ∧ n ≤ 255 then .ok (ofOpcode (UInt8.ofNat (n % 256).toNat))
  else if Word.fits 64 n then .error .opcodeOutside
  else .error .indexWidth

end Shape

end CalcImage
