import CalcImage.Memory.Status
import CalcImage.Text.Lines
import CalcImage.Transcription.Line

/-!
# Transcriptions

A transcription is an image in text. Its lines are judged one after the other, and the last line on a register, on the
CPU registers or on the model counts; what no line mentions is zero. At its end a transcription has to have named the
model DM41. Written out, groups of four registers of zeros are left out.
-/

namespace CalcImage.Transcription

open CalcImage.Text

/-- The model whose transcriptions are read. -/
def modelName : String := "DM41"

/-- What the lines so far have said. -/
structure Draft where
  image : Image
  model : Option String
  abc : Option (HexText 14 14 × HexText 14 14 × HexText 14 14)
  mng : Option (HexText 14 14 × HexText 14 14 × HexText 2 14)

namespace Draft

/-- Nothing has been said. -/
def empty : Draft := ⟨Image.zero, none, none, none⟩

/-- Store the contents of registers from `index` on. -/
def storeAll (img : Image) (index : Nat) : List String → Except Fault Image
  | [] => .ok img
  | text :: texts =>
    match Image.registerBytes? text with
    | none => .error (.registerText index text)
    | some bs => storeAll (img.putAll (7 * index) bs) (index + 1) texts

/-- Take a line into account; `number` is its number. -/
def apply (d : Draft) (number : Nat) (line : Line) : Except Fault Draft :=
  match line with
  | .abc a b c => .ok { d with abc := some (a, b, c) }
  | .mng m n g => .ok { d with mng := some (m, n, g) }
  | .memory first registers =>
    if registerCount < first + registers.length then .error (.lineBeyond number (first + registers.length - 1))
    else (storeAll d.image first registers).map fun image => { d with image }
  | .model name => .ok { d with model := some name }
  | .blank => .ok d

/-- Judge a line as it stands in a file, with its line end or without. -/
def take (d : Draft) (number : Nat) (raw : List Char) : Except Fault Draft :=
  let cs := dropLineEnd raw
  match Line.ofText? cs with
  | none => .error (.strayLine number (String.ofList cs))
  | some line => d.apply number line

/-- Judge lines, the first of which has the number `number`. -/
def takeAll (d : Draft) (number : Nat) : List (List Char) → Except Fault Draft
  | [] => .ok d
  | raw :: raws =>
    match d.take number raw with
    | .error f => .error f
    | .ok d => d.takeAll (number + 1) raws

/-- The CPU registers that the lines have named. -/
def cpu (d : Draft) : Cpu :=
  let (a, b, c) := d.abc.getD (Cpu.zeroText, Cpu.zeroText, Cpu.zeroText)
  let (m, n, g) := d.mng.getD (Cpu.zeroText, Cpu.zeroText, Cpu.zeroFlags)
  ⟨a, b, c, m, n, g⟩

/-- The image, when all lines are known and the model is the right one. -/
def image? (d : Draft) : Except Fault Image :=
  match d.model with
  | none => .error .noModel
  | some name => if name = modelName then .ok { d.image with cpu := d.cpu } else .error (.otherModel name)

/-- The image of a complete draft; a wrong watchdog word leaves a warning. -/
def finish (d : Draft) : Traced Image := do
  let img ← d.image?
  discard img.checkWatchdog
  return img

end Draft

/-- The image that lines describe. -/
def parse (lines : List (List Char)) : Traced Image := do
  let d ← Draft.empty.takeAll 1 lines
  d.finish

/-- The image that the bytes of a file describe. The lines that can be read are judged before it is said that the file
is no text. -/
def load (path : String) (bytes : List UInt8) : Traced Image := do
  Traced.record .debug .transcription ("loading transcription from " ++ path)
  let file := fileLines bytes
  let d ← Draft.empty.takeAll 1 file.lines
  if file.whole then d.finish else throw .undecodable

/-- The line of the registers from `first` on. -/
def memoryLine (img : Image) (first : Nat) : String :=
  let texts := (List.range 4).map fun k => String.ofList (Hex.ofBytes (img.registerAt (first + k))) ++ "  "
  String.ofList (Hex.ofNatPadded 2 first) ++ "  " ++ joined "" texts

/-- The four registers from `first` on are zero. -/
def isZeroGroup (img : Image) (first : Nat) : Bool :=
  (List.range 4).all fun k => (img.registerAt (first + k)).all (· == 0)

/-- The lines of all groups that are not zero. -/
def memoryLines (img : Image) : List String :=
  (List.range 278).filterMap fun g => if isZeroGroup img (4 * g) then none else some (memoryLine img (4 * g))

/-- The lines of the CPU registers. -/
def cpuLines (cpu : Cpu) : List String := [
  "A: " ++ cpu.a.text ++ "  B: " ++ cpu.b.text ++ "  C: " ++ cpu.c.text,
  "M: " ++ cpu.m.text ++ "  N: " ++ cpu.n.text ++ "  G: " ++ cpu.g.text]

/-- The lines of an image. -/
def lines (img : Image) : List String :=
  modelName :: memoryLines img ++ cpuLines img.cpu ++ [""]

/-- The lines of an image; a wrong watchdog word leaves a warning. -/
def format (img : Image) : Traced (List String) := do
  discard img.checkWatchdog
  return lines img

/-- The contents of a file with these lines. -/
def fileText (ls : List String) : String := joined "\n" ls ++ "\n"

end CalcImage.Transcription
