import CalcImage.Program.Listing
import CalcImage.Proofs.Instruction.Local
import CalcImage.Proofs.Traced

/-!
# Listings

A listing goes through the instructions of a tape one after the other, up to and with the first end
(`disassemble_of_reads`, `disassemble_of_end`). Its rows are numbered from 1 on and show the label and these
instructions (`listing_of_found`).
-/

namespace CalcImage

/-- What a row shows beside its number: a text, and bytes in hexadecimal. -/
def Row.cells (r : Row) : String × String := (r.text, r.hex)

/-- What the row of an instruction shows. -/
def Instruction.cells (i : Instruction) : String × String := (i.text, i.hex)

namespace Listing

variable {t rest : Tape} {i : Instruction} {is : List Instruction}

/-- The first end is the last instruction of a listing. -/
theorem disassemble_of_end (taken : Instruction.read t = .ok (i, rest)) (ends : i.isEnd = true) :
    disassemble t = .ok [i] := by
  rw [disassemble]
  split
  · rename_i f failed
    rw [failed] at taken
    cases taken
  · rename_i j after taken'
    rw [taken'] at taken
    cases taken
    rw [if_pos ends]

/-- After every other instruction a listing goes on. -/
theorem disassemble_of_open (taken : Instruction.read t = .ok (i, rest)) (goesOn : i.isEnd = false) :
    disassemble t = (disassemble rest).map (i :: ·) := by
  rw [disassemble]
  split
  · rename_i f failed
    rw [failed] at taken
    cases taken
  · rename_i j after taken'
    rw [taken'] at taken
    cases taken
    rw [goesOn, if_neg Bool.false_ne_true]
    cases disassemble rest <;> rfl

/-- A listing goes through instructions that are no ends. -/
theorem disassemble_of_reads (reads : Instruction.Reads t is rest) (goesOn : ∀ i ∈ is, i.isEnd = false) :
    disassemble t = (disassemble rest).map (is ++ ·) := by
  induction reads with
  | nil t => cases h : disassemble t <;> rfl
  | @cons t after rest i is first others ih =>
    rw [disassemble_of_open first (goesOn i List.mem_cons_self),
      ih fun j member => goesOn j (List.mem_cons_of_mem i member)]
    cases disassemble rest <;> rfl

theorem cells_numbered (first : Int) (is : List Instruction) :
    (numbered first is).map Row.cells = is.map Instruction.cells := by
  induction is generalizing first with
  | nil => rfl
  | cons i is ih =>
    rw [numbered, List.map_cons, List.map_cons, ih]
    rfl

theorem numbers_numbered (first : Int) (is : List Instruction) :
    (numbered first is).map Row.number = (List.range is.length).map fun k : Nat => first + (k : Int) := by
  induction is generalizing first with
  | nil => rfl
  | cons i is ih =>
    rw [numbered, List.map_cons, ih, List.length_cons, List.range_succ_eq_map, List.map_cons, List.map_map]
    simp only [Function.comp_def, List.cons.injEq, List.map_inj_left]
    constructor
    · simp
    · intro k _
      push_cast
      omega

/-- The rows of a listing are numbered from 1 on and show the given cells. -/
structure Shows (l : Listing) (cells : List (String × String)) : Prop where
  numbers : l.rows.map Row.number = (List.range l.rows.length).map fun k : Nat => (k : Int) + 1
  cells : l.rows.map Row.cells = cells

end Listing

namespace Image

/-- The listing of a program whose label is found and whose instructions come to an end. -/
theorem listing_of_found {img : Image} {name : String} {f : FoundLabel} {is : List Instruction}
    (found : img.findLabel name = .ok (some f)) (listed : Listing.disassemble f.rest = .ok is) :
    ∃ l log, (img.listing name).outcome = (.ok (some l), log) ∧ l.name = name ∧ l.start = f.start ∧
      l.Shows ((Marker.labelText name, f.hex) :: is.map Instruction.cells) := by
  have ran : ∃ log, (img.listing name).outcome =
      (.ok (some ⟨name, f.start, ⟨1, Marker.labelText name, f.hex⟩ :: Listing.numbered 2 is⟩), log) := by
    rw [Traced.outcome_eq, listing, Traced.on_bind_of_ok (a := some f) (by rw [found]; rfl)]
    dsimp only
    rw [Traced.on_bind_of_ok (a := is) (by rw [listed]; rfl), Traced.on_bind_of_ok (Traced.on_record _ _ _)]
    exact ⟨_, rfl⟩
  obtain ⟨log, ran⟩ := ran
  refine ⟨_, log, ran, rfl, rfl, ?_, ?_⟩
  · have rows := congrArg List.length (Listing.cells_numbered 2 is)
    rw [List.length_map, List.length_map] at rows
    rw [List.map_cons, Listing.numbers_numbered, List.length_cons, rows, List.range_succ_eq_map, List.map_cons,
      List.map_map]
    simp only [Function.comp_def, List.cons.injEq, List.map_inj_left]
    constructor
    · simp
    · intro k _
      push_cast
      omega
  · rw [List.map_cons, Listing.cells_numbered]
    rfl

end Image

end CalcImage
