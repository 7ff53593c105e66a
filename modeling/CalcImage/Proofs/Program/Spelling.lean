import CalcImage.Proofs.Instruction.Local
import CalcImage.Proofs.Program.Cut
import CalcImage.Proofs.Program.Kept

/-!
# What is spelled tells its bytes

No two bytes have the same character on the display, so a row of characters tells its bytes (`Glyph.text_injective`).
That is left when a text is put in quotes, with the append glyph at its head in front of them
(`Instruction.quotedText_injective`), and a text tells its opcode by its length. Digit entries and names are rows of
characters without more (`Image.spelling_faithful`).
-/

namespace CalcImage

open CalcImage.Text

namespace Instruction

variable {i j : Instruction} {as bs : List UInt8}

/-- The append glyph at the head of a text is taken off, and a mark stands in front of the quotes for it. -/
theorem quotedText_append (bs : List UInt8) : quotedText (0x7F :: bs) = ">" ++ ("\"" ++ Glyph.text bs ++ "\"") := rfl

/-- Every other text stands in quotes as it is. -/
theorem quotedText_plain (plain : bs.head? ≠ some 0x7F) : quotedText bs = "\"" ++ Glyph.text bs ++ "\"" := by
  unfold quotedText
  cases bs with
  | nil => rfl
  | cons b bs =>
    have other : Glyph.ofByte b ≠ Glyph.append := by
      intro same
      have glyph : Glyph.append = Glyph.ofByte 0x7F := by decide
      rw [glyph] at same
      rw [Glyph.ofByte_injective same] at plain
      exact plain rfl
    rw [List.map_cons]
    exact if_neg other

/-- A text in quotes tells the characters between them. -/
theorem text_eq_of_quotes (same : "\"" ++ Glyph.text as ++ "\"" = "\"" ++ Glyph.text bs ++ "\"") : as = bs := by
  rw [String.append_left_inj, String.append_right_inj] at same
  exact Glyph.text_injective same

theorem quotedText_injective (same : quotedText as = quotedText bs) : as = bs := by
  -- The first character of what is shown is the mark or the quotes.
  have mixed {as bs : List UInt8} (plain : bs.head? ≠ some 0x7F) : quotedText (0x7F :: as) ≠ quotedText bs := by
    intro same
    rw [quotedText_append, quotedText_plain plain] at same
    have first := congrArg (fun s : String => s.toList.head?) same
    simp at first
  by_cases a : as.head? = some 0x7F
  · obtain ⟨as, rfl⟩ := List.head?_eq_some_iff.1 a
    by_cases b : bs.head? = some 0x7F
    · obtain ⟨bs, rfl⟩ := List.head?_eq_some_iff.1 b
      rw [quotedText_append, quotedText_append, String.append_right_inj] at same
      rw [text_eq_of_quotes same]
    · exact absurd same (mixed b)
  · by_cases b : bs.head? = some 0x7F
    · obtain ⟨bs, rfl⟩ := List.head?_eq_some_iff.1 b
      exact absurd same.symm (mixed a)
    · rw [quotedText_plain a, quotedText_plain b] at same
      exact text_eq_of_quotes same

/-- The byte that enters a character. -/
def digitByte (c : Char) : UInt8 := if c = '.' then 0x1A else UInt8.ofNat (c.toNat - 0x20)

theorem digitByte_digitChar {b : UInt8} (digit : isDigitByte b = true) : digitByte (digitChar b) = b := by
  revert digit
  revert b
  apply forall_byte
  decide +kernel

/-- Digits tell the bytes that enter them. -/
theorem bytes_eq_of_digits (a : ∀ b ∈ as, isDigitByte b = true) (b : ∀ b ∈ bs, isDigitByte b = true)
    (same : as.map digitChar = bs.map digitChar) : as = bs := by
  have back {cs : List UInt8} (digits : ∀ b ∈ cs, isDigitByte b = true) : (cs.map digitChar).map digitByte = cs := by
    rw [List.map_map]
    exact (List.map_congr_left fun b member => digitByte_digitChar (digits b member)).trans (List.map_id' cs)
  rw [← back a, same, back b]

/-- The texts are the opcodes of the last row. -/
theorem ofOpcode_eq_text_iff (opcode : UInt8) : Shape.ofOpcode opcode = .text ↔ 0xF0 ≤ opcode.toNat := by
  revert opcode
  apply forall_byte
  decide +kernel

/-- The opcode of a text that was read tells how many bytes come after it. -/
theorem opcode_of_read {rest : Tape} (taken : read (i.bytes ++ rest) = .ok (i, rest)) (text : i.shape = .text) :
    i.opcode.toNat = 0xF0 + i.operands.length := by
  have high := (ofOpcode_eq_text_iff i.opcode).1 text
  have extent := extent_of_read taken
  rw [text] at extent
  have announced : textLength i.opcode = i.operands.length := Option.some.inj extent
  unfold textLength at announced
  omega

/-- A text that was read is told by what it shows. -/
theorem bytes_eq_of_text {rest rest' : Tape} (taken : read (i.bytes ++ rest) = .ok (i, rest))
    (taken' : read (j.bytes ++ rest') = .ok (j, rest')) (a : i.shape = .text) (b : j.shape = .text)
    (same : i.text = j.text) : i.bytes = j.bytes := by
  have shown {i : Instruction} (text : i.shape = .text) : i.text = quotedText i.operands := by
    unfold Instruction.text
    rw [text]
  rw [shown a, shown b] at same
  have operands := quotedText_injective same
  have opcode : i.opcode = j.opcode := by
    rw [← UInt8.toNat_inj, opcode_of_read taken a, opcode_of_read taken' b, operands]
  rw [bytes, bytes, opcode, operands]

/-- A digit entry that was read is told by what it shows. -/
theorem bytes_eq_of_entry {rest rest' : Tape} (taken : read (i.bytes ++ rest) = .ok (i, rest))
    (taken' : read (j.bytes ++ rest') = .ok (j, rest')) (a : i.shape = .digits) (b : j.shape = .digits)
    (same : i.text = j.text) : i.bytes = j.bytes := by
  have shown {i : Instruction} (digits : i.shape = .digits) : i.text = String.ofList (i.bytes.map digitChar) := by
    unfold Instruction.text
    rw [digits]
  rw [shown a, shown b] at same
  exact bytes_eq_of_digits (isDigitByte_of_read taken a) (isDigitByte_of_read taken' b) (String.ofList_injective same)

end Instruction

namespace Image

open Walk

/-- What is decoded is read off its own bytes. -/
theorem exists_read_of_decode {img : Image} {loc : Int} {p : Placed Instruction} (decoded : img.decode loc = .ok p) :
    ∃ rest, Instruction.read (p.item.bytes ++ rest) = .ok (p.item, rest) := by
  obtain ⟨place, rfl, -⟩ := inside_of_decode decoded
  obtain ⟨-, rest, taken⟩ := read_of_decoded decoded
  obtain ⟨parts, -⟩ := Instruction.eq_append_of_read taken
  rw [parts] at taken
  exact ⟨rest, taken⟩

/-- **What is spelled tells its bytes.** Of the instructions of all images, texts that show the same have the same bytes,
and so have digit entries. Labels with the same name have the same bytes for it. So the label that a search for the name
of any label finds is spelled with the bytes of that name. -/
theorem spelling_faithful :
    (∀ (img img' : Image) (loc loc' : Int) (p p' : Placed Instruction), img.decode loc = .ok p →
      img'.decode loc' = .ok p' → p.item.text = p'.item.text →
        (0xF0 ≤ p.item.opcode.toNat → 0xF0 ≤ p'.item.opcode.toNat → p.item.bytes = p'.item.bytes) ∧
        (0x10 ≤ p.item.opcode.toNat ∧ p.item.opcode.toNat ≤ 0x1A →
          0x10 ≤ p'.item.opcode.toNat ∧ p'.item.opcode.toNat ≤ 0x1A → p.item.bytes = p'.item.bytes)) ∧
    (∀ (img img' : Image) (loc loc' : Int) (p p' : Placed Marker), img.marker loc = .ok (some p) →
      img'.marker loc' = .ok (some p') → p.item.isLabel = true → p'.item.isLabel = true →
        p.item.name = p'.item.name → p.item.nameBytes = p'.item.nameBytes) ∧
    ∀ (img img' : Image) (loc : Int) (p : Placed Marker) (f : FoundLabel), img'.marker loc = .ok (some p) →
      p.item.isLabel = true → img.findLabel p.item.name = .ok (some f) →
        ∃ place : Nat, img.marker place = .ok (some ⟨place, f.start, f.marker⟩) ∧ f.marker.isLabel = true ∧
          f.marker.nameBytes = p.item.nameBytes := by
  refine ⟨?_, ?_, ?_⟩
  · intro img img' loc loc' p p' decoded decoded' same
    obtain ⟨rest, taken⟩ := exists_read_of_decode decoded
    obtain ⟨rest', taken'⟩ := exists_read_of_decode decoded'
    constructor
    · intro a b
      rw [← Instruction.ofOpcode_eq_text_iff] at a b
      exact Instruction.bytes_eq_of_text taken taken' a b same
    · intro a b
      rw [← Instruction.isDigitByte_iff, ← Instruction.ofOpcode_eq_digits_iff] at a b
      exact Instruction.bytes_eq_of_entry taken taken' a b same
  · intro img img' loc loc' p p' _ _ _ _ same
    exact Glyph.text_injective same
  · intro img img' loc p f _ _ found
    obtain ⟨place, -, marker, label, named, -⟩ := marker_of_findLabel found
    exact ⟨place, marker, label, Glyph.text_injective named⟩

/-- An image that holds twice a text to append and a digit entry. -/
def spelledTwice : Image := zero.lay 13 [0xF2, 0x7F, 0x41, 0x11, 0x1A, 0x00, 0xF2, 0x7F, 0x41, 0x11, 0x1A]

theorem tape_spelledTwice : spelledTwice.tape 13 =
    [0xF2, 0x7F, 0x41, 0x11, 0x1A, 0x00, 0xF2, 0x7F, 0x41, 0x11, 0x1A, 0x00, 0x00, 0x00] := by
  decide +kernel

/-- The text `>"A"` and the digits `1.` have the same bytes each time, and a search for the label C finds its bytes. -/
theorem spelling_faithful_twice :
    (∃ p p' : Placed Instruction, spelledTwice.decode (7 : Nat) = .ok p ∧ spelledTwice.decode (13 : Nat) = .ok p' ∧
      p.item.text = ">\"A\"" ∧ p'.item.text = ">\"A\"" ∧ p.item.bytes = p'.item.bytes) ∧
    (∃ p p' : Placed Instruction, spelledTwice.decode (10 : Nat) = .ok p ∧ spelledTwice.decode (2 : Nat) = .ok p' ∧
      p.item.text = "1." ∧ p'.item.text = "1." ∧ p.item.bytes = p'.item.bytes) ∧
    ∃ (p : Placed Marker) (f : FoundLabel) (loc place : Nat), twoPrograms.marker loc = .ok (some p) ∧
      p.item.isLabel = true ∧ twoPrograms.findLabel p.item.name = .ok (some f) ∧
        twoPrograms.marker place = .ok (some ⟨place, f.start, f.marker⟩) ∧ f.marker.nameBytes = p.item.nameBytes := by
  have decode (loc : Nat) (low : locationOfRank loc ≤ 13) : spelledTwice.decode loc =
      (Instruction.read ((spelledTwice.tape 13).drop (13 - locationOfRank loc))).map fun found =>
        ⟨loc, stepsAfter loc found.1.size, found.1⟩ := by
    have inside : loc < memorySize := by
      have := locationOfRank_lt (Nat.lt_of_le_of_lt low (by decide : 13 < memorySize))
      rwa [locationOfRank_locationOfRank] at this
    rw [decode_eq inside, drop_tape _ (by omega), Nat.sub_sub_self low, tapeAt, toNat_rank]
  have text (loc : Nat) (start : loc = 7 ∨ loc = 13) :
      spelledTwice.decode loc = .ok ⟨loc, stepsAfter loc 3, ⟨0xF2, [0x7F, 0x41]⟩⟩ := by
    rcases start with rfl | rfl <;> rw [decode _ (by decide), tape_spelledTwice] <;> rfl
  have digits (loc : Nat) (start : loc = 10 ∨ loc = 2) :
      spelledTwice.decode loc = .ok ⟨loc, stepsAfter loc 2, ⟨0x11, [0x1A]⟩⟩ := by
    rcases start with rfl | rfl <;> rw [decode _ (by decide), tape_spelledTwice] <;> rfl
  obtain ⟨loc, -, marker, label, named, -⟩ := marker_of_findLabel findLabel_programC
  have found := findLabel_programC
  rw [← named] at found
  refine ⟨⟨_, _, text 7 (.inl rfl), text 13 (.inr rfl), rfl, rfl, ?_⟩,
    ⟨_, _, digits 10 (.inl rfl), digits 2 (.inr rfl), rfl, rfl, ?_⟩, ?_⟩
  · exact (spelling_faithful.1 _ _ _ _ _ _ (text 7 (.inl rfl)) (text 13 (.inr rfl)) rfl).1 (by decide) (by decide)
  · exact (spelling_faithful.1 _ _ _ _ _ _ (digits 10 (.inl rfl)) (digits 2 (.inr rfl)) rfl).2 (by decide) (by decide)
  · obtain ⟨place, here, label', -⟩ := spelling_faithful.2.2 _ _ _ _ _ marker label found
    have same := spelling_faithful.2.1 _ _ _ _ _ _ here marker label' label rfl
    exact ⟨_, _, loc, place, marker, label, found, here, same⟩

end Image

end CalcImage
