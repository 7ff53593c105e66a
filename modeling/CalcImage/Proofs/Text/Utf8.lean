import CalcImage.Text.Utf8

/-!
# Reading ASCII text

A text of ASCII characters is written with one byte for each of them (`toList_toUTF8`), and a file of such bytes is read
as that text whatever the blocks are that it is cut into (`readFile_ascii`).
-/

namespace CalcImage.Text

/-- The text has ASCII characters only. -/
def Ascii (cs : List Char) : Prop := ∀ c ∈ cs, c.toNat < 0x80

instance (cs : List Char) : Decidable (Ascii cs) := List.decidableBAll _ cs

/-- One byte for each character. -/
def asciiBytes (cs : List Char) : List UInt8 := cs.map fun c => UInt8.ofNat c.toNat

namespace Utf8

/-- The bytes of an array are those that its list holds from a place on. -/
theorem toList_loop (bs : ByteArray) (i : Nat) (before : List UInt8) :
    ByteArray.toList.loop bs i before = before.reverse ++ bs.data.toList.drop i := by
  fun_induction ByteArray.toList.loop bs i before with
  | case1 i before inside ih =>
    have here : bs.get! i = bs.data.toList[i] := by
      cases bs
      exact (getElem!_pos _ i inside).trans (Array.getElem_toList inside).symm
    rw [ih, List.drop_eq_getElem_cons inside, here, List.reverse_cons, List.append_assoc]
    rfl
  | case2 i before outside =>
    rw [List.drop_eq_nil_of_le (Nat.le_of_not_lt outside), List.append_nil]

theorem utf8EncodeChar_ascii {c : Char} (ascii : c.toNat < 0x80) : String.utf8EncodeChar c = [UInt8.ofNat c.toNat] := by
  have single : c.utf8Size = 1 := by
    rw [Char.utf8Size_eq_one_iff, UInt32.le_iff_toNat_le]
    exact Nat.le_of_lt_succ ascii
  rw [String.utf8EncodeChar_eq_singleton single]
  rfl

theorem toList_toUTF8 {s : String} (ascii : Ascii s.toList) : s.toUTF8.toList = asciiBytes s.toList := by
  have encoded : s.toUTF8.data.toList = s.toList.flatMap String.utf8EncodeChar := by
    rw [String.toUTF8_eq_toByteArray, ← String.utf8Encode_toList, List.utf8Encode, List.toList_data_toByteArray]
  rw [ByteArray.toList, toList_loop, List.reverse_nil, List.nil_append, List.drop_zero, encoded, asciiBytes,
    List.map_eq_flatMap, List.flatMap_def, List.flatMap_def,
    List.map_congr_left fun c member => utf8EncodeChar_ascii (ascii c member)]

theorem lead_ascii {c : Char} (ascii : c.toNat < 0x80) : step none (UInt8.ofNat c.toNat) = .done c := by
  have value : (UInt8.ofNat c.toNat).toNat = c.toNat := by
    rw [UInt8.toNat_ofNat']
    omega
  rw [step, lead, value, if_pos ascii, Char.ofNat_toNat]

theorem decodeBlock_ascii {cs : List Char} (ascii : Ascii cs) : decodeBlock none (asciiBytes cs) = some (cs, none) := by
  induction cs with
  | nil => rfl
  | cons c cs ih =>
    have rest := ih fun d member => ascii d (List.mem_cons_of_mem c member)
    unfold asciiBytes at rest ⊢
    rw [List.map_cons, decodeBlock, lead_ascii (ascii c List.mem_cons_self), rest]
    rfl

/-- Wherever the blocks end, no character is cut by that. -/
theorem readBlocks_ascii {blocks : List (List UInt8)} {cs : List Char} (ascii : Ascii cs)
    (whole : blocks.flatten = asciiBytes cs) : readBlocks none blocks = ⟨cs, true⟩ := by
  induction blocks generalizing cs with
  | nil =>
    obtain rfl : cs = [] := by simpa [asciiBytes] using whole.symm
    rfl
  | cons block blocks ih =>
    rw [List.flatten_cons, asciiBytes] at whole
    obtain ⟨first, rest, rfl, here, after⟩ := List.map_eq_append_iff.1 whole.symm
    have now := decodeBlock_ascii fun c member => ascii c (List.mem_append_left rest member)
    have later := ih (fun c member => ascii c (List.mem_append_right first member)) after.symm
    rw [asciiBytes, here] at now
    rw [readBlocks, now]
    dsimp only
    rw [later]

theorem readFile_ascii {cs : List Char} (ascii : Ascii cs) : readFile (asciiBytes cs) = ⟨cs, true⟩ :=
  readBlocks_ascii ascii (flatten_blocks _ _)

end Utf8

end CalcImage.Text
