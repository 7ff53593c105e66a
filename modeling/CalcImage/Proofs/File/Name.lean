import CalcImage.Proofs.File.Store

/-!
# Plain names

A plain name spells the path of a file in the working directory (`PlainName.ofString_eq`). Such a path leads to the file
of that name, or to a place for one unless a directory or a device has the name (`PlainName.place_target`), and a file
that was written under a name is found under it (`Files.named_write`).
-/

namespace CalcImage

/-- A name that can be that of a file: it does not lead to another directory, and is neither empty nor too long. -/
structure PlainName (name : String) : Prop where
  nonempty : name ≠ ""
  noSlash : '/' ∉ name.toList
  noNull : '\x00' ∉ name.toList
  noDots : name ≠ "." ∧ name ≠ ".."
  short : Files.isLong name = false

theorem Path.cut_of_not_mem {cs : List Char} (noSlash : '/' ∉ cs) : cut cs = (cs, []) := by
  induction cs with
  | nil => rfl
  | cons c cs ih =>
    rw [List.mem_cons, not_or] at noSlash
    rw [cut, ih noSlash.2]
    dsimp only
    rw [if_neg (Ne.symm noSlash.1)]

namespace Files

/-- A file can have this name in the working directory: nothing has it yet, or a file. -/
def isFree (fs : Files) (name : String) : Bool :=
  match fs.named name with
  | none | some (.file _) => true
  | some .directory | some (.device _) => false

variable {fs : Files} {name other : String} {bytes : List UInt8}

theorem isFree_iff : fs.isFree name = true ↔ fs.named name = none ∨ ∃ bytes, fs.named name = some (.file bytes) := by
  unfold isFree
  cases fs.named name with
  | none => simp
  | some node => cases node <;> simp

/-- A file is found under its name when it has been written. -/
theorem named_write (free : fs.isFree name = true) :
    (fs.write (fs.here ++ [name]) bytes).named name = some (.file bytes) := by
  rw [named, here_write, lookup_write_self, ← named]
  rcases isFree_iff.1 free with vacant | ⟨contents, found⟩
  · rw [vacant]
    rfl
  · rw [found]
    rfl

/-- Writing a file takes no name from others. -/
theorem isFree_write (free : fs.isFree name = true) (otherFree : fs.isFree other = true) :
    (fs.write (fs.here ++ [name]) bytes).isFree other = true := by
  rw [isFree_iff]
  by_cases this : other = name
  · subst this
    exact .inr ⟨bytes, named_write free⟩
  · have elsewhere : fs.here ++ [other] ≠ fs.here ++ [name] := by simpa using this
    rw [named, here_write, lookup_write_of_ne elsewhere, ← named]
    exact isFree_iff.1 otherFree

end Files

namespace PlainName

variable {name : String} {fs : Files}

theorem ofString_eq (plain : PlainName name) : Path.ofString name = ⟨0, [name]⟩ := by
  have leading : name.toList.takeWhile (· == '/') = [] := by
    cases chars : name.toList with
    | nil => rfl
    | cons c cs =>
      have first : '/' ∉ c :: cs := chars ▸ plain.noSlash
      rw [List.mem_cons, not_or] at first
      rw [List.takeWhile_cons, if_neg]
      simpa using Ne.symm first.1
  have telling : Path.isTelling name.toList = true := by
    have hasChars : name.toList ≠ [] := fun noChars => plain.nonempty (String.toList_inj.1 noChars)
    have noDot : name.toList ≠ ['.'] := fun dot => plain.noDots.1 (String.toList_inj.1 dot)
    simp [Path.isTelling, hasChars, noDot]
  rw [Path.ofString]
  dsimp only
  rw [leading, Path.cut_of_not_mem plain.noSlash]
  simp [telling]

theorem text_eq (name : String) : (⟨0, [name]⟩ : Path).text = name := by
  rw [Path.text, if_neg (by simp)]
  exact String.empty_append

/-- A plain name is looked up in the working directory. -/
theorem target_eq (plain : PlainName name) (fs : Files) :
    fs.target ⟨0, [name]⟩ =
      match fs.named name with
      | some .directory => .directory
      | some (.file bytes) => .file (fs.here ++ [name]) bytes
      | some (.device _) => .device (fs.here ++ [name])
      | none => .vacant (fs.here ++ [name]) := by
  have nameable : ¬(⟨0, [name]⟩ : Path).text.toList.contains '\x00' = true := by
    rw [text_eq]
    simpa using plain.noNull
  have fits : ¬Files.mostPathBytes < (⟨0, [name]⟩ : Path).text.utf8ByteSize := by
    have short : ¬255 < name.utf8ByteSize := of_decide_eq_false plain.short
    rw [text_eq, Files.mostPathBytes]
    omega
  have relative : ¬(⟨0, [name]⟩ : Path).isAbsolute = true := Bool.false_ne_true
  rw [Files.target, if_neg nameable, if_neg fits, if_neg relative, Files.follow, if_neg plain.noDots.2, plain.short,
    if_neg Bool.false_ne_true]
  rfl

theorem target_of_named (plain : PlainName name) {bytes : List UInt8} (found : fs.named name = some (.file bytes)) :
    fs.target ⟨0, [name]⟩ = .file (fs.here ++ [name]) bytes := by
  rw [plain.target_eq, found]

theorem place_target (plain : PlainName name) (free : fs.isFree name = true) :
    (fs.target ⟨0, [name]⟩).place ⟨0, [name]⟩ = .ok (fs.here ++ [name]) := by
  rw [plain.target_eq]
  rcases Files.isFree_iff.1 free with vacant | ⟨bytes, found⟩
  · rw [vacant]
    rfl
  · rw [found]
    rfl

end PlainName

end CalcImage
