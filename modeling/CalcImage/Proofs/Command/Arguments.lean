import CalcImage.Command.Options
import CalcImage.Proofs.File.Name

/-!
# Reading arguments

An equals sign parts an option from its value, so the value is read as it stands whatever it is (`classify_valued`). The
arguments that inject program bytes into one file and write another one (`injecting`), and those that show one program
of a file (`showing`), are therefore read as what they say. Only the mark `--` in place of the value is read as none
(`parse_injecting`, `parse_showing`).
-/

namespace CalcImage.Options

/-- A name that the command line reads as that of a file in the working directory. -/
structure FileName (name : String) : Prop extends PlainName name where
  argument : classify name = .ok (.plain name)

/-- The arguments that inject program bytes into the file `input` and write the file `output`. -/
def injecting (input bytes output : String) : List String := ["-f", input, "--inject=" ++ bytes, "-o", output]

/-- The arguments that show the program of this name in the image of a file. -/
def showing (file name : String) : List String := ["-f", file, "--list=" ++ name]

/-- No spelling of an option holds an equals sign. -/
theorem ofSpelling?_of_mem {s : String} (equals : '=' ∈ s.toList) : Opt.ofSpelling? s = none := by
  have spelled : ∀ e ∈ Opt.table, '=' ∉ e.1.toList := by decide
  rw [Opt.ofSpelling?, List.lookup_eq_none_iff]
  intro e member
  apply bne_iff_ne.2
  rintro rfl
  exact spelled e member equals

/-- The mark is not read by itself. -/
theorem ne_mark_of_classify {s : String} {a : Argument} (read : classify s = .ok a) : s ≠ mark := by
  rintro rfl
  have refused : (classify mark).isOk = false := by decide
  rw [read] at refused
  cases refused

/-- Arguments that are read by themselves are read one after the other. -/
theorem classifyAll_cons {s : String} {ss : List String} {a : Argument} {as : List Argument}
    (first : classify s = .ok a) (rest : classifyAll ss = .ok as) : classifyAll (s :: ss) = .ok (a :: as) := by
  rw [classifyAll, if_neg (ne_mark_of_classify first), first, rest]
  rfl

/-- A spelling with two hyphens, an equals sign and a text are read as this option with the text as its value. -/
theorem classify_valued (spelling : String) {o : Opt} (spelled : Opt.ofSpelling? spelling = some o)
    (long : isLongText spelling.toList = true) (value : String) :
    classify (spelling ++ "=" ++ value) = .ok (.option ⟨o, true, some value⟩) := by
  have chars : (spelling ++ "=" ++ value).toList = spelling.toList ++ '=' :: value.toList := by simp
  have unspelled : Opt.ofSpelling? (spelling ++ "=" ++ value) = none := by
    apply ofSpelling?_of_mem
    rw [chars]
    simp
  have noEquals : ∀ c ∈ spelling.toList, (c != '=') = true := by
    rintro c member
    apply bne_iff_ne.2
    rintro rfl
    rw [ofSpelling?_of_mem member] at spelled
    cases spelled
  have stem : splitEquals (spelling.toList ++ '=' :: value.toList) = (spelling.toList, some value.toList) := by
    rw [splitEquals, List.dropWhile_append_of_pos noEquals, List.takeWhile_append_of_pos noEquals]
    simp
  obtain ⟨rest, hyphens⟩ := List.isPrefixOf_iff_prefix.1 long
  have long' : isLongText (spelling.toList ++ '=' :: value.toList) = true := by
    rw [← hyphens]
    rfl
  have option : ¬((spelling.toList ++ '=' :: value.toList).head? ≠ some '-' ∨
      (spelling.toList ++ '=' :: value.toList).length = 1) := by
    rw [← hyphens]
    simp
  rw [classify, chars, if_neg option, spelledOut?, unspelled, chars, stem, long']
  dsimp only
  rw [String.ofList_toList, String.ofList_toList, spelled]
  rfl

/-- What is read as a plain argument is read as it stands. -/
theorem eq_of_classify {s text : String} (plain : classify s = .ok (.plain text)) : text = s := by
  unfold classify at plain
  dsimp only at plain
  split at plain
  · cases plain
    rfl
  · split at plain
    · cases plain
    · split at plain
      · cases plain
      · split at plain
        · cases plain
          rfl
        · cases plain
      · cases plain

theorem classify_inject (bytes : String) :
    classify ("--inject=" ++ bytes) = .ok (.option ⟨.inject, true, some bytes⟩) :=
  classify_valued "--inject" (by decide) rfl bytes

/-- The arguments of an injection are read as such; the mark in place of program bytes is read as none. -/
theorem parse_injecting {input output : String} (inputName : FileName input) (outputName : FileName output)
    (bytes : String) :
    parse (injecting input bytes output) = .ok
      { empty with
        filename := some ⟨0, [input]⟩
        inject := if bytes = mark then none else some bytes
        output := some ⟨0, [output]⟩ } := by
  have fileOption : classify "-f" = .ok (.option ⟨.filename, false, none⟩) := rfl
  have outputOption : classify "-o" = .ok (.option ⟨.output, false, none⟩) := rfl
  have read : classifyAll (injecting input bytes output) = .ok
      [.option ⟨.filename, false, none⟩, .plain input, .option ⟨.inject, true, some bytes⟩,
        .option ⟨.output, false, none⟩, .plain output] := by
    apply classifyAll_cons fileOption
    apply classifyAll_cons inputName.argument
    apply classifyAll_cons (classify_inject bytes)
    apply classifyAll_cons outputOption
    exact classifyAll_cons outputName.argument rfl
  have inputValue : (Act.withValue .filename input).value = some input :=
    if_neg (ne_mark_of_classify inputName.argument)
  have outputValue : (Act.withValue .output output).value = some output :=
    if_neg (ne_mark_of_classify outputName.argument)
  have taken : parse (injecting input bytes output) = .ok
      { empty with
        filename := (Act.withValue .filename input).value.map Path.ofString
        inject := (Act.withValue .inject bytes).value
        output := (Act.withValue .output output).value.map Path.ofString } := by
    rw [parse, read]
    -- Matching the rest of the arguments together with what is lacking leaves this recursion without equations.
    delta takeArguments
    rfl
  rw [taken, inputValue, outputValue, Option.map_some, Option.map_some, inputName.ofString_eq, outputName.ofString_eq]
  rfl

theorem classify_list (name : String) : classify ("--list=" ++ name) = .ok (.option ⟨.list, true, some name⟩) :=
  classify_valued "--list" (by decide) rfl name

section Showing

variable {file name : String}

/-- The arguments that show a program are read as such; the mark in place of its name is read as none. -/
theorem parse_showing (plain : classify file = .ok (.plain file)) :
    parse (showing file name) = .ok
      { empty with
        filename := some (Path.ofString file)
        list := if name = mark then none else some name } := by
  have fileOption : classify "-f" = .ok (.option ⟨.filename, false, none⟩) := rfl
  have read : classifyAll (showing file name) = .ok
      [.option ⟨.filename, false, none⟩, .plain file, .option ⟨.list, true, some name⟩] := by
    apply classifyAll_cons fileOption
    apply classifyAll_cons plain
    exact classifyAll_cons (classify_list name) rfl
  have fileValue : (Act.withValue .filename file).value = some file := if_neg (ne_mark_of_classify plain)
  have taken : parse (showing file name) = .ok
      { empty with
        filename := (Act.withValue .filename file).value.map Path.ofString
        list := (Act.withValue .list name).value } := by
    rw [parse, read]
    delta takeArguments
    rfl
  rw [taken, fileValue]
  rfl

/-- What is not read as the name of a file is refused in its place. -/
theorem parse_showing_of_not_plain (other : classify file ≠ .ok (.plain file)) :
    ∃ h, parse (showing file name) = .error h := by
  have fileOption : classify "-f" = .ok (.option ⟨.filename, false, none⟩) := rfl
  by_cases isMark : file = mark
  · have read : classifyAll (showing file name) = .ok
        [.option ⟨.filename, false, none⟩, .mark, .plain ("--list=" ++ name)] := by
      apply classifyAll_cons fileOption
      exact if_pos isMark
    refine ⟨.misuse (.missingValue .filename), ?_⟩
    rw [parse, read]
    delta takeArguments
    rfl
  · cases read : classify file with
    | error h =>
      refine ⟨h, ?_⟩
      rw [parse, showing, classifyAll, if_neg (by decide), fileOption, classifyAll, if_neg isMark, read]
      rfl
    | ok a =>
      have all : classifyAll (showing file name) = .ok
          [.option ⟨.filename, false, none⟩, a, .option ⟨.list, true, some name⟩] := by
        apply classifyAll_cons fileOption
        apply classifyAll_cons read
        exact classifyAll_cons (classify_list name) rfl
      refine ⟨.misuse (.missingValue .filename), ?_⟩
      rw [parse, all]
      cases a with
      | plain text =>
        rw [eq_of_classify read] at read
        exact absurd read other
      | _ =>
        delta takeArguments
        rfl

end Showing

end CalcImage.Options
