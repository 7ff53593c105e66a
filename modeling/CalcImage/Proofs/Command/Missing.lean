import CalcImage.Proofs.Command.Chained
import CalcImage.Proofs.Program.Faults
import CalcImage.Proofs.Text.UpperCase

/-!
# Programs that do not exist

The catalog names labels as they are spelled, while the command line looks for the upper case of the name that it is
given. So it says of a program in the catalog that it does not exist exactly when program memory has no label that is
spelled in this upper case (`Command.missing_showing`). A name that is its own upper case is always found, and these are
the names without the few characters that have another one.
-/

namespace CalcImage

open CalcImage.Text

namespace Image

variable {img : Image} {name : String}

/-- No label of this name stands in program memory. -/
def Unlabelled (img : Image) (name : String) : Prop := ∀ loc, img.InProgram loc → ¬img.LabelAt name loc

section Search

variable (enough : 3 ≤ img.status.programLimit) (high : img.status.programTop ≤ 1111)
include enough high

/-- A search finds nothing exactly when no label of the name stands in program memory. -/
theorem findLabel_eq_none_iff : img.findLabel name = .ok none ↔ img.Unlabelled name := by
  rcases programMemory_cases high with empty | ⟨top, top_eq, low, inside⟩
  · apply iff_of_true (findLabel_of_empty empty name)
    rintro loc ⟨above, below⟩
    omega
  · obtain ⟨found, searched, told⟩ := exists_findLabel_tells name enough top_eq low inside
    rw [searched]
    cases found with
    | none => exact iff_of_true rfl fun loc within => not_labelAt_of_tells top_eq inside told within
    | some f =>
      obtain ⟨loc, first⟩ := firstLabel_of_tells top_eq inside low told
      apply iff_of_false (by simp)
      intro unlabelled
      exact unlabelled loc first.inside ⟨_, first.marker, first.label, first.named⟩

/-- A name of the catalog is that of a label in program memory. -/
theorem not_unlabelled_of_names {c : Catalog} (cataloged : img.catalog = .ok c) (named : c.Names name) :
    ¬img.Unlabelled name := by
  intro unlabelled
  rcases programMemory_cases high with empty | ⟨top, top_eq, low, inside⟩
  · rw [catalog_of_empty empty] at cataloged
    cases cataloged
    obtain ⟨key, member⟩ := named
    cases member
  · rw [catalog_of_le top_eq low (by simp only [registerCount]; omega) enough] at cataloged
    cases cataloged
    rw [Catalog.names_foldl] at named
    rcases named with ⟨key, member⟩ | ⟨u, looked, labels⟩
    · cases member
    · obtain ⟨passed, within, rfl, -⟩ := Catalog.mem_visited looked
      have here : img.InProgram (Walk.locationOfRank (7 * top + 6 - passed)) := by
        rw [inProgram_locationOfRank]
        omega
      apply unlabelled _ here
      rw [labelAt_iff (lt_memorySize_of_inProgram top_eq inside here), tapeAt_of_inProgram top_eq here,
        Walk.locationOfRank_locationOfRank, Nat.sub_sub_self (by omega)]
      exact labels

/-- A name of the catalog is spelled in the characters of bytes. -/
theorem exists_text_of_names {c : Catalog} (cataloged : img.catalog = .ok c) (named : c.Names name) :
    ∃ bs, name = Glyph.text bs := by
  refine Classical.byContradiction fun unspelled => not_unlabelled_of_names enough high cataloged named ?_
  rintro loc - ⟨p, -, -, spelled⟩
  exact unspelled ⟨p.item.nameBytes, spelled.symm⟩

end Search

end Image

namespace Report

variable {img : Image} {name : String}

/-- What is shown of a program that is found is its listing. -/
theorem program_of_some {f : FoundLabel} {lines : List String} (found : img.findLabel name = .ok (some f))
    (shown : (program img name).outcome.1 = .ok lines) : ∃ l, lines = listing l := by
  have ran : (program img name).on [] = (.ok lines, (program img name).outcome.2) := Prod.ext shown rfl
  obtain ⟨l, between, listed, reported⟩ := Traced.ok_of_bind ran
  rw [Image.listing, found, Traced.on_bind_of_ok (Traced.on_lift _)] at listed
  obtain ⟨is, _, _, recorded⟩ := Traced.ok_of_bind listed
  cases congrArg Prod.fst recorded
  cases congrArg Prod.fst reported
  exact ⟨_, rfl⟩

/-- A text in lines begins with its first line. -/
theorem head?_fileText (l : String) (ls : List String) :
    (Transcription.fileText (l :: ls)).toList.head? = some (l.toList.head?.getD '\n') := by
  rw [Transcription.fileText_eq_endedText (List.cons_ne_nil l ls), Transcription.endedText, String.toList_ofList]
  simp [endLines, LineEnd.chars]

/-- The text that a program is not there begins with an empty line. -/
theorem head?_missingProgram (name : String) :
    (Transcription.fileText (missingProgram name)).toList.head? = some '\n' := head?_fileText "" _

theorem head?_listing (l : Listing) : (Transcription.fileText (listing l)).toList.head? = some 'P' := by
  rw [listing, List.cons_append, List.cons_append, head?_fileText]
  simp

end Report

namespace Command

/-- The run has shown nothing but the text that a program is not there. -/
def Outcome.ReportsMissing (out : Outcome) : Prop :=
  ∃ name, out.output = Transcription.fileText (Report.missingProgram name)

/-- A run that says that a program is not there begins with an empty line. -/
theorem Outcome.ReportsMissing.head? {out : Outcome} (missing : out.ReportsMissing) :
    out.output.toList.head? = some '\n' := by
  obtain ⟨name, output⟩ := missing
  rw [output, Report.head?_missingProgram]

section Showing

variable (host : Host) {fs : Files} {path : Path} {img : Image}

/-- The options that ask for a program in the image of a file. -/
def showingOptions (path : Path) (asked : Option String) : Options :=
  { Options.empty with filename := some path, list := asked }

/-- A run shows the listing, or the text that the program is not there, and nothing else. -/
theorem runOptions_showing {asked : Option String} {text : String} (loads : Loads fs (some path) img)
    (lists : Lists (given? asked) img text) :
    ∃ errors, runOptions host fs (showingOptions path asked) = ⟨.code 0, text, errors, fs⟩ := by
  have done : Completes host fs (showingOptions path asked) Settings.standard img img "" text fs := by
    constructor
    case loads => exact loads
    case injects => rfl
    case sums => rfl
    case lists => exact lists
    case writes => rfl
  obtain ⟨errors, ran⟩ := runOptions_of_completes rfl done
  have shown : shownBefore (showingOptions path asked) img ++
      (shownAfter (showingOptions path asked) img ++ ("" ++ text)) = text := by
    rw [shownBefore, shownAfter]
    simp [showingOptions, Options.empty, given?]
  rw [shown] at ran
  exact ⟨errors, ran⟩

/-- A run that fails at the listing has shown nothing. -/
theorem runOptions_showing_of_error {asked : Option String} {name : String} {f : Fault}
    (loads : Loads fs (some path) img) (given : given? asked = some name)
    (failed : (Report.program img (upper name)).outcome.1 = .error f) :
    ∃ errors, runOptions host fs (showingOptions path asked) = ⟨.ofFault f, "", errors, fs⟩ := by
  have sums : Sums host (showingOptions path asked) Settings.standard img "" := rfl
  have injects : Injects (given? (showingOptions path asked).inject) img img := rfl
  have gives : (work host (showingOptions path asked) Settings.standard).Gives fs (.error (.fault f)) _ fs :=
    gives_work_of_unlisted loads injects sums given failed
  exact runOptions_of_gives rfl gives

/-- A run that searches for a program and finds none says so, and returns. -/
theorem runOptions_of_missing {asked : Option String} {name : String} (loads : Loads fs (some path) img)
    (given : given? asked = some name) (absent : img.findLabel (upper name) = .ok none) :
    ∃ errors, runOptions host fs (showingOptions path asked) =
      ⟨.code 0, Transcription.fileText (Report.missingProgram (upper name)), errors, fs⟩ := by
  apply runOptions_showing host loads
  rw [given]
  exact ⟨_, Report.program_of_none absent, rfl⟩

/-- A run that asks for a program says that it is not there when the search finds nothing, and only then. -/
theorem reportsMissing_showing_iff {asked : Option String} (enough : 3 ≤ img.status.programLimit)
    (high : img.status.programTop ≤ 1111) (loads : Loads fs (some path) img) :
    (runOptions host fs (showingOptions path asked)).ReportsMissing ↔
      ∃ name, given? asked = some name ∧ img.findLabel (upper name) = .ok none := by
  cases given : given? asked with
  | none =>
    have lists : Lists (given? asked) img "" := by
      rw [given]
      rfl
    obtain ⟨errors, ran⟩ := runOptions_showing host loads lists
    rw [ran]
    apply iff_of_false
    · intro missing
      cases missing.head?
    · simp
  | some name =>
    obtain ⟨found, searched⟩ := Image.exists_findLabel (upper name) enough high
    cases found with
    | none =>
      obtain ⟨errors, ran⟩ := runOptions_of_missing host loads given searched
      rw [ran]
      exact iff_of_true ⟨_, rfl⟩ ⟨name, rfl, searched⟩
    | some f =>
      apply iff_of_false
      · intro missing
        cases shown : (Report.program img (upper name)).outcome.1 with
        | error f' =>
          obtain ⟨errors, ran⟩ := runOptions_showing_of_error host loads given shown
          rw [ran] at missing
          cases missing.head?
        | ok lines =>
          obtain ⟨l, rfl⟩ := Report.program_of_some searched shown
          have lists : Lists (given? asked) img (Transcription.fileText (Report.listing l)) := by
            rw [given]
            exact ⟨_, shown, rfl⟩
          obtain ⟨errors, ran⟩ := runOptions_showing host loads lists
          rw [ran] at missing
          cases (Report.head?_listing l).symm.trans missing.head?
      · rintro ⟨name', same, absent⟩
        cases same
        rw [searched] at absent
        cases absent

/-- Arguments that are refused search for no program. -/
theorem not_reportsMissing_of_refused {arguments : List String} {h : Options.Halt}
    (refused : Options.parse arguments = .error h) : ¬(run host fs arguments).ReportsMissing := by
  intro missing
  have first := missing.head?
  rw [run, refused] at first
  cases h with
  | misuse m => cases first
  | help =>
    have usage : help.toList.head? = some 'u' := by
      rw [help, joined, String.intercalate_cons_of_ne_nil (List.cons_ne_nil _ _), String.toList_append,
        String.toList_append]
      rfl
    cases usage.symm.trans first

/-- The program that the arguments ask for. -/
def asked (name : String) : Option String := if name = Options.mark then none else some name

theorem given?_asked_iff {name name' : String} :
    given? (asked name) = some name' ↔ name' = name ∧ name ≠ "" ∧ name ≠ Options.mark := by
  unfold asked given?
  split
  · simp_all
  · rw [Option.filter_eq_some_iff, Option.some.injEq, decide_eq_true_eq]
    constructor
    · rintro ⟨rfl, nonempty⟩
      exact ⟨rfl, nonempty, ‹_›⟩
    · rintro ⟨rfl, nonempty, -⟩
      exact ⟨rfl, nonempty⟩

end Showing

section Catalogued

variable (host : Host) {fs : Files} {file name : String} {place : List String} {bytes : List UInt8} {img : Image}
  {c : Catalog}

theorem run_showing (plain : Options.classify file = .ok (.plain file)) (fs : Files) :
    run host fs (Options.showing file name) =
      runOptions host fs (showingOptions (Path.ofString file) (asked name)) := by
  rw [run, Options.parse_showing plain]
  rfl

/-- A run that is to show a program says that it is not there when its arguments ask for a search, and the search finds
nothing. -/
theorem reportsMissing_run_iff (enough : 3 ≤ img.status.programLimit)
    (high : img.status.programTop ≤ 1111) (loads : Loads fs (some (Path.ofString file)) img) :
    (run host fs (Options.showing file name)).ReportsMissing ↔
      Options.classify file = .ok (.plain file) ∧ given? (asked name) = some name ∧
        img.findLabel (upper name) = .ok none := by
  by_cases plain : Options.classify file = .ok (.plain file)
  · rw [run_showing host plain, reportsMissing_showing_iff host enough high loads, and_iff_right plain]
    constructor
    · rintro ⟨name', given, absent⟩
      obtain ⟨rfl, -⟩ := given?_asked_iff.1 given
      exact ⟨given, absent⟩
    · rintro ⟨given, absent⟩
      exact ⟨name, given, absent⟩
  · obtain ⟨h, refused⟩ : ∃ h, Options.parse (Options.showing file name) = .error h :=
      Options.parse_showing_of_not_plain plain
    exact iff_of_false (not_reportsMissing_of_refused host refused) fun searched => plain searched.1

/-- **Programs of the catalog.** A run that is to show a program by a name of the catalog says that there is none
exactly when the file can be named in its arguments and no label in program memory is called as the upper case of the
name. It returns then, and shows nothing else. This is never so when the name is its own upper case, which means that no
byte of it has a character with another upper case. -/
theorem missing_showing (found : fs.target (Path.ofString file) = .file place bytes)
    (loaded : (Transcription.load (Path.ofString file).text bytes).outcome.1 = .ok img)
    (enough : 3 ≤ img.status.programLimit) (high : img.status.programTop ≤ 1111) (cataloged : img.catalog = .ok c)
    (named : c.Names name) :
    let out := run host fs (Options.showing file name)
    (out.ReportsMissing ↔ Options.classify file = .ok (.plain file) ∧ img.Unlabelled (upper name)) ∧
      (out.ReportsMissing → out.ending = .code 0 ∧
        out.output = Transcription.fileText (Report.missingProgram (upper name))) ∧
      (upper name = name → ¬out.ReportsMissing) ∧
      ∃ bs, name = Glyph.text bs ∧ (upper name = name ↔ ∀ b ∈ bs, Glyph.changesCase b = false) := by
  intro out
  have labelled := Image.not_unlabelled_of_names enough high cataloged named
  have loads : Loads fs (some (Path.ofString file)) img := ⟨place, bytes, found, loaded⟩
  have searches : out.ReportsMissing ↔ _ := reportsMissing_run_iff host enough high loads
  rw [Image.findLabel_eq_none_iff enough high] at searches
  refine ⟨?_, ?_, ?_, ?_⟩
  · rw [searches]
    apply and_congr_right
    intro _
    apply and_iff_right_of_imp
    intro unlabelled
    -- The names that ask for no search are their own upper cases, and so are found.
    refine given?_asked_iff.2 ⟨rfl, ?_, ?_⟩
    · rintro rfl
      exact labelled unlabelled
    · rintro rfl
      exact labelled unlabelled
  · intro missing
    obtain ⟨plain, given, unlabelled⟩ := searches.1 missing
    have absent := (Image.findLabel_eq_none_iff enough high).2 unlabelled
    obtain ⟨errors, ran⟩ := runOptions_of_missing host loads given absent
    rw [show out = _ from run_showing host plain fs, ran]
    exact ⟨rfl, rfl⟩
  · intro same missing
    obtain ⟨-, -, unlabelled⟩ := searches.1 missing
    rw [same] at unlabelled
    exact labelled unlabelled
  · obtain ⟨bs, spelled⟩ := Image.exists_text_of_names enough high cataloged named
    refine ⟨bs, spelled, ?_⟩
    rw [spelled]
    exact Glyph.upper_text_eq_iff bs

end Catalogued

section TwoPrograms

open Image (twoPrograms)

/-- The file in the working directory is found by its name, and its image is loaded. -/
theorem target_filesHolding (img : Image) :
    ∃ place bytes, (filesHolding img).target (Path.ofString "memory.txt") = .file place bytes ∧
      (Transcription.load (Path.ofString "memory.txt").text bytes).outcome.1 = .ok img := by
  have named : (filesHolding img).named "memory.txt" = some (.file (transcription img).toUTF8.toList) := rfl
  refine ⟨["home", "memory.txt"], _, ?_, Transcription.load_fileText img _⟩
  rw [fileNames.1.ofString_eq]
  exact fileNames.1.target_of_named named

/-- The label AB is its own upper case, so it is not said to be missing. -/
theorem missing_showing_twoPrograms :
    (∃ place bytes, (filesHolding twoPrograms).target (Path.ofString "memory.txt") = .file place bytes ∧
        (Transcription.load (Path.ofString "memory.txt").text bytes).outcome.1 = .ok twoPrograms) ∧
      3 ≤ twoPrograms.status.programLimit ∧ twoPrograms.status.programTop ≤ 1111 ∧
      (∃ c, twoPrograms.catalog = .ok c ∧ c.Names "AB") ∧
      ¬(run greenwich (filesHolding twoPrograms) (Options.showing "memory.txt" "AB")).ReportsMissing := by
  obtain ⟨place, bytes, found, loaded⟩ := target_filesHolding twoPrograms
  have enough : 3 ≤ twoPrograms.status.programLimit := by rw [Image.status_twoPrograms]; decide
  have high : twoPrograms.status.programTop ≤ 1111 := by rw [Image.status_twoPrograms]; decide
  have named : Catalog.Names ⟨2, 1, [.label "AB" (some 0x00), .size 12, .label "C" (some 0x00)]⟩ "AB" :=
    ⟨some 0x00, List.mem_cons_self⟩
  have shown := missing_showing greenwich found loaded enough high Image.catalog_twoPrograms named
  exact ⟨⟨place, bytes, found, loaded⟩, enough, high, ⟨_, Image.catalog_twoPrograms, named⟩, shown.2.2.1 (by decide)⟩

end TwoPrograms

end Command

namespace Image

open Catalog

/-- The program with the label a, a small letter, which the permanent end closes. -/
def smallPassages : List Passage :=
  [⟨⟨0xC0, 0x00, 0xF2, [0x00, 0x61]⟩, [0x85, 0x00, 0x00, 0x00, 0x00, 0x00]⟩, ⟨⟨0xC4, 0x01, 0x29, []⟩, []⟩]

/-- An image with this program alone, between the program top 300 and the program limit 299. -/
def small : Image :=
  holding [0x00, 0x00, 0x01, 0x69, 0x12, 0xD1, 0x2B] 300 (smallPassages.flatMap Passage.bytes)

theorem length_smallPassages : (smallPassages.flatMap Passage.bytes).length = 7 * 2 := rfl

theorem status_small : small.status = ⟨361, 300, 299⟩ := by
  have packed : small.status = _ := status_holding length_smallPassages rfl (by decide)
  rw [packed]
  decide

theorem tape_small :
    small.tape (7 * 300 + 6) = smallPassages.flatMap Passage.bytes ++ small.tape (7 * (300 - 2) + 6) := by
  have inside : 300 < registerCount := by decide
  unfold small
  exact tape_holding inside length_smallPassages (by decide)

theorem top_small : small.status.programTop = (300 : Nat) := by
  rw [status_small]
  rfl

theorem catalog_small : small.catalog = .ok ⟨1, 0, [.label "a" (some 0x00)]⟩ := by
  rw [catalog_of_passages top_small (by rw [status_small]; decide) (by decide) (by decide) tape_small
    (by rw [status_small]; rfl) (by rw [length_tape]; decide)]
  rfl

theorem findLabel_small : small.findLabel "A" = .ok none := by
  have limit : small.status.programLimit = 299 := by rw [status_small]
  obtain ⟨b, t, rest⟩ : ∃ b t, small.tape (7 * (300 - 2) + 6) = b :: t :=
    List.exists_cons_of_length_pos (by rw [length_tape]; decide)
  have terminal : Marker.read (0xC4 :: 0x01 :: 0x29 :: b :: t) = .ok (some (⟨0xC4, 0x01, 0x29, []⟩, b :: t)) :=
    Marker.read_append (m := ⟨0xC4, 0x01, 0x29, []⟩) rfl rfl (List.cons_ne_nil b t)
  unfold findLabel
  rw [programTape_of_le top_small (by rw [limit]; decide) (by decide), limit, tape_small, rest]
  change FoundLabel.search "A" 3 (0xC4 :: 0x01 :: 0x29 :: b :: t) = _
  rw [FoundLabel.search, terminal]
  dsimp only [Option.filter_some]
  rw [if_neg (by decide)]
  rfl

end Image

namespace Command

open Image (small)

/-- The label a is in the catalog, and a run that is to show it says that there is no program A. -/
theorem small_missing :
    (∃ place bytes, (filesHolding small).target (Path.ofString "memory.txt") = .file place bytes ∧
        (Transcription.load (Path.ofString "memory.txt").text bytes).outcome.1 = .ok small) ∧
      3 ≤ small.status.programLimit ∧ small.status.programTop ≤ 1111 ∧
      (∃ c, small.catalog = .ok c ∧ c.Names "a") ∧ "a" ≠ "" ∧
      (run greenwich (filesHolding small) (Options.showing "memory.txt" "a")).output =
        Transcription.fileText ["", "Program A does not exist.", ""] := by
  have loads := target_filesHolding small
  refine ⟨loads, ?_, ?_, ⟨_, Image.catalog_small, some 0x00, List.mem_cons_self⟩, by decide, ?_⟩
  · rw [Image.status_small]
    decide
  · rw [Image.status_small]
    decide
  · have letter : upper "a" = "A" := by decide
    have absent : small.findLabel (upper "a") = .ok none := by
      rw [letter]
      exact Image.findLabel_small
    have given : given? (asked "a") = some "a" := rfl
    obtain ⟨errors, ran⟩ := runOptions_of_missing greenwich loads given absent
    rw [run_showing _ fileNames.1.argument, ran, letter]
    rfl

end Command

end CalcImage
