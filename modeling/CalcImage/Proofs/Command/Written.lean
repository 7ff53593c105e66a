import CalcImage.Proofs.Command.Work
import CalcImage.Proofs.File.Name
import CalcImage.Proofs.Injection.Outcome
import CalcImage.Proofs.Program.Search

/-!
# What runs write

The files are as they were after a run that does not return, whatever it had shown or injected by then. A run that
returns has written the transcription of the image that it loaded, after the injection if there was one, to the place
that was asked for and to no other, and what it shows is put together from the parts that it was asked for (`Leaves`,
`run_writes`). What a run shows, and how much it records, makes no difference to the files.
-/

namespace CalcImage

namespace Command

/-- What a run leaves behind that returns: what it shows, and the transcription of the image `img'` in the place that
was asked for, with everything else as it was. The image that it has loaded is `img`, and `sum` and `list` are the
summary and the listing of `img'`. -/
structure Leaves (host : Host) (fs : Files) (o : Options) (out : Outcome) (s : Settings) (img img' : Image)
    (sum list : String) : Prop where
  settings : settings host fs o = .ok s
  completes : Completes host fs o s img img' sum list out.files
  output : out.output = shownBefore o img ++ (shownAfter o img' ++ (sum ++ list))
  unwritten : o.output = none → out.files = fs
  written : ∀ path, o.output = some path → ∃ place, (fs.target path).place path = .ok place ∧
    ((∀ taken, fs.lookup place ≠ some (.device taken)) →
      out.files.target path = .file place (transcription img').toUTF8.toList) ∧
    (∀ taken, fs.lookup place = some (.device taken) →
      out.files.lookup place = some (.device (taken ++ (transcription img').toUTF8.toList))) ∧
    ∀ other, other ≠ place → out.files.lookup other = fs.lookup other

section Run

variable {host : Host} {fs : Files} {o : Options} {s : Settings} {text : String}

theorem runOptions_of_gives {r : Except Halt Unit} {fs' : Files} (set : settings host fs o = .ok s)
    (gives : (work host o s).Gives fs r text fs') :
    ∃ errors, runOptions host fs o = ⟨.ofResult r, text, errors, fs'⟩ := by
  obtain ⟨added, ran⟩ := gives
  have here : (work host o s).run.run ⟨"", [], fs⟩ = (r, ⟨"" ++ text, [] ++ added, fs'⟩) := ran "" []
  rw [String.empty_append] at here
  rw [runOptions, set]
  dsimp only
  rw [here]
  exact ⟨_, rfl⟩

theorem runOptions_of_completes {img img' : Image} {sum list : String} {fs' : Files} (set : settings host fs o = .ok s)
    (done : Completes host fs o s img img' sum list fs') :
    ∃ errors, runOptions host fs o =
      ⟨.code 0, shownBefore o img ++ (shownAfter o img' ++ (sum ++ list)), errors, fs'⟩ :=
  runOptions_of_gives set ((gives_work_iff (u := ())).2 ⟨img, img', sum, list, done, rfl⟩)

theorem ending_ofFault_ne (f : Fault) : Ending.ofFault f ≠ .code 0 := by
  unfold Ending.ofFault
  split <;> simp

theorem ending_ofHalt_ne (h : Halt) : Ending.ofHalt h ≠ .code 0 := by
  cases h with
  | fault f => exact ending_ofFault_ne f
  | absent path => simp [Ending.ofHalt]

/-- A run with options either returns, and everything has been done, or the files are as they were. -/
theorem runOptions_cases (host : Host) (fs : Files) (o : Options) :
    (∃ s img img' sum list fs' errors, settings host fs o = .ok s ∧ Completes host fs o s img img' sum list fs' ∧
        runOptions host fs o =
          ⟨.code 0, shownBefore o img ++ (shownAfter o img' ++ (sum ++ list)), errors, fs'⟩) ∨
      (runOptions host fs o).ending ≠ .code 0 ∧ (runOptions host fs o).files = fs := by
  cases set : settings host fs o with
  | error f =>
    right
    rw [runOptions, set]
    exact ⟨ending_ofFault_ne f, rfl⟩
  | ok s =>
    obtain ⟨r, text, fs', gives, clean⟩ := careful_work host o s fs
    obtain ⟨errors, ran⟩ := runOptions_of_gives set gives
    cases r with
    | error h =>
      right
      rw [ran]
      exact ⟨ending_ofHalt_ne h, clean h rfl⟩
    | ok u =>
      obtain ⟨img, img', sum, list, done, rfl⟩ := gives_work_iff.1 gives
      exact .inl ⟨s, img, img', sum, list, fs', errors, rfl, done, ran⟩

theorem Loads.unique {path : Option Path} {img img' : Image} (loads : Loads fs path img)
    (loads' : Loads fs path img') : img' = img := by
  cases path with
  | none => exact loads'.trans loads.symm
  | some path =>
    obtain ⟨place, bytes, found, loaded⟩ := loads
    obtain ⟨place', bytes', found', loaded'⟩ := loads'
    rw [found] at found'
    cases found'
    rw [loaded] at loaded'
    exact (Except.ok.inj loaded').symm

theorem Injects.unique {offer : Option String} {img a b : Image} (injects : Injects offer img a)
    (injects' : Injects offer img b) : b = a := by
  cases offer with
  | none => exact Eq.trans injects' injects.symm
  | some text =>
    obtain ⟨i, log, injected⟩ := injects
    obtain ⟨i', log', injected'⟩ := injects'
    rw [injected] at injected'
    cases injected'
    rfl

theorem Writes.unique {path : Option Path} {img : Image} {a b : Files} (writes : Writes fs path img a)
    (writes' : Writes fs path img b) : b = a := by
  cases path with
  | none => exact Eq.trans writes' writes.symm
  | some path =>
    obtain ⟨place, placed, rfl⟩ := writes
    obtain ⟨place', placed', rfl⟩ := writes'
    rw [placed] at placed'
    cases placed'
    rfl

/-- What is shown and recorded makes no difference to what is written. -/
theorem Completes.files_eq {o' : Options} {s' : Settings} {img img' jmg jmg' : Image} {sum list sum' list' : String}
    {a b : Files} (done : Completes host fs o s img img' sum list a)
    (done' : Completes host fs o' s' jmg jmg' sum' list' b) (filename : o'.filename = o.filename)
    (image : s'.image = s.image) (inject : o'.inject = o.inject) (output : o'.output = o.output) : b = a := by
  have loads := done'.loads
  have injects := done'.injects
  have writes := done'.writes
  rw [filename, image] at loads
  rw [done.loads.unique loads, inject] at injects
  rw [done.injects.unique injects, output] at writes
  exact done.writes.unique writes

/-- A run that has done all that it was asked for leaves its file behind, and everything else as it was. -/
theorem Completes.leaves {out : Outcome} {img img' : Image} {sum list : String} (set : settings host fs o = .ok s)
    (done : Completes host fs o s img img' sum list out.files)
    (output : out.output = shownBefore o img ++ (shownAfter o img' ++ (sum ++ list))) :
    Leaves host fs o out s img img' sum list := by
  have writes := done.writes
  constructor
  case settings => exact set
  case completes => exact done
  case output => exact output
  case unwritten =>
    intro unasked
    rw [unasked] at writes
    exact writes
  case written =>
    intro path asked
    rw [asked] at writes
    obtain ⟨place, placed, written⟩ := writes
    rw [written]
    refine ⟨place, placed, Files.target_write _ placed, ?_, fun other ne => Files.lookup_write_of_ne ne⟩
    intro taken device
    rw [Files.lookup_write_self, device]
    rfl

end Run

end Command

namespace Report

variable {img : Image} {name : String}

theorem program_of_none (absent : img.findLabel name = .ok none) :
    (program img name).outcome.1 = .ok (missingProgram name) := by
  rw [Traced.outcome_eq, program, Image.listing, absent]
  rfl

theorem program_of_error {f : Fault} (failed : img.findLabel name = .error f) :
    (program img name).outcome.1 = .error f := by
  rw [Traced.outcome_eq, program, Image.listing, failed]
  rfl

end Report

namespace Image

/-- An image of zeros but for its program limit 300 and its program top, which has `b` as its upper byte. -/
def withTop (b : UInt8) : Image := zero.putAll 95 [b, 0xF1, 0x2C]

theorem byte_withTop (b : UInt8) {loc : Nat} (above : 95 ≤ loc) (inside : loc < memorySize) :
    (withTop b).byte loc = [b, 0xF1, 0x2C].getD (loc - 95) 0 := by
  rw [withTop, byte_putAll zero inside, if_pos above, byte_zero, List.getD_eq_getElem?_getD]

theorem status_withTop (b : UInt8) :
    (withTop b).status.programTop = 16 * b.toNat + 14 ∧ (withTop b).status.programLimit = 300 := by
  have upper : (withTop b).byte 95 = b := byte_withTop b (by decide) (by decide)
  have middle : (withTop b).byte 96 = 0xF1 := byte_withTop b (by decide) (by decide)
  have lower : (withTop b).byte 97 = 0x2C := byte_withTop b (by decide) (by decide)
  have nibbles : (0xF1 : UInt8).toNat / 16 = 15 ∧ (0xF1 : UInt8).toNat % 16 * 256 + (0x2C : UInt8).toNat = 300 := by
    decide
  unfold status
  dsimp only
  rw [upper, middle, lower, nibbles.1, nibbles.2]
  exact ⟨by omega, rfl⟩

/-- The registers below the limit are free. -/
theorem admits_withTop (b : UInt8) : (withTop b).Admits [0x85] := by
  have limit := (status_withTop b).2
  constructor
  case nonempty => exact List.cons_ne_nil _ _
  case inside =>
    rw [limit]
    decide
  case room =>
    rw [bottom, limit, bottomBelow_eq_base (by decide)]
    · decide
    intro index low high
    simp only [partitionBase] at low
    have beyond : [b, 0xF1, 0x2C].length ≤ 7 * index - 95 := by
      simp only [List.length_cons, List.length_nil]
      omega
    rw [byte_withTop b (by omega) (by simp only [memorySize]; omega), List.getD_eq_getElem?_getD,
      List.getElem?_eq_none beyond]
    decide

theorem status_appended_withTop (b : UInt8) :
    ((withTop b).appended [0x85]).status.programTop = 16 * b.toNat + 14 ∧
      ((withTop b).appended [0x85]).status.programLimit = 299 := by
  rw [(admits_withTop b).status_appended]
  dsimp only
  rw [(status_withTop b).1, (status_withTop b).2]
  exact ⟨rfl, by decide⟩

/-- Program memory is empty when its top lies below its limit. -/
theorem findLabel_lowTop (name : String) : ((withTop 0x00).appended [0x85]).findLabel name = .ok none := by
  obtain ⟨top, limit⟩ := status_appended_withTop 0x00
  apply findLabel_of_empty
  rw [top, limit]
  decide

/-- Outside memory no program can be searched. -/
theorem findLabel_highTop (name : String) :
    ((withTop 0xFF).appended [0x85]).findLabel name = .error (.locationOutside 28658) := by
  obtain ⟨top, limit⟩ := status_appended_withTop 0xFF
  have outside : ((withTop 0xFF).appended [0x85]).programTape = .error (.locationOutside 28658) := by
    unfold programTape
    dsimp only
    rw [top, limit, if_neg (by decide)]
    have beyond : location (7 * (16 * ((0xFF : UInt8).toNat : Int) + 14)) = .error (.locationOutside 28658) :=
      if_neg (by decide)
    rw [beyond]
    rfl
  rw [findLabel, outside]
  rfl

end Image

namespace Command

section Tops

open Image (withTop)

/-- A host in the zone of Greenwich. -/
def greenwich : Host := ⟨0, ⟨1, ["home"]⟩⟩

/-- A working directory with one file, which holds the transcription of an image. -/
def filesHolding (img : Image) : Files :=
  ⟨["home"], [(["home"], .directory), (["home", "memory.txt"], .file (transcription img).toUTF8.toList)]⟩

/-- The arguments that inject a byte, show a listing when one is asked for, and write another file. -/
def listingArguments (list : List String) : List String := ["-f", "memory.txt", "--inject=85"] ++ list ++ ["-o", "once.txt"]

/-- What these arguments ask for. -/
def listingOptions (list : Option String) : Options :=
  { Options.empty with
    filename := some ⟨0, ["memory.txt"]⟩
    inject := some "85"
    list
    output := some ⟨0, ["once.txt"]⟩ }

theorem loads_filesHolding (img : Image) : Loads (filesHolding img) (some ⟨0, ["memory.txt"]⟩) img :=
  ⟨["home", "memory.txt"], _, rfl, Transcription.load_fileText img _⟩

theorem injects_withTop (b : UInt8) : Injects (some "85") (withTop b) ((withTop b).appended [0x85]) := by
  have read : (Payload.text "85").bytes = .ok [0x85] := rfl
  obtain ⟨log, injected⟩ := Edit.inject_of_admits (d := ⟨withTop b, []⟩) read (Image.admits_withTop b)
  exact ⟨_, log, injected⟩

/-- A run with these options does all that it is asked for when there is something to show for the listing. -/
theorem completes_listingOptions {b : UInt8} {list : Option String} {text : String}
    (lists : Lists (given? list) ((withTop b).appended [0x85]) text) :
    Completes greenwich (filesHolding (withTop b)) (listingOptions list) Settings.standard (withTop b)
      ((withTop b).appended [0x85]) "" text
      ((filesHolding (withTop b)).write ["home", "once.txt"]
        (transcription ((withTop b).appended [0x85])).toUTF8.toList) := by
  constructor
  case loads => exact loads_filesHolding _
  case injects => exact injects_withTop b
  case sums => rfl
  case lists => exact lists
  case writes => exact ⟨["home", "once.txt"], rfl, rfl⟩

theorem parse_listing : Options.parse (listingArguments ["--list=AB"]) = .ok (listingOptions (some "AB")) := by
  have read : Options.classifyAll (listingArguments ["--list=AB"]) = .ok
      [.option ⟨.filename, false, none⟩, .plain "memory.txt", .option ⟨.inject, true, some "85"⟩,
        .option ⟨.list, true, some "AB"⟩, .option ⟨.output, false, none⟩, .plain "once.txt"] := rfl
  rw [Options.parse, read]
  delta Options.takeArguments
  rfl

theorem parse_quiet : Options.parse (listingArguments []) = .ok (listingOptions none) := by
  have read : Options.classifyAll (listingArguments []) = .ok
      [.option ⟨.filename, false, none⟩, .plain "memory.txt", .option ⟨.inject, true, some "85"⟩,
        .option ⟨.output, false, none⟩, .plain "once.txt"] := rfl
  rw [Options.parse, read]
  delta Options.takeArguments
  rfl

end Tops

/-- **What runs write.** Arguments that are no options leave the files as they are, and so does a run that does not
return. A run returns exactly when all that it is asked for can be done; it has then written the transcription of its
image to the file that was asked for, and shown the parts that were asked for in their order. Two runs that return leave
the same files when their options differ in nothing but what is shown, the offset of the clock and the level of records. -/
theorem run_writes (host : Host) (fs : Files) (arguments : List String) :
    (∀ h, Options.parse arguments = .error h → (run host fs arguments).files = fs) ∧
      ∀ o, Options.parse arguments = .ok o →
        ((run host fs arguments).ending ≠ .code 0 → (run host fs arguments).files = fs) ∧
        ((run host fs arguments).ending = .code 0 ↔
          ∃ s img img' sum list fs', settings host fs o = .ok s ∧ Completes host fs o s img img' sum list fs') ∧
        ((run host fs arguments).ending = .code 0 →
          ∃ s img img' sum list, Leaves host fs o (run host fs arguments) s img img' sum list) ∧
        ∀ arguments' print summary list timezoneOffset logLevel,
          Options.parse arguments' = .ok { o with print, summary, list, timezoneOffset, logLevel } →
          (run host fs arguments).ending = .code 0 → (run host fs arguments').ending = .code 0 →
            (run host fs arguments').files = (run host fs arguments).files := by
  constructor
  · intro h refused
    rw [run, refused]
    cases h with
    | misuse m => rfl
    | help => rfl
  · intro o parsed
    have ran : run host fs arguments = runOptions host fs o := by rw [run, parsed]
    rw [ran]
    refine ⟨?_, ?_, ?_, ?_⟩
    · intro halted
      rcases runOptions_cases host fs o with ⟨s, img, img', sum, list, fs', errors, set, done, out⟩ | ⟨-, clean⟩
      · rw [out] at halted
        exact absurd rfl halted
      · exact clean
    · constructor
      · intro returned
        rcases runOptions_cases host fs o with ⟨s, img, img', sum, list, fs', errors, set, done, -⟩ | ⟨halted, -⟩
        · exact ⟨s, img, img', sum, list, fs', set, done⟩
        · exact absurd returned halted
      · rintro ⟨s, img, img', sum, list, fs', set, done⟩
        obtain ⟨errors, out⟩ := runOptions_of_completes set done
        rw [out]
    · intro returned
      rcases runOptions_cases host fs o with ⟨s, img, img', sum, list, fs', errors, set, done, out⟩ | ⟨halted, -⟩
      · rw [out]
        exact ⟨s, img, img', sum, list, Completes.leaves set done rfl⟩
      · exact absurd returned halted
    · intro arguments' print summary list timezoneOffset logLevel parsed' returned returned'
      rw [run, parsed'] at returned' ⊢
      dsimp only at returned' ⊢
      rcases runOptions_cases host fs o with ⟨s, _, _, _, _, _, _, set, done, out⟩ | ⟨halted, -⟩
      · rcases runOptions_cases host fs { o with print, summary, list, timezoneOffset, logLevel } with
          ⟨s', _, _, _, _, _, _, set', done', out'⟩ | ⟨halted', -⟩
        · have same : s' = s := by
            have set'' : Command.settings host fs o = .ok s' := set'
            rw [set] at set''
            exact (Except.ok.inj set'').symm
          rw [out, out']
          exact done.files_eq done' rfl (by rw [same]) rfl rfl
        · exact absurd returned' halted'
      · exact absurd returned halted

section Tops

open Image (withTop)

/-- The same arguments inject a byte into two images and are to show a program. With the one there is no such program,
and the run writes its file, as it does when it shows none. With the other the search fails after the injection has been
shown, and no file is written. -/
theorem run_writes_withTop :
    Options.parse (listingArguments ["--list=AB"]) = .ok (listingOptions (some "AB")) ∧
      Options.parse (listingArguments []) = .ok { listingOptions (some "AB") with list := none } ∧
      (let low := filesHolding (withTop 0x00)
        let out := run greenwich low (listingArguments ["--list=AB"])
        out.ending = .code 0 ∧
          out.files.target ⟨0, ["once.txt"]⟩ =
            .file ["home", "once.txt"] (transcription ((withTop 0x00).appended [0x85])).toUTF8.toList ∧
          (run greenwich low (listingArguments [])).files = out.files) ∧
      let high := filesHolding (withTop 0xFF)
      let out := run greenwich high (listingArguments ["--list=AB"])
      out.ending = .ofFault (.locationOutside 28658) ∧ out.output = transcription ((withTop 0xFF).appended [0x85]) ∧
        out.files = high := by
  refine ⟨parse_listing, parse_quiet, ?_, ?_⟩
  · obtain ⟨-, returns, leaves, alike⟩ := (run_writes greenwich (filesHolding (withTop 0x00)) _).2 _ parse_listing
    obtain ⟨-, returnsQuiet, -, -⟩ := (run_writes greenwich (filesHolding (withTop 0x00)) _).2 _ parse_quiet
    have absent := Report.program_of_none (Image.findLabel_lowTop (Text.upper "AB"))
    have lists : Lists (given? (some "AB")) ((withTop 0x00).appended [0x85]) _ := ⟨_, absent, rfl⟩
    have listsNothing : Lists (given? none) ((withTop 0x00).appended [0x85]) "" := rfl
    have returned := returns.2 ⟨_, _, _, _, _, _, rfl, completes_listingOptions lists⟩
    have returnedQuiet := returnsQuiet.2 ⟨_, _, _, _, _, _, rfl, completes_listingOptions listsNothing⟩
    obtain ⟨s, img, img', sum, list, left⟩ := leaves returned
    have loaded : img = withTop 0x00 := (loads_filesHolding _).unique left.completes.loads
    rw [loaded] at left
    have injected : img' = (withTop 0x00).appended [0x85] := (injects_withTop 0x00).unique left.completes.injects
    rw [injected] at left
    obtain ⟨place, placed, file, -⟩ := left.written _ rfl
    have here : ((filesHolding (withTop 0x00)).target ⟨0, ["once.txt"]⟩).place ⟨0, ["once.txt"]⟩ =
        .ok ["home", "once.txt"] := rfl
    rw [here] at placed
    cases placed
    have noDevice : ∀ taken, (filesHolding (withTop 0x00)).lookup ["home", "once.txt"] ≠ some (.device taken) := by
      intro taken never
      cases never
    exact ⟨returned, file noDevice, alike _ _ _ _ _ _ parse_quiet returned returnedQuiet⟩
  · have failed := Report.program_of_error (Image.findLabel_highTop (Text.upper "AB"))
    have sums : Sums greenwich (listingOptions (some "AB")) Settings.standard ((withTop 0xFF).appended [0x85]) "" := rfl
    have gives : (work greenwich (listingOptions (some "AB")) Settings.standard).Gives (filesHolding (withTop 0xFF))
        (.error (.fault (.locationOutside 28658))) _ _ :=
      gives_work_of_unlisted (loads_filesHolding (withTop 0xFF)) (injects_withTop 0xFF) sums rfl failed
    obtain ⟨errors, ran⟩ := runOptions_of_gives rfl gives
    have out : run greenwich (filesHolding (withTop 0xFF)) (listingArguments ["--list=AB"]) =
        runOptions greenwich (filesHolding (withTop 0xFF)) (listingOptions (some "AB")) := by rw [run, parse_listing]
    rw [ran] at out
    obtain ⟨spared, -⟩ := (run_writes greenwich (filesHolding (withTop 0xFF)) _).2 _ parse_listing
    have halted : (run greenwich (filesHolding (withTop 0xFF)) (listingArguments ["--list=AB"])).ending =
        .ofFault (.locationOutside 28658) := by
      rw [out]
      rfl
    refine ⟨halted, ?_, spared ?_⟩
    · rw [out]
      exact String.empty_append.trans String.append_empty
    · rw [halted]
      exact ending_ofFault_ne _

end Tops

end Command

end CalcImage
