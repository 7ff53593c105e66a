import CalcImage.Proofs.Command.Arguments
import CalcImage.Proofs.Command.Written
import CalcImage.Proofs.Injection.Run
import CalcImage.Proofs.Program.Kept

/-!
# Runs that go on from the file of another one

A run that injects program bytes into a file and writes another one leaves there the image that the injection makes in
memory, and nothing of it is lost in the file. So a run that goes on from that file injects into the same image
(`chained_runs`). Program bytes that are the mark `--` are the exception: the command line takes them for none.
-/

namespace CalcImage.Command

open Options (FileName injecting)

section Single

variable (host : Host) {fs : Files} {input output bytes : String} {contents : List UInt8} {img : Image} {d : Desk}

/-- What the arguments of an injection ask for when they are read as the program bytes `offer`. -/
def injectingOptions (input : String) (offer : Option String) (output : String) : Options :=
  { Options.empty with filename := some ⟨0, [input]⟩, inject := offer, output := some ⟨0, [output]⟩ }

theorem run_injecting (inputName : FileName input) (outputName : FileName output) (fs : Files) :
    run host fs (injecting input bytes output) =
      runOptions host fs (injectingOptions input (if bytes = Options.mark then none else some bytes) output) := by
  rw [run, Options.parse_injecting inputName outputName]
  rfl

theorem loads_of_named (inputName : FileName input) (found : fs.named input = some (.file contents))
    (loaded : (Transcription.load input contents).outcome.1 = .ok img) (offer : Option String) :
    Loads fs ((injectingOptions input offer output).filename.or Settings.standard.image) img := by
  refine ⟨fs.here ++ [input], contents, inputName.target_of_named found, ?_⟩
  rw [PlainName.text_eq]
  exact loaded

theorem given?_of_ne (nonempty : bytes ≠ "") : given? (some bytes) = some bytes := by
  simp [given?, Option.filter, nonempty]

/-- The files after the image was written under a name in the working directory. -/
def withImage (fs : Files) (name : String) (img : Image) : Files :=
  fs.write (fs.here ++ [name]) (transcription img).toUTF8.toList

/-- A run returns when what it is offered can be injected, and the image is written. -/
theorem runOptions_injecting {offer : Option String} {img' : Image} (inputName : FileName input)
    (outputName : FileName output) (free : fs.isFree output = true) (found : fs.named input = some (.file contents))
    (loaded : (Transcription.load input contents).outcome.1 = .ok img) (injects : Injects (given? offer) img img') :
    (runOptions host fs (injectingOptions input offer output)).ending = .code 0 ∧
      (runOptions host fs (injectingOptions input offer output)).files = withImage fs output img' := by
  have done : Completes host fs (injectingOptions input offer output) Settings.standard img img' "" ""
      (withImage fs output img') := by
    constructor
    case loads => exact loads_of_named inputName found loaded offer
    case injects => exact injects
    case sums => rfl
    case lists => rfl
    case writes => exact ⟨fs.here ++ [output], outputName.place_target free, rfl⟩
  obtain ⟨errors, out⟩ := runOptions_of_completes rfl done
  rw [out]
  exact ⟨rfl, rfl⟩

/-- An injection that succeeds in memory succeeds in a run, and its image is written. -/
theorem run_injecting_of_ok {i : Injection} (inputName : FileName input) (outputName : FileName output)
    (free : fs.isFree output = true) (nonempty : bytes ≠ "") (given : bytes ≠ Options.mark)
    (found : fs.named input = some (.file contents)) (loaded : (Transcription.load input contents).outcome.1 = .ok img)
    (injected : (Edit.inject (.text bytes)).on ⟨img, []⟩ = (.ok i, d)) :
    (run host fs (injecting input bytes output)).ending = .code 0 ∧
      (run host fs (injecting input bytes output)).files = withImage fs output d.image := by
  rw [run_injecting host inputName outputName, if_neg given]
  apply runOptions_injecting host inputName outputName free found loaded
  rw [given?_of_ne nonempty]
  exact ⟨i, d.log, injected⟩

/-- The mark in place of program bytes injects nothing, and the image is written as it was loaded. -/
theorem run_injecting_mark (inputName : FileName input) (outputName : FileName output)
    (free : fs.isFree output = true) (found : fs.named input = some (.file contents))
    (loaded : (Transcription.load input contents).outcome.1 = .ok img) :
    (run host fs (injecting input Options.mark output)).ending = .code 0 ∧
      (run host fs (injecting input Options.mark output)).files = withImage fs output img := by
  rw [run_injecting host inputName outputName, if_pos rfl]
  exact runOptions_injecting host inputName outputName free found loaded rfl

/-- An injection that fails in memory fails in a run by the same fault. -/
theorem run_injecting_of_error {f : Fault} (inputName : FileName input) (outputName : FileName output)
    (nonempty : bytes ≠ "") (given : bytes ≠ Options.mark) (found : fs.named input = some (.file contents))
    (loaded : (Transcription.load input contents).outcome.1 = .ok img)
    (refused : (Edit.inject (.text bytes)).on ⟨img, []⟩ = (.error f, d)) :
    (run host fs (injecting input bytes output)).ending = .ofFault f := by
  have gives : (work host (injectingOptions input (some bytes) output) Settings.standard).Gives fs
      (.error (.fault f)) _ fs :=
    gives_work_of_refused (loads_of_named inputName found loaded _) (given?_of_ne nonempty) refused
  obtain ⟨errors, out⟩ := runOptions_of_gives rfl gives
  rw [run_injecting host inputName outputName, if_neg given, out]
  rfl

end Single

section Chain

variable (host : Host) {fs : Files} {input middle output bytes bytes' : String} {contents : List UInt8} {img : Image}
  {d d' : Desk}

/-- Inject program bytes and then other ones. -/
def injectBoth (bytes bytes' : String) : Edit Injection :=
  Edit.inject (.text bytes) >>= fun _ => Edit.inject (.text bytes')

theorem injectBoth_of_ok {i : Injection} (injected : (Edit.inject (.text bytes)).on ⟨img, []⟩ = (.ok i, d)) :
    (injectBoth bytes bytes').on ⟨img, []⟩ = (Edit.inject (.text bytes')).on d :=
  Edit.on_bind_of_ok injected

/-- Both injections succeed when the first one does and then the second one. -/
theorem injectBoth_eq_ok {i' : Injection} (both : (injectBoth bytes bytes').on ⟨img, []⟩ = (.ok i', d')) :
    ∃ i d, (Edit.inject (.text bytes)).on ⟨img, []⟩ = (.ok i, d) ∧
      (Edit.inject (.text bytes')).on d = (.ok i', d') := by
  rcases injected : (Edit.inject (.text bytes)).on ⟨img, []⟩ with ⟨f | i, d⟩
  · have refused : (injectBoth bytes bytes').on ⟨img, []⟩ = (.error f, d) := Edit.on_bind_of_error injected
    rw [refused] at both
    cases both
  · rw [injectBoth_of_ok injected] at both
    exact ⟨i, d, rfl, both⟩

/-- An injection does the same when there are no records yet. -/
theorem inject_without_records {p : Payload} {r : Except Fault Injection} (injected : (Edit.inject p).on d = (r, d')) :
    ∃ log, (Edit.inject p).on ⟨d.image, []⟩ = (r, ⟨d'.image, log⟩) := by
  obtain ⟨r', img', added, ran⟩ := Edit.onlyAdds_inject p d.image
  have same : (r', (⟨img', d.log ++ added⟩ : Desk)) = (r, d') := (ran d.log).symm.trans injected
  cases same
  exact ⟨[] ++ added, ran []⟩

/-- What a run makes of a file that holds an image is what the injection makes of that image. -/
theorem run_onward_of_ok {i : Injection} (inputName : FileName input) (outputName : FileName output)
    (free : fs.isFree output = true) (nonempty : bytes ≠ "") (given : bytes ≠ Options.mark)
    (found : fs.named input = some (.file (transcription d.image).toUTF8.toList))
    (injected : (Edit.inject (.text bytes)).on d = (.ok i, d')) :
    (run host fs (injecting input bytes output)).ending = .code 0 ∧
      (run host fs (injecting input bytes output)).files = withImage fs output d'.image := by
  have loaded := Transcription.load_fileText d.image input
  obtain ⟨log, fresh⟩ := inject_without_records injected
  have onward := run_injecting_of_ok host inputName outputName free nonempty given found loaded fresh
  exact onward

/-- A run from a file that holds an image ends by the fault of the injection into that image. -/
theorem run_onward_of_error {f : Fault} (inputName : FileName input) (outputName : FileName output)
    (nonempty : bytes ≠ "") (given : bytes ≠ Options.mark)
    (found : fs.named input = some (.file (transcription d.image).toUTF8.toList))
    (refused : (Edit.inject (.text bytes)).on d = (.error f, d')) :
    (run host fs (injecting input bytes output)).ending = .ofFault f := by
  have loaded := Transcription.load_fileText d.image input
  obtain ⟨log, fresh⟩ := inject_without_records refused
  exact run_injecting_of_error host inputName outputName nonempty given found loaded fresh

theorem ending_ofFault_of_reported {f : Fault} (reported : f.kind.reported = true) :
    Ending.ofFault f = .message ("FATAL: " ++ f.message) := by
  rw [Ending.ofFault, if_pos reported]

/-- **Runs can be chained.** A run injects program bytes into the image of a file and writes another file, and a second
run goes on from there and writes a third one. Both return exactly when the two injections succeed in memory, one after
the other, and the third file is then the transcription of the image that they make together. When one of them fails
with a fault of the tool's own, its run ends with the message of that fault. The files may be the same ones. Program bytes
that are the mark `--` are left out, since the arguments then ask for no injection. -/
theorem chained_runs (inputName : FileName input) (middleName : FileName middle) (outputName : FileName output)
    (middleFree : fs.isFree middle = true) (outputFree : fs.isFree output = true)
    (offered : bytes ≠ "" ∧ bytes ≠ Options.mark) (offered' : bytes' ≠ "" ∧ bytes' ≠ Options.mark)
    (found : fs.named input = some (.file contents))
    (loaded : (Transcription.load input contents).outcome.1 = .ok img) :
    let first := run host fs (injecting input bytes middle)
    let second := run host first.files (injecting middle bytes' output)
    (first.ending = .code 0 ∧ second.ending = .code 0 ↔
        ∃ i d, (injectBoth bytes bytes').on ⟨img, []⟩ = (.ok i, d)) ∧
      (∀ i d, (injectBoth bytes bytes').on ⟨img, []⟩ = (.ok i, d) →
        second.files.named output = some (.file (transcription d.image).toUTF8.toList)) ∧
      (∀ f d, (Edit.inject (.text bytes)).on ⟨img, []⟩ = (.error f, d) → f.kind.reported = true →
        first.ending = .message ("FATAL: " ++ f.message)) ∧
      ∀ i d f d', (Edit.inject (.text bytes)).on ⟨img, []⟩ = (.ok i, d) →
        (Edit.inject (.text bytes')).on d = (.error f, d') → f.kind.reported = true →
          second.ending = .message ("FATAL: " ++ f.message) := by
  obtain ⟨nonempty, given⟩ := offered
  obtain ⟨nonempty', given'⟩ := offered'
  intro first second
  -- Only when the first injection succeeds is there a file for the second run to go on from.
  have first_of_ok : ∀ {i d}, (Edit.inject (.text bytes)).on ⟨img, []⟩ = (.ok i, d) →
      first.ending = .code 0 ∧ first.files = withImage fs middle d.image :=
    run_injecting_of_ok host inputName middleName middleFree nonempty given found loaded
  have found' : ∀ {i d}, (Edit.inject (.text bytes)).on ⟨img, []⟩ = (.ok i, d) →
      first.files.named middle = some (.file (transcription d.image).toUTF8.toList) := by
    intro i d injected
    rw [(first_of_ok injected).2]
    exact Files.named_write middleFree
  have first_of_error : ∀ {f d}, (Edit.inject (.text bytes)).on ⟨img, []⟩ = (.error f, d) → first.ending = .ofFault f :=
    run_injecting_of_error host inputName middleName nonempty given found loaded
  have second_of_error : ∀ {i d f d'}, (Edit.inject (.text bytes)).on ⟨img, []⟩ = (.ok i, d) →
      (Edit.inject (.text bytes')).on d = (.error f, d') → second.ending = .ofFault f :=
    fun injected refused => run_onward_of_error host middleName outputName nonempty' given' (found' injected) refused
  have second_of_ok : ∀ {i d i' d'}, (Edit.inject (.text bytes)).on ⟨img, []⟩ = (.ok i, d) →
      (Edit.inject (.text bytes')).on d = (.ok i', d') → second.ending = .code 0 ∧
        second.files.named output = some (.file (transcription d'.image).toUTF8.toList) := by
    intro i d i' d' injected injected'
    have free : first.files.isFree output = true := by
      rw [(first_of_ok injected).2]
      exact Files.isFree_write middleFree outputFree
    obtain ⟨returned, written⟩ :=
      run_onward_of_ok host middleName outputName free nonempty' given' (found' injected) injected'
    refine ⟨returned, ?_⟩
    rw [written]
    exact Files.named_write free
  refine ⟨?_, ?_, ?_, ?_⟩
  · constructor
    · rintro ⟨returned, returned'⟩
      rcases injected : (Edit.inject (.text bytes)).on ⟨img, []⟩ with ⟨f | i, d⟩
      · exact absurd ((first_of_error injected).symm.trans returned) (ending_ofFault_ne f)
      · rcases injected' : (Edit.inject (.text bytes')).on d with ⟨f | i', d'⟩
        · exact absurd ((second_of_error injected injected').symm.trans returned') (ending_ofFault_ne f)
        · exact ⟨i', d', (injectBoth_of_ok injected).trans injected'⟩
    · rintro ⟨i', d', both⟩
      obtain ⟨i, d, injected, injected'⟩ := injectBoth_eq_ok both
      constructor
      · exact (first_of_ok injected).1
      · exact (second_of_ok injected injected').1
  · intro i' d' both
    obtain ⟨i, d, injected, injected'⟩ := injectBoth_eq_ok both
    exact (second_of_ok injected injected').2
  · intro f d refused reported
    rw [first_of_error refused, ending_ofFault_of_reported reported]
  · intro i d f d' injected refused reported
    rw [second_of_error injected refused, ending_ofFault_of_reported reported]

/-- The mark is no hexadecimal text. -/
theorem inject_mark (img : Image) :
    (Edit.inject (.text Options.mark)).on ⟨img, []⟩ = (.error (.payloadText Options.mark), ⟨img, []⟩) := by
  have read : (Payload.text Options.mark).bytes = .error (.payloadText Options.mark) := rfl
  rw [Edit.inject, Edit.judge, read]
  exact Edit.on_bind_of_error (Edit.on_bind_of_error (Edit.on_ofExcept _ _))

/-- Two runs with the mark in place of program bytes return. -/
theorem run_marks (inputName : FileName input) (middleName : FileName middle) (outputName : FileName output)
    (middleFree : fs.isFree middle = true) (outputFree : fs.isFree output = true)
    (found : fs.named input = some (.file contents))
    (loaded : (Transcription.load input contents).outcome.1 = .ok img) :
    let first := run host fs (injecting input Options.mark middle)
    first.ending = .code 0 ∧ (run host first.files (injecting middle Options.mark output)).ending = .code 0 := by
  intro first
  obtain ⟨returned, written⟩ := run_injecting_mark host inputName middleName middleFree found loaded
  have found' : first.files.named middle = some (.file (transcription img).toUTF8.toList) := by
    rw [written]
    exact Files.named_write middleFree
  have free : first.files.isFree output = true := by
    rw [written]
    exact Files.isFree_write middleFree outputFree
  constructor
  · exact returned
  · exact (run_injecting_mark host middleName outputName free found' (Transcription.load_fileText img middle)).1

end Chain

section TwoPrograms

open Image (twoPrograms)

/-- The files in a row of runs. -/
theorem fileNames : FileName "memory.txt" ∧ FileName "once.txt" ∧ FileName "twice.txt" := by
  refine ⟨?_, ?_, ?_⟩
  all_goals exact ⟨⟨by decide, by decide, by decide, by decide, by decide⟩, rfl⟩

/-- One byte and then two others are injected below the two programs. -/
theorem injectBoth_twoPrograms :
    ∃ i log, (injectBoth "85" "9C 01").on ⟨twoPrograms, []⟩ =
      (.ok i, ⟨(twoPrograms.appended [0x85]).appended [0x9C, 0x01], log⟩) := by
  have read : (Payload.text "85").bytes = .ok [0x85] := rfl
  have read' : (Payload.text "9C 01").bytes = .ok [0x9C, 0x01] := rfl
  have admits : twoPrograms.Admits [0x85] := Image.admits_twoPrograms (List.cons_ne_nil _ _) (by decide)
  have admits' : (twoPrograms.appended [0x85]).Admits [0x9C, 0x01] := by
    apply admits.admits_appended (List.cons_ne_nil _ _)
    rw [Image.bottom_twoPrograms, Image.status_twoPrograms]
    decide
  obtain ⟨log, injected⟩ := Edit.inject_of_admits (d := ⟨twoPrograms, []⟩) read admits
  obtain ⟨log', injected'⟩ := Edit.inject_of_admits (d := ⟨twoPrograms.appended [0x85], log⟩) read' admits'
  refine ⟨(twoPrograms.appended [0x85]).account [0x9C, 0x01], log', ?_⟩
  rw [injectBoth_of_ok injected]
  exact injected'

/-- The two programs take one byte and then two others, by runs as in memory. -/
theorem chained_twoPrograms :
    (FileName "memory.txt" ∧ FileName "once.txt" ∧ FileName "twice.txt") ∧
      ((filesHolding twoPrograms).isFree "once.txt" = true ∧ (filesHolding twoPrograms).isFree "twice.txt" = true) ∧
      (∃ contents, (filesHolding twoPrograms).named "memory.txt" = some (.file contents) ∧
        (Transcription.load "memory.txt" contents).outcome.1 = .ok twoPrograms) ∧
      let first := run greenwich (filesHolding twoPrograms) (injecting "memory.txt" "85" "once.txt")
      let second := run greenwich first.files (injecting "once.txt" "9C 01" "twice.txt")
      first.ending = .code 0 ∧ second.ending = .code 0 ∧
        second.files.named "twice.txt" =
          some (.file (transcription ((twoPrograms.appended [0x85]).appended [0x9C, 0x01])).toUTF8.toList) := by
  have loaded := Transcription.load_fileText twoPrograms "memory.txt"
  refine ⟨fileNames, ⟨rfl, rfl⟩, ⟨_, rfl, loaded⟩, ?_⟩
  obtain ⟨memoryName, onceName, twiceName⟩ := fileNames
  have found : (filesHolding twoPrograms).named "memory.txt" = some (.file (transcription twoPrograms).toUTF8.toList) :=
    rfl
  have offered : "85" ≠ "" ∧ "85" ≠ Options.mark := by decide
  have offered' : "9C 01" ≠ "" ∧ "9C 01" ≠ Options.mark := by decide
  obtain ⟨i, log, both⟩ := injectBoth_twoPrograms
  obtain ⟨returns, writes, -⟩ :=
    chained_runs greenwich memoryName onceName twiceName rfl rfl offered offered' found loaded
  obtain ⟨returned, returned'⟩ := returns.2 ⟨_, _, both⟩
  have written := writes _ _ both
  exact ⟨returned, returned', written⟩

/-- The mark in place of program bytes is refused in memory, but two runs with it return. -/
theorem chained_marks :
    (FileName "memory.txt" ∧ FileName "once.txt" ∧ FileName "twice.txt") ∧
      ((filesHolding twoPrograms).isFree "once.txt" = true ∧ (filesHolding twoPrograms).isFree "twice.txt" = true) ∧
      (∃ contents, (filesHolding twoPrograms).named "memory.txt" = some (.file contents) ∧
        (Transcription.load "memory.txt" contents).outcome.1 = .ok twoPrograms) ∧
      Options.mark ≠ "" ∧
      (∃ f d, (Edit.inject (.text Options.mark)).on ⟨twoPrograms, []⟩ = (.error f, d) ∧ f.kind.reported = true) ∧
      (¬∃ i d, (injectBoth Options.mark Options.mark).on ⟨twoPrograms, []⟩ = (.ok i, d)) ∧
      let first := run greenwich (filesHolding twoPrograms) (injecting "memory.txt" Options.mark "once.txt")
      let second := run greenwich first.files (injecting "once.txt" Options.mark "twice.txt")
      first.ending = .code 0 ∧ second.ending = .code 0 := by
  have loaded := Transcription.load_fileText twoPrograms "memory.txt"
  refine ⟨fileNames, ⟨rfl, rfl⟩, ⟨_, rfl, loaded⟩, by decide, ?_, ?_, ?_⟩
  · exact ⟨_, _, inject_mark twoPrograms, rfl⟩
  · rintro ⟨i, d, both⟩
    obtain ⟨_, _, injected, -⟩ := injectBoth_eq_ok both
    rw [inject_mark] at injected
    cases injected
  · obtain ⟨memoryName, onceName, twiceName⟩ := fileNames
    exact run_marks greenwich memoryName onceName twiceName rfl rfl rfl loaded

end TwoPrograms

end CalcImage.Command
