import CalcImage.Command.Run
import CalcImage.Proofs.Recording
import CalcImage.Proofs.Transcription.RoundTrip

/-!
# The parts of a run

A part of a run gives a result or a halt, shows a text, adds records, and may change the files (`Work.Gives`); what it
does depends on the files alone and not on what was shown and recorded before. Each part has one lemma that says what it
gives, and a part after another one shows its text after that of the first. All parts but the last one leave the files
as they are (`Work.Keeps`), and the last one does so when it is halted (`Work.Careful`), as it writes only when nothing
can fail any more. So a run that comes to its end has loaded an image, injected program bytes into it, and shown and
written what its options ask for (`gives_work_iff`), and one that is halted has changed no file (`careful_work`).
-/

namespace CalcImage.Command

open CalcImage.Text

namespace Work

variable {α β : Type}

/-- The result of a part of a run and the session after it. -/
def on (w : Work α) (c : Session) : Except Halt α × Session := w.run.run c

/-- In every session with the files `fs` the part has the result `r`, shows `text`, adds the same records, and leaves
the files `fs'`. -/
def Gives (w : Work α) (fs : Files) (r : Except Halt α) (text : String) (fs' : Files) : Prop :=
  ∃ added, ∀ output log, w.on ⟨output, log, fs⟩ = (r, ⟨output ++ text, log ++ added, fs'⟩)

/-- What the part gives depends on the files alone, and it leaves them as they are. -/
def Keeps (w : Work α) : Prop := ∀ fs, ∃ r text, w.Gives fs r text fs

/-- What the part gives depends on the files alone, and it leaves them as they are when it is halted. -/
def Careful (w : Work α) : Prop := ∀ fs, ∃ r text fs', w.Gives fs r text fs' ∧ ∀ h, r = .error h → fs' = fs

section Parts

variable {x : Work α} {g : α → Work β} {r r' : Except Halt α} {text text' : String} {fs fs' fs'' : Files}

theorem Gives.unique (gives : x.Gives fs r text fs') (gives' : x.Gives fs r' text' fs'') :
    r' = r ∧ text' = text ∧ fs'' = fs' := by
  obtain ⟨added, ran⟩ := gives
  obtain ⟨added', runs⟩ := gives'
  have same := (runs "" []).symm.trans (ran "" [])
  rw [String.empty_append, String.empty_append] at same
  exact ⟨congrArg Prod.fst same, congrArg (fun p => p.2.output) same, congrArg (fun p => p.2.files) same⟩

theorem Gives.iff (gives : x.Gives fs r text fs') :
    x.Gives fs r' text' fs'' ↔ r' = r ∧ text' = text ∧ fs'' = fs' := by
  constructor
  · exact gives.unique
  · rintro ⟨rfl, rfl, rfl⟩
    exact gives

/-- When the files are as they were, the result and the text are all there is to tell. -/
theorem Gives.iff_same (gives : x.Gives fs r text fs) : x.Gives fs r' text' fs ↔ r' = r ∧ text' = text := by
  rw [gives.iff, eq_self, and_true]

/-- A part that neither shows nor records anything. -/
theorem gives_silently (ran : ∀ output log, x.on ⟨output, log, fs⟩ = (r, ⟨output, log, fs'⟩)) :
    x.Gives fs r "" fs' := by
  refine ⟨[], ?_⟩
  intro output log
  rw [String.append_empty, List.append_nil]
  exact ran output log

theorem Keeps.careful (keeps : x.Keeps) : x.Careful := by
  intro fs
  obtain ⟨r, text, gives⟩ := keeps fs
  exact ⟨r, text, fs, gives, fun _ _ => rfl⟩

section Single

variable (fs)

theorem gives_pure (a : α) : (pure a : Work α).Gives fs (.ok a) "" fs := gives_silently fun _ _ => rfl

theorem gives_throw (h : Halt) : (throw h : Work α).Gives fs (.error h) "" fs :=
  gives_silently fun _ _ => rfl

theorem gives_ofExcept (e : Except Fault α) : (ofExcept e).Gives fs (e.mapError Halt.fault) "" fs :=
  gives_silently fun _ _ => rfl

theorem gives_ofExcept_of_error {e : Except Fault α} {f : Fault} (failed : e = .error f) :
    (ofExcept e).Gives fs (.error (.fault f)) "" fs := failed ▸ gives_ofExcept fs (.error f)

theorem gives_ofTraced {t : Traced α} (adds : t.OnlyAdds) :
    (ofTraced t).Gives fs (t.outcome.1.mapError Halt.fault) "" fs := by
  refine ⟨t.outcome.2, ?_⟩
  intro output log
  have ran : (ofTraced t).on ⟨output, log, fs⟩ =
      ((t.on log).1.mapError Halt.fault, ⟨output, (t.on log).2, fs⟩) := rfl
  rw [ran, adds.on_eq, String.append_empty]

theorem gives_ofEdit {e : Edit α} (adds : e.OnlyAdds) (img : Image) :
    (ofEdit e img).Gives fs
      (((e.on ⟨img, []⟩).1.map fun a => (a, (e.on ⟨img, []⟩).2.image)).mapError Halt.fault) "" fs := by
  obtain ⟨r, img', added, edited⟩ := adds img
  refine ⟨added, ?_⟩
  intro output log
  have ran : (ofEdit e img).on ⟨output, log, fs⟩ = (((e.on ⟨img, log⟩).1.map fun a =>
      (a, (e.on ⟨img, log⟩).2.image)).mapError Halt.fault, ⟨output, (e.on ⟨img, log⟩).2.log, fs⟩) := rfl
  rw [ran, edited, edited, String.append_empty]

theorem gives_print (lines : List String) : (print lines).Gives fs (.ok ()) (Transcription.fileText lines) fs := by
  refine ⟨[], ?_⟩
  intro output log
  rw [List.append_nil]
  rfl

theorem gives_record (level : Log.Level) (text : String) : (record level text).Gives fs (.ok ()) "" fs :=
  gives_ofTraced fs (Traced.onlyAdds_record level .command text)

/-- Writing is the one step that changes the files. -/
theorem gives_write (place : List String) (text : String) :
    (write place text).Gives fs (.ok ()) "" (fs.write place text.toUTF8.toList) :=
  gives_silently fun _ _ => rfl

end Single

section Kept

theorem keeps_pure (a : α) : (pure a : Work α).Keeps := fun fs => ⟨_, _, gives_pure fs a⟩

theorem keeps_throw (h : Halt) : (throw h : Work α).Keeps := fun fs => ⟨_, _, gives_throw fs h⟩

theorem keeps_ofExcept (e : Except Fault α) : (ofExcept e).Keeps := fun fs => ⟨_, _, gives_ofExcept fs e⟩

theorem keeps_ofTraced {t : Traced α} (adds : t.OnlyAdds) : (ofTraced t).Keeps :=
  fun fs => ⟨_, _, gives_ofTraced fs adds⟩

theorem keeps_ofEdit {e : Edit α} (adds : e.OnlyAdds) (img : Image) : (ofEdit e img).Keeps :=
  fun fs => ⟨_, _, gives_ofEdit fs adds img⟩

theorem keeps_print (lines : List String) : (print lines).Keeps := fun fs => ⟨_, _, gives_print fs lines⟩

theorem keeps_record (level : Log.Level) (text : String) : (record level text).Keeps :=
  fun fs => ⟨_, _, gives_record fs level text⟩

end Kept

theorem Gives.bind_error {h : Halt} (first : x.Gives fs (.error h) text fs') :
    (x >>= g).Gives fs (.error h) text fs' := by
  obtain ⟨added, ran⟩ := first
  refine ⟨added, ?_⟩
  intro output log
  have after : (x >>= g).on ⟨output, log, fs⟩ = (ExceptT.bindCont g (x.on ⟨output, log, fs⟩).1 :
      StateM Session (Except Halt β)).run (x.on ⟨output, log, fs⟩).2 := rfl
  rw [after, ran]
  rfl

theorem Gives.bind_ok {a : α} {r : Except Halt β} (first : x.Gives fs (.ok a) text fs')
    (onward : (g a).Gives fs' r text' fs'') : (x >>= g).Gives fs r (text ++ text') fs'' := by
  obtain ⟨added, ran⟩ := first
  obtain ⟨added', ran'⟩ := onward
  refine ⟨added ++ added', ?_⟩
  intro output log
  have after : (x >>= g).on ⟨output, log, fs⟩ = (ExceptT.bindCont g (x.on ⟨output, log, fs⟩).1 :
      StateM Session (Except Halt β)).run (x.on ⟨output, log, fs⟩).2 := rfl
  rw [after, ran, ← String.append_assoc, ← List.append_assoc]
  exact ran' _ _

/-- After a part that shows nothing there is what the part after it shows. -/
theorem Gives.bind_silent {a : α} {r : Except Halt β} (first : x.Gives fs (.ok a) "" fs')
    (onward : (g a).Gives fs' r text' fs'') : (x >>= g).Gives fs r text' fs'' := by
  have both := first.bind_ok onward
  rw [String.empty_append] at both
  exact both

theorem Keeps.bind (first : x.Keeps) (onward : ∀ a, (g a).Keeps) : (x >>= g).Keeps := by
  intro fs
  obtain ⟨r, text, gives⟩ := first fs
  cases r with
  | error h => exact ⟨_, _, gives.bind_error⟩
  | ok a =>
    obtain ⟨r', text', gives'⟩ := onward a fs
    exact ⟨_, _, gives.bind_ok gives'⟩

/-- A part stays careful when one that leaves the files as they are goes before it. -/
theorem Keeps.bind_careful (first : x.Keeps) (onward : ∀ a, (g a).Careful) : (x >>= g).Careful := by
  intro fs
  obtain ⟨r, text, gives⟩ := first fs
  cases r with
  | error h => exact ⟨_, _, _, gives.bind_error, fun _ _ => rfl⟩
  | ok a =>
    obtain ⟨r', text', fs', gives', clean⟩ := onward a fs
    exact ⟨r', _, fs', gives.bind_ok gives', clean⟩

/-- Two parts come to an end when both do, and show what both show. -/
theorem Keeps.gives_bind_iff (first : x.Keeps) (onward : ∀ a, (g a).Careful) {b : β} {text : String} :
    (x >>= g).Gives fs (.ok b) text fs' ↔
      ∃ a t t', x.Gives fs (.ok a) t fs ∧ (g a).Gives fs (.ok b) t' fs' ∧ text = t ++ t' := by
  constructor
  · intro both
    obtain ⟨r, t, gives⟩ := first fs
    cases r with
    | error h =>
      have never := (both.unique gives.bind_error).1
      cases never
    | ok a =>
      obtain ⟨r', t', fs'', gives', -⟩ := onward a fs
      obtain ⟨rfl, rfl, rfl⟩ := (gives.bind_ok gives').unique both
      exact ⟨a, t, t', gives, gives', rfl⟩
  · rintro ⟨a, t, t', gives, gives', rfl⟩
    exact gives.bind_ok gives'

end Parts

section Ends

variable {r : Except Halt α} {a b : α} {text : String} {fs fs' : Files}

theorem mapError_eq_ok_iff {e : Except Fault α} : .ok a = e.mapError Halt.fault ↔ e = .ok a := by
  cases e with
  | error f =>
    constructor <;> intro same <;> cases same
  | ok b =>
    constructor <;> intro same <;> cases same <;> rfl

theorem gives_pure_iff : (pure a : Work α).Gives fs (.ok b) text fs ↔ b = a ∧ text = "" := by
  rw [(gives_pure fs a).iff_same, Except.ok.injEq]

theorem not_gives_throw {h : Halt} : ¬(throw h : Work α).Gives fs (.ok a) text fs' := by
  intro gives
  have never := ((gives_throw fs h).unique gives).1
  cases never

theorem gives_ofExcept_iff {e : Except Fault α} :
    (ofExcept e).Gives fs (.ok a) text fs ↔ e = .ok a ∧ text = "" := by
  rw [(gives_ofExcept fs e).iff_same, mapError_eq_ok_iff]

theorem gives_ofTraced_iff {t : Traced α} (adds : t.OnlyAdds) :
    (ofTraced t).Gives fs (.ok a) text fs ↔ t.outcome.1 = .ok a ∧ text = "" := by
  rw [(gives_ofTraced fs adds).iff_same, mapError_eq_ok_iff]

theorem gives_ofEdit_iff {e : Edit α} (adds : e.OnlyAdds) {img img' : Image} :
    (ofEdit e img).Gives fs (.ok (a, img')) text fs ↔
      (∃ log, e.on ⟨img, []⟩ = (.ok a, ⟨img', log⟩)) ∧ text = "" := by
  rw [(gives_ofEdit fs adds img).iff_same, mapError_eq_ok_iff]
  apply and_congr_left'
  generalize e.on ⟨img, []⟩ = result
  obtain ⟨r, img'', log⟩ := result
  cases r with
  | error f =>
    constructor
    · intro same
      cases same
    · rintro ⟨_, same⟩
      cases same
  | ok b =>
    constructor
    · intro same
      cases same
      exact ⟨log, rfl⟩
    · rintro ⟨_, same⟩
      cases same
      rfl

theorem gives_print_iff {lines : List String} {u : Unit} :
    (print lines).Gives fs (.ok u) text fs ↔ text = Transcription.fileText lines := by
  rw [(gives_print fs lines).iff_same]
  exact and_iff_right rfl

/-- After a part that shows nothing, what is shown after it is all that is shown. -/
theorem gives_bind_iff_of_silent {β : Type} {x : Work β} {g : β → Work α} {Done : β → Prop} (keeps : x.Keeps)
    (onward : ∀ b, (g b).Careful) (silent : ∀ {b text}, x.Gives fs (.ok b) text fs ↔ Done b ∧ text = "") :
    (x >>= g).Gives fs (.ok a) text fs' ↔ ∃ b, Done b ∧ (g b).Gives fs (.ok a) text fs' := by
  rw [keeps.gives_bind_iff onward]
  constructor
  · rintro ⟨b, t, t', first, gives, rfl⟩
    obtain ⟨done, rfl⟩ := silent.1 first
    rw [String.empty_append]
    exact ⟨b, done, gives⟩
  · rintro ⟨b, done, gives⟩
    exact ⟨b, "", text, silent.2 ⟨done, rfl⟩, gives, String.empty_append.symm⟩

theorem gives_ofTraced_bind_iff {β : Type} {t : Traced β} {g : β → Work α} (adds : t.OnlyAdds)
    (onward : ∀ b, (g b).Careful) :
    (ofTraced t >>= g).Gives fs (.ok a) text fs' ↔ ∃ b, t.outcome.1 = .ok b ∧ (g b).Gives fs (.ok a) text fs' :=
  gives_bind_iff_of_silent (keeps_ofTraced adds) onward (gives_ofTraced_iff adds)

theorem gives_ofExcept_bind_iff {β : Type} {e : Except Fault β} {g : β → Work α} (onward : ∀ b, (g b).Careful) :
    (ofExcept e >>= g).Gives fs (.ok a) text fs' ↔ ∃ b, e = .ok b ∧ (g b).Gives fs (.ok a) text fs' :=
  gives_bind_iff_of_silent (keeps_ofExcept e) onward gives_ofExcept_iff

/-- What a path leads to is looked up in the files as they are at this point. -/
theorem gives_target_bind_iff {path : Path} {g : Target → Work α} :
    (target path >>= g).Gives fs r text fs' ↔ (g (fs.target path)).Gives fs r text fs' := Iff.rfl

/-- A record before a part changes nothing that the part gives. -/
theorem gives_record_bind_iff {level : Log.Level} {words : String} {g : Unit → Work α} (onward : (g ()).Careful) :
    (record level words >>= g).Gives fs r text fs' ↔ (g ()).Gives fs r text fs' := by
  obtain ⟨r', text', fs'', gives, -⟩ := onward fs
  have both : (record level words >>= g).Gives fs r' text' fs'' := (gives_record fs level words).bind_silent gives
  rw [both.iff, gives.iff]

end Ends

end Work

section Stages

variable {host : Host} {o : Options} {s : Settings} {img img' : Image} {text : String} {fs fs' : Files}

/-- The transcription of an image as it is shown and written. -/
def transcription (img : Image) : String := Transcription.fileText (Transcription.lines img)

/-- The image at the path is loaded, or the blank one when there is no path. -/
def Loads (fs : Files) (path : Option Path) (img : Image) : Prop :=
  match path with
  | none => img = Image.blank
  | some path =>
    ∃ place bytes, fs.target path = .file place bytes ∧ (Transcription.load path.text bytes).outcome.1 = .ok img

/-- The program bytes that are offered, if any, are injected into the image. -/
def Injects (offer : Option String) (img img' : Image) : Prop :=
  match offer with
  | none => img' = img
  | some text => ∃ i log, (Edit.inject (.text text)).on ⟨img, []⟩ = (.ok i, ⟨img', log⟩)

/-- The summary of the image, when it is asked for. -/
def Sums (host : Host) (o : Options) (s : Settings) (img : Image) (text : String) : Prop :=
  if o.summary then
    ∃ sum lines, (summaryOf (offsetOf host o s) img).outcome.1 = .ok sum ∧ Report.summary host.east sum = .ok lines ∧
      text = Transcription.fileText lines
  else text = ""

/-- The listing of the program, or the text that it is not there, when it is asked for. -/
def Lists (name : Option String) (img : Image) (text : String) : Prop :=
  match name with
  | none => text = ""
  | some name =>
    ∃ lines, (Report.program img (upper name)).outcome.1 = .ok lines ∧ text = Transcription.fileText lines

/-- The transcription of the image is written, when it is asked for, to the place that the path leads to. -/
def Writes (fs : Files) (path : Option Path) (img : Image) (fs' : Files) : Prop :=
  match path with
  | none => fs' = fs
  | some path =>
    ∃ place, (fs.target path).place path = .ok place ∧ fs' = fs.write place (transcription img).toUTF8.toList

theorem keeps_readImage (path : Path) (t : Target) : (readImage path t).Keeps := by
  unfold readImage
  split
  · exact Work.keeps_ofTraced (Transcription.onlyAdds_load _ _)
  · exact Work.keeps_throw _
  · exact Work.keeps_throw _

theorem keeps_loadImage (path : Option Path) : (loadImage path).Keeps := by
  cases path with
  | none => exact (Work.keeps_record _ _).bind fun _ => Work.keeps_pure _
  | some path => exact fun fs => keeps_readImage path (fs.target path) fs

theorem gives_readImage_iff {path : Path} {t : Target} :
    (readImage path t).Gives fs (.ok img) text fs ↔
      (∃ place bytes, t = .file place bytes ∧ (Transcription.load path.text bytes).outcome.1 = .ok img) ∧ text = "" := by
  cases t with
  | file place bytes =>
    rw [readImage, Work.gives_ofTraced_iff (Transcription.onlyAdds_load path.text bytes)]
    apply and_congr_left'
    constructor
    · intro loaded
      exact ⟨place, bytes, rfl, loaded⟩
    · rintro ⟨_, _, same, loaded⟩
      cases same
      exact loaded
  | _ =>
    apply iff_of_false Work.not_gives_throw
    rintro ⟨⟨place, bytes, never, -⟩, -⟩
    cases never

theorem gives_loadImage_iff {path : Option Path} :
    (loadImage path).Gives fs (.ok img) text fs ↔ Loads fs path img ∧ text = "" := by
  cases path with
  | none =>
    have blank := (Work.keeps_pure Image.blank).careful
    exact (Work.gives_record_bind_iff (g := fun _ => pure Image.blank) blank).trans Work.gives_pure_iff
  | some path => exact Work.gives_target_bind_iff.trans gives_readImage_iff

variable (fs) in
theorem gives_showImage (img : Image) : (showImage img).Gives fs (.ok ()) (transcription img) fs := by
  have formatted := Work.gives_ofTraced fs (Transcription.onlyAdds_format img)
  rw [Transcription.format_eq_lines] at formatted
  exact formatted.bind_silent (Work.gives_print fs _)

theorem keeps_showImage (img : Image) : (showImage img).Keeps := fun fs => ⟨_, _, gives_showImage fs img⟩

theorem keeps_injectInto (img : Image) (offer : String) : (injectInto img offer).Keeps := by
  refine (Work.keeps_ofEdit (Edit.onlyAdds_inject _) img).bind ?_
  rintro ⟨i, img'⟩
  refine (Work.keeps_record _ _).bind fun _ => ?_
  exact (keeps_showImage img').bind fun _ => Work.keeps_pure _

/-- After an injection the transcription of the new image is shown. -/
theorem gives_injectInto {offer : String} (injects : Injects (some offer) img img') :
    (injectInto img offer).Gives fs (.ok img') (transcription img') fs := by
  obtain ⟨i, log, injected⟩ := injects
  have edited : (Work.ofEdit (Edit.inject (.text offer)) img).Gives fs (.ok (i, img')) "" fs :=
    (Work.gives_ofEdit_iff (Edit.onlyAdds_inject (.text offer))).2 ⟨⟨log, injected⟩, rfl⟩
  have shown : (showImage img' >>= fun _ => pure img').Gives fs (.ok img') (transcription img' ++ "") fs :=
    (gives_showImage fs img').bind_ok (Work.gives_pure fs img')
  have careful := ((keeps_showImage img').bind fun _ => Work.keeps_pure img').careful
  rw [String.append_empty] at shown
  exact edited.bind_silent ((Work.gives_record_bind_iff careful).2 shown)

/-- Bytes that cannot be injected end the run. -/
theorem gives_injectInto_of_error {offer : String} {f : Fault} {d : Desk}
    (refused : (Edit.inject (.text offer)).on ⟨img, []⟩ = (.error f, d)) :
    (injectInto img offer).Gives fs (.error (.fault f)) "" fs := by
  have edited := Work.gives_ofEdit fs (Edit.onlyAdds_inject (.text offer)) img
  rw [refused] at edited
  exact Work.Gives.bind_error edited

theorem gives_injectInto_iff {offer : String} :
    (injectInto img offer).Gives fs (.ok img') text fs ↔ Injects (some offer) img img' ∧ text = transcription img' := by
  constructor
  · intro gives
    cases injected : (Edit.inject (.text offer)).on ⟨img, []⟩ with
    | mk r d =>
      cases r with
      | error f =>
        have never := ((gives_injectInto_of_error injected).unique gives).1
        cases never
      | ok i =>
        have injects : Injects (some offer) img d.image := ⟨i, d.log, injected⟩
        obtain ⟨same, text_eq, -⟩ := (gives_injectInto injects).unique gives
        cases same
        exact ⟨injects, text_eq⟩
  · rintro ⟨injects, rfl⟩
    exact gives_injectInto injects

theorem onlyAdds_summaryOf (offset : ClockOffset) (img : Image) : (summaryOf offset img).OnlyAdds := by
  cases offset with
  | seconds tz => exact Summary.onlyAdds_ofAlarms img (img.onlyAdds_alarms tz)
  | void => exact Summary.onlyAdds_ofAlarms img img.onlyAdds_alarmsWithoutOffset

theorem keeps_showSummary (host : Host) (offset : ClockOffset) (img : Image) : (showSummary host offset img).Keeps := by
  refine (Work.keeps_ofTraced (onlyAdds_summaryOf offset img)).bind fun sum => ?_
  exact (Work.keeps_ofExcept _).bind fun lines => Work.keeps_print lines

theorem gives_showSummary_iff {offset : ClockOffset} {u : Unit} :
    (showSummary host offset img).Gives fs (.ok u) text fs ↔
      ∃ sum lines, (summaryOf offset img).outcome.1 = .ok sum ∧ Report.summary host.east sum = .ok lines ∧
        text = Transcription.fileText lines := by
  unfold showSummary
  rw [Work.gives_ofTraced_bind_iff (onlyAdds_summaryOf offset img) fun sum =>
    ((Work.keeps_ofExcept _).bind fun lines => Work.keeps_print lines).careful]
  apply exists_congr
  intro sum
  rw [Work.gives_ofExcept_bind_iff fun lines => (Work.keeps_print lines).careful, ← exists_and_left]
  apply exists_congr
  intro lines
  rw [Work.gives_print_iff]

theorem keeps_showProgram (img : Image) (name : String) : (showProgram img name).Keeps :=
  (Work.keeps_ofTraced (Report.onlyAdds_program img _)).bind fun lines => Work.keeps_print lines

theorem gives_showProgram_iff {name : String} {u : Unit} :
    (showProgram img name).Gives fs (.ok u) text fs ↔ Lists (some name) img text := by
  unfold showProgram Lists
  rw [Work.gives_ofTraced_bind_iff (Report.onlyAdds_program img _) fun lines => (Work.keeps_print lines).careful]
  apply exists_congr
  intro lines
  rw [Work.gives_print_iff]

/-- A search or a listing that fails ends the run. -/
theorem gives_showProgram_of_error {name : String} {f : Fault}
    (failed : (Report.program img (upper name)).outcome.1 = .error f) :
    (showProgram img name).Gives fs (.error (.fault f)) "" fs := by
  have listed := Work.gives_ofTraced fs (Report.onlyAdds_program img (upper name))
  rw [failed] at listed
  exact Work.Gives.bind_error listed

/-- A transcription is written where the path leads to. -/
theorem gives_writeImage {path : Path} {place : List String} (placed : (fs.target path).place path = .ok place) :
    (writeImage img path).Gives fs (.ok ()) "" (fs.write place (transcription img).toUTF8.toList) := by
  have formatted := Work.gives_ofTraced fs (Transcription.onlyAdds_format img)
  rw [Transcription.format_eq_lines] at formatted
  have opened : (Work.ofExcept ((fs.target path).place path)).Gives fs (.ok place) "" fs :=
    Work.gives_ofExcept_iff.2 ⟨placed, rfl⟩
  have written := Work.gives_write fs place (transcription img)
  refine formatted.bind_silent (Work.gives_target_bind_iff.2 (opened.bind_silent (written.bind_silent ?_)))
  exact Work.gives_record _ _ _

/-- A path that leads to no place for a file ends the run, and nothing is written. -/
theorem gives_writeImage_of_error {path : Path} {f : Fault} (refused : (fs.target path).place path = .error f) :
    (writeImage img path).Gives fs (.error (.fault f)) "" fs := by
  have formatted := Work.gives_ofTraced fs (Transcription.onlyAdds_format img)
  rw [Transcription.format_eq_lines] at formatted
  have opened := Work.gives_ofExcept_of_error fs refused
  exact formatted.bind_silent (Work.gives_target_bind_iff.2 opened.bind_error)

/-- Nothing can fail any more when the transcription is written. -/
theorem careful_writeImage (img : Image) (path : Path) : (writeImage img path).Careful := by
  intro fs
  cases placed : (fs.target path).place path with
  | error f => exact ⟨_, _, fs, gives_writeImage_of_error placed, fun _ _ => rfl⟩
  | ok place =>
    refine ⟨_, _, _, gives_writeImage placed, ?_⟩
    intro h never
    cases never

theorem gives_writeImage_iff {path : Path} {u : Unit} :
    (writeImage img path).Gives fs (.ok u) text fs' ↔ Writes fs (some path) img fs' ∧ text = "" := by
  cases placed : (fs.target path).place path with
  | error f =>
    rw [(gives_writeImage_of_error placed).iff, Writes, placed]
    simp
  | ok place =>
    rw [(gives_writeImage placed).iff, Writes, placed]
    simp [and_comm]

end Stages

section Whole

variable {host : Host} {o : Options} {s : Settings} {fs fs' : Files}

/-- Show the transcription before any injection, when it is asked for. -/
def before (o : Options) (img : Image) : Work Unit := if o.print then showImage img else pure ()

/-- Inject the program bytes, when some are offered. -/
def injection (o : Options) (img : Image) : Work Image :=
  match given? o.inject with
  | none => pure img
  | some text => injectInto img text

/-- Show the summary, when it is asked for. -/
def summing (host : Host) (o : Options) (s : Settings) (img : Image) : Work Unit :=
  if o.summary then showSummary host (offsetOf host o s) img else pure ()

/-- Show the listing, when it is asked for. -/
def listing (o : Options) (img : Image) : Work Unit :=
  match given? o.list with
  | none => pure ()
  | some name => showProgram img name

/-- Write the transcription, when it is asked for. -/
def writing (o : Options) (img : Image) : Work Unit :=
  match o.output with
  | none => pure ()
  | some path => writeImage img path

/-- What a run does when the injection is done. -/
def conclude (host : Host) (o : Options) (s : Settings) (img : Image) : Work Unit :=
  summing host o s img >>= fun _ => listing o img >>= fun _ => writing o img

/-- What a run does with the image that it has loaded. -/
def treat (host : Host) (o : Options) (s : Settings) (img : Image) : Work Unit :=
  before o img >>= fun _ => injection o img >>= conclude host o s

/-- A run is its parts one after the other. -/
theorem work_eq : work host o s = loadImage (o.filename.or s.image) >>= treat host o s := by
  unfold work treat conclude before injection summing listing writing
  cases o.print <;> cases given? o.inject <;> cases o.summary <;> cases given? o.list <;> cases o.output <;> rfl

/-- What is shown before any injection. -/
def shownBefore (o : Options) (img : Image) : String := if o.print then transcription img else ""

/-- What is shown after an injection. -/
def shownAfter (o : Options) (img : Image) : String := if (given? o.inject).isSome then transcription img else ""

/-- What a run does that comes to its end on the files `fs`: it loads the image `img`, injects program bytes and has
`img'` then, shows the summary `sum` and the listing `list` of that, and writes it, so that the files are `fs'` then. -/
structure Completes (host : Host) (fs : Files) (o : Options) (s : Settings) (img img' : Image) (sum list : String)
    (fs' : Files) : Prop where
  loads : Loads fs (o.filename.or s.image) img
  injects : Injects (given? o.inject) img img'
  sums : Sums host o s img' sum
  lists : Lists (given? o.list) img' list
  writes : Writes fs o.output img' fs'

variable {img img' : Image} {text : String} {u : Unit}

variable (fs) in
theorem gives_before (o : Options) (img : Image) : (before o img).Gives fs (.ok ()) (shownBefore o img) fs := by
  unfold before shownBefore
  split
  · exact gives_showImage fs img
  · exact Work.gives_pure fs ()

theorem keeps_before (o : Options) (img : Image) : (before o img).Keeps := fun fs => ⟨_, _, gives_before fs o img⟩

theorem keeps_injection (o : Options) (img : Image) : (injection o img).Keeps := by
  unfold injection
  split
  · exact Work.keeps_pure img
  · exact keeps_injectInto img _

theorem gives_injection_iff :
    (injection o img).Gives fs (.ok img') text fs ↔ Injects (given? o.inject) img img' ∧ text = shownAfter o img' := by
  unfold injection shownAfter
  cases given? o.inject with
  | none => exact Work.gives_pure_iff
  | some offer => exact gives_injectInto_iff

theorem keeps_summing (host : Host) (o : Options) (s : Settings) (img : Image) : (summing host o s img).Keeps := by
  unfold summing
  split
  · exact keeps_showSummary host _ img
  · exact Work.keeps_pure ()

theorem gives_summing_iff : (summing host o s img).Gives fs (.ok u) text fs ↔ Sums host o s img text := by
  unfold summing Sums
  split
  · exact gives_showSummary_iff
  · rw [Work.gives_pure_iff]
    exact and_iff_right rfl

theorem keeps_listing (o : Options) (img : Image) : (listing o img).Keeps := by
  unfold listing
  split
  · exact Work.keeps_pure ()
  · exact keeps_showProgram img _

theorem gives_listing_iff : (listing o img).Gives fs (.ok u) text fs ↔ Lists (given? o.list) img text := by
  unfold listing
  cases given? o.list with
  | none =>
    rw [Work.gives_pure_iff]
    exact and_iff_right rfl
  | some name => exact gives_showProgram_iff

theorem careful_writing (o : Options) (img : Image) : (writing o img).Careful := by
  unfold writing
  split
  · exact (Work.keeps_pure ()).careful
  · exact careful_writeImage img _

theorem gives_writing_iff :
    (writing o img).Gives fs (.ok u) text fs' ↔ Writes fs o.output img fs' ∧ text = "" := by
  unfold writing
  cases o.output with
  | none =>
    rw [(Work.gives_pure fs ()).iff, Writes]
    simp [and_comm]
  | some path => exact gives_writeImage_iff

theorem careful_conclude (host : Host) (o : Options) (s : Settings) (img : Image) : (conclude host o s img).Careful := by
  refine (keeps_summing host o s img).bind_careful fun _ => ?_
  exact (keeps_listing o img).bind_careful fun _ => careful_writing o img

theorem gives_conclude_iff :
    (conclude host o s img).Gives fs (.ok u) text fs' ↔
      ∃ sum list, Sums host o s img sum ∧ Lists (given? o.list) img list ∧ Writes fs o.output img fs' ∧
        text = sum ++ list := by
  have rest := (keeps_listing o img).bind_careful fun _ => careful_writing o img
  unfold conclude
  rw [(keeps_summing host o s img).gives_bind_iff fun _ => rest]
  constructor
  · rintro ⟨_, sum, t, summed, gives, rfl⟩
    rw [(keeps_listing o img).gives_bind_iff fun _ => careful_writing o img] at gives
    obtain ⟨_, list, t', listed, wrote, rfl⟩ := gives
    obtain ⟨writes, rfl⟩ := gives_writing_iff.1 wrote
    rw [String.append_empty]
    exact ⟨sum, list, gives_summing_iff.1 summed, gives_listing_iff.1 listed, writes, rfl⟩
  · rintro ⟨sum, list, sums, lists, writes, rfl⟩
    refine ⟨(), sum, list, gives_summing_iff.2 sums, ?_, rfl⟩
    rw [(keeps_listing o img).gives_bind_iff fun _ => careful_writing o img]
    exact ⟨(), list, "", gives_listing_iff.2 lists, gives_writing_iff.2 ⟨writes, rfl⟩, String.append_empty.symm⟩

theorem careful_treat (host : Host) (o : Options) (s : Settings) (img : Image) : (treat host o s img).Careful := by
  refine (keeps_before o img).bind_careful fun _ => ?_
  exact (keeps_injection o img).bind_careful (careful_conclude host o s)

/-- **A run that is halted has changed no file.** All that it does before it writes leaves the files as they are. -/
theorem careful_work (host : Host) (o : Options) (s : Settings) : (work host o s).Careful := by
  rw [work_eq]
  exact (keeps_loadImage _).bind_careful (careful_treat host o s)

/-- **What a run comes to.** It comes to its end exactly when all that it is asked for can be done, and it has then shown
the transcription before the injection, the one after it, the summary and the listing, in this order. -/
theorem gives_work_iff :
    (work host o s).Gives fs (.ok u) text fs' ↔
      ∃ img img' sum list, Completes host fs o s img img' sum list fs' ∧
        text = shownBefore o img ++ (shownAfter o img' ++ (sum ++ list)) := by
  rw [work_eq, Work.gives_bind_iff_of_silent (keeps_loadImage _) (careful_treat host o s) gives_loadImage_iff]
  constructor
  · rintro ⟨img, loads, gives⟩
    have rest := (keeps_injection o img).bind_careful (careful_conclude host o s)
    rw [treat, (keeps_before o img).gives_bind_iff fun _ => rest] at gives
    obtain ⟨_, t, t', shown, gives, rfl⟩ := gives
    obtain ⟨-, rfl, -⟩ := (gives_before fs o img).unique shown
    rw [(keeps_injection o img).gives_bind_iff (careful_conclude host o s)] at gives
    obtain ⟨img', t, t', injected, gives, rfl⟩ := gives
    obtain ⟨injects, rfl⟩ := gives_injection_iff.1 injected
    obtain ⟨sum, list, sums, lists, writes, rfl⟩ := gives_conclude_iff.1 gives
    exact ⟨img, img', sum, list, ⟨loads, injects, sums, lists, writes⟩, rfl⟩
  · rintro ⟨img, img', sum, list, ⟨loads, injects, sums, lists, writes⟩, rfl⟩
    have concluded := (gives_conclude_iff (u := u)).2 ⟨sum, list, sums, lists, writes, rfl⟩
    have injected : (injection o img).Gives fs (.ok img') _ fs := gives_injection_iff.2 ⟨injects, rfl⟩
    exact ⟨img, loads, (gives_before fs o img).bind_ok (injected.bind_ok concluded)⟩

/-- Program bytes that cannot be injected end the run. -/
theorem gives_work_of_refused {offer : String} {f : Fault} {d : Desk} (loads : Loads fs (o.filename.or s.image) img)
    (offered : given? o.inject = some offer)
    (refused : (Edit.inject (.text offer)).on ⟨img, []⟩ = (.error f, d)) :
    (work host o s).Gives fs (.error (.fault f)) (shownBefore o img) fs := by
  have halted : (injection o img).Gives fs (.error (.fault f)) "" fs := by
    rw [injection, offered]
    exact gives_injectInto_of_error refused
  have treated : (treat host o s img).Gives fs (.error (.fault f)) (shownBefore o img ++ "") fs :=
    (gives_before fs o img).bind_ok halted.bind_error
  rw [String.append_empty] at treated
  rw [work_eq]
  exact (gives_loadImage_iff.2 ⟨loads, rfl⟩).bind_silent treated

/-- A program that cannot be searched for or listed ends the run. -/
theorem gives_work_of_unlisted {name sum : String} {f : Fault} (loads : Loads fs (o.filename.or s.image) img)
    (injects : Injects (given? o.inject) img img') (sums : Sums host o s img' sum) (asked : given? o.list = some name)
    (failed : (Report.program img' (upper name)).outcome.1 = .error f) :
    (work host o s).Gives fs (.error (.fault f)) (shownBefore o img ++ (shownAfter o img' ++ sum)) fs := by
  have halted : (listing o img').Gives fs (.error (.fault f)) "" fs := by
    rw [listing, asked]
    exact gives_showProgram_of_error failed
  have concluded : (conclude host o s img').Gives fs (.error (.fault f)) (sum ++ "") fs :=
    (gives_summing_iff (u := ()).2 sums).bind_ok halted.bind_error
  have treated : (treat host o s img).Gives fs (.error (.fault f))
      (shownBefore o img ++ (shownAfter o img' ++ (sum ++ ""))) fs :=
    (gives_before fs o img).bind_ok ((gives_injection_iff.2 ⟨injects, rfl⟩).bind_ok concluded)
  rw [String.append_empty] at treated
  rw [work_eq]
  exact (gives_loadImage_iff.2 ⟨loads, rfl⟩).bind_silent treated

end Whole

end CalcImage.Command
