import CalcImage.Proofs.Memory.Copy
import CalcImage.Proofs.Memory.Status
import CalcImage.Proofs.Text.Utf8
import CalcImage.Proofs.Transcription.Line

/-!
# Writing and reading back

The lines of an image are taken one after the other, and each group of registers that has a line is copied into the
draft (`Copied`); a group without one is zero on both sides. So the lines of an image describe that image, as lines
and as the text of a file, whichever ends the lines of the file have.
-/

namespace CalcImage

open CalcImage.Text

namespace Transcription

open Line

theorem registerBytes?_ofBytes {bs : List UInt8} (size : bs.length = 7) :
    Image.registerBytes? (String.ofList (Hex.ofBytes bs)) = some bs := by
  unfold Image.registerBytes?
  rw [String.toList_ofList, if_pos (by rw [Hex.length_ofBytes, size]), Hex.toBytes?_ofBytes]

namespace Draft

/-- Registers that are written out and stored again are copied. -/
theorem storeAll_registers (source img : Image) (first count : Nat) :
    ∃ img', storeAll img first
        ((List.range count).map fun k => String.ofList (Hex.ofBytes (source.registerAt (first + k)))) = .ok img' ∧
      Copied source img img' (7 * first) (7 * (first + count)) := by
  induction count generalizing img first with
  | zero => exact ⟨img, rfl, Copied.of_same fun loc low high => by omega⟩
  | succ count ih =>
    have rest : (List.range (count + 1)).map (fun k => String.ofList (Hex.ofBytes (source.registerAt (first + k)))) =
        String.ofList (Hex.ofBytes (source.registerAt first)) ::
          (List.range count).map fun k => String.ofList (Hex.ofBytes (source.registerAt (first + 1 + k))) := by
      rw [List.range_succ_eq_map, List.map_cons, List.map_map]
      congr 2
      funext k
      dsimp only [Function.comp_apply]
      rw [Nat.add_right_comm, Nat.add_assoc]
    have size : (source.registerAt first).length = 7 := by rw [Image.registerAt, List.length_map, List.length_range]
    obtain ⟨img', stored, copied⟩ := ih (img.putAll (7 * first) (source.registerAt first)) (first + 1)
    refine ⟨img', ?_, (Image.copied_putAll source img first).trans ?_ (by omega) (by omega)⟩
    · rw [rest, storeAll, registerBytes?_ofBytes size]
      exact stored
    · rw [show first + (count + 1) = first + 1 + count by omega]
      exact copied

/-- Lines that are all known take a draft to another one, whatever their numbers are. -/
inductive Takes : Draft → List (List Char) → Draft → Prop where
  | nil (d : Draft) : Takes d [] d
  | cons {d d' d'' : Draft} {raw : List Char} {raws : List (List Char)} {line : Line}
      (known : Line.ofText? (dropLineEnd raw) = some line) (applied : ∀ number, d.apply number line = .ok d')
      (rest : Takes d' raws d'') : Takes d (raw :: raws) d''

section Takes

variable {d d' d'' : Draft} {raws raws' : List (List Char)}

theorem Takes.takeAll (h : Takes d raws d') (number : Nat) : d.takeAll number raws = .ok d' := by
  induction h generalizing number with
  | nil d => rfl
  | cons known applied rest ih =>
    rw [Draft.takeAll, take, known]
    dsimp only
    rw [applied number]
    exact ih (number + 1)

theorem Takes.append (first : Takes d raws d') (second : Takes d' raws' d'') : Takes d (raws ++ raws') d'' := by
  induction first with
  | nil d => exact second
  | cons known applied rest ih => exact .cons known applied (ih second)

/-- Empty lines say nothing. -/
theorem Takes.of_filled (h : Takes d (filled raws) d') : Takes d raws d' := by
  induction raws generalizing d with
  | nil => exact h
  | cons raw raws ih =>
    cases raw with
    | nil => exact .cons rfl (fun _ => rfl) (ih h)
    | cons c raw =>
      cases h with
      | cons known applied rest => exact .cons known applied (ih rest)

theorem Takes.filled (h : Takes d raws d') : Takes d (filled raws) d' := by
  induction h with
  | nil d => exact .nil d
  | @cons d d' d'' raw raws line known applied rest ih =>
    cases raw with
    | nil =>
      obtain rfl := Option.some.inj known
      obtain rfl := Except.ok.inj (applied 0)
      exact ih
    | cons c raw => exact .cons known applied ih

end Takes

theorem dropLineEnd_of_visible {cs : List Char} (visible : Visible cs) : dropLineEnd cs = cs := by
  unfold dropLineEnd
  cases last : cs.reverse with
  | nil => rw [List.dropWhile_nil, ← last, List.reverse_reverse]
  | cons c rest =>
    have here := visible.oneLine c (List.mem_reverse.1 (by rw [last]; exact List.mem_cons_self))
    rw [List.dropWhile_cons, if_neg (by simp [here]), ← last, List.reverse_reverse]

/-- A line that is visible is taken as what it is read as. -/
theorem Takes.line {d d' : Draft} {cs : List Char} {line : Line} (visible : Visible cs)
    (known : Line.ofText? cs = some line) (applied : ∀ number, d.apply number line = .ok d') : Takes d [cs] d' :=
  .cons (by rw [dropLineEnd_of_visible visible]; exact known) applied (.nil d')

section Memory

variable (img : Image)

/-- The line of a group copies its registers into the draft. -/
theorem takes_memoryLine (d : Draft) {group : Nat} (inside : group < 278) :
    ∃ copy, Takes d [(memoryLine img (4 * group)).toList] { d with image := copy } ∧
      Copied img d.image copy (28 * group) (28 * (group + 1)) := by
  obtain ⟨copy, stored, copied⟩ := storeAll_registers img d.image (4 * group) 4
  refine ⟨copy, .line (visible_memoryLine img _) (ofText?_memory img (by omega)) fun number => ?_, ?_⟩
  · rw [apply, if_neg (by simp only [List.length_map, List.length_range, registerCount]; omega), stored]
    rfl
  · rw [show 28 * group = 7 * (4 * group) by omega, show 28 * (group + 1) = 7 * (4 * group + 4) by omega]
    exact copied

theorem byte_of_isZeroGroup {group loc : Nat} (zero : isZeroGroup img (4 * group) = true) (low : 28 * group ≤ loc)
    (high : loc < 28 * (group + 1)) : img.byte loc = 0 := by
  unfold isZeroGroup at zero
  have register := List.all_eq_true.1 zero (loc / 7 - 4 * group) (List.mem_range.2 (by omega))
  have byte := List.all_eq_true.1 register (img.byte loc) (by
    refine List.mem_map.2 ⟨loc % 7, List.mem_range.2 (by omega), ?_⟩
    congr 1
    omega)
  simpa using byte

/-- The lines of the first groups copy their registers into an empty draft, whether a group has a line or not. -/
theorem takes_memoryLines (d : Draft) (empty : d.image = Image.zero) {count : Nat} (inside : count ≤ 278) :
    ∃ copy, Takes d (((List.range count).filterMap fun g =>
        if isZeroGroup img (4 * g) then none else some (memoryLine img (4 * g))).map String.toList)
        { d with image := copy } ∧
      Copied img Image.zero copy 0 (28 * count) := by
  induction count with
  | zero =>
    refine ⟨d.image, .nil d, ?_⟩
    rw [empty]
    exact Copied.of_same fun loc low high => by omega
  | succ count ih =>
    obtain ⟨copy, before, copied⟩ := ih (by omega)
    rw [List.range_succ, List.filterMap_append, List.map_append]
    by_cases zero : isZeroGroup img (4 * count) = true
    · refine ⟨copy, ?_, copied.trans (Copied.of_same fun loc low high => ?_) (by omega) (by omega)⟩
      · simpa [zero] using before
      · have here := copied loc (by simp only [memorySize]; omega)
        rw [if_neg (by omega), Image.byte_zero] at here
        rw [here, byte_of_isZeroGroup img zero low high]
    · obtain ⟨copy', now, copied'⟩ := takes_memoryLine img { d with image := copy } (show count < 278 by omega)
      refine ⟨copy', before.append ?_, copied.trans copied' (by omega) (by omega)⟩
      simpa [zero] using now

end Memory

/-- The draft that the lines of an image make is that image. -/
theorem takes_lines (img : Image) : ∃ d, Takes empty ((lines img).map String.toList) d ∧ d.image? = .ok img := by
  obtain ⟨copy, memory, copied⟩ := takes_memoryLines img ⟨Image.zero, some modelName, none, none⟩ rfl (Nat.le_refl 278)
  have model : Takes empty [modelName.toList] ⟨Image.zero, some modelName, none, none⟩ :=
    .line (by decide) ofText?_model fun _ => rfl
  have abc : Takes ⟨copy, some modelName, none, none⟩ [_]
      ⟨copy, some modelName, some (img.cpu.a, img.cpu.b, img.cpu.c), none⟩ :=
    .line (visible_cpuLines img.cpu _ List.mem_cons_self) (ofText?_abc _ _ _) fun _ => rfl
  have mng : Takes ⟨copy, some modelName, some (img.cpu.a, img.cpu.b, img.cpu.c), none⟩ [_]
      ⟨copy, some modelName, some (img.cpu.a, img.cpu.b, img.cpu.c), some (img.cpu.m, img.cpu.n, img.cpu.g)⟩ :=
    .line (visible_cpuLines img.cpu _ (List.mem_cons_of_mem _ List.mem_cons_self)) (ofText?_mng _ _ _) fun _ => rfl
  refine ⟨⟨copy, some modelName, some (img.cpu.a, img.cpu.b, img.cpu.c),
    some (img.cpu.m, img.cpu.n, img.cpu.g)⟩, ?_, ?_⟩
  · have blank (d : Draft) : Takes d ["".toList] d := .cons rfl (fun _ => rfl) (.nil d)
    have whole := model.append (memory.append (abc.append (mng.append (blank _))))
    rw [show (lines img).map String.toList = [modelName.toList] ++ ((memoryLines img).map String.toList ++
      ([("A: " ++ img.cpu.a.text ++ "  B: " ++ img.cpu.b.text ++ "  C: " ++ img.cpu.c.text).toList] ++
        ([("M: " ++ img.cpu.m.text ++ "  N: " ++ img.cpu.n.text ++ "  G: " ++ img.cpu.g.text).toList] ++ ["".toList])))
      by simp [lines, cpuLines]]
    exact whole
  · have same : ({ copy with cpu := img.cpu } : Image) = img := by
      apply Image.ext_byte
      · intro loc inside
        have here := copied loc inside
        rw [if_pos ⟨Nat.zero_le loc, inside⟩] at here
        exact here
      · rfl
    rw [image?]
    dsimp only
    rw [if_pos rfl]
    exact congrArg Except.ok same

/-- A draft of an image ends in that image; a warning is no fault. -/
theorem finish_of_image? {d : Draft} {img : Image} (drafted : d.image? = .ok img) (log : List Log.Record) :
    (d.finish.run.run log).1 = .ok img := by
  unfold finish
  rw [drafted]
  change ((discard img.checkWatchdog >>= fun _ => pure img : Traced Image).run.run log).1 = _
  unfold Image.checkWatchdog
  split <;> rfl

end Draft

section Files

variable {raws : List (List Char)} {d : Draft} {img : Image}

/-- What lines come to is what the draft of all of them comes to. -/
theorem outcome_parse (raws : List (List Char)) :
    (parse raws).outcome.1 = (Draft.empty.takeAll 1 raws).bind Draft.image? := by
  unfold parse
  cases Draft.empty.takeAll 1 raws with
  | error f => rfl
  | ok d =>
    change (d.finish.run.run []).1 = d.image?
    cases drafted : d.image? with
    | error f =>
      unfold Draft.finish
      rw [drafted]
      rfl
    | ok img => exact Draft.finish_of_image? drafted []

theorem parse_of_takes (taken : Draft.Takes .empty raws d) (drafted : d.image? = .ok img) :
    (parse raws).outcome.1 = .ok img := by
  rw [outcome_parse, taken.takeAll 1]
  exact drafted

theorem load_of_takes {bytes : List UInt8} (whole : (fileLines bytes).whole = true)
    (taken : Draft.Takes .empty (fileLines bytes).lines d) (drafted : d.image? = .ok img) (path : String) :
    (load path bytes).outcome.1 = .ok img := by
  unfold load
  simp only [if_pos whole]
  rw [taken.takeAll 1]
  exact Draft.finish_of_image? drafted _

theorem format_eq_lines (img : Image) : (format img).outcome.1 = .ok (lines img) := by
  unfold format Image.checkWatchdog
  split <;> rfl

/-- The text of a file with these lines, each of which has the end that its number is given. -/
def endedText (ends : Nat → LineEnd) (ls : List String) : String :=
  String.ofList (endLines ends 0 (ls.map String.toList))

/-- The text of a file whose last line has no end. -/
def joinedText (ends : Nat → LineEnd) (ls : List String) : String :=
  endedText ends ls.dropLast ++ ls.getLast?.getD ""

/-- Files are written with line feeds. -/
theorem fileText_eq_endedText {ls : List String} (nonempty : ls ≠ []) : fileText ls = endedText (fun _ => .feed) ls := by
  have text (number : Nat) : (fileText ls).toList = endLines (fun _ => .feed) number (ls.map String.toList) := by
    induction ls generalizing number with
    | nil => exact absurd rfl nonempty
    | cons l ls ih =>
      cases ls with
      | nil => simp [fileText, joined, endLines, LineEnd.chars]
      | cons k ls =>
        have rest := ih (List.cons_ne_nil k ls) (number + 1)
        rw [List.map_cons, endLines, ← rest, fileText, fileText, joined, joined,
          String.intercalate_cons_of_ne_nil (List.cons_ne_nil k ls)]
        simp [LineEnd.chars]
  rw [endedText, ← text 0, String.ofList_toList]

theorem ascii_endLines {ls : List (List Char)} (visible : ∀ l ∈ ls, Visible l) (ends : Nat → LineEnd) (number : Nat) :
    Ascii (endLines ends number ls) := by
  induction ls generalizing number with
  | nil => exact fun c member => absurd member List.not_mem_nil
  | cons l ls ih =>
    have ended (e : LineEnd) : Ascii e.chars := by
      cases e <;> decide
    intro c member
    rw [endLines, List.mem_append, List.mem_append] at member
    rcases member with (member | member) | member
    · exact (visible l List.mem_cons_self c member).2
    · exact ended _ c member
    · exact ih (fun k inside => visible k (List.mem_cons_of_mem l inside)) _ c member

/-- The file of visible lines is read as a whole, and all its lines but empty ones are read back. -/
theorem fileLines_endedText {ls : List String} (visible : ∀ l ∈ ls, Visible l.toList) (ends : Nat → LineEnd) :
    (fileLines (endedText ends ls).toUTF8.toList).whole = true ∧
      filled (fileLines (endedText ends ls).toUTF8.toList).lines = filled (ls.map String.toList) := by
  have visible' : ∀ l ∈ ls.map String.toList, Visible l := List.forall_mem_map.2 visible
  have ascii : Ascii (endedText ends ls).toList := by
    rw [endedText, String.toList_ofList]
    exact ascii_endLines visible' ends 0
  have read : fileLines (endedText ends ls).toUTF8.toList = ⟨Text.lines (endedText ends ls).toList, true⟩ := by
    rw [Utf8.toList_toUTF8 ascii, fileLines, Utf8.readFile_ascii ascii]
    rfl
  rw [read]
  refine ⟨rfl, ?_⟩
  rw [endedText, String.toList_ofList]
  exact filled_lines_endLines (fun l member => (visible' l member).oneLine) ends 0

/-- The file that an image is written to is read as that image. -/
theorem load_fileText (img : Image) (path : String) :
    (load path (fileText (lines img)).toUTF8.toList).outcome.1 = .ok img := by
  obtain ⟨d, taken, drafted⟩ := Draft.takes_lines img
  obtain ⟨whole, read⟩ := fileLines_endedText (visible_lines img) fun _ => .feed
  have filled := taken.filled
  have nonempty : lines img ≠ [] := List.cons_ne_nil modelName _
  rw [← read] at filled
  rw [fileText_eq_endedText nonempty]
  exact load_of_takes whole filled.of_filled drafted path

end Files

/-- **Writing and reading back.** The lines of an image are read as that image, and so is every file of them, whichever
ends its lines have. -/
theorem parse_format (img : Image) :
    ∃ ls, (format img).outcome.1 = .ok ls ∧ (parse (ls.map String.toList)).outcome.1 = .ok img ∧
      (∀ path ends, (load path (endedText ends ls).toUTF8.toList).outcome.1 = .ok img) ∧
      (∀ path ends, (load path (joinedText ends ls).toUTF8.toList).outcome.1 = .ok img) ∧
      ∀ path, (load path (fileText ls).toUTF8.toList).outcome.1 = .ok img := by
  obtain ⟨d, taken, drafted⟩ := Draft.takes_lines img
  have loaded {ls : List String} (visible : ∀ l ∈ ls, Visible l.toList)
      (same : filled (ls.map String.toList) = filled ((lines img).map String.toList)) (path : String)
      (ends : Nat → LineEnd) : (load path (endedText ends ls).toUTF8.toList).outcome.1 = .ok img := by
    obtain ⟨whole, read⟩ := fileLines_endedText visible ends
    have filled := taken.filled
    rw [← same, ← read] at filled
    exact load_of_takes whole filled.of_filled drafted path
  have visible := visible_lines img
  refine ⟨lines img, format_eq_lines img, parse_of_takes taken drafted, loaded visible rfl, fun path ends => ?_,
    fun path => ?_⟩
  · -- The last line is empty, so a file that lacks its end lacks nothing else.
    obtain ⟨ls, split⟩ : ∃ ls, lines img = ls ++ [""] := ⟨_, rfl⟩
    have joined : joinedText ends (lines img) = endedText ends ls := by
      rw [joinedText, split, List.dropLast_concat, List.getLast?_concat]
      exact String.append_empty
    rw [joined]
    refine loaded (fun l member => visible l (by simp [split, member])) ?_ path ends
    simp [split, filled]
  · have nonempty : lines img ≠ [] := List.cons_ne_nil modelName _
    rw [fileText_eq_endedText nonempty]
    exact loaded visible rfl path _

end Transcription

end CalcImage
