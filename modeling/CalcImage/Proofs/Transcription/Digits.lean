import CalcImage.Proofs.Transcription.RoundTrip

/-!
# Digits of the CPU registers

The registers of the CPU are looked for anywhere in a line, and the last of the three is taken up to its fourteenth
digit, whatever follows. Here a line is cut at its tags into whole runs of digits (`Line.cpuRuns?`), and what it stores
is compared with them (`Line.ofText?_stored?`): only the run after the last tag can be longer than what is stored of it,
so digits are kept exactly where no run has more than fourteen (`keepsDigits_iff`).
-/

namespace CalcImage

open CalcImage.Text

theorem HexText.length_eq {count : Nat} (t : HexText count count) : t.text.toList.length = count :=
  Nat.le_antisymm t.le_most t.least_le

namespace Transcription

namespace Line

/-- The whole run of digits after a tag, and what follows the run. -/
def run? (tag : String) (cs : List Char) : Option (List Char × List Char) :=
  (after? tag.toList cs).map fun cs => (cs.takeWhile Hex.isDigit, cs.dropWhile Hex.isDigit)

/-- The runs of digits after three tags at the head of a text, each tag where the run before it ends. The first two have
fourteen digits, and the third has at least `least`. -/
def runsHere? (first second third : String) (least : Nat) (cs : List Char) : Option (List (List Char)) := do
  let (x, cs) ← run? first cs
  let (y, cs) ← run? second cs
  let (z, _) ← run? third cs
  if x.length = 14 ∧ y.length = 14 ∧ least ≤ z.length then some [x, y, z] else none

/-- The runs of digits after three tags at the first place of a text where there are some. -/
def runs? (first second third : String) (least : Nat) : List Char → Option (List (List Char))
  | [] => runsHere? first second third least []
  | c :: cs => (runsHere? first second third least (c :: cs)).or (runs? first second third least cs)

/-- The runs of digits of a line that has A, B and C, or else M, N and G somewhere in it. -/
def cpuRuns? (cs : List Char) : Option (List (List Char)) :=
  (runs? "A: " "  B: " "  C: " 14 cs).or (runs? "M: " "  N: " "  G: " 2 cs)

/-- The registers A, B and C that a line stores. -/
def abc? : Line → Option (HexText 14 14 × HexText 14 14 × HexText 14 14)
  | abc a b c => some (a, b, c)
  | _ => none

/-- The registers M, N and G that a line stores. -/
def mng? : Line → Option (HexText 14 14 × HexText 14 14 × HexText 2 14)
  | mng m n g => some (m, n, g)
  | _ => none

/-- The digits of three registers. -/
def digitsOf {least : Nat} : HexText 14 14 × HexText 14 14 × HexText least 14 → List (List Char)
  | (x, y, z) => [x.text.toList, y.text.toList, z.text.toList]

/-- The digits that a line stores of the CPU registers. -/
def stored? (line : Line) : Option (List (List Char)) := (line.abc?.map digitsOf).or (line.mng?.map digitsOf)

/-- Three fields at the head of a text. -/
def fields? (first second third : String) (least : Nat) (cs : List Char) :
    Option (HexText 14 14 × HexText 14 14 × HexText least 14) := do
  let (x, cs) ← field? first 14 14 cs
  let (y, cs) ← field? second 14 14 cs
  let (z, _) ← field? third least 14 cs
  return (x, y, z)

section Field

variable {least : Nat} {cs rest : List Char} {tag : String}

theorem ofString?_eq_some_iff {least most : Nat} {s : String} {t : HexText least most} :
    HexText.ofString? least most s = some t ↔ t.text = s := by
  constructor
  · intro made
    unfold HexText.ofString? at made
    split at made
    · cases made
      rfl
    · cases made
  · rintro rfl
    exact dif_pos ⟨t.digits, t.least_le, t.le_most⟩

/-- The digits of a run up to the fourteenth. -/
def upTo14 (cs : List Char) : List Char := (cs.takeWhile Hex.isDigit).take 14

theorem upTo14_append_drop (cs : List Char) : upTo14 cs ++ cs.drop (upTo14 cs).length = cs :=
  List.prefix_iff_eq_append.1 ((List.take_prefix _ _).trans (List.takeWhile_prefix _))

/-- The digits of a run are taken up to the fourteenth. -/
theorem hex?_eq_some_iff {t : HexText least 14} :
    hex? least 14 cs = some (t, rest) ↔ t.text.toList = upTo14 cs ∧ cs = t.text.toList ++ rest := by
  unfold hex?
  dsimp only
  rw [← List.take_takeWhile]
  change Option.map (fun t => (t, cs.drop (upTo14 cs).length)) (HexText.ofString? least 14 (String.ofList (upTo14 cs))) =
    some (t, rest) ↔ _
  constructor
  · intro found
    obtain ⟨t', made, pair⟩ := Option.map_eq_some_iff.1 found
    cases pair
    rw [ofString?_eq_some_iff.1 made, String.toList_ofList]
    exact ⟨rfl, (upTo14_append_drop cs).symm⟩
  · rintro ⟨digits, split⟩
    have made : HexText.ofString? least 14 (String.ofList (upTo14 cs)) = some t := by
      rw [ofString?_eq_some_iff, ← digits, String.ofList_toList]
    rw [digits] at split
    have after : cs.drop (upTo14 cs).length = rest := List.append_cancel_left ((upTo14_append_drop cs).trans split)
    rw [made, after]
    rfl

/-- A run of enough digits is found. -/
theorem exists_hex? (enough : least ≤ (cs.takeWhile Hex.isDigit).length) (small : least ≤ 14) :
    ∃ t rest, hex? least 14 cs = some (t, rest) := by
  have digits : (upTo14 cs).all Hex.isDigit = true :=
    List.all_eq_true.2 fun c member => List.all_eq_true.1 List.all_takeWhile c (List.mem_of_mem_take member)
  have long : least ≤ (upTo14 cs).length := by
    rw [upTo14, List.length_take]
    omega
  have text : (String.ofList (upTo14 cs)).toList = upTo14 cs := String.toList_ofList
  obtain ⟨t, same⟩ : ∃ t : HexText least 14, t.text.toList = upTo14 cs :=
    ⟨⟨_, text.symm ▸ digits, text.symm ▸ long, text.symm ▸ List.length_take_le _ _⟩, text⟩
  exact ⟨t, _, hex?_eq_some_iff.2 ⟨same, by rw [same, upTo14_append_drop]⟩⟩

theorem field?_eq_some_iff {t : HexText least 14} :
    field? tag least 14 cs = some (t, rest) ↔
      ∃ ds, after? tag.toList cs = some ds ∧ t.text.toList = upTo14 ds ∧ ds = t.text.toList ++ rest := by
  unfold field?
  rw [Option.bind_eq_bind, Option.bind_eq_some_iff]
  exact exists_congr fun ds => and_congr_right fun _ => hex?_eq_some_iff

/-- A field of fourteen digits with a space after it is a whole run. -/
theorem run?_of_field? {t : HexText 14 14} (found : field? tag 14 14 cs = some (t, ' ' :: rest)) :
    run? tag cs = some (t.text.toList, ' ' :: rest) := by
  obtain ⟨ds, after, -, split⟩ := field?_eq_some_iff.1 found
  have digits : ∀ c ∈ t.text.toList, Hex.isDigit c = true := List.all_eq_true.1 t.digits
  have space : ¬Hex.isDigit ' ' = true := by decide
  rw [run?, after, split, Option.map_some, List.takeWhile_append_of_pos digits, List.dropWhile_append_of_pos digits,
    List.takeWhile_cons_of_neg space, List.dropWhile_cons_of_neg space, List.append_nil]

/-- A run of enough digits is a field up to its fourteenth digit. -/
theorem field?_of_run? {run : List Char} (found : run? tag cs = some (run, rest)) (enough : least ≤ run.length)
    (small : least ≤ 14) :
    ∃ t : HexText least 14, field? tag least 14 cs = some (t, run.drop 14 ++ rest) := by
  obtain ⟨ds, after, pair⟩ := Option.map_eq_some_iff.1 found
  cases pair
  obtain ⟨t, left, read⟩ := exists_hex? enough small
  obtain ⟨digits, split⟩ := hex?_eq_some_iff.1 read
  have whole : t.text.toList ++ left =
      t.text.toList ++ ((ds.takeWhile Hex.isDigit).drop 14 ++ ds.dropWhile Hex.isDigit) := by
    rw [← split, digits, upTo14, ← List.append_assoc, List.take_append_drop, List.takeWhile_append_dropWhile]
  rw [← List.append_cancel_left whole]
  exact ⟨t, field?_eq_some_iff.2 ⟨ds, after, digits, split⟩⟩

end Field

section Fields

variable {first second third : String} {least : Nat} {cs : List Char}

theorem head_of_field? {tag : String} {most : Nat} {t : HexText least most} {rest : List Char}
    (spaced : ∃ s, tag.toList = ' ' :: s) (found : field? tag least most cs = some (t, rest)) : ∃ ds, cs = ' ' :: ds := by
  obtain ⟨s, tag⟩ := spaced
  obtain ⟨ds, after, -⟩ := Option.bind_eq_some_iff.1 found
  rw [tag] at after
  exact ⟨s ++ ds, eq_append_of_after? after⟩

/-- Three fields are two whole runs and the digits of a third one up to the fourteenth. -/
theorem runsHere?_of_fields? {x y : HexText 14 14} {z : HexText least 14} (second_ : ∃ s, second.toList = ' ' :: s)
    (third_ : ∃ s, third.toList = ' ' :: s) (found : fields? first second third least cs = some (x, y, z)) :
    ∃ run, runsHere? first second third least cs = some [x.text.toList, y.text.toList, run] ∧
      z.text.toList = run.take 14 := by
  simp only [fields?, Option.bind_eq_bind, Option.bind_eq_some_iff, Prod.exists] at found
  obtain ⟨x', rest, found₁, y', rest', found₂, z', rest'', found₃, values⟩ := found
  cases values
  obtain ⟨ds, rfl⟩ := head_of_field? second_ found₂
  obtain ⟨ds', rfl⟩ := head_of_field? third_ found₃
  obtain ⟨es, after, digits, -⟩ := field?_eq_some_iff.1 found₃
  have third_ : run? third (' ' :: ds') = some (es.takeWhile Hex.isDigit, es.dropWhile Hex.isDigit) := by
    rw [run?, after, Option.map_some]
  have enough : least ≤ (es.takeWhile Hex.isDigit).length := by
    have := z.least_le
    rw [digits, upTo14, List.length_take] at this
    omega
  refine ⟨es.takeWhile Hex.isDigit, ?_, digits⟩
  simp only [runsHere?, run?_of_field? found₁, run?_of_field? found₂, third_, Option.bind_eq_bind, Option.bind_some]
  rw [if_pos ⟨x.length_eq, y.length_eq, enough⟩]

theorem fields?_of_runsHere? {runs : List (List Char)} (small : least ≤ 14)
    (found : runsHere? first second third least cs = some runs) :
    ∃ x y z, fields? first second third least cs = some (x, y, z) := by
  simp only [runsHere?, Option.bind_eq_bind, Option.bind_eq_some_iff, Prod.exists] at found
  obtain ⟨xs, rest, run₁, ys, rest', run₂, zs, rest'', run₃, values⟩ := found
  split at values
  case isTrue lengths =>
    obtain ⟨first_, second_, third_⟩ := lengths
    obtain ⟨x, field₁⟩ := field?_of_run? run₁ (Nat.le_of_eq first_.symm) (Nat.le_refl 14)
    obtain ⟨y, field₂⟩ := field?_of_run? run₂ (Nat.le_of_eq second_.symm) (Nat.le_refl 14)
    obtain ⟨z, field₃⟩ := field?_of_run? run₃ third_ small
    rw [List.drop_eq_nil_of_le (Nat.le_of_eq first_), List.nil_append] at field₁
    rw [List.drop_eq_nil_of_le (Nat.le_of_eq second_), List.nil_append] at field₂
    refine ⟨x, y, z, ?_⟩
    simp only [fields?, field₁, field₂, field₃, Option.bind_eq_bind, Option.bind_some]
    rfl
  case isFalse => cases values

/-- What a search for three fields comes to: the runs of the first place that has some, the third one up to its fourteenth
digit. -/
theorem search?_cases {here? : List Char → Option Line} {line : HexText 14 14 × HexText 14 14 × HexText least 14 → Line}
    (second_ : ∃ s, second.toList = ' ' :: s) (third_ : ∃ s, third.toList = ' ' :: s) (small : least ≤ 14)
    (here : ∀ cs, here? cs = (fields? first second third least cs).map line) (cs : List Char) :
    (search? here? cs = none ∧ runs? first second third least cs = none) ∨
      ∃ x y z run, search? here? cs = some (line (x, y, z)) ∧
        runs? first second third least cs = some [x.text.toList, y.text.toList, run] ∧
        z.text.toList = run.take 14 := by
  have absent (cs : List Char) (unread : fields? first second third least cs = none) :
      runsHere? first second third least cs = none := by
    cases runs : runsHere? first second third least cs with
    | none => rfl
    | some rs =>
      obtain ⟨x, y, z, found⟩ := fields?_of_runsHere? small runs
      rw [unread] at found
      cases found
  induction cs with
  | nil =>
    cases found : fields? first second third least [] with
    | none => exact .inl ⟨by rw [search?, here, found]; rfl, absent [] found⟩
    | some fields =>
      obtain ⟨x, y, z⟩ := fields
      obtain ⟨run, runs, digits⟩ := runsHere?_of_fields? second_ third_ found
      exact .inr ⟨x, y, z, run, by rw [search?, here, found]; rfl, runs, digits⟩
  | cons c cs ih =>
    cases found : fields? first second third least (c :: cs) with
    | none =>
      rw [search?, here, found, runs?, absent _ found]
      exact ih
    | some fields =>
      obtain ⟨x, y, z⟩ := fields
      obtain ⟨run, runs, digits⟩ := runsHere?_of_fields? second_ third_ found
      exact .inr ⟨x, y, z, run, by rw [search?, here, found]; rfl, by rw [runs?, runs]; rfl, digits⟩

end Fields

section Kinds

variable {cs : List Char}

theorem abcHere?_eq (cs : List Char) :
    abcHere? cs = (fields? "A: " "  B: " "  C: " 14 cs).map fun v => .abc v.1 v.2.1 v.2.2 := by
  simp only [abcHere?, fields?, Option.bind_eq_bind, Option.map_bind, Function.comp_def]
  rfl

theorem mngHere?_eq (cs : List Char) :
    mngHere? cs = (fields? "M: " "  N: " "  G: " 2 cs).map fun v => .mng v.1 v.2.1 v.2.2 := by
  simp only [mngHere?, fields?, Option.bind_eq_bind, Option.map_bind, Function.comp_def]
  rfl

/-- The kinds of lines without tags store nothing. -/
theorem stored?_of_untagged {ws : List (List Char)} {line : Line}
    (known : (memory? ws).or ((model? ws).or (blank? ws)) = some line) : line.stored? = none := by
  rcases Option.or_eq_some_iff.1 known with memory | ⟨-, known⟩
  · unfold memory? at memory
    split at memory
    · split at memory
      · cases memory
        rfl
      · cases memory
    · cases memory
  · rcases Option.or_eq_some_iff.1 known with model | ⟨-, blank⟩
    · unfold model? at model
      split at model
      · split at model
        · cases model
          rfl
        · cases model
      · cases model
    · unfold blank? at blank
      split at blank
      · cases blank
        rfl
      · cases blank

/-- **What a line stores.** Of the runs of digits after the tags of a line the first two are stored whole, and the third
one up to its fourteenth digit. A line without such runs stores nothing. -/
theorem ofText?_stored? (cs : List Char) :
    (cpuRuns? cs = none ∧ ∀ line, ofText? cs = some line → line.stored? = none) ∨
      ∃ line x y z, ofText? cs = some line ∧ cpuRuns? cs = some [x, y, z] ∧ x.length = 14 ∧ y.length = 14 ∧
        line.stored? = some [x, y, z.take 14] := by
  rcases search?_cases ⟨_, rfl⟩ ⟨_, rfl⟩ (Nat.le_refl 14) abcHere?_eq cs with
    ⟨noLine, noRuns⟩ | ⟨x, y, z, run, found, runs, digits⟩
  · rcases search?_cases ⟨_, rfl⟩ ⟨_, rfl⟩ (by decide) mngHere?_eq cs with
      ⟨noLine', noRuns'⟩ | ⟨x, y, z, run, found, runs, digits⟩
    · refine .inl ⟨by rw [cpuRuns?, noRuns, noRuns']; rfl, ?_⟩
      intro line known
      unfold ofText? at known
      dsimp only at known
      rw [noLine, noLine', Option.none_or, Option.none_or] at known
      exact stored?_of_untagged known
    · refine .inr ⟨.mng x y z, x.text.toList, y.text.toList, run, ?_, by rw [cpuRuns?, noRuns, runs]; rfl,
        x.length_eq, y.length_eq, ?_⟩
      · unfold ofText?
        dsimp only
        rw [noLine, found, Option.none_or, Option.some_or]
      · rw [← digits]
        rfl
  · refine .inr ⟨.abc x y z, x.text.toList, y.text.toList, run, ?_, by rw [cpuRuns?, runs]; rfl, x.length_eq,
      y.length_eq, ?_⟩
    · unfold ofText?
      dsimp only
      rw [found, Option.some_or]
    · rw [← digits]
      rfl

/-- What a line stores of the CPU registers are its runs, the third one up to its fourteenth digit. -/
theorem cpuRuns?_of_stored? {line : Line} {values : List (List Char)} (known : ofText? cs = some line)
    (stored : line.stored? = some values) :
    ∃ x y z, cpuRuns? cs = some [x, y, z] ∧ x.length = 14 ∧ y.length = 14 ∧ values = [x, y, z.take 14] := by
  rcases ofText?_stored? cs with ⟨-, nothing⟩ | ⟨line', x, y, z, known', runs, first, second, digits⟩
  · rw [nothing line known] at stored
    cases stored
  · rw [known'] at known
    cases known
    rw [digits] at stored
    cases stored
    exact ⟨x, y, z, runs, first, second, rfl⟩

end Kinds

end Line

section Lines

variable {raws : List (List Char)}

/-- What the last of the lines that say something has said. -/
def lastSaid {α : Type} (said? : Line → Option α) (raws : List (List Char)) : Option α :=
  (raws.filterMap fun raw => (Line.ofText? (dropLineEnd raw)).bind said?).getLast?

/-- Every CPU register that a line stores is the whole run of digits after its tag. -/
def KeepsDigits (raws : List (List Char)) : Prop :=
  ∀ raw ∈ raws, ∀ line values, Line.ofText? (dropLineEnd raw) = some line → line.stored? = some values →
    Line.cpuRuns? (dropLineEnd raw) = some values

theorem lastSaid_cons {α : Type} (said? : Line → Option α) (raw : List Char) (raws : List (List Char)) :
    lastSaid said? (raw :: raws) = (lastSaid said? raws).or ((Line.ofText? (dropLineEnd raw)).bind said?) := by
  unfold lastSaid
  cases said : (Line.ofText? (dropLineEnd raw)).bind said? with
  | none => simp only [List.filterMap_cons, said, Option.or_none]
  | some a =>
    simp only [List.filterMap_cons, said, List.getLast?_cons]
    cases (raws.filterMap fun raw => (Line.ofText? (dropLineEnd raw)).bind said?).getLast? <;> rfl

namespace Draft

variable {d d' : Draft} {number : Nat}

/-- A line of memory stores its registers and leaves the rest. -/
theorem stored_of_apply {first : Nat} {registers : List String}
    (applied : d.apply number (.memory first registers) = .ok d') :
    ∃ image, storeAll d.image first registers = .ok image ∧ d' = { d with image } := by
  unfold apply at applied
  dsimp only at applied
  split at applied
  · cases applied
  · cases stored : storeAll d.image first registers with
    | error f =>
      rw [stored] at applied
      cases applied
    | ok image =>
      rw [stored] at applied
      cases applied
      exact ⟨image, rfl, rfl⟩

/-- A line leaves the CPU registers that it does not store as they were. -/
theorem cpu_of_apply {line : Line} (applied : d.apply number line = .ok d') :
    d'.abc = line.abc?.or d.abc ∧ d'.mng = line.mng?.or d.mng := by
  cases line with
  | abc a b c =>
    cases applied
    exact ⟨rfl, rfl⟩
  | mng m n g =>
    cases applied
    exact ⟨rfl, rfl⟩
  | memory first registers =>
    obtain ⟨image, -, rfl⟩ := stored_of_apply applied
    exact ⟨rfl, rfl⟩
  | model name =>
    cases applied
    exact ⟨rfl, rfl⟩
  | blank =>
    cases applied
    exact ⟨rfl, rfl⟩

/-- A part of the draft becomes what a line says of it. After all lines the last one that has said something counts. -/
theorem said_of_takeAll {α : Type} {said? : Line → Option α} {part : Draft → Option α}
    (step : ∀ {d d' : Draft} {number : Nat} {line : Line}, d.apply number line = .ok d' →
      part d' = (said? line).or (part d))
    (taken : d.takeAll number raws = .ok d') : part d' = (lastSaid said? raws).or (part d) := by
  induction raws generalizing d number with
  | nil =>
    cases taken
    rfl
  | cons raw raws ih =>
    rw [takeAll] at taken
    cases line : Line.ofText? (dropLineEnd raw) with
    | none =>
      rw [take, line] at taken
      cases taken
    | some line' =>
      rw [take, line] at taken
      dsimp only at taken
      cases applied : d.apply number line' with
      | error f =>
        rw [applied] at taken
        cases taken
      | ok between =>
        rw [applied] at taken
        rw [ih taken, step applied, lastSaid_cons, line, Option.bind_some, Option.or_assoc]

/-- After all lines the last one that has stored registers counts. -/
theorem cpu_of_takeAll (taken : d.takeAll number raws = .ok d') :
    d'.abc = (lastSaid Line.abc? raws).or d.abc ∧ d'.mng = (lastSaid Line.mng? raws).or d.mng :=
  ⟨said_of_takeAll (fun applied => (cpu_of_apply applied).1) taken,
    said_of_takeAll (fun applied => (cpu_of_apply applied).2) taken⟩

end Draft

theorem cpu_of_image? {d : Draft} {img : Image} (drafted : d.image? = .ok img) : img.cpu = d.cpu := by
  unfold Draft.image? at drafted
  split at drafted
  · cases drafted
  · split at drafted
    · cases drafted
      rfl
    · cases drafted

/-- An image that is read is that of a draft of all lines. -/
theorem draft_of_parse {img : Image} (read : (parse raws).outcome.1 = .ok img) :
    ∃ d, Draft.empty.takeAll 1 raws = .ok d ∧ d.image? = .ok img := by
  rw [outcome_parse] at read
  cases taken : Draft.empty.takeAll 1 raws with
  | error f =>
    rw [taken] at read
    cases read
  | ok d =>
    rw [taken] at read
    exact ⟨d, rfl, read⟩

/-- Digits are kept when no run is longer than what is stored of it. -/
theorem keepsDigits_of_short
    (short : ∀ raw ∈ raws, ∀ runs, Line.cpuRuns? (dropLineEnd raw) = some runs → ∀ run ∈ runs, run.length ≤ 14) :
    KeepsDigits raws := by
  intro raw member line values known stored
  obtain ⟨x, y, z, runs, -, -, rfl⟩ := Line.cpuRuns?_of_stored? known stored
  have fits := short raw member _ runs z (by simp)
  rw [runs, List.take_of_length_le fits]

/-- A longer run is not kept. -/
theorem short_of_keepsDigits (keeps : KeepsDigits raws) {raw : List Char} (member : raw ∈ raws)
    {runs : List (List Char)} (here : Line.cpuRuns? (dropLineEnd raw) = some runs) :
    ∀ run ∈ runs, run.length ≤ 14 := by
  intro run inside
  rcases Line.ofText?_stored? (dropLineEnd raw) with ⟨nothing, -⟩ | ⟨line, x, y, z, known, here', first, second, digits⟩
  · rw [nothing] at here
    cases here
  · have whole := keeps raw member line _ known digits
    rw [here'] at here whole
    cases here
    have last : z = z.take 14 := by simpa using whole
    have short : z.length ≤ 14 := by
      rw [last]
      exact List.length_take_le _ _
    simp only [List.mem_cons, List.not_mem_nil, or_false] at inside
    rcases inside with rfl | rfl | rfl
    · exact Nat.le_of_eq first
    · exact Nat.le_of_eq second
    · exact short

/-- **Digits of the CPU registers.** In lines that are read as an image the CPU registers are kept digit by digit exactly
when no run of digits after one of their tags is longer than fourteen. The first two registers of a line are always
kept, the third one up to its fourteenth digit; and of the lines that store registers the last one counts. -/
theorem keepsDigits_iff {img : Image} (read : (parse raws).outcome.1 = .ok img) :
    (KeepsDigits raws ↔
      ∀ raw ∈ raws, ∀ runs, Line.cpuRuns? (dropLineEnd raw) = some runs → ∀ run ∈ runs, run.length ≤ 14) ∧
    (∀ raw ∈ raws, ∀ line values, Line.ofText? (dropLineEnd raw) = some line → line.stored? = some values →
      ∃ x y z, Line.cpuRuns? (dropLineEnd raw) = some [x, y, z] ∧ x.length = 14 ∧ y.length = 14 ∧
        values = [x, y, z.take 14]) ∧
    (img.cpu.a, img.cpu.b, img.cpu.c) =
      (lastSaid Line.abc? raws).getD (Cpu.zeroText, Cpu.zeroText, Cpu.zeroText) ∧
    (img.cpu.m, img.cpu.n, img.cpu.g) =
      (lastSaid Line.mng? raws).getD (Cpu.zeroText, Cpu.zeroText, Cpu.zeroFlags) := by
  obtain ⟨d, taken, drafted⟩ := draft_of_parse read
  obtain ⟨abc, mng⟩ := Draft.cpu_of_takeAll taken
  refine ⟨⟨?_, keepsDigits_of_short⟩, ?_, ?_, ?_⟩
  · intro keeps raw member runs here
    exact short_of_keepsDigits keeps member here
  · intro raw _ line values known stored
    exact Line.cpuRuns?_of_stored? known stored
  · rw [cpu_of_image? drafted, Draft.cpu, abc, Draft.empty, Option.or_none]
  · rw [cpu_of_image? drafted, Draft.cpu, mng, Draft.empty, Option.or_none]

/-- Registers, the last of which has fifteen digits. -/
def longText : String := "A: 00000000000001  B: 00000000000002  C: 0000000000000cd"

/-- A transcription with these registers. -/
def longLines : List (List Char) := [modelName.toList, longText.toList]

/-- What is stored of the register A. -/
def longA : HexText 14 14 := ⟨"00000000000001", by decide, by decide, by decide⟩

/-- What is stored of the register B. -/
def longB : HexText 14 14 := ⟨"00000000000002", by decide, by decide, by decide⟩

/-- What is stored of the register C, which has fifteen digits. -/
def longC : HexText 14 14 := ⟨"0000000000000c", by decide, by decide, by decide⟩

theorem visible_longText : Line.Visible longText.toList := by decide

theorem ofText?_longText : Line.ofText? longText.toList = some (.abc longA longB longC) := by
  have text : longText.toList =
      ("A: " ++ longA.text ++ "  B: " ++ longB.text ++ "  C: " ++ longC.text).toList ++ ['d'] := by decide
  rw [text]
  exact Line.ofText?_abc_append longA longB longC ['d']

theorem parse_longLines : ∃ img, (parse longLines).outcome.1 = .ok img := by
  have model : Draft.Takes .empty [modelName.toList] ⟨Image.zero, some modelName, none, none⟩ :=
    .line (by decide) Line.ofText?_model fun _ => rfl
  have cpu : Draft.Takes ⟨Image.zero, some modelName, none, none⟩ [longText.toList]
      ⟨Image.zero, some modelName, some (longA, longB, longC), none⟩ :=
    .line visible_longText ofText?_longText fun _ => rfl
  exact ⟨_, parse_of_takes (model.append cpu) rfl⟩

/-- These lines are read, and the register is taken from its fourteen digits. -/
theorem keepsDigits_iff_longLines :
    ∃ img, (parse longLines).outcome.1 = .ok img ∧
      (KeepsDigits longLines ↔
        ∀ raw ∈ longLines, ∀ runs, Line.cpuRuns? (dropLineEnd raw) = some runs → ∀ run ∈ runs, run.length ≤ 14) ∧
      (img.cpu.a, img.cpu.b, img.cpu.c) =
        (lastSaid Line.abc? longLines).getD (Cpu.zeroText, Cpu.zeroText, Cpu.zeroText) := by
  obtain ⟨img, read⟩ := parse_longLines
  have digits := keepsDigits_iff read
  exact ⟨img, read, digits.1, digits.2.2.1⟩

/-- **A digit is lost.** A register with fifteen digits is read as one with fourteen. -/
theorem digit_lost : ∃ img, (parse longLines).outcome.1 = .ok img ∧ ¬KeepsDigits longLines := by
  obtain ⟨img, read⟩ := parse_longLines
  refine ⟨img, read, ?_⟩
  intro keeps
  have member : longText.toList ∈ longLines := List.mem_cons_of_mem _ List.mem_cons_self
  have known := ofText?_longText
  rw [← Draft.dropLineEnd_of_visible visible_longText] at known
  have whole := keeps _ member _ _ known rfl
  rw [Draft.dropLineEnd_of_visible visible_longText] at whole
  revert whole
  decide

end Lines

end Transcription

end CalcImage
