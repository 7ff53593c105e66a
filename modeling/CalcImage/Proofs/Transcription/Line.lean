import CalcImage.Proofs.Text.Lines
import CalcImage.Proofs.Text.Words
import CalcImage.Transcription.Basic

/-!
# The kinds of written lines

Each line that is written is of the kind that it is meant to be when it is read: the name of the model, four
registers, and the two lines of the CPU registers. The patterns are tried in order, so for a line of a later kind it
is shown that the earlier ones find nothing: their tags hold a colon, and a colon stands only after the letter of a
register.
-/

namespace CalcImage.Transcription.Line

open CalcImage.Text

section Field

variable {least most : Nat}

theorem after?_append (tag rest : List Char) : after? tag (tag ++ rest) = some rest := by
  induction tag with
  | nil => rfl
  | cons c tag ih => rw [List.cons_append, after?, if_pos rfl, ih]

theorem eq_append_of_after? {tag cs rest : List Char} (found : after? tag cs = some rest) : cs = tag ++ rest := by
  induction tag generalizing cs with
  | nil => exact Option.some.inj found
  | cons e tag ih =>
    cases cs with
    | nil => cases found
    | cons c cs =>
      rw [after?] at found
      split at found
      · rename_i same
        rw [ih found, same]
        rfl
      · cases found

/-- A text of digits is read back where no more digits are asked for, or none follow. -/
theorem hex?_text (t : HexText least most) {rest : List Char} (stop : t.text.toList.length = most ∨ rest = []) :
    hex? least most (t.text.toList ++ rest) = some (t, rest) := by
  have taken : ((t.text.toList ++ rest).take most).takeWhile Hex.isDigit = t.text.toList := by
    have first : (t.text.toList ++ rest).take most = t.text.toList := by
      rcases stop with full | rfl
      · exact List.take_left' full
      · rw [List.append_nil, List.take_of_length_le t.le_most]
    have digits : (t.text.toList ++ []).takeWhile Hex.isDigit = t.text.toList ++ [] :=
      List.takeWhile_append_of_pos (List.all_eq_true.1 t.digits)
    rw [List.append_nil] at digits
    rw [first, digits]
  have whole : HexText.ofString? least most t.text = some t := dif_pos ⟨t.digits, t.least_le, t.le_most⟩
  unfold hex?
  dsimp only
  rw [taken, String.ofList_toList, whole, List.drop_left]
  rfl

theorem field?_text (tag : String) (t : HexText least most) {rest : List Char}
    (stop : t.text.toList.length = most ∨ rest = []) :
    field? tag least most (tag.toList ++ (t.text.toList ++ rest)) = some (t, rest) := by
  unfold field?
  rw [after?_append]
  exact hex?_text t stop

/-- A register of fourteen digits. -/
theorem field?_wide (tag : String) (t : HexText 14 14) (rest : List Char) :
    field? tag 14 14 (tag.toList ++ (t.text.toList ++ rest)) = some (t, rest) :=
  field?_text tag t (.inl (Nat.le_antisymm t.le_most t.least_le))

end Field

section Search

/-- Whatever is found begins with the letter and a colon. -/
def Tagged (letter : Char) (here? : List Char → Option Line) : Prop :=
  ∀ cs line, here? cs = some line → ∃ rest, cs = letter :: ':' :: rest

theorem tagged_abcHere? : Tagged 'A' abcHere? := by
  intro cs line found
  unfold abcHere? field? at found
  cases after : after? "A: ".toList cs with
  | none => rw [after] at found; cases found
  | some rest => exact ⟨_, eq_append_of_after? after⟩

theorem tagged_mngHere? : Tagged 'M' mngHere? := by
  intro cs line found
  unfold mngHere? field? at found
  cases after : after? "M: ".toList cs with
  | none => rw [after] at found; cases found
  | some rest => exact ⟨_, eq_append_of_after? after⟩

variable {letter : Char} {here? : List Char → Option Line}

theorem search?_of_here {cs : List Char} {line : Line} (found : here? cs = some line) :
    search? here? cs = some line := by
  cases cs with
  | nil => exact found
  | cons c cs => rw [search?, found]; rfl

theorem search?_cons {c : Char} {cs : List Char} (absent : here? (c :: cs) = none) :
    search? here? (c :: cs) = search? here? cs := by
  rw [search?, absent]
  rfl

/-- Without a colon nothing is found. -/
theorem search?_eq_none (tagged : Tagged letter here?) {cs : List Char} (plain : ':' ∉ cs) :
    search? here? cs = none := by
  have absent {cs : List Char} (plain : ':' ∉ cs) : here? cs = none := by
    cases found : here? cs with
    | none => rfl
    | some line =>
      obtain ⟨rest, rfl⟩ := tagged cs line found
      simp at plain
  induction cs with
  | nil => exact absent plain
  | cons c cs ih => rw [search?_cons (absent plain), ih (List.not_mem_of_not_mem_cons plain)]

/-- A colon after another letter is passed over. -/
theorem search?_colon (tagged : Tagged letter here?) (proper : letter ≠ ':') {cs : List Char} {c : Char}
    (plain : ':' ∉ cs) (colon : c ≠ ':') (other : c ≠ letter) (rest : List Char) :
    search? here? (cs ++ c :: ':' :: rest) = search? here? rest := by
  have absent {c : Char} {cs : List Char} (untagged : c ≠ letter ∨ cs.head? ≠ some ':') : here? (c :: cs) = none := by
    cases found : here? (c :: cs) with
    | none => rfl
    | some line =>
      obtain ⟨rest, parts⟩ := tagged _ line found
      obtain ⟨rfl, rfl⟩ := List.cons.inj parts
      rcases untagged with untagged | untagged
      · exact absurd rfl untagged
      · exact absurd rfl untagged
  induction cs with
  | nil => rw [List.nil_append, search?_cons (absent (.inl other)), search?_cons (absent (.inl proper.symm))]
  | cons d cs ih =>
    have next : (cs ++ c :: ':' :: rest).head? ≠ some ':' := by
      cases cs with
      | nil => exact fun same => colon (Option.some.inj same)
      | cons e cs =>
        intro same
        obtain rfl := Option.some.inj same
        simp at plain
    rw [List.cons_append, search?_cons (absent (.inr next)), ih (List.not_mem_of_not_mem_cons plain)]

end Search

section Kinds

theorem colon_not_mem {cs : List Char} (digits : cs.all Hex.isDigit = true) : ':' ∉ cs := by
  intro member
  have digit := List.all_eq_true.1 digits ':' member
  revert digit
  decide

/-- The line of the name of the model. -/
theorem ofText?_model : ofText? modelName.toList = some (.model modelName) := by
  decide

/-- A text that begins with the registers A, B and C is their line, whatever follows. -/
theorem ofText?_abc_append (a b c : HexText 14 14) (rest : List Char) :
    ofText? (("A: " ++ a.text ++ "  B: " ++ b.text ++ "  C: " ++ c.text).toList ++ rest) = some (.abc a b c) := by
  have parts : ("A: " ++ a.text ++ "  B: " ++ b.text ++ "  C: " ++ c.text).toList ++ rest =
      "A: ".toList ++ (a.text.toList ++ ("  B: ".toList ++ (b.text.toList ++
        ("  C: ".toList ++ (c.text.toList ++ rest))))) := by
    simp only [String.toList_append, List.append_assoc]
  have here : abcHere? (("A: " ++ a.text ++ "  B: " ++ b.text ++ "  C: " ++ c.text).toList ++ rest) =
      some (.abc a b c) := by
    rw [parts]
    unfold abcHere?
    simp only [field?_wide, Option.bind_eq_bind, Option.bind_some]
    rfl
  unfold ofText?
  dsimp only
  rw [search?_of_here here]
  rfl

/-- The line of the registers A, B and C. -/
theorem ofText?_abc (a b c : HexText 14 14) :
    ofText? ("A: " ++ a.text ++ "  B: " ++ b.text ++ "  C: " ++ c.text).toList = some (.abc a b c) := by
  rw [← List.append_nil ("A: " ++ a.text ++ "  B: " ++ b.text ++ "  C: " ++ c.text).toList]
  exact ofText?_abc_append a b c []

/-- The line of the registers M, N and G. -/
theorem ofText?_mng (m n : HexText 14 14) (g : HexText 2 14) :
    ofText? ("M: " ++ m.text ++ "  N: " ++ n.text ++ "  G: " ++ g.text).toList = some (.mng m n g) := by
  have parts : ("M: " ++ m.text ++ "  N: " ++ n.text ++ "  G: " ++ g.text).toList =
      "M: ".toList ++ (m.text.toList ++ ("  N: ".toList ++ (n.text.toList ++
        ("  G: ".toList ++ (g.text.toList ++ []))))) := by
    simp only [String.toList_append, List.append_assoc, List.append_nil]
  have here : mngHere? ("M: " ++ m.text ++ "  N: " ++ n.text ++ "  G: " ++ g.text).toList = some (.mng m n g) := by
    rw [parts]
    unfold mngHere?
    simp only [field?_wide, field?_text _ g (.inr rfl), Option.bind_eq_bind, Option.bind_some]
    rfl
  have absent : search? abcHere? ("M: " ++ m.text ++ "  N: " ++ n.text ++ "  G: " ++ g.text).toList = none := by
    have segments : ("M: " ++ m.text ++ "  N: " ++ n.text ++ "  G: " ++ g.text).toList =
        [] ++ 'M' :: ':' :: ((' ' :: m.text.toList ++ [' ', ' ']) ++ 'N' :: ':' ::
          ((' ' :: n.text.toList ++ [' ', ' ']) ++ 'G' :: ':' :: (' ' :: g.text.toList))) := by
      rw [parts]
      simp
    have column {l w : Nat} (t : HexText l w) : ':' ∉ ' ' :: t.text.toList ++ [' ', ' '] := by
      simp [colon_not_mem t.digits]
    rw [segments, search?_colon tagged_abcHere? (by decide) List.not_mem_nil (by decide) (by decide),
      search?_colon tagged_abcHere? (by decide) (column m) (by decide) (by decide),
      search?_colon tagged_abcHere? (by decide) (column n) (by decide) (by decide)]
    exact search?_eq_none tagged_abcHere? (by simp [colon_not_mem g.digits])
  unfold ofText?
  dsimp only
  rw [absent, search?_of_here here]
  rfl

/-- Words of hexadecimal digits in columns, each with two spaces after it. -/
def columns (ws : List (List Char)) : List Char := ws.flatMap (· ++ [' ', ' '])

theorem words_columns {ws : List (List Char)} (digits : ∀ w ∈ ws, w.all Hex.isDigit = true ∧ w ≠ []) :
    words (columns ws) = ws := by
  induction ws with
  | nil => rfl
  | cons w ws ih =>
    obtain ⟨here, nonempty⟩ := digits w List.mem_cons_self
    have parts : columns (w :: ws) = w ++ ' ' :: ' ' :: columns ws := by simp [columns]
    rw [parts, words_column (Hex.solid_of_isDigit here) nonempty,
      ih fun v member => digits v (List.mem_cons_of_mem w member)]

theorem colon_not_mem_columns {ws : List (List Char)} (digits : ∀ w ∈ ws, w.all Hex.isDigit = true ∧ w ≠ []) :
    ':' ∉ columns ws := by
  intro member
  obtain ⟨w, inside, here⟩ := List.mem_flatMap.1 member
  have := colon_not_mem (digits w inside).1
  simp [this] at here

/-- The columns of a line of memory: the number of the first register and the bytes of four. -/
def memoryWords (img : Image) (first : Nat) : List (List Char) :=
  Hex.ofNatPadded 2 first :: (List.range 4).map fun k => Hex.ofBytes (img.registerAt (first + k))

theorem toList_memoryLine (img : Image) (first : Nat) :
    (memoryLine img first).toList = columns (memoryWords img first) := by
  unfold memoryLine joined columns memoryWords
  simp [show List.range 4 = [0, 1, 2, 3] from rfl]

theorem isDigit_memoryWords (img : Image) (first : Nat) :
    ∀ w ∈ memoryWords img first, w.all Hex.isDigit = true ∧ w ≠ [] := by
  intro w member
  rcases List.mem_cons.1 member with rfl | member
  · exact ⟨Hex.isDigit_ofNatPadded 2 first, Hex.ofNatPadded_ne_nil 2 first⟩
  · obtain ⟨k, -, rfl⟩ := List.mem_map.1 member
    exact ⟨Hex.isDigit_ofBytes _, List.cons_ne_nil _ _⟩

/-- A line of memory. -/
theorem ofText?_memory (img : Image) {first : Nat} (small : first < 0x1000) :
    ofText? (memoryLine img first).toList =
      some (.memory first ((List.range 4).map fun k => String.ofList (Hex.ofBytes (img.registerAt (first + k))))) := by
  have digits := isDigit_memoryWords img first
  have plain := colon_not_mem_columns digits
  have memory : memory? (memoryWords img first) =
      some (.memory first ((List.range 4).map fun k => String.ofList (Hex.ofBytes (img.registerAt (first + k))))) := by
    have short : (Hex.ofNatPadded 2 first).length ≤ 3 := Hex.length_ofNatPadded_le (by decide) (by decide) small
    have all : (memoryWords img first).all (·.all Hex.isDigit) = true :=
      List.all_eq_true.2 fun w member => (digits w member).1
    unfold memory?
    rw [memoryWords] at all ⊢
    dsimp only
    rw [if_pos ⟨by rw [List.length_map, List.length_range], all, short⟩, Hex.toNat_ofNatPadded, List.map_map]
    rfl
  rw [toList_memoryLine]
  unfold ofText?
  dsimp only
  rw [words_columns digits, search?_eq_none tagged_abcHere? plain, search?_eq_none tagged_mngHere? plain, memory]
  rfl

end Kinds

section Visible

/-- The text has printable ASCII characters only. -/
def Visible (cs : List Char) : Prop := ∀ c ∈ cs, 0x20 ≤ c.toNat ∧ c.toNat < 0x80

instance (cs : List Char) : Decidable (Visible cs) := List.decidableBAll _ cs

theorem Visible.append {cs ds : List Char} (first : Visible cs) (second : Visible ds) : Visible (cs ++ ds) := by
  intro c member
  rcases List.mem_append.1 member with member | member
  · exact first c member
  · exact second c member

theorem Visible.oneLine {cs : List Char} (visible : Visible cs) : OneLine cs := by
  intro c member
  have here := visible c member
  constructor
  · rintro rfl
    exact absurd here (by decide)
  · rintro rfl
    exact absurd here (by decide)

theorem visible_of_isDigit {cs : List Char} (digits : cs.all Hex.isDigit = true) : Visible cs := by
  intro c member
  have range := Hex.range_of_isDigit (List.all_eq_true.1 digits c member)
  omega

theorem visible_memoryLine (img : Image) (first : Nat) : Visible (memoryLine img first).toList := by
  rw [toList_memoryLine]
  intro c member
  obtain ⟨w, inside, here⟩ := List.mem_flatMap.1 member
  have digits : Visible w := visible_of_isDigit (isDigit_memoryWords img first w inside).1
  have column : Visible (w ++ [' ', ' ']) := digits.append (by decide)
  exact column c here

theorem visible_cpuLines (cpu : Cpu) : ∀ l ∈ cpuLines cpu, Visible l.toList := by
  have field {least most : Nat} {before tag : List Char} (first : Visible before) (visible : Visible tag)
      (t : HexText least most) : Visible (before ++ tag ++ t.text.toList) :=
    (first.append visible).append (visible_of_isDigit t.digits)
  have first {least most : Nat} {tag : List Char} (visible : Visible tag) (t : HexText least most) :
      Visible (tag ++ t.text.toList) := visible.append (visible_of_isDigit t.digits)
  intro l member
  simp only [cpuLines, List.mem_cons, List.not_mem_nil, or_false] at member
  rcases member with rfl | rfl
  · simp only [String.toList_append]
    exact field (field (first (by decide) _) (by decide) _) (by decide) _
  · simp only [String.toList_append]
    exact field (field (first (by decide) _) (by decide) _) (by decide) _

/-- All lines of an image are visible. -/
theorem visible_lines (img : Image) : ∀ l ∈ lines img, Visible l.toList := by
  intro l member
  simp only [lines, List.cons_append, List.mem_cons, List.mem_append, List.not_mem_nil, or_false] at member
  rcases member with rfl | (member | member) | rfl
  · decide
  · obtain ⟨g, -, line⟩ := List.mem_filterMap.1 member
    split at line
    · cases line
    · obtain rfl := Option.some.inj line
      exact visible_memoryLine img _
  · exact visible_cpuLines img.cpu l member
  · decide

end Visible

end CalcImage.Transcription.Line
