import CalcImage.Proofs.Transcription.Digits

/-!
# The grammar of lines

What a line is depends on what stands in it: three CPU registers with their tags at some place, or its words
(`Line.Reads`). The registers are those of the first place where there are some, and the digits after the last tag are
taken as far as they go, up to fourteen; this is the place that the search finds (`search?_eq_some_iff`). A line of a
later kind has none of the registers of an earlier kind in it. Every line is read as the grammar says, and no other line
is read (`ofText?_eq_some_iff`).
-/

namespace CalcImage.Transcription.Line

open CalcImage.Text

/-- Three registers, each after its tag. -/
def fieldsText (first second third : String) {least : Nat} (v : HexText 14 14 × HexText 14 14 × HexText least 14) :
    List Char :=
  (first ++ v.1.text ++ second ++ v.2.1.text ++ third ++ v.2.2.text).toList

/-- The registers A, B and C as a line has them. -/
def abcText : HexText 14 14 × HexText 14 14 × HexText 14 14 → List Char := fieldsText "A: " "  B: " "  C: "

/-- The registers M, N and G as a line has them. -/
def mngText : HexText 14 14 × HexText 14 14 × HexText 2 14 → List Char := fieldsText "M: " "  N: " "  G: "

/-- A text of this form stands somewhere in a line. -/
def Occurs {α : Type} (text : α → List Char) (cs : List Char) : Prop :=
  ∃ before v after, cs = before ++ (text v ++ after)

/-- The first place where a text of this form stands in a line. -/
structure FirstAt {α : Type} (text : α → List Char) (cs before : List Char) (v : α) (after : List Char) : Prop where
  here : cs = before ++ (text v ++ after)
  first : ∀ before' v' after', cs = before' ++ (text v' ++ after') → before.length ≤ before'.length

/-- A register before a text has all digits that it can have. -/
def Complete {least : Nat} (z : HexText least 14) (after : List Char) : Prop :=
  z.text.toList.length = 14 ∨ ∀ c ∈ after.head?, Hex.isDigit c = false

/-- How a line is read, of which the line end has been taken off. -/
inductive Reads (cs : List Char) : Line → Prop where
  | abc {a b c : HexText 14 14} {before after : List Char} (place : FirstAt abcText cs before (a, b, c) after) :
      Reads cs (.abc a b c)
  | mng {m n : HexText 14 14} {g : HexText 2 14} {before after : List Char} (noAbc : ¬Occurs abcText cs)
      (place : FirstAt mngText cs before (m, n, g) after) (complete : Complete g after) : Reads cs (.mng m n g)
  | memory {number : List Char} {registers : List (List Char)} (noAbc : ¬Occurs abcText cs) (noMng : ¬Occurs mngText cs)
      (words : Worded cs (number :: registers)) (four : registers.length = 4)
      (digits : ∀ w ∈ number :: registers, w.all Hex.isDigit = true) (short : number.length ≤ 3) :
      Reads cs (.memory (Hex.toNat number) (registers.map String.ofList))
  | model {x y : Char} (noAbc : ¬Occurs abcText cs) (noMng : ¬Occurs mngText cs) (word : Worded cs [['D', 'M', x, y]])
      (tens : '0' ≤ x ∧ x ≤ '9') (ones : '0' ≤ y ∧ y ≤ '9') : Reads cs (.model (String.ofList ['D', 'M', x, y]))
  | blank (noAbc : ¬Occurs abcText cs) (noMng : ¬Occurs mngText cs) (empty : Worded cs []) : Reads cs .blank

section Field

variable {least : Nat} {cs rest after : List Char} {tag : String}

theorem complete_of_wide (t : HexText 14 14) (after : List Char) : Complete t after := .inl t.length_eq

/-- A register is what is taken of the digits before a text when it has all that it can have. -/
theorem upTo14_append_iff (t : HexText least 14) :
    t.text.toList = upTo14 (t.text.toList ++ after) ↔ Complete t after := by
  have digits : ∀ c ∈ t.text.toList, Hex.isDigit c = true := List.all_eq_true.1 t.digits
  rw [upTo14, List.takeWhile_append_of_pos digits]
  constructor
  · intro same
    cases after with
    | nil => exact .inr fun c head => absurd head (by simp)
    | cons c after =>
      by_cases digit : Hex.isDigit c = true
      · have length := congrArg List.length same
        rw [List.takeWhile_cons_of_pos digit, List.length_take, List.length_append, List.length_cons] at length
        exact .inl (by omega)
      · refine .inr fun d head => ?_
        cases head
        exact Bool.eq_false_iff.2 digit
  · rintro (full | stop)
    · exact (List.take_left' full).symm
    · have noDigits : after.takeWhile Hex.isDigit = [] := by
        cases after with
        | nil => rfl
        | cons c after => exact List.takeWhile_cons_of_neg (by rw [stop c rfl]; exact Bool.false_ne_true)
      rw [noDigits, List.append_nil, List.take_of_length_le t.le_most]

/-- A field is its tag, and a register that has all digits that it can have. -/
theorem field?_iff {t : HexText least 14} :
    field? tag least 14 cs = some (t, rest) ↔ cs = tag.toList ++ (t.text.toList ++ rest) ∧ Complete t rest := by
  rw [field?_eq_some_iff]
  constructor
  · rintro ⟨ds, found, digits, split⟩
    rw [split] at digits found
    exact ⟨eq_append_of_after? found, (upTo14_append_iff t).1 digits⟩
  · rintro ⟨rfl, complete⟩
    exact ⟨_, after?_append _ _, (upTo14_append_iff t).2 complete, rfl⟩

end Field

section Fields

variable {first second third : String} {least : Nat} {cs : List Char}

theorem fieldsText_append (v : HexText 14 14 × HexText 14 14 × HexText least 14) (after : List Char) :
    fieldsText first second third v ++ after =
      first.toList ++ (v.1.text.toList ++ (second.toList ++ (v.2.1.text.toList ++
        (third.toList ++ (v.2.2.text.toList ++ after))))) := by
  simp only [fieldsText, String.toList_append, List.append_assoc]

/-- Three fields are three registers with their tags, the last of which has all digits that it can have. -/
theorem fields?_eq_some_iff {v : HexText 14 14 × HexText 14 14 × HexText least 14} :
    fields? first second third least cs = some v ↔
      ∃ after, cs = fieldsText first second third v ++ after ∧ Complete v.2.2 after := by
  obtain ⟨x, y, z⟩ := v
  constructor
  · intro found
    simp only [fields?, Option.bind_eq_bind, Option.bind_eq_some_iff, Prod.exists] at found
    obtain ⟨x', rest, found₁, y', rest', found₂, z', rest'', found₃, values⟩ := found
    cases values
    obtain ⟨rfl, -⟩ := field?_iff.1 found₁
    obtain ⟨rfl, -⟩ := field?_iff.1 found₂
    obtain ⟨rfl, complete⟩ := field?_iff.1 found₃
    refine ⟨rest'', ?_, complete⟩
    rw [fieldsText_append]
  · rintro ⟨after, rfl, complete⟩
    have last : field? third least 14 (third.toList ++ (z.text.toList ++ after)) = some (z, after) :=
      field?_iff.2 ⟨rfl, complete⟩
    rw [fieldsText_append]
    simp only [fields?, field?_wide, last, Option.bind_eq_bind, Option.bind_some]
    rfl

/-- Where there are three registers with their tags, the last one can be taken with all digits that it can have. -/
theorem exists_fields? (small : least ≤ 14) (v : HexText 14 14 × HexText 14 14 × HexText least 14) (after : List Char) :
    ∃ v', fields? first second third least (fieldsText first second third v ++ after) = some v' := by
  have digits : ∀ c ∈ v.2.2.text.toList, Hex.isDigit c = true := List.all_eq_true.1 v.2.2.digits
  have enough : least ≤ ((v.2.2.text.toList ++ after).takeWhile Hex.isDigit).length := by
    have := v.2.2.least_le
    rw [List.takeWhile_append_of_pos digits, List.length_append]
    omega
  obtain ⟨z, rest, read⟩ := exists_hex? enough small
  have last : field? third least 14 (third.toList ++ (v.2.2.text.toList ++ after)) = some (z, rest) := by
    rw [field?, after?_append, Option.bind_eq_bind, Option.bind_some, read]
  refine ⟨(v.1, v.2.1, z), ?_⟩
  rw [fieldsText_append]
  simp only [fields?, field?_wide, last, Option.bind_eq_bind, Option.bind_some]
  rfl

end Fields

section Search

variable {here? : List Char → Option Line} {cs : List Char} {line : Line}

theorem search?_eq_none_iff : search? here? cs = none ↔ ∀ before after, cs = before ++ after → here? after = none := by
  constructor
  · intro absent before after split
    subst split
    induction before with
    | nil =>
      cases found : here? after with
      | none => rfl
      | some line => rw [List.nil_append, search?_of_here found] at absent; cases absent
    | cons c before ih =>
      rw [List.cons_append, search?, Option.or_eq_none_iff] at absent
      exact ih absent.2
  · intro absent
    induction cs with
    | nil => exact absent [] [] rfl
    | cons c cs ih =>
      rw [search?_cons (absent [] _ rfl)]
      exact ih fun before after split => absent (c :: before) after (congrArg (c :: ·) split)

/-- A search finds what stands at the first place that has something. -/
theorem search?_eq_some_iff : search? here? cs = some line ↔
    ∃ before after, cs = before ++ after ∧ here? after = some line ∧
      ∀ before' after', cs = before' ++ after' → before'.length < before.length → here? after' = none := by
  constructor
  · intro found
    induction cs with
    | nil => exact ⟨[], [], rfl, found, fun _ _ _ shorter => absurd shorter (Nat.not_lt_zero _)⟩
    | cons c cs ih =>
      rw [search?, Option.or_eq_some_iff] at found
      rcases found with here | ⟨absent, later⟩
      · exact ⟨[], c :: cs, rfl, here, fun _ _ _ shorter => absurd shorter (Nat.not_lt_zero _)⟩
      · obtain ⟨before, after, rfl, here, first⟩ := ih later
        refine ⟨c :: before, after, rfl, here, ?_⟩
        intro before' after' split shorter
        cases before' with
        | nil =>
          rw [List.nil_append] at split
          rw [← split]
          exact absent
        | cons d before' =>
          obtain ⟨-, split⟩ := List.cons.inj split
          exact first before' after' split (Nat.lt_of_succ_lt_succ shorter)
  · rintro ⟨before, after, rfl, here, first⟩
    induction before with
    | nil => exact search?_of_here here
    | cons c before ih =>
      have absent : here? (c :: (before ++ after)) = none := first [] _ rfl (Nat.succ_pos _)
      rw [List.cons_append, search?_cons absent]
      exact ih fun before' after' split shorter =>
        first (c :: before') after' (congrArg (c :: ·) split) (Nat.succ_lt_succ shorter)

variable {first second third : String} {least : Nat} {made : HexText 14 14 × HexText 14 14 × HexText least 14 → Line}

/-- Nothing is found when there are no registers with these tags. -/
theorem search?_fields_eq_none_iff (small : least ≤ 14)
    (fields : ∀ cs, here? cs = (fields? first second third least cs).map made) :
    search? here? cs = none ↔ ¬Occurs (@fieldsText first second third least) cs := by
  rw [search?_eq_none_iff]
  constructor
  · rintro absent ⟨before, v, after, split⟩
    obtain ⟨v', found⟩ := exists_fields? small v after
    have nothing := absent before _ split
    rw [fields, found] at nothing
    cases nothing
  · intro absent before after split
    rw [fields]
    cases found : fields? first second third least after with
    | none => rfl
    | some v =>
      obtain ⟨rest, here, -⟩ := fields?_eq_some_iff.1 found
      exact absurd ⟨before, v, rest, here ▸ split⟩ absent

/-- What is found are the registers of the first place that has some. -/
theorem search?_fields_eq_some_iff (small : least ≤ 14)
    (fields : ∀ cs, here? cs = (fields? first second third least cs).map made) :
    search? here? cs = some line ↔
      ∃ before v after, FirstAt (fieldsText first second third) cs before v after ∧ Complete v.2.2 after ∧
        made v = line := by
  rw [search?_eq_some_iff]
  constructor
  · rintro ⟨before, after, split, here, first⟩
    rw [fields] at here
    obtain ⟨v, found, rfl⟩ := Option.map_eq_some_iff.1 here
    obtain ⟨rest, text, complete⟩ := fields?_eq_some_iff.1 found
    refine ⟨before, v, rest, ⟨text ▸ split, ?_⟩, complete, rfl⟩
    intro before' v' after' split'
    apply Nat.le_of_not_lt
    intro shorter
    obtain ⟨v'', found'⟩ := exists_fields? small v' after'
    have nothing := first before' _ split' shorter
    rw [fields, found'] at nothing
    cases nothing
  · rintro ⟨before, v, after, ⟨split, first⟩, complete, rfl⟩
    refine ⟨before, _, split, ?_, ?_⟩
    · rw [fields, fields?_eq_some_iff.2 ⟨after, rfl, complete⟩]
      rfl
    · intro before' after' split' shorter
      rw [fields]
      cases found : fields? _ _ _ least after' with
      | none => rfl
      | some v' =>
        obtain ⟨rest, here, -⟩ := fields?_eq_some_iff.1 found
        exact absurd shorter (Nat.not_lt_of_le (first before' v' rest (here ▸ split')))

end Search

section Kinds

variable {ws : List (List Char)} {cs : List Char} {line : Line}

theorem abc_eq_none_iff : search? abcHere? cs = none ↔ ¬Occurs abcText cs :=
  search?_fields_eq_none_iff (Nat.le_refl 14) abcHere?_eq

theorem mng_eq_none_iff : search? mngHere? cs = none ↔ ¬Occurs mngText cs :=
  search?_fields_eq_none_iff (by decide) mngHere?_eq

theorem abc_eq_some_iff : search? abcHere? cs = some line ↔
    ∃ before a b c after, FirstAt abcText cs before (a, b, c) after ∧ line = .abc a b c := by
  rw [search?_fields_eq_some_iff (Nat.le_refl 14) abcHere?_eq]
  constructor
  · rintro ⟨before, ⟨a, b, c⟩, after, place, -, rfl⟩
    exact ⟨before, a, b, c, after, place, rfl⟩
  · rintro ⟨before, a, b, c, after, place, rfl⟩
    exact ⟨before, (a, b, c), after, place, complete_of_wide c after, rfl⟩

theorem mng_eq_some_iff : search? mngHere? cs = some line ↔
    ∃ before m n g after, FirstAt mngText cs before (m, n, g) after ∧ Complete g after ∧ line = .mng m n g := by
  rw [search?_fields_eq_some_iff (by decide) mngHere?_eq]
  constructor
  · rintro ⟨before, ⟨m, n, g⟩, after, place, complete, rfl⟩
    exact ⟨before, m, n, g, after, place, complete, rfl⟩
  · rintro ⟨before, m, n, g, after, place, complete, rfl⟩
    exact ⟨before, (m, n, g), after, place, complete, rfl⟩

theorem memory?_eq_some_iff : memory? ws = some line ↔
    ∃ number registers, ws = number :: registers ∧ registers.length = 4 ∧
      (∀ w ∈ number :: registers, w.all Hex.isDigit = true) ∧ number.length ≤ 3 ∧
      line = .memory (Hex.toNat number) (registers.map String.ofList) := by
  cases ws with
  | nil =>
    constructor
    · intro found
      cases found
    · rintro ⟨number, registers, words, -⟩
      cases words
  | cons number registers =>
    rw [memory?]
    constructor
    · intro found
      split at found
      case isTrue kind =>
        cases found
        exact ⟨number, registers, rfl, kind.1, List.all_eq_true.1 kind.2.1, kind.2.2, rfl⟩
      case isFalse => cases found
    · rintro ⟨_, _, words, four, digits, short, rfl⟩
      cases words
      exact if_pos ⟨four, List.all_eq_true.2 digits, short⟩

theorem model?_eq_some_iff : model? ws = some line ↔
    ∃ x y, ws = [['D', 'M', x, y]] ∧ ('0' ≤ x ∧ x ≤ '9') ∧ ('0' ≤ y ∧ y ≤ '9') ∧
      line = .model (String.ofList ['D', 'M', x, y]) := by
  constructor
  · intro found
    unfold model? at found
    split at found
    case h_1 x y =>
      split at found
      case isTrue digits =>
        cases found
        simp only [isAsciiDigit, Bool.and_eq_true, decide_eq_true_eq] at digits
        exact ⟨x, y, rfl, digits.1, digits.2, rfl⟩
      case isFalse => cases found
    case h_2 => cases found
  · rintro ⟨x, y, rfl, tens, ones, rfl⟩
    exact if_pos (by simp only [isAsciiDigit, tens, ones, decide_true, Bool.and_self])

theorem blank?_eq_some_iff : blank? ws = some line ↔ ws = [] ∧ line = .blank := by
  unfold blank?
  constructor
  · intro found
    split at found
    case isTrue empty =>
      cases found
      exact ⟨List.isEmpty_iff.1 empty, rfl⟩
    case isFalse => cases found
  · rintro ⟨rfl, rfl⟩
    rfl

/-- **The grammar.** A line is read exactly as the grammar says. -/
theorem ofText?_eq_some_iff : ofText? cs = some line ↔ Reads cs line := by
  have parts : ofText? cs = (search? abcHere? cs).or ((search? mngHere? cs).or
      ((memory? (words cs)).or ((model? (words cs)).or (blank? (words cs))))) := rfl
  constructor
  · intro known
    rw [parts, Option.or_eq_some_iff] at known
    rcases known with abc | ⟨noAbc, known⟩
    · obtain ⟨before, a, b, c, after, place, rfl⟩ := abc_eq_some_iff.1 abc
      exact .abc place
    rw [abc_eq_none_iff] at noAbc
    rw [Option.or_eq_some_iff] at known
    rcases known with mng | ⟨noMng, known⟩
    · obtain ⟨before, m, n, g, after, place, complete, rfl⟩ := mng_eq_some_iff.1 mng
      exact .mng noAbc place complete
    rw [mng_eq_none_iff] at noMng
    rw [Option.or_eq_some_iff, Option.or_eq_some_iff] at known
    rcases known with memory | ⟨-, model | ⟨-, blank⟩⟩
    · obtain ⟨number, registers, split, four, digits, short, rfl⟩ := memory?_eq_some_iff.1 memory
      exact .memory noAbc noMng (words_eq_iff.1 split) four digits short
    · obtain ⟨x, y, split, tens, ones, rfl⟩ := model?_eq_some_iff.1 model
      exact .model noAbc noMng (words_eq_iff.1 split) tens ones
    · obtain ⟨split, rfl⟩ := blank?_eq_some_iff.1 blank
      exact .blank noAbc noMng (words_eq_iff.1 split)
  · intro reads
    rw [parts]
    cases reads with
    | abc place =>
      rw [abc_eq_some_iff.2 ⟨_, _, _, _, _, place, rfl⟩]
      rfl
    | mng noAbc place complete =>
      rw [abc_eq_none_iff.2 noAbc, mng_eq_some_iff.2 ⟨_, _, _, _, _, place, complete, rfl⟩]
      rfl
    | memory noAbc noMng split four digits short =>
      rw [abc_eq_none_iff.2 noAbc, mng_eq_none_iff.2 noMng,
        memory?_eq_some_iff.2 ⟨_, _, words_eq_iff.2 split, four, digits, short, rfl⟩]
      rfl
    | @model x y noAbc noMng split tens ones =>
      -- One word is no line of memory, which has five.
      have other : memory? (words cs) = none := by rw [words_eq_iff.2 split]; rfl
      rw [abc_eq_none_iff.2 noAbc, mng_eq_none_iff.2 noMng, other,
        model?_eq_some_iff.2 ⟨x, y, words_eq_iff.2 split, tens, ones, rfl⟩]
      rfl
    | blank noAbc noMng split =>
      rw [abc_eq_none_iff.2 noAbc, mng_eq_none_iff.2 noMng, words_eq_iff.2 split]
      rfl

end Kinds

end CalcImage.Transcription.Line
