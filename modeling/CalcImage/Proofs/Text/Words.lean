import Mathlib.Algebra.Group.Nat.Defs
import CalcImage.Text.Blank
import CalcImage.Text.Hex

/-!
# Words and hexadecimal digits

A text falls into words at every blank character (`words_append_blank`), and hexadecimal digits are never blank, so
columns of digits are read back word by word (`words_column`). A number that is written in digits is read back with
zeros in front of it or without (`toNat_ofNatPadded`).

The words of a text are also told by a pattern: a gap that may be empty, a word, then gaps that are not empty and words
in turn, and a gap at the end. A text fits it in one way only, which is the way it is cut (`words_eq_iff`).
-/

namespace CalcImage.Text

/-- A text without blank characters. -/
def Solid (cs : List Char) : Prop := ∀ c ∈ cs, isBlank c = false

/-- A text of blank characters. -/
def Gap (cs : List Char) : Prop := ∀ c ∈ cs, isBlank c = true

/-- Words with a gap before each of them that is not empty, and a gap at the end. -/
inductive Spaced : List Char → List (List Char) → Prop where
  | last {gap : List Char} (blank : Gap gap) : Spaced gap []
  | word {gap w cs : List Char} {ws : List (List Char)} (apart : gap ≠ []) (blank : Gap gap) (filled : w ≠ [])
      (solid : Solid w) (rest : Spaced cs ws) : Spaced (gap ++ (w ++ cs)) (w :: ws)

/-- A gap, or words with gaps between them and at both ends. -/
inductive Worded : List Char → List (List Char) → Prop where
  | blank {gap : List Char} (blank : Gap gap) : Worded gap []
  | words {gap w cs : List Char} {ws : List (List Char)} (blank : Gap gap) (filled : w ≠ []) (solid : Solid w)
      (rest : Spaced cs ws) : Worded (gap ++ (w ++ cs)) (w :: ws)

section Words

variable {w : List Char}

theorem consWord_append (w : List Char) (ws vs : List (List Char)) : consWord w (ws ++ vs) = consWord w ws ++ vs := by
  unfold consWord
  split <;> rfl

theorem cutWord_append_blank {c : Char} (blank : isBlank c = true) (w cs : List Char) :
    cutWord (w ++ c :: cs) = ((cutWord w).1, (cutWord w).2 ++ words cs) := by
  induction w with
  | nil => simp [cutWord, blank, words]
  | cons d w ih =>
    rw [List.cons_append, cutWord, ih, cutWord]
    by_cases first : isBlank d = true
    · simp only [first, if_pos, consWord_append]
    · simp only [first, if_neg, Bool.false_eq_true, not_false_eq_true]

/-- Words do not go over a blank character. -/
theorem words_append_blank {c : Char} (blank : isBlank c = true) (w cs : List Char) :
    words (w ++ c :: cs) = words w ++ words cs := by
  change consWord (cutWord (w ++ c :: cs)).1 (cutWord (w ++ c :: cs)).2 = _
  rw [cutWord_append_blank blank, consWord_append]
  rfl

theorem words_blank_cons {c : Char} (blank : isBlank c = true) (cs : List Char) : words (c :: cs) = words cs :=
  words_append_blank blank [] cs

theorem words_of_solid (solid : Solid w) (nonempty : w ≠ []) : words w = [w] := by
  have whole : cutWord w = (w, []) := by
    clear nonempty
    induction w with
    | nil => rfl
    | cons c w ih =>
      have rest := ih fun d member => solid d (List.mem_cons_of_mem c member)
      have here := solid c List.mem_cons_self
      rw [cutWord, rest]
      simp only [here, Bool.false_eq_true, if_false]
  change consWord (cutWord w).1 (cutWord w).2 = _
  rw [whole]
  exact if_neg (by rw [List.isEmpty_iff]; exact nonempty)

/-- A word with two spaces after it. -/
theorem words_column (solid : Solid w) (nonempty : w ≠ []) (cs : List Char) :
    words (w ++ ' ' :: ' ' :: cs) = w :: words cs := by
  rw [words_append_blank rfl, words_blank_cons rfl, words_of_solid solid nonempty]
  rfl

end Words

section Pattern

variable {c : Char} {w cs gap : List Char} {ws : List (List Char)}

theorem gap_nil : Gap [] := fun _ member => absurd member List.not_mem_nil

theorem Gap.cons (blank : isBlank c = true) (gap : Gap cs) : Gap (c :: cs) := by
  intro d member
  rcases List.mem_cons.1 member with rfl | later
  · exact blank
  · exact gap d later

theorem Spaced.worded (spaced : Spaced cs ws) : Worded cs ws := by
  cases spaced with
  | last blank => exact .blank blank
  | word _ blank filled solid rest => exact .words blank filled solid rest

/-- After a blank character the first word has a gap before it. -/
theorem Worded.spaced_cons (blank : isBlank c = true) (worded : Worded cs ws) : Spaced (c :: cs) ws := by
  cases worded with
  | blank gap => exact .last (gap.cons blank)
  | words gap filled solid rest => exact .word (List.cons_ne_nil _ _) (gap.cons blank) filled solid rest

theorem worded_consWord (solid : Solid w) (rest : Spaced cs ws) : Worded (w ++ cs) (consWord w ws) := by
  unfold consWord
  split
  case isTrue empty =>
    rw [List.isEmpty_iff.1 empty]
    exact rest.worded
  case isFalse filled =>
    exact .words gap_nil (fun empty => filled (List.isEmpty_iff.2 empty)) solid rest

/-- Cutting takes a text off up to its first blank character, and leaves the words after it. -/
theorem cutWord_spaced (cs : List Char) :
    Solid (cutWord cs).1 ∧ ∃ rest, cs = (cutWord cs).1 ++ rest ∧ Spaced rest (cutWord cs).2 := by
  induction cs with
  | nil =>
    exact ⟨fun c member => absurd member List.not_mem_nil, [], rfl, .last gap_nil⟩
  | cons c cs ih =>
    obtain ⟨solid, rest, split, spaced⟩ := ih
    cases first : isBlank c with
    | true =>
      have cut : cutWord (c :: cs) = ([], consWord (cutWord cs).1 (cutWord cs).2) := by
        rw [cutWord, first]
        rfl
      have after : Worded cs (consWord (cutWord cs).1 (cutWord cs).2) := by
        have worded := worded_consWord solid spaced
        rwa [← split] at worded
      rw [cut]
      exact ⟨fun c member => absurd member List.not_mem_nil, c :: cs, rfl, after.spaced_cons first⟩
    | false =>
      have cut : cutWord (c :: cs) = (c :: (cutWord cs).1, (cutWord cs).2) := by
        rw [cutWord, first]
        rfl
      rw [cut]
      refine ⟨?_, rest, congrArg (c :: ·) split, spaced⟩
      intro d member
      rcases List.mem_cons.1 member with rfl | later
      · exact first
      · exact solid d later

theorem worded_words (cs : List Char) : Worded cs (words cs) := by
  obtain ⟨solid, rest, split, spaced⟩ := cutWord_spaced cs
  have worded := worded_consWord solid spaced
  rwa [← split] at worded

theorem words_gap_append (blank : Gap gap) (cs : List Char) : words (gap ++ cs) = words cs := by
  induction gap with
  | nil => rfl
  | cons c gap ih =>
    rw [List.cons_append, words_blank_cons (blank c List.mem_cons_self),
      ih fun d member => blank d (List.mem_cons_of_mem c member)]

theorem words_of_gap (blank : Gap gap) : words gap = [] := by
  rw [← List.append_nil gap, words_gap_append blank]
  rfl

/-- Before spaced words another text keeps its own words. -/
theorem Spaced.words_append (spaced : Spaced cs ws) (w : List Char) : words (w ++ cs) = words w ++ ws := by
  induction spaced generalizing w with
  | @last gap blank =>
    cases gap with
    | nil => rw [List.append_nil, List.append_nil]
    | cons c gap =>
      rw [words_append_blank (blank c List.mem_cons_self),
        words_of_gap fun d member => blank d (List.mem_cons_of_mem c member)]
  | @word gap v cs ws apart blank filled solid rest ih =>
    cases gap with
    | nil => exact absurd rfl apart
    | cons c gap =>
      rw [List.cons_append, words_append_blank (blank c List.mem_cons_self),
        words_gap_append fun d member => blank d (List.mem_cons_of_mem c member), ih, words_of_solid solid filled]
      rfl

/-- **Words.** A text is cut into the words with which it fits the pattern. -/
theorem words_eq_iff : words cs = ws ↔ Worded cs ws := by
  constructor
  · rintro rfl
    exact worded_words cs
  · intro worded
    cases worded with
    | blank gap => exact words_of_gap gap
    | words blank filled solid rest =>
      rw [words_gap_append blank, rest.words_append, words_of_solid solid filled]
      rfl

end Pattern

namespace Hex

/-- Digits and the letters from A to F in either case. -/
theorem range_of_isDigit {c : Char} (digit : isDigit c = true) :
    0x30 ≤ c.toNat ∧ c.toNat ≤ 0x39 ∨ 0x41 ≤ c.toNat ∧ c.toNat ≤ 0x46 ∨ 0x61 ≤ c.toNat ∧ c.toNat ≤ 0x66 := by
  unfold isDigit value? at digit
  dsimp only at digit
  split at digit
  · exact .inl ‹_›
  · split at digit
    · exact .inr (.inl ‹_›)
    · split at digit
      · exact .inr (.inr ‹_›)
      · cases digit

theorem isBlank_of_isDigit {c : Char} (digit : isDigit c = true) : isBlank c = false := by
  have range := range_of_isDigit digit
  unfold isBlank
  dsimp only
  simp only [Bool.or_eq_false_iff, Bool.and_eq_false_iff, decide_eq_false_iff_not, beq_eq_false_iff_ne, ne_eq]
  omega

theorem solid_of_isDigit {cs : List Char} (digits : cs.all isDigit = true) : Solid cs :=
  fun c member => isBlank_of_isDigit (List.all_eq_true.1 digits c member)

@[simp] theorem isDigit_ofBytes (bs : List UInt8) : (ofBytes bs).all isDigit = true := by
  induction bs with
  | nil => rfl
  | cons b bs ih =>
    have := b.toNat_lt
    rw [ofBytes, List.all_cons, List.all_cons, ih, isDigit_digit (by omega), isDigit_digit (by omega)]
    rfl

theorem value?_digitChar {n : Nat} (h : n < 16) : value? n.digitChar = some n := by
  have all : ∀ k ∈ List.range 16, value? k.digitChar = some k := by decide
  exact all n (List.mem_range.2 h)

theorem isDigit_ofNat (n : Nat) : (ofNat n).all isDigit = true := by
  induction n using Nat.strongRecOn with
  | ind n ih =>
    rw [ofNat, Nat.toDigits_eq_if (by decide)]
    split
    · rw [List.all_cons, isDigit, value?_digitChar ‹_›]
      rfl
    · have := ih (n / 16) (by omega)
      rw [List.all_append, ← ofNat, this, List.all_cons, isDigit, value?_digitChar (Nat.mod_lt n (by decide))]
      rfl

theorem toNat_concat (cs : List Char) (c : Char) : toNat (cs ++ [c]) = 16 * toNat cs + (value? c).getD 0 := by
  unfold toNat
  rw [List.foldl_append]
  rfl

theorem toNat_ofNat (n : Nat) : toNat (ofNat n) = n := by
  induction n using Nat.strongRecOn with
  | ind n ih =>
    rw [ofNat, Nat.toDigits_eq_if (by decide)]
    split
    · unfold toNat
      rw [List.foldl_cons, List.foldl_nil, value?_digitChar ‹_›, Option.getD_some]
      omega
    · rw [toNat_concat, ← ofNat, ih (n / 16) (by omega), value?_digitChar (Nat.mod_lt n (by decide)), Option.getD_some]
      omega

theorem toNat_zeros_append (count : Nat) (cs : List Char) : toNat (List.replicate count '0' ++ cs) = toNat cs := by
  induction count with
  | zero => rfl
  | succ count ih => exact ih

section Padded

variable (width n : Nat)

@[simp] theorem toNat_ofNatPadded : toNat (ofNatPadded width n) = n := by
  rw [ofNatPadded, toNat_zeros_append, toNat_ofNat]

@[simp] theorem isDigit_ofNatPadded : (ofNatPadded width n).all isDigit = true := by
  rw [ofNatPadded, List.all_append, isDigit_ofNat, Bool.and_true, List.all_eq_true]
  intro c member
  rw [List.eq_of_mem_replicate member]
  rfl

theorem ofNatPadded_ne_nil : ofNatPadded width n ≠ [] :=
  List.append_ne_nil_of_right_ne_nil _ Nat.toDigits_ne_nil

variable {width n}

theorem length_ofNatPadded_le {most : Nat} (pos : 0 < most) (narrow : width ≤ most) (small : n < 16 ^ most) :
    (ofNatPadded width n).length ≤ most := by
  have digits : (ofNat n).length ≤ most := (Nat.length_toDigits_le_iff (by decide) pos).2 small
  simp only [ofNatPadded, List.length_append, List.length_replicate]
  omega

end Padded

end Hex

end CalcImage.Text
