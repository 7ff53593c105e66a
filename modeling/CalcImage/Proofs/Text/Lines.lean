import CalcImage.Text.Lines

/-!
# Texts of ended lines

A text is made by giving each line an end, one of three. Cut at its line ends such a text gives the lines back, but for
empty ones: a carriage return before an empty line that has a line feed for its end is taken for one end with it. So the
statement is about the lines that are not empty (`filled_lines_endLines`). A line without its end is what stands before
all line ends at its end (`dropLineEnd_eq_iff`).
-/

namespace CalcImage.Text

/-- The ends of a line. -/
inductive LineEnd where
  | feed
  | carriage
  | both
  deriving DecidableEq, Repr

/-- The characters of a line end. -/
def LineEnd.chars : LineEnd → List Char
  | feed => ['\n']
  | carriage => ['\r']
  | both => ['\r', '\n']

/-- The text of lines that have ends of their own; the first one is line `number`. -/
def endLines (ends : Nat → LineEnd) (number : Nat) : List (List Char) → List Char
  | [] => []
  | l :: ls => l ++ (ends number).chars ++ endLines ends (number + 1) ls

/-- The text has no line end. -/
def OneLine (cs : List Char) : Prop := ∀ c ∈ cs, c ≠ '\n' ∧ c ≠ '\r'

/-- The lines that are not empty. -/
def filled (ls : List (List Char)) : List (List Char) := ls.filter (!·.isEmpty)

/-- All pieces of a text. -/
def allPieces (cs : List Char) : List (List Char) := (pieces cs).1 :: (pieces cs).2

@[simp] theorem filled_cons_nil (ls : List (List Char)) : filled ([] :: ls) = filled ls := rfl

theorem filled_cons_congr {ls ls' : List (List Char)} (same : filled ls = filled ls') (l : List Char) :
    filled (l :: ls) = filled (l :: ls') := by
  unfold filled at same ⊢
  rw [List.filter_cons, List.filter_cons, same]

/-- `cs` is left of a line when the line ends at its end are taken off. -/
structure Stripped (raw cs : List Char) : Prop where
  ends : ∃ es, raw = cs ++ es ∧ ∀ c ∈ es, c = '\n' ∨ c = '\r'
  last : ∀ c ∈ cs.getLast?, ¬(c = '\n' ∨ c = '\r')

theorem stripped_dropLineEnd (raw : List Char) : Stripped raw (dropLineEnd raw) := by
  constructor
  case ends =>
    refine ⟨(raw.reverse.takeWhile fun c => c = '\n' ∨ c = '\r').reverse, ?_, ?_⟩
    · rw [dropLineEnd, ← List.reverse_append, List.takeWhile_append_dropWhile, List.reverse_reverse]
    · intro c member
      simpa using List.all_eq_true.1 List.all_takeWhile c (List.mem_reverse.1 member)
  case last =>
    intro c last
    rw [dropLineEnd, List.getLast?_reverse] at last
    have stays := List.head?_dropWhile_not (fun c => decide (c = '\n' ∨ c = '\r')) raw.reverse
    rw [last] at stays
    simpa using stays

theorem dropLineEnd_eq_iff {raw cs : List Char} : dropLineEnd raw = cs ↔ Stripped raw cs := by
  constructor
  · rintro rfl
    exact stripped_dropLineEnd raw
  · rintro ⟨⟨es, rfl, ends⟩, last⟩
    have here : cs.reverse.dropWhile (fun c => decide (c = '\n' ∨ c = '\r')) = cs.reverse := by
      rw [← List.head?_reverse] at last
      cases reversed : cs.reverse with
      | nil => rfl
      | cons c rest =>
        rw [reversed] at last
        exact List.dropWhile_cons_of_neg (by simpa using last c rfl)
    rw [dropLineEnd, List.reverse_append, List.dropWhile_append_of_pos, here, List.reverse_reverse]
    intro c member
    simpa using ends c (List.mem_reverse.1 member)

section Pieces

variable {l : List Char}

theorem pieces_feed (cs : List Char) : pieces ('\n' :: cs) = ([], allPieces cs) := by
  simp [pieces, allPieces]

theorem pieces_both (cs : List Char) : pieces ('\r' :: '\n' :: cs) = ([], allPieces cs) := by
  simp [pieces, allPieces]

theorem pieces_carriage {cs : List Char} (other : cs.head? ≠ some '\n') : pieces ('\r' :: cs) = ([], allPieces cs) := by
  cases cs with
  | nil => rfl
  | cons c cs =>
    have different : c ≠ '\n' := fun same => other (by rw [same]; rfl)
    simp [pieces, allPieces, different]

/-- A text without line ends is the beginning of a piece. -/
theorem pieces_append (one : OneLine l) (cs : List Char) :
    pieces (l ++ cs) = (l ++ (pieces cs).1, (pieces cs).2) := by
  induction l with
  | nil => rfl
  | cons c l ih =>
    have here := one c List.mem_cons_self
    have rest := ih fun d member => one d (List.mem_cons_of_mem c member)
    rw [List.cons_append, pieces, rest]
    · simp [here]
    · intro _ carriage
      exact absurd carriage here.2

/-- A line end ends a piece. What it leaves are the pieces after it, or the same but an empty one. -/
theorem pieces_end (e : LineEnd) (cs : List Char) :
    (pieces (e.chars ++ cs)).1 = [] ∧ filled (pieces (e.chars ++ cs)).2 = filled (allPieces cs) := by
  cases e with
  | feed =>
    change (pieces ('\n' :: cs)).1 = [] ∧ filled (pieces ('\n' :: cs)).2 = _
    rw [pieces_feed]
    exact ⟨rfl, rfl⟩
  | both =>
    change (pieces ('\r' :: '\n' :: cs)).1 = [] ∧ filled (pieces ('\r' :: '\n' :: cs)).2 = _
    rw [pieces_both]
    exact ⟨rfl, rfl⟩
  | carriage =>
    change (pieces ('\r' :: cs)).1 = [] ∧ filled (pieces ('\r' :: cs)).2 = _
    by_cases merged : cs.head? = some '\n'
    · obtain ⟨cs, rfl⟩ := List.head?_eq_some_iff.1 merged
      have apart : allPieces ('\n' :: cs) = [] :: allPieces cs := by rw [allPieces, pieces_feed]
      rw [pieces_both, apart, filled_cons_nil]
      exact ⟨rfl, rfl⟩
    · rw [pieces_carriage merged]
      exact ⟨rfl, rfl⟩

end Pieces

/-- The last piece is a line when it is not empty, so the lines that are not empty are the pieces that are not. -/
theorem filled_lines (cs : List Char) : filled (lines cs) = filled (allPieces cs) := by
  have whole : (allPieces cs).dropLast ++ [(allPieces cs).getLast (List.cons_ne_nil _ _)] = allPieces cs :=
    List.dropLast_concat_getLast _
  change filled ((allPieces cs).dropLast ++ if ((allPieces cs).getLast _).isEmpty then [] else [_]) = _
  unfold filled
  rw [← congrArg (List.filter _) whole, List.filter_append, List.filter_append]
  split
  · rename_i empty
    rw [List.filter_cons_of_neg (by simp [empty])]
  · rfl

/-- Lines that were given ends are read back, whichever ends they have. -/
theorem filled_lines_endLines {ls : List (List Char)} (one : ∀ l ∈ ls, OneLine l) (ends : Nat → LineEnd)
    (number : Nat) :
    filled (lines (endLines ends number ls)) = filled ls := by
  rw [filled_lines]
  induction ls generalizing number with
  | nil => rfl
  | cons l ls ih =>
    obtain ⟨ended, after⟩ := pieces_end (ends number) (endLines ends (number + 1) ls)
    rw [endLines, List.append_assoc, allPieces, pieces_append (one l List.mem_cons_self), ended, List.append_nil]
    exact filled_cons_congr (after.trans (ih (fun k member => one k (List.mem_cons_of_mem l member)) _)) l

end CalcImage.Text
