import CalcImage.File.Store

/-!
# What paths lead to after a place was written

Writing changes what stands at one place and nothing else (`Files.lookup_write_self`, `Files.lookup_write_of_ne`). The
place that a path leads to as one that can be written is never that of a directory, so no directory goes away by it. The
path leads to the written file afterwards, by the same directories (`Files.target_write`).
-/

namespace CalcImage.Files

variable {fs : Files} {place other dir names : List String} {bytes : List UInt8} {path : Path}

/-- What is taken away at one place is still there at the others. -/
theorem lookup_filter_ne {nodes : List (List String × Node)} (ne : other ≠ place) :
    (nodes.filter fun n => n.1 != place).lookup other = nodes.lookup other := by
  induction nodes with
  | nil => rfl
  | cons n nodes ih =>
    obtain ⟨key, node⟩ := n
    rw [List.filter_cons]
    by_cases this : key = place
    · subst this
      have differs : (other == key) = false := beq_eq_false_iff_ne.2 ne
      rw [if_neg (by simp), ih, List.lookup_cons, differs]
    · rw [if_pos (by simpa using this), List.lookup_cons, List.lookup_cons, ih]

@[simp]
theorem here_write : (fs.write place bytes).here = fs.here := rfl

@[simp]
theorem lookup_write_self : (fs.write place bytes).lookup place = some (.written bytes (fs.lookup place)) :=
  List.lookup_cons_self

theorem lookup_write_of_ne (ne : other ≠ place) : (fs.write place bytes).lookup other = fs.lookup other := by
  have differs : (other == place) = false := beq_eq_false_iff_ne.2 ne
  rw [lookup, write, List.lookup_cons, differs]
  exact lookup_filter_ne ne

/-- Where a path leads to a place for a file there is no directory. -/
theorem not_directory_of_follow (leads : (fs.follow dir names).place path = .ok place) :
    fs.lookup place ≠ some .directory := by
  fun_induction follow fs dir names with
  | case1 => cases leads
  | case2 dir names ih => exact ih leads
  | case3 => cases leads
  | case4 dir name names _ _ place' _ ih => exact ih leads
  | case5 dir name names _ _ place' contents found _ =>
    obtain rfl : dir ++ [name] = place := Except.ok.inj leads
    rw [found]
    simp
  | case6 => cases leads
  | case7 dir name names _ _ place' taken found _ =>
    obtain rfl : dir ++ [name] = place := Except.ok.inj leads
    rw [found]
    simp
  | case8 => cases leads
  | case9 dir name names _ _ place' vacant _ =>
    obtain rfl : dir ++ [name] = place := Except.ok.inj leads
    rw [vacant]
    simp
  | case10 => cases leads

/-- The last name leads to the file that stands at its place. -/
theorem follow_of_file {name : String} (up : name ≠ "..") (short : ¬isLong name = true) (last : names.isEmpty = true)
    (file : fs.lookup (dir ++ [name]) = some (.file bytes)) :
    fs.follow dir (name :: names) = .file (dir ++ [name]) bytes := by
  rw [follow, if_neg up, if_neg short]
  dsimp only
  rw [file]
  dsimp only
  rw [if_pos last]

/-- The directories that lead to a place lead to the file there when it has been written. -/
theorem follow_write (bytes : List UInt8) (leads : (fs.follow dir names).place path = .ok place)
    (noDevice : ∀ taken, fs.lookup place ≠ some (.device taken)) :
    (fs.write place bytes).follow dir names = .file place bytes := by
  have noDirectory := not_directory_of_follow leads
  have written : (fs.write place bytes).lookup place = some (.file bytes) := by
    rw [lookup_write_self]
    cases stands : fs.lookup place with
    | none => rfl
    | some node =>
      cases node with
      | file _ => rfl
      | directory => exact absurd stands noDirectory
      | device taken => exact absurd stands (noDevice taken)
  fun_induction follow fs dir names with
  | case1 => cases leads
  | case2 dir names ih =>
    rw [follow, if_pos rfl]
    exact ih leads
  | case3 => cases leads
  | case4 dir name names up short place' directory ih =>
    have other : dir ++ [name] ≠ place := by
      rintro rfl
      exact noDirectory directory
    rw [follow, if_neg up, if_neg short]
    dsimp only
    rw [lookup_write_of_ne other, directory]
    exact ih leads
  | case5 dir name names up short place' contents found last =>
    obtain rfl : dir ++ [name] = place := Except.ok.inj leads
    exact follow_of_file up short last written
  | case6 => cases leads
  | case7 dir name names up short place' taken found last =>
    obtain rfl : dir ++ [name] = place := Except.ok.inj leads
    exact absurd found (noDevice taken)
  | case8 => cases leads
  | case9 dir name names up short place' vacant last =>
    obtain rfl : dir ++ [name] = place := Except.ok.inj leads
    exact follow_of_file up short last written
  | case10 => cases leads

/-- **Written files are found again.** A path along which a place can be written leads to the file afterwards, unless a
device stands there. -/
theorem target_write (bytes : List UInt8) (leads : (fs.target path).place path = .ok place)
    (noDevice : ∀ taken, fs.lookup place ≠ some (.device taken)) :
    (fs.write place bytes).target path = .file place bytes := by
  unfold target at *
  split at leads
  · cases leads
  · rename_i named
    split at leads
    · cases leads
    · rename_i short
      rw [if_neg named, if_neg short]
      exact follow_write bytes leads noDevice

end CalcImage.Files
