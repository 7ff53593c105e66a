import CalcImage.Glyph
import CalcImage.Text.UpperCase

/-!
# Names in upper case

Names are spelled in the characters of bytes, nearly all of them below 0x100, and for these the first rows of the tables
are enough (`latinUpper`). So a name is its own upper case exactly when it holds none of the few bytes whose characters
change in upper case (`upper_text_eq_iff`).
-/

namespace CalcImage.Glyph

open CalcImage.Text

/-- The character on the display for this byte has another upper case. -/
def changesCase (b : UInt8) : Bool :=
  (0x61 ≤ b && b ≤ 0x7A) || b == 0xB5 || (0xDF ≤ b && b != 0xF7)

/-- The upper case of a character below 0x100, for which the first rows of the tables are enough. -/
def latinUpper (n : Nat) : List Char :=
  match (upperExpansions.take 1).lookup n,
      (upperRuns.take 5).find? fun r => r.first ≤ n && n ≤ r.last && (n - r.first) % r.step == 0 with
  | some ns, _ => ns.map Char.ofNat
  | none, some r => [Char.ofNat (n + r.shift).toNat]
  | none, none => [Char.ofNat n]

theorem upperChar_eq_latinUpper {c : Char} (low : c.toNat < 0x100) : upperChar c = latinUpper c.toNat := by
  have expansions : upperExpansions.lookup c.toNat = (upperExpansions.take 1).lookup c.toNat := by
    have far : ∀ e ∈ upperExpansions.drop 1, 0x100 ≤ e.1 := by decide +kernel
    have beyond : (upperExpansions.drop 1).lookup c.toNat = none := by
      rw [List.lookup_eq_none_iff]
      intro e member
      have := far e member
      exact bne_iff_ne.2 (by omega)
    calc upperExpansions.lookup c.toNat
      _ = (upperExpansions.take 1 ++ upperExpansions.drop 1).lookup c.toNat := by rw [List.take_append_drop]
      _ = (upperExpansions.take 1).lookup c.toNat := by rw [List.lookup_append, beyond, Option.or_none]
  have runs : upperRun? c.toNat = (upperRuns.take 5).find? fun r =>
      r.first ≤ c.toNat && c.toNat ≤ r.last && (c.toNat - r.first) % r.step == 0 := by
    have far : ∀ r ∈ upperRuns.drop 5, 0x100 ≤ r.first := by decide +kernel
    have beyond : (upperRuns.drop 5).find? (fun r =>
        r.first ≤ c.toNat && c.toNat ≤ r.last && (c.toNat - r.first) % r.step == 0) = none := by
      rw [List.find?_eq_none]
      intro r member
      have := far r member
      simp only [Bool.and_eq_true, decide_eq_true_eq]
      omega
    calc upperRun? c.toNat
      _ = (upperRuns.take 5 ++ upperRuns.drop 5).find? _ := by rw [List.take_append_drop, upperRun?]
      _ = (upperRuns.take 5).find? _ := by rw [List.find?_append, beyond, Option.or_none]
  rw [upperChar, latinUpper, expansions, runs]
  cases (upperExpansions.take 1).lookup c.toNat with
  | some ns => rfl
  | none =>
    cases (upperRuns.take 5).find? _ with
    | some r => rfl
    | none => rw [Char.ofNat_toNat]

/-- A character that changes in upper case is not the first one of its upper case. -/
theorem upperChar_ofByte (b : UInt8) :
    if changesCase b then (upperChar (ofByte b)).head?.getD (ofByte b) ≠ ofByte b
    else upperChar (ofByte b) = [ofByte b] := by
  -- The four bytes with a glyph of their own are looked up in the whole tables, and the others in the first rows.
  have own : ∀ n ∈ special.map Prod.fst, changesCase (UInt8.ofNat n) = false ∧
      upperChar (ofByte (UInt8.ofNat n)) = [ofByte (UInt8.ofNat n)] := by
    decide +kernel
  have all : ∀ n ∈ List.range 256, n ∈ special.map Prod.fst ∨ (ofByte (UInt8.ofNat n)).toNat = n ∧
      if changesCase (UInt8.ofNat n) then (latinUpper n).head?.getD (ofByte (UInt8.ofNat n)) ≠ ofByte (UInt8.ofNat n)
      else latinUpper n = [ofByte (UInt8.ofNat n)] := by
    decide +kernel
  rcases all b.toNat (List.mem_range.2 b.toNat_lt) with member | ⟨number, here⟩
  · obtain ⟨stays, same⟩ := own b.toNat member
    rw [UInt8.ofNat_toNat] at stays same
    rw [stays]
    exact same
  · rw [UInt8.ofNat_toNat] at number here
    rw [upperChar_eq_latinUpper (by rw [number]; exact b.toNat_lt), number]
    exact here

/-- **Names in upper case.** A row of bytes reads as its own upper case when no character of it changes. -/
theorem upper_text_eq_iff (bs : List UInt8) : upper (text bs) = text bs ↔ ∀ b ∈ bs, changesCase b = false := by
  rw [upper, text, String.toList_ofList, String.ofList_inj]
  induction bs with
  | nil => simp
  | cons b bs ih =>
    have first := upperChar_ofByte b
    rw [List.map_cons, List.flatMap_cons, List.forall_mem_cons, ← ih]
    by_cases changes : changesCase b = true
    · rw [if_pos changes] at first
      apply iff_of_false
      · intro same
        cases chars : upperChar (ofByte b) with
        | nil =>
          rw [chars] at first
          exact first rfl
        | cons c cs =>
          rw [chars] at first same
          exact first (List.cons.inj same).1
      · rw [changes]
        rintro ⟨⟨⟩, -⟩
    · rw [if_neg changes] at first
      rw [first]
      simp [changes]

end CalcImage.Glyph
