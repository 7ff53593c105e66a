import CalcImage.Proofs.Memory.Status

/-!
# What the program bottom is

The search for the program bottom goes down from a limit register by register. What it finds can be told without it
(`Image.IsBottom`): the registers from there up to the limit do not start with the end marker of the partitions, and the
register below does, unless the base of the partitions is reached. So the bottom stays when the limit comes down to it,
and it is read off the first bytes of the registers between the base and the limit (`programBottom_scanned`).
-/

namespace CalcImage.Image

/-- The register is the lowest one that programs below the limit may use. -/
structure IsBottom (img : Image) (limit bottom : Nat) : Prop where
  base : 192 ≤ bottom
  le : bottom ≤ limit
  clear : ∀ index, bottom ≤ index → index < limit → img.byte (7 * index) ≠ 0xF0
  stops : bottom = 192 ∨ img.byte (7 * (bottom - 1)) = 0xF0

section Below

variable {img : Image} {limit bottom : Nat}

/-- The search stops at the base or above the end marker of a partition. -/
theorem bottomBelow_stops (above : partitionBase ≤ limit) :
    img.bottomBelow limit = partitionBase ∨ img.byte (7 * (img.bottomBelow limit - 1)) = partitionEnd := by
  induction limit with
  | zero => cases above
  | succ index ih =>
    rw [bottomBelow]
    split
    case isTrue low => exact .inl (Nat.le_antisymm low above)
    case isFalse high =>
      split
      case isTrue ends => exact .inr ends
      case isFalse => exact ih (by omega)

theorem isBottom_bottomBelow (above : partitionBase ≤ limit) : img.IsBottom limit (img.bottomBelow limit) where
  base := base_le_bottomBelow above
  le := bottomBelow_le limit
  clear := by
    intro index low below ends
    exact absurd (lt_bottomBelow below ends) (Nat.not_lt.2 low)
  stops := bottomBelow_stops above

end Below

section Scan

variable {img img' : Image} {limit : Int}

/-- A limit has no bottom exactly when it lies above memory. -/
theorem programBottom_eq_error_iff : (∃ f, img.programBottom limit = .error f ∧ f.kind = .index) ↔ 1112 < limit := by
  unfold programBottom
  constructor
  · rintro ⟨f, failed, -⟩
    split at failed
    · cases failed
    · split at failed
      · cases failed
      · omega
  · intro outside
    rw [if_neg (by omega), if_neg (by omega)]
    split
    · exact ⟨.scanOutside, rfl, rfl⟩
    · exact ⟨.indexWidth, rfl, rfl⟩

theorem programBottom_of_le_base (low : limit ≤ 192) : img.programBottom limit = .ok limit := if_pos low

theorem programBottom_of_between (low : 192 < limit) (high : limit ≤ 1112) :
    img.programBottom limit = .ok (img.bottomBelow limit.toNat : Int) := by
  rw [programBottom, if_neg (by omega), if_pos high]

/-- The bottom of a limit is the bottom of all limits down to it. -/
theorem programBottom_stable {bottom lower : Int} (found : img.programBottom limit = .ok bottom) (le : bottom ≤ lower)
    (le' : lower ≤ limit) : img.programBottom lower = .ok bottom := by
  rcases Int.lt_or_le 192 limit with above | below
  · have inside : limit ≤ 1112 := by
      apply Int.not_lt.1
      intro outside
      obtain ⟨f, failed, -⟩ := programBottom_eq_error_iff.2 outside
      rw [failed] at found
      cases found
    rw [programBottom_of_between above inside] at found
    cases found
    have base : partitionBase ≤ img.bottomBelow limit.toNat :=
      base_le_bottomBelow (by simp only [partitionBase]; omega)
    simp only [partitionBase] at base
    have stable : img.bottomBelow lower.toNat = img.bottomBelow limit.toNat :=
      bottomBelow_stable (by omega) (by omega)
    rw [show lower = (lower.toNat : Int) by omega, programBottom_of_le (by simp only [registerCount]; omega), stable]
  · rw [programBottom_of_le_base below] at found
    cases found
    rw [show lower = limit by omega, programBottom_of_le_base below]

/-- Only the first bytes of the registers from the base up to the limit count. -/
theorem programBottom_congr
    (same : ∀ index : Nat, 192 ≤ index → (index : Int) < limit → img'.byte (7 * index) = img.byte (7 * index)) :
    img'.programBottom limit = img.programBottom limit := by
  have scanned : img'.bottomBelow limit.toNat = img.bottomBelow limit.toNat :=
    bottomBelow_congr fun index low high => same index low (by omega)
  unfold programBottom
  rw [scanned]

end Scan

/-- **The program bottom.** Every limit inside memory has one, and a limit above memory is refused. Up to the base of the
partitions a limit is its own bottom, and above it the bottom is the lowest register that programs may use. It stays the
same when the limit comes down to it, and it depends on the first bytes of the registers from the base up to the limit
alone. -/
theorem programBottom_scanned (img : Image) (limit : Int) :
    ((∃ f, img.programBottom limit = .error f ∧ f.kind = .index) ↔ 1112 < limit) ∧
      (limit ≤ 192 → img.programBottom limit = .ok limit) ∧
      (192 < limit → limit ≤ 1112 →
        ∃ bottom : Nat, img.programBottom limit = .ok (bottom : Int) ∧ img.IsBottom limit.toNat bottom) ∧
      (∀ bottom lower, img.programBottom limit = .ok bottom → bottom ≤ lower → lower ≤ limit →
        img.programBottom lower = .ok bottom) ∧
      ∀ img' : Image,
        (∀ index : Nat, 192 ≤ index → (index : Int) < limit → img'.byte (7 * index) = img.byte (7 * index)) →
          img'.programBottom limit = img.programBottom limit := by
  refine ⟨programBottom_eq_error_iff, programBottom_of_le_base, ?_, ?_, ?_⟩
  · intro low high
    exact ⟨_, programBottom_of_between low high, isBottom_bottomBelow (by simp only [partitionBase]; omega)⟩
  · intro bottom lower found le le'
    exact programBottom_stable found le le'
  · intro img' same
    exact programBottom_congr same

/-- A partition ends in register 200, so programs below register 300 may use the registers from 201 on; when the limit has
come down to 201 nothing is free. -/
theorem programBottom_scanned_partition :
    (zero.put (7 * 200) 0xF0).programBottom 300 = .ok 201 ∧ (zero.put (7 * 200) 0xF0).programBottom 201 = .ok 201 := by
  have byte (loc : Nat) : (zero.put (7 * 200) 0xF0).byte loc = if loc = 7 * 200 then 0xF0 else 0 := by
    rw [byte_put, byte_zero]
    by_cases here : loc = 7 * 200
    · rw [if_pos ⟨here.symm, by decide⟩, if_pos here]
    · rw [if_neg (fun both => here both.1.symm), if_neg here]
  obtain ⟨-, -, between, stable, -⟩ := programBottom_scanned (zero.put (7 * 200) 0xF0) 300
  obtain ⟨bottom, found, is⟩ := between (by decide) (by decide)
  have free : 200 < bottom := by
    apply Nat.lt_of_not_ge
    intro low
    exact is.clear 200 low (by decide) ((byte (7 * 200)).trans (if_pos rfl))
  have last : bottom = 201 := by
    rcases is.stops with base | ends
    · omega
    · rw [byte] at ends
      split at ends
      · omega
      · cases ends
  subst last
  exact ⟨found, stable 201 201 found (by decide) (by decide)⟩

end CalcImage.Image
