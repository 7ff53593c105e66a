import CalcImage.Memory.Status
import CalcImage.Proofs.Memory.Order

/-!
# The status register and the program bottom

The three numbers of the status register are read off five bytes (`status_congr`), and storing a limit changes the
limit alone (`status_withLimit`). The program bottom lies between the base of the partitions and the limit, it is the
same from every limit above it (`bottomBelow_stable`), and it is read off the first bytes of the registers below the
limit (`bottomBelow_congr`).
-/

namespace CalcImage.Image

theorem status_congr {img img' : Image} (same : ∀ loc, 93 ≤ loc → loc ≤ 97 → img'.byte loc = img.byte loc) :
    img'.status = img.status := by
  unfold status
  rw [same 93 (by omega) (by omega), same 94 (by omega) (by omega), same 95 (by omega) (by omega),
    same 96 (by omega) (by omega), same 97 (by omega) (by omega)]

theorem programLimit_lt (img : Image) : img.status.programLimit < 4096 := by
  have := (img.byte 97).toNat_lt
  unfold status
  dsimp only
  omega

section Limit

variable (img : Image) {limit : Nat}

/-- Storing a limit writes bytes 96 and 97. -/
theorem byte_withLimit_of_ne {loc : Nat} (high : loc ≠ 96) (low : loc ≠ 97) :
    (img.withLimit limit).byte loc = img.byte loc := by
  rw [withLimit, byte_put, if_neg (by omega), byte_put, if_neg (by omega)]

@[simp] theorem cpu_withLimit : (img.withLimit limit).cpu = img.cpu := rfl

theorem byte_withLimit_low : ((img.withLimit limit).byte 97).toNat = limit % 256 := by
  rw [withLimit, byte_put, if_pos (by decide), UInt8.toNat_ofNat']
  omega

theorem byte_withLimit_high (small : limit < 4096) :
    ((img.withLimit limit).byte 96).toNat = (img.byte 96).toNat / 16 * 16 + limit / 256 := by
  have := (img.byte 96).toNat_lt
  rw [withLimit, byte_put, if_neg (by decide), byte_put, if_pos (by decide), UInt8.toNat_ofNat']
  omega

/-- A stored limit of twelve bits is read back, and the watchdog word and the program top stay as they are. -/
theorem status_withLimit (small : limit < 4096) :
    (img.withLimit limit).status = { img.status with programLimit := limit } := by
  have := (img.byte 96).toNat_lt
  unfold status
  rw [byte_withLimit_low, byte_withLimit_high img small, byte_withLimit_of_ne img (by decide) (by decide),
    byte_withLimit_of_ne img (by decide) (by decide), byte_withLimit_of_ne img (by decide) (by decide)]
  rw [Status.mk.injEq]
  refine ⟨rfl, ?_, ?_⟩
  · dsimp only
    omega
  · omega

end Limit

section Bottom

variable {img : Image}

theorem bottomBelow_of_le_base {limit : Nat} (low : limit ≤ partitionBase) : img.bottomBelow limit = limit := by
  cases limit with
  | zero => rfl
  | succ index => rw [bottomBelow, if_pos low]

theorem bottomBelow_le (limit : Nat) : img.bottomBelow limit ≤ limit := by
  induction limit with
  | zero => exact Nat.le_refl 0
  | succ index ih =>
    unfold bottomBelow
    split
    · exact Nat.le_refl _
    · split
      · exact Nat.le_refl _
      · exact Nat.le_succ_of_le ih

theorem base_le_bottomBelow {limit : Nat} (h : partitionBase ≤ limit) : partitionBase ≤ img.bottomBelow limit := by
  induction limit with
  | zero => exact h
  | succ index ih =>
    unfold bottomBelow
    split
    · exact h
    · split
      · exact h
      · exact ih (by omega)

/-- The bottom stays the same when the limit comes down to it. -/
theorem bottomBelow_stable {limit lower : Nat} (above : img.bottomBelow limit ≤ lower) (below : lower ≤ limit) :
    img.bottomBelow lower = img.bottomBelow limit := by
  induction limit with
  | zero =>
    obtain rfl : lower = 0 := by omega
    rfl
  | succ index ih =>
    by_cases same : lower = index + 1
    · rw [same]
    · rw [bottomBelow] at above ⊢
      split at above
      · omega
      · split at above
        · omega
        · rw [if_neg ‹_›, if_neg ‹_›]
          exact ih above (by omega)

/-- The bottom is found by looking at the first bytes of the registers from the base up to the limit. -/
theorem bottomBelow_congr {img' : Image} {limit : Nat}
    (same : ∀ index, partitionBase ≤ index → index < limit → img'.byte (7 * index) = img.byte (7 * index)) :
    img'.bottomBelow limit = img.bottomBelow limit := by
  induction limit with
  | zero => rfl
  | succ index ih =>
    rw [bottomBelow, bottomBelow]
    split
    · rfl
    · rw [same index (by omega) (by omega), ih fun i low high => same i low (by omega)]

/-- The bottom lies above every register that starts with the end marker of the partitions. -/
theorem lt_bottomBelow {limit index : Nat} (below : index < limit) (ends : img.byte (7 * index) = partitionEnd) :
    index < img.bottomBelow limit := by
  induction limit with
  | zero => cases below
  | succ last ih =>
    rw [bottomBelow]
    split
    · exact below
    · split
      · exact below
      · rename_i other
        have apart : index ≠ last := by
          rintro rfl
          exact other ends
        exact ih (by omega)

/-- Registers without the end marker of the partitions are free. -/
theorem bottomBelow_le_of_clear {limit bottom : Nat} (low : partitionBase ≤ bottom)
    (clear : ∀ index, bottom ≤ index → index < limit → img.byte (7 * index) ≠ partitionEnd) :
    img.bottomBelow limit ≤ bottom := by
  induction limit with
  | zero => exact Nat.zero_le _
  | succ last ih =>
    rcases Nat.lt_or_ge last bottom with covered | above
    · exact Nat.le_trans (bottomBelow_le _) covered
    · have base := Nat.le_trans low above
      rw [bottomBelow, if_neg (by omega), if_neg (clear last above (Nat.lt_succ_self _))]
      exact ih fun i low high => clear i low (by omega)

/-- Without a partition the bottom is the base. -/
theorem bottomBelow_eq_base {limit : Nat} (above : partitionBase ≤ limit)
    (clear : ∀ index, partitionBase ≤ index → index < limit → img.byte (7 * index) ≠ partitionEnd) :
    img.bottomBelow limit = partitionBase :=
  Nat.le_antisymm (bottomBelow_le_of_clear (Nat.le_refl _) clear) (base_le_bottomBelow above)

/-- Inside memory every limit has a bottom. -/
theorem programBottom_of_le {limit : Nat} (inside : limit ≤ registerCount) :
    img.programBottom limit = .ok (img.bottomBelow limit : Int) := by
  simp only [registerCount] at inside
  unfold programBottom
  split
  · rw [bottomBelow_of_le_base (by simp only [partitionBase]; omega)]
  · rw [if_pos (by omega)]
    rfl

/-- Above memory no limit of twelve bits has a bottom. -/
theorem programBottom_of_lt {limit : Nat} (outside : registerCount < limit) (small : limit < 4096) :
    img.programBottom limit = .error .scanOutside := by
  simp only [registerCount] at outside
  have fits : Word.fits 64 (7 * ((limit : Int) - 1)) = true := by
    rw [Word.fits_iff, show (Word.bound 64 : Int) = 9223372036854775808 from rfl]
    omega
  unfold programBottom
  rw [if_neg (by omega), if_neg (by omega), if_pos fits]

end Bottom

/-- An image of zeros but for its program limit. -/
def emptyTo (limit : Nat) : Image := zero.withLimit limit

@[simp] theorem byte_zero (loc : Nat) : zero.byte loc = 0 := by
  unfold zero filled byte
  rw [Vector.getElem?_replicate]
  split <;> rfl

theorem programLimit_emptyTo {limit : Nat} (small : limit < 4096) : (emptyTo limit).status.programLimit = limit := by
  rw [emptyTo, status_withLimit _ small]

/-- In an image of zeros all registers from the base up to the limit are free. -/
theorem bottomBelow_emptyTo {limit index : Nat} (above : partitionBase ≤ index) :
    (emptyTo limit).bottomBelow index = partitionBase := by
  apply bottomBelow_eq_base above
  intro i low _
  simp only [partitionBase] at low
  rw [emptyTo, byte_withLimit_of_ne _ (by omega) (by omega), byte_zero]
  decide

end CalcImage.Image
