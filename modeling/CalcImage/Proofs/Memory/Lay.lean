import CalcImage.Proofs.Memory.Order

/-!
# Bytes laid down in program order

`Image.lay` is the image after bytes were written one after the other along the walk. Seen as a tape, the bytes replace
the beginning (`tape_lay`), and nothing else changes (`byte_lay_of_outside`); so bytes written over others replace them
(`lay_lay`).
-/

namespace CalcImage.Image

open Walk

/-- The image with bytes written in program order from the location of rank `r` on. -/
def lay (img : Image) (r : Nat) : List UInt8 → Image
  | [] => img
  | b :: bs => (img.put (locationOfRank r) b).lay (r - 1) bs

theorem lay_append (img : Image) (r : Nat) (as bs : List UInt8) :
    img.lay r (as ++ bs) = (img.lay r as).lay (r - as.length) bs := by
  induction as generalizing img r with
  | nil => rfl
  | cons a as ih =>
    rw [List.cons_append, lay, lay, ih, List.length_cons, Nat.add_comm, Nat.sub_add_eq]

@[simp] theorem cpu_lay (img : Image) (r : Nat) (bs : List UInt8) : (img.lay r bs).cpu = img.cpu := by
  induction bs generalizing img r with
  | nil => rfl
  | cons b bs ih => simp [lay, ih]

/-- A rank above the first one or below the last one keeps its byte. -/
theorem byte_lay_of_outside (img : Image) {r s : Nat} {bs : List UInt8} (fits : bs.length ≤ r + 1)
    (outside : r < s ∨ s + bs.length ≤ r) :
    (img.lay r bs).byte (locationOfRank s) = img.byte (locationOfRank s) := by
  induction bs generalizing img r with
  | nil => rfl
  | cons b bs ih =>
    rw [List.length_cons] at fits outside
    have apart : ¬(locationOfRank r = locationOfRank s ∧ locationOfRank r < 7784) := by
      rintro ⟨same, -⟩
      have := locationOfRank_inj.1 same
      omega
    rw [lay]
    cases bs with
    | nil => rw [lay, byte_put, if_neg apart]
    | cons c bs =>
      rw [List.length_cons] at fits outside ih
      rw [ih (img.put (locationOfRank r) b) (by omega) (by omega), byte_put, if_neg apart]

/-- The bytes replace the beginning of the tape. -/
theorem tape_lay (img : Image) {r : Nat} {bs : List UInt8} (inside : r < memorySize) (fits : bs.length ≤ r + 1) :
    (img.lay r bs).tape r = bs ++ (img.tape r).drop bs.length := by
  induction bs generalizing img r with
  | nil => rfl
  | cons b bs ih =>
    have here : ((img.put (locationOfRank r) b).lay (r - 1) bs).byte (locationOfRank r) = b := by
      cases bs with
      | nil => rw [lay, byte_put, if_pos ⟨rfl, locationOfRank_lt inside⟩]
      | cons c bs =>
        rw [List.length_cons, List.length_cons] at fits
        rw [byte_lay_of_outside _ (by simp only [List.length_cons]; omega) (by omega), byte_put,
          if_pos ⟨rfl, locationOfRank_lt inside⟩]
    rw [lay]
    cases r with
    | zero =>
      obtain rfl : bs = [] := List.length_eq_zero_iff.1 (by simpa using fits)
      simpa [tape] using here
    | succ r =>
      rw [tape, here, Nat.add_sub_cancel, ih _ (by omega) (by simpa using fits), tape, List.length_cons,
        List.drop_succ_cons, List.cons_append]
      congr 3
      apply tape_congr
      intro s hs
      rw [byte_put, if_neg]
      rintro ⟨same, -⟩
      have := locationOfRank_inj.1 same
      omega

/-- Bytes that are written in program order. -/
theorem byte_lay (img : Image) {r s : Nat} {bs : List UInt8} (inside : r < memorySize) (fits : bs.length ≤ r + 1) :
    (img.lay r bs).byte (locationOfRank s) =
      if s ≤ r then bs[r - s]?.getD (img.byte (locationOfRank s)) else img.byte (locationOfRank s) := by
  split
  case isTrue le =>
    rcases Nat.lt_or_ge (r - s) bs.length with written | beyond
    · have here := congrArg (·[r - s]?) (tape_lay img inside fits)
      rw [getElem?_tape, if_pos (Nat.sub_le r s), Nat.sub_sub_self le, List.getElem?_append_left written] at here
      rw [← here, Option.getD_some]
    · rw [List.getElem?_eq_none beyond, Option.getD_none]
      exact byte_lay_of_outside img fits (.inr (by omega))
  case isFalse above => exact byte_lay_of_outside img fits (.inl (by omega))

/-- Bytes that are written over others from the same location on leave nothing of them when they are as many. -/
theorem lay_lay (img : Image) {r : Nat} {as bs : List UInt8} (inside : r < memorySize) (covers : as.length ≤ bs.length)
    (fits : bs.length ≤ r + 1) : (img.lay r as).lay r bs = img.lay r bs := by
  apply ext_byte
  · intro loc _
    rw [← locationOfRank_locationOfRank loc, byte_lay _ inside fits, byte_lay _ inside (Nat.le_trans covers fits),
      byte_lay _ inside fits]
    split
    case isTrue le =>
      rcases Nat.lt_or_ge (r - locationOfRank loc) bs.length with written | beyond
      · rw [List.getElem?_eq_getElem written, Option.getD_some, Option.getD_some]
      · rw [List.getElem?_eq_none beyond, List.getElem?_eq_none (Nat.le_trans covers beyond)]
        rfl
    case isFalse => rfl
  · rw [cpu_lay, cpu_lay, cpu_lay]

/-- A register outside those that are written keeps its bytes. -/
theorem byte_lay_register (img : Image) {top count loc : Nat} {bs : List UInt8} (size : bs.length = 7 * count)
    (low : count ≤ top + 1) (outside : top < loc / 7 ∨ loc / 7 + count ≤ top) :
    (img.lay (7 * top + 6) bs).byte loc = img.byte loc := by
  rw [← locationOfRank_locationOfRank loc]
  apply byte_lay_of_outside
  · omega
  · unfold locationOfRank
    omega

end CalcImage.Image
