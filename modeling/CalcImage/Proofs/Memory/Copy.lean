import CalcImage.Memory.Image

/-!
# Copies

`Copied` says that between two locations the bytes of an image come from another one, and that its other bytes have
stayed. Copies of adjoining parts add up (`Copied.trans`), and storing the bytes of a register copies that register.
-/

namespace CalcImage

/-- The bytes from `low` up to `high` come from the source, and the other ones stay. -/
def Copied (source before after : Image) (low high : Nat) : Prop :=
  ∀ loc, loc < memorySize → after.byte loc = if low ≤ loc ∧ loc < high then source.byte loc else before.byte loc

namespace Copied

variable {source a b c : Image} {low middle high : Nat}

theorem trans (first : Copied source a b low middle) (second : Copied source b c middle high) (le : low ≤ middle)
    (le' : middle ≤ high) : Copied source a c low high := by
  intro loc inside
  rw [second loc inside, first loc inside]
  split
  · rw [if_pos (by omega)]
  · split
    · rw [if_pos (by omega)]
    · rw [if_neg (by omega)]

/-- Bytes that are the same need no copy. -/
theorem of_same (same : ∀ loc, low ≤ loc → loc < high → source.byte loc = a.byte loc) : Copied source a a low high := by
  intro loc _
  split
  · exact (same loc (by omega) (by omega)).symm
  · rfl

end Copied

namespace Image

theorem registerBytes?_eq_some_iff {text : String} {bs : List UInt8} :
    registerBytes? text = some bs ↔ text.toList.length = 14 ∧ Text.Hex.toBytes? text.toList = some bs := by
  unfold registerBytes?
  split
  case isTrue fourteen => exact (and_iff_right fourteen).symm
  case isFalse other =>
    constructor
    · intro spelled
      cases spelled
    · rintro ⟨fourteen, -⟩
      exact absurd fourteen other

/-- Bytes that are written side by side. -/
theorem byte_putAll (img : Image) {loc i : Nat} {bs : List UInt8} (inside : i < memorySize) :
    (img.putAll loc bs).byte i = if loc ≤ i then bs[i - loc]?.getD (img.byte i) else img.byte i := by
  simp only [memorySize] at inside
  induction bs generalizing img loc with
  | nil => split <;> rfl
  | cons b bs ih =>
    rw [putAll, ih, byte_put]
    rcases Nat.lt_trichotomy loc i with below | rfl | above
    · rw [if_pos (by omega), if_neg (by omega), if_pos (by omega), show i - loc = i - (loc + 1) + 1 by omega]
      rfl
    · rw [if_neg (by omega), if_pos ⟨rfl, inside⟩, if_pos (Nat.le_refl loc), Nat.sub_self]
      rfl
    · rw [if_neg (by omega), if_neg (by omega), if_neg (by omega)]

@[simp] theorem cpu_putAll (img : Image) (loc : Nat) (bs : List UInt8) : (img.putAll loc bs).cpu = img.cpu := by
  induction bs generalizing img loc with
  | nil => rfl
  | cons b bs ih => rw [putAll, ih, cpu_put]

theorem copied_putAll (source img : Image) (index : Nat) :
    Copied source img (img.putAll (7 * index) (source.registerAt index)) (7 * index) (7 * (index + 1)) := by
  intro loc inside
  rw [byte_putAll img inside, registerAt, List.getElem?_map]
  by_cases within : 7 * index ≤ loc ∧ loc < 7 * (index + 1)
  · rw [if_pos within, if_pos within.1, List.getElem?_range (by omega), Option.map_some, Option.getD_some,
      show 7 * index + (loc - 7 * index) = loc by omega]
  · rw [if_neg within]
    split
    · rw [List.getElem?_eq_none (by simp only [List.length_range]; omega)]
      rfl
    · rfl

/-- The bytes of a register that are stored are its bytes, and the other registers stay. -/
theorem registerAt_putAll (img : Image) {index r : Nat} {bs : List UInt8} (size : bs.length = 7)
    (inside : r < registerCount) :
    (img.putAll (7 * index) bs).registerAt r = if r = index then bs else img.registerAt r := by
  simp only [registerCount] at inside
  have byte (k : Nat) (small : k < 7) : (img.putAll (7 * index) bs).byte (7 * r + k) =
      if 7 * index ≤ 7 * r + k then bs[7 * r + k - 7 * index]?.getD (img.byte (7 * r + k))
      else img.byte (7 * r + k) := byte_putAll img (by simp only [memorySize]; omega)
  split
  case isTrue same =>
    subst same
    apply List.ext_getElem
    · rw [registerAt, List.length_map, List.length_range, size]
    · intro k small within
      simp only [registerAt, List.getElem_map, List.getElem_range]
      rw [byte k (by omega), if_pos (by omega), Nat.add_sub_cancel_left, List.getElem?_eq_getElem within,
        Option.getD_some]
  case isFalse other =>
    apply List.map_congr_left
    intro k member
    rw [List.mem_range] at member
    rw [byte k member]
    split
    · rw [List.getElem?_eq_none (by omega), Option.getD_none]
    · rfl

end Image

end CalcImage
