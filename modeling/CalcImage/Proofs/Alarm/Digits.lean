import Mathlib.Algebra.Group.Int.Defs
import Mathlib.Algebra.Group.Nat.Defs
import CalcImage.Alarm.Basic

/-!
# Digits in half bytes

The digits of an alarm are the halves of bytes that lie side by side. Here the bytes are counted in halves
(`Image.digits_bytesFrom`), and whatever the halves hold, the number that they spell is bounded by how many there are
(`Image.decimalValue_halves_le`).
-/

namespace CalcImage.Image

open Alarm

/-- The bytes side by side from a location upwards. -/
def bytesFrom (img : Image) (loc count : Nat) : List UInt8 := (List.range count).map fun k => img.byte (loc + k)

/-- A half of a byte; the high half of each byte comes first. -/
def half (img : Image) (k : Nat) : Nat :=
  if k % 2 = 0 then (img.byte (k / 2)).toNat / 16 else (img.byte (k / 2)).toNat % 16

section Halves

variable {img : Image}

theorem bytesFrom_add (loc m n : Nat) :
    img.bytesFrom loc (m + n) = img.bytesFrom loc m ++ img.bytesFrom (loc + m) n := by
  unfold bytesFrom
  rw [List.range_add, List.map_append, List.map_map]
  congr 2
  funext k
  exact congrArg img.byte (Nat.add_assoc loc m k).symm

theorem half_lt (k : Nat) : img.half k < 16 := by
  have := (img.byte (k / 2)).toNat_lt
  unfold half
  split <;> omega

theorem half_even (k : Nat) : img.half (2 * k) = (img.byte k).toNat / 16 := by
  rw [half, if_pos (by omega), show 2 * k / 2 = k by omega]

theorem half_odd (k : Nat) : img.half (2 * k + 1) = (img.byte k).toNat % 16 := by
  rw [half, if_neg (by omega), show (2 * k + 1) / 2 = k by omega]

/-- The halves of bytes side by side are halves side by side. -/
theorem nibbles_bytesFrom (loc count : Nat) :
    nibbles (img.bytesFrom loc count) = (List.range (2 * count)).map fun k => (img.half (2 * loc + k) : Int) := by
  induction count with
  | zero => rfl
  | succ count ih =>
    have byte : nibbles (img.bytesFrom (loc + count) 1) =
        [(img.half (2 * loc + 2 * count) : Int), (img.half (2 * loc + (2 * count + 1)) : Int)] := by
      rw [← Nat.mul_add, ← Nat.add_assoc, ← Nat.mul_add, half_even, half_odd]
      rfl
    have split : nibbles (img.bytesFrom loc (count + 1)) =
        nibbles (img.bytesFrom loc count) ++ nibbles (img.bytesFrom (loc + count) 1) := by
      rw [bytesFrom_add, nibbles, List.flatMap_append]
      rfl
    rw [split, ih, byte, show 2 * (count + 1) = 2 * count + 1 + 1 by omega, List.range_succ, List.range_succ,
      List.map_append, List.map_append, List.append_assoc]
    rfl

/-- Digits in bytes and in the high half of the byte after them. -/
theorem digits_bytesFrom (loc count : Nat) :
    digits (img.bytesFrom loc count) (img.byte (loc + count)) =
      (List.range (2 * count + 1)).map fun k => (img.half (2 * loc + k) : Int) := by
  rw [digits, nibbles_bytesFrom, List.range_succ, List.map_append, ← half_even, Nat.mul_add]
  rfl

/-- One more digit. -/
theorem decimalValue_halves_succ (place count : Nat) :
    decimalValue ((List.range (count + 1)).map fun k => (img.half (place + k) : Int)) =
      decimalValue ((List.range count).map fun k => (img.half (place + k) : Int)) * 10 + img.half (place + count) := by
  rw [List.range_succ, List.map_append, decimalValue, List.foldl_append]
  rfl

/-- The number that halves side by side spell: each of them counts ten times as much as the one after it. -/
def halvesValue (img : Image) (place : Nat) : Nat → Nat
  | 0 => 0
  | count + 1 => img.half place * 10 ^ count + img.halvesValue (place + 1) count

theorem halvesValue_succ (place count : Nat) :
    img.halvesValue place (count + 1) = img.halvesValue place count * 10 + img.half (place + count) := by
  induction count generalizing place with
  | zero => simp [halvesValue]
  | succ count ih =>
    calc img.halvesValue place (count + 2)
      _ = img.half place * 10 ^ (count + 1) + img.halvesValue (place + 1) (count + 1) := rfl
      _ = img.half place * 10 ^ count * 10 + (img.halvesValue (place + 1) count * 10 + img.half (place + 1 + count)) := by
        rw [ih, Nat.pow_succ, Nat.mul_assoc]
      _ = img.halvesValue place (count + 1) * 10 + img.half (place + (count + 1)) := by
        rw [halvesValue, Nat.add_mul, Nat.add_assoc place, Nat.add_comm 1 count, Nat.add_assoc]

/-- Reading halves digit by digit comes to the number that they spell. -/
theorem decimalValue_halves (place count : Nat) :
    decimalValue ((List.range count).map fun k => (img.half (place + k) : Int)) = img.halvesValue place count := by
  induction count with
  | zero => rfl
  | succ count ih =>
    rw [decimalValue_halves_succ, ih, halvesValue_succ]
    omega

/-- Halves may hold fifteen where a decimal digit is nine at most, so the number that they spell is at most fifteen ninths
of the largest one with as many digits. -/
theorem decimalValue_halves_le (place count : Nat) :
    0 ≤ decimalValue ((List.range count).map fun k => (img.half (place + k) : Int)) ∧
      3 * decimalValue ((List.range count).map fun k => (img.half (place + k) : Int)) + 5 ≤ 5 * 10 ^ count := by
  induction count with
  | zero => exact ⟨Int.le_refl 0, Int.le_refl 5⟩
  | succ count ih =>
    have digit := img.half_lt (place + count)
    rw [decimalValue_halves_succ, Int.pow_succ]
    omega

end Halves

end CalcImage.Image
