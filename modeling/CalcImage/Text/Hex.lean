/-!
# Hexadecimal text

Bytes are written with two lower-case digits each; digits are read in either case. Only the sixteen ASCII digits
count: a digit of another script is no hexadecimal digit. Reading undoes writing (`toBytes?_ofBytes`), and only pairs
of digits are read (`isSome_toBytes?`).
-/

namespace CalcImage.Text.Hex

/-- The value of a hexadecimal digit in either case. -/
def value? (c : Char) : Option Nat :=
  let n := c.toNat
  if 0x30 ≤ n ∧ n ≤ 0x39 then some (n - 0x30)
  else if 0x41 ≤ n ∧ n ≤ 0x46 then some (n - 0x37)
  else if 0x61 ≤ n ∧ n ≤ 0x66 then some (n - 0x57)
  else none

/-- The hexadecimal digits. -/
def isDigit (c : Char) : Bool := (value? c).isSome

/-- The lower-case digit of a value below sixteen. -/
def digit (n : Nat) : Char :=
  Char.ofNat (if n < 10 then 0x30 + n else 0x57 + n)

/-- Two lower-case digits for each byte. -/
def ofBytes : List UInt8 → List Char
  | [] => []
  | b :: bs => digit (b.toNat / 16) :: digit (b.toNat % 16) :: ofBytes bs

/-- The bytes that a text of digit pairs spells. -/
def toBytes? : List Char → Option (List UInt8)
  | [] => some []
  | [_] => none
  | h :: l :: cs =>
    match value? h, value? l, toBytes? cs with
    | some h, some l, some bs => some (UInt8.ofNat (16 * h + l) :: bs)
    | _, _, _ => none

/-- The number that a list of digits spells, most significant first. Other characters count as zero. -/
def toNat (cs : List Char) : Nat :=
  cs.foldl (fun n c => 16 * n + (value? c).getD 0) 0

/-- The digits of a number without leading zeros. -/
def ofNat (n : Nat) : List Char := Nat.toDigits 16 n

/-- The digits of a number, with zeros in front up to `width` digits. -/
def ofNatPadded (width n : Nat) : List Char :=
  let ds := ofNat n
  List.replicate (width - ds.length) '0' ++ ds

/-- A number with its sign and the mark `0x`. -/
def ofInt (n : Int) : List Char :=
  (if n < 0 then ['-'] else []) ++ '0' :: 'x' :: ofNat n.natAbs

theorem value?_digit {n : Nat} (h : n < 16) : value? (digit n) = some n := by
  have all : ∀ k ∈ List.range 16, value? (digit k) = some k := by decide
  exact all n (List.mem_range.2 h)

theorem isDigit_digit {n : Nat} (h : n < 16) : isDigit (digit n) = true := by
  simp [isDigit, value?_digit h]

@[simp] theorem length_ofBytes (bs : List UInt8) : (ofBytes bs).length = 2 * bs.length := by
  induction bs with
  | nil => rfl
  | cons b bs ih => simp only [ofBytes, List.length_cons, ih]; omega

@[simp] theorem toBytes?_ofBytes (bs : List UInt8) : toBytes? (ofBytes bs) = some bs := by
  induction bs with
  | nil => rfl
  | cons b bs ih =>
    have hb : b.toNat < 256 := b.toNat_lt
    simp only [ofBytes, toBytes?, value?_digit (show b.toNat / 16 < 16 by omega),
      value?_digit (show b.toNat % 16 < 16 by omega), ih]
    rw [show 16 * (b.toNat / 16) + b.toNat % 16 = b.toNat by omega, UInt8.ofNat_toNat]

theorem isSome_toBytes?_cons (h l : Char) (cs : List Char) :
    (toBytes? (h :: l :: cs)).isSome = (isDigit h && isDigit l && (toBytes? cs).isSome) := by
  rw [toBytes?, isDigit, isDigit]
  rcases value? h with _ | _
  · rfl
  · rcases value? l with _ | _
    · rfl
    · rcases toBytes? cs with _ | _ <;> rfl

/-- Pairs of digits, and nothing else, spell bytes. -/
theorem isSome_toBytes? (cs : List Char) : (toBytes? cs).isSome = (cs.all isDigit && cs.length % 2 == 0) := by
  match cs with
  | [] => rfl
  | [c] => simp [toBytes?]
  | h :: l :: cs =>
    have pairs : (h :: l :: cs).length % 2 = cs.length % 2 := by
      simp only [List.length_cons]
      omega
    rw [isSome_toBytes?_cons, isSome_toBytes? cs, pairs, List.all_cons, List.all_cons, Bool.and_assoc, Bool.and_assoc,
      Bool.and_assoc]

/-- Each byte takes two digits. -/
theorem length_of_toBytes? {cs : List Char} {bs : List UInt8} (spelled : toBytes? cs = some bs) :
    cs.length = 2 * bs.length := by
  fun_induction toBytes? cs generalizing bs with
  | case1 =>
    cases spelled
    rfl
  | case2 => cases spelled
  | case3 h l cs high low rest read _ _ ih =>
    cases spelled
    simp only [List.length_cons, ih read]
    omega
  | case4 => cases spelled

end CalcImage.Text.Hex
