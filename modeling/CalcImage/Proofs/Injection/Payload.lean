import Mathlib.Algebra.Group.Nat.Even
import Mathlib.Data.List.Forall2
import CalcImage.Injection
import CalcImage.Proofs.Text.Words

/-!
# Payloads in hexadecimal

A text is read as a payload when it is the digits of some bytes, each digit in either case, with blank characters put in
anywhere, also inside of a pair (`Payload.Spells`). Whether there are such bytes can be seen from the characters alone
(`Hex.IsPairs`), and the bytes can be seen from the text in lower case (`Hex.toBytes?_eq_some_iff`).
-/

namespace CalcImage

namespace Text

/-- A text with blank characters put in: at its two ends, or between any two of its characters. -/
inductive Interspersed : List Char → List Char → Prop where
  | nil : Interspersed [] []
  | keep {ds cs : List Char} (c : Char) (more : Interspersed ds cs) : Interspersed (c :: ds) (c :: cs)
  | blank {ds cs : List Char} {b : Char} (isBlank : isBlank b = true) (more : Interspersed ds cs) :
      Interspersed ds (b :: cs)

/-- To put blanks into a text that has none is undone by leaving them out. -/
theorem interspersed_iff {ds cs : List Char} (solid : Solid ds) : Interspersed ds cs ↔ dropBlanks cs = ds := by
  constructor
  · intro blanks
    induction blanks with
    | nil => rfl
    | keep c more ih =>
      obtain ⟨here, later⟩ := List.forall_mem_cons.1 solid
      rw [dropBlanks, List.filter_cons_of_pos (by simp [here])]
      exact congrArg (c :: ·) (ih later)
    | blank isBlank more ih =>
      rw [dropBlanks, List.filter_cons_of_neg (by simp [isBlank])]
      exact ih solid
  · rintro rfl
    induction cs with
    | nil => exact .nil
    | cons c cs ih =>
      cases blank : isBlank c with
      | true =>
        rw [dropBlanks, List.filter_cons_of_neg (by simp [blank])] at solid ⊢
        exact .blank blank (ih solid)
      | false =>
        rw [dropBlanks, List.filter_cons_of_pos (by simp [blank])] at solid ⊢
        exact .keep c (ih (List.forall_mem_cons.1 solid).2)

namespace Hex

/-- The hexadecimal digits of ASCII in both cases. -/
def digits : List Char :=
  ['0', '1', '2', '3', '4', '5', '6', '7', '8', '9', 'a', 'b', 'c', 'd', 'e', 'f', 'A', 'B', 'C', 'D', 'E', 'F']

/-- The characters are digits, and they go into pairs. -/
def IsPairs (cs : List Char) : Prop := (∀ c ∈ cs, c ∈ digits) ∧ Even cs.length

/-- The character is a lower-case digit or the upper case of it. -/
def Cased (digit c : Char) : Prop := c = digit ∨ c = digit.toUpper

instance (digit c : Char) : Decidable (Cased digit c) := inferInstanceAs (Decidable (_ ∨ _))

/-- What can be said of the ASCII characters is said of a character below 0x80. -/
theorem of_ascii {P : Char → Prop} (all : ∀ n ∈ List.range 128, P (Char.ofNat n)) {c : Char} (low : c.toNat < 128) :
    P c := by
  have here := all c.toNat (List.mem_range.2 low)
  rwa [Char.ofNat_toNat] at here

theorem isDigit_iff_mem {c : Char} : isDigit c = true ↔ c ∈ digits := by
  constructor
  · intro digit
    have range := range_of_isDigit digit
    refine of_ascii (P := fun c => isDigit c = true → c ∈ digits) ?_ (by omega) digit
    decide +kernel
  · have all : digits.all isDigit = true := by decide
    exact List.all_eq_true.1 all c

/-- A lower-case digit and its upper case, and no other characters, are this digit in lower case. -/
theorem cased_iff {n : Nat} (small : n < 16) (c : Char) : Cased (digit n) c ↔ c.toLower = digit n := by
  by_cases ascii : c.toNat < 128
  · refine of_ascii (P := fun c => ∀ n ∈ List.range 16, Cased (digit n) c ↔ c.toLower = digit n) ?_ ascii n
      (List.mem_range.2 small)
    decide +kernel
  · have low : (digit n).toNat < 128 ∧ (digit n).toUpper.toNat < 128 := by
      have all : ∀ k ∈ List.range 16, (digit k).toNat < 128 ∧ (digit k).toUpper.toNat < 128 := by decide
      exact all n (List.mem_range.2 small)
    have same : c.toLower = c := by
      unfold Char.toLower
      apply dif_neg
      rintro ⟨-, below⟩
      rw [UInt32.le_iff_toNat_le] at below
      change c.toNat ≤ 90 at below
      omega
    rw [same]
    constructor
    · rintro (rfl | rfl)
      · rfl
      · omega
    · exact .inl

/-- A digit has its value in either case. -/
theorem value?_eq_some_iff {c : Char} {n : Nat} : value? c = some n ↔ n < 16 ∧ c.toLower = digit n := by
  constructor
  · intro value
    have hex : isDigit c = true := by rw [isDigit, value]; rfl
    have range := range_of_isDigit hex
    have found : ∃ k < 16, value? c = some k ∧ c.toLower = digit k := by
      refine of_ascii (P := fun c => isDigit c = true → ∃ k < 16, value? c = some k ∧ c.toLower = digit k) ?_ (by omega)
        hex
      decide +kernel
    obtain ⟨k, small, value', lower⟩ := found
    rw [value'] at value
    cases value
    exact ⟨small, lower⟩
  · rintro ⟨small, lower⟩
    have all : ∀ k ∈ List.range 16, value? (digit k).toUpper = some k := by decide
    rcases (cased_iff small c).2 lower with rfl | rfl
    · exact value?_digit small
    · exact all n (List.mem_range.2 small)

/-- A pair of digits spells the byte with these two halves. -/
theorem toBytes?_cons_iff {h l : Char} {cs : List Char} {b : UInt8} {bs : List UInt8} :
    toBytes? (h :: l :: cs) = some (b :: bs) ↔
      value? h = some (b.toNat / 16) ∧ value? l = some (b.toNat % 16) ∧ toBytes? cs = some bs := by
  rw [toBytes?]
  constructor
  · intro spelled
    split at spelled
    case h_2 => cases spelled
    case h_1 high low bs' highRead lowRead read =>
      cases spelled
      have highSmall := (value?_eq_some_iff.1 highRead).1
      have lowSmall := (value?_eq_some_iff.1 lowRead).1
      have byte : (UInt8.ofNat (16 * high + low)).toNat = 16 * high + low := by
        rw [UInt8.toNat_ofNat']
        omega
      rw [byte, highRead, lowRead, read]
      refine ⟨?_, ?_, rfl⟩ <;> congr 1 <;> omega
  · rintro ⟨high, low, read⟩
    rw [high, low, read]
    dsimp only
    rw [show 16 * (b.toNat / 16) + b.toNat % 16 = b.toNat by omega, UInt8.ofNat_toNat]

/-- The bytes that a text spells are those whose digits it is in lower case. -/
theorem toBytes?_eq_some_iff {cs : List Char} {bs : List UInt8} :
    toBytes? cs = some bs ↔ cs.map Char.toLower = ofBytes bs := by
  match cs, bs with
  | [], [] => simp [toBytes?, ofBytes]
  | [], b :: bs => simp [toBytes?, ofBytes]
  | [c], [] => simp [toBytes?, ofBytes]
  | [c], b :: bs => simp [toBytes?, ofBytes]
  | h :: l :: cs, [] =>
    apply iff_of_false
    · intro spelled
      cases length_of_toBytes? spelled
    · simp [ofBytes]
  | h :: l :: cs, b :: bs =>
    have := b.toNat_lt
    rw [toBytes?_cons_iff, toBytes?_eq_some_iff, value?_eq_some_iff, value?_eq_some_iff, ofBytes, List.map_cons,
      List.map_cons, List.cons.injEq, List.cons.injEq]
    constructor
    · rintro ⟨⟨-, high⟩, ⟨-, low⟩, later⟩
      exact ⟨high, low, later⟩
    · rintro ⟨high, low, later⟩
      exact ⟨⟨by omega, high⟩, ⟨by omega, low⟩, later⟩

/-- Every digit of the bytes may be written in either case. -/
theorem forall_cased_iff {cs : List Char} {bs : List UInt8} :
    List.Forall₂ Cased (ofBytes bs) cs ↔ cs.map Char.toLower = ofBytes bs := by
  induction bs generalizing cs with
  | nil => simp [ofBytes]
  | cons b bs ih =>
    have := b.toNat_lt
    rcases cs with _ | ⟨h, _ | ⟨l, cs⟩⟩
    · simp [ofBytes]
    · simp [ofBytes]
    · rw [ofBytes, List.forall₂_cons, List.forall₂_cons, ih, cased_iff (by omega), cased_iff (by omega), List.map_cons,
        List.map_cons, List.cons.injEq, List.cons.injEq]

theorem isSome_toBytes?_iff {cs : List Char} : (∃ bs, toBytes? cs = some bs) ↔ IsPairs cs := by
  rw [← Option.isSome_iff_exists, isSome_toBytes?, IsPairs, Nat.even_iff, Bool.and_eq_true, beq_iff_eq, List.all_eq_true]
  simp only [isDigit_iff_mem]

end Hex

end Text

namespace Payload

open Text

/-- A text spells bytes: it is their digits, each in either case, with blank characters put in anywhere. -/
def Spells (cs : List Char) (bs : List UInt8) : Prop :=
  ∃ ds, List.Forall₂ Hex.Cased (Hex.ofBytes bs) ds ∧ Interspersed ds cs

theorem ofHex_eq_ok_iff {s : String} {bs : List UInt8} :
    ofHex s = .ok bs ↔ Hex.toBytes? (dropBlanks s.toList) = some bs := by
  unfold ofHex
  cases Hex.toBytes? (dropBlanks s.toList) <;> simp

/-- A text that is not read is refused as a payload, and shown. -/
theorem ofHex_of_ne_ok {s : String} (unread : ¬∃ bs, ofHex s = .ok bs) : ofHex s = .error (.payloadText s) := by
  unfold ofHex at unread ⊢
  cases spelled : Hex.toBytes? (dropBlanks s.toList) with
  | none => rfl
  | some bs =>
    rw [spelled] at unread
    exact absurd ⟨bs, rfl⟩ unread

theorem spells_iff {cs : List Char} {bs : List UInt8} :
    Spells cs bs ↔ (dropBlanks cs).map Char.toLower = Hex.ofBytes bs := by
  constructor
  · rintro ⟨ds, cased, blanks⟩
    have spelled : Hex.toBytes? ds = some bs := Hex.toBytes?_eq_some_iff.2 (Hex.forall_cased_iff.1 cased)
    have digits : ds.all Hex.isDigit = true := by
      have read := Hex.isSome_toBytes? ds
      rw [spelled, Option.isSome_some, eq_comm, Bool.and_eq_true] at read
      exact read.1
    rw [(interspersed_iff (Hex.solid_of_isDigit digits)).1 blanks]
    exact Hex.forall_cased_iff.1 cased
  · intro lower
    have solid : Solid (dropBlanks cs) := by
      intro c member
      simpa using (List.mem_filter.1 member).2
    exact ⟨dropBlanks cs, Hex.forall_cased_iff.2 lower, (interspersed_iff solid).2 rfl⟩

/-- **What a payload in hexadecimal is.** A text is read when without its blank characters it is pairs of ASCII digits,
and every other text is refused as a payload. What is read from it are the bytes that it spells in either case and with
blanks anywhere, and their digits are the text in lower case without its blanks. -/
theorem ofHex_spelled (s : String) :
    ((∃ bs, ofHex s = .ok bs) ↔ Hex.IsPairs (dropBlanks s.toList)) ∧
      (¬Hex.IsPairs (dropBlanks s.toList) ↔ ∃ f, ofHex s = .error f ∧ f.kind = .injection) ∧
      ∀ bs, (ofHex s = .ok bs ↔ Spells s.toList bs) ∧
        (ofHex s = .ok bs ↔ (dropBlanks s.toList).map Char.toLower = Hex.ofBytes bs) := by
  have accepted : (∃ bs, ofHex s = .ok bs) ↔ Hex.IsPairs (dropBlanks s.toList) := by
    simp only [ofHex_eq_ok_iff]
    exact Hex.isSome_toBytes?_iff
  refine ⟨accepted, ?_, ?_⟩
  · rw [← accepted]
    constructor
    · intro unread
      exact ⟨.payloadText s, ofHex_of_ne_ok unread, rfl⟩
    · rintro ⟨f, refused, -⟩ ⟨bs, read⟩
      rw [refused] at read
      cases read
  · intro bs
    have lower : ofHex s = .ok bs ↔ (dropBlanks s.toList).map Char.toLower = Hex.ofBytes bs := by
      rw [ofHex_eq_ok_iff, Hex.toBytes?_eq_some_iff]
    exact ⟨by rw [lower, spells_iff], lower⟩

example : ofHex "c0\x09F\u00A03\n00 " = .ok [0xC0, 0xF3, 0x00] := by decide

example : ofHex "c0 f" = .error (.payloadText "c0 f") := by decide

end Payload

end CalcImage
