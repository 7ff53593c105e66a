import CalcImage.Memory.Image

/-!
# Program order

A location and its rank determine each other (`locationOfRank_locationOfRank`), a step lowers the rank by one
(`next_locationOfRank`), and only the last location has no step (`next_last`). A walk of several steps succeeds exactly
when the rank has room for them (`advance_locationOfRank`, `advance_of_rank_lt`). So what memory holds in program order
is a list, `Image.tape`, and the facts below say how that list sees single bytes, registers and reads.
-/

namespace CalcImage

namespace Walk

@[simp] theorem locationOfRank_locationOfRank (r : Nat) : locationOfRank (locationOfRank r) = r := by
  unfold locationOfRank
  omega

@[simp] theorem locationOfRank_inj {r s : Nat} : locationOfRank r = locationOfRank s ↔ r = s := by
  constructor
  · intro h
    rw [← locationOfRank_locationOfRank r, h, locationOfRank_locationOfRank]
  · rintro rfl
    rfl

theorem exists_rank (loc : Nat) : ∃ r, loc = locationOfRank r :=
  ⟨locationOfRank loc, (locationOfRank_locationOfRank loc).symm⟩

/-- The rank of byte `k` of a register. -/
theorem locationOfRank_register {index k : Nat} (hk : k < 7) : locationOfRank (7 * index + 6 - k) = 7 * index + k := by
  unfold locationOfRank
  omega

@[simp] theorem toNat_rank (loc : Nat) : (rank loc).toNat = locationOfRank loc := by
  unfold rank locationOfRank
  omega

/-- A step lowers the rank by one. -/
theorem next_locationOfRank (r : Nat) : next (locationOfRank (r + 1)) = .ok (locationOfRank r : Int) := by
  unfold next locationOfRank
  split
  · omega
  · split
    · congr 1
      omega
    · split
      · omega
      · congr 1
        omega

/-- The walk ends at the location of rank zero. -/
theorem next_last : next (locationOfRank 0) = .error (.walkEnded 6) := rfl

/-- Steps lower the rank by their number while there are so many. -/
theorem advance_locationOfRank {r steps : Nat} (fits : steps ≤ r) :
    advance (locationOfRank r) steps = .ok (locationOfRank (r - steps) : Int) := by
  induction steps generalizing r with
  | zero => rfl
  | succ steps ih =>
    obtain ⟨s, rfl⟩ : ∃ s, r = s + 1 := ⟨r - 1, by omega⟩
    simp only [advance, next_locationOfRank]
    rw [ih (by omega), Nat.add_sub_add_right]

/-- More steps come to the end of the walk. -/
theorem advance_of_rank_lt {r steps : Nat} (many : r < steps) :
    advance (locationOfRank r) steps = .error (.walkEnded 6) := by
  induction r generalizing steps with
  | zero =>
    obtain ⟨rest, rfl⟩ : ∃ rest, steps = rest + 1 := ⟨steps - 1, by omega⟩
    simp only [advance, next_last]
  | succ s ih =>
    obtain ⟨rest, rfl⟩ : ∃ rest, steps = rest + 1 := ⟨steps - 1, by omega⟩
    simp only [advance, next_locationOfRank]
    exact ih (by omega)

/-- A walk from a location succeeds exactly when its rank has room for the steps. -/
theorem advance_eq_ok_iff {loc steps : Nat} {following : Int} :
    advance loc steps = .ok following ↔
      steps ≤ locationOfRank loc ∧ following = locationOfRank (locationOfRank loc - steps) := by
  obtain ⟨r, rfl⟩ := exists_rank loc
  rw [locationOfRank_locationOfRank]
  constructor
  · intro walked
    rcases Nat.lt_or_ge r steps with many | fits
    · rw [advance_of_rank_lt many] at walked
      cases walked
    · rw [advance_locationOfRank fits] at walked
      cases walked
      exact ⟨fits, rfl⟩
  · rintro ⟨fits, rfl⟩
    exact advance_locationOfRank fits

end Walk

namespace Image

open Walk

theorem getElem?_tape (img : Image) (r i : Nat) :
    (img.tape r)[i]? = if i ≤ r then some (img.byte (locationOfRank (r - i))) else none := by
  induction r generalizing i with
  | zero => cases i <;> simp [tape]
  | succ r ih =>
    cases i with
    | zero => simp [tape]
    | succ i => simp [tape, ih]

/-- Two tapes begin with the same bytes when their images agree at the ranks that these come from. -/
theorem take_tape_congr {img img' : Image} {r count : Nat}
    (same : ∀ s, s ≤ r → r < s + count → img'.byte (locationOfRank s) = img.byte (locationOfRank s)) :
    (img'.tape r).take count = (img.tape r).take count := by
  apply List.ext_getElem?
  intro i
  rw [List.getElem?_take, List.getElem?_take, getElem?_tape, getElem?_tape]
  split
  · split
    · rw [same (r - i) (by omega) (by omega)]
    · rfl
  · rfl

theorem tape_congr {img img' : Image} {r : Nat}
    (same : ∀ s, s ≤ r → img'.byte (locationOfRank s) = img.byte (locationOfRank s)) : img'.tape r = img.tape r := by
  have whole (img : Image) : (img.tape r).take (r + 1) = img.tape r := by
    rw [← length_tape img r, List.take_length]
  rw [← whole img', ← whole img]
  exact take_tape_congr fun s hs _ => same s hs

theorem drop_tape (img : Image) {r count : Nat} (h : count ≤ r) : (img.tape r).drop count = img.tape (r - count) := by
  apply List.ext_getElem?
  intro i
  rw [List.getElem?_drop, getElem?_tape, getElem?_tape]
  by_cases hi : count + i ≤ r
  · rw [if_pos hi, if_pos (by omega), show r - (count + i) = r - count - i by omega]
  · rw [if_neg hi, if_neg (by omega)]

/-- The tape from a register on is what follows the registers above it. -/
theorem drop_tape_register (img : Image) {top index : Nat} (low : index ≤ top) :
    (img.tape (7 * top + 6)).drop (7 * (top - index)) = img.tape (7 * index + 6) := by
  rw [drop_tape img (by omega), show 7 * top + 6 - 7 * (top - index) = 7 * index + 6 by omega]

theorem tape_split (img : Image) {top index : Nat} (low : index ≤ top) :
    img.tape (7 * top + 6) = (img.tape (7 * top + 6)).take (7 * (top - index)) ++ img.tape (7 * index + 6) := by
  rw [← drop_tape_register img low, List.take_append_drop]

/-- A register is the beginning of the tape from its first byte on. -/
theorem registerAt_eq_take (img : Image) (index : Nat) : img.registerAt index = (img.tape (7 * index + 6)).take 7 := by
  apply List.ext_getElem?
  intro k
  rw [registerAt, List.getElem?_map, List.getElem?_take, getElem?_tape]
  by_cases hk : k < 7
  · rw [List.getElem?_range hk, if_pos hk, if_pos (by omega), locationOfRank_register hk]
    rfl
  · rw [if_neg hk, List.getElem?_eq_none (by simpa using hk)]
    rfl

/-- Registers are the same when their seven bytes are. -/
theorem registerAt_congr {img img' : Image} {index : Nat}
    (same : ∀ k, k < 7 → img'.byte (7 * index + k) = img.byte (7 * index + k)) :
    img'.registerAt index = img.registerAt index := by
  unfold registerAt
  apply List.map_congr_left
  intro k hk
  exact same k (List.mem_range.1 hk)

theorem get_of_lt (img : Image) {loc : Nat} (inside : loc < memorySize) : img.get loc = .ok (img.byte loc) := by
  simp only [memorySize] at inside
  unfold get location
  rw [if_pos (by omega)]
  rfl

theorem get_of_le (img : Image) {loc : Nat} (outside : memorySize ≤ loc) :
    img.get loc = .error (.locationOutside loc) := by
  simp only [memorySize] at outside
  unfold get location
  rw [if_neg (by omega)]
  rfl

theorem register_of_lt (img : Image) {index : Nat} (inside : index < registerCount) :
    img.register index = .ok (img.registerAt index) := by
  simp only [registerCount] at inside
  unfold register registerIndex
  rw [if_pos (by omega)]
  rfl

theorem register_of_le (img : Image) {index : Nat} (outside : registerCount ≤ index) :
    img.register index = .error (.registerOutside index) := by
  simp only [registerCount] at outside
  unfold register registerIndex
  rw [if_neg (by omega)]
  rfl

theorem registerHex_of_lt (img : Image) {index : Nat} (inside : index < registerCount) :
    img.registerHex index = .ok (String.ofList (Text.Hex.ofBytes (img.registerAt index))) := by
  rw [registerHex, register_of_lt img inside]
  rfl

theorem get_locationOfRank (img : Image) {r : Nat} (hr : r < memorySize) :
    img.get (locationOfRank r) = .ok (img.byte (locationOfRank r)) :=
  get_of_lt img (locationOfRank_lt hr)

/-- Reading takes bytes off the tape. -/
theorem read_locationOfRank (img : Image) {r count : Nat} (hr : r < memorySize) (h : count ≤ r + 1) :
    img.read (locationOfRank r) count = .ok ((img.tape r).take count) := by
  induction count generalizing r with
  | zero => rfl
  | succ count ih =>
    cases count with
    | zero =>
      rw [read, get_locationOfRank img hr]
      cases r <;> rfl
    | succ count =>
      obtain ⟨s, rfl⟩ : ∃ s, r = s + 1 := ⟨r - 1, by omega⟩
      rw [read, get_locationOfRank img hr, next_locationOfRank]
      change (do let bs ← img.read (locationOfRank s) (count + 1); pure (img.byte (locationOfRank (s + 1)) :: bs)) = _
      rw [ih (by omega) (by omega)]
      rfl

/-- An image is its bytes and its CPU registers. -/
theorem ext_byte {img img' : Image} (bytes : ∀ loc, loc < memorySize → img.byte loc = img'.byte loc)
    (cpu : img.cpu = img'.cpu) : img = img' := by
  obtain ⟨v, c⟩ := img
  obtain ⟨v', c'⟩ := img'
  obtain rfl : c = c' := cpu
  congr 1
  apply Vector.ext
  intro loc h
  simpa [byte, h] using bytes loc h

end Image

end CalcImage
