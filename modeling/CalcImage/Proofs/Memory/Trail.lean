import Mathlib.Data.List.Nodup
import CalcImage.Proofs.Memory.Writes

/-!
# The walk as an order of locations

A walk comes from one location to another exactly when the rank does not rise (`reaches_iff`), and a rank belongs to one
location, so the walk puts all locations in a row that ends at the last byte of register 0. The trail of a walk is a
piece of this row: it comes by no location twice, and it is cut short where the row ends (`trail_locationOfRank`).
Therefore bytes that are written along a trail do not get into each other's way, and they are read back from its first
location on (`Edit.ReadsBack`).
-/

namespace CalcImage

namespace Walk

/-- The rank of a location of memory or above. -/
theorem rank_natCast (loc : Nat) : rank loc = (locationOfRank loc : Int) := by
  unfold rank locationOfRank
  omega

theorem rank_inj {loc other : Int} : rank loc = rank other ↔ loc = other := by
  unfold rank
  omega

/-- A rank belongs to one location. -/
theorem rank_eq_iff {loc : Int} {r : Nat} : rank loc = r ↔ loc = locationOfRank r := by
  rw [← rank_locationOfRank r, rank_inj]

/-- Whole registers are walked over by their seven bytes. -/
theorem advance_register {r k : Nat} (low : k ≤ r) :
    advance ((7 * r : Nat) : Int) (7 * k) = .ok ((7 * (r - k) : Nat) : Int) := by
  rw [advance_eq_ok_iff]
  unfold locationOfRank
  omega

/-- Going on from where a walk has come is walking further. -/
theorem advance_add (loc : Int) (a b : Nat) :
    (advance loc a >>= fun between => advance between b) = advance loc (a + b) := by
  induction a generalizing loc with
  | zero =>
    rw [Nat.zero_add]
    rfl
  | succ a ih =>
    rw [Nat.succ_add, advance, advance]
    cases next loc with
    | error f => rfl
    | ok following => exact ih following

/-- The walk from the first location comes by the second one. -/
def Reaches (loc other : Int) : Prop := ∃ steps, advance loc steps = .ok other

theorem reaches_iff {loc other : Nat} : Reaches loc other ↔ rank other ≤ rank loc := by
  rw [rank_natCast, rank_natCast]
  constructor
  · rintro ⟨steps, walked⟩
    obtain ⟨fits, landed⟩ := advance_eq_ok_iff.1 walked
    rw [Int.natCast_inj.1 landed, locationOfRank_locationOfRank]
    omega
  · intro le
    refine ⟨locationOfRank loc - locationOfRank other, advance_eq_ok_iff.2 ⟨by omega, ?_⟩⟩
    rw [Nat.sub_sub_self (by omega), locationOfRank_locationOfRank]

/-- The locations of `count` ranks from `r` downwards. -/
def descent (r count : Nat) : List Int := (List.range count).map fun i => (locationOfRank (r - i) : Int)

@[simp] theorem length_descent (r count : Nat) : (descent r count).length = count := by
  rw [descent, List.length_map, List.length_range]

theorem descent_succ (r count : Nat) : descent r (count + 1) = (locationOfRank r : Int) :: descent (r - 1) count := by
  rw [descent, List.range_succ_eq_map, List.map_cons, List.map_map, descent]
  congr 1
  apply List.map_congr_left
  intro i _
  rw [Function.comp_apply, Nat.succ_eq_add_one, Nat.add_comm, Nat.sub_add_eq]

theorem nodup_descent {r count : Nat} (fits : count ≤ r + 1) : (descent r count).Nodup := by
  apply List.Nodup.map_on _ List.nodup_range
  intro i first j second same
  rw [List.mem_range] at first second
  have := locationOfRank_inj.1 (Int.natCast_inj.1 same)
  omega

/-- A location is on the descent when its rank is one of those. -/
theorem mem_descent {r count s : Nat} (high : s ≤ r) (low : r < s + count) :
    (locationOfRank s : Int) ∈ descent r count := by
  rw [descent, List.mem_map]
  exact ⟨r - s, List.mem_range.2 (by omega), by rw [Nat.sub_sub_self high]⟩

/-- A trail goes down rank by rank, and it is cut short when it is longer than what is left of the walk. -/
theorem trail_locationOfRank (r count : Nat) :
    trail (locationOfRank r) count =
      ⟨descent r (min count (r + 1)), if count ≤ r + 1 then none else some (.walkEnded 6)⟩ := by
  induction count generalizing r with
  | zero => rfl
  | succ count ih =>
    cases count with
    | zero =>
      rw [trail, Nat.min_eq_left (by omega), if_pos (by omega)]
      rfl
    | succ count =>
      cases r with
      | zero =>
        rw [trail, next_last, Nat.min_eq_right (by omega), if_neg (by omega)]
        rfl
      | succ s =>
        -- The trail goes on one rank below, with one location less.
        rw [trail, next_locationOfRank]
        dsimp only
        rw [ih s, Nat.add_min_add_right (count + 1), descent_succ (s + 1), Nat.add_sub_cancel]
        simp only [Nat.add_le_add_iff_right]

/-- Walks from a location. More steps than its rank end in a fault, and any other number leads to the one location whose
rank is lower by it, inside memory when the walk begins there. Two locations always stand in one order. -/
structure Ordered (loc : Nat) : Prop where
  raises : ∀ steps : Nat, (∃ f, advance loc steps = .error f ∧ f.kind = .walk) ↔ rank loc < steps
  lands : ∀ steps : Nat, (steps : Int) ≤ rank loc → ∃ following : Nat, advance loc steps = .ok (following : Int) ∧
    (∀ other : Int, rank other = rank loc - steps ↔ other = following) ∧ (loc ≤ 7783 → following ≤ 7783)
  onward : ∀ a b : Nat, (advance loc a >>= fun between => advance between b) = advance loc (a + b)
  total : ∀ other : Nat, Reaches loc other ∨ Reaches other loc
  antisymm : ∀ other : Nat, Reaches loc other → Reaches other loc → other = loc

theorem ordered (loc : Nat) : Ordered loc := by
  have own : (locationOfRank (locationOfRank loc) : Int) = loc := by rw [locationOfRank_locationOfRank]
  constructor
  case raises =>
    intro steps
    rw [rank_natCast]
    constructor
    · rintro ⟨f, failed, -⟩
      by_contra fits
      rw [advance_eq_ok_iff.2 ⟨by omega, rfl⟩] at failed
      cases failed
    · intro many
      refine ⟨.walkEnded 6, ?_, rfl⟩
      rw [← own]
      exact advance_of_rank_lt (by omega)
  case lands =>
    intro steps fits
    rw [rank_natCast] at fits ⊢
    refine ⟨locationOfRank (locationOfRank loc - steps), advance_eq_ok_iff.2 ⟨by omega, rfl⟩, ?_, ?_⟩
    · intro other
      rw [← Int.natCast_sub (by omega), rank_eq_iff]
    · intro inside
      have := locationOfRank_lt (r := loc) (by simp only [memorySize]; omega)
      have := locationOfRank_lt (r := locationOfRank loc - steps) (by omega)
      simp only [memorySize] at this
      omega
  case onward => exact advance_add loc
  case total =>
    intro other
    rw [reaches_iff, reaches_iff]
    exact Int.le_total _ _
  case antisymm =>
    intro other there back
    have same := Int.le_antisymm (reaches_iff.1 there) (reaches_iff.1 back)
    exact Int.natCast_inj.1 (rank_inj.1 same)

/-- Trails from a location. One is as long as it was asked for when the walk has so many locations, and else it has all
of them and a fault. It comes by no location twice, and each one is where a walk of as many steps lands. -/
structure Trailed (loc : Nat) : Prop where
  complete : ∀ count : Nat, (count : Int) ≤ rank loc + 1 →
    (trail loc count).fault = none ∧ (trail loc count).locations.length = count
  cut : ∀ count : Nat, rank loc + 1 < count →
    (∃ f, (trail loc count).fault = some f ∧ f.kind = .walk) ∧ (trail loc count).locations.length = rank loc + 1
  distinct : ∀ count : Nat, (trail loc count).locations.Nodup
  along : ∀ count i place, (trail loc count).locations[i]? = some place → advance loc i = .ok place

theorem trailed (loc : Nat) : Trailed loc := by
  obtain ⟨r, rfl⟩ := exists_rank loc
  constructor
  case complete =>
    intro count fits
    rw [rank_locationOfRank] at fits
    rw [trail_locationOfRank, if_pos (by omega), length_descent]
    exact ⟨rfl, by omega⟩
  case cut =>
    intro count many
    rw [rank_locationOfRank] at many ⊢
    rw [trail_locationOfRank, if_neg (by omega), length_descent]
    exact ⟨⟨_, rfl, rfl⟩, by omega⟩
  case distinct =>
    intro count
    rw [trail_locationOfRank]
    exact nodup_descent (by omega)
  case along =>
    intro count i place here
    rw [trail_locationOfRank, descent, List.getElem?_map, Option.map_eq_some_iff] at here
    obtain ⟨j, found, rfl⟩ := here
    obtain ⟨inside, rfl⟩ := List.getElem?_eq_some_iff.1 found
    rw [List.length_range] at inside
    rw [List.getElem_range]
    exact advance_locationOfRank (by omega)

end Walk

namespace Edit

open Walk

/-- The writes that put bytes at the locations of the trail from `loc`. -/
def along (loc : Int) (bs : List UInt8) : List Write :=
  List.zipWith (fun place b => .byte place b.toNat) (trail loc bs.length).locations bs

/-- Bytes that are written down the ranks are laid down. -/
theorem on_writeAll_descent {r : Nat} (inside : r < memorySize) (bs : List UInt8) (d : Desk) :
    (writeAll (List.zipWith (fun place b => .byte place b.toNat) (descent r bs.length) bs)).on d =
      (.ok (), withImage d (d.image.lay r bs)) := by
  induction bs generalizing r d with
  | nil => rfl
  | cons b bs ih =>
    rw [List.length_cons, descent_succ, List.zipWith_cons_cons, writeAll, Write.edit,
      on_bind_of_ok (on_setByte inside b d), ih (by omega), Image.lay]

theorem on_writeAll_along {r : Nat} {bs : List UInt8} (inside : r < memorySize) (fits : bs.length ≤ r + 1) (d : Desk) :
    (writeAll (along (locationOfRank r) bs)).on d = (.ok (), withImage d (d.image.lay r bs)) := by
  rw [along, trail_locationOfRank, Nat.min_eq_left fits]
  exact on_writeAll_descent inside bs d

/-- Bytes written along the trail from `loc` are read back from there, and the other locations are as they were. -/
structure ReadsBack (loc : Nat) (bs : List UInt8) (d : Desk) (img : Image) : Prop where
  written : (writeAll (along loc bs)).on d = (.ok (), withImage d img)
  read : img.read loc bs.length = .ok bs
  others : ∀ other : Int, other ∉ (trail loc bs.length).locations → img.get other = d.image.get other
  cpu : img.cpu = d.image.cpu

theorem readsBack_lay {r : Nat} {bs : List UInt8} (inside : r < memorySize) (fits : bs.length ≤ r + 1) (d : Desk) :
    ReadsBack (locationOfRank r) bs d (d.image.lay r bs) where
  written := on_writeAll_along inside fits d
  read := by
    rw [Image.read_locationOfRank _ inside fits, Image.tape_lay _ inside fits, List.take_left]
  others := by
    intro other apart
    by_cases place : 0 ≤ other ∧ other < 7784
    · obtain ⟨n, rfl⟩ := Int.eq_ofNat_of_zero_le place.1
      rw [trail_locationOfRank, Nat.min_eq_left fits] at apart
      rw [Image.get_of_lt _ (by simp only [memorySize]; omega), Image.get_of_lt _ (by simp only [memorySize]; omega),
        ← locationOfRank_locationOfRank n, Image.byte_lay_of_outside _ fits]
      by_contra covered
      apply apart
      rw [← locationOfRank_locationOfRank n]
      exact mem_descent (by omega) (by omega)
    · have outside : Image.location other = .error (.locationOutside other) := if_neg place
      rw [Image.get, Image.get, outside]
      rfl
  cpu := Image.cpu_lay _ _ _

end Edit

open Walk in
/-- **The order of locations.** The walk orders all locations by their rank, register after register. Its trails come by
different locations, and what is written along a trail of memory is read back from its first location, with every other
location as it was. -/
theorem walk_ordered (loc : Nat) :
    Ordered loc ∧ (∀ r k : Nat, k ≤ r → advance ((7 * r : Nat) : Int) (7 * k) = .ok ((7 * (r - k) : Nat) : Int)) ∧
      Trailed loc ∧
      (loc ≤ 7783 → ∀ (d : Desk) (bs : List UInt8), (bs.length : Int) ≤ rank loc + 1 →
        ∃ img, Edit.ReadsBack loc bs d img) := by
  refine ⟨ordered loc, fun r k => advance_register, trailed loc, ?_⟩
  intro inside d bs fits
  have small := locationOfRank_lt (r := loc) (by simp only [memorySize]; omega)
  rw [rank_natCast] at fits
  have back := Edit.readsBack_lay small (by omega : bs.length ≤ locationOfRank loc + 1) d
  rw [locationOfRank_locationOfRank] at back
  exact ⟨_, back⟩

/-- From the last byte of register 1 seven steps lead to the last byte of register 0 and eight to a fault, and eight
bytes that are written from there on are read back. -/
theorem walk_ordered_last :
    Walk.advance (13 : Nat) 7 = .ok 6 ∧ (∃ f, Walk.advance (13 : Nat) 8 = .error f ∧ f.kind = .walk) ∧
      ∀ d : Desk, ∃ img, Edit.ReadsBack 13 [1, 2, 3, 4, 5, 6, 7, 8] d img := by
  obtain ⟨ordered, -, -, back⟩ := walk_ordered 13
  obtain ⟨following, landed, only, -⟩ := ordered.lands 7 (by decide)
  have last : (6 : Int) = following := (only 6).1 (by decide)
  refine ⟨by rw [landed, ← last], (ordered.raises 8).2 (by decide), ?_⟩
  intro d
  exact back (by decide) d _ (by decide)

end CalcImage
