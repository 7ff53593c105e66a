import CalcImage.Fault

/-!
# Locations and their program order

Memory is a row of registers of seven bytes. A program is stored from high registers towards low ones, while the bytes
inside a register are read upwards, so after the last byte of a register the walk goes on at the first byte of the
register below. `rank` counts the steps that a location has before it until the end of the walk, which is the last byte
of register 0; a step lowers it by one.
-/

namespace CalcImage

/-- Registers in memory. -/
def registerCount : Nat := 1112

/-- Bytes in memory. -/
def memorySize : Nat := 7784

namespace Walk

/-- The location after `loc` in program order. -/
def next (loc : Int) : Except Fault Int :=
  if loc < 0 then .error (.belowStart loc)
  else if loc % 7 ≠ 6 then .ok (loc + 1)
  else if loc < 13 then .error (.walkEnded loc)
  else .ok (loc - 13)

/-- The location `steps` steps after `loc`. -/
def advance (loc : Int) : Nat → Except Fault Int
  | 0 => .ok loc
  | steps + 1 =>
    match next loc with
    | .error f => .error f
    | .ok following => advance following steps

/-- The locations that a walk comes by, and the fault that cut it short. -/
structure Trail where
  locations : List Int
  fault : Option Fault

/-- The `count` locations from `loc` on; the first one is taken as it is. -/
def trail (loc : Int) : Nat → Trail
  | 0 => ⟨[], none⟩
  | 1 => ⟨[loc], none⟩
  | count + 2 =>
    match next loc with
    | .error f => ⟨[loc], some f⟩
    | .ok following =>
      let rest := trail following (count + 1)
      ⟨loc :: rest.locations, rest.fault⟩

/-- The number of steps from a location to the end of the walk. -/
def rank (loc : Int) : Int := 7 * (loc / 7) + 6 - loc % 7

/-- The location with a given number of steps before it. -/
def locationOfRank (r : Nat) : Nat := 7 * (r / 7) + 6 - r % 7

theorem locationOfRank_lt {r : Nat} (h : r < memorySize) : locationOfRank r < memorySize := by
  unfold locationOfRank memorySize at *
  omega

@[simp] theorem rank_locationOfRank (r : Nat) : rank (locationOfRank r) = r := by
  unfold rank locationOfRank
  omega

end Walk

end CalcImage
