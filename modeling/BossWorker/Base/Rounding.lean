import Mathlib.Data.Rat.Floor

/-!
# Rounding to the nearest integer

Ties go to the even neighbour. An integer is its own rounding, and a number that is not
negative does not become so.
-/

namespace BossWorker

/-- The nearest integer, and of two the even one. -/
def roundHalfEven (value : ℚ) : ℤ :=
  let below := ⌊value⌋
  let rest := value - below
  if rest < 1 / 2 then below
  else if 1 / 2 < rest then below + 1
  else if below % 2 = 0 then below
  else below + 1

example : [roundHalfEven (1 / 2), roundHalfEven (3 / 2), roundHalfEven (8 / 3)] = [0, 2, 3] := by
  decide +kernel

/-- An integer stays as it is. -/
theorem roundHalfEven_intCast (value : ℤ) : roundHalfEven value = value := by
  have whole : (value : ℚ) - ⌊(value : ℚ)⌋ < 1 / 2 := by
    rw [Int.floor_intCast, sub_self]
    exact one_half_pos
  rw [roundHalfEven, if_pos whole, Int.floor_intCast]

/-- Rounding goes to one of the two neighbours. -/
theorem floor_le_roundHalfEven (value : ℚ) : ⌊value⌋ ≤ roundHalfEven value := by
  simp only [roundHalfEven]
  split
  · exact le_refl _
  · split
    · omega
    · split
      · exact le_refl _
      · omega

/-- Nothing is rounded below zero. -/
theorem roundHalfEven_nonneg {value : ℚ} (nonneg : 0 ≤ value) : 0 ≤ roundHalfEven value :=
  (Int.floor_nonneg.mpr nonneg).trans (floor_le_roundHalfEven value)

end BossWorker
